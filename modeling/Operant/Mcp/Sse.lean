import Mathlib.Data.List.DropRight
import Mathlib.Data.List.Basic
import Mathlib.Tactic

/-! Server-sent events.

`_iter_sse_events` reads a stream in the chunks it comes in and takes the lines off its
buffer. A line that has not ended is measured only while there is no other line in the
buffer, so how the end of a stream is reported depends on the chunks.

`chunking_free_iff`: all ways to cut a stream give the same exactly if the stream does not
end in an unfinished line that is too large behind lines that are all in order. -/
namespace Operant.Mcp

structure McpError where
  code : String
  message : String
  deriving DecidableEq

/-- The limit on one frame. -/
structure McpLimits where
  maxFrameBytes : Nat := 1000000
  least : 1024 ≤ maxFrameBytes := by decide
  most : maxFrameBytes ≤ 8000000 := by decide

abbrev Bytes := List UInt8

/-- The bytes of `"\n"`, `"\r"`, `":"` and `" "`. -/
def lf : UInt8 := 10
def cr : UInt8 := 13
def colon : UInt8 := 58
def blank : UInt8 := 32

/-- `b"event"` and `b"data"`. -/
def eventField : Bytes := [101, 118, 101, 110, 116]
def dataField : Bytes := [100, 97, 116, 97]

/-- `bytes.decode("utf-8", errors="strict")`. -/
def decodeUtf8 (bytes : Bytes) : Option String := String.fromUTF8? ⟨bytes.toArray⟩

/-- The lines that have ended, and what is left. -/
def cut : Bytes → List Bytes × Bytes
  | [] => ([], [])
  | b :: rest =>
    let (lines, tail) := cut rest
    if b = lf then ([] :: lines, tail)
    else match lines with
      | [] => ([], b :: tail)
      | line :: lines => ((b :: line) :: lines, tail)

/-- `line.partition(b":")`, without the blank that a value may begin with. -/
def splitField (line : Bytes) : Bytes × Bytes :=
  (line.takeWhile (· ≠ colon), match line.dropWhile (· ≠ colon) with
    | _ :: b :: value => if b = blank then value else b :: value
    | _ => [])

/-- `b"\n".join(..)`. -/
def joinLines (lines : List Bytes) : Bytes := List.intercalate [lf] lines

abbrev SseEvent := String × Bytes

structure SseParser where
  eventType : String := ""
  dataLines : List Bytes := []
  dataSize : Nat := 0

def tooLarge (message : String) : McpError := ⟨"mcp.frame_too_large", message⟩
def sseIncomplete : McpError :=
  ⟨"mcp.sse_incomplete", "MCP SSE stream ended with an incomplete event"⟩

/-- `raw_line.rstrip(b"\r")`. -/
def stripCr (raw : Bytes) : Bytes := raw.rdropWhile (· = cr)

/-- One line: the event it dispatches, and the parser after it. -/
def SseParser.readLine (limits : McpLimits) (p : SseParser) (raw : Bytes) :
    Except McpError (Option SseEvent × SseParser) :=
  if limits.maxFrameBytes < raw.length then throw (tooLarge "MCP SSE line is too large")
  else
    let line := stripCr raw
    if line = [] then
      return (if p.dataLines = [] then none else some (p.eventType, joinLines p.dataLines), {})
    else if line.head? = some colon then return (none, p)
    else
      let (field, value) := splitField line
      if field = eventField then
        match decodeUtf8 value with
        | none => throw ⟨"mcp.sse_invalid", "MCP SSE event name is invalid"⟩
        | some name =>
          if 100 < name.length then throw (tooLarge "MCP SSE event name is too large")
          else return (none, { p with eventType := name })
      else if field = dataField then
        let size := p.dataSize + value.length + if p.dataLines = [] then 0 else 1
        if limits.maxFrameBytes < size then throw (tooLarge "MCP SSE event is too large")
        else return (none, { p with dataLines := p.dataLines ++ [value], dataSize := size })
      else return (none, p)

/-- The lines of the buffer, until one of them is refused. -/
def SseParser.readLines (limits : McpLimits) :
    SseParser → List Bytes → List SseEvent × Except McpError SseParser
  | p, [] => ([], .ok p)
  | p, raw :: rest => match p.readLine limits raw with
    | .error e => ([], .error e)
    | .ok (event, p) =>
      let (events, result) := p.readLines limits rest
      (event.toList ++ events, result)

/-- What the end of the stream is reported as. -/
def SseParser.ending (p : SseParser) (buffer : Bytes) : Option McpError :=
  if buffer ≠ [] ∨ p.dataLines ≠ [] then some sseIncomplete else none

/-- `_iter_sse_events` from some point on: what it yields, and what it raises. -/
def SseParser.iterate (limits : McpLimits) :
    SseParser → Bytes → List Bytes → List SseEvent × Option McpError
  | p, buffer, [] => ([], p.ending buffer)
  | p, buffer, chunk :: chunks =>
    let buffer := buffer ++ chunk
    if limits.maxFrameBytes < buffer.length ∧ lf ∉ buffer then
      ([], some (tooLarge "MCP SSE line is too large"))
    else
      let (lines, rest) := cut buffer
      match p.readLines limits lines with
      | (events, .error e) => (events, some e)
      | (events, .ok p) =>
        let (more, outcome) := p.iterate limits rest chunks
        (events ++ more, outcome)

/-- `_iter_sse_events`. -/
def iterSseEvents (limits : McpLimits) (chunks : List Bytes) : List SseEvent × Option McpError :=
  SseParser.iterate limits {} [] chunks

/-! ### The grammar

A block is the lines since the last blank one. -/

/-- The values of a field, line by line. A comment's field has the empty name. -/
def fieldValues (name : Bytes) (block : List Bytes) : List Bytes :=
  (block.filter fun line => (splitField line).1 = name).map fun line => (splitField line).2

def blockType (block : List Bytes) : String :=
  (((fieldValues eventField block).getLast?).bind decodeUtf8).getD ""

/-- What a blank line makes of the block before it. -/
def dispatch (block : List Bytes) : Option SseEvent :=
  if fieldValues dataField block = [] then none
  else some (blockType block, joinLines (fieldValues dataField block))

/-- The block after one more line. -/
def addLine (block : List Bytes) (raw : Bytes) : List Bytes :=
  if stripCr raw = [] then [] else block ++ [stripCr raw]

/-- The events that lines dispatch. -/
def grammar : List Bytes → List Bytes → List SseEvent
  | _, [] => []
  | block, raw :: rest =>
    (if stripCr raw = [] then (dispatch block).toList else []) ++ grammar (addLine block raw) rest

/-- A line within the limits, behind a block. -/
structure LineFits (limits : McpLimits) (block : List Bytes) (raw : Bytes) : Prop where
  line : raw.length ≤ limits.maxFrameBytes
  name : (splitField (stripCr raw)).1 = eventField → ∃ name,
    decodeUtf8 (splitField (stripCr raw)).2 = some name ∧ name.length ≤ 100
  data : (joinLines (fieldValues dataField (addLine block raw))).length ≤ limits.maxFrameBytes

def Fits (limits : McpLimits) : List Bytes → List Bytes → Prop
  | _, [] => True
  | block, raw :: rest => LineFits limits block raw ∧ Fits limits (addLine block raw) rest

/-- The events of a stream are those of the grammar, up to the first line over a limit. -/
structure FollowsGrammar (limits : McpLimits) (stream : Bytes) (events : List SseEvent) : Prop where
  lines : ∃ accepted rest, (cut stream).1 = accepted ++ rest ∧ events = grammar [] accepted ∧
    Fits limits [] accepted ∧
    ∀ raw more, rest = raw :: more → ¬LineFits limits (accepted.foldl addLine []) raw

/-- What reading a stream should be, however it is cut. -/
structure ChunkingFree (limits : McpLimits) (stream : Bytes) : Prop where
  same : ∀ a b : List Bytes, a.flatten = stream → b.flatten = stream →
    (iterSseEvents limits a).1 = (iterSseEvents limits b).1 ∧
      (iterSseEvents limits a).2.map McpError.code = (iterSseEvents limits b).2.map McpError.code
  grammar : ∀ chunks : List Bytes, chunks.flatten = stream →
    FollowsGrammar limits stream (iterSseEvents limits chunks).1
  bounded : ∀ chunks : List Bytes, chunks.flatten = stream →
    ∀ event ∈ (iterSseEvents limits chunks).1, event.2.length ≤ limits.maxFrameBytes

/-- No line has ended, or what has not ended is within the limit, or a line is refused before. -/
def EndsInOrder (limits : McpLimits) (stream : Bytes) : Prop :=
  (cut stream).1 = [] ∨ (cut stream).2.length ≤ limits.maxFrameBytes ∨ ¬Fits limits [] (cut stream).1

/-! ### Cutting -/

/-- The stream is these lines, each ended, and this tail. -/
structure IsCut (stream : Bytes) (lines : List Bytes) (tail : Bytes) : Prop where
  stream_eq : stream = (lines.map (· ++ [lf])).flatten ++ tail
  lines_open : ∀ line ∈ lines, lf ∉ line
  tail_open : lf ∉ tail

theorem isCut_cut (stream : Bytes) : IsCut stream (cut stream).1 (cut stream).2 := by
  induction stream with
  | nil => exact ⟨rfl, fun line h => absurd h List.not_mem_nil, List.not_mem_nil⟩
  | cons b rest ih =>
    unfold cut
    generalize cut rest = c at ih
    obtain ⟨lines, tail⟩ := c
    obtain ⟨heq, hlines, htail⟩ := ih
    dsimp only at heq hlines htail ⊢
    by_cases hb : b = lf
    · rw [if_pos hb]
      refine ⟨by rw [hb, heq]; rfl, fun line hline => ?_, htail⟩
      cases List.mem_cons.mp hline with
      | inl h => rw [h]; exact List.not_mem_nil
      | inr h => exact hlines line h
    · rw [if_neg hb]
      have hne : lf ≠ b := fun h => hb h.symm
      cases lines with
      | nil =>
        refine ⟨by rw [heq]; rfl, fun line h => absurd h List.not_mem_nil, fun h => ?_⟩
        exact (List.mem_cons.mp h).elim hne htail
      | cons line lines =>
        refine ⟨by rw [heq]; simp, fun l hl => ?_, htail⟩
        cases List.mem_cons.mp hl with
        | inl h =>
          rw [h]
          exact fun hmem => (List.mem_cons.mp hmem).elim hne (hlines line List.mem_cons_self)
        | inr h => exact hlines l (List.mem_cons_of_mem _ h)

theorem cut_open {tail : Bytes} (h : lf ∉ tail) : cut tail = ([], tail) := by
  induction tail with
  | nil => rfl
  | cons b rest ih =>
    have hb : b ≠ lf := fun heq => h (heq ▸ List.mem_cons_self)
    rw [cut, ih fun hmem => h (List.mem_cons_of_mem _ hmem)]
    simp [hb]

theorem cut_line {line : Bytes} (h : lf ∉ line) (rest : Bytes) :
    cut (line ++ lf :: rest) = (line :: (cut rest).1, (cut rest).2) := by
  induction line with
  | nil => rfl
  | cons b line ih =>
    have hb : b ≠ lf := fun heq => h (heq ▸ List.mem_cons_self)
    rw [List.cons_append, cut, ih fun hmem => h (List.mem_cons_of_mem _ hmem)]
    simp [hb]

/-- There is one way to cut a stream. -/
theorem IsCut.eq {stream : Bytes} {lines : List Bytes} {tail : Bytes} (h : IsCut stream lines tail) :
    cut stream = (lines, tail) := by
  obtain ⟨rfl, hlines, htail⟩ := h
  induction lines with
  | nil => exact cut_open htail
  | cons line lines ih =>
    rw [List.map_cons, List.flatten_cons, List.append_assoc, List.append_assoc, List.singleton_append,
      cut_line (hlines line List.mem_cons_self), ih fun l hl => hlines l (List.mem_cons_of_mem _ hl)]

/-- The lines of a chunk come off before those of what follows. -/
theorem cut_append (a b : Bytes) :
    cut (a ++ b) = ((cut a).1 ++ (cut ((cut a).2 ++ b)).1, (cut ((cut a).2 ++ b)).2) := by
  have ha := isCut_cut a
  have hb := isCut_cut ((cut a).2 ++ b)
  refine IsCut.eq ⟨?_, fun line hline => ?_, hb.tail_open⟩
  · rw [List.map_append, List.flatten_append, List.append_assoc, ← hb.stream_eq, ← List.append_assoc,
      ← ha.stream_eq]
  · exact (List.mem_append.mp hline).elim (ha.lines_open line) (hb.lines_open line)

/-! ### A block -/

/-- The parser has read the block. -/
structure SseParser.Reads (p : SseParser) (block : List Bytes) : Prop where
  eventType : p.eventType = blockType block
  dataLines : p.dataLines = fieldValues dataField block
  dataSize : p.dataSize = (joinLines (fieldValues dataField block)).length

theorem reads_nil : SseParser.Reads {} [] := ⟨rfl, rfl, rfl⟩

theorem joinLines_snoc_length (lines : List Bytes) (line : Bytes) :
    (joinLines (lines ++ [line])).length =
      (joinLines lines).length + line.length + if lines = [] then 0 else 1 := by
  unfold joinLines
  cases lines with
  | nil => simp
  | cons first rest =>
    induction rest generalizing first with
    | nil => simp; omega
    | cons second rest ih =>
      have h := ih second
      simp only [List.cons_append, List.intercalate_cons_cons, List.length_append, if_neg (List.cons_ne_nil _ _)]
        at h ⊢
      omega

theorem fieldValues_snoc (name : Bytes) (block : List Bytes) (line : Bytes) :
    fieldValues name (block ++ [line]) =
      fieldValues name block ++ if (splitField line).1 = name then [(splitField line).2] else [] := by
  unfold fieldValues
  by_cases h : (splitField line).1 = name <;> simp [List.filter_append, h]

section
variable {limits : McpLimits} {p : SseParser} {block : List Bytes} {raw : Bytes}

theorem addLine_open {line : Bytes} (hline : stripCr raw = line) (hopen : line ≠ []) :
    addLine block raw = block ++ [line] := by
  unfold addLine
  rw [hline, if_neg hopen]

/-- A line of neither field leaves the event alone. -/
theorem SseParser.Reads.other (hp : p.Reads block) {line : Bytes}
    (hevent : (splitField line).1 ≠ eventField) (hdata : (splitField line).1 ≠ dataField) :
    p.Reads (block ++ [line]) := by
  have hevents : fieldValues eventField (block ++ [line]) = fieldValues eventField block := by
    rw [fieldValues_snoc, if_neg hevent, List.append_nil]
  have hdatas : fieldValues dataField (block ++ [line]) = fieldValues dataField block := by
    rw [fieldValues_snoc, if_neg hdata, List.append_nil]
  refine ⟨?_, by rw [hdatas]; exact hp.dataLines, by rw [hdatas]; exact hp.dataSize⟩
  rw [hp.eventType, blockType, blockType, hevents]

/-- A line is taken exactly if it fits, and then as the grammar has it. -/
theorem readLine_spec (raw : Bytes) (hp : p.Reads block)
    (hsize : (joinLines (fieldValues dataField block)).length ≤ limits.maxFrameBytes) :
    match p.readLine limits raw with
    | .ok (event, p') => LineFits limits block raw ∧
        event = (if stripCr raw = [] then dispatch block else none) ∧ p'.Reads (addLine block raw)
    | .error _ => ¬LineFits limits block raw := by
  unfold SseParser.readLine
  by_cases hlong : limits.maxFrameBytes < raw.length
  · rw [if_pos hlong]
    exact fun h => absurd h.line (Nat.not_le_of_lt hlong)
  rw [if_neg hlong]
  have hlength := Nat.le_of_not_lt hlong
  dsimp only
  generalize hline : stripCr raw = line
  by_cases hblank : line = []
  · rw [if_pos hblank, hblank]
    have hnew : addLine block raw = [] := by rw [addLine, hline, if_pos hblank]
    refine ⟨⟨hlength, ?_, ?_⟩, ?_, ?_⟩
    · rw [hline, hblank]
      exact fun h => nomatch h
    · rw [hnew]
      exact Nat.zero_le _
    · rw [dispatch, hp.dataLines, hp.eventType]
      simp
    · rw [hnew]
      exact reads_nil
  rw [if_neg hblank]
  have hopen : addLine block raw = block ++ [line] := addLine_open hline hblank
  have fits (hname : (splitField line).1 = eventField → ∃ name,
        decodeUtf8 (splitField line).2 = some name ∧ name.length ≤ 100)
      (hdata : (splitField line).1 ≠ dataField) : LineFits limits block raw := by
    refine ⟨hlength, by rw [hline]; exact hname, ?_⟩
    rw [hopen, fieldValues_snoc, if_neg hdata, List.append_nil]
    exact hsize
  by_cases hcomment : line.head? = some colon
  · have hnone : (splitField line).1 = [] := by
      cases line with
      | nil => exact absurd rfl hblank
      | cons b rest =>
        have hb : b = colon := Option.some.inj hcomment
        simp [splitField, hb]
    have hevent : (splitField line).1 ≠ eventField := by rw [hnone]; decide
    have hdata : (splitField line).1 ≠ dataField := by rw [hnone]; decide
    rw [if_pos hcomment]
    refine ⟨fits (fun h => absurd h hevent) hdata, by rw [if_neg hblank], ?_⟩
    rw [hopen]
    exact hp.other hevent hdata
  rw [if_neg hcomment]
  by_cases hevent : (splitField line).1 = eventField
  · rw [if_pos hevent]
    have hdata : (splitField line).1 ≠ dataField := by rw [hevent]; decide
    cases hname : decodeUtf8 (splitField line).2 with
    | none =>
      refine fun h => ?_
      obtain ⟨name, hsome, -⟩ := h.name (by rw [hline]; exact hevent)
      rw [hline, hname] at hsome
      cases hsome
    | some name =>
      dsimp only
      by_cases hlongName : 100 < name.length
      · rw [if_pos hlongName]
        refine fun h => ?_
        obtain ⟨found, hsome, hle⟩ := h.name (by rw [hline]; exact hevent)
        rw [hline, hname] at hsome
        cases hsome
        omega
      · rw [if_neg hlongName]
        refine ⟨fits (fun _ => ⟨name, hname, by omega⟩) hdata, by rw [if_neg hblank], ?_⟩
        rw [hopen]
        have hdatas : fieldValues dataField (block ++ [line]) = fieldValues dataField block := by
          rw [fieldValues_snoc, if_neg hdata, List.append_nil]
        refine ⟨?_, by rw [hdatas]; exact hp.dataLines, by rw [hdatas]; exact hp.dataSize⟩
        rw [blockType, fieldValues_snoc, if_pos hevent, List.getLast?_concat, Option.bind_some, hname]
        rfl
  rw [if_neg hevent]
  by_cases hdata : (splitField line).1 = dataField
  · rw [if_pos hdata]
    have hdatas : fieldValues dataField (block ++ [line]) =
        fieldValues dataField block ++ [(splitField line).2] := by
      rw [fieldValues_snoc, if_pos hdata]
    have hcount : (joinLines (fieldValues dataField (block ++ [line]))).length =
        p.dataSize + (splitField line).2.length + if p.dataLines = [] then 0 else 1 := by
      rw [hdatas, joinLines_snoc_length, hp.dataSize, hp.dataLines]
    by_cases hlarge : limits.maxFrameBytes <
        p.dataSize + (splitField line).2.length + if p.dataLines = [] then 0 else 1
    · rw [if_pos hlarge]
      refine fun h => absurd h.data ?_
      rw [hopen, hcount]
      omega
    · rw [if_neg hlarge]
      refine ⟨⟨hlength, by rw [hline]; exact fun h => absurd h hevent, ?_⟩, by rw [if_neg hblank], ?_⟩
      · rw [hopen, hcount]
        omega
      · rw [hopen]
        refine ⟨?_, by rw [hdatas, ← hp.dataLines], hcount.symm⟩
        rw [blockType, fieldValues_snoc, if_neg hevent, List.append_nil]
        exact hp.eventType
  · rw [if_neg hdata]
    refine ⟨fits (fun h => absurd h hevent) hdata, by rw [if_neg hblank], ?_⟩
    rw [hopen]
    exact hp.other hevent hdata

end

/-! ### A stream -/

section
variable {limits : McpLimits}

/-- Lines are read until one does not fit. -/
theorem readLines_spec (limits : McpLimits) {p : SseParser} {block : List Bytes} (hp : p.Reads block)
    (hsize : (joinLines (fieldValues dataField block)).length ≤ limits.maxFrameBytes)
    (lines : List Bytes) :
    ∃ accepted rest, lines = accepted ++ rest ∧
      (p.readLines limits lines).1 = grammar block accepted ∧ Fits limits block accepted ∧
      match (p.readLines limits lines).2 with
      | .ok _ => rest = []
      | .error _ => ∃ raw more, rest = raw :: more ∧
          ¬LineFits limits (accepted.foldl addLine block) raw := by
  induction lines generalizing p block with
  | nil => exact ⟨[], [], rfl, rfl, trivial, rfl⟩
  | cons raw lines ih =>
    have hline := readLine_spec raw hp hsize
    unfold SseParser.readLines
    cases hread : p.readLine limits raw with
    | error e =>
      rw [hread] at hline
      exact ⟨[], raw :: lines, rfl, rfl, trivial, raw, lines, rfl, hline⟩
    | ok r =>
      obtain ⟨event, p'⟩ := r
      rw [hread] at hline
      obtain ⟨hfits, hevent, hp'⟩ := hline
      obtain ⟨accepted, rest, hsplit, hevents, haccepted, hlast⟩ := ih hp' hfits.data
      refine ⟨raw :: accepted, rest, by rw [hsplit]; rfl, ?_, ⟨hfits, haccepted⟩, hlast⟩
      show event.toList ++ _ = grammar block (raw :: accepted)
      rw [hevents, hevent, grammar]
      by_cases hblank : stripCr raw = [] <;> simp [hblank]

theorem readLines_append (p : SseParser) (a b : List Bytes) :
    p.readLines limits (a ++ b) = match p.readLines limits a with
      | (events, .error e) => (events, .error e)
      | (events, .ok p') =>
        (events ++ (p'.readLines limits b).1, (p'.readLines limits b).2) := by
  induction a generalizing p with
  | nil => rfl
  | cons raw a ih =>
    rw [List.cons_append, SseParser.readLines, SseParser.readLines]
    cases p.readLine limits raw with
    | error e => rfl
    | ok r =>
      obtain ⟨event, p'⟩ := r
      dsimp only
      rw [ih p']
      generalize p'.readLines limits a = read
      obtain ⟨events, result⟩ := read
      cases result with
      | error e => rfl
      | ok last => simp

/-- However the stream comes, its lines are read in order; only what an unfinished line that is
too large is reported as depends on the chunks. -/
theorem iterate_spec (limits : McpLimits) (p : SseParser) {buffer : Bytes} (hopen : lf ∉ buffer) (chunks : List Bytes) :
    match p.readLines limits (cut (buffer ++ chunks.flatten)).1 with
    | (events, .error e) => p.iterate limits buffer chunks = (events, some e)
    | (events, .ok p') => (p.iterate limits buffer chunks).1 = events ∧
        ((cut (buffer ++ chunks.flatten)).2.length ≤ limits.maxFrameBytes →
          (p.iterate limits buffer chunks).2 = p'.ending (cut (buffer ++ chunks.flatten)).2) := by
  induction chunks generalizing p buffer with
  | nil =>
    rw [List.flatten_nil, List.append_nil, cut_open hopen]
    exact ⟨rfl, fun _ => rfl⟩
  | cons chunk chunks ih =>
    rw [List.flatten_cons, ← List.append_assoc]
    unfold SseParser.iterate
    dsimp only
    by_cases hlarge : limits.maxFrameBytes < (buffer ++ chunk).length ∧ lf ∉ buffer ++ chunk
    · rw [if_pos hlarge, cut_append, cut_open hlarge.2]
      obtain ⟨hlong, hnone⟩ := hlarge
      dsimp only
      rw [List.nil_append]
      -- The line that is too large ends later or not at all.
      have hcut := isCut_cut ((buffer ++ chunk) ++ chunks.flatten)
      cases hlines : (cut ((buffer ++ chunk) ++ chunks.flatten)).1 with
      | nil =>
        refine ⟨rfl, fun hshort => ?_⟩
        have hstream := hcut.stream_eq
        rw [hlines, List.map_nil, List.flatten_nil, List.nil_append] at hstream
        rw [← hstream, List.length_append] at hshort
        omega
      | cons line lines =>
        have hline : limits.maxFrameBytes < line.length := by
          rw [hlines] at hcut
          have hprefix : buffer ++ chunk <+: line ++ ([lf] ++ ((lines.map (· ++ [lf])).flatten ++
              (cut ((buffer ++ chunk) ++ chunks.flatten)).2)) := by
            refine ⟨chunks.flatten, hcut.stream_eq.trans ?_⟩
            simp
          rcases List.prefix_or_prefix_of_prefix hprefix (List.prefix_append ..) with h | h
          · exact hlong.trans_le h.length_le
          · obtain ⟨more, hmore⟩ := h
            rw [← hmore] at hprefix hnone hlong
            cases more with
            | nil =>
              rw [List.append_nil] at hlong
              exact hlong
            | cons b more =>
              have hb := (List.prefix_append_right_inj line).mp hprefix
              obtain ⟨_, hb⟩ := hb
              obtain rfl : b = lf := (List.cons.inj hb).1
              exact absurd (List.mem_append_right _ List.mem_cons_self) hnone
        have hrefused : p.readLines limits (line :: lines) =
            ([], .error (tooLarge "MCP SSE line is too large")) := by
          rw [SseParser.readLines, SseParser.readLine, if_pos hline]
          rfl
        rw [hrefused]
    · rw [if_neg hlarge, cut_append]
      have hrest := (isCut_cut (buffer ++ chunk)).tail_open
      generalize cut (buffer ++ chunk) = c at hrest
      obtain ⟨lines, rest⟩ := c
      dsimp only at hrest ⊢
      rw [readLines_append]
      generalize p.readLines limits lines = read
      obtain ⟨events, result⟩ := read
      cases result with
      | error e => rfl
      | ok p' =>
        dsimp only
        have hnext := ih p' hrest
        generalize p'.readLines limits (cut (rest ++ chunks.flatten)).1 = next at hnext
        obtain ⟨more, outcome⟩ := next
        cases outcome with
        | error e =>
          dsimp only at hnext ⊢
          rw [hnext]
        | ok last =>
          dsimp only at hnext ⊢
          exact ⟨by rw [hnext.1], hnext.2⟩

end

section
variable {limits : McpLimits}

theorem Fits.line {block accepted more : List Bytes} {raw : Bytes}
    (h : Fits limits block (accepted ++ raw :: more)) :
    LineFits limits (accepted.foldl addLine block) raw := by
  induction accepted generalizing block with
  | nil => exact h.1
  | cons line accepted ih => exact ih h.2

/-- Within the limits every event is. -/
theorem grammar_bounded {block lines : List Bytes}
    (hblock : (joinLines (fieldValues dataField block)).length ≤ limits.maxFrameBytes)
    (h : Fits limits block lines) : ∀ event ∈ grammar block lines, event.2.length ≤ limits.maxFrameBytes := by
  induction lines generalizing block with
  | nil => exact fun event hevent => absurd hevent List.not_mem_nil
  | cons raw lines ih =>
    intro event hevent
    cases List.mem_append.mp hevent with
    | inr hrest => exact ih h.1.data h.2 event hrest
    | inl hnow =>
      split at hnow
      · unfold dispatch at hnow
        split at hnow
        · cases hnow
        · rw [List.mem_singleton.mp hnow]
          exact hblock
      · cases hnow

/-- A stream that is one unfinished line is refused as soon as that line is too large. -/
theorem iterate_open (p : SseParser) {buffer : Bytes} {chunks : List Bytes}
    (hopen : lf ∉ buffer ++ chunks.flatten) (hshort : buffer.length ≤ limits.maxFrameBytes)
    (hlong : limits.maxFrameBytes < (buffer ++ chunks.flatten).length) :
    p.iterate limits buffer chunks = ([], some (tooLarge "MCP SSE line is too large")) := by
  induction chunks generalizing buffer with
  | nil =>
    rw [List.flatten_nil, List.append_nil] at hlong
    omega
  | cons chunk chunks ih =>
    rw [List.flatten_cons, ← List.append_assoc] at hopen hlong
    have hnone : lf ∉ buffer ++ chunk := fun h => hopen (List.mem_append_left _ h)
    unfold SseParser.iterate
    dsimp only
    by_cases hlarge : limits.maxFrameBytes < (buffer ++ chunk).length
    · rw [if_pos ⟨hlarge, hnone⟩]
    · rw [if_neg fun h => hlarge h.1, cut_open hnone]
      dsimp only [SseParser.readLines]
      rw [ih hopen (Nat.le_of_not_lt hlarge) hlong, List.nil_append]

theorem iterSseEvents_spec (limits : McpLimits) {stream : Bytes} {chunks : List Bytes} (h : chunks.flatten = stream) :
    match SseParser.readLines limits {} (cut stream).1 with
    | (events, .error e) => iterSseEvents limits chunks = (events, some e)
    | (events, .ok p) => (iterSseEvents limits chunks).1 = events ∧
        ((cut stream).2.length ≤ limits.maxFrameBytes →
          (iterSseEvents limits chunks).2 = p.ending (cut stream).2) := by
  have hspec := iterate_spec limits {} List.not_mem_nil chunks
  rw [List.nil_append, h] at hspec
  exact hspec

theorem iterSseEvents_events (limits : McpLimits) {stream : Bytes} {chunks : List Bytes} (h : chunks.flatten = stream) :
    (iterSseEvents limits chunks).1 = (SseParser.readLines limits {} (cut stream).1).1 := by
  have hspec := iterSseEvents_spec limits h
  generalize SseParser.readLines limits {} (cut stream).1 = read at hspec
  obtain ⟨events, result⟩ := read
  cases result with
  | error e => exact congrArg Prod.fst hspec
  | ok p => exact hspec.1

end
/-- However a stream is cut, its events are the grammar's; and it ends the same exactly if it
does not end, behind lines that are in order, in an unfinished line that is too large. -/
theorem chunking_free_iff (limits : McpLimits) (stream : Bytes) :
    ChunkingFree limits stream ↔ EndsInOrder limits stream := by
  have hlines := readLines_spec limits reads_nil (Nat.zero_le _) (cut stream).1
  have hcut := isCut_cut stream
  constructor
  · intro h
    by_contra hends
    obtain ⟨hsome, hends⟩ := not_or.mp hends
    obtain ⟨hlong, hfits⟩ := not_or.mp hends
    rw [not_not] at hfits
    obtain ⟨accepted, rest, hsplit, -, -, hlast⟩ := hlines
    have hlf : lf ∈ ((cut stream).1.map (· ++ [lf])).flatten := by
      obtain ⟨line, hline⟩ := List.exists_mem_of_ne_nil _ hsome
      exact List.mem_flatten.mpr ⟨line ++ [lf], List.mem_map_of_mem hline, by simp⟩
    cases hread : SseParser.readLines limits {} (cut stream).1 with
    | mk events result =>
      rw [hread] at hlast
      cases result with
      | error e =>
        obtain ⟨raw, more, rfl, hrefused⟩ := hlast
        rw [hsplit] at hfits
        exact hrefused hfits.line
      | ok p =>
        have hwhole : iterSseEvents limits [stream] = (events, some sseIncomplete) := by
          have hin : lf ∈ stream := by
            rw [hcut.stream_eq]
            exact List.mem_append_left _ hlf
          have htail : (cut stream).2 ≠ [] := by
            intro hnil
            rw [hnil] at hlong
            exact hlong (Nat.zero_le _)
          unfold iterSseEvents SseParser.iterate
          dsimp only
          rw [List.nil_append, if_neg fun h => h.2 hin, hread]
          simp [SseParser.iterate, SseParser.ending, htail]
        have hparts : iterSseEvents limits
            [((cut stream).1.map (· ++ [lf])).flatten, (cut stream).2] =
              (events, some (tooLarge "MCP SSE line is too large")) := by
          have hhead : cut ((cut stream).1.map (· ++ [lf])).flatten = ((cut stream).1, []) :=
            IsCut.eq ⟨(List.append_nil _).symm, hcut.lines_open, List.not_mem_nil⟩
          unfold iterSseEvents SseParser.iterate
          dsimp only
          rw [List.nil_append, if_neg fun h => h.2 hlf, hhead]
          dsimp only
          rw [hread]
          dsimp only
          rw [SseParser.iterate]
          dsimp only
          rw [List.nil_append, if_pos ⟨Nat.lt_of_not_le hlong, hcut.tail_open⟩, List.append_nil]
        have hsame := (h.same [stream] [((cut stream).1.map (· ++ [lf])).flatten, (cut stream).2]
          (by simp) (by simp [← hcut.stream_eq])).2
        rw [hwhole, hparts] at hsame
        have hcodes : (some "mcp.sse_incomplete" : Option String) = some "mcp.frame_too_large" := hsame
        exact absurd hcodes (by decide)
  · intro hends
    obtain ⟨accepted, rest, hsplit, hevents, hfits, hlast⟩ := hlines
    refine ⟨fun a b ha hb => ?_, fun chunks h => ?_, fun chunks h => ?_⟩
    · rw [iterSseEvents_events limits ha, iterSseEvents_events limits hb]
      refine ⟨rfl, ?_⟩
      have hspecA := iterSseEvents_spec limits ha
      have hspecB := iterSseEvents_spec limits hb
      cases hread : SseParser.readLines limits {} (cut stream).1 with
      | mk events result =>
        rw [hread] at hspecA hspecB hlast
        cases result with
        | error e => rw [hspecA, hspecB]
        | ok p =>
          by_cases hshort : (cut stream).2.length ≤ limits.maxFrameBytes
          · rw [hspecA.2 hshort, hspecB.2 hshort]
          rcases hends with hnone | hshort' | hrefused
          · have hopen : stream = (cut stream).2 := by
              have hstream := hcut.stream_eq
              rw [hnone] at hstream
              exact hstream
            have hall (chunks : List Bytes) (h : chunks.flatten = stream) :
                iterSseEvents limits chunks = ([], some (tooLarge "MCP SSE line is too large")) := by
              refine iterate_open {} ?_ (Nat.zero_le _) ?_
              · rw [List.nil_append, h, hopen]
                exact hcut.tail_open
              · rw [List.nil_append, h, hopen]
                exact Nat.lt_of_not_le hshort
            rw [hall a ha, hall b hb]
          · exact absurd hshort' hshort
          · dsimp only at hlast
            rw [hlast, List.append_nil] at hsplit
            exact absurd (hsplit ▸ hfits) hrefused
    · refine ⟨accepted, rest, hsplit, (iterSseEvents_events limits h).trans hevents, hfits, ?_⟩
      intro raw more hrest
      generalize (SseParser.readLines limits {} (cut stream).1).2 = result at hlast
      cases result with
      | ok p => rw [hlast] at hrest; cases hrest
      | error e =>
        obtain ⟨raw', more', hrest', hrefused⟩ := hlast
        rw [hrest] at hrest'
        obtain ⟨rfl, -⟩ := List.cons.inj hrest'
        exact hrefused
    · rw [iterSseEvents_events limits h, hevents]
      exact grammar_bounded (Nat.zero_le _) hfits

/-- One blank line and an unfinished line of 1025 bytes, behind it or in a chunk of its own. -/
theorem chunking_matters : ¬∀ limits stream, ChunkingFree limits stream := by
  intro h
  let limits : McpLimits := { maxFrameBytes := 1024 }
  have hsame := ((h limits (lf :: List.replicate 1025 120)).same [lf :: List.replicate 1025 120]
    [[lf], List.replicate 1025 120] (by rw [List.flatten_singleton])
    (by rw [List.flatten_cons, List.flatten_singleton, List.singleton_append])).2
  revert hsame
  decide +kernel

end Operant.Mcp
