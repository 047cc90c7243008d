import Operant.Security.Repository

/-! The decision is made on what is stored of an action, and where that differs. -/
namespace Operant.Security
open Operant.Python Operant.Calls

/-! ### Normalized actions -/

theorem checkArgv_ok {arguments result : Refs} (h : Host.checkArgv arguments = .ok result) :
    result = arguments ∧ ∀ argv, arguments.lookup "argv" = some argv → Host.isArgv argv = true := by
  unfold Host.checkArgv at h
  split at h
  · rename_i argv hargv
    split at h
    · rename_i hok
      cases h
      exact ⟨rfl, fun other hother => by rw [hargv] at hother; cases hother; exact hok⟩
    · cases h
  · rename_i hnone
    cases h
    exact ⟨rfl, fun other hother => by rw [hnone] at hother; cases hother⟩

/-- The arguments but for one key. -/
structure Sets (key : String) (before after : Refs) : Prop where
  nodup : (before.map Prod.fst).Nodup → (after.map Prod.fst).Nodup
  others : ∀ other, other ≠ key → after.lookup other = before.lookup other

theorem sets_set (key : String) (value : Value) (arguments : Refs) :
    Sets key arguments (arguments.set key value) :=
  ⟨fun h => Dict.nodup_set h key value, fun _ hne => Dict.lookup_set_ne arguments value hne⟩

theorem sets_same (key : String) (arguments : Refs) : Sets key arguments arguments :=
  ⟨id, fun _ _ => rfl⟩

theorem normalizePath_sets {host : Host} {root : Option String} {key : String} {arguments result : Refs}
    (h : host.normalizePath root key arguments = .ok result) : Sets key arguments result := by
  unfold Host.normalizePath at h
  split at h
  · cases h
    exact sets_same key arguments
  · split at h
    · exact nomatch h
    · dsimp only at h
      split at h
      · cases h
        exact sets_set key _ arguments
      · exact nomatch h

theorem normalizeUrl_sets {host : Host} {arguments result : Refs}
    (h : host.normalizeUrl arguments = .ok result) : Sets "url" arguments result := by
  unfold Host.normalizeUrl at h
  split at h
  · cases h
    exact sets_same "url" arguments
  · split at h
    · exact nomatch h
    · split at h
      · exact nomatch h
      · split at h
        · exact nomatch h
        · split at h
          · exact nomatch h
          · cases h
            exact sets_set "url" _ arguments

/-- What `argv` is once it is normalized. -/
structure WellFormed (arguments : Refs) : Prop where
  nodup : (arguments.map Prod.fst).Nodup
  argv : ∀ argv, arguments.lookup "argv" = some argv → Host.isArgv argv = true

theorem normalizeArguments_wellFormed {host : Host} {arguments result : Refs} {root : Option String}
    (h : host.normalizeArguments arguments root = .ok result) : WellFormed result := by
  unfold Host.normalizeArguments at h
  obtain ⟨checked, hchecked, hrest⟩ := ok_of_bind h
  obtain ⟨withPath, hpath, hrest⟩ := ok_of_bind hrest
  obtain ⟨withCwd, hcwd, hurl⟩ := ok_of_bind hrest
  obtain ⟨rfl, hargv⟩ := checkArgv_ok hchecked
  have spath := normalizePath_sets hpath
  have scwd := normalizePath_sets hcwd
  have surl := normalizeUrl_sets hurl
  refine ⟨surl.nodup (scwd.nodup (spath.nodup (Dict.nodup_ofList arguments))), ?_⟩
  intro argv hlookup
  rw [surl.others "argv" (by decide), scwd.others "argv" (by decide), spath.others "argv" (by decide)]
    at hlookup
  exact hargv argv hlookup

theorem normalizeIn_ok {p : Proposal} {host : Host} {root : Option String} {action : ActionRequest}
    (h : p.normalizeIn host root = .ok action) :
    action.Bound ∧ WellFormed action.normalizedArguments := by
  unfold Proposal.normalizeIn at h
  obtain ⟨arguments, harguments, h⟩ := ok_of_bind h
  obtain ⟨target, -, h⟩ := ok_of_bind h
  dsimp only at h
  split at h
  · exact nomatch h
  · split at h
    · exact nomatch h
    · rename_i hashed hhashed
      split at h
      · cases h
        exact ⟨⟨rfl, rfl, rfl, rfl, hhashed, rfl, rfl, rfl⟩, normalizeArguments_wellFormed harguments⟩
      · exact nomatch h

theorem normalize_ok {p : Proposal} {host : Host} {action : ActionRequest}
    (h : p.normalize host = .ok action) : action.Bound ∧ WellFormed action.normalizedArguments := by
  unfold Proposal.normalize at h
  split at h
  · exact nomatch h
  · split at h
    · exact normalizeIn_ok h
    · split at h
      · exact nomatch h
      · exact normalizeIn_ok h

/-! ### Dumped arguments -/

namespace Dump
variable (d : Dump)

theorem items_keys (entries : Refs) : (d.items entries).map Prod.fst = entries.map Prod.fst := by
  induction entries with
  | nil => rw [items]
  | cons entry rest ih => rw [items, List.map_cons, List.map_cons, ih]

theorem items_lookup (entries : Refs) (key : String) :
    (d.items entries).lookup key = (entries.lookup key).map d.value := by
  induction entries with
  | nil => rw [items]; rfl
  | cons entry rest ih =>
    rw [items, List.lookup_cons, List.lookup_cons]
    cases key == entry.1 with
    | true => rfl
    | false => exact ih

/-- Texts are dumped as they are. -/
theorem value_argv {argv : Value} (h : Host.isArgv argv = true) :
    ∃ first more, argv = .list (.str first :: more) ∧ d.value argv = .list (.str first :: d.values more) := by
  unfold Host.isArgv at h
  split at h
  · rename_i part parts
    rw [List.all_cons, Bool.and_eq_true] at h
    cases part with
    | str first => exact ⟨first, parts, rfl, by rw [value, values, value]⟩
    | null | bool | int | float | list | dict | foreign => cases h.1
  · cases h

end Dump

/-! ### What the rules are compared with -/

namespace Platform
variable (platform : Platform)

/-- The items of the arguments that remain when `argv` is reached. -/
def itemsLeft (arguments : Refs) : Nat :=
  (platform.boundedItems bounds ((platform.items arguments).takeWhile fun item => item.1 ≠ "argv") 1 []
    bounds.maxItems).2

/-- The arguments item by item, whatever the size of the whole. -/
def itemized (arguments : Refs) : Refs :=
  (platform.boundedItems bounds (platform.items arguments) 1 [] bounds.maxItems).1

/-- The whole is not too large to be stored. -/
def fits (arguments : Refs) : Bool := (platform.jsonBytes (.dict (platform.itemized arguments))).any (· ≤ bounds.maxBytes)

/-- The executable that is left of the arguments: none if they are too large, or if no item is left
for `argv`, and a marker if none is left for its first element. -/
def seen (arguments : Refs) : Option String :=
  match arguments.lookup "argv" with
  | some (.list (.str first :: _)) =>
    if !platform.fits arguments ∨ platform.itemsLeft arguments = 0 then none
    else if platform.itemsLeft arguments = 1 then some (pathName "[truncated items]")
    else some (pathName (platform.redactPublicText bounds.maxChars first))
  | _ => none

variable {platform} {arguments safe : Refs}

/-- A text is never stored as a dict. -/
theorem markers_text {s : String} {marker : Value} (h : marker ∈ Interpreter.truncationMarkers (.str s))
    (d : Refs) : marker ≠ .dict d := by
  unfold Interpreter.truncationMarkers at h
  simp only [List.mem_cons, List.not_mem_nil, or_false] at h
  rcases h with rfl | rfl | rfl | rfl <;> exact fun heq => nomatch heq

theorem markers_dict {entries : Refs} {d : Refs}
    (h : .dict d ∈ Interpreter.truncationMarkers (.dict entries)) : d.lookup "argv" = none := by
  unfold Interpreter.truncationMarkers at h
  simp only [List.mem_cons, List.not_mem_nil, or_false, Value.dict.injEq, reduceCtorEq] at h
  rcases h with rfl | rfl | rfl <;> decide

theorem find_marker {markers : List Value} {p : Value → Bool} {d : Refs}
    (h : (markers.find? p).getD (.int 0) = .dict d) : .dict d ∈ markers := by
  cases hfind : markers.find? p with
  | none => rw [hfind] at h; exact nomatch h
  | some marker =>
    rw [hfind] at h
    rw [← (h : marker = .dict d)]
    exact List.mem_of_find?_eq_some hfind

/-- What is stored is the items, or a marker. -/
theorem safeArguments_cases (h : platform.safeArguments arguments = some safe) :
    (platform.fits arguments = true ∧ safe = platform.itemized arguments) ∨
      (platform.fits arguments = false ∧ safe.lookup "argv" = none) := by
  have hdict : platform.redactPublicData bounds (.dict (platform.items arguments)) = .dict safe := by
    unfold safeArguments at h
    split at h
    · rename_i heq
      cases h
      exact heq
    · cases h
  have hitems : (platform.boundedPublicData bounds (.dict (platform.items arguments)) 0 bounds.maxItems).1 =
      .dict (platform.itemized arguments) := by
    rw [Interpreter.boundedPublicData, if_neg (by decide)]
    rfl
  unfold Interpreter.redactPublicData Interpreter.serialized at hdict
  rw [hitems] at hdict
  cases hbytes : platform.jsonBytes (.dict (platform.itemized arguments)) with
  | none =>
    simp only [hbytes] at hdict
    split at hdict
    · cases hdict
    · exact absurd rfl (markers_text (find_marker hdict) safe)
  | some n =>
    simp only [hbytes] at hdict
    split at hdict
    · rename_i hle
      cases hdict
      exact .inl ⟨by simp [fits, hbytes, hle], rfl⟩
    · rename_i hgt
      exact .inr ⟨by simp [fits, hbytes]; omega, markers_dict (find_marker hdict)⟩

theorem takeWhile_argv {entries : Refs} {argv : Value} (hnodup : (entries.map Prod.fst).Nodup)
    (h : entries.lookup "argv" = some argv) :
    ∃ rest, entries = entries.takeWhile (fun item => item.1 ≠ "argv") ++ ("argv", argv) :: rest ∧
      "argv" ∉ (entries.takeWhile fun item => item.1 ≠ "argv").map Prod.fst ∧ "argv" ∉ rest.map Prod.fst := by
  induction entries with
  | nil => exact nomatch h
  | cons entry rest ih =>
    obtain ⟨key, value⟩ := entry
    obtain ⟨hnew, hrest⟩ := List.nodup_cons.mp hnodup
    by_cases hkey : key = "argv"
    · subst hkey
      rw [List.lookup_cons, beq_self_eq_true] at h
      cases h
      exact ⟨rest, by simp, by simp, hnew⟩
    · have hbeq : ("argv" == key) = false := by simpa using fun heq => hkey heq.symm
      rw [List.lookup_cons, hbeq] at h
      obtain ⟨more, hmore, hfront, hback⟩ := ih hrest h
      refine ⟨more, ?_, ?_, hback⟩
      · rw [List.takeWhile_cons_of_pos (by simpa using hkey), List.cons_append, ← hmore]
      · rw [List.takeWhile_cons_of_pos (by simpa using hkey), List.map_cons, List.mem_cons]
        exact not_or.mpr ⟨fun heq => hkey heq.symm, hfront⟩

/-- What is left of the value of `argv`. -/
theorem bounded_argv (first : String) (more : List Value) (left : Nat) :
    executable [("argv", (platform.boundedPublicData bounds (.list (.str first :: more)) 1 left).1)] =
      if left = 0 then some (pathName "[truncated items]")
      else some (pathName (platform.redactPublicText bounds.maxChars first)) := by
  rw [Interpreter.boundedPublicData, if_neg (by decide)]
  dsimp only
  rw [Interpreter.boundedList]
  by_cases hleft : left = 0
  · rw [if_pos hleft, if_pos hleft]
    rfl
  · rw [if_neg hleft, if_neg hleft]
    dsimp only
    rw [Interpreter.boundedPublicData, if_neg (by decide)]
    rfl

theorem executable_of_lookup {a b : Refs} (h : a.lookup "argv" = b.lookup "argv") :
    executable a = executable b := by
  unfold executable
  rw [h]

/-- The executable that the rules are compared with is the one that is left. -/
theorem executable_safe (hwf : WellFormed arguments) (h : platform.safeArguments arguments = some safe) :
    executable safe = platform.seen arguments := by
  cases hlookup : arguments.lookup "argv" with
  | none =>
    have hseen : platform.seen arguments = none := by simp only [seen, hlookup]
    have hsafe : safe.lookup "argv" = none := by
      cases safeArguments_cases h with
      | inl hfits =>
        have hkeys : "argv" ∉ (platform.items arguments).map Prod.fst := by
          rw [Dump.items_keys]
          intro hmem
          obtain ⟨item, hitem, hkey⟩ := List.mem_map.mp hmem
          have hne := List.lookup_eq_none_iff.mp hlookup item hitem
          simp [hkey] at hne
        rw [hfits.2, itemized, platform.boundedItems_others _ hkeys]
        rfl
      | inr hlarge => exact hlarge.2
    rw [hseen]
    simp only [executable, hsafe]
  | some argv =>
    obtain ⟨first, more, rfl, hvalue⟩ := platform.value_argv (hwf.argv argv hlookup)
    cases safeArguments_cases h with
    | inr hlarge =>
      simp only [seen, hlookup, hlarge.1, executable, hlarge.2]
      simp
    | inl hfits =>
      have hitems : (platform.items arguments).lookup "argv" = some (.list (.str first :: platform.values more)) := by
        rw [Dump.items_lookup, hlookup, Option.map_some, hvalue]
      have hnodup : ((platform.items arguments).map Prod.fst).Nodup := by
        rw [Dump.items_keys]
        exact hwf.nodup
      obtain ⟨rest, hsplit, hfront, hback⟩ := takeWhile_argv hnodup hitems
      have hkept : (platform.itemized arguments).lookup "argv" =
          if platform.itemsLeft arguments = 0 then none
          else some (platform.boundedPublicData bounds (.list (.str first :: platform.values more)) 1
            (platform.itemsLeft arguments - 1)).1 := by
        have hargv := platform.boundedItems_argv bounds hfront hback (.list (.str first :: platform.values more))
          1 [] bounds.maxItems
        rw [← hsplit] at hargv
        exact hargv
      simp only [seen, hlookup, hfits.1, Bool.not_true, Bool.false_eq_true, false_or]
      rw [hfits.2]
      by_cases hleft : platform.itemsLeft arguments = 0
      · rw [if_pos hleft]
        have hnone := hkept.trans (if_pos hleft)
        simp only [executable, hnone]
      · rw [if_neg hleft]
        have hsome := hkept.trans (if_neg hleft)
        have hexecutable := executable_of_lookup (b := [("argv", _)])
          (hsome.trans (by rw [List.lookup_cons, beq_self_eq_true]))
        rw [hexecutable, bounded_argv]
        have hone : platform.itemsLeft arguments - 1 = 0 ↔ platform.itemsLeft arguments = 1 := by omega
        show (if platform.itemsLeft arguments - 1 = 0 then _ else _) = _
        simp only [hone]

end Platform

/-! ### Rules -/

/-- The executables are told apart by no rule: they are the same, or neither names more than the
tool does. -/
def SameTools (tool : String) (a b : Option String) : Prop :=
  a = b ∨ ((a = none ∨ a = some tool) ∧ (b = none ∨ b = some tool))

instance (tool : String) (a b : Option String) : Decidable (SameTools tool a b) :=
  inferInstanceAs (Decidable (_ ∨ _))

/-- Two actions that differ in their arguments at most. -/
structure ActionRequest.Like (a b : ActionRequest) : Prop where
  tool : a.tool = b.tool
  operation : a.operation = b.operation
  target : a.normalizedTarget = b.normalizedTarget
  capabilities : a.requestedCapabilities = b.requestedCapabilities
  hash : a.actionHash = b.actionHash

theorem ActionRequest.Bound.like {a b : ActionRequest} (ha : a.Bound) (hb : b.Bound)
    (h : a.actionHash = b.actionHash) : a.Like b :=
  ⟨by rw [← ha.tool, ← hb.tool, h], by rw [← ha.operation, ← hb.operation, h],
    by rw [← ha.target, ← hb.target, h], by rw [← ha.capabilities, ← hb.capabilities, h], h⟩

theorem named_iff {tool : String} {a b : Option String} (h : SameTools tool a b) (tools : List String) :
    (tool ∈ tools ∨ a.any (· ∈ tools) = true) ↔ (tool ∈ tools ∨ b.any (· ∈ tools) = true) := by
  have own {c : Option String} (hc : c = none ∨ c = some tool) :
      (tool ∈ tools ∨ c.any (· ∈ tools) = true) ↔ tool ∈ tools := by
    rcases hc with rfl | rfl
    · simp
    · simp
  cases h with
  | inl heq => rw [heq]
  | inr hown => rw [own hown.1, own hown.2]

theorem matches_same {a b : ActionRequest} (hlike : a.Like b)
    (h : SameTools b.tool (executable a.normalizedArguments) (executable b.normalizedArguments))
    (rule : PolicyRule) : rule.matches a = rule.matches b := by
  have htools : (decide (b.tool ∈ rule.tools) || (executable a.normalizedArguments).any (· ∈ rule.tools)) =
      (decide (b.tool ∈ rule.tools) || (executable b.normalizedArguments).any (· ∈ rule.tools)) := by
    rw [Bool.eq_iff_iff, Bool.or_eq_true, Bool.or_eq_true, decide_eq_true_eq]
    exact named_iff h rule.tools
  unfold PolicyRule.matches
  rw [hlike.tool, hlike.operation, hlike.target, hlike.capabilities, Bool.or_assoc (rule.tools.isEmpty), htools,
    ← Bool.or_assoc (rule.tools.isEmpty)]

/-- A policy that forbids one tool, and nothing else. -/
def forbidding (tool : String) : PolicyBundle where
  bundleId := "forbidding"
  version := "1"
  defaultDecision := .allow
  rules := [{ ruleId := "hard", layer := .system, decision := .deny, tools := [tool], reason := "forbidden", hard := true }]

theorem forbidding_hardDeny (tool : String) (action : ActionRequest) :
    ((forbidding tool).evaluate action).hardDeny = true ↔
      action.tool = tool ∨ executable action.normalizedArguments = some tool := by
  have hmatches (rule : PolicyRule) (h : rule ∈ (forbidding tool).rules) :
      rule.matches action = true ↔ action.tool = tool ∨ executable action.normalizedArguments = some tool := by
    rw [forbidding, List.mem_singleton] at h
    subst h
    cases hname : executable action.normalizedArguments with
    | none => simp [PolicyRule.matches, hname]
    | some name => simp [PolicyRule.matches, hname]
  constructor
  · intro h
    unfold PolicyBundle.evaluate at h
    split at h
    · rename_i rule hrule
      have hmem := List.mem_filter.mp (List.mem_of_find?_eq_some hrule)
      exact (hmatches rule hmem.1).mp hmem.2
    · exact nomatch h
  · intro h
    exact PolicyBundle.evaluate_of_hard _ _ (List.head_mem (by simp [forbidding])) rfl
      ((hmatches _ (List.head_mem (by simp [forbidding]))).mpr h)

/-- No policy tells the actions apart exactly where no rule tells their executables apart. -/
theorem evaluate_same_iff {a b : ActionRequest} (hlike : a.Like b) :
    (∀ bundle : PolicyBundle, bundle.evaluate a = bundle.evaluate b) ↔
      SameTools b.tool (executable b.normalizedArguments) (executable a.normalizedArguments) := by
  constructor
  · intro h
    have hnames (tool : String) : (b.tool = tool ∨ executable a.normalizedArguments = some tool) ↔
        (b.tool = tool ∨ executable b.normalizedArguments = some tool) := by
      rw [← forbidding_hardDeny tool b, ← h (forbidding tool), forbidding_hardDeny, hlike.tool]
    unfold SameTools
    cases hb : executable b.normalizedArguments with
    | none =>
      right
      refine ⟨.inl rfl, ?_⟩
      cases ha : executable a.normalizedArguments with
      | none => exact .inl rfl
      | some name =>
        cases (hnames name).mp (.inr ha) with
        | inl htool => exact .inr (by rw [htool])
        | inr hname => rw [hb] at hname; exact nomatch hname
    | some name =>
      cases (hnames name).mpr (.inr hb) with
      | inr hname => exact .inl hname.symm
      | inl htool =>
        right
        refine ⟨.inr (by rw [htool]), ?_⟩
        cases ha : executable a.normalizedArguments with
        | none => exact .inl rfl
        | some other =>
          cases (hnames other).mp (.inr ha) with
          | inl hother => exact .inr (by rw [hother])
          | inr hother => rw [hb] at hother; exact .inr (by rw [← hother, htool])
  · intro h bundle
    have hsame : SameTools b.tool (executable a.normalizedArguments) (executable b.normalizedArguments) := by
      cases h with
      | inl heq => exact .inl heq.symm
      | inr hown => exact .inr ⟨hown.2, hown.1⟩
    have hmatched : bundle.matched a = bundle.matched b :=
      List.filter_congr fun rule _ => matches_same hlike hsame rule
    exact bundle.evaluate_congr hmatched hlike.capabilities hlike.hash

end Operant.Security
