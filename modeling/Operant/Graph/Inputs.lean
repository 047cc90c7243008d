import Operant.Graph.Routing
import Operant.Calls.Program

/-! What a node receives.

A port that one edge goes to receives its value, a port that several go to the list of
theirs. `_input_refs` recognises the list it has begun by its being a list, and a value that
is delivered may be one too: then that list grows, and it is the source's own. -/
namespace Operant.Graph
open Operant.Python Operant.Calls

/-! ### What is delivered -/

/-- The cells the active edges deliver to a port, in the order of the edges. -/
def cellsTo (active : List EdgeSpec) (port : String) : List Cell :=
  (active.filter fun edge => edge.targetPort = port).map fun edge => (edge.sourceNode, edge.sourcePort)

def delivered (rows : List NodeRun) (active : List EdgeSpec) (port : String) : List Value :=
  (cellsTo active port).map (listedOutput rows)

/-- What a port should receive. -/
def aggregated : List Value → Option Value
  | [] => none
  | [v] => some v
  | vs => some (.list vs)

/-- Several edges go to a port, and the first delivers a list. -/
def GrowsInPlace (rows : List NodeRun) (active : List EdgeSpec) : Prop :=
  ∃ port xs v rest, delivered rows active port = .list xs :: v :: rest

/-- `_input_refs` for one target after the other, as a pass readies them. -/
def passInputs (rows : List NodeRun) :
    List (List EdgeSpec) → Appends → Except PyError (List Refs × Appends)
  | [], appends => .ok ([], appends)
  | active :: rest, appends => do
    let (refs, appends) ← inputRefs rows active appends
    let (others, appends) ← passInputs rows rest appends
    return (refs :: others, appends)

/-- Each target receives what is delivered to it, and the sources keep their outputs. -/
def InputsFaithful (rows : List NodeRun) (targets : List (List EdgeSpec)) : Prop :=
  ∃ inputs appends, passInputs rows targets [] = .ok (inputs, appends) ∧
    List.Forall₂ (fun active refs => ∀ port, refs.lookup port = aggregated (delivered rows active port))
      targets inputs ∧
    ∀ row ∈ rows, outputsAfter rows appends row = .ok row.outputRefs

/-! ### Collecting -/

/-- The slot of a port these cells go to. -/
def slotFor : List Cell → Option Slot
  | [] => none
  | [cell] => some (.output cell)
  | cells => some (.collected cells)

/-- Every port has the slot of the edges so far. -/
def Collected (active : List EdgeSpec) (refs : Dict Slot) : Prop :=
  ∀ port, refs.lookup port = slotFor (cellsTo active port)

section
variable {rows : List NodeRun} {active done rest : List EdgeSpec} {edge : EdgeSpec}
  {refs : Dict Slot} {appends : Appends}

theorem cellsTo_append (active more : List EdgeSpec) (port : String) :
    cellsTo (active ++ more) port = cellsTo active port ++ cellsTo more port := by
  simp [cellsTo]

theorem cellsTo_snoc (done : List EdgeSpec) (edge : EdgeSpec) (port : String) :
    cellsTo (done ++ [edge]) port =
      if edge.targetPort = port then cellsTo done port ++ [(edge.sourceNode, edge.sourcePort)]
      else cellsTo done port := by
  rw [cellsTo_append]
  by_cases h : edge.targetPort = port <;> simp [cellsTo, h]

/-- The port of the edge gets the slot, all others keep theirs. -/
theorem Collected.set (h : Collected done refs) {slot : Slot}
    (hslot : some slot = slotFor (cellsTo done edge.targetPort ++ [(edge.sourceNode, edge.sourcePort)])) :
    Collected (done ++ [edge]) (refs.set edge.targetPort slot) := by
  intro port
  rw [Dict.lookup_set, cellsTo_snoc]
  by_cases hport : edge.targetPort = port
  · rw [if_pos hport.symm, if_pos hport, ← hport, hslot]
  · rw [if_neg fun heq => hport heq.symm, if_neg hport, h port]

/-- The lists that have grown are outputs that are lists. -/
def ListsGrow (rows : List NodeRun) (appends : Appends) : Prop :=
  ∀ append ∈ appends, ∃ xs, listedOutput rows append.1 = .list xs

theorem listsGrow_nil : ListsGrow rows [] := fun _ hmem => absurd hmem List.not_mem_nil

theorem GrowsInPlace.append (h : GrowsInPlace rows done) (rest : List EdgeSpec) :
    GrowsInPlace rows (done ++ rest) := by
  obtain ⟨port, xs, v, more, hmore⟩ := h
  refine ⟨port, xs, v, more ++ delivered rows rest port, ?_⟩
  rw [delivered, cellsTo_append, List.map_append]
  show delivered rows done port ++ delivered rows rest port = _
  rw [hmore]
  rfl

/-- What is appended stays appended. -/
theorem collectInputs_appends (rest : List EdgeSpec) (refs : Dict Slot) (hlists : ListsGrow rows appends) :
    appends <+: (collectInputs rows rest refs appends).2 ∧
      ListsGrow rows (collectInputs rows rest refs appends).2 := by
  induction rest generalizing refs appends with
  | nil => exact ⟨List.prefix_rfl, hlists⟩
  | cons edge rest ih =>
    unfold collectInputs
    dsimp only
    split
    · exact ih _ hlists
    · exact ih _ hlists
    · rename_i existing _
      split
      · rename_i xs hxs
        have hmore : ListsGrow rows (appends ++ [(existing, (edge.sourceNode, edge.sourcePort))]) := by
          intro append hmem
          rcases List.mem_append.mp hmem with hmem | hmem
          · exact hlists append hmem
          · rw [List.mem_singleton.mp hmem]
            exact ⟨xs, hxs⟩
        obtain ⟨hkept, hgrow⟩ := ih refs hmore
        exact ⟨(List.prefix_append _ _).trans hkept, hgrow⟩
      · exact ih _ hlists

/-- While no list is mistaken for one that was begun, every port has its slot; the first that
is mistaken grows. -/
theorem collectInputs_spec (rest : List EdgeSpec) (hc : Collected done refs) :
    (¬GrowsInPlace rows (done ++ rest) →
      (collectInputs rows rest refs appends).2 = appends ∧
        Collected (done ++ rest) (collectInputs rows rest refs appends).1) ∧
    (¬GrowsInPlace rows done → GrowsInPlace rows (done ++ rest) → ListsGrow rows appends →
      (collectInputs rows rest refs appends).2 ≠ []) := by
  induction rest generalizing done refs appends with
  | nil =>
    rw [List.append_nil]
    exact ⟨fun _ => ⟨rfl, hc⟩, fun hnot hgrows => absurd hgrows hnot⟩
  | cons edge rest ih =>
    have hassoc : done ++ edge :: rest = done ++ [edge] ++ rest := by simp
    rw [hassoc]
    -- A step that gives the port its slot, and after which no list is mistaken yet.
    have step {slot : Slot}
        (hslot : some slot = slotFor (cellsTo done edge.targetPort ++ [(edge.sourceNode, edge.sourcePort)]))
        (hfirst : ¬GrowsInPlace rows done → ¬GrowsInPlace rows (done ++ [edge])) :=
      have h : _ ∧ (_ → _ → ListsGrow rows appends → _) := ih (hc.set hslot)
      And.intro h.1 fun hnot => h.2 (hfirst hnot)
    have other {port xs v more} (hne : edge.targetPort ≠ port)
        (h : delivered rows (done ++ [edge]) port = .list xs :: v :: more) : GrowsInPlace rows done := by
      rw [delivered, cellsTo_snoc, if_neg hne] at h
      exact ⟨port, xs, v, more, h⟩
    have hlookup := hc edge.targetPort
    unfold collectInputs
    dsimp only
    generalize hcells : cellsTo done edge.targetPort = cells at hlookup step
    have snoc {port xs v more} (heq : edge.targetPort = port)
        (h : delivered rows (done ++ [edge]) port = .list xs :: v :: more) :
        (cells ++ [(edge.sourceNode, edge.sourcePort)]).map (listedOutput rows) = .list xs :: v :: more := by
      rw [delivered, cellsTo_snoc, if_pos heq, ← heq, hcells] at h
      exact h
    cases cells with
    | nil =>
      rw [hlookup]
      refine step rfl fun hnot ⟨port, xs, v, more, h⟩ => ?_
      by_cases heq : edge.targetPort = port
      · have hone := snoc heq h
        simp at hone
      · exact hnot (other heq h)
    | cons first tail =>
      cases tail with
      | nil =>
        rw [hlookup]
        dsimp only [slotFor]
        split
        · rename_i xs hxs
          have hgrows : GrowsInPlace rows (done ++ [edge]) := by
            refine ⟨edge.targetPort, xs, listedOutput rows (edge.sourceNode, edge.sourcePort), [], ?_⟩
            rw [delivered, cellsTo_snoc, if_pos rfl, hcells]
            simp [hxs]
          refine ⟨fun hnot => absurd (hgrows.append rest) hnot, fun _ _ hlists hnil => ?_⟩
          have hmore : ListsGrow rows (appends ++ [(first, (edge.sourceNode, edge.sourcePort))]) := by
            intro append hmem
            rcases List.mem_append.mp hmem with hmem | hmem
            · exact hlists append hmem
            · rw [List.mem_singleton.mp hmem]
              exact ⟨xs, hxs⟩
          have hkept := (collectInputs_appends rest refs hmore).1
          rw [hnil] at hkept
          simp at hkept
        · rename_i hnone
          refine step rfl fun hnot ⟨port, xs, v, more, h⟩ => ?_
          by_cases heq : edge.targetPort = port
          · have hfirst := snoc heq h
            simp only [List.singleton_append, List.map_cons, List.cons.injEq] at hfirst
            exact hnone xs hfirst.1
          · exact hnot (other heq h)
      | cons second more =>
        rw [hlookup]
        refine step rfl fun hnot ⟨port, xs, v, others, h⟩ => ?_
        by_cases heq : edge.targetPort = port
        · have hfirst := snoc heq h
          simp only [List.cons_append, List.map_cons, List.cons.injEq] at hfirst
          refine hnot ⟨edge.targetPort, xs, listedOutput rows second, more.map (listedOutput rows), ?_⟩
          rw [delivered, hcells, List.map_cons, List.map_cons, hfirst.1]
        · exact hnot (other heq h)

theorem collectInputs_start (active : List EdgeSpec) :
    (¬GrowsInPlace rows active → (collectInputs rows active [] []).2 = [] ∧
        Collected active (collectInputs rows active [] []).1) ∧
      (GrowsInPlace rows active → (collectInputs rows active [] []).2 ≠ []) := by
  have hempty : Collected [] [] := fun port => rfl
  have hnone : ¬GrowsInPlace rows [] := fun ⟨_, _, _, _, h⟩ => nomatch h
  have h : _ ∧ _ := @collectInputs_spec rows [] [] [] active hempty
  rw [List.nil_append] at h
  exact ⟨h.1, fun hgrows => h.2 hnone hgrows listsGrow_nil⟩

end

/-! ### Reading -/

section
variable {rows : List NodeRun} {active : List EdgeSpec} {appends appends' : Appends}

theorem mapM_of_ok {E α β : Type} {f : α → Except E β} {g : α → β} {xs : List α}
    (h : ∀ x ∈ xs, f x = .ok (g x)) : xs.mapM f = .ok (xs.map g) := by
  induction xs with
  | nil => rfl
  | cons x rest ih =>
    rw [List.mapM_cons, h x List.mem_cons_self, ih fun y hy => h y (List.mem_cons_of_mem _ hy)]
    rfl

theorem lookup_map {α β : Type} (g : α → β) (d : Dict α) (key : String) :
    (d.map fun item => (item.1, g item.2)).lookup key = (d.lookup key).map g := by
  induction d with
  | nil => rfl
  | cons item rest ih =>
    rw [List.map_cons, List.lookup_cons, List.lookup_cons, ih]
    cases key == item.1 <;> rfl

/-- Where nothing has grown, a cell holds what was listed. -/
theorem outputAfter_nil (cell : Cell) : outputAfter rows [] cell = .ok (listedOutput rows cell) := by
  show grown rows [] 1 cell = _
  unfold grown
  split
  · rename_i xs hxs
    rw [hxs]
    show Except.ok (Value.list (xs ++ [])) = _
    rw [List.append_nil]
  · rfl

/-- What a slot is read as where nothing has grown. -/
def Slot.listed (rows : List NodeRun) : Slot → Value
  | .output cell => listedOutput rows cell
  | .collected cells => .list (cells.map (listedOutput rows))

theorem Slot.read_nil (slot : Slot) : slot.read rows [] = .ok (slot.listed rows) := by
  cases slot with
  | output cell => exact outputAfter_nil cell
  | collected cells =>
    show (cells.mapM (outputAfter rows []) >>= fun values => Except.ok (Value.list values)) = _
    rw [mapM_of_ok fun cell _ => outputAfter_nil cell]
    rfl

theorem slotFor_listed (cells : List Cell) :
    (slotFor cells).map (Slot.listed rows) = aggregated (cells.map (listedOutput rows)) := by
  cases cells with
  | nil => rfl
  | cons first tail => cases tail <;> rfl

theorem inputRefs_ok (hnot : ¬GrowsInPlace rows active) : ∃ refs, inputRefs rows active [] = .ok (refs, []) ∧
    ∀ port, refs.lookup port = aggregated (delivered rows active port) := by
  obtain ⟨hnil, hc⟩ := (collectInputs_start active).1 hnot
  refine ⟨(collectInputs rows active [] []).1.map fun slot => (slot.1, slot.2.listed rows), ?_, fun port => ?_⟩
  · unfold inputRefs
    dsimp only
    rw [hnil, mapM_of_ok (g := fun slot : String × Slot => (slot.1, slot.2.listed rows))]
    · rfl
    · intro slot _
      rw [Slot.read_nil]
      rfl
  · rw [lookup_map, hc port, slotFor_listed]
    rfl

theorem inputRefs_appends {refs : Refs} (hlists : ListsGrow rows appends)
    (h : inputRefs rows active appends = .ok (refs, appends')) :
    appends <+: appends' ∧ ListsGrow rows appends' ∧
      (appends = [] → GrowsInPlace rows active → appends' ≠ []) := by
  unfold inputRefs at h
  obtain ⟨_, -, h⟩ := ok_of_bind h
  cases h
  obtain ⟨hkept, hgrow⟩ := collectInputs_appends active [] hlists
  refine ⟨hkept, hgrow, ?_⟩
  rintro rfl hgrows
  exact (collectInputs_start active).2 hgrows

/-- An output that has grown is no longer what was listed. -/
theorem outputs_grown (hlists : ListsGrow rows appends) (hne : appends ≠ []) :
    ∃ row ∈ rows, outputsAfter rows appends row ≠ .ok row.outputRefs := by
  obtain ⟨append, hmem⟩ := List.exists_mem_of_ne_nil appends hne
  obtain ⟨⟨nodeId, port⟩, by'⟩ := append
  obtain ⟨xs, hxs⟩ := hlists _ hmem
  have hlisted := hxs
  unfold listedOutput at hlisted
  split at hlisted
  · rename_i row hrow
    have hid : row.nodeId = nodeId := by simpa using List.find?_some hrow
    refine ⟨row, List.mem_of_find?_eq_some hrow, fun hsame => ?_⟩
    unfold outputsAfter at hsame
    rw [if_neg (by simpa using hne)] at hsame
    obtain ⟨v, hv⟩ : ∃ v, row.outputRefs.lookup port = some v := by
      cases hlookup : row.outputRefs.lookup port with
      | none =>
        rw [hlookup] at hlisted
        cases hlisted
      | some v => exact ⟨v, rfl⟩
    rw [hv] at hlisted
    obtain ⟨before, after, hsplit, -⟩ := List.lookup_eq_some_iff.mp hv
    have hitem : (port, v) ∈ row.outputRefs := by rw [hsplit]; simp
    have hread := List.forall₂_same.mp (mapM_ok hsame) _ hitem
    obtain ⟨w, hw, hread⟩ := ok_of_bind hread
    cases hread
    -- The value read back has the appended ones behind the listed ones.
    rw [hid] at hw
    unfold outputAfter grown at hw
    rw [hxs] at hw
    obtain ⟨added, hadded, hw⟩ := ok_of_bind hw
    have hlist : Value.list (xs ++ added) = Value.list xs := (Except.ok.inj hw).trans hlisted
    have hnone : added = [] := by simpa using hlist
    have hlength := (mapM_ok hadded).length_eq
    rw [hnone, List.length_nil, List.length_eq_zero_iff, List.filter_eq_nil_iff] at hlength
    exact hlength _ hmem (decide_eq_true rfl)
  · cases hlisted

end

/-! ### A pass -/

section
variable {rows : List NodeRun} {targets : List (List EdgeSpec)}

theorem passInputs_ok (h : ∀ active ∈ targets, ¬GrowsInPlace rows active) :
    ∃ inputs, passInputs rows targets [] = .ok (inputs, []) ∧
      List.Forall₂ (fun active refs => ∀ port, refs.lookup port = aggregated (delivered rows active port))
        targets inputs := by
  induction targets with
  | nil => exact ⟨[], rfl, .nil⟩
  | cons active rest ih =>
    obtain ⟨refs, hrefs, hports⟩ := inputRefs_ok (h active List.mem_cons_self)
    obtain ⟨others, hothers, hall⟩ := ih fun a ha => h a (List.mem_cons_of_mem _ ha)
    refine ⟨refs :: others, ?_, .cons hports hall⟩
    rw [passInputs, hrefs]
    show (passInputs rows rest [] >>= _) = _
    rw [hothers]
    rfl

theorem passInputs_appends {appends appends' : Appends} {inputs : List Refs} (hlists : ListsGrow rows appends)
    (h : passInputs rows targets appends = .ok (inputs, appends')) :
    appends <+: appends' ∧ ListsGrow rows appends' ∧
      ((∃ active ∈ targets, GrowsInPlace rows active) → appends' ≠ []) := by
  induction targets generalizing appends inputs with
  | nil =>
    cases h
    exact ⟨List.prefix_rfl, hlists, fun ⟨_, hmem, _⟩ => absurd hmem List.not_mem_nil⟩
  | cons active rest ih =>
    obtain ⟨⟨refs, between⟩, hrefs, h⟩ := ok_of_bind h
    obtain ⟨⟨others, last⟩, hothers, h⟩ := ok_of_bind h
    cases h
    obtain ⟨hkept, hbetween, hfirst⟩ := inputRefs_appends hlists hrefs
    obtain ⟨hfrom, hlast, hrest⟩ := ih hbetween hothers
    refine ⟨hkept.trans hfrom, hlast, fun ⟨target, hmem, hgrows⟩ => ?_⟩
    rcases List.mem_cons.mp hmem with rfl | hmem
    · by_cases hnil : appends = []
      · exact fun h => hfirst hnil hgrows (List.prefix_nil.mp (h ▸ hfrom))
      · exact fun h => hnil (List.prefix_nil.mp (h ▸ hkept.trans hfrom))
    · exact hrest ⟨target, hmem, hgrows⟩

end

/-- Inputs are right, and no output changes, as long as no value that comes first at a port with
several edges is a list. -/
theorem inputs_faithful (rows : List NodeRun) (targets : List (List EdgeSpec)) :
    InputsFaithful rows targets ↔ ∀ active ∈ targets, ¬GrowsInPlace rows active := by
  constructor
  · rintro ⟨inputs, appends, hpass, -, hkept⟩ active hactive hgrows
    obtain ⟨-, hlists, hne⟩ := passInputs_appends listsGrow_nil hpass
    obtain ⟨row, hrow, hchanged⟩ := outputs_grown hlists (hne ⟨active, hactive, hgrows⟩)
    exact hchanged (hkept row hrow)
  · intro h
    obtain ⟨inputs, hpass, hports⟩ := passInputs_ok h
    exact ⟨inputs, [], hpass, hports, fun row _ => rfl⟩

/-- Two branches that end in one port. -/
def branchRows : List NodeRun :=
  [{ id := "1", workflowRunId := "r", nodeId := "a", status := .succeeded,
     outputRefs := [("out", .list [.int 1])] },
   { id := "2", workflowRunId := "r", nodeId := "b", status := .succeeded,
     outputRefs := [("out", .int 2)] }]

def branchEdges : List EdgeSpec :=
  [{ edgeId := "at", sourceNode := "a", sourcePort := "out", targetNode := "t", targetPort := "in" },
   { edgeId := "bt", sourceNode := "b", sourcePort := "out", targetNode := "t", targetPort := "in" }]

/-- The first branch delivers `[1]` and the second `2`: the port receives `[1, 2]`. -/
theorem inputs_unfaithful : ¬∀ rows targets, InputsFaithful rows targets := by
  intro h
  obtain ⟨inputs, appends, hpass, hports, -⟩ := h branchRows [branchEdges]
  have hread : passInputs branchRows [branchEdges] [] =
      .ok ([[("in", .list [.int 1, .int 2])]], [(("a", "out"), ("b", "out"))]) := rfl
  rw [hread] at hpass
  cases hpass
  have hport := (List.forall₂_cons.mp hports).1 "in"
  have hwrong : (some (Value.list [.int 1, .int 2]) : Option Value) =
      some (.list [.list [.int 1], .int 2]) := hport
  simp at hwrong

end Operant.Graph
