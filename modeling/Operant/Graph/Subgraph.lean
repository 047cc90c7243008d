import Operant.Graph.Compiler
import Operant.Graph.Subworkflow
import Operant.Search.Bounded
import Operant.Calls.Program

/-! `validate_subgraph_tree`: which subworkflows a definition may start.

A definition refers to others by id and version, and they to others again. The walk below
goes along every path, so a definition that two paths lead to is walked through twice, and
counted twice.

`admission_sound`: the walk ends, and what it admits has no cycle and no path longer than
the root allows, gives nothing that it was not given, and has no more agents than the root
allows. -/
namespace Operant.Graph
open Operant.Search Operant.Calls Relation

/-- `get_definition`; what is missing raises. -/
abbrev Definitions := String → Nat → Option WorkflowDefinition

inductive SubgraphError where
  | value (message : String)
  | compilation (e : CompileError)
  | missing
  /-- The walk has not ended. -/
  | cutOff

/-- `get_definition(str(node.subworkflow_id), int(node.subworkflow_version or 0))`. -/
def NodeSpec.child? (node : NodeSpec) (definitions : Definitions) : Option WorkflowDefinition :=
  definitions (node.subworkflowId.getD "None") (node.subworkflowVersion.getD 0)

namespace WorkflowDefinition

/-- `required`: what a definition and its nodes ask for. -/
def required (definition : WorkflowDefinition) : List String :=
  definition.requiredCapabilities ++ definition.nodes.flatMap NodeSpec.capabilityRequirements

/-- `members`. -/
def members (definition : WorkflowDefinition) : Nat :=
  definition.nodes.countP fun node => node.nodeKind = .agent

def rolesWithin (child parent : WorkflowDefinition) : Bool :=
  child.lockedRoleVersions.all fun item => parent.lockedRoleVersions.lookup item.1 = some item.2

end WorkflowDefinition

/-- The checks on one child. -/
def admitChild (definitions : Definitions) (current : WorkflowDefinition) (node : NodeSpec) :
    Except SubgraphError WorkflowDefinition :=
  match node.child? definitions with
  | none => throw .missing
  | some child => do
    if child.status ≠ .published then throw (.value "Subworkflow must pin a published definition")
    if !child.rolesWithin current then
      throw (.value "Subworkflow role grant exceeds the parent definition")
    if !child.required.all (· ∈ node.capabilityRequirements) then
      throw (.value "Subworkflow capability grant exceeds its parent node")
    if !child.requiredPlugins.all (· ∈ current.requiredPlugins) then
      throw (.value "Subworkflow plugin grant exceeds the parent definition")
    return child

/-- The loop of `visit` over the nodes: what it has counted, and how many visits there were.
`visitChild` is the recursive call. -/
def visitNodes (definitions : Definitions) (root current : WorkflowDefinition)
    (visitChild : WorkflowDefinition → Nat → Except SubgraphError (Nat × Nat)) :
    List NodeSpec → Nat → Nat → Except SubgraphError (Nat × Nat)
  | [], descendants, visits => return (descendants, visits)
  | node :: rest, descendants, visits =>
    if node.nodeKind ≠ .subworkflow then
      visitNodes definitions root current visitChild rest descendants visits
    else do
      let child ← admitChild definitions current node
      let (below, visits) ← visitChild child visits
      let descendants := descendants + (child.members + below) * loopMultiplier current
      if root.graphLimits.maxSubagents < descendants then
        throw (.value "Subworkflow exceeds the root sub-agent limit")
      visitNodes definitions root current visitChild rest descendants visits

/-- `visit`. -/
def visitSubgraph (definitions : Definitions) (root : WorkflowDefinition) :
    Nat → WorkflowDefinition → List (String × Nat) → Nat → Except SubgraphError (Nat × Nat)
  | 0, _, _, _ => throw .cutOff
  | fuel + 1, current, stack, visits => do
    let visits := visits + 1
    if 10000 < visits then
      throw (.value "Subworkflow admission exceeds the bounded definition limit")
    let _ ← (compile current).mapError SubgraphError.compilation
    let identity := (current.workflowId, current.version)
    if identity ∈ stack then throw (.value "recursive Subworkflow is not allowed")
    if min 32 root.graphLimits.maxRecursionDepth < stack.length + 1 then
      throw (.value "Subworkflow exceeds the root recursion depth")
    visitNodes definitions root current
      (fun child visits => visitSubgraph definitions root fuel child (stack ++ [identity]) visits)
      current.nodes 0 visits

/-- `validate_subgraph_tree`. A path has at most 33 definitions until its depth is refused. -/
def validateSubgraphTree (definitions : Definitions) (definition : WorkflowDefinition) :
    Except SubgraphError Unit := do
  let (descendants, _) ← visitSubgraph definitions definition 33 definition [] 0
  if definition.graphLimits.maxSubagents < descendants then
    throw (.value "Subworkflow exceeds the root sub-agent limit")

/-! ### What admission promises -/

section
variable (definitions : Definitions)

/-- A node of the one pins the other. -/
def References (parent child : WorkflowDefinition) : Prop :=
  ∃ node ∈ parent.nodes, node.nodeKind = .subworkflow ∧ node.child? definitions = some child

/-- The definitions a definition pins, once for each node that does. -/
def children (definition : WorkflowDefinition) : List WorkflowDefinition :=
  (definition.nodes.filter fun node => node.nodeKind = .subworkflow).filterMap
    fun node => node.child? definitions

/-- The paths of at most `n` references, each as the definitions it leads through. -/
def referencePaths : Nat → WorkflowDefinition → List (List WorkflowDefinition)
  | 0, _ => []
  | n + 1, definition => (children definitions definition).flatMap fun child =>
      [child] :: (referencePaths n child).map (child :: ·)

end

/-- The agents at the end of a path, times the loop multiplier of every definition before. -/
def pathMembers : WorkflowDefinition → List WorkflowDefinition → Nat
  | definition, [] => definition.members
  | definition, child :: path => loopMultiplier definition * pathMembers child path

/-- The node gives what the child asks for, and the parent what the child holds. -/
structure Granted (parent : WorkflowDefinition) (node : NodeSpec) (child : WorkflowDefinition) : Prop where
  published : child.status = .published
  roles : ∀ item ∈ child.lockedRoleVersions, parent.lockedRoleVersions.lookup item.1 = some item.2
  capabilities : child.required ⊆ node.capabilityRequirements
  plugins : child.requiredPlugins ⊆ parent.requiredPlugins

/-- Everything a definition holds, its ancestor holds. -/
structure Inherits (ancestor definition : WorkflowDefinition) : Prop where
  roles : ∀ item ∈ definition.lockedRoleVersions,
    ancestor.lockedRoleVersions.lookup item.1 = some item.2
  capabilities : definition.required ⊆ ancestor.required
  plugins : definition.requiredPlugins ⊆ ancestor.requiredPlugins

structure Admitted (definitions : Definitions) (root : WorkflowDefinition) : Prop where
  acyclic : ∀ d, ReflTransGen (References definitions) root d → ¬TransGen (References definitions) d d
  /-- The root counts too. -/
  depth : ∀ path, List.IsChain (References definitions) (root :: path) →
    (root :: path).length ≤ min 32 root.graphLimits.maxRecursionDepth
  granted : ∀ d, ReflTransGen (References definitions) root d → ∀ node ∈ d.nodes,
    node.nodeKind = .subworkflow → ∃ child, node.child? definitions = some child ∧ Granted d node child
  inherits : ∀ d, ReflTransGen (References definitions) root d → ∀ child,
    TransGen (References definitions) d child → Inherits d child
  members : ∀ n, ((referencePaths definitions n root).map (pathMembers root)).sum ≤
    root.graphLimits.maxSubagents

/-! ### One visit -/

section
variable {definitions : Definitions} {root current child : WorkflowDefinition} {node : NodeSpec}

theorem admitChild_ok (h : admitChild definitions current node = .ok child) :
    node.child? definitions = some child ∧ Granted current node child := by
  unfold admitChild at h
  split at h
  · cases h
  · rename_i found hfound
    obtain ⟨hpublished, h⟩ := ok_of_guard h
    obtain ⟨hroles, h⟩ := ok_of_guard h
    obtain ⟨hcapabilities, h⟩ := ok_of_guard h
    obtain ⟨hplugins, h⟩ := ok_of_guard h
    obtain rfl := Except.ok.inj h
    simp only [Bool.not_eq_true', Bool.not_eq_false, WorkflowDefinition.rolesWithin, List.all_eq_true,
      decide_eq_true_eq] at hroles hcapabilities hplugins
    exact ⟨hfound, not_not.mp hpublished, hroles, hcapabilities, hplugins⟩

/-- Each child that was visited, with what was counted below it. -/
inductive Visited (definitions : Definitions) (current : WorkflowDefinition)
    (visitChild : WorkflowDefinition → Nat → Except SubgraphError (Nat × Nat)) :
    List NodeSpec → Nat → Prop where
  | nil : Visited definitions current visitChild [] 0
  | other {node : NodeSpec} {rest : List NodeSpec} {count : Nat} (kind : node.nodeKind ≠ .subworkflow)
    (h : Visited definitions current visitChild rest count) :
    Visited definitions current visitChild (node :: rest) count
  | child {node : NodeSpec} {rest : List NodeSpec} {count below visits visits' : Nat}
    {child : WorkflowDefinition} (kind : node.nodeKind = .subworkflow)
    (found : node.child? definitions = some child) (granted : Granted current node child)
    (visited : visitChild child visits = .ok (below, visits'))
    (h : Visited definitions current visitChild rest count) :
    Visited definitions current visitChild (node :: rest)
      ((child.members + below) * loopMultiplier current + count)

variable {visitChild : WorkflowDefinition → Nat → Except SubgraphError (Nat × Nat)}

theorem visitNodes_ok {nodes : List NodeSpec} {descendants visits count visits' : Nat}
    (h : visitNodes definitions root current visitChild nodes descendants visits = .ok (count, visits')) :
    ∃ counted, Visited definitions current visitChild nodes counted ∧ count = descendants + counted := by
  induction nodes generalizing descendants visits with
  | nil =>
    obtain ⟨rfl, rfl⟩ := Prod.mk.inj (Except.ok.inj h)
    exact ⟨0, .nil, rfl⟩
  | cons node rest ih =>
    unfold visitNodes at h
    split at h
    · rename_i hkind
      obtain ⟨counted, hvisited, hcount⟩ := ih h
      exact ⟨counted, .other hkind hvisited, hcount⟩
    · rename_i hkind
      obtain ⟨child, hchild, h⟩ := ok_of_bind h
      obtain ⟨⟨below, after⟩, hvisit, h⟩ := ok_of_bind h
      obtain ⟨-, h⟩ := ok_of_guard h
      obtain ⟨counted, hvisited, hcount⟩ := ih h
      obtain ⟨hfound, hgranted⟩ := admitChild_ok hchild
      refine ⟨_, .child (not_not.mp hkind) hfound hgranted hvisit hvisited, ?_⟩
      rw [hcount, Nat.add_assoc]

theorem visitSubgraph_ok {fuel : Nat} {stack : List (String × Nat)} {visits count visits' : Nat}
    (h : visitSubgraph definitions root fuel current stack visits = .ok (count, visits')) :
    ∃ less, fuel = less + 1 ∧ stack.length + 1 ≤ min 32 root.graphLimits.maxRecursionDepth ∧
      Visited definitions current (fun child visits => visitSubgraph definitions root less child
        (stack ++ [(current.workflowId, current.version)]) visits) current.nodes count := by
  cases fuel with
  | zero => cases h
  | succ less =>
    unfold visitSubgraph at h
    obtain ⟨-, h⟩ := ok_of_guard h
    obtain ⟨_, -, h⟩ := ok_of_bind h
    obtain ⟨-, h⟩ := ok_of_guard h
    obtain ⟨hdepth, h⟩ := ok_of_guard h
    obtain ⟨counted, hvisited, hcount⟩ := visitNodes_ok h
    rw [hcount, Nat.zero_add]
    exact ⟨less, rfl, Nat.le_of_not_lt hdepth, hvisited⟩

theorem Visited.mem {nodes : List NodeSpec} {count : Nat}
    (h : Visited definitions current visitChild nodes count) (hnode : node ∈ nodes)
    (hkind : node.nodeKind = .subworkflow) :
    ∃ child, node.child? definitions = some child ∧ Granted current node child ∧
      ∃ visits below visits', visitChild child visits = .ok (below, visits') := by
  induction h with
  | nil => cases hnode
  | other kind _ ih =>
    cases List.mem_cons.mp hnode with
    | inl heq => exact absurd (heq ▸ hkind) kind
    | inr hrest => exact ih hrest
  | @child head rest _ below visits visits' child kind found granted visited _ ih =>
    cases List.mem_cons.mp hnode with
    | inl heq =>
      rw [heq]
      exact ⟨child, found, granted, visits, below, visits', visited⟩
    | inr hrest => exact ih hrest

end

/-! ### All visits -/

section
variable {definitions : Definitions} {root current : WorkflowDefinition} {fuel : Nat}
  {stack : List (String × Nat)} {visits count visits' : Nat}

/-- No path goes deeper than the root allows. -/
theorem visitSubgraph_within
    (h : visitSubgraph definitions root fuel current stack visits = .ok (count, visits')) :
    Within (References definitions) (min 32 root.graphLimits.maxRecursionDepth - stack.length) current := by
  induction fuel generalizing current stack visits count visits' with
  | zero => cases h
  | succ fuel ih =>
    obtain ⟨less, hless, hdepth, hvisited⟩ := visitSubgraph_ok h
    obtain rfl := Nat.succ.inj hless
    obtain ⟨n, hn⟩ : ∃ n, min 32 root.graphLimits.maxRecursionDepth - stack.length = n + 1 :=
      ⟨min 32 root.graphLimits.maxRecursionDepth - stack.length - 1, by omega⟩
    rw [hn]
    rintro child ⟨node, hnode, hkind, hchild⟩
    obtain ⟨found, hfound, -, v, b, v', hvisit⟩ := hvisited.mem hnode hkind
    obtain rfl : found = child := Option.some.inj (hfound.symm.trans hchild)
    have hwithin := ih hvisit
    rw [List.length_append, List.length_singleton] at hwithin
    exact hwithin.mono (by omega)

/-- What is reached from a definition that was visited was visited. -/
theorem visitSubgraph_reached
    (h : visitSubgraph definitions root fuel current stack visits = .ok (count, visits'))
    {d : WorkflowDefinition} (hd : ReflTransGen (References definitions) current d) :
    ∃ fuel stack visits count visits',
      visitSubgraph definitions root fuel d stack visits = .ok (count, visits') := by
  induction hd with
  | refl => exact ⟨_, _, _, _, _, h⟩
  | tail _ hstep ih =>
    obtain ⟨fuel, stack, visits, count, visits', hvisit⟩ := ih
    obtain ⟨node, hnode, hkind, hchild⟩ := hstep
    obtain ⟨less, -, -, hvisited⟩ := visitSubgraph_ok hvisit
    obtain ⟨found, hfound, -, v, b, v', hbelow⟩ := hvisited.mem hnode hkind
    obtain rfl := Option.some.inj (hfound.symm.trans hchild)
    exact ⟨_, _, _, _, _, hbelow⟩

theorem visitSubgraph_granted
    (h : visitSubgraph definitions root fuel current stack visits = .ok (count, visits'))
    {node : NodeSpec} (hnode : node ∈ current.nodes) (hkind : node.nodeKind = .subworkflow) :
    ∃ child, node.child? definitions = some child ∧ Granted current node child := by
  obtain ⟨less, -, -, hvisited⟩ := visitSubgraph_ok h
  obtain ⟨child, hchild, hgranted, -⟩ := hvisited.mem hnode hkind
  exact ⟨child, hchild, hgranted⟩

/-- What a definition's nodes give, the definition holds. -/
theorem Granted.inherits {parent child : WorkflowDefinition} {node : NodeSpec}
    (h : Granted parent node child) (hnode : node ∈ parent.nodes) : Inherits parent child where
  roles := h.roles
  capabilities := fun _ hc => List.mem_append_right _
    (List.mem_flatMap.mpr ⟨node, hnode, h.capabilities hc⟩)
  plugins := h.plugins

theorem Inherits.trans {a b c : WorkflowDefinition} (hab : Inherits a b) (hbc : Inherits b c) :
    Inherits a c where
  roles := fun item hitem => by
    obtain ⟨before, after, hsplit, -⟩ := List.lookup_eq_some_iff.mp (hbc.roles item hitem)
    exact hab.roles item (by rw [hsplit]; simp)
  capabilities := fun _ hc => hab.capabilities (hbc.capabilities hc)
  plugins := fun _ hp => hab.plugins (hbc.plugins hp)

/-- The count is what the paths lead to, however long they are. -/
theorem visitSubgraph_members
    (h : visitSubgraph definitions root fuel current stack visits = .ok (count, visits')) (n : Nat) :
    ((referencePaths definitions n current).map (pathMembers current)).sum ≤ count := by
  induction n generalizing fuel current stack visits count visits' with
  | zero => exact Nat.zero_le _
  | succ n ih =>
    obtain ⟨less, -, -, hvisited⟩ := visitSubgraph_ok h
    have hsum (nodes : List NodeSpec) (counted : Nat)
        (hnodes : Visited definitions current (fun child visits => visitSubgraph definitions root less
          child (stack ++ [(current.workflowId, current.version)]) visits) nodes counted) :
        ((((nodes.filter fun node => node.nodeKind = .subworkflow).filterMap
          fun node => node.child? definitions).flatMap fun child =>
            [child] :: (referencePaths definitions n child).map (child :: ·)).map
              (pathMembers current)).sum ≤ counted := by
      induction hnodes with
      | nil => exact Nat.le_refl _
      | other kind _ hrest => simpa [kind] using hrest
      | @child node rest counted below visits visits' child kind found granted visited _ hrest =>
        have hbelow := ih visited
        have hpaths : ((referencePaths definitions n child).map fun path =>
            loopMultiplier current * pathMembers child path).sum =
              loopMultiplier current * ((referencePaths definitions n child).map (pathMembers child)).sum := by
          rw [← List.sum_map_mul_left]
        simp only [kind, found, List.filter_cons, decide_true, if_true, List.filterMap_cons,
          List.flatMap_cons, List.map_append, List.sum_append, List.map_cons, List.sum_cons, List.map_map,
          Function.comp_def, pathMembers]
        rw [hpaths]
        refine Nat.add_le_add ?_ hrest
        calc loopMultiplier current * child.members +
              loopMultiplier current * ((referencePaths definitions n child).map (pathMembers child)).sum
            ≤ loopMultiplier current * child.members + loopMultiplier current * below := by gcongr
          _ = (child.members + below) * loopMultiplier current := by ring
    exact hsum _ _ hvisited

end

/-! ### The walk ends -/

def Ends {α : Type} (x : Except SubgraphError α) : Prop := x ≠ .error .cutOff

namespace Ends
variable {α β : Type}

theorem ok (a : α) : Ends (.ok a) := fun h => nomatch h

theorem value (message : String) : Ends (.error (.value message) : Except SubgraphError α) :=
  fun h => nomatch h

theorem bind {x : Except SubgraphError α} {f : α → Except SubgraphError β} (hx : Ends x)
    (hf : ∀ a, Ends (f a)) : Ends (x >>= f) := by
  cases x with
  | ok a => exact hf a
  | error e => exact fun h => hx (congrArg Except.error (Except.error.inj h))

theorem guard {c : Prop} [Decidable c] {message : String} {k : Unit → Except SubgraphError α}
    (hk : ¬c → Ends (k ())) :
    Ends (if c then (throw (.value message) : Except SubgraphError Unit) >>= k else k ()) := by
  split
  · exact value message
  · exact hk ‹_›

end Ends

section
variable {definitions : Definitions} {root current : WorkflowDefinition}

theorem admitChild_ends (node : NodeSpec) : Ends (admitChild definitions current node) := by
  unfold admitChild
  split
  · exact fun h => nomatch h
  · exact .guard fun _ => .guard fun _ => .guard fun _ => .guard fun _ => .ok _

theorem visitNodes_ends {visitChild : WorkflowDefinition → Nat → Except SubgraphError (Nat × Nat)}
    (hchild : ∀ child visits, Ends (visitChild child visits)) (nodes : List NodeSpec)
    (descendants visits : Nat) :
    Ends (visitNodes definitions root current visitChild nodes descendants visits) := by
  induction nodes generalizing descendants visits with
  | nil => exact .ok _
  | cons node rest ih =>
    unfold visitNodes
    split
    · exact ih _ _
    · exact (admitChild_ends node).bind fun child => (hchild child visits).bind fun _ =>
        .guard fun _ => ih _ _

/-- A path ends before the fuel does. -/
theorem visitSubgraph_ends {fuel : Nat} {stack : List (String × Nat)} (hstack : stack.length ≤ 32)
    (hfuel : 33 ≤ fuel + stack.length) (visits : Nat) :
    Ends (visitSubgraph definitions root fuel current stack visits) := by
  induction fuel generalizing current stack visits with
  | zero => omega
  | succ fuel ih =>
    unfold visitSubgraph
    refine .guard fun _ => .bind ?_ fun _ => .guard fun _ => .guard fun hdepth => ?_
    · cases compile current with
      | ok compiled => exact .ok _
      | error e => exact fun h => nomatch h
    · refine visitNodes_ends (fun child visits => ih ?_ ?_ visits) _ _ _
      · rw [List.length_append, List.length_singleton]
        omega
      · rw [List.length_append, List.length_singleton]
        omega

end

/-! ### Admission -/

/-- The review of two reports by their own workflow. -/
def reviewWorkflow : WorkflowDefinition :=
  { workflowId := "review"
    nodes :=
      [{ nodeId := "read", nodeKind := .agent, capabilityRequirements := ["workspace.read"] },
       { nodeId := "judge", nodeKind := .agent }]
    lockedRoleVersions := [("reviewer", 1)]
    status := .published }

def reportWorkflow : WorkflowDefinition :=
  { workflowId := "report"
    nodes :=
      [{ nodeId := "review", nodeKind := .subworkflow, capabilityRequirements := ["workspace.read"],
         subworkflowId := some "review", subworkflowVersion := some 1 }]
    lockedRoleVersions := [("reviewer", 1)]
    status := .published }

def reportDefinitions : Definitions := fun workflowId version =>
  if workflowId = "review" ∧ version = 1 then some reviewWorkflow
  else if workflowId = "report" ∧ version = 1 then some reportWorkflow else none

/-- Admission comes to an end, and what it admits keeps to the root's bounds. -/
theorem admission_sound (definitions : Definitions) (root : WorkflowDefinition) :
    Ends (validateSubgraphTree definitions root) ∧
      (validateSubgraphTree definitions root = .ok () → Admitted definitions root) := by
  constructor
  · refine (visitSubgraph_ends (Nat.zero_le _) (Nat.le_refl _) _).bind fun _ => ?_
    dsimp only
    split
    · exact .value _
    · exact .ok _
  · intro h
    obtain ⟨⟨descendants, visits⟩, hvisit, h⟩ := ok_of_bind h
    have hmost : descendants ≤ root.graphLimits.maxSubagents := by
      by_contra hmore
      dsimp only at h
      rw [if_pos (Nat.lt_of_not_le hmore)] at h
      cases h
    have hwithin := visitSubgraph_within hvisit
    have hgranted (d : WorkflowDefinition) (hd : ReflTransGen (References definitions) root d)
        (node : NodeSpec) (hnode : node ∈ d.nodes) (hkind : node.nodeKind = .subworkflow) :
        ∃ child, node.child? definitions = some child ∧ Granted d node child := by
      obtain ⟨_, _, _, _, _, hd⟩ := visitSubgraph_reached hvisit hd
      exact visitSubgraph_granted hd hnode hkind
    refine ⟨fun d hd => (hwithin.reached hd).acyclic, fun path hpath => ?_, hgranted, ?_, fun n => ?_⟩
    · exact hwithin.length_lt hpath
    · intro d hd child hchild
      have step {a b : WorkflowDefinition} (ha : ReflTransGen (References definitions) root a)
          (hab : References definitions a b) : Inherits a b := by
        obtain ⟨node, hnode, hkind, hfound⟩ := hab
        obtain ⟨found, hsame, hgrant⟩ := hgranted a ha node hnode hkind
        obtain rfl := Option.some.inj (hsame.symm.trans hfound)
        exact hgrant.inherits hnode
      induction hchild with
      | single hab => exact step hd hab
      | tail hab hbc ih => exact ih.trans (step (hd.trans hab.to_reflTransGen) hbc)
    · exact (visitSubgraph_members hvisit n).trans hmost

/-- A report has its two reviewers. -/
theorem admission_sound_report : Admitted reportDefinitions reportWorkflow ∧
    ((referencePaths reportDefinitions 32 reportWorkflow).map (pathMembers reportWorkflow)).sum = 2 :=
  ⟨(admission_sound reportDefinitions reportWorkflow).2 rfl, by decide +kernel⟩

end Operant.Graph
