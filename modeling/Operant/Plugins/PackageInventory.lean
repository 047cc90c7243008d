import Operant.Plugins.PackageDigest

/-! The inventory of a package: `PluginRegistry._package_signature`.

Entries are compared with those of the previous inventory, and none is stored as long as they agree. The lazy
inventory says what the full one would. -/
namespace Operant.Plugins
open Operant.Python Operant.Text

/-! ### The model -/

/-- An entry of a signature. Its mode is the type with the permissions. -/
structure Row where
  relative : PyStr
  isDirectory : Bool
  stat : Stat
  deriving DecidableEq

/-- What is known after some entries. There is no list as long as they are those of the previous signature. -/
structure Scan where
  entries : Option (List Row)
  previousIndex : Nat

/-- What `_package_signature` returns. -/
inductive Signature where
  | previous
  | computed (rows : List Row)
  deriving DecidableEq

def row (relative : PyStr) : Item → Option Row
  | .file stat _ => some ⟨relative, false, stat⟩
  | .directory stat => some ⟨relative, true, stat⟩
  | .special .. => none

def unsafePath : PackageError := .unavailable "plugin package contains an unsafe path"
def overBudget : PackageError := .unavailable "plugin package inventory exceeds budget"

/-- `remember`. -/
def remember (previous : Option (List Row)) (scan : Scan) (seen : PyStr × Item) : Except PackageError Scan :=
  match row seen.1 seen.2 with
  | none => .error unsafePath
  | some current =>
    if scan.entries = none ∧ previous.bind (·[scan.previousIndex]?) = some current then
      if 8192 < scan.previousIndex + 1 then .error overBudget
      else .ok { scan with previousIndex := scan.previousIndex + 1 }
    else
      let entries := scan.entries.getD ((previous.getD []).take scan.previousIndex) ++ [current]
      if 8192 < scan.previousIndex + 1 then .error overBudget
      else .ok { entries := some entries, previousIndex := scan.previousIndex + 1 }

/-- What the inventory does not list. -/
def unlisted (name : Name) : Bool :=
  name = pycache || (PyStr.ofString ".pyc").isSuffixOf name.1 || (PyStr.ofString ".pyo").isSuffixOf name.1

/-- The text of an entry's path. -/
def below (relative : PyStr) (name : Name) : PyStr := relative ++ slash :: name.1

/-- `visit`, of the entries of a directory. -/
def visit (previous : Option (List Row)) (relative : PyStr) : Entries → Scan → Except PackageError Scan
  | .nil, scan => .ok scan
  | .file name stat bytes rest, scan =>
    if unlisted name then visit previous relative rest scan
    else do
      let scan ← remember previous scan (below relative name, .file stat bytes)
      visit previous relative rest scan
  | .directory name stat entries rest, scan =>
    if unlisted name then visit previous relative rest scan
    else do
      let scan ← remember previous scan (below relative name, .directory stat)
      let scan ← visit previous (below relative name) entries scan
      visit previous relative rest scan
  | .special name stat kind rest, scan =>
    if unlisted name then visit previous relative rest scan
    else do
      let scan ← remember previous scan (below relative name, .special stat kind)
      visit previous relative rest scan

/-- What is returned after the last entry. -/
def signature (previous : Option (List Row)) (scan : Scan) : Signature :=
  match previous, scan.entries with
  | some rows, none =>
    if scan.previousIndex = rows.length then .previous else .computed (rows.take scan.previousIndex)
  | _, some entries => .computed entries
  -- excluded by an assertion
  | none, none => .computed []

/-- `_package_signature`. -/
def packageSignature (previous : Option (List Row)) : Root → Except PackageError Signature
  | .other => .error (.unavailable "plugin package unavailable")
  | .directory stat entries => do
    let scan := { entries := if previous = none then some [] else none, previousIndex := 0 }
    let scan ← remember previous scan ([], .directory stat)
    let scan ← visit previous [] entries scan
    pure (signature previous scan)

/-! ### What is visited -/

/-- The entries below a directory that are visited, in this order. -/
def listing (relative : PyStr) : Entries → List (PyStr × Item)
  | .nil => []
  | .file name stat bytes rest =>
    if unlisted name then listing relative rest
    else (below relative name, .file stat bytes) :: listing relative rest
  | .directory name stat entries rest =>
    if unlisted name then listing relative rest
    else (below relative name, .directory stat) :: (listing (below relative name) entries ++ listing relative rest)
  | .special name stat kind rest =>
    if unlisted name then listing relative rest
    else (below relative name, .special stat kind) :: listing relative rest

/-- Everything that is remembered. -/
def Root.listing : Root → List (PyStr × Item)
  | .other => []
  | .directory stat entries => ([], .directory stat) :: Plugins.listing [] entries

section
variable {previous : Option (List Row)} {relative : PyStr} {entries : Entries} {scan : Scan}

/-- The walk remembers what is visited. -/
theorem visit_eq : visit previous relative entries scan = (listing relative entries).foldlM (remember previous) scan := by
  induction entries generalizing relative scan with
  | nil => rfl
  | file name stat bytes rest ih =>
    rw [visit, listing]
    split
    · exact ih
    · rw [List.foldlM_cons]
      exact congrArg _ (funext fun _ => ih)
  | special name stat kind rest ih =>
    rw [visit, listing]
    split
    · exact ih
    · rw [List.foldlM_cons]
      exact congrArg _ (funext fun _ => ih)
  | directory name stat entries rest ihentries ih =>
    rw [visit, listing]
    split
    · exact ih
    · rw [List.foldlM_cons]
      refine congrArg _ (funext fun next => ?_)
      rw [List.foldlM_append, ihentries]
      exact congrArg _ (funext fun _ => ih)

end

/-! ### The full inventory -/

/-- An entry more, within the budget. -/
def inventoried (rows : List Row) (seen : PyStr × Item) : Except PackageError (List Row) :=
  match row seen.1 seen.2 with
  | none => .error unsafePath
  | some current => if 8192 < rows.length + 1 then .error overBudget else .ok (rows ++ [current])

/-- The rows of everything that is visited. -/
def inventory (root : Root) : Except PackageError (List Row) :=
  match root with
  | .other => .error (.unavailable "plugin package unavailable")
  | .directory .. => root.listing.foldlM inventoried []

/-- What a scan knows of the rows up to now: it has them, or they begin the previous signature. -/
structure Tracks (previous : Option (List Row)) (rows : List Row) (scan : Scan) : Prop where
  index : scan.previousIndex = rows.length
  entries : ∀ entries, scan.entries = some entries → entries = rows ∧ ∀ old, previous = some old → ¬ rows <+: old
  none : scan.entries = none → ∃ old, previous = some old ∧ rows <+: old

/-- A scan ends as the full inventory does. -/
def Follows (previous : Option (List Row)) (full : Except PackageError (List Row)) (lazy : Except PackageError Scan) :
    Prop :=
  match full with
  | .error failure => lazy = .error failure
  | .ok rows => ∃ scan, lazy = .ok scan ∧ Tracks previous rows scan

section
variable {previous : Option (List Row)} {rows : List Row} {scan : Scan}

/-- The next of the previous rows. -/
theorem concat_prefix_iff {α : Type} {xs ys : List α} {a : α} (h : xs <+: ys) :
    xs ++ [a] <+: ys ↔ ys[xs.length]? = some a := by
  obtain ⟨rest, rfl⟩ := h
  rw [List.prefix_append_right_inj, List.getElem?_append_right le_rfl, Nat.sub_self]
  cases rest with
  | nil => simp
  | cons b rest => simp [List.cons_prefix_cons, eq_comm]

theorem remember_follows (h : Tracks previous rows scan) (seen : PyStr × Item) :
    Follows previous (inventoried rows seen) (remember previous scan seen) := by
  unfold inventoried remember
  cases hrow : row seen.1 seen.2 with
  | none => rfl
  | some current =>
    dsimp only
    rw [h.index]
    by_cases hbudget : 8192 < rows.length + 1
    · simp only [hbudget, if_true, ite_self]
      rfl
    simp only [hbudget, if_false]
    cases hentries : scan.entries with
    | none =>
      obtain ⟨old, hold, hbegins⟩ := h.none hentries
      have hnext : previous.bind (·[rows.length]?) = some current ↔ rows ++ [current] <+: old := by
        rw [concat_prefix_iff hbegins, hold]
        rfl
      by_cases hsame : rows ++ [current] <+: old
      · rw [if_pos ⟨rfl, hnext.mpr hsame⟩]
        exact ⟨_, rfl, by simp, nofun, fun _ => ⟨old, hold, hsame⟩⟩
      · rw [if_neg fun hboth => hsame (hnext.mp hboth.2)]
        refine ⟨_, rfl, by simp, ?_, nofun⟩
        intro entries hsome
        have htake : old.take rows.length = rows := (List.prefix_iff_eq_take.mp hbegins).symm
        rw [← Option.some.inj hsome, hold]
        refine ⟨by simp [htake], fun other hother => ?_⟩
        rw [← Option.some.inj hother]
        exact hsame
    | some entries =>
      obtain ⟨rfl, hdiffers⟩ := h.entries entries hentries
      rw [if_neg fun hboth => by cases hboth.1]
      refine ⟨_, rfl, by simp, ?_, nofun⟩
      intro entries' hsome
      refine ⟨(Option.some.inj hsome).symm, fun old hold hbegins => hdiffers old hold ?_⟩
      exact (List.prefix_append _ _).trans hbegins

theorem fold_follows (h : Tracks previous rows scan) (seen : List (PyStr × Item)) :
    Follows previous (seen.foldlM inventoried rows) (seen.foldlM (remember previous) scan) := by
  induction seen generalizing rows scan with
  | nil => exact ⟨scan, rfl, h⟩
  | cons first rest ih =>
    have hfirst := remember_follows h first
    rw [List.foldlM_cons, List.foldlM_cons]
    cases hrow : inventoried rows first with
    | error failure =>
      rw [hrow] at hfirst
      rw [show remember previous scan first = .error failure from hfirst]
      rfl
    | ok next =>
      rw [hrow] at hfirst
      obtain ⟨after, hafter, htracks⟩ := hfirst
      rw [hafter]
      exact ih htracks

theorem tracks_start : Tracks previous [] { entries := if previous = none then some [] else none, previousIndex := 0 } := by
  cases previous with
  | none => exact ⟨rfl, fun _ h => ⟨(Option.some.inj h).symm, nofun⟩, nofun⟩
  | some old => exact ⟨rfl, nofun, fun _ => ⟨old, rfl, List.nil_prefix⟩⟩

theorem signature_tracks (h : Tracks previous rows scan) :
    signature previous scan = if previous = some rows then .previous else .computed rows := by
  unfold signature
  cases hentries : scan.entries with
  | none =>
    obtain ⟨old, rfl, hbegins⟩ := h.none hentries
    dsimp only
    rw [h.index, ← List.prefix_iff_eq_take.mp hbegins]
    refine if_congr ?_ rfl rfl
    rw [Option.some_inj]
    exact ⟨fun hlength => (hbegins.eq_of_length hlength).symm, fun heq => by rw [heq]⟩
  | some entries =>
    obtain ⟨rfl, hdiffers⟩ := h.entries entries hentries
    have hne : previous ≠ some entries := fun heq => hdiffers entries heq (List.prefix_refl _)
    rw [if_neg hne]
    cases previous <;> rfl

end

/-- The lazy signature is the previous object if the full inventory is the previous one, and the full inventory
otherwise. -/
theorem packageSignature_eq (previous : Option (List Row)) (root : Root) :
    packageSignature previous root = (do
      let rows ← inventory root
      pure (if previous = some rows then .previous else .computed rows)) := by
  cases root with
  | other => rfl
  | directory stat entries =>
    have hfollows := fold_follows (@tracks_start previous) (Root.listing (.directory stat entries))
    have hscan : packageSignature previous (.directory stat entries) = (do
        let scan ← (Root.listing (.directory stat entries)).foldlM (remember previous)
          { entries := if previous = none then some [] else none, previousIndex := 0 }
        pure (signature previous scan)) := by
      rw [packageSignature, Root.listing, List.foldlM_cons, bind_assoc]
      exact congrArg _ (funext fun scan => by rw [visit_eq])
    rw [hscan, inventory]
    cases hfull : (Root.listing (.directory stat entries)).foldlM inventoried [] with
    | error failure =>
      rw [hfull] at hfollows
      rw [show List.foldlM (remember previous) _ _ = .error failure from hfollows]
      rfl
    | ok rows =>
      rw [hfull] at hfollows
      obtain ⟨scan, hlazy, htracks⟩ := hfollows
      rw [hlazy]
      exact congrArg Except.ok (signature_tracks htracks)

end Operant.Plugins
