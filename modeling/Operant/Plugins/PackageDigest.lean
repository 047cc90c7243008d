import Operant.Plugins.Package

/-! What a package's digest identifies.

The digest covers files, in the order of their paths, and is the hash of one list of files only. What it covers are
the files that the copy writes, where no part of a path but those of directories in the package is `__pycache__`. -/
namespace Operant.Plugins
open Operant.Python Operant.Text

/-! ### Paths -/

theorem code_inj {a b : CodePoint} (h : code a = code b) : a = b := by
  have hrange (c : Char) : c.toNat < 0xD800 ∨ 0xDFFF < c.toNat := by
    cases c.valid with
    | inl hlow => exact .inl hlow
    | inr hhigh => exact .inr hhigh.1
  cases a with
  | char c =>
    cases b with
    | char d => rw [Char.toNat_inj.mp h]
    | surrogate half =>
      have hc := hrange c
      have hlt := half.isLt
      simp only [code] at h
      omega
  | surrogate half =>
    cases b with
    | char d =>
      have hd := hrange d
      have hlt := half.isLt
      simp only [code] at h
      omega
    | surrogate other =>
      unfold code at h
      rw [Fin.ext (Nat.add_left_cancel h)]

theorem codes_inj {s t : PyStr} (h : s.map code = t.map code) : s = t :=
  List.map_injective_iff.mpr (fun _ _ => code_inj) h

theorem name_parts (name : Name) : name.1 ≠ [] ∧ slash ∉ name.1 ∧ CodePoint.char '\x00' ∉ name.1 := by
  have h := name.2
  simp only [isName, Bool.and_eq_true, decide_eq_true_eq] at h
  exact ⟨h.1.1.1.1, h.1.2, h.2⟩

/-- A path is read back from its text. -/
theorem posix_inj {p q : Path} (hp : p ≠ []) (hq : q ≠ []) (h : posix p = posix q) : p = q := by
  have hsplit (path : Path) (hpath : path ≠ []) : (posix path).splitOn slash = path.map (·.1) := by
    refine List.splitOn_intercalate slash ?_ (fun hnil => hpath (List.map_eq_nil_iff.mp hnil))
    intro text htext
    obtain ⟨name, -, rfl⟩ := List.mem_map.mp htext
    exact (name_parts name).2.1
  have hparts := congrArg (List.splitOn slash) h
  rw [hsplit p hp, hsplit q hq] at hparts
  exact List.map_injective_iff.mpr Subtype.val_injective hparts

theorem ofChars_of_mapM {s : PyStr} {cs : List Char} (h : s.mapM CodePoint.char? = some cs) : s = PyStr.ofChars cs := by
  obtain ⟨ds, rfl, -⟩ := PyStr.encode_some (s := s) (by rw [PyStr.encode, h, Option.map_some])
  rw [PyStr.mapM_ofChars] at h
  rw [Option.some.inj h]

theorem mem_intercalate {α : Type} {sep : List α} {parts : List (List α)} {a : α} (h : a ∈ sep.intercalate parts) :
    a ∈ sep ∨ ∃ part ∈ parts, a ∈ part := by
  induction parts with
  | nil => cases h
  | cons first rest ih =>
    cases rest with
    | nil => exact .inr ⟨first, List.mem_cons_self, by simpa [List.intercalate] using h⟩
    | cons second rest =>
      have hcons : a ∈ first ∨ a ∈ sep ∨ a ∈ sep.intercalate (second :: rest) := by simpa [List.intercalate] using h
      rcases hcons with hfirst | hsep | hrest
      · exact .inr ⟨first, List.mem_cons_self, hfirst⟩
      · exact .inl hsep
      · exact (ih hrest).imp_right fun ⟨part, hpart, hmem⟩ => ⟨part, List.mem_cons_of_mem _ hpart, hmem⟩

/-- The bytes of a path are of that path only, and there is no zero among them. -/
theorem encodePath_inj {p q : Path} {relative : List UInt8} (hp : p ≠ []) (hq : q ≠ [])
    (h : encodePath p = some relative) (h' : encodePath q = some relative) : p = q := by
  obtain ⟨cs, hcs, hbytes⟩ := Option.map_eq_some_iff.mp h
  obtain ⟨ds, hds, hbytes'⟩ := Option.map_eq_some_iff.mp h'
  rw [← utf8_inj (hbytes.trans hbytes'.symm)] at hds
  exact posix_inj hp hq ((ofChars_of_mapM hcs).trans (ofChars_of_mapM hds).symm)

theorem zero_not_mem_encodePath {p : Path} {relative : List UInt8} (h : encodePath p = some relative) :
    (0 : UInt8) ∉ relative := by
  obtain ⟨cs, hcs, rfl⟩ := Option.map_eq_some_iff.mp h
  refine zero_not_mem_utf8 fun hzero => ?_
  have hmem : CodePoint.char '\x00' ∈ posix p := by
    rw [ofChars_of_mapM hcs]
    exact List.mem_map_of_mem hzero
  obtain hslash | ⟨text, htext, hin⟩ := mem_intercalate hmem
  · exact absurd hslash (by decide)
  · obtain ⟨name, -, rfl⟩ := List.mem_map.mp htext
    exact (name_parts name).2.2 hin

/-! ### What is hashed -/

/-- A file that is hashed. -/
def hashed (location : Path) (entry : Path × Item) : Option (Path × List UInt8) :=
  if skipped location entry.1 then none
  else match entry.2 with
    | .file _ bytes => some (entry.1, bytes)
    | _ => none

/-- What the digest covers, in its order. -/
def covered (location : Path) (entries : Entries) : List (Path × List UInt8) :=
  (sortedEntries entries).filterMap (hashed location)

/-- A file that is hashed, after others. -/
def hashFile (maxFiles maxBytes : Nat) (hashing : Hashing) (file : Path × List UInt8) : Except PackageError Hashing :=
  hashEntry maxFiles maxBytes [] hashing (file.1, .file {} file.2)

/-- What a file adds to the stream. -/
def fileFrame (file : Path × List UInt8) : List UInt8 :=
  match encodePath file.1 with
  | none => []
  | some relative => frame relative file.2

/-- A path with bytes. -/
def Encoded (file : Path × List UInt8) : Prop := file.1 ≠ [] ∧ (encodePath file.1).isSome = true

theorem fileFrame_prefixFree : PrefixFree fileFrame Encoded where
  ne_nil file h := by
    obtain ⟨relative, hrelative⟩ := Option.isSome_iff_exists.mp h.2
    rw [fileFrame, hrelative]
    simp [frame]
  inj file other r r' h h' heq := by
    obtain ⟨relative, hrelative⟩ := Option.isSome_iff_exists.mp h.2
    obtain ⟨relative', hrelative'⟩ := Option.isSome_iff_exists.mp h'.2
    simp only [fileFrame, hrelative, hrelative', frame, List.append_assoc, List.cons_append] at heq
    obtain ⟨hpath, hsize⟩ := terminated_inj (zero_not_mem_encodePath hrelative) (zero_not_mem_encodePath hrelative') heq
    obtain ⟨hlength, hbytes⟩ := terminated_inj (zero_not_mem_decimal _) (zero_not_mem_decimal _) hsize
    obtain ⟨hsame, hrest⟩ := List.append_inj hbytes (decimal_inj hlength)
    rw [hpath] at hrelative
    exact ⟨Prod.ext (encodePath_inj h.1 h'.1 hrelative hrelative') hsame, hrest⟩

section
variable {maxFiles maxBytes : Nat} {location : Path} {hashing after : Hashing} {entry : Path × Item}
  {file : Path × List UInt8}

theorem hashed_some : hashed location entry = some file ↔
    skipped location entry.1 = false ∧ ∃ stat, entry = (file.1, .file stat file.2) := by
  obtain ⟨path, item⟩ := entry
  obtain ⟨path', bytes⟩ := file
  unfold hashed
  cases hskipped : skipped location path <;> cases item <;> simp [and_comm]

theorem skipped_false {path : Path} :
    skipped location path = false ↔ pycache ∉ location ∧ pycache ∉ path ∧ path.getLast?.any isBytecode = false := by
  simp [skipped, and_assoc]

theorem hashEntry_hashed (h : hashed location entry = some file) :
    hashEntry maxFiles maxBytes location hashing entry = hashFile maxFiles maxBytes hashing file := by
  obtain ⟨hskipped, stat, rfl⟩ := hashed_some.mp h
  have hskipped' : skipped [] file.1 = false :=
    skipped_false.mpr ⟨List.not_mem_nil, (skipped_false.mp hskipped).2⟩
  simp only [hashFile, hashEntry, hskipped, hskipped', Bool.false_eq_true, if_false]

/-- What is hashed is no special node. -/
def Regular (location : Path) (walked : List (Path × Item)) : Prop :=
  ∀ entry ∈ walked, skipped location entry.1 = false → ∀ stat kind, entry.2 ≠ .special stat kind

theorem hashEntry_regular (h : hashEntry maxFiles maxBytes location hashing entry = .ok after)
    (hskipped : skipped location entry.1 = false) (stat : Stat) (kind : Special) : entry.2 ≠ .special stat kind := by
  intro hspecial
  rw [hashEntry, hskipped, hspecial] at h
  cases kind <;> cases h

theorem hashEntry_none (h : hashed location entry = none)
    (hregular : skipped location entry.1 = false → ∀ stat kind, entry.2 ≠ .special stat kind) :
    hashEntry maxFiles maxBytes location hashing entry = .ok hashing := by
  unfold hashed at h
  unfold hashEntry
  split
  · rfl
  · next hskipped =>
    rw [if_neg hskipped] at h
    split
    · rfl
    · next hitem => exact absurd hitem (hregular (Bool.not_eq_true _ ▸ hskipped) _ _)
    · next hitem => exact absurd hitem (hregular (Bool.not_eq_true _ ▸ hskipped) _ _)
    · next hitem =>
      rw [hitem] at h
      cases h

/-- The fold sees only what is hashed. -/
theorem fold_hashed {walked : List (Path × Item)} (h : Regular location walked) :
    walked.foldlM (hashEntry maxFiles maxBytes location) hashing =
      (walked.filterMap (hashed location)).foldlM (hashFile maxFiles maxBytes) hashing := by
  induction walked generalizing hashing with
  | nil => rfl
  | cons entry rest ih =>
    have hrest : Regular location rest := fun other hother => h other (List.mem_cons_of_mem _ hother)
    cases hentry : hashed location entry with
    | none =>
      rw [List.filterMap_cons_none hentry, List.foldlM_cons, hashEntry_none hentry (h entry List.mem_cons_self)]
      exact ih hrest
    | some file =>
      rw [List.filterMap_cons_some hentry, List.foldlM_cons, List.foldlM_cons, hashEntry_hashed hentry]
      cases hashFile maxFiles maxBytes hashing file with
      | error _ => rfl
      | ok next => exact ih hrest

theorem regular_of_fold {walked : List (Path × Item)}
    (h : walked.foldlM (hashEntry maxFiles maxBytes location) hashing = .ok after) : Regular location walked := by
  induction walked generalizing hashing with
  | nil => exact List.forall_mem_nil _
  | cons entry rest ih =>
    rw [List.foldlM_cons] at h
    cases hfirst : hashEntry maxFiles maxBytes location hashing entry with
    | error failure => rw [hfirst] at h; cases h
    | ok next =>
      rw [hfirst] at h
      intro other hother
      cases List.mem_cons.mp hother with
      | inl heq => exact heq ▸ hashEntry_regular hfirst
      | inr hmem => exact ih h other hmem

/-- The stream of the files that were hashed. -/
theorem fold_stream {files : List (Path × List UInt8)} (hfiles : ∀ file ∈ files, skipped [] file.1 = false)
    (h : files.foldlM (hashFile maxFiles maxBytes) hashing = .ok after) :
    after.stream = hashing.stream ++ files.flatMap fileFrame ∧ ∀ file ∈ files, (encodePath file.1).isSome = true := by
  induction files generalizing hashing with
  | nil =>
    rw [← Except.ok.inj h]
    exact ⟨(List.append_nil _).symm, List.forall_mem_nil _⟩
  | cons file rest ih =>
    rw [List.foldlM_cons] at h
    have hskipped := hfiles file List.mem_cons_self
    cases hfirst : hashFile maxFiles maxBytes hashing file with
    | error failure => rw [hfirst] at h; cases h
    | ok next =>
      rw [hfirst] at h
      obtain ⟨hstream, hencoded⟩ := ih (fun other hother => hfiles other (List.mem_cons_of_mem _ hother)) h
      simp only [hashFile, hashEntry, hskipped, Bool.false_eq_true, if_false] at hfirst
      split at hfirst
      · cases hfirst
      · split at hfirst
        · cases hfirst
        · split at hfirst
          · cases hfirst
          · next relative hrelative =>
            refine ⟨?_, ?_⟩
            · rw [hstream, ← Except.ok.inj hfirst, List.flatMap_cons, fileFrame, hrelative]
              simp
            · intro other hother
              cases List.mem_cons.mp hother with
              | inl heq => rw [heq, hrelative]; rfl
              | inr hmem => exact hencoded other hmem

end

/-! ### The walk -/

namespace Entries

/-- Below a name. -/
theorem mem_under {name : Name} {walked : List (Path × Item)} {path : Path} {item : Item} :
    (path, item) ∈ under name walked ↔ ∃ below, path = name :: below ∧ (below, item) ∈ walked := by
  simp only [under, List.mem_map, Prod.mk.injEq, Prod.exists]
  constructor
  · rintro ⟨below, _, hmem, rfl, rfl⟩
    exact ⟨below, rfl, hmem⟩
  · rintro ⟨below, rfl, hmem⟩
    exact ⟨below, item, hmem, rfl, rfl⟩

theorem walk_head {entries : Entries} {path : Path} {item : Item} (h : (path, item) ∈ entries.walk) :
    ∃ name below, path = name :: below ∧ name ∈ entries.names := by
  induction entries generalizing path item with
  | nil => cases h
  | file name stat bytes rest ih =>
    cases List.mem_cons.mp h with
    | inl heq => exact ⟨name, [], (Prod.mk.inj heq).1, List.mem_cons_self⟩
    | inr hrest =>
      obtain ⟨other, below, hpath, hother⟩ := ih hrest
      exact ⟨other, below, hpath, List.mem_cons_of_mem _ hother⟩
  | special name stat kind rest ih =>
    cases List.mem_cons.mp h with
    | inl heq => exact ⟨name, [], (Prod.mk.inj heq).1, List.mem_cons_self⟩
    | inr hrest =>
      obtain ⟨other, below, hpath, hother⟩ := ih hrest
      exact ⟨other, below, hpath, List.mem_cons_of_mem _ hother⟩
  | directory name stat entries rest _ ih =>
    simp only [walk, List.mem_cons, List.mem_append] at h
    rcases h with heq | hunder | hrest
    · exact ⟨name, [], (Prod.mk.inj heq).1, List.mem_cons_self⟩
    · obtain ⟨below, hpath, -⟩ := mem_under.mp hunder
      exact ⟨name, below, hpath, List.mem_cons_self⟩
    · obtain ⟨other, below, hpath, hother⟩ := ih hrest
      exact ⟨other, below, hpath, List.mem_cons_of_mem _ hother⟩

theorem walk_ne_nil {entries : Entries} {path : Path} {item : Item} (h : (path, item) ∈ entries.walk) : path ≠ [] := by
  obtain ⟨name, below, rfl, -⟩ := walk_head h
  exact List.cons_ne_nil name below

/-- What comes after a name does not begin with it. -/
theorem not_mem_rest {name : Name} {rest : Entries} (h : ∀ other ∈ rest.names, name.1.map code < other.1.map code)
    (below : Path) : name :: below ∉ rest.walk.map Prod.fst := by
  intro hmem
  obtain ⟨⟨path, item⟩, hwalked, hpath⟩ := List.mem_map.mp hmem
  obtain ⟨other, _, hother, hin⟩ := walk_head hwalked
  have hsame : name = other := (List.cons.inj (hpath.symm.trans hother)).1
  exact lt_irrefl _ (hsame ▸ h other hin)

/-- No path is walked twice. -/
theorem walk_nodup {entries : Entries} (h : entries.Ordered) : (entries.walk.map Prod.fst).Nodup := by
  induction entries with
  | nil => exact List.nodup_nil
  | file name stat bytes rest ih => exact List.nodup_cons.mpr ⟨not_mem_rest h.1 [], ih h.2⟩
  | special name stat kind rest ih => exact List.nodup_cons.mpr ⟨not_mem_rest h.1 [], ih h.2⟩
  | directory name stat entries rest ihentries ih =>
    have hunder : (under name entries.walk).map Prod.fst = (entries.walk.map Prod.fst).map (name :: ·) := by
      simp only [under, List.map_map]
      rfl
    simp only [walk, List.map_cons, List.map_append, hunder]
    refine List.nodup_cons.mpr ⟨?_, List.nodup_append'.mpr ⟨?_, ih h.2.2, ?_⟩⟩
    · rw [List.mem_append, not_or]
      refine ⟨fun hmem => ?_, not_mem_rest h.1 []⟩
      obtain ⟨below, hbelow, hnil⟩ := List.mem_map.mp hmem
      obtain ⟨⟨path, item⟩, hwalked, hpath⟩ := List.mem_map.mp hbelow
      exact walk_ne_nil hwalked (hpath.trans (List.cons.inj hnil).2)
    · exact (ihentries h.2.1).map fun _ _ heq => (List.cons.inj heq).2
    · intro path hpath hrest
      obtain ⟨below, -, rfl⟩ := List.mem_map.mp hpath
      exact not_mem_rest h.1 below hrest

end Entries

/-! ### What is covered -/

section
variable {location location' : Path} {entries entries' : Entries} {file : Path × List UInt8}

theorem mem_sortedEntries {entry : Path × Item} : entry ∈ sortedEntries entries ↔ entry ∈ entries.walk :=
  List.mem_insertionSort _

theorem mem_covered :
    file ∈ covered location entries ↔
      skipped location file.1 = false ∧ ∃ stat, (file.1, .file stat file.2) ∈ entries.walk := by
  simp only [covered, List.mem_filterMap, mem_sortedEntries]
  constructor
  · rintro ⟨entry, hwalked, hhashed⟩
    obtain ⟨hskipped, stat, rfl⟩ := hashed_some.mp hhashed
    exact ⟨hskipped, stat, hwalked⟩
  · rintro ⟨hskipped, stat, hwalked⟩
    exact ⟨_, hwalked, hashed_some.mpr ⟨hskipped, stat, rfl⟩⟩

theorem covered_ne_nil (h : file ∈ covered location entries) : file.1 ≠ [] := by
  obtain ⟨-, stat, hwalked⟩ := mem_covered.mp h
  exact Entries.walk_ne_nil hwalked

theorem covered_sorted :
    (covered location entries).Pairwise fun a b => (posix a.1).map code ≤ (posix b.1).map code := by
  have htotal : Std.Total fun a b : Path × Item => (posix a.1).map code ≤ (posix b.1).map code :=
    ⟨fun a b => le_total ((posix a.1).map code) ((posix b.1).map code)⟩
  have htrans : IsTrans (Path × Item) fun a b => (posix a.1).map code ≤ (posix b.1).map code :=
    ⟨fun _ _ _ => le_trans⟩
  refine List.Pairwise.filterMap (hashed location) ?_ (List.pairwise_insertionSort _ entries.walk)
  intro a b hab a' ha b' hb
  obtain ⟨-, _, rfl⟩ := hashed_some.mp ha
  obtain ⟨-, _, rfl⟩ := hashed_some.mp hb
  exact hab

theorem covered_nodup (h : entries.Ordered) : ((covered location entries).map Prod.fst).Nodup := by
  have hsorted : ((sortedEntries entries).map Prod.fst).Nodup :=
    (((List.perm_insertionSort _ entries.walk).map Prod.fst).nodup_iff).mpr (Entries.walk_nodup h)
  rw [List.nodup_iff_pairwise_ne, List.pairwise_map] at hsorted ⊢
  refine List.Pairwise.filterMap (hashed location) ?_ hsorted
  intro a b hab a' ha b' hb
  obtain ⟨-, _, rfl⟩ := hashed_some.mp ha
  obtain ⟨-, _, rfl⟩ := hashed_some.mp hb
  exact hab

/-- What is covered is in one order only. -/
theorem covered_eq (h : entries.Ordered) (h' : entries'.Ordered)
    (hmem : ∀ file, file ∈ covered location entries ↔ file ∈ covered location' entries') :
    covered location entries = covered location' entries' := by
  have hperm : (covered location entries).Perm (covered location' entries') :=
    (List.perm_ext_iff_of_nodup (covered_nodup h).of_map (covered_nodup h').of_map).mpr hmem
  refine hperm.eq_of_pairwise ?_ covered_sorted covered_sorted
  intro a b ha hb hab hba
  have hpath : a.1 = b.1 :=
    posix_inj (covered_ne_nil ha) (covered_ne_nil hb) (codes_inj (le_antisymm hab hba))
  exact List.inj_on_of_nodup_map (covered_nodup h) ha ((hmem b).mpr hb) hpath

end

/-! ### The digest of what is covered -/

section
variable {δ : Type} {sha256 : List UInt8 → δ} {maxFiles maxBytes : Nat} {location location' : Path} {stat stat' : Stat}
  {entries entries' : Entries} {digest digest' : δ}

theorem computePackageDigest_regular (h : Regular location entries.walk) :
    computePackageDigest sha256 maxFiles maxBytes location (.directory stat entries) = (do
      let hashing ← (covered location entries).foldlM (hashFile maxFiles maxBytes) {}
      pure (sha256 hashing.stream)) := by
  have hsorted : Regular location (sortedEntries entries) := fun entry hentry => h entry (mem_sortedEntries.mp hentry)
  rw [computePackageDigest, fold_hashed hsorted, covered]

theorem regular_of_digest
    (h : computePackageDigest sha256 maxFiles maxBytes location (.directory stat entries) = .ok digest) :
    Regular location entries.walk := by
  rw [computePackageDigest] at h
  cases hfold : (sortedEntries entries).foldlM (hashEntry maxFiles maxBytes location) {} with
  | error failure => rw [hfold] at h; cases h
  | ok hashing => exact fun entry hentry => regular_of_fold hfold entry (mem_sortedEntries.mpr hentry)

/-- The digest is of the stream of what is covered. -/
theorem digest_stream
    (h : computePackageDigest sha256 maxFiles maxBytes location (.directory stat entries) = .ok digest) :
    digest = sha256 ((covered location entries).flatMap fileFrame) ∧ ∀ file ∈ covered location entries, Encoded file := by
  rw [computePackageDigest_regular (regular_of_digest h)] at h
  cases hfold : (covered location entries).foldlM (hashFile maxFiles maxBytes) {} with
  | error failure => rw [hfold] at h; cases h
  | ok hashing =>
    rw [hfold] at h
    have hskipped : ∀ file ∈ covered location entries, skipped [] file.1 = false := by
      intro file hfile
      have hnot := (skipped_false.mp (mem_covered.mp hfile).1).2
      exact skipped_false.mpr ⟨List.not_mem_nil, hnot⟩
    obtain ⟨hstream, hencoded⟩ := fold_stream hskipped hfold
    refine ⟨?_, fun file hfile => ⟨covered_ne_nil hfile, hencoded file hfile⟩⟩
    rw [← Except.ok.inj h, hstream]
    rfl

/-- Digests are equal for the same covered files only. -/
theorem digest_eq_iff (hsha : Function.Injective sha256)
    (h : computePackageDigest sha256 maxFiles maxBytes location (.directory stat entries) = .ok digest)
    (h' : computePackageDigest sha256 maxFiles maxBytes location' (.directory stat' entries') = .ok digest') :
    digest = digest' ↔ covered location entries = covered location' entries' := by
  obtain ⟨hdigest, hencoded⟩ := digest_stream h
  obtain ⟨hdigest', hencoded'⟩ := digest_stream h'
  rw [hdigest, hdigest']
  constructor
  · intro heq
    exact fileFrame_prefixFree.flatMap_inj hencoded hencoded' (hsha heq)
  · intro heq
    rw [heq]

end

end Operant.Plugins
