import Operant.Plugins.PackageDigest

/-! What a package's digest identifies, of what is installed.

The copy writes the files that are no cache files. The digest leaves out, besides, a file that is called
`__pycache__`, and every file of a package that is below a directory of that name. Where there is neither, a package's
copy has its digest, and packages have one digest if they have the same files apart from cache files. -/
namespace Operant.Plugins
open Operant.Python Operant.Text

/-! ### Files -/

/-- A cache file of the interpreter is in a directory `__pycache__` or has a suffix of bytecode. -/
def isCache (path : Path) : Bool :=
  pycache ∈ path.dropLast || path.getLast?.any isBytecode

namespace Entries

/-- The files with their paths and bytes. -/
def files (entries : Entries) : Set (Path × List UInt8) :=
  {file | ∃ stat, (file.1, .file stat file.2) ∈ entries.walk}

/-- What a package is: its files, after leaving out cache files. -/
def identity (entries : Entries) : Set (Path × List UInt8) :=
  {file ∈ entries.files | isCache file.1 = false}

end Entries

theorem isCache_false {path : Path} :
    isCache path = false ↔ pycache ∉ path.dropLast ∧ path.getLast?.any isBytecode = false := by
  rw [isCache, Bool.or_eq_false_iff, decide_eq_false_iff_not]

theorem isCache_single {name : Name} : isCache [name] = isBytecode name := by
  simp [isCache]

theorem isCache_cons {name : Name} {path : Path} (h : path ≠ []) :
    isCache (name :: path) = (name = pycache || isCache path) := by
  obtain ⟨first, rest, rfl⟩ := List.exists_cons_of_ne_nil h
  simp [isCache, Bool.or_assoc, eq_comm]

/-- A part of a path is the last or one before. -/
theorem mem_parts {path : Path} : pycache ∈ path ↔ pycache ∈ path.dropLast ∨ path.getLast? = some pycache := by
  cases path using List.reverseRecOn with
  | nil => simp
  | append_singleton path name => simp [eq_comm]

/-- The digest covers what is no cache file, is not called `__pycache__` and is in no package below one. -/
theorem skipped_iff {location path : Path} :
    skipped location path = false ↔
      pycache ∉ location ∧ isCache path = false ∧ path.getLast? ≠ some pycache := by
  rw [skipped_false, isCache_false, @mem_parts path, not_or]
  tauto

theorem mem_covered_iff {location : Path} {entries : Entries} {file : Path × List UInt8} :
    file ∈ covered location entries ↔
      file ∈ entries.identity ∧ pycache ∉ location ∧ file.1.getLast? ≠ some pycache := by
  rw [mem_covered, skipped_iff]
  exact ⟨fun h => ⟨⟨h.2, h.1.2.1⟩, h.1.1, h.1.2.2⟩, fun h => ⟨⟨h.2.1, h.1.2, h.2.2⟩, h.1.1⟩⟩

/-! ### The copy -/

namespace Entries

/-- What the copy of a directory's entries is. -/
inductive CopyOf : Entries → Entries → Prop
  | nil : CopyOf .nil .nil
  | file {name : Name} {stat stat' : Stat} {bytes : List UInt8} {rest others : Entries}
      (hname : isBytecode name = false) (hrest : CopyOf rest others) :
      CopyOf (.file name stat bytes rest) (.file name stat' bytes others)
  | bytecode {name : Name} {stat : Stat} {bytes : List UInt8} {rest others : Entries}
      (hname : isBytecode name = true) (hrest : CopyOf rest others) : CopyOf (.file name stat bytes rest) others
  | directory {name : Name} {stat stat' : Stat} {entries inner rest others : Entries} (hname : name ≠ pycache)
      (hentries : CopyOf entries inner) (hrest : CopyOf rest others) :
      CopyOf (.directory name stat entries rest) (.directory name stat' inner others)
  | cache {name : Name} {stat : Stat} {entries rest others : Entries} (hname : name = pycache)
      (hrest : CopyOf rest others) : CopyOf (.directory name stat entries rest) others
  | special {name : Name} {stat : Stat} {kind : Special} {rest others : Entries} (hrest : CopyOf rest others) :
      CopyOf (.special name stat kind rest) others

section
variable {fresh : Path → Stat} {entries copied rest : Entries} {path : Path} {name : Name} {stat : Stat}
  {kind : Special} {bytes : List UInt8}

theorem copyOf (h : entries.copy fresh path = .ok copied) : CopyOf entries copied := by
  induction entries generalizing copied path with
  | nil => exact Except.ok.inj h ▸ .nil
  | file name stat bytes rest ih =>
    rw [copy] at h
    split at h
    · next hname => exact .bytecode hname (ih h)
    · next hname =>
      cases hrest : rest.copy fresh path with
      | error failure => rw [hrest] at h; cases h
      | ok others =>
        rw [hrest] at h
        exact Except.ok.inj h ▸ .file (Bool.not_eq_true _ ▸ hname) (ih hrest)
  | directory name stat entries rest ihentries ih =>
    rw [copy] at h
    split at h
    · next hname => exact .cache hname (ih h)
    · next hname =>
      cases hentries : entries.copy fresh (path ++ [name]) with
      | error failure => rw [hentries] at h; cases h
      | ok inner =>
        cases hrest : rest.copy fresh path with
        | error failure => rw [hentries, hrest] at h; cases h
        | ok others =>
          rw [hentries, hrest] at h
          exact Except.ok.inj h ▸ .directory hname (ihentries hentries) (ih hrest)
  | special name stat kind rest ih =>
    rw [copy] at h
    split at h
    · exact .special (ih h)
    · cases h

theorem CopyOf.names (h : CopyOf entries copied) : ∀ name ∈ copied.names, name ∈ entries.names := by
  induction h with
  | nil => exact List.forall_mem_nil _
  | file _ _ ih => exact fun name hname => List.mem_cons.mpr ((List.mem_cons.mp hname).imp_right (ih name))
  | directory _ _ _ _ ih => exact fun name hname => List.mem_cons.mpr ((List.mem_cons.mp hname).imp_right (ih name))
  | bytecode _ _ ih => exact fun name hname => List.mem_cons_of_mem _ (ih name hname)
  | cache _ _ ih => exact fun name hname => List.mem_cons_of_mem _ (ih name hname)
  | special _ ih => exact fun name hname => List.mem_cons_of_mem _ (ih name hname)

/-- The copy lists names in their order. -/
theorem CopyOf.ordered (h : CopyOf entries copied) (hordered : entries.Ordered) : copied.Ordered := by
  induction h with
  | nil => exact hordered
  | file _ hrest ih => exact ⟨fun other hother => hordered.1 other (hrest.names other hother), ih hordered.2⟩
  | directory _ _ hrest ihentries ih =>
    exact ⟨fun other hother => hordered.1 other (hrest.names other hother), ihentries hordered.2.1, ih hordered.2.2⟩
  | bytecode _ _ ih => exact ih hordered.2
  | cache _ _ ih => exact ih hordered.2.2
  | special _ ih => exact ih hordered.2

/-- There is nothing special in a copy. -/
theorem CopyOf.regular (h : CopyOf entries copied) {item : Item} (hwalked : (path, item) ∈ copied.walk) (stat : Stat)
    (kind : Special) : item ≠ .special stat kind := by
  induction h generalizing path with
  | nil => cases hwalked
  | file _ _ ih =>
    cases List.mem_cons.mp hwalked with
    | inl heq =>
      rw [(Prod.mk.inj heq).2]
      intro h
      cases h
    | inr hrest => exact ih hrest
  | directory _ _ _ ihentries ih =>
    simp only [walk, List.mem_cons, List.mem_append] at hwalked
    rcases hwalked with heq | hunder | hrest
    · rw [(Prod.mk.inj heq).2]
      intro h
      cases h
    · obtain ⟨below, -, hbelow⟩ := mem_under.mp hunder
      exact ihentries hbelow
    · exact ih hrest
  | bytecode _ _ ih => exact ih hwalked
  | cache _ _ ih => exact ih hwalked
  | special _ ih => exact ih hwalked

/-! The files of a directory are those of its entries. -/

theorem mem_files_file {file : Path × List UInt8} :
    file ∈ (Entries.file name stat bytes rest).files ↔ file = ([name], bytes) ∨ file ∈ rest.files := by
  obtain ⟨path, content⟩ := file
  simp [files, walk, exists_or]

theorem mem_files_special {file : Path × List UInt8} :
    file ∈ (Entries.special name stat kind rest).files ↔ file ∈ rest.files := by
  simp [files, walk]

theorem mem_files_directory {file : Path × List UInt8} :
    file ∈ (Entries.directory name stat entries rest).files ↔
      (∃ below, file.1 = name :: below ∧ (below, file.2) ∈ entries.files) ∨ file ∈ rest.files := by
  simp only [files, walk, Set.mem_ofPred_eq, List.mem_cons, List.mem_append, mem_under, Prod.mk.injEq, reduceCtorEq,
    and_false, false_or, exists_or]
  refine or_congr ⟨?_, ?_⟩ Iff.rfl
  · rintro ⟨written, below, hpath, hwalked⟩
    exact ⟨below, hpath, written, hwalked⟩
  · rintro ⟨below, hpath, written, hwalked⟩
    exact ⟨written, below, hpath, hwalked⟩

theorem files_ne_nil {file : Path × List UInt8} (h : file ∈ entries.files) : file.1 ≠ [] :=
  h.elim fun _ hwalked => walk_ne_nil hwalked

/-- The copy writes the files that are no cache files. -/
theorem CopyOf.files_eq (h : CopyOf entries copied) : copied.files = entries.identity := by
  ext file
  show file ∈ copied.files ↔ file ∈ entries.files ∧ isCache file.1 = false
  induction h generalizing file with
  | nil => simp [Entries.files, walk]
  | file hname _ ih =>
    rw [mem_files_file, mem_files_file, ih]
    constructor
    · rintro (rfl | hrest)
      · exact ⟨.inl rfl, isCache_single.trans hname⟩
      · exact ⟨.inr hrest.1, hrest.2⟩
    · rintro ⟨hfile, hcache⟩
      exact hfile.imp_right fun hrest => ⟨hrest, hcache⟩
  | bytecode hname _ ih =>
    rw [mem_files_file, ih]
    refine and_congr_left fun hcache => ⟨.inr, fun hfile => hfile.resolve_left ?_⟩
    rintro rfl
    rw [isCache_single, hname] at hcache
    cases hcache
  | directory hname _ _ ihentries ih =>
    rw [mem_files_directory, mem_files_directory, ih, or_and_right]
    refine or_congr ?_ Iff.rfl
    constructor
    · rintro ⟨below, hpath, hbelow⟩
      obtain ⟨hin, hcache⟩ := (ihentries _).mp hbelow
      refine ⟨⟨below, hpath, hin⟩, ?_⟩
      rw [hpath, isCache_cons (files_ne_nil hin)]
      simpa [hname] using hcache
    · rintro ⟨⟨below, hpath, hin⟩, hcache⟩
      rw [hpath, isCache_cons (files_ne_nil hin), Bool.or_eq_false_iff] at hcache
      exact ⟨below, hpath, (ihentries _).mpr ⟨hin, hcache.2⟩⟩
  | cache hname _ ih =>
    rw [mem_files_directory, ih]
    refine and_congr_left fun hcache => ⟨.inr, fun hfile => hfile.resolve_left ?_⟩
    rintro ⟨below, hpath, hin⟩
    rw [hpath, isCache_cons (files_ne_nil hin)] at hcache
    simp [hname] at hcache
  | special _ ih => rw [mem_files_special, ih]

theorem CopyOf.identity_eq (h : CopyOf entries copied) : copied.identity = entries.identity := by
  rw [identity, h.files_eq]
  exact Set.ext fun file => ⟨fun hfile => hfile.1, fun hfile => ⟨hfile, hfile.2⟩⟩

end

end Entries

/-! ### Installed packages -/

def Root.files : Root → Set (Path × List UInt8)
  | .directory _ entries => entries.files
  | .other => ∅

/-- A package that has been hashed where it is and copied to where it is managed. -/
structure Installed {δ : Type} (sha256 : List UInt8 → δ) (maxFiles maxBytes : Nat) where
  location : Path
  stat : Stat
  entries : Entries
  destination : Path
  fresh : Path → Stat
  copied : Root
  digest : δ
  ordered : entries.Ordered
  accepted : computePackageDigest sha256 maxFiles maxBytes location (.directory stat entries) = .ok digest
  copies : copyPackage fresh (.directory stat entries) = .ok copied

namespace Installed
variable {δ : Type} {sha256 : List UInt8 → δ} {maxFiles maxBytes : Nat} (x y : Installed sha256 maxFiles maxBytes)

/-- The digest of the copy is that of the package. -/
def Kept : Prop := computePackageDigest sha256 maxFiles maxBytes x.destination x.copied = .ok x.digest

/-- The digest covers every file of the copy. -/
def Covers : Prop := ∀ file ∈ x.copied.files, file ∈ covered x.location x.entries

/-- What the digests of two packages promise. -/
structure Identified : Prop where
  kept : x.Kept ∧ y.Kept
  same : x.digest = y.digest ↔ x.entries.identity = y.entries.identity
  covers : x.Covers ∧ y.Covers

/-- Neither the package nor its copy is below a directory `__pycache__`, and no file is called so, unless there are
only cache files. -/
def Plain : Prop :=
  x.entries.identity = ∅ ∨
    (pycache ∉ x.location ∧ pycache ∉ x.destination ∧ ∀ file ∈ x.entries.identity, file.1.getLast? ≠ some pycache)

variable {x y}

theorem copied_eq (x : Installed sha256 maxFiles maxBytes) :
    ∃ copied, x.copied = .directory (x.fresh []) copied ∧ Entries.CopyOf x.entries copied := by
  have h := x.copies
  rw [copyPackage] at h
  cases hcopy : x.entries.copy x.fresh [] with
  | error failure => rw [hcopy] at h; cases h
  | ok copied =>
    rw [hcopy] at h
    exact ⟨copied, (Except.ok.inj h).symm, Entries.copyOf hcopy⟩

theorem files_copied (x : Installed sha256 maxFiles maxBytes) : x.copied.files = x.entries.identity := by
  obtain ⟨copied, heq, hcopy⟩ := x.copied_eq
  rw [heq]
  exact hcopy.files_eq

/-- A plain package's digest covers what the package is. -/
theorem Plain.mem_covered (h : x.Plain) {file : Path × List UInt8} :
    file ∈ covered x.location x.entries ↔ file ∈ x.entries.identity := by
  rw [mem_covered_iff]
  refine ⟨fun hfile => hfile.1, fun hfile => ?_⟩
  cases h with
  | inl hempty => exact absurd hfile (hempty ▸ Set.notMem_empty file)
  | inr hplain => exact ⟨hfile, hplain.1, hplain.2.2 file hfile⟩

theorem Plain.covers (h : x.Plain) : x.Covers := fun _ hfile => h.mem_covered.mpr (x.files_copied ▸ hfile)

theorem covered_copied (h : x.Plain) {copied : Entries} (hcopy : Entries.CopyOf x.entries copied) :
    covered x.destination copied = covered x.location x.entries := by
  refine covered_eq (hcopy.ordered x.ordered) x.ordered fun file => ?_
  rw [h.mem_covered, mem_covered_iff, hcopy.identity_eq]
  refine ⟨fun hfile => hfile.1, fun hfile => ?_⟩
  cases h with
  | inl hempty => exact absurd hfile (hempty ▸ Set.notMem_empty file)
  | inr hplain => exact ⟨hfile, hplain.2.1, hplain.2.2 file hfile⟩

theorem Plain.kept (h : x.Plain) : x.Kept := by
  obtain ⟨copied, heq, hcopy⟩ := x.copied_eq
  have hregular : Regular x.destination copied.walk := fun entry hentry _ => hcopy.regular hentry
  rw [Kept, heq, computePackageDigest_regular hregular, covered_copied h hcopy,
    ← computePackageDigest_regular (regular_of_digest x.accepted)]
  exact x.accepted

/-- Digests of plain packages are equal if the packages are. -/
theorem Plain.same (hsha : Function.Injective sha256) (hx : x.Plain) (hy : y.Plain) :
    x.digest = y.digest ↔ x.entries.identity = y.entries.identity := by
  rw [digest_eq_iff hsha x.accepted y.accepted]
  constructor
  · intro heq
    ext file
    rw [← hx.mem_covered, heq, hy.mem_covered]
  · intro heq
    refine covered_eq x.ordered y.ordered fun file => ?_
    rw [hx.mem_covered, heq, hy.mem_covered]

/-- A file that is in the copy and in the digest is not called `__pycache__`, and neither place is below a directory
of that name. -/
theorem plain (hsha : Function.Injective sha256) (hkept : x.Kept) (hcovers : x.Covers) : x.Plain := by
  refine or_iff_not_imp_left.mpr fun hne => ?_
  obtain ⟨file, hfile⟩ := Set.nonempty_iff_ne_empty.mpr hne
  have hcovered : ∀ file ∈ x.entries.identity, file ∈ covered x.location x.entries :=
    fun file hfile => hcovers file (x.files_copied ▸ hfile)
  have hparts (other) (hother) := mem_covered_iff.mp (hcovered other hother)
  refine ⟨(hparts file hfile).2.1, ?_, fun other hother => (hparts other hother).2.2⟩
  obtain ⟨copied, heq, hcopy⟩ := x.copied_eq
  rw [Kept, heq] at hkept
  have hsame := (digest_eq_iff hsha hkept x.accepted).mp rfl
  have hin : file ∈ covered x.destination copied := hsame ▸ hcovered file hfile
  exact (mem_covered_iff.mp hin).2.1

/-- Digests identify packages exactly if these are plain. -/
theorem identified_iff (hsha : Function.Injective sha256) (x y : Installed sha256 maxFiles maxBytes) :
    x.Identified y ↔ x.Plain ∧ y.Plain := by
  constructor
  · intro h
    exact ⟨plain hsha h.kept.1 h.covers.1, plain hsha h.kept.2 h.covers.2⟩
  · rintro ⟨hx, hy⟩
    exact ⟨⟨hx.kept, hy.kept⟩, hx.same hsha hy, ⟨hx.covers, hy.covers⟩⟩

end Installed

/-! A package with one file. -/

def single (name : Name) : Entries := .file name {} [1, 2] .nil

def main : Name := ⟨PyStr.ofString "main.py", by decide⟩

/-- A package with one file, that its digest covers. -/
def program : Installed id 4096 100000000 where
  location := []
  stat := {}
  entries := single main
  destination := []
  fresh _ := {}
  copied := .directory {} (single main)
  digest := frame (utf8 "main.py".toList) [1, 2]
  ordered := ⟨nofun, trivial⟩
  accepted := by rfl
  copies := by rfl

theorem program_identified : program.Identified program ↔ program.Plain ∧ program.Plain :=
  Installed.identified_iff Function.injective_id program program

/-- A file `__pycache__` is copied, and no digest covers it. -/
def marked : Installed id 4096 100000000 where
  location := []
  stat := {}
  entries := single pycache
  destination := []
  fresh _ := {}
  copied := .directory {} (single pycache)
  digest := []
  ordered := ⟨nofun, trivial⟩
  accepted := by rfl
  copies := by rfl

theorem marked_not_identified : ¬ marked.Identified marked := by
  intro h
  have hcovered := h.covers.1 ([pycache], [1, 2]) ⟨_, List.mem_cons_self⟩
  have hnone : covered [] (single pycache) = [] := by rfl
  exact absurd (hnone ▸ hcovered) List.not_mem_nil

end Operant.Plugins
