import Operant.Plugins.PackageInventory

/-! Verified packages: `PluginRegistry.verify_package`.

A digest is computed again if the inventory of the package is another one. Files that the digest covers and the
inventory does not list are the only ones that can change unseen: those below a directory whose name ends as
bytecode does, and files whose whole name is such an ending. -/
namespace Operant.Plugins
open Operant.Python Operant.Text

/-! ### The model -/

/-- What `lstat` finds: the managed root, what is there for each installation, and their packages. -/
structure Disk where
  managedRoot : Item
  directories : String → Item
  packages : String → Root
  ordered : ∀ id, (packages id).Ordered

def Item.stat : Item → Stat
  | .file stat _ => stat
  | .directory stat => stat
  | .special stat _ => stat

def Item.isLink : Item → Bool
  | .special _ (.link _) => true
  | _ => false

def Item.isDirectory : Item → Bool
  | .directory _ => true
  | _ => false

/-- What a registry is made with. -/
structure Host (δ : Type) where
  sha256 : List UInt8 → δ
  maxFiles : Nat := 4096
  maxBytes : Nat := 100000000
  managedRootIdentity : Nat × Nat
  location : String → Path

/-- The signatures that were verified, with their digests. -/
abbrev Cache (δ : Type) := String → Option (List Row × δ)

section
variable {δ : Type} [DecidableEq δ] (host : Host δ)

def Host.digest (id : String) (package : Root) : Except PackageError δ :=
  computePackageDigest host.sha256 host.maxFiles host.maxBytes (host.location id) package

/-- The last check of `verify_package`. -/
def expect (expected digest : δ) : Except PackageError δ :=
  if digest ≠ expected then .error (.unavailable "installed package content digest changed") else .ok digest

/-- The rows of a signature. -/
def Signature.rows (previous : Option (List Row)) : Signature → List Row
  | .previous => previous.getD []
  | .computed rows => rows

/-- `verify_package` after the checks of the directories. `expected` is the manifest's digest. -/
def verifyInventory (package : Root) (cache : Cache δ) (id : String) (expected : δ) : Except PackageError δ × Cache δ :=
  let previous := (cache id).map Prod.fst
  match packageSignature previous package, cache id with
  | .error failure, _ => (.error failure, cache)
  | .ok .previous, some (_, digest) => (expect expected digest, cache)
  | .ok signature, _ =>
    match host.digest id package with
    | .error failure => (.error failure, cache)
    | .ok digest =>
      match packageSignature (some (signature.rows previous)) package with
      | .error failure => (.error failure, cache)
      | .ok (.computed _) => (.error (.unavailable "installed package changed during verification"), cache)
      | .ok .previous =>
        (expect expected digest, Function.update cache id (some (signature.rows previous, digest)))

/-- `verify_package`. -/
def verifyPackage (disk : Disk) (cache : Cache δ) (id : String) (expected : δ) : Except PackageError δ × Cache δ :=
  if disk.managedRoot.isLink ∨ (disk.managedRoot.stat.dev, disk.managedRoot.stat.ino) ≠ host.managedRootIdentity then
    (.error (.unavailable "managed plugin root identity changed"), cache)
  else if ¬ (disk.directories id).isDirectory then
    (.error (.unavailable "plugin installation directory changed"), cache)
  else verifyInventory host (disk.packages id) cache id expected

/-- The disks that there have been, the latest first, and what is cached: anything may be changed between two
verifications. -/
inductive Verified : List Disk → Cache δ → Prop
  | start (disk : Disk) : Verified [disk] fun _ => none
  | modified {disks : List Disk} {cache : Cache δ} (disk : Disk) (h : Verified disks cache) :
      Verified (disk :: disks) cache
  | verified {disk : Disk} {disks : List Disk} {cache : Cache δ} (id : String) (expected : δ)
      (h : Verified (disk :: disks) cache) : Verified (disk :: disks) (verifyPackage host disk cache id expected).2

end

/-! ### Rows and files -/

/-- The text of a path in an inventory. -/
def located (path : Path) : PyStr := path.flatMap fun name => slash :: name.1

theorem located_cons (name : Name) (path : Path) : located (name :: path) = slash :: posix (name :: path) := by
  induction path generalizing name with
  | nil => simp [located, posix, List.intercalate]
  | cons next rest ih =>
    have hrest := ih next
    simp only [located, posix, List.flatMap_cons] at hrest ⊢
    rw [hrest]
    simp [List.intercalate]

theorem located_inj {p q : Path} (h : located p = located q) : p = q := by
  cases p with
  | nil =>
    cases q with
    | nil => rfl
    | cons name path => rw [located_cons] at h; cases h
  | cons name path =>
    cases q with
    | nil => rw [located_cons] at h; cases h
    | cons other rest =>
      rw [located_cons, located_cons] at h
      exact posix_inj (List.cons_ne_nil _ _) (List.cons_ne_nil _ _) (List.cons.inj h).2

/-- What is walked, but for paths that have a part that is not listed. -/
def Visits (relative : PyStr) (walked : List (Path × Item)) (text : PyStr) (item : Item) : Prop :=
  ∃ path, text = relative ++ located path ∧ (path, item) ∈ walked ∧ ∀ name ∈ path, unlisted name = false

section
variable {relative text : PyStr} {name : Name} {walked others : List (Path × Item)} {item node : Item}

theorem visits_append :
    Visits relative (walked ++ others) text item ↔ Visits relative walked text item ∨ Visits relative others text item := by
  simp only [Visits, List.mem_append, or_and_right, and_or_left, exists_or]

theorem visits_single :
    Visits relative [([name], node)] text item ↔ unlisted name = false ∧ text = below relative name ∧ item = node := by
  simp only [Visits, List.mem_singleton, Prod.mk.injEq]
  constructor
  · intro ⟨path, htext, ⟨hpath, hitem⟩, hlisted⟩
    rw [hpath] at htext hlisted
    exact ⟨hlisted name List.mem_cons_self, by simpa [located, below] using htext, hitem⟩
  · intro ⟨hlisted, htext, hitem⟩
    exact ⟨[name], by simpa [located, below] using htext, ⟨rfl, hitem⟩, by simpa using hlisted⟩

theorem visits_cons :
    Visits relative (([name], node) :: walked) text item ↔
      (unlisted name = false ∧ text = below relative name ∧ item = node) ∨ Visits relative walked text item := by
  rw [← visits_single, ← visits_append, List.singleton_append]

theorem visits_under :
    Visits relative (Entries.under name walked) text item ↔
      unlisted name = false ∧ Visits (below relative name) walked text item := by
  simp only [Visits, Entries.mem_under]
  constructor
  · intro ⟨path, htext, ⟨rest, hpath, hmem⟩, hlisted⟩
    rw [hpath] at htext hlisted
    have hrest := List.forall_mem_cons.mp hlisted
    exact ⟨hrest.1, rest, by simpa [located, below] using htext, hmem, hrest.2⟩
  · intro ⟨hname, rest, htext, hmem, hlisted⟩
    exact ⟨name :: rest, by simpa [located, below] using htext, ⟨rest, rfl, hmem⟩, List.forall_mem_cons.mpr ⟨hname, hlisted⟩⟩

end

theorem mem_listing {entries : Entries} {relative text : PyStr} {item : Item} :
    (text, item) ∈ listing relative entries ↔ Visits relative entries.walk text item := by
  induction entries generalizing relative with
  | nil => simp [listing, Entries.walk, Visits]
  | file name stat bytes rest ih =>
    rw [listing, Entries.walk, visits_cons, ← ih]
    cases unlisted name <;> simp
  | special name stat kind rest ih =>
    rw [listing, Entries.walk, visits_cons, ← ih]
    cases unlisted name <;> simp
  | directory name stat entries rest ihentries ih =>
    rw [listing, Entries.walk, visits_cons, visits_append, visits_under, ← ih, ← ihentries]
    cases unlisted name <;> simp

/-- The inventory has a row for everything that is visited. -/
theorem inventoried_rows {seen : List (PyStr × Item)} {rows full : List Row}
    (h : seen.foldlM inventoried rows = .ok full) :
    full = rows ++ seen.filterMap (fun entry => row entry.1 entry.2) ∧
      ∀ entry ∈ seen, (row entry.1 entry.2).isSome = true := by
  induction seen generalizing rows with
  | nil =>
    rw [← Except.ok.inj h]
    exact ⟨(List.append_nil rows).symm, List.forall_mem_nil _⟩
  | cons first rest ih =>
    rw [List.foldlM_cons] at h
    cases hfirst : inventoried rows first with
    | error failure => rw [hfirst] at h; cases h
    | ok next =>
      rw [hfirst] at h
      obtain ⟨hfull, hrows⟩ := ih h
      unfold inventoried at hfirst
      split at hfirst
      · cases hfirst
      · next current hcurrent =>
        split at hfirst
        · cases hfirst
        · rw [← Except.ok.inj hfirst, List.append_assoc] at hfull
          refine ⟨?_, List.forall_mem_cons.mpr ⟨by rw [hcurrent]; rfl, hrows⟩⟩
          simp [hfull, hcurrent]

/-! ### What can change unseen -/

/-- What is walked, with the directory itself. -/
def Root.walk : Root → List (Path × Item)
  | .other => []
  | .directory stat entries => ([], .directory stat) :: entries.walk

/-- Whether a directory of a package lists a name. -/
def Root.Lists (root : Root) (path : Path) (name : Name) : Prop := ∃ item, (path ++ [name], item) ∈ root.walk

/-- Equal stat results of one path mean the same content: of a file its bytes, of a directory what it lists. -/
structure Trusted (root root' : Root) : Prop where
  file : ∀ path stat bytes bytes',
    (path, .file stat bytes) ∈ root.walk → (path, .file stat bytes') ∈ root'.walk → bytes = bytes'
  directory : ∀ path stat, (path, .directory stat) ∈ root.walk → (path, .directory stat) ∈ root'.walk →
    ∀ name, root.Lists path name ↔ root'.Lists path name

/-- The bytes of a file; a special node has none. -/
def Item.content : Item → Option (Option (List UInt8))
  | .file _ bytes => some (some bytes)
  | .special .. => some none
  | .directory _ => none

/-- What the digest does not leave out and the inventory does not list. -/
def hidden (location : Path) (root : Root) : Set (Path × Option (List UInt8)) :=
  {entry | skipped location entry.1 = false ∧ (∃ name ∈ entry.1, unlisted name = true) ∧
    ∃ item, (entry.1, item) ∈ root.walk ∧ item.content = some entry.2}

section
variable {location : Path} {stat stat' : Stat} {entries entries' : Entries} {rows : List Row}

/-- What is walked is listed, or hidden from the inventory. -/
theorem listed_or_hidden (stat : Stat) {path : Path} {item : Item} {content : Option (List UInt8)}
    (hskipped : skipped location path = false) (hwalked : (path, item) ∈ entries.walk)
    (hcontent : item.content = some content) :
    (located path, item) ∈ listing [] entries ∨ (path, content) ∈ hidden location (.directory stat entries) := by
  by_cases hlisted : ∀ name ∈ path, unlisted name = false
  · exact .inl (mem_listing.mpr ⟨path, rfl, hwalked, hlisted⟩)
  · refine .inr ⟨hskipped, ?_, item, List.mem_cons_of_mem _ hwalked, hcontent⟩
    simpa using hlisted

/-- An entry of a package that has a row, with its content, in the inventory of another. -/
theorem walked_of_row (h : inventory (.directory stat entries) = .ok rows) {path : Path} {written : Stat}
    (hrow : ⟨located path, false, written⟩ ∈ rows) : ∃ bytes, (path, .file written bytes) ∈ entries.walk := by
  rw [(inventoried_rows h).1, List.nil_append, List.mem_filterMap] at hrow
  obtain ⟨⟨text, item⟩, hseen, hrow⟩ := hrow
  cases item with
  | special stat kind => cases hrow
  | directory stat => cases hrow
  | file stat bytes =>
    obtain ⟨htext, -, hstat⟩ := Row.mk.inj (Option.some.inj hrow)
    cases List.mem_cons.mp hseen with
    | inl heq => cases heq
    | inr hmem =>
      obtain ⟨found, hfound, hwalked, -⟩ := mem_listing.mp hmem
      have hpath : found = path := located_inj (by rw [← htext]; exact hfound.symm)
      exact ⟨bytes, hpath ▸ hstat ▸ hwalked⟩

/-- What one of two packages with one inventory has that is hashed the other has. -/
theorem covered_of_inventory (h : inventory (.directory stat entries) = .ok rows)
    (h' : inventory (.directory stat' entries') = .ok rows)
    (htrusted : Trusted (.directory stat entries) (.directory stat' entries'))
    (hhidden : hidden location (.directory stat entries) = hidden location (.directory stat' entries'))
    {file : Path × List UInt8} (hfile : file ∈ covered location entries) : file ∈ covered location entries' := by
  obtain ⟨hskipped, written, hwalked⟩ := mem_covered.mp hfile
  refine mem_covered.mpr ⟨hskipped, ?_⟩
  cases listed_or_hidden stat hskipped hwalked rfl with
  | inl hlisted =>
    have hrow : ⟨located file.1, false, written⟩ ∈ rows := by
      rw [(inventoried_rows h).1]
      exact List.mem_filterMap.mpr ⟨_, List.mem_cons_of_mem _ hlisted, rfl⟩
    obtain ⟨bytes, hwalked'⟩ := walked_of_row h' hrow
    have hbytes := htrusted.file file.1 written file.2 bytes (List.mem_cons_of_mem _ hwalked)
      (List.mem_cons_of_mem _ hwalked')
    exact ⟨written, hbytes ▸ hwalked'⟩
  | inr hin =>
    obtain ⟨-, -, item, hwalked', hcontent⟩ := hhidden ▸ hin
    cases item with
    | special stat kind => cases hcontent
    | directory stat => cases hcontent
    | file written' bytes =>
      obtain rfl : bytes = file.2 := Option.some.inj (Option.some.inj hcontent)
      cases List.mem_cons.mp hwalked' with
      | inl heq => exact absurd (Prod.mk.inj heq).2 nofun
      | inr hmem => exact ⟨written', hmem⟩

/-- Nothing that is hashed is special if that was so with the same hidden entries. -/
theorem regular_of_inventory (hregular : Regular location entries.walk)
    (h' : inventory (.directory stat' entries') = .ok rows)
    (hhidden : hidden location (.directory stat entries) = hidden location (.directory stat' entries')) :
    Regular location entries'.walk := by
  intro ⟨path, item⟩ hwalked hskipped written kind hspecial
  have hitem : item = .special written kind := hspecial
  rw [hitem] at hwalked
  cases listed_or_hidden stat' hskipped hwalked rfl with
  | inl hlisted => cases (inventoried_rows h').2 _ (List.mem_cons_of_mem _ hlisted)
  | inr hin =>
    obtain ⟨-, -, other, hother, hcontent⟩ := hhidden ▸ hin
    cases List.mem_cons.mp hother with
    | inl heq => rw [(Prod.mk.inj heq).2] at hcontent; cases hcontent
    | inr hmem =>
      cases other with
      | file stat bytes => cases hcontent
      | directory stat => cases hcontent
      | special stat kind => exact hregular _ hmem hskipped stat kind rfl

end

/-- Two packages with one inventory have one digest, if nothing hidden differs. -/
theorem digest_of_inventory {δ : Type} {sha256 : List UInt8 → δ} {maxFiles maxBytes : Nat} {location : Path}
    {root root' : Root} {rows : List Row} {digest : δ} (hordered : root.Ordered) (hordered' : root'.Ordered)
    (h : inventory root = .ok rows) (h' : inventory root' = .ok rows) (htrusted : Trusted root root')
    (htrusted' : Trusted root' root) (hhidden : hidden location root = hidden location root')
    (hdigest : computePackageDigest sha256 maxFiles maxBytes location root = .ok digest) :
    computePackageDigest sha256 maxFiles maxBytes location root' = .ok digest := by
  cases root with
  | other => cases h
  | directory stat entries =>
    cases root' with
    | other => cases h'
    | directory stat' entries' =>
      have hregular := regular_of_digest hdigest
      have hcovered : covered location entries' = covered location entries :=
        covered_eq hordered' hordered fun file => ⟨covered_of_inventory h' h htrusted' hhidden.symm,
          covered_of_inventory h h' htrusted hhidden⟩
      rw [computePackageDigest_regular (regular_of_inventory hregular h' hhidden), hcovered,
        ← computePackageDigest_regular hregular]
      exact hdigest

/-! ### Verifications -/

section
variable {δ : Type} [DecidableEq δ] {host : Host δ} {disk : Disk} {disks : List Disk} {cache : Cache δ} {id : String}
  {expected digest : δ}

/-- The cached signature is the one that is returned. -/
def ReturnsCached (disk : Disk) (cache : Cache δ) (id : String) : Prop :=
  packageSignature ((cache id).map Prod.fst) (disk.packages id) = .ok .previous

/-- What is cached was found together, on one disk. -/
def Sound (host : Host δ) (disks : List Disk) (cache : Cache δ) : Prop :=
  ∀ id rows digest, cache id = some (rows, digest) →
    ∃ disk ∈ disks, inventory (disk.packages id) = .ok rows ∧ host.digest id (disk.packages id) = .ok digest

theorem inventory_of_previous {rows : List Row} {root : Root}
    (h : packageSignature (some rows) root = .ok .previous) : inventory root = .ok rows := by
  rw [packageSignature_eq] at h
  cases hfull : inventory root with
  | error failure => rw [hfull] at h; cases h
  | ok full =>
    rw [hfull] at h
    by_cases heq : some rows = some full
    · rw [Option.some.inj heq]
    · cases (if_neg heq).symm.trans (Except.ok.inj h)

/-- A verification caches nothing, or the inventory and the digest of the package as it is. -/
theorem verify_caches (disk : Disk) (cache : Cache δ) (id : String) (expected : δ) :
    (verifyPackage host disk cache id expected).2 = cache ∨
      ∃ rows digest, (verifyPackage host disk cache id expected).2 = Function.update cache id (some (rows, digest)) ∧
        inventory (disk.packages id) = .ok rows ∧ host.digest id (disk.packages id) = .ok digest := by
  unfold verifyPackage
  split
  · exact .inl rfl
  split
  · exact .inl rfl
  unfold verifyInventory
  dsimp only
  split
  · exact .inl rfl
  · exact .inl rfl
  · next signature _ _ =>
    cases hdigest : host.digest id (disk.packages id) with
    | error failure => exact .inl rfl
    | ok digest =>
      dsimp only
      split
      · exact .inl rfl
      · exact .inl rfl
      · next hprevious => exact .inr ⟨_, digest, rfl, inventory_of_previous hprevious, rfl⟩

theorem verified_sound (h : Verified host disks cache) : Sound host disks cache := by
  induction h with
  | start disk => nofun
  | modified disk _ ih =>
    intro id rows digest hcached
    obtain ⟨found, hfound, hboth⟩ := ih id rows digest hcached
    exact ⟨found, List.mem_cons_of_mem disk hfound, hboth⟩
  | @verified disk disks cache verifiedId expected _ ih =>
    intro id rows digest hcached
    rcases @verify_caches _ _ host disk cache verifiedId expected with hsame | ⟨rows', digest', hupdate, hboth⟩
    · exact ih id rows digest (hsame ▸ hcached)
    · rw [hupdate] at hcached
      by_cases hid : id = verifiedId
      · rw [hid, Function.update_self] at hcached
        obtain ⟨rfl, rfl⟩ := Prod.mk.inj (Option.some.inj hcached)
        exact ⟨disk, List.mem_cons_self, hid ▸ hboth⟩
      · rw [Function.update_of_ne hid] at hcached
        exact ih id rows digest hcached

/-- A verification that succeeds with the cached signature returns what is cached and expected. -/
theorem verify_cached {result : δ} (hcached : ReturnsCached disk cache id)
    (h : (verifyPackage host disk cache id expected).1 = .ok result) :
    ∃ rows, cache id = some (rows, expected) ∧ inventory (disk.packages id) = .ok rows := by
  cases hentry : cache id with
  | none =>
    rw [ReturnsCached, hentry, packageSignature_eq] at hcached
    cases hfull : inventory (disk.packages id) with
    | error failure =>
      rw [Option.map_none, hfull] at hcached
      cases hcached
    | ok full =>
      rw [Option.map_none, hfull] at hcached
      cases hcached
  | some entry =>
    obtain ⟨rows, kept⟩ := entry
    rw [ReturnsCached, hentry, Option.map_some] at hcached
    unfold verifyPackage at h
    split at h
    · cases h
    split at h
    · cases h
    simp only [verifyInventory, hentry, Option.map_some, hcached, expect] at h
    split at h
    · cases h
    · next hexpected =>
      rw [Decidable.not_not.mp hexpected]
      exact ⟨rows, rfl, inventory_of_previous hcached⟩

/-- What a verification that returns the cached digest says of the package as it is, and what a lazy inventory
says. -/
structure Agrees (host : Host δ) (disk : Disk) (cache : Cache δ) : Prop where
  cached : ∀ id expected result, ReturnsCached disk cache id →
    (verifyPackage host disk cache id expected).1 = .ok result → host.digest id (disk.packages id) = .ok expected
  previous : ∀ rows root,
    packageSignature (some rows) root = .ok .previous ↔ packageSignature none root = .ok (.computed rows)
  computed : ∀ rows root full,
    packageSignature (some rows) root = .ok (.computed full) ↔
      packageSignature none root = .ok (.computed full) ∧ full ≠ rows

theorem signature_previous (rows : List Row) (root : Root) :
    packageSignature (some rows) root = .ok .previous ↔ packageSignature none root = .ok (.computed rows) := by
  rw [packageSignature_eq, packageSignature_eq]
  cases inventory root with
  | error failure => simp
  | ok full =>
    show Except.ok _ = Except.ok _ ↔ Except.ok _ = Except.ok _
    by_cases heq : rows = full <;> simp [heq, eq_comm]

theorem signature_computed (rows full : List Row) (root : Root) :
    packageSignature (some rows) root = .ok (.computed full) ↔
      packageSignature none root = .ok (.computed full) ∧ full ≠ rows := by
  rw [packageSignature_eq, packageSignature_eq]
  cases inventory root with
  | error failure => simp
  | ok found =>
    show Except.ok _ = Except.ok _ ↔ Except.ok _ = Except.ok _ ∧ _
    by_cases heq : rows = found
    · simp [heq, eq_comm]
    · simp only [Option.some_inj, heq, if_false, reduceCtorEq, Except.ok.injEq, Signature.computed.injEq]
      exact ⟨fun h => ⟨h, h ▸ Ne.symm heq⟩, And.left⟩

end

/-! A file that is written again, in a package and in one of its directories. -/

def byteHost : Host (List UInt8) where
  sha256 := id
  managedRootIdentity := (0, 0)
  location _ := []

def pythonFile (stat : Stat) (bytes : List UInt8) : Entries :=
  .file ⟨PyStr.ofString "a.py", by decide⟩ stat bytes .nil

def fileDisk (stat : Stat) (bytes : List UInt8) : Disk where
  managedRoot := .directory {}
  directories _ := .directory {}
  packages _ := .directory {} (pythonFile stat bytes)
  ordered _ := ⟨nofun, trivial⟩

/-- The directory's name ends as bytecode does. -/
def bytecodeDisk (stat : Stat) (bytes : List UInt8) : Disk where
  managedRoot := .directory {}
  directories _ := .directory {}
  packages _ := .directory {} (.directory ⟨PyStr.ofString "b.pyc", by decide⟩ {} (pythonFile stat bytes) .nil)
  ordered _ := ⟨nofun, ⟨nofun, trivial⟩, trivial⟩

section
variable {stat stat' : Stat} {bytes bytes' : List UInt8}

theorem fileDisk_trusted (h : stat = stat' → bytes = bytes') (id : String) :
    Trusted ((fileDisk stat bytes).packages id) ((fileDisk stat' bytes').packages id) where
  file path written content content' hin hin' := by
    simp only [fileDisk, pythonFile, Root.walk, Entries.walk, List.mem_cons, List.not_mem_nil, Prod.mk.injEq,
      reduceCtorEq, and_false, false_or, or_false, Item.file.injEq] at hin hin'
    rw [hin.2.2, hin'.2.2]
    exact h (hin.2.1.symm.trans hin'.2.1)
  directory path written _ _ name := by simp [Root.Lists, fileDisk, pythonFile, Root.walk, Entries.walk]

theorem bytecodeDisk_trusted (h : stat = stat' → bytes = bytes') (id : String) :
    Trusted ((bytecodeDisk stat bytes).packages id) ((bytecodeDisk stat' bytes').packages id) where
  file path written content content' hin hin' := by
    simp only [bytecodeDisk, pythonFile, Root.walk, Entries.walk, Entries.under, List.map_cons, List.map_nil,
      List.mem_cons, List.mem_append, List.not_mem_nil, Prod.mk.injEq, reduceCtorEq, and_false, false_or, or_false,
      Item.file.injEq] at hin hin'
    rw [hin.2.2, hin'.2.2]
    exact h (hin.2.1.symm.trans hin'.2.1)
  directory path written _ _ name := by
    simp [Root.Lists, bytecodeDisk, pythonFile, Root.walk, Entries.walk, Entries.under, exists_or]

theorem fileDisk_hidden (id : String) : hidden [] ((fileDisk stat bytes).packages id) = ∅ := by
  refine Set.eq_empty_iff_forall_notMem.mpr ?_
  intro ⟨path, content⟩ ⟨_, ⟨name, hname, hunlisted⟩, item, hwalked, _⟩
  have hpath : path = [] ∨ path = [⟨PyStr.ofString "a.py", by decide⟩] := by
    simp only [fileDisk, pythonFile, Root.walk, Entries.walk, List.mem_cons, List.not_mem_nil, Prod.mk.injEq,
      or_false] at hwalked
    exact hwalked.imp And.left And.left
  cases hpath with
  | inl hnil => rw [hnil] at hname; cases hname
  | inr hsingle =>
    rw [hsingle] at hname
    rw [List.mem_singleton.mp hname] at hunlisted
    revert hunlisted
    decide

end

/-- What holds of two disks, of each with itself and with the other. -/
theorem forall_mem_pair {p : Disk → Disk → Prop} {a b : Disk} (haa : p a a) (hab : p a b) (hba : p b a) (hbb : p b b) :
    ∀ x ∈ [a, b], ∀ y ∈ [a, b], p x y := by
  have hpair : ∀ x ∈ [a, b], x = a ∨ x = b := by simp
  intro x hx y hy
  rcases hpair x hx with rfl | rfl <;> rcases hpair y hy with rfl | rfl <;> assumption

def firstStat : Stat := {}
def secondStat : Stat := { mtimeNs := 1 }

theorem firstStat_ne : firstStat ≠ secondStat := by decide

end Operant.Plugins
