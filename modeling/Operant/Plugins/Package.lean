import Mathlib.Data.List.Sort
import Operant.Python.Str
import Operant.Text.Frames

/-! Plugin packages: `compute_package_digest` and `copy_package` of `plugins/protocol.py`.

A package is a tree of directories and files. A node that is neither a directory nor a regular file is special; links
are, and they are not followed. A directory lists its names in their order, and nothing changes while it is
walked. -/
namespace Operant.Plugins
open Operant.Python Operant.Text

/-! ### Names and paths -/

namespace PyStr

def ofString (s : String) : PyStr := PyStr.ofChars s.toList

end PyStr

/-- The number of a code point, by which texts are ordered. -/
def code : CodePoint → Nat
  | .char c => c.toNat
  | .surrogate half => 0xD800 + half

def slash : CodePoint := .char '/'
def dot : CodePoint := .char '.'

/-- What a directory entry can be called. -/
def isName (s : PyStr) : Bool :=
  s ≠ [] && s ≠ [dot] && s ≠ [dot, dot] && slash ∉ s && CodePoint.char '\x00' ∉ s

abbrev Name := {s : PyStr // isName s = true}

instance : LawfulBEq Name := inferInstance

/-- A path below the package's directory, or the parts of the path of that directory. -/
abbrev Path := List Name

def pycache : Name := ⟨PyStr.ofString "__pycache__", by decide⟩

/-- `as_posix()`. -/
def posix (path : Path) : PyStr := [slash].intercalate (path.map (·.1))

/-- `PurePath.suffix`, of a name. -/
def suffix (name : PyStr) : PyStr :=
  let last := (name.reverse.takeWhile (· ≠ dot)).reverse
  if dot ∈ name ∧ last ≠ [] ∧ last.length + 1 < name.length then dot :: last else []

/-- `suffix in {".pyc", ".pyo"}`. -/
def isBytecode (name : Name) : Bool :=
  suffix name.1 = PyStr.ofString ".pyc" || suffix name.1 = PyStr.ofString ".pyo"

/-! ### Trees -/

/-- What `lstat` tells besides the type and, of a file, the size. -/
structure Stat where
  dev : Nat := 0
  ino : Nat := 0
  size : Nat := 0
  mtimeNs : Nat := 0
  ctimeNs : Nat := 0
  permissions : Nat := 0
  nlink : Nat := 1
  deriving DecidableEq

/-- What is neither a directory nor a regular file. -/
inductive Special where
  | link (toDirectory : Bool)
  | other
  deriving DecidableEq

/-- What a directory lists. -/
inductive Entries where
  | nil
  | file (name : Name) (stat : Stat) (bytes : List UInt8) (rest : Entries)
  | directory (name : Name) (stat : Stat) (entries rest : Entries)
  | special (name : Name) (stat : Stat) (kind : Special) (rest : Entries)

/-- What is at a path. -/
inductive Item where
  | file (stat : Stat) (bytes : List UInt8)
  | directory (stat : Stat)
  | special (stat : Stat) (kind : Special)
  deriving DecidableEq

/-- What is installed or to be installed. -/
inductive Root where
  | directory (stat : Stat) (entries : Entries)
  | other

namespace Entries

/-- The entries below a name. -/
def under (name : Name) (walked : List (Path × Item)) : List (Path × Item) :=
  walked.map fun entry => (name :: entry.1, entry.2)

/-- `rglob("*")`, in the order of the names of each directory. -/
def walk : Entries → List (Path × Item)
  | .nil => []
  | .file name stat bytes rest => ([name], .file stat bytes) :: walk rest
  | .directory name stat entries rest => ([name], .directory stat) :: (under name (walk entries) ++ walk rest)
  | .special name stat kind rest => ([name], .special stat kind) :: walk rest

/-- The names that are listed. -/
def names : Entries → List Name
  | .nil => []
  | .file name _ _ rest => name :: names rest
  | .directory name _ _ rest => name :: names rest
  | .special name _ _ rest => name :: names rest

/-- The names of every directory are in their order, none of them twice. -/
def Ordered : Entries → Prop
  | .nil => True
  | .file name _ _ rest => (∀ other ∈ rest.names, name.1.map code < other.1.map code) ∧ Ordered rest
  | .directory name _ entries rest =>
    (∀ other ∈ rest.names, name.1.map code < other.1.map code) ∧ Ordered entries ∧ Ordered rest
  | .special name _ _ rest => (∀ other ∈ rest.names, name.1.map code < other.1.map code) ∧ Ordered rest

end Entries

/-- The names of every directory are in their order. -/
def Root.Ordered : Root → Prop
  | .other => True
  | .directory _ entries => entries.Ordered

/-! ### The digest -/

inductive PackageError where
  | unavailable (text : String)
  | unicode
  deriving DecidableEq

/-- A file's part of what is hashed. -/
def frame (relative : List UInt8) (bytes : List UInt8) : List UInt8 :=
  relative ++ 0 :: (decimal bytes.length ++ 0 :: bytes)

/-- What has been hashed, and how many files and bytes. -/
structure Hashing where
  stream : List UInt8 := []
  count : Nat := 0
  total : Nat := 0

/-- `relative.encode("utf-8")`. -/
def encodePath (path : Path) : Option (List UInt8) := ((posix path).mapM CodePoint.char?).map utf8

/-- Whether the digest leaves a path out: `location` is where the package is. -/
def skipped (location path : Path) : Bool :=
  pycache ∈ location ++ path || path.getLast?.any isBytecode

/-- One entry of `compute_package_digest`. -/
def hashEntry (maxFiles maxBytes : Nat) (location : Path) (hashing : Hashing) (entry : Path × Item) :
    Except PackageError Hashing :=
  if skipped location entry.1 then .ok hashing
  else match entry.2 with
    | .directory .. => .ok hashing
    | .special _ (.link _) => .error (.unavailable "plugin package cannot contain symlinks")
    | .special _ .other => .error (.unavailable "plugin package contains a non-regular file")
    | .file _ bytes =>
      if maxFiles < hashing.count + 1 then .error (.unavailable "plugin package contains too many files")
      else if maxBytes - hashing.total < bytes.length then
        .error (.unavailable "plugin package exceeds the byte limit")
      else match encodePath entry.1 with
        | none => .error .unicode
        | some relative => .ok
          { stream := hashing.stream ++ frame relative bytes
            count := hashing.count + 1
            total := hashing.total + bytes.length }

/-- The entries in the order of their paths. -/
def sortedEntries (entries : Entries) : List (Path × Item) :=
  entries.walk.insertionSort fun a b => (posix a.1).map code ≤ (posix b.1).map code

/-- `compute_package_digest`. -/
def computePackageDigest {δ : Type} (sha256 : List UInt8 → δ) (maxFiles maxBytes : Nat) (location : Path) :
    Root → Except PackageError δ
  | .other => .error (.unavailable "plugin package must be a real directory")
  | .directory _ entries => do
    let hashing ← (sortedEntries entries).foldlM (hashEntry maxFiles maxBytes location) {}
    pure (sha256 hashing.stream)

/-! ### The copy -/

/-- What is said of a node that is neither left out nor copied: a link to a directory is listed with the directories. -/
def refusal (name : Name) : Special → Option String
  | .link true => if name = pycache then none else some "plugin package cannot contain symlinks"
  | _ => if isBytecode name then none else some "plugin package contains an unsafe file"

/-- The entries of a directory as `copy_package` writes them; `fresh` tells what the new ones' `lstat` is. -/
def Entries.copy (fresh : Path → Stat) (path : Path) : Entries → Except PackageError Entries
  | .nil => .ok .nil
  | .directory name _ entries rest =>
    if name = pycache then rest.copy fresh path
    else do
      let inner ← entries.copy fresh (path ++ [name])
      let others ← rest.copy fresh path
      pure (.directory name (fresh (path ++ [name])) inner others)
  | .file name stat bytes rest =>
    if isBytecode name then rest.copy fresh path
    else do
      let others ← rest.copy fresh path
      let permissions := stat.permissions &&& 0o755
      pure (.file name { fresh (path ++ [name]) with permissions } bytes others)
  | .special name _ kind rest =>
    match refusal name kind with
    | none => rest.copy fresh path
    | some text => .error (.unavailable text)

/-- `copy_package`, to a place where there is nothing. -/
def copyPackage (fresh : Path → Stat) : Root → Except PackageError Root
  | .other => .error (.unavailable "plugin package must be a real directory")
  | .directory _ entries => do
    let copied ← entries.copy fresh []
    pure (.directory (fresh []) copied)

end Operant.Plugins
