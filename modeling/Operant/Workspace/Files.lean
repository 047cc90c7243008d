import Operant.Text.Occurrences
import Operant.Python.Str

/-! The files of a workspace, and the tool that patches them: `tools/workspace.py`. -/
namespace Operant.Workspace
open Operant.Text Operant.Python

/-! ### Paths -/

/-- The parts of a path that is absolute, its links followed. -/
abbrev Path := List String

inductive Node where
  | file (bytes : ByteArray)
  | directory
  /-- What is there, but is neither. -/
  | other

abbrev Disk := Path → Option Node

namespace Disk
variable (disk : Disk)

def exists? (path : Path) : Bool := (disk path).isSome

def isDir (path : Path) : Bool := match disk path with | some .directory => true | _ => false

def write (path : Path) (node : Node) : Disk := fun other => if other = path then some node else disk other

/-- The missing directories above a path, from the root down: `mkdir(parents=True, exist_ok=True)`. -/
def missingParents (path : Path) : List Path := path.dropLast.inits.filter fun parent => !disk.exists? parent

def mkdirParents (path : Path) : Option Disk :=
  if path.dropLast.inits.all fun parent => disk.isDir parent || !disk.exists? parent then
    some ((disk.missingParents path).foldl (fun d parent => d.write parent .directory) disk)
  else none

end Disk

inductive Raised where
  | toolError (message : String)
  | osError
  | unicodeDecodeError
  | unicodeEncodeError
  deriving DecidableEq

def protectedWorkspaceNames : List String :=
  [".git", ".env", ".env.local", ".operant", ".credentials", ".history", ".bash_history", ".bash_sessions",
    ".zsh_history", ".zsh_sessions", ".sh_history", ".ksh_history", ".ash_history", ".csh_history",
    ".tcsh_history", ".fish_history", "fish_history", ".git-credentials", ".netrc", ".npmrc", ".pypirc",
    "credentials.json", "service-account.json", "service_account.json", "id_dsa", "id_ecdsa", "id_ed25519",
    "id_rsa", "secrets.json", "secrets.yaml", "secrets.yml"]

def protectedWorkspaceSuffixes : List String := [".key", ".p12", ".pfx", ".pem"]

/-- `is_protected_workspace_name`, of a name in lower case. -/
def isProtectedLowered (lowered : String) : Bool :=
  protectedWorkspaceNames.contains lowered || ".env.".toList.isPrefixOf lowered.toList ||
    protectedWorkspaceSuffixes.any fun suffix => suffix.toList.isSuffixOf lowered.toList

/-- `WorkspaceTools`, as far as paths go. -/
structure WorkspaceTools where
  root : Path
  /-- `(root / path).resolve()`, where the links of the file system lead somewhere. -/
  resolved : String → Option Path
  /-- `str.lower`. -/
  lower : String → String

namespace WorkspaceTools
variable (tools : WorkspaceTools) (disk : Disk)

/-- The parts below the root. -/
def relative (path : Path) : List String := path.drop tools.root.length

/-- `_is_protected`. -/
def isProtected (path : Path) : Bool :=
  !tools.root.isPrefixOf path || (tools.relative path).any fun part => isProtectedLowered (tools.lower part)

/-- `_resolve`. -/
def resolve (path : String) (mayNotExist allowDirectory : Bool) : Except Raised Path :=
  if '\x00' ∈ path.toList then .error (.toolError "invalid path")
  else match tools.resolved path with
    | none => .error .osError
    | some candidate =>
      if !tools.root.isPrefixOf candidate then .error (.toolError "path escapes the workspace")
      else if tools.isProtected candidate then .error (.toolError "path is protected")
      else if !mayNotExist && !disk.exists? candidate then
        .error (.toolError s!"path does not exist: {path}")
      else if disk.isDir candidate && !allowDirectory then .error (.toolError s!"path is a directory: {path}")
      else .ok candidate

/-! ### Texts -/

/-- `read_text(encoding="utf-8")` of a file. -/
def readText (bytes : ByteArray) : Option PyStr := (PyStr.decode bytes).map (PyStr.universalNewlines false)

/-- `write_text(text, encoding="utf-8")`: the file is emptied when it is opened, before the text is
encoded. Lines end in a line feed. -/
def writeText (target : Path) (text : PyStr) : Option Raised × Disk :=
  match text.encode with
  | some bytes => (none, disk.write target (.file bytes))
  | none => (some .unicodeEncodeError, disk.write target (.file .empty))

structure Patched where
  path : String
  created : Bool
  deriving DecidableEq

/-- The answer when a text was written, or not. -/
def patched (target : Path) (created : Bool) (text : PyStr) : Except Raised Patched × Disk :=
  match writeText disk target text with
  | (none, after) => (.ok ⟨"/".intercalate (tools.relative target), created⟩, after)
  | (some e, after) => (.error e, after)

/-- `apply_patch`. -/
def applyPatch (path : String) (oldText newText : PyStr) : Except Raised Patched × Disk :=
  match tools.resolve disk path true false with
  | .error e => (.error e, disk)
  | .ok target =>
    if oldText = [] then
      if disk.exists? target then
        (.error (.toolError "refusing to overwrite an existing file with an empty old_text"), disk)
      else match disk.mkdirParents target with
        | none => (.error .osError, disk)
        | some made => tools.patched made target true newText
    else if oldText = newText then (.error (.toolError "patch would not change the file"), disk)
    else match disk target with
      | some (.file bytes) =>
        match readText bytes with
        | none => (.error .unicodeDecodeError, disk)
        | some content =>
          let found := occurrences oldText content
          if found ≠ 1 then (.error (.toolError s!"old_text must occur exactly once; found {found}"), disk)
          else tools.patched disk target false (replaceFirst oldText newText content)
      | _ => (.error (.toolError s!"file does not exist: {path}"), disk)

end WorkspaceTools
end Operant.Workspace
