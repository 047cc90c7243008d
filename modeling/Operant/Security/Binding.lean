import Operant.Security.Decides
import Operant.Python.Dicts

/-! What an action hash binds.

The hash input is put together beside the request: it leaves out the data classification, and it
lists the capabilities as they were given while the request lists each once. A url keeps a port
that is written out, also where it is the default one.

`hash_binds_iff`: equal hashes mean the same action exactly if the classifications agree, and
calls that are spelled differently have equal hashes exactly if they repeat their capabilities
equally often and write out their ports alike. -/
namespace Operant.Security
open Operant.Python Operant.Calls

/-! ### What is normalized -/

/-- What `normalize` has found on the way to a request. -/
structure Normalized (host : Host) (p : Proposal) where
  root : Option String
  arguments : Refs
  target : NormalizedTarget
  hashed : Value
  resolved : p.workspace.map host.resolve = root.map some
  normalizes : host.normalizeArguments p.arguments root = .ok arguments
  targets : host.normalizeTarget p.tool arguments root p.workspaceId = .ok target
  hashes : canonical (.dict arguments) = some hashed

namespace Normalized
variable {host : Host} {p : Proposal}

def secretRefs (p : Proposal) : List String := p.secretRefs.dedup.insertionSort fun a b => a ≤ b

def hash (n : Normalized host p) : ActionHash :=
  ⟨p.principal, p.tool, p.operation, n.target, n.hashed, p.workspaceId, sortedCapabilities p.requestedCapabilities,
    p.sandboxProfile, p.networkProfile, secretRefs p, p.dryRun, p.idempotencyKey, p.policyVersion,
    idempotencyLevel p.tool p.operation n.arguments⟩

def request (n : Normalized host p) : ActionRequest where
  principal := p.principal
  tool := p.tool
  operation := p.operation
  normalizedTarget := n.target
  normalizedArguments := n.arguments
  workspaceId := p.workspaceId
  dataClassification := p.dataClassification
  requestedCapabilities := (sortedCapabilities p.requestedCapabilities).dedup
  sandboxProfile := p.sandboxProfile
  networkProfile := p.networkProfile
  secretRefs := secretRefs p
  dryRun := p.dryRun
  idempotencyKey := p.idempotencyKey
  actionHash := n.hash
  policyVersion := p.policyVersion
  idempotencyLevel := idempotencyLevel p.tool p.operation n.arguments

theorem of_normalizeIn {root : Option String} (hroot : p.workspace.map host.resolve = root.map some)
    {action : ActionRequest} (h : p.normalizeIn host root = .ok action) :
    ∃ n : Normalized host p, n.request = action := by
  unfold Proposal.normalizeIn at h
  obtain ⟨arguments, harguments, h⟩ := ok_of_bind h
  obtain ⟨target, htarget, h⟩ := ok_of_bind h
  dsimp only at h
  split at h
  · exact nomatch h
  · split at h
    · exact nomatch h
    · rename_i hashed hhashed
      split at h
      · cases h
        exact ⟨⟨root, arguments, target, hashed, hroot, harguments, htarget, hhashed⟩, rfl⟩
      · exact nomatch h

theorem of_normalize {action : ActionRequest} (h : p.normalize host = .ok action) :
    ∃ n : Normalized host p, n.request = action := by
  unfold Proposal.normalize at h
  split at h
  · exact nomatch h
  · split at h
    · rename_i hnone
      exact of_normalizeIn (by rw [hnone]; rfl) h
    · rename_i workspace hworkspace
      split at h
      · exact nomatch h
      · rename_i root hroot
        exact of_normalizeIn (by rw [hworkspace, Option.map_some, hroot]; rfl) h

end Normalized

/-! ### Arguments -/

/-- What `normalizePath` does to the arguments. -/
theorem normalizePath_lookup {host : Host} {root : Option String} {key : String} {arguments result : Refs}
    (h : host.normalizePath root key arguments = .ok result) :
    result.map Prod.fst = arguments.map Prod.fst ∧
      ∀ path, arguments.lookup key = some path → ∃ r, root = some r ∧
        result.lookup key = some (.str (host.resolveUnder r (host.str path))) := by
  unfold Host.normalizePath at h
  split at h
  · rename_i hnone
    cases h
    refine ⟨rfl, fun path hpath => ?_⟩
    rw [hnone] at hpath
    exact nomatch hpath
  · rename_i given hgiven
    split at h
    · exact nomatch h
    · rename_i r
      dsimp only at h
      split at h
      · cases h
        refine ⟨?_, fun path hpath => ?_⟩
        · rw [Dict.keys_set, if_pos (Dict.mem_keys (by rw [Dict.has, hgiven]; rfl))]
        · rw [hgiven] at hpath
          cases hpath
          exact ⟨r, rfl, Dict.lookup_set_self _ _ _⟩
      · exact nomatch h

/-- The text of a normalized url. -/
def normalUrl (parsed : SplitUrl) (hostname : String) (port : Option Nat) : String :=
  Host.urlunsplit parsed.scheme.toLower
    (match port with
      | some n => hostname.toLower ++ ":" ++ toString n
      | none => hostname.toLower)
    (if parsed.path = "" then "/" else parsed.path) parsed.query

/-- The url of the arguments is normalized to this text. -/
structure ToUrl (host : Host) (url : Value) (text : String) (port : Option Nat) : Prop where
  parts : ∃ parsed hostname, host.urlsplit (host.str url) = some parsed ∧ parsed.hostname = some hostname ∧
    parsed.port = some port ∧ text = normalUrl parsed hostname port

theorem normalizeUrl_lookup {host : Host} {arguments result : Refs}
    (h : host.normalizeUrl arguments = .ok result) :
    result.map Prod.fst = arguments.map Prod.fst ∧
      ∀ url, arguments.lookup "url" = some url → ∃ text port, ToUrl host url text port ∧
        result.lookup "url" = some (.str text) := by
  unfold Host.normalizeUrl at h
  split at h
  · rename_i hnone
    cases h
    refine ⟨rfl, fun url hurl => ?_⟩
    rw [hnone] at hurl
    exact nomatch hurl
  · rename_i given hgiven
    split at h
    · exact nomatch h
    · rename_i parsed hparsed
      split at h
      · exact nomatch h
      · rename_i hostname hhostname
        split at h
        · exact nomatch h
        · split at h
          · exact nomatch h
          · rename_i port hport
            cases h
            refine ⟨?_, fun url hurl => ?_⟩
            · rw [Dict.keys_set, if_pos (Dict.mem_keys (by rw [Dict.has, hgiven]; rfl))]
            · rw [hgiven] at hurl
              cases hurl
              exact ⟨_, port, ⟨parsed, hostname, hparsed, hhostname, hport, rfl⟩, Dict.lookup_set_self _ _ _⟩

/-- The keys whose values are rewritten. -/
def rewritten : List String := ["path", "cwd", "url"]

/-- What the normalized arguments are. -/
structure ArgumentsOf (host : Host) (root : Option String) (given result : Refs) : Prop where
  keys : result.map Prod.fst = given.map Prod.fst
  others : ∀ key, key ∉ rewritten → result.lookup key = given.lookup key
  path : ∀ key, key = "path" ∨ key = "cwd" → ∀ path, given.lookup key = some path → ∃ r, root = some r ∧
    result.lookup key = some (.str (host.resolveUnder r (host.str path)))
  url : ∀ url, given.lookup "url" = some url → ∃ text port, ToUrl host url text port ∧
    result.lookup "url" = some (.str text)

theorem normalizeArguments_spec {host : Host} {arguments result : Refs} {root : Option String}
    (h : host.normalizeArguments arguments root = .ok result) :
    ArgumentsOf host root (Dict.ofList arguments) result := by
  unfold Host.normalizeArguments at h
  obtain ⟨checked, hchecked, hrest⟩ := ok_of_bind h
  obtain ⟨withPath, hpath, hrest⟩ := ok_of_bind hrest
  obtain ⟨withCwd, hcwd, hurl⟩ := ok_of_bind hrest
  obtain ⟨rfl, -⟩ := checkArgv_ok hchecked
  have opath := (normalizePath_sets hpath).others
  have ocwd := (normalizePath_sets hcwd).others
  have ourl := (normalizeUrl_sets hurl).others
  obtain ⟨kpath, lpath⟩ := normalizePath_lookup hpath
  obtain ⟨kcwd, lcwd⟩ := normalizePath_lookup hcwd
  obtain ⟨kurl, lurl⟩ := normalizeUrl_lookup hurl
  refine ⟨by rw [kurl, kcwd, kpath], fun key hkey => ?_, ?_, fun url hgiven => lurl url ?_⟩
  · simp only [rewritten, List.mem_cons, List.not_mem_nil, or_false, not_or] at hkey
    rw [ourl key hkey.2.2, ocwd key hkey.2.1, opath key hkey.1]
  · rintro key (rfl | rfl) path hgiven
    · rw [ourl _ (by decide), ocwd _ (by decide)]
      exact lpath path hgiven
    · rw [ourl _ (by decide)]
      exact lcwd path (by rwa [opath _ (by decide)])
  · rwa [ocwd _ (by decide), opath _ (by decide)]

/-! ### What is hashed of a dict -/

theorem canonicalItems_spec {items written : Refs} (h : canonicalItems items = some written) :
    written.map Prod.fst = items.map Prod.fst ∧
      ∀ key, written.lookup key = (items.lookup key).bind canonical := by
  induction items generalizing written with
  | nil =>
    cases h
    exact ⟨rfl, fun _ => rfl⟩
  | cons item rest ih =>
    obtain ⟨k, x⟩ := item
    rw [canonicalItems, Option.bind_eq_some_iff] at h
    obtain ⟨y, hy, h⟩ := h
    obtain ⟨tail, htail, rfl⟩ := Option.map_eq_some_iff.mp h
    obtain ⟨hkeys, hlookup⟩ := ih htail
    refine ⟨by rw [List.map_cons, List.map_cons, hkeys], fun key => ?_⟩
    rw [List.lookup_cons, List.lookup_cons]
    cases key == k with
    | true => exact hy.symm
    | false => exact hlookup key

theorem canonical_lookup {a b : Refs} {hashed : Value} (hnodup : (a.map Prod.fst).Nodup)
    (ha : canonical (.dict a) = some hashed) (hb : canonical (.dict b) = some hashed) (key : String) :
    (a.lookup key).bind canonical = (b.lookup key).bind canonical := by
  rw [canonical, Option.map_eq_some_iff] at ha hb
  obtain ⟨left, hleft, rfl⟩ := ha
  obtain ⟨right, hright, heq⟩ := hb
  obtain ⟨kleft, lleft⟩ := canonicalItems_spec hleft
  obtain ⟨-, lright⟩ := canonicalItems_spec hright
  have hperm : left.Perm right := by
    refine (List.perm_insertionSort (fun x y : String × Value => x.1 ≤ y.1) left).symm.trans ?_
    rw [← Value.dict.inj heq]
    exact List.perm_insertionSort _ right
  rw [← lleft, ← lright]
  exact Dict.lookup_of_perm hperm (by rwa [kleft]) key

/-- A list of texts is hashed as it is. -/
theorem canonical_argv {argv : Value} (h : Host.isArgv argv = true) : canonical argv = some argv := by
  have texts (xs : List Value) (hall : ∀ x ∈ xs, ∃ s, x = .str s) : canonicalList xs = some xs := by
    induction xs with
    | nil => rfl
    | cons x rest ih =>
      obtain ⟨⟨s, rfl⟩, hrest⟩ := List.forall_mem_cons.mp hall
      rw [canonicalList, ih hrest, canonical]
      rfl
  unfold Host.isArgv at h
  split at h
  · rename_i part parts
    rw [canonical, texts]
    · rfl
    · intro x hx
      have htext := List.all_eq_true.mp h x hx
      cases x with
      | str s => exact ⟨s, rfl⟩
      | null | bool | int | float | list | dict | foreign => cases htext
  · cases h

theorem WellFormed.executable_of_canonical {a b : Refs} {hashed : Value} (hwa : WellFormed a) (hwb : WellFormed b)
    (ha : canonical (.dict a) = some hashed) (hb : canonical (.dict b) = some hashed) :
    executable a = executable b := by
  have unhashed (d : Refs) (hd : WellFormed d) : (d.lookup "argv").bind canonical = d.lookup "argv" := by
    cases hargv : d.lookup "argv" with
    | none => rfl
    | some argv => exact canonical_argv (hd.argv argv hargv)
  apply Platform.executable_of_lookup
  rw [← unhashed a hwa, ← unhashed b hwb]
  exact canonical_lookup hwa.nodup ha hb "argv"

/-! ### What is sorted -/

def Capability.all : List Capability := [.workspaceRead, .workspaceWrite, .workspaceDelete, .processExec,
  .processExecNoNetwork, .networkEgress, .secretUse, .gitCommit, .gitPush, .browserObserve, .browserNavigate,
  .browserSubmit, .browserScreenshot, .computerObserve, .computerInput, .computerScreenshot,
  .computerClipboardRead, .computerClipboardWrite, .remoteControlObserve, .remoteControlCommand,
  .remoteControlApprove, .remoteTargetRead, .remoteTargetExec, .externalMessageSend, .productionMutate,
  .policyModify]

theorem Capability.value_injective : Function.Injective Capability.value := by
  have hnodup : (Capability.all.map Capability.value).Nodup := by decide
  have hall (c : Capability) : c ∈ Capability.all := by cases c <;> decide
  exact fun a b h => List.inj_on_of_nodup_map hnodup (hall a) (hall b) h

/-- Sorted lists are the same exactly if the lists hold the same items equally often. -/
theorem sorted_eq_iff {α : Type} {r : α → α → Prop} [DecidableRel r] [Std.Total r] [IsTrans α r] [Std.Antisymm r]
    {xs ys : List α} : xs.insertionSort r = ys.insertionSort r ↔ xs.Perm ys := by
  constructor
  · intro h
    refine (List.perm_insertionSort r xs).symm.trans ?_
    rw [h]
    exact List.perm_insertionSort r ys
  · intro h
    exact (((List.perm_insertionSort r xs).trans h).trans (List.perm_insertionSort r ys).symm).eq_of_pairwise'
      (List.pairwise_insertionSort r xs) (List.pairwise_insertionSort r ys)

instance : Std.Total fun a b : Capability => a.value ≤ b.value := ⟨fun a b => String.le_total a.value b.value⟩

instance : IsTrans Capability fun a b => a.value ≤ b.value := ⟨fun _ _ _ => String.le_trans⟩

instance : Std.Antisymm fun a b : Capability => a.value ≤ b.value :=
  ⟨fun _ _ hab hba => Capability.value_injective (String.le_antisymm hab hba)⟩

theorem sortedCapabilities_eq_iff {xs ys : List Capability} :
    sortedCapabilities xs = sortedCapabilities ys ↔ xs.Perm ys := sorted_eq_iff

/-- Secrets are hashed as a set. -/
theorem secretRefs_eq_iff {p q : Proposal} :
    Normalized.secretRefs p = Normalized.secretRefs q ↔ ∀ ref, ref ∈ p.secretRefs ↔ ref ∈ q.secretRefs := by
  unfold Normalized.secretRefs
  rw [sorted_eq_iff, List.perm_ext_iff_of_nodup (List.nodup_dedup _) (List.nodup_dedup _)]
  simp only [List.mem_dedup]

/-! ### Calls with the same hash -/

/-- The target and the arguments that a call is normalized to. -/
def Proposal.aims (p : Proposal) (host : Host) : Except Raised (NormalizedTarget × Option Value) := do
  let root := p.workspace.bind host.resolve
  let arguments ← host.normalizeArguments p.arguments root
  let target ← host.normalizeTarget p.tool arguments root p.workspaceId
  return (target, canonical (.dict arguments))

/-- The calls agree in what is hashed. -/
structure Alike (host : Host) (p q : Proposal) : Prop where
  principal : p.principal = q.principal
  tool : p.tool = q.tool
  operation : p.operation = q.operation
  aims : p.aims host = q.aims host
  workspaceId : p.workspaceId = q.workspaceId
  capabilities : p.requestedCapabilities.Perm q.requestedCapabilities
  sandboxProfile : p.sandboxProfile = q.sandboxProfile
  networkProfile : p.networkProfile = q.networkProfile
  secretRefs : ∀ ref, ref ∈ p.secretRefs ↔ ref ∈ q.secretRefs
  dryRun : p.dryRun = q.dryRun
  idempotencyKey : p.idempotencyKey = q.idempotencyKey
  policyVersion : p.policyVersion = q.policyVersion

namespace Normalized
variable {host : Host} {p q : Proposal}

theorem root_eq (n : Normalized host p) : p.workspace.bind host.resolve = n.root := by
  have h := n.resolved
  cases hworkspace : p.workspace with
  | none =>
    rw [hworkspace] at h
    cases hroot : n.root with
    | none => rfl
    | some root =>
      rw [hroot] at h
      exact nomatch h
  | some workspace =>
    rw [hworkspace] at h
    cases hroot : n.root with
    | none =>
      rw [hroot] at h
      exact nomatch h
    | some root =>
      rw [hroot] at h
      exact Option.some.inj h

theorem aims_eq (n : Normalized host p) : p.aims host = .ok (n.target, some n.hashed) := by
  unfold Proposal.aims
  dsimp only
  rw [n.root_eq, n.normalizes]
  show (host.normalizeTarget p.tool n.arguments n.root p.workspaceId >>= fun target =>
    (pure (target, canonical (.dict n.arguments)) : Except Raised _)) = _
  rw [n.targets, n.hashes]
  rfl

/-- Equal hashes mean that the calls agree in what is hashed. -/
theorem hash_eq_iff (m : Normalized host p) (n : Normalized host q) : m.hash = n.hash ↔ Alike host p q := by
  constructor
  · intro h
    injection h with h1 h2 h3 h4 h5 h6 h7 h8 h9 h10 h11 h12 h13
    exact ⟨h1, h2, h3, by rw [m.aims_eq, n.aims_eq, h4, h5], h6, sortedCapabilities_eq_iff.mp h7, h8, h9,
      secretRefs_eq_iff.mp h10, h11, h12, h13⟩
  · intro h
    have haims := h.aims
    rw [m.aims_eq, n.aims_eq] at haims
    injection haims with haims
    injection haims with htarget hhashed
    injection hhashed with hhashed
    have hlevel : idempotencyLevel p.tool p.operation m.arguments =
        idempotencyLevel q.tool q.operation n.arguments := by
      have hexecutable := (normalizeArguments_wellFormed m.normalizes).executable_of_canonical
        (normalizeArguments_wellFormed n.normalizes) m.hashes (by rw [n.hashes, hhashed])
      unfold idempotencyLevel
      rw [h.tool, h.operation, hexecutable]
    simp only [hash, h.principal, h.tool, h.operation, htarget, hhashed, h.workspaceId,
      sortedCapabilities_eq_iff.mpr h.capabilities, h.sandboxProfile, h.networkProfile,
      secretRefs_eq_iff.mpr h.secretRefs, h.dryRun, h.idempotencyKey, h.policyVersion]
    rw [← hlevel, h.tool, h.operation]

end Normalized

/-! ### Spellings -/

/-- The urls differ in the case of the host, in an empty path or in a default port, or beyond the
query. -/
structure SplitUrl.Respells (u v : SplitUrl) : Prop where
  scheme : u.scheme = v.scheme
  hostname : u.hostname.map String.toLower = v.hostname.map String.toLower
  port : u.port.map (·.getD (if u.scheme = "https" then 443 else 80)) =
    v.port.map (·.getD (if v.scheme = "https" then 443 else 80))
  path : (if u.path = "" then "/" else u.path) = if v.path = "" then "/" else v.path
  query : u.query = v.query

/-- The calls differ in the order or repetition of capabilities or secrets, or in the spelling of
the workspace, of a path or of the url. -/
structure Respelled (host : Host) (p q : Proposal) : Prop where
  principal : p.principal = q.principal
  tool : p.tool = q.tool
  operation : p.operation = q.operation
  workspace : p.workspace.map host.resolve = q.workspace.map host.resolve
  workspaceId : p.workspaceId = q.workspaceId
  dataClassification : p.dataClassification = q.dataClassification
  capabilities : ∀ c, c ∈ p.requestedCapabilities ↔ c ∈ q.requestedCapabilities
  sandboxProfile : p.sandboxProfile = q.sandboxProfile
  networkProfile : p.networkProfile = q.networkProfile
  secretRefs : ∀ ref, ref ∈ p.secretRefs ↔ ref ∈ q.secretRefs
  dryRun : p.dryRun = q.dryRun
  idempotencyKey : p.idempotencyKey = q.idempotencyKey
  policyVersion : p.policyVersion = q.policyVersion
  keys : (Dict.ofList p.arguments).map Prod.fst = (Dict.ofList q.arguments).map Prod.fst
  others : ∀ key, key ∉ rewritten → (Dict.ofList p.arguments).lookup key = (Dict.ofList q.arguments).lookup key
  path : ∀ key, key = "path" ∨ key = "cwd" → ∀ x y, (Dict.ofList p.arguments).lookup key = some x →
    (Dict.ofList q.arguments).lookup key = some y → ∀ root, p.workspace.bind host.resolve = some root →
      host.resolveUnder root (host.str x) = host.resolveUnder root (host.str y)
  url : ∀ x y, (Dict.ofList p.arguments).lookup "url" = some x → (Dict.ofList q.arguments).lookup "url" = some y →
    ∀ u v, host.urlsplit (host.str x) = some u → host.urlsplit (host.str y) = some v → u.Respells v

/-- The port that is written in the url. -/
def Proposal.writtenPort (p : Proposal) (host : Host) : Option (Option Nat) :=
  ((Dict.ofList p.arguments).lookup "url").bind fun url => (host.urlsplit (host.str url)).bind (·.port)

/-- A default port that is written out stays in the url. -/
theorem SplitUrl.Respells.normalUrl_eq_iff {u v : SplitUrl} (h : u.Respells v) {a b : String} {i j : Option Nat}
    (hu : u.hostname = some a) (hv : v.hostname = some b) (hi : u.port = some i) (hj : v.port = some j) :
    normalUrl u a i = normalUrl v b j ↔ i = j := by
  have hhost : a.toLower = b.toLower := by
    have hname := h.hostname
    rw [hu, hv] at hname
    exact Option.some.inj hname
  have hport := h.port
  rw [hi, hj, h.scheme] at hport
  replace hport := Option.some.inj hport
  constructor
  · intro heq
    have hlength := congrArg String.length heq
    unfold normalUrl Host.urlunsplit at hlength
    rw [h.scheme, hhost, h.path, h.query] at hlength
    cases i with
    | none =>
      cases j with
      | none => rfl
      | some m =>
        simp only [String.length_append, show (":" : String).length = 1 from rfl] at hlength
        omega
    | some n =>
      cases j with
      | none =>
        simp only [String.length_append, show (":" : String).length = 1 from rfl] at hlength
        omega
      | some m =>
        have hsame : n = m := hport
        rw [hsame]
  · rintro rfl
    unfold normalUrl
    rw [h.scheme, hhost, h.path, h.query]

namespace Respelled
variable {host : Host} {p q : Proposal} (h : Respelled host p q) (m : Normalized host p) (n : Normalized host q)
include h

theorem root_eq : m.root = n.root := by
  have hroot := h.workspace
  rw [m.resolved, n.resolved] at hroot
  exact Option.map_injective (Option.some_injective _) hroot

/-- Both calls have the argument. -/
theorem given {key : String} {x : Value} (hx : (Dict.ofList p.arguments).lookup key = some x) :
    ∃ y, (Dict.ofList q.arguments).lookup key = some y := by
  apply Option.ne_none_iff_exists'.mp
  intro hnone
  rw [Dict.lookup_eq_none, ← h.keys, ← Dict.lookup_eq_none, hx] at hnone
  exact nomatch hnone

/-- The urls are normalized to the same text exactly if the ports are written alike. -/
theorem url_eq_iff {x y : Value} {s t : String} {i j : Option Nat}
    (hx : (Dict.ofList p.arguments).lookup "url" = some x) (hy : (Dict.ofList q.arguments).lookup "url" = some y)
    (hs : ToUrl host x s i) (ht : ToUrl host y t j) :
    s = t ↔ p.writtenPort host = q.writtenPort host := by
  obtain ⟨u, a, hu, ha, hi, rfl⟩ := hs.parts
  obtain ⟨v, b, hv, hb, hj, rfl⟩ := ht.parts
  rw [(h.url x y hx hy u v hu hv).normalUrl_eq_iff ha hb hi hj]
  unfold Proposal.writtenPort
  rw [hx, hy, Option.bind_some, Option.bind_some, hu, hv, Option.bind_some, Option.bind_some, hi, hj]
  exact Option.some_inj.symm

theorem arguments_eq (hport : p.writtenPort host = q.writtenPort host) : m.arguments = n.arguments := by
  have sm := normalizeArguments_spec m.normalizes
  have sn := normalizeArguments_spec n.normalizes
  apply Dict.ext_lookup (normalizeArguments_wellFormed m.normalizes).nodup (by rw [sm.keys, sn.keys, h.keys])
  intro key
  by_cases hkey : key ∈ rewritten
  · cases hx : (Dict.ofList p.arguments).lookup key with
    | none =>
      have hm : m.arguments.lookup key = none := by rwa [Dict.lookup_eq_none, sm.keys, ← Dict.lookup_eq_none]
      have hn : n.arguments.lookup key = none := by rwa [Dict.lookup_eq_none, sn.keys, ← h.keys, ← Dict.lookup_eq_none]
      rw [hm, hn]
    | some x =>
      obtain ⟨y, hy⟩ := h.given hx
      by_cases hpath : key = "path" ∨ key = "cwd"
      · obtain ⟨r, hr, hm⟩ := sm.path key hpath x hx
        obtain ⟨r', hr', hn⟩ := sn.path key hpath y hy
        rw [h.root_eq m n, hr'] at hr
        cases hr
        rw [hm, hn, h.path key hpath x y hx hy r (by rw [m.root_eq, h.root_eq m n, hr'])]
      · have hurl : key = "url" := by
          simp only [rewritten, List.mem_cons, List.not_mem_nil, or_false] at hkey
          exact (or_assoc.mpr hkey).resolve_left hpath
        subst hurl
        obtain ⟨s, i, hs, hm⟩ := sm.url x hx
        obtain ⟨t, j, ht, hn⟩ := sn.url y hy
        rw [hm, hn, (h.url_eq_iff hx hy hs ht).mpr hport]
  · rw [sm.others key hkey, sn.others key hkey, h.others key hkey]

theorem writtenPort_eq (hhashed : m.hashed = n.hashed) : p.writtenPort host = q.writtenPort host := by
  cases hx : (Dict.ofList p.arguments).lookup "url" with
  | none =>
    have hy : (Dict.ofList q.arguments).lookup "url" = none := by
      rwa [Dict.lookup_eq_none, ← h.keys, ← Dict.lookup_eq_none]
    unfold Proposal.writtenPort
    rw [hx, hy]
  | some x =>
    obtain ⟨y, hy⟩ := h.given hx
    obtain ⟨s, i, hs, hm⟩ := (normalizeArguments_spec m.normalizes).url x hx
    obtain ⟨t, j, ht, hn⟩ := (normalizeArguments_spec n.normalizes).url y hy
    have htext := canonical_lookup (normalizeArguments_wellFormed m.normalizes).nodup m.hashes
      (by rw [n.hashes, hhashed]) "url"
    rw [hm, hn, Option.bind_some, Option.bind_some, canonical, canonical] at htext
    exact (h.url_eq_iff hx hy hs ht).mp (Value.str.inj (Option.some.inj htext))

/-- Calls that are spelled differently have equal hashes exactly if they list their capabilities
equally often and write their ports alike. -/
theorem hash_eq_iff : m.hash = n.hash ↔
    p.requestedCapabilities.Perm q.requestedCapabilities ∧ p.writtenPort host = q.writtenPort host := by
  constructor
  · intro heq
    refine ⟨((m.hash_eq_iff n).mp heq).capabilities, h.writtenPort_eq m n ?_⟩
    exact congrArg ActionHash.arguments heq
  · rintro ⟨hperm, hport⟩
    have haims : p.aims host = q.aims host := by
      unfold Proposal.aims
      dsimp only
      rw [m.root_eq, n.root_eq, m.normalizes, n.normalizes, h.arguments_eq m n hport, h.root_eq m n, h.tool,
        h.workspaceId]
    exact (m.hash_eq_iff n).mpr ⟨h.principal, h.tool, h.operation, haims, h.workspaceId, hperm, h.sandboxProfile,
      h.networkProfile, h.secretRefs, h.dryRun, h.idempotencyKey, h.policyVersion⟩

end Respelled

/-! ### What a hash binds -/

/-- The requests are for the same action. -/
structure SameAction (a b : ActionRequest) : Prop where
  principal : a.principal = b.principal
  tool : a.tool = b.tool
  operation : a.operation = b.operation
  target : a.normalizedTarget = b.normalizedTarget
  arguments : canonical (.dict a.normalizedArguments) = canonical (.dict b.normalizedArguments)
  workspaceId : a.workspaceId = b.workspaceId
  capabilities : a.requestedCapabilities = b.requestedCapabilities
  sandboxProfile : a.sandboxProfile = b.sandboxProfile
  networkProfile : a.networkProfile = b.networkProfile
  secretRefs : a.secretRefs = b.secretRefs
  dryRun : a.dryRun = b.dryRun
  idempotencyKey : a.idempotencyKey = b.idempotencyKey
  policyVersion : a.policyVersion = b.policyVersion
  dataClassification : a.dataClassification = b.dataClassification

/-- Equal hashes mean the same action but for its classification. -/
theorem Normalized.same_action {host : Host} {p q : Proposal} (m : Normalized host p) (n : Normalized host q)
    (h : m.hash = n.hash) (hclass : p.dataClassification = q.dataClassification) :
    SameAction m.request n.request := by
  injection h with h1 h2 h3 h4 h5 h6 h7 h8 h9 h10 h11 h12 h13
  refine ⟨h1, h2, h3, h4, ?_, h6, congrArg List.dedup h7, h8, h9, h10, h11, h12, h13, hclass⟩
  show canonical (.dict m.arguments) = canonical (.dict n.arguments)
  rw [m.hashes, n.hashes, h5]

/-- An action hash binds the action, and only the action, exactly if the classifications agree and
the capabilities and the ports are written alike. -/
theorem hash_binds_iff {host : Host} {p q : Proposal} {a b : ActionRequest} (ha : p.normalize host = .ok a)
    (hb : q.normalize host = .ok b) :
    ((a.actionHash = b.actionHash → SameAction a b) ∧ (Respelled host p q → a.actionHash = b.actionHash)) ↔
      (Alike host p q → p.dataClassification = q.dataClassification) ∧
        (Respelled host p q → p.requestedCapabilities.Perm q.requestedCapabilities ∧
          p.writtenPort host = q.writtenPort host) := by
  obtain ⟨m, rfl⟩ := Normalized.of_normalize ha
  obtain ⟨n, rfl⟩ := Normalized.of_normalize hb
  show (m.hash = n.hash → _) ∧ (_ → m.hash = n.hash) ↔ _
  constructor
  · rintro ⟨hbinds, hspelled⟩
    exact ⟨fun h => (hbinds ((m.hash_eq_iff n).mpr h)).dataClassification,
      fun h => (h.hash_eq_iff m n).mp (hspelled h)⟩
  · rintro ⟨hclass, hspelled⟩
    exact ⟨fun h => m.same_action n h (hclass ((m.hash_eq_iff n).mp h)),
      fun h => (h.hash_eq_iff m n).mpr (hspelled h)⟩

/-- A file system without links, with no urls. -/
def plainHost : Host where
  resolve := some
  resolveUnder root path := root ++ "/" ++ path
  str
    | .str s => s
    | _ => ""
  urlsplit _ := none

/-- `git push`, with some capabilities. -/
def pushCall (requestedCapabilities : List Capability) : Proposal where
  principal := "operator"
  tool := "git"
  operation := "push"
  arguments := [("remote", .str "origin")]
  requestedCapabilities := requestedCapabilities
  idempotencyKey := "push-1"
  policyVersion := "1"

/-- The order of the capabilities does not count. -/
theorem hash_binds_iff_push :
    ∃ a b, (pushCall [.networkEgress, .gitPush]).normalize plainHost = .ok a ∧
      (pushCall [.gitPush, .networkEgress]).normalize plainHost = .ok b ∧
      a.actionHash = b.actionHash ∧ SameAction a b := by
  refine ⟨_, _, rfl, rfl, ?_⟩
  have hspelled : Respelled plainHost (pushCall [.networkEgress, .gitPush]) (pushCall [.gitPush, .networkEgress]) := by
    refine ⟨rfl, rfl, rfl, rfl, rfl, rfl, fun c => ?_, rfl, rfl, fun _ => Iff.rfl, rfl, rfl, rfl, rfl,
      fun _ _ => rfl, ?_, ?_⟩
    · exact (List.Perm.swap _ _ _).mem_iff
    · rintro key (rfl | rfl) x y hx
      · exact nomatch hx
      · exact nomatch hx
    · intro x y hx
      exact nomatch hx
  have hbinds := (hash_binds_iff
    (show (pushCall [.networkEgress, .gitPush]).normalize plainHost = .ok _ from rfl)
    (show (pushCall [.gitPush, .networkEgress]).normalize plainHost = .ok _ from rfl)).mpr
    ⟨fun _ => rfl, fun _ => ⟨List.Perm.swap _ _ _, rfl⟩⟩
  exact ⟨hbinds.2 hspelled, hbinds.1 (hbinds.2 hspelled)⟩

/-- The classification is not hashed, and a capability that is given twice is. -/
theorem classification_unbound :
    (∃ a b, (pushCall [.gitPush]).normalize plainHost = .ok a ∧
      { pushCall [.gitPush] with dataClassification := "secret" }.normalize plainHost = .ok b ∧
      a.actionHash = b.actionHash ∧ a.dataClassification ≠ b.dataClassification) ∧
    ∃ a b, (pushCall [.gitPush]).normalize plainHost = .ok a ∧
      (pushCall [.gitPush, .gitPush]).normalize plainHost = .ok b ∧ a.actionHash ≠ b.actionHash :=
  ⟨⟨_, _, rfl, rfl, rfl, by decide⟩, ⟨_, _, rfl, rfl, by
    intro h
    exact absurd (congrArg ActionHash.requestedCapabilities h) (by decide)⟩⟩

end Operant.Security
