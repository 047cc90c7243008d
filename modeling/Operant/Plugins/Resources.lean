import Operant.Plugins.Ledger

/-! Resources and the files that they are: `create_resource`, `create_private_index` and `resource_lookup`, with
`path_under`.

A resource is registered under the text of its path; its file is what the path's parts name. The two agree as long as
no file is named by two texts, and no deleted resource is asked for again. -/
namespace Operant.Plugins
open Operant.Tables

/-! ### Paths -/

/-- The parts of a path below the root of an installation. -/
abbrev Location := List (List Char)

/-- `Path(value).parts`, of a path that begins with no slash. -/
def parts (value : String) : Location := (value.toList.splitOn '/').filter fun part => part ≠ [] && part ≠ ['.']

/-- `_safe_relative_path`, with the parts of the path that is returned. -/
def safeRelativePath (value : String) : Except Raised Location := do
  require (value ≠ "" && !value.toList.contains '\x00' && value.toList.head? ≠ some '/' && value.toList.head? ≠ some '\\')
    (.permissionDenied "resource path is invalid")
  require (!(parts value).contains ['.', '.'])
    (.permissionDenied "resource path must stay inside the managed directory")
  return parts value

/-- What `lstat` says of a place. -/
inductive Lstat where
  | absent
  | present
  | link
  | failed
  deriving DecidableEq

/-- `path_under`, from a place on. What is resolved without links is inside the root. -/
def pathUnder (lstat : Location → Lstat) (current : Location) : Location → Except Raised Location
  | [] => .ok current
  | part :: rest =>
    match lstat (current ++ [part]) with
    | .link => .error (.permissionDenied "managed resource path contains a symlink")
    | .failed => .error .os
    | .absent | .present => pathUnder lstat (current ++ [part]) rest

/-- `path_under` of an installation's root. -/
def managedPath (lstat : Location → Lstat) (relativePath : String) : Except Raised Location := do
  let location ← safeRelativePath relativePath
  pathUnder lstat [] location

/-- Whether `path_under` gives the root. -/
def resourcePath (lstat : String → Location → Lstat) (installationId relativePath : String) : Except Raised Bool := do
  let location ← managedPath (lstat installationId) relativePath
  return location = []

theorem pathUnder_ok {lstat : Location → Lstat} {current rest location : Location}
    (h : pathUnder lstat current rest = .ok location) : location = current ++ rest := by
  induction rest generalizing current with
  | nil => rw [← Except.ok.inj h, List.append_nil]
  | cons part rest ih =>
    rw [pathUnder] at h
    split at h
    · cases h
    · cases h
    · rw [ih h, List.append_assoc, List.singleton_append]
    · rw [ih h, List.append_assoc, List.singleton_append]

theorem safeRelativePath_ok {value : String} {location : Location} (h : safeRelativePath value = .ok location) :
    location = parts value ∧ ['.', '.'] ∉ parts value := by
  unfold safeRelativePath at h
  obtain ⟨_, -, h⟩ := Calls.ok_of_bind h
  obtain ⟨_, hparts, h⟩ := Calls.ok_of_bind h
  have hnot := require_ok hparts
  cases h
  exact ⟨rfl, by simpa using hnot⟩

theorem managedPath_ok {lstat : Location → Lstat} {value : String} {location : Location}
    (h : managedPath lstat value = .ok location) : location = parts value ∧ ['.', '.'] ∉ parts value := by
  unfold managedPath at h
  obtain ⟨safe, hsafe, h⟩ := Calls.ok_of_bind h
  rw [pathUnder_ok h, List.nil_append]
  exact safeRelativePath_ok hsafe

/-! ### The model -/

/-- `package/` or `config/`. -/
def namesProtected (relativePath : String) : Bool :=
  relativePath.startsWith "package/" || relativePath.startsWith "config/"

/-- The directories of a package and of its configuration, and what is below them. -/
def isProtected (location : Location) : Bool :=
  location.head? = some "package".toList || location.head? = some "config".toList

/-- `create_private_index`, from the answer of `create_resource`. -/
def privateIndex (answer : Except Raised Reply) : Except Raised Resource :=
  match answer with
  | .ok (.resource resource) =>
    if resource.category = "index" ∧ (resource.storage = .coreRows ∨ resource.storage = .managedDirectory) then
      .ok resource
    else .error (.value "private index resource")
  | .ok _ => .error (.value "private index resource")
  | .error error => .error error

/-- `resource_lookup` with the path. -/
def RegistryState.lookup (s : RegistryState) (lstat : String → Location → Lstat) (installationId : String)
    (resourceId : ResourceId) : Except Raised (Option (Resource × Location)) := do
  match ← s.resourceLookup installationId resourceId with
  | none => return none
  | some resource =>
    let path ← managedPath (lstat resource.installationId) resourceId.relativePath
    return some (resource, path)

/-- A call of the registry about resources, their cleanup or the life of their installations. The paths that it meets
are those of `lstat`. -/
structure Request where
  call : Call
  outside : Outside
  writes : Bool
  lstat : String → Location → Lstat
  located : outside.resourcePath = resourcePath lstat
  about : match call with
    | .install _ | .bind .. | .enable _ | .beginDisable .. | .completeDisable .. | .markFailed .. => True
    | .createResource .. | .bumpResourceRevision _ => True
    | .beginUninstall .. | .markResourceCleanup .. | .completeUninstall _ => True
    | _ => False

namespace Registry
variable (r : Registry)

def answer (request : Request) : Except Raised Reply := (r.call request.call request.outside request.writes).1

def next (request : Request) : Registry := (r.call request.call request.outside request.writes).2

def serve (requests : List Request) : Registry := requests.foldl next r

end Registry

/-! ### What a call does to the resources -/

/-- What an installation owns, and in whose name. -/
def RegistryState.owners (s : RegistryState) (installationId : String) : Option (String × DatasetOwner) :=
  (s.installations.find? (·.installationId = installationId)).map fun installation =>
    (installation.datasetId, installation.owner)

/-- The file of a resource. -/
def StoredResource.file (stored : StoredResource) : String × Location :=
  (stored.resource.installationId, parts stored.relativePath)

namespace RegistryState
variable {s s' : RegistryState} {o : Outcome}

/-- The resources stay, and only some may become deleted. -/
structure Keeps (s : RegistryState) (deletes : ResourceId → Prop) (s' : RegistryState) : Prop where
  owners : s'.owners = s.owners
  resources : ∃ f : StoredResource → StoredResource, s'.resources = s.resources.map f ∧ ∀ stored,
    (f stored).resource = stored.resource ∧ (f stored).relativePath = stored.relativePath ∧
      ((f stored).status = .deleted → stored.status = .deleted ∨ deletes stored.resource.resourceId)

theorem Keeps.of_same {deletes : ResourceId → Prop} (howners : s'.owners = s.owners)
    (hresources : s'.resources = s.resources) : s.Keeps deletes s' :=
  ⟨howners, id, by rw [hresources, List.map_id], fun _ => ⟨rfl, rfl, .inl⟩⟩

/-- An installation that is written again for the same owner. -/
theorem owners_withInstallation {installationId : String} {installation updated : InstallationRecord}
    (h : s.installation installationId = .ok installation)
    (hinstallations : s'.installations = s.withInstallation updated)
    (hid : updated.installationId = installation.installationId) (hdataset : updated.datasetId = installation.datasetId)
    (howner : updated.owner = installation.owner) : s'.owners = s.owners := by
  funext key
  unfold owners
  rw [hinstallations, withInstallation, find?_update fun row _ hrow => ?_, Option.map_map]
  · cases hfind : s.installations.find? (·.installationId = key) with
    | none => rfl
    | some row =>
      rw [Option.map_some, Option.map_some]
      dsimp only [Function.comp_apply]
      by_cases hrow : row.installationId = updated.installationId
      · have hkey : row.installationId = key := by simpa using List.find?_some hfind
        have hsame : key = installationId := by rw [← hkey, hrow, hid, (installation_ok h).2]
        have hfound := orRaise_ok h
        rw [← hsame, hfind] at hfound
        rw [if_pos (decide_eq_true hrow), hdataset, howner, Option.some.inj hfound]
      · rw [if_neg (by simpa using hrow)]
  · rw [decide_eq_true_eq] at hrow
    rw [hrow]

/-! Calls that put an installation. -/

theorem bind_keeps {deletes : ResourceId → Prop} {fresh : Nat} {installationId : String} {datasetId : Option String}
    {config : Option PluginConfig} {globalEnabled : Bool}
    (h : s.bind fresh installationId datasetId config globalEnabled = .ok o) (ha : o.assigned = some s') :
    s.Keeps deletes s' := by
  unfold bind at h
  obtain ⟨installation, hinstallation, h⟩ := Calls.ok_of_bind h
  obtain ⟨_, -, h⟩ := Calls.ok_of_bind h
  split at h
  · obtain ⟨binding, -, h⟩ := Calls.ok_of_bind h
    cases h
    cases ha
  · obtain ⟨_, -, h⟩ := Calls.ok_of_bind h
    split at h
    · cases h
    · cases h
      cases ha
      exact .of_same (owners_withInstallation hinstallation rfl rfl rfl rfl) rfl

theorem enable_keeps {deletes : ResourceId → Prop} {outside : Outside} {bindingId : Nat}
    (h : s.enable outside bindingId = .ok o) (ha : o.assigned = some s') : s.Keeps deletes s' := by
  unfold enable at h
  obtain ⟨binding, -, h⟩ := Calls.ok_of_bind h
  obtain ⟨installation, hinstallation, h⟩ := Calls.ok_of_bind h
  obtain ⟨_, -, h⟩ := Calls.ok_of_bind h
  obtain ⟨_, -, h⟩ := Calls.ok_of_bind h
  obtain ⟨_, -, h⟩ := Calls.ok_of_bind h
  cases h
  cases ha
  exact .of_same (owners_withInstallation hinstallation rfl rfl rfl rfl) rfl

theorem beginDisable_keeps {deletes : ResourceId → Prop} {bindingId : Nat} {stopRunIds : List String}
    (h : s.beginDisable bindingId stopRunIds = .ok o) (ha : o.assigned = some s') : s.Keeps deletes s' := by
  unfold beginDisable at h
  obtain ⟨binding, -, h⟩ := Calls.ok_of_bind h
  obtain ⟨_, -, h⟩ := Calls.ok_of_bind h
  obtain ⟨installation, hinstallation, h⟩ := Calls.ok_of_bind h
  cases h
  cases ha
  exact .of_same (owners_withInstallation hinstallation rfl rfl rfl rfl) rfl

theorem completeDisable_keeps {deletes : ResourceId → Prop} {bindingId : Nat} {failed : Option String}
    {restartRequired : Bool} (h : s.completeDisable bindingId failed restartRequired = .ok o)
    (ha : o.assigned = some s') : s.Keeps deletes s' := by
  unfold completeDisable at h
  obtain ⟨binding, -, h⟩ := Calls.ok_of_bind h
  obtain ⟨installation, hinstallation, h⟩ := Calls.ok_of_bind h
  cases h
  cases ha
  exact .of_same (owners_withInstallation hinstallation rfl rfl rfl rfl) rfl

theorem markFailed_keeps {deletes : ResourceId → Prop} {installationId code : String}
    (h : s.markFailed installationId code = .ok o) (ha : o.assigned = some s') : s.Keeps deletes s' := by
  unfold markFailed at h
  obtain ⟨installation, hinstallation, h⟩ := Calls.ok_of_bind h
  cases h
  cases ha
  exact .of_same (owners_withInstallation hinstallation rfl rfl rfl rfl) rfl

theorem beginUninstall_keeps {deletes : ResourceId → Prop} {fresh : Nat} {installationId : String}
    {dataPolicy : DataPolicy} {stopRunIds : List String} {expectedBindingEpoch : Option Nat}
    (h : s.beginUninstall fresh installationId dataPolicy stopRunIds expectedBindingEpoch = .ok o)
    (ha : o.assigned = some s') : s.Keeps deletes s' := by
  unfold beginUninstall at h
  obtain ⟨installation, hinstallation, h⟩ := Calls.ok_of_bind h
  obtain ⟨binding, -, h⟩ := Calls.ok_of_bind h
  obtain ⟨_, -, h⟩ := Calls.ok_of_bind h
  obtain ⟨dataset, -, h⟩ := Calls.ok_of_bind h
  cases h
  cases ha
  exact .of_same (owners_withInstallation hinstallation rfl rfl rfl rfl) rfl

theorem completeUninstall_keeps {deletes : ResourceId → Prop} {operationId : Nat}
    (h : s.completeUninstall operationId = .ok o) (ha : o.assigned = some s') : s.Keeps deletes s' := by
  unfold completeUninstall at h
  obtain ⟨plan, -, h⟩ := Calls.ok_of_bind h
  split at h
  · cases h
    cases ha
    exact .of_same rfl rfl
  · obtain ⟨installation, hinstallation, h⟩ := Calls.ok_of_bind h
    split at h
    · cases h
    · cases h
      cases ha
      exact .of_same (owners_withInstallation hinstallation rfl rfl rfl rfl) rfl

/-! Calls that write resources again. -/

theorem bumpResourceRevision_keeps {deletes : ResourceId → Prop} {resourceId : ResourceId}
    (h : s.bumpResourceRevision resourceId = .ok o) (ha : o.assigned = some s') : s.Keeps deletes s' := by
  unfold bumpResourceRevision at h
  split at h
  · cases h
  · cases h
    cases ha
    refine ⟨rfl, _, rfl, fun stored => ?_⟩
    dsimp only
    split
    · exact ⟨rfl, rfl, .inl⟩
    · exact ⟨rfl, rfl, .inl⟩

theorem markResourceCleanup_keeps {operationId : Nat} {resourceId : ResourceId} {item : CleanupItem}
    (h : s.markResourceCleanup operationId resourceId item = .ok o) (ha : o.assigned = some s') :
    s.Keeps (fun id => id = resourceId ∧ item.outcome = .deleted) s' := by
  unfold markResourceCleanup at h
  obtain ⟨plan, -, h⟩ := Calls.ok_of_bind h
  obtain ⟨_, -, h⟩ := Calls.ok_of_bind h
  cases h
  cases ha
  refine ⟨rfl, _, rfl, fun stored => ?_⟩
  dsimp only
  split
  · next hid =>
    refine ⟨rfl, rfl, fun hdeleted => ?_⟩
    rw [decide_eq_true_eq] at hid
    cases houtcome : item.outcome with
    | deleted => exact .inr ⟨hid, rfl⟩
    | retained => rw [houtcome] at hdeleted; cases hdeleted
    | pending => rw [houtcome] at hdeleted; exact .inl hdeleted
    | blocked => rw [houtcome] at hdeleted; exact .inl hdeleted
    | externalUnconfirmed => rw [houtcome] at hdeleted; exact .inl hdeleted
  · exact ⟨rfl, rfl, .inl⟩

theorem registerCertification_keeps {outside : Outside} {certification : Certification}
    (h : s.registerCertification outside certification = .ok o) (ha : o.assigned = some s') :
    s.Keeps (fun _ => False) s' := by
  unfold registerCertification at h
  obtain ⟨_, -, h⟩ := Calls.ok_of_bind h
  split at h
  · obtain ⟨_, -, h⟩ := Calls.ok_of_bind h
    cases h
    cases ha
  · cases h
    cases ha
    exact .of_same rfl rfl

/-! Calls that add resources. -/

/-- A new installation, with its directories. -/
theorem install_adds {request : InstallRequest} (h : s.install request = .ok o) (ha : o.assigned = some s') :
    ∃ record : InstallationRecord, record.owner.datasetId = record.datasetId ∧
      (∀ installation ∈ s.installations, installation.installationId ≠ record.installationId) ∧
      s'.installations = s.installations ++ [record] ∧
      s'.resources = s.resources ++ directories.map fun directory =>
        makeResource record directory.1 directory.2 .directory true := by
  unfold install at h
  obtain ⟨_, -, h⟩ := Calls.ok_of_bind h
  obtain ⟨_, -, h⟩ := Calls.ok_of_bind h
  obtain ⟨_, hnew, h⟩ := Calls.ok_of_bind h
  obtain ⟨_, -, h⟩ := Calls.ok_of_bind h
  obtain ⟨_, -, h⟩ := Calls.ok_of_bind h
  obtain ⟨_, -, h⟩ := Calls.ok_of_bind h
  obtain ⟨_, -, h⟩ := Calls.ok_of_bind h
  obtain ⟨_, -, h⟩ := Calls.ok_of_bind h
  obtain ⟨_, -, h⟩ := Calls.ok_of_bind h
  cases h
  cases ha
  refine ⟨_, rfl, ?_, rfl, rfl⟩
  have hnone := require_ok hnew
  simpa using hnone

/-- What a creation answers is registered, or registered now. -/
theorem createResource_adds {outside : Outside} {installationId relativePath category : String}
    {reconstructible : Bool} {pathKind : PathKind}
    (h : s.createResource outside installationId relativePath category reconstructible pathKind = .ok o) :
    ∃ installation root, s.installation installationId = .ok installation ∧
      outside.resourcePath installationId relativePath = .ok root ∧ root = false ∧ namesProtected relativePath = false ∧
      ((∃ stored ∈ s.resources, stored.resource.installationId = installationId ∧ stored.relativePath = relativePath ∧
          o = .returns (.resource stored.resource)) ∨
        (∀ stored ∈ s.resources, stored.resource.installationId = installationId → stored.relativePath ≠ relativePath) ∧
          o = .replaces { s with
            resources := s.resources ++ [makeResource installation relativePath category pathKind reconstructible] }
              (.resource (makeResource installation relativePath category pathKind reconstructible).resource)) := by
  unfold createResource at h
  obtain ⟨installation, hinstallation, h⟩ := Calls.ok_of_bind h
  obtain ⟨_, -, h⟩ := Calls.ok_of_bind h
  obtain ⟨root, hroot, h⟩ := Calls.ok_of_bind h
  obtain ⟨_, hopen, h⟩ := Calls.ok_of_bind h
  have hnot := require_ok hopen
  have hboth : root = false ∧ namesProtected relativePath = false := by
    simpa [namesProtected, Bool.or_assoc] using hnot
  refine ⟨installation, root, hinstallation, hroot, hboth.1, hboth.2, ?_⟩
  split at h
  · next existing hfind =>
    cases h
    have hparts := List.find?_some hfind
    simp only [Bool.and_eq_true, decide_eq_true_eq] at hparts
    exact .inl ⟨existing, List.mem_of_find?_eq_some hfind, hparts.1, hparts.2, rfl⟩
  · next hfind =>
    obtain ⟨_, -, h⟩ := Calls.ok_of_bind h
    obtain ⟨_, -, h⟩ := Calls.ok_of_bind h
    cases h
    refine .inr ⟨?_, rfl⟩
    simpa [List.find?_eq_none] using hfind

/-! ### What holds of every state -/

/-- Resources are registered under their paths for what their installations own, and no file twice. -/
structure Filed (s : RegistryState) : Prop where
  owned : ∀ installationId owner, s.owners installationId = some owner → owner.2.datasetId = owner.1
  named : ∀ stored ∈ s.resources,
    stored.resource.resourceId = ⟨stored.resource.installationId, stored.relativePath⟩
  managed : ∀ stored ∈ s.resources, stored.resource.storage = .managedDirectory
  kept : ∀ stored ∈ s.resources, ∃ owner, s.owners stored.resource.installationId = some owner ∧
    owner.1 = stored.resource.owner.datasetId
  files : (s.resources.map (·.file)).Nodup

/-- A resource that is registered and not deleted. -/
def Live (s : RegistryState) (resource : Resource) : Prop :=
  ∃ stored ∈ s.resources, stored.resource = resource ∧ stored.status ≠ .deleted

theorem Filed.of_empty : Filed {} where
  owned := nofun
  named := List.forall_mem_nil _
  managed := List.forall_mem_nil _
  kept := List.forall_mem_nil _
  files := List.nodup_nil

theorem Filed.keeps {deletes : ResourceId → Prop} (hi : s.Filed) (h : s.Keeps deletes s') : s'.Filed := by
  obtain ⟨howners, f, hresources, hf⟩ := h
  have hmem (stored) (hstored : stored ∈ s'.resources) : ∃ old ∈ s.resources, f old = stored := by
    rw [hresources] at hstored
    exact List.mem_map.mp hstored
  refine ⟨?_, ?_, ?_, ?_, ?_⟩
  · rw [howners]
    exact hi.owned
  · intro stored hstored
    obtain ⟨old, hold, rfl⟩ := hmem stored hstored
    rw [(hf old).1, (hf old).2.1]
    exact hi.named old hold
  · intro stored hstored
    obtain ⟨old, hold, rfl⟩ := hmem stored hstored
    rw [(hf old).1]
    exact hi.managed old hold
  · intro stored hstored
    obtain ⟨old, hold, rfl⟩ := hmem stored hstored
    rw [(hf old).1, howners]
    exact hi.kept old hold
  · have hfiles : s'.resources.map (·.file) = s.resources.map (·.file) := by
      rw [hresources, List.map_map]
      refine List.map_congr_left fun old _ => ?_
      simp only [Function.comp_apply, StoredResource.file, (hf old).1, (hf old).2.1]
    rw [hfiles]
    exact hi.files

theorem Live.keeps {deletes : ResourceId → Prop} {resource : Resource} (hlive : s.Live resource)
    (h : s.Keeps deletes s') (hnot : ¬ deletes resource.resourceId) : s'.Live resource := by
  obtain ⟨-, f, hresources, hf⟩ := h
  obtain ⟨stored, hstored, hresource, hstatus⟩ := hlive
  refine ⟨f stored, by rw [hresources]; exact List.mem_map_of_mem hstored, (hf stored).1.trans hresource, fun hdeleted => ?_⟩
  exact ((hf stored).2.2 hdeleted).elim hstatus fun hdeletes => hnot (hresource ▸ hdeletes)

theorem Live.append {resource : Resource} {more : List StoredResource} (hlive : s.Live resource)
    (hresources : s'.resources = s.resources ++ more) : s'.Live resource := by
  obtain ⟨stored, hstored, hboth⟩ := hlive
  exact ⟨stored, by rw [hresources]; exact List.mem_append_left more hstored, hboth⟩

/-- The installation of a resource is registered. -/
theorem Filed.installed (hi : s.Filed) {stored : StoredResource} (hstored : stored ∈ s.resources) :
    ∃ installation ∈ s.installations, installation.installationId = stored.resource.installationId := by
  obtain ⟨owner, howner, -⟩ := hi.kept stored hstored
  obtain ⟨installation, hfind, -⟩ := Option.map_eq_some_iff.mp howner
  exact ⟨installation, List.mem_of_find?_eq_some hfind, by simpa using List.find?_some hfind⟩

/-- Another installation's owner is as before. -/
theorem owners_append {record : InstallationRecord} (hinstallations : s'.installations = s.installations ++ [record])
    (hnew : ∀ installation ∈ s.installations, installation.installationId ≠ record.installationId)
    (installationId : String) :
    s'.owners installationId =
      if installationId = record.installationId then some (record.datasetId, record.owner) else s.owners installationId := by
  unfold owners
  rw [hinstallations, List.find?_append]
  split
  · next heq =>
    have hnone : s.installations.find? (·.installationId = installationId) = none := by
      rw [heq]
      simpa [List.find?_eq_none] using hnew
    rw [hnone]
    simp [heq]
  · next hne => cases hfind : s.installations.find? (·.installationId = installationId) <;> simp [Ne.symm hne]

theorem directories_files : (directories.map fun directory => parts directory.1).Nodup := by decide +kernel

theorem Filed.install (hi : s.Filed) {request : InstallRequest} (h : s.install request = .ok o)
    (ha : o.assigned = some s') : s'.Filed := by
  obtain ⟨record, howner, hnew, hinstallations, hresources⟩ := install_adds h ha
  have howners := owners_append hinstallations hnew
  have hold (stored) (hstored : stored ∈ s.resources) :
      s'.owners stored.resource.installationId = s.owners stored.resource.installationId := by
    obtain ⟨installation, hmem, heq⟩ := hi.installed hstored
    rw [howners, if_neg fun hsame => hnew installation hmem (heq.trans hsame)]
  have hmem (stored) (hstored : stored ∈ s'.resources) : stored ∈ s.resources ∨
      ∃ directory ∈ directories, makeResource record directory.1 directory.2 .directory true = stored := by
    rw [hresources] at hstored
    exact (List.mem_append.mp hstored).imp_right List.mem_map.mp
  refine ⟨?_, ?_, ?_, ?_, ?_⟩
  · intro installationId owner hsome
    rw [howners] at hsome
    split at hsome
    · rw [← Option.some.inj hsome]
      exact howner
    · exact hi.owned installationId owner hsome
  · intro stored hstored
    rcases hmem stored hstored with hin | ⟨directory, -, rfl⟩
    · exact hi.named stored hin
    · rfl
  · intro stored hstored
    rcases hmem stored hstored with hin | ⟨directory, -, rfl⟩
    · exact hi.managed stored hin
    · rfl
  · intro stored hstored
    rcases hmem stored hstored with hin | ⟨directory, -, rfl⟩
    · rw [hold stored hin]
      exact hi.kept stored hin
    · exact ⟨(record.datasetId, record.owner), (howners _).trans (if_pos rfl), howner.symm⟩
  · have hdirectories : ((directories.map fun directory => parts directory.1).map (Prod.mk record.installationId)).Nodup :=
      directories_files.map fun _ _ heq => (Prod.mk.inj heq).2
    rw [hresources, List.map_append, List.map_map]
    rw [List.map_map] at hdirectories
    refine List.nodup_append'.mpr ⟨hi.files, hdirectories, ?_⟩
    intro file hin hdirectory
    obtain ⟨stored, hstored, rfl⟩ := List.mem_map.mp hin
    obtain ⟨directory, -, heq⟩ := List.mem_map.mp hdirectory
    obtain ⟨installation, hmem, hid⟩ := hi.installed hstored
    exact hnew installation hmem (hid.trans (Prod.mk.inj heq).1.symm)

/-- Whether a creation names a file that it may have: none of the package or the configuration unless it is refused,
none that is registered under another text, and no deleted resource. -/
def Clear (s : RegistryState) (installationId relativePath : String) : Prop :=
  (isProtected (parts relativePath) = true → namesProtected relativePath = true) ∧
    ∀ stored ∈ s.resources, stored.file = (installationId, parts relativePath) →
      stored.relativePath = relativePath ∧ stored.status ≠ .deleted

theorem Filed.create (hi : s.Filed) {outside : Outside} {installationId relativePath category : String}
    {reconstructible : Bool} {pathKind : PathKind} (hclear : s.Clear installationId relativePath)
    (h : s.createResource outside installationId relativePath category reconstructible pathKind = .ok o)
    (ha : o.assigned = some s') : s'.Filed := by
  obtain ⟨installation, _, hinstallation, -, -, -, hcase⟩ := createResource_adds h
  obtain ⟨hmem, hid⟩ := installation_ok hinstallation
  rcases hcase with ⟨stored, -, -, -, rfl⟩ | ⟨hnone, rfl⟩
  · cases ha
  · cases ha
    have hfound : s.owners installation.installationId = some (installation.datasetId, installation.owner) := by
      unfold owners
      rw [hid, orRaise_ok hinstallation]
      rfl
    refine ⟨hi.owned, ?_, ?_, ?_, ?_⟩
    · exact List.forall_mem_append.mpr ⟨hi.named, List.forall_mem_singleton.mpr rfl⟩
    · exact List.forall_mem_append.mpr ⟨hi.managed, List.forall_mem_singleton.mpr rfl⟩
    · refine List.forall_mem_append.mpr ⟨hi.kept, List.forall_mem_singleton.mpr ⟨_, hfound, ?_⟩⟩
      exact (hi.owned _ _ hfound).symm
    · rw [List.map_append, List.map_singleton]
      refine List.nodup_append'.mpr ⟨hi.files, List.nodup_singleton _, List.disjoint_singleton.mpr fun hin => ?_⟩
      obtain ⟨stored, hstored, hfile⟩ := List.mem_map.mp hin
      have hfile : stored.file = (installationId, parts relativePath) := by rw [hfile, ← hid]; rfl
      exact hnone stored hstored (Prod.mk.inj hfile).1 (hclear.2 stored hstored hfile).1

/-- The only row that matches is found. -/
theorem find?_of_unique {α : Type} {rows : List α} {p : α → Bool} {row : α} (hrow : row ∈ rows) (hp : p row = true)
    (h : ∀ other ∈ rows, p other = true → other = row) : rows.find? p = some row := by
  cases hfind : rows.find? p with
  | none => exact absurd hp (List.find?_eq_none.mp hfind row hrow)
  | some found => rw [h found (List.mem_of_find?_eq_some hfind) (List.find?_some hfind)]

/-- A live index is looked up where its path is not refused. -/
theorem Live.lookup {resource : Resource} (hlive : s.Live resource) (hi : s.Filed) (hindex : resource.category = "index")
    {lstat : String → Location → Lstat} {location : Location}
    (hpath : managedPath (lstat resource.installationId) resource.resourceId.relativePath = .ok location) :
    s.lookup lstat resource.installationId resource.resourceId = .ok (some (resource, location)) := by
  obtain ⟨stored, hstored, rfl, hstatus⟩ := hlive
  obtain ⟨owner, howner, hdataset⟩ := hi.kept stored hstored
  obtain ⟨installation, hinstallation, rfl⟩ := Option.map_eq_some_iff.mp howner
  have hdataset : stored.resource.owner.datasetId = installation.datasetId := hdataset.symm
  have hfound : s.resources.find? (fun other =>
      other.resource.resourceId = stored.resource.resourceId && other.resource.owner.datasetId = installation.datasetId &&
        (other.resource.installationId = stored.resource.installationId ||
          other.resource.consumerIds.contains stored.resource.installationId) && other.status ≠ .deleted) =
      some stored := by
    refine find?_of_unique hstored (by simp [hdataset, hstatus]) fun other hother hsame => ?_
    simp only [Bool.and_eq_true, decide_eq_true_eq] at hsame
    have hnamed := hsame.1.1.1
    rw [hi.named other hother, hi.named stored hstored, ResourceId.mk.injEq] at hnamed
    refine eq_of_key hi.files hother hstored ?_
    rw [StoredResource.file, StoredResource.file, hnamed.1, hnamed.2]
  have hlookup : s.resourceLookup stored.resource.installationId stored.resource.resourceId = .ok (some stored.resource) := by
    unfold resourceLookup RegistryState.installation
    rw [hinstallation]
    show Except.ok _ = Except.ok _
    rw [hfound]
    exact congrArg Except.ok (if_pos ⟨hindex, hi.managed stored hstored⟩)
  rw [RegistryState.lookup, hlookup]
  show (managedPath _ _ >>= _) = _
  rw [hpath]
  rfl

end RegistryState

/-! ### Calls -/

/-- What a request must meet. -/
def Request.Clear (request : Request) (s : RegistryState) : Prop :=
  match request.call with
  | .createResource installationId relativePath .. => s.Clear installationId relativePath
  | _ => True

/-- A request deletes a resource. -/
def Request.Deletes (request : Request) (resourceId : ResourceId) : Prop :=
  match request.call with
  | .markResourceCleanup _ id item => resourceId = id ∧ item.outcome = .deleted
  | _ => False

namespace Registry
variable {r : Registry} {request : Request}

/-- What an outcome assigns is the next state. -/
theorem perform_assigned {o : Outcome} {s : RegistryState} {writes : Bool} (h : o.assigned = some s) :
    (r.perform (.ok o) writes).2.state = s := by
  unfold perform
  dsimp only
  rw [h]
  cases writes <;> rfl

theorem perform_state (outcome : Except Raised Outcome) (writes : Bool) :
    (r.perform outcome writes).2.state = r.state ∨
      ∃ o s, outcome = .ok o ∧ o.assigned = some s ∧ (r.perform outcome writes).2.state = s := by
  cases outcome with
  | error error => exact .inl rfl
  | ok o =>
    cases hassigned : o.assigned with
    | none =>
      unfold perform
      dsimp only
      rw [hassigned]
      exact .inl rfl
    | some s => exact .inr ⟨o, s, rfl, hassigned, perform_assigned hassigned⟩

theorem perform_reply {outcome : Except Raised Outcome} {writes : Bool} {reply : Reply}
    (h : (r.perform outcome writes).1 = .ok reply) : ∃ o, outcome = .ok o ∧ o.reply = .ok reply := by
  unfold perform at h
  cases outcome with
  | error error => cases h
  | ok o =>
    dsimp only at h
    split at h
    · exact ⟨o, rfl, h⟩
    · split at h
      · exact ⟨o, rfl, h⟩
      · cases h

/-- What every assigned state has, the next state has. -/
theorem perform_keeps {P : RegistryState → Prop} (hi : P r.state) {outcome : Except Raised Outcome} {writes : Bool}
    (h : ∀ o s, outcome = .ok o → o.assigned = some s → P s) : P (r.perform outcome writes).2.state := by
  rcases perform_state outcome writes with hsame | ⟨o, s, ho, hs, hstate⟩
  · rw [hsame]
    exact hi
  · rw [hstate]
    exact h o s ho hs

/-- A call acts on the state that it meets; only an installation registers a certification before. -/
theorem call_keeps {P : RegistryState → Prop} {call : Call} {outside : Outside} {writes : Bool} (hi : P r.state)
    (hcertification : ∀ s certification o s', P s → s.registerCertification outside certification = .ok o →
      o.assigned = some s' → P s')
    (hcall : ∀ s fresh o s', P s → (s = r.state ∨ ∃ request, call = .install request) →
      call.outcome outside fresh s = .ok o → o.assigned = some s' → P s') : P (r.call call outside writes).2.state := by
  unfold Registry.call
  split
  · next request =>
    split
    · exact hi
    · split
      · exact perform_keeps hi fun o s ho hs => hcall r.state r.fresh o s hi (.inl rfl) ho hs
      · next certification _ =>
        have hregistered : P (r.perform (r.state.registerCertification outside certification) writes).2.state :=
          perform_keeps hi fun o s ho hs => hcertification r.state certification o s hi ho hs
        split
        · next error r' heq =>
          rw [heq] at hregistered
          exact hregistered
        · next reply r' heq =>
          rw [heq] at hregistered
          exact perform_keeps hregistered fun o s ho hs =>
            hcall r'.state r'.fresh o s hregistered (.inr ⟨request, rfl⟩) ho hs
  · exact perform_keeps hi fun o s ho hs => hcall r.state r.fresh o s hi (.inl rfl) ho hs

/-- A request that adds no resource keeps them. -/
theorem request_keeps {s s' : RegistryState} {fresh : Nat} {o : Outcome}
    (h : request.call.outcome request.outside fresh s = .ok o) (ha : o.assigned = some s') :
    s.Keeps request.Deletes s' ∨ (∃ install, request.call = .install install) ∨
      ∃ installationId relativePath category reconstructible pathKind,
        request.call = .createResource installationId relativePath category reconstructible pathKind := by
  obtain ⟨call, outside, writes, lstat, located, about⟩ := request
  cases call with
  | install request => exact .inr (.inl ⟨request, rfl⟩)
  | createResource installationId relativePath category reconstructible pathKind =>
    exact .inr (.inr ⟨installationId, relativePath, category, reconstructible, pathKind, rfl⟩)
  | bind => exact .inl (RegistryState.bind_keeps h ha)
  | enable => exact .inl (RegistryState.enable_keeps h ha)
  | beginDisable => exact .inl (RegistryState.beginDisable_keeps h ha)
  | completeDisable => exact .inl (RegistryState.completeDisable_keeps h ha)
  | markFailed => exact .inl (RegistryState.markFailed_keeps h ha)
  | bumpResourceRevision => exact .inl (RegistryState.bumpResourceRevision_keeps h ha)
  | beginUninstall => exact .inl (RegistryState.beginUninstall_keeps h ha)
  | markResourceCleanup => exact .inl (RegistryState.markResourceCleanup_keeps h ha)
  | completeUninstall => exact .inl (RegistryState.completeUninstall_keeps h ha)
  | registerCertification | revokeCertification | setGlobalEnabled | configureMaintenance | createRun | releaseRun
  | assertLease | attachDatasetConsumer | revokeDatasetConsumer | transferDataset => exact about.elim

theorem next_filed (hi : r.state.Filed) (hclear : request.Clear r.state) : (r.next request).state.Filed := by
  refine call_keeps (P := RegistryState.Filed) hi
    (fun s certification o s' hs ho ha => hs.keeps (RegistryState.registerCertification_keeps ho ha))
    fun s fresh o s' hs hstate ho ha => ?_
  rcases request_keeps ho ha with hkeeps | ⟨install, hinstall⟩ | ⟨installationId, path, category, rec, kind, hcreate⟩
  · exact hs.keeps hkeeps
  · rw [hinstall] at ho
    exact hs.install ho ha
  · rw [hcreate] at ho hstate
    obtain rfl : s = r.state := hstate.resolve_right fun ⟨_, hinstall⟩ => by cases hinstall
    rw [Request.Clear, hcreate] at hclear
    exact hs.create hclear ho ha

theorem next_live {resource : Resource} (hi : r.state.Live resource) (hnot : ¬ request.Deletes resource.resourceId) :
    (r.next request).state.Live resource := by
  refine call_keeps (P := fun s => s.Live resource) hi
    (fun s certification o s' hs ho ha => hs.keeps (RegistryState.registerCertification_keeps ho ha) id)
    fun s fresh o s' hs _ ho ha => ?_
  rcases request_keeps ho ha with hkeeps | ⟨install, hinstall⟩ | ⟨installationId, path, category, rec, kind, hcreate⟩
  · exact hs.keeps hkeeps hnot
  · rw [hinstall] at ho
    obtain ⟨record, -, -, -, hresources⟩ := RegistryState.install_adds ho ha
    exact hs.append hresources
  · rw [hcreate] at ho
    obtain ⟨installation, root, -, -, -, -, hcase⟩ := RegistryState.createResource_adds ho
    rcases hcase with ⟨_, _, _, _, rfl⟩ | ⟨_, rfl⟩
    · cases ha
    · cases ha
      exact hs.append rfl

/-- What a creation answers is live, and its file is one that it may have. -/
theorem create_answer (hi : r.state.Filed) {installationId relativePath category : String} {reconstructible : Bool}
    {pathKind : PathKind} {reply : Reply}
    (hcall : request.call = .createResource installationId relativePath category reconstructible pathKind)
    (hclear : request.Clear r.state) (h : r.answer request = .ok reply) :
    parts relativePath ≠ [] ∧ ['.', '.'] ∉ parts relativePath ∧ isProtected (parts relativePath) = false ∧
      ∃ resource, reply = .resource resource ∧ resource.resourceId = ⟨installationId, relativePath⟩ ∧
        resource.installationId = installationId ∧ (r.next request).state.Live resource := by
  unfold answer at h
  unfold next
  rw [Request.Clear, hcall] at hclear
  rw [hcall] at h ⊢
  obtain ⟨o, ho, hreply⟩ := perform_reply h
  obtain ⟨installation, root, hinstallation, hroot, rfl, hunnamed, hcase⟩ := RegistryState.createResource_adds ho
  obtain ⟨hmem, hid⟩ := RegistryState.installation_ok hinstallation
  rw [request.located] at hroot
  unfold resourcePath at hroot
  obtain ⟨location, hlocation, hnotroot⟩ := Calls.ok_of_bind hroot
  obtain ⟨rfl, hdots⟩ := managedPath_ok hlocation
  have hne : parts relativePath ≠ [] := by simpa using Except.ok.inj hnotroot
  have hprotected : isProtected (parts relativePath) = false := by
    cases hcheck : isProtected (parts relativePath) with
    | false => rfl
    | true => exact absurd (hclear.1 hcheck) (by rw [hunnamed]; exact Bool.false_ne_true)
  refine ⟨hne, hdots, hprotected, ?_⟩
  rcases hcase with ⟨stored, hstored, hinst, hpath, rfl⟩ | ⟨-, rfl⟩
  · refine ⟨stored.resource, (Except.ok.inj hreply).symm, by rw [hi.named stored hstored, hinst, hpath], hinst, ?_⟩
    have hfile : stored.file = (installationId, parts relativePath) := by rw [StoredResource.file, hinst, hpath]
    exact perform_keeps (P := fun s => s.Live stored.resource) ⟨stored, hstored, rfl, (hclear.2 stored hstored hfile).2⟩
      fun o s ho' hs => by
        rw [show Call.outcome _ _ _ _ = _ from ho] at ho'
        cases ho'
        cases hs
  · refine ⟨_, (Except.ok.inj hreply).symm, by rw [← hid]; rfl, hid, ?_⟩
    have hnext : r.call (.createResource installationId relativePath category reconstructible pathKind) request.outside
        request.writes = r.perform (.ok (.replaces _ _)) request.writes := congrArg (r.perform · request.writes) ho
    rw [hnext, perform_assigned rfl]
    exact ⟨_, List.mem_append_right _ (List.mem_singleton_self _), rfl, nofun⟩

/-! ### Runs -/

/-- Every request of a run meets what it must. -/
def ClearRun (r : Registry) : List Request → Prop
  | [] => True
  | request :: rest => request.Clear r.state ∧ (r.next request).ClearRun rest

theorem clearRun_append {before after : List Request} (h : r.ClearRun (before ++ after)) :
    r.ClearRun before ∧ (r.serve before).ClearRun after := by
  induction before generalizing r with
  | nil => exact ⟨trivial, h⟩
  | cons request rest ih => exact ⟨⟨h.1, (ih h.2).1⟩, (ih h.2).2⟩

theorem serve_filed {requests : List Request} (hi : r.state.Filed) (h : r.ClearRun requests) :
    (r.serve requests).state.Filed := by
  induction requests generalizing r with
  | nil => exact hi
  | cons request rest ih => exact ih (next_filed hi h.1) h.2

theorem serve_live {requests : List Request} {resource : Resource} (hi : r.state.Live resource)
    (h : ∀ request ∈ requests, ¬ request.Deletes resource.resourceId) : (r.serve requests).state.Live resource := by
  induction requests generalizing r with
  | nil => exact hi
  | cons request rest ih =>
    obtain ⟨hfirst, hrest⟩ := List.forall_mem_cons.mp h
    exact ih (next_live hi hfirst) hrest

end Registry

/-- What is promised of the resources in a run from an empty registry. -/
structure OneFile (requests : List Request) : Prop where
  /-- Every accepted path is one below the root, and none of the package or the configuration. -/
  inside : ∀ before request after installationId relativePath category reconstructible pathKind reply,
    requests = before ++ request :: after →
    request.call = .createResource installationId relativePath category reconstructible pathKind →
    (Registry.serve {} before).answer request = .ok reply →
    parts relativePath ≠ [] ∧ ['.', '.'] ∉ parts relativePath ∧ isProtected (parts relativePath) = false
  /-- Two resources are never one file. -/
  apart : ∀ before after, requests = before ++ after →
    ((Registry.serve {} before).state.resources.map (·.file)).Nodup
  /-- An index that a creation returned is found until it is deleted. -/
  found : ∀ before request after installationId relativePath category reconstructible pathKind resource,
    requests = before ++ request :: after →
    request.call = .createResource installationId relativePath category reconstructible pathKind →
    privateIndex ((Registry.serve {} before).answer request) = .ok resource →
    (∀ later ∈ after, ¬ later.Deletes resource.resourceId) →
    ∀ lstat location, managedPath (lstat installationId) relativePath = .ok location →
      (Registry.serve {} requests).state.lookup lstat installationId resource.resourceId = .ok (some (resource, location))

theorem privateIndex_ok {answer : Except Raised Reply} {resource : Resource} (h : privateIndex answer = .ok resource) :
    answer = .ok (.resource resource) ∧ resource.category = "index" := by
  unfold privateIndex at h
  split at h
  · split at h
    · next hindex =>
      rw [← Except.ok.inj h]
      exact ⟨rfl, hindex.1⟩
    · cases h
  · cases h
  · cases h

/-- In every run in which creations name files that they may have, each resource is a file of its own. -/
theorem clearRun_oneFile (requests : List Request) (h : Registry.ClearRun {} requests) : OneFile requests where
  inside before request after installationId relativePath category reconstructible pathKind reply heq hcall hreply := by
    rw [heq] at h
    obtain ⟨hbefore, hrequest, -⟩ := Registry.clearRun_append h
    have hfiled := Registry.serve_filed RegistryState.Filed.of_empty hbefore
    obtain ⟨hne, hdots, hprotected, -⟩ := Registry.create_answer hfiled hcall hrequest hreply
    exact ⟨hne, hdots, hprotected⟩
  apart before after heq := by
    rw [heq] at h
    exact (Registry.serve_filed RegistryState.Filed.of_empty (Registry.clearRun_append h).1).files
  found before request after installationId relativePath category reconstructible pathKind resource heq hcall hindex
      hkept lstat location hpath := by
    rw [heq] at h ⊢
    obtain ⟨hbefore, hrequest, hafter⟩ := Registry.clearRun_append h
    have hfiled := Registry.serve_filed RegistryState.Filed.of_empty hbefore
    obtain ⟨hanswer, hcategory⟩ := privateIndex_ok hindex
    obtain ⟨-, -, -, x, hx, hid, hinstallation, hlive⟩ := Registry.create_answer hfiled hcall hrequest hanswer
    obtain rfl : resource = x := Reply.resource.inj hx
    have hserve : Registry.serve {} (before ++ request :: after) =
        (((Registry.serve {} before).next request).serve after) := List.foldl_append
    rw [hserve, ← hinstallation]
    refine (Registry.serve_live hlive hkept).lookup
      (Registry.serve_filed (Registry.next_filed hfiled hrequest) hafter) hcategory ?_
    rw [hid, hinstallation]
    exact hpath

/-! An installation with an index. -/

def emptyDisk (_ : String) (_ : Location) : Lstat := .absent

def indexOutside : Outside where
  now := 0
  trustedIssuers := []
  verifyPackage _ := .ok ()
  resourcePath := resourcePath emptyDisk
  ensureManagedResource := .ok ()

def installed : Request where
  call := .install {
    manifest := ⟨"plugin", "1", "1", ["1"], "digest", "none", "none"⟩
    package := ⟨true, .ok "digest", .ok (), false, .ok ()⟩
    datasetId := "d"
    principalId := "user"
    certification := none
    config := ⟨"config", 0, true⟩
    installationId := "p" }
  outside := indexOutside
  writes := true
  lstat := emptyDisk
  located := rfl
  about := trivial

def indexed (relativePath : String) : Request where
  call := .createResource "p" relativePath "index" true .file
  outside := indexOutside
  writes := true
  lstat := emptyDisk
  located := rfl
  about := trivial

theorem indexed_clear : Registry.ClearRun {} [installed, indexed "indexes/a"] := by
  refine ⟨trivial, ?_, trivial⟩
  show RegistryState.Clear _ "p" "indexes/a"
  unfold RegistryState.Clear
  decide +kernel

theorem clearRun_oneFile_indexed : OneFile [installed, indexed "indexes/a"] := clearRun_oneFile _ indexed_clear

/-- Two texts of one path are two resources. -/
theorem indexed_twice_not_oneFile : ¬ OneFile [installed, indexed "indexes/a", indexed "indexes//a"] := by
  intro h
  have hfiles := h.apart _ [] (List.append_nil _).symm
  revert hfiles
  decide +kernel

end Operant.Plugins
