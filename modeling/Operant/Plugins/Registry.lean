import Operant.Calls.Program
import Operant.Plugins.Domain
import Operant.Tables.Rows
import Mathlib.Data.List.Sort

/-! The operations of the plugin registry.

An operation reads the state that is held in memory, and says what it assigns to it, if
anything, and what it then answers. What the file system, the clock and the packages answer is
an argument. -/
namespace Operant.Plugins
open Operant.Scheduler Operant.Tables

/-- What an operation returns. -/
inductive Reply where
  | done
  | certification (certification : Certification)
  | epoch (epoch : Nat)
  | installation (installation : InstallationRecord)
  | binding (binding : BindingRecord)
  | lease (lease : RunLease)
  | resource (resource : Resource)
  | dataset (dataset : DatasetRecord)
  | revision (revision : Nat)
  | plan (plan : CleanupPlanRecord)
  deriving DecidableEq

structure Outcome where
  assigned : Option RegistryState
  reply : Except Raised Reply

namespace Outcome

def returns (reply : Reply) : Outcome := ⟨none, .ok reply⟩

/-- `_replace`, and the return after it. -/
def replaces (s : RegistryState) (reply : Reply) : Outcome := ⟨some s, .ok reply⟩

end Outcome

/-- What is met outside of the registry. -/
structure Outside where
  now : Instant
  trustedIssuers : List String
  /-- `verify_package`. -/
  verifyPackage : String → Except Raised Unit
  /-- Whether a path of an installation is its root; a path may be refused. -/
  resourcePath : String → String → Except Raised Bool
  ensureManagedResource : Except Raised Unit

def require (condition : Bool) (error : Raised) : Except Raised Unit :=
  if condition then .ok () else .error error

theorem require_ok {condition : Bool} {error : Raised} {u : Unit} (h : require condition error = .ok u) :
    condition = true := by
  unfold require at h
  split at h
  · assumption
  · exact nomatch h

/-- A record that is looked for. -/
def orRaise {α : Type} (item : Option α) (error : Raised) : Except Raised α :=
  match item with
  | some item => .ok item
  | none => .error error

theorem orRaise_ok {α : Type} {item : Option α} {error : Raised} {a : α} (h : orRaise item error = .ok a) :
    item = some a := by
  cases item with
  | none => exact nomatch h
  | some b =>
    cases h
    rfl

/-- `_ID_RE`. -/
def isId (value : String) : Bool :=
  match value.toList with
  | [] => false
  | first :: rest => first.isAlphanum && rest.length ≤ 199 &&
    rest.all fun c => c.isAlphanum || ['_', '.', ':', '-'].contains c

def validateId (value label : String) : Except Raised Unit :=
  require (isId value) (.value (label ++ " is invalid"))

/-! ### Installing -/

/-- What the file system says of the package that is installed. -/
structure Package where
  absolute : Bool
  /-- `compute_package_digest`. -/
  digest : Except Raised String
  /-- `_validate_package_metadata`. -/
  metadata : Except Raised Unit
  /-- The managed directory is there already. -/
  directoryExists : Bool
  /-- The copy, its directories, and its digest once more. -/
  copied : Except Raised Unit

structure InstallRequest where
  manifest : PluginManifest
  package : Package
  datasetId : String
  principalId : String
  certification : Option Certification
  config : PluginConfig
  installationId : String

/-- What is checked before anything is written. -/
def checkPackage (request : InstallRequest) : Except Raised Unit := do
  require request.package.absolute (.packageUnavailable "plugin package path must be absolute")
  let digest ← request.package.digest
  require (digest = request.manifest.packageDigest)
    (.packageUnavailable "plugin package digest does not match manifest")
  require (request.manifest.hostApiVersions.contains request.manifest.sdkVersion)
    (.plugin "protocol_mismatch" "plugin manifest does not support the Host SDK")

def validateCertificationBinding (certification : Certification) (manifest : PluginManifest) :
    Except Raised Unit :=
  require (certification.pluginId = manifest.pluginId && certification.pluginVersion = manifest.pluginVersion &&
      certification.packageDigest = manifest.packageDigest &&
      certification.dependenciesDigest = manifest.dependenciesDigest &&
      certification.permissionsDigest = manifest.permissionsDigest)
    (.plugin "certification_invalid" "certification does not bind this package")

/-- A certification that is given binds the package. -/
def checkCertification (request : InstallRequest) : Except Raised Unit :=
  match request.certification with
  | some certification => do
    validateCertificationBinding certification request.manifest
    request.package.metadata
  | none => .ok ()

def makeResource (installation : InstallationRecord) (relativePath category : String) (pathKind : PathKind)
    (reconstructible : Bool) : StoredResource where
  resource :=
    { resourceId := ⟨installation.installationId, relativePath⟩
      owner := installation.owner
      installationId := installation.installationId
      storage := .managedDirectory
      category := category
      consumerIds := [installation.installationId]
      retentionLockIds := []
      reconstructible := reconstructible }
  relativePath := relativePath
  pathKind := pathKind

/-- The directories of an installation, and their categories. -/
def directories : List (String × String) :=
  [("package", "package"), ("data", "state"), ("config", "config"), ("state", "state"), ("indexes", "index"),
    ("cache", "cache"), ("tmp", "tmp"), ("logs", "log")]

/-! ### Resources -/

/-- `resource.model_copy(update={"consumer_ids": ..})`. -/
def StoredResource.withConsumers (stored : StoredResource) (consumerIds : List String) : StoredResource :=
  { stored with resource := { stored.resource with consumerIds := consumerIds } }

/-- One more consumer, if it is none. -/
def StoredResource.addConsumer (installationId : String) (stored : StoredResource) : StoredResource :=
  if stored.resource.consumerIds.contains installationId then stored
  else stored.withConsumers (stored.resource.consumerIds ++ [installationId])

inductive TransferMode where
  | transfer
  | authorizedCopy
  deriving DecidableEq

structure TransferRequest where
  sourceDatasetId : String
  destinationDatasetId : String
  destinationInstallationId : String
  expectedRevision : Nat
  mode : TransferMode

/-! ### Cleanup -/

def keepCategories : List String :=
  ["record", "version", "proposal", "relation", "observation", "manifest", "config", "state"]

/-- What is planned for a resource. -/
def cleanupItem (installationId : String) (dataPolicy : DataPolicy) (transferredOwner : Bool)
    (blockers : List String) (resource : Resource) : CleanupItem :=
  if transferredOwner then ⟨resource.resourceId, .retained, .keepSelected, []⟩
  else if resource.consumerIds.any (· ≠ installationId) then
    ⟨resource.resourceId, .blocked, .sharedConsumer, resource.consumerIds⟩
  else if resource.retentionLockIds ≠ [] then
    ⟨resource.resourceId, .blocked, .retentionLock, resource.retentionLockIds⟩
  else if blockers ≠ [] then
    ⟨resource.resourceId, .blocked, .activeRun, blockers.dedup.insertionSort fun a b => a ≤ b⟩
  else if dataPolicy = .keep ∧ resource.category ∈ keepCategories then
    ⟨resource.resourceId, .retained, .keepSelected, []⟩
  else ⟨resource.resourceId, .pending, .exclusive, []⟩

/-- The dataset belongs to another installation by now. -/
def isTransferred (dataset : DatasetRecord) (installationId : String) : Bool :=
  dataset.installationId.any (· ≠ installationId) && dataset.state = .bound

/-- The item is not finished. -/
def CleanupItem.isUnfinished (item : CleanupItem) : Bool :=
  item.outcome = .pending || item.outcome = .blocked || item.outcome = .externalUnconfirmed

/-! ### Records -/

namespace RegistryState
variable (s : RegistryState)

def installation (installationId : String) : Except Raised InstallationRecord :=
  orRaise (s.installations.find? (·.installationId = installationId))
    (.packageUnavailable "plugin installation is not registered")

def binding (bindingId : Nat) : Except Raised BindingRecord :=
  orRaise (s.bindings.find? (·.bindingId = bindingId))
    (.packageUnavailable "plugin binding is not registered")

def dataset (datasetId : String) : Except Raised DatasetRecord :=
  orRaise (s.datasets.find? (·.datasetId = datasetId))
    (.plugin "unknown_owner" "plugin dataset is not registered")

def run (leaseId : Nat) : Except Raised RunLease :=
  orRaise (s.runs.find? (·.leaseId = leaseId))
    (.plugin "lease_expired" "plugin Run lease is unknown")

def cleanupPlan (operationId : Nat) : Except Raised CleanupPlanRecord :=
  orRaise (s.cleanupPlans.find? (·.operationId = operationId))
    (.plugin "cleanup_blocked" "cleanup plan is unknown")

/-- The binding of an installation, if it has one. -/
def bindingOf (installation : InstallationRecord) : Except Raised (Option BindingRecord) :=
  match installation.bindingId with
  | some bindingId => (s.binding bindingId).map some
  | none => .ok none

def withInstallation (updated : InstallationRecord) : List InstallationRecord :=
  update s.installations (·.installationId = updated.installationId) fun _ => updated

def withBinding (updated : BindingRecord) : List BindingRecord :=
  update s.bindings (·.bindingId = updated.bindingId) fun _ => updated

def withDataset (updated : DatasetRecord) : List DatasetRecord :=
  update s.datasets (·.datasetId = updated.datasetId) fun _ => updated

def withPlan (updated : CleanupPlanRecord) : List CleanupPlanRecord :=
  update s.cleanupPlans (·.operationId = updated.operationId) fun _ => updated

/-! ### Certifications -/

def registerCertification (outside : Outside) (certification : Certification) : Except Raised Outcome := do
  require (outside.trustedIssuers.contains certification.issuerId)
    (.plugin "certification_invalid" "certification issuer is not Host trusted")
  match s.certifications.find? (·.certificationId = certification.certificationId) with
  | some existing => do
    require (existing = certification) (.plugin "certification_invalid" "certification record changed")
    return .returns (.certification certification)
  | none =>
    return .replaces { s with certifications := s.certifications ++ [certification] } (.certification certification)

/-- `_revoked_epochs[certification_id] = epoch`. -/
def withRevoked (certificationId : String) (epoch : Nat) : List (String × Nat) :=
  if s.revokedEpochs.any (·.1 = certificationId) then
    update s.revokedEpochs (·.1 = certificationId) fun _ => (certificationId, epoch)
  else s.revokedEpochs ++ [(certificationId, epoch)]

def revokeCertification (certificationId : String) : Except Raised Outcome := do
  match s.certifications.find? (·.certificationId = certificationId) with
  | none => throw (.plugin "certification_invalid" "certification is not registered")
  | some certification => do
    let current := (s.revokedEpochs.lookup certificationId).getD certification.revocationEpoch
    let epoch := max current certification.revocationEpoch + 1
    -- The installation of each binding.
    let held ← s.bindings.mapM fun binding => s.installation binding.installationId
    let affected := (held.filter (·.certificationId = some certificationId)).map (·.installationId)
    return .replaces { s with
      revokedEpochs := s.withRevoked certificationId epoch
      bindings := update s.bindings (affected.contains ·.installationId) fun binding =>
        { binding with
          bindingEpoch := binding.bindingEpoch + 1
          permissionEpoch := binding.permissionEpoch + 1
          enabled := false }
      installations := update s.installations (affected.contains ·.installationId) fun installation =>
        { installation with
          state := .failed
          bindingEpoch := installation.bindingEpoch + 1
          permissionEpoch := installation.permissionEpoch + 1
          lastErrorCode := some "certification_invalid" } } (.epoch epoch)

/-! ### Installing -/

/-- `install`, once the certification is registered. -/
def install (request : InstallRequest) : Except Raised Outcome := do
  checkCertification request
  validateId request.installationId "installation_id"
  require (!s.installations.any (·.installationId = request.installationId))
    (.packageUnavailable "installation_id is already registered")
  validateId request.datasetId "dataset_id"
  require (((s.datasets.find? (·.datasetId = request.datasetId)).all fun dataset =>
      dataset.state = .retained && dataset.owner.principalId = request.principalId))
    (.plugin "unknown_owner" "dataset is not eligible for explicit reinstallation")
  validateId request.principalId "principal_id"
  require (!request.package.directoryExists) (.packageUnavailable "managed installation directory already exists")
  request.package.copied
  -- `owner_namespace` has no colon after its first.
  require (!request.datasetId.toList.contains ':') (.value "owner_namespace")
  let owner : DatasetOwner := ⟨request.datasetId, request.principalId⟩
  let record : InstallationRecord := {
    installationId := request.installationId
    manifest := request.manifest
    datasetId := request.datasetId
    owner := owner
    state := .disabled
    config := some request.config
    certificationId := request.certification.map (·.certificationId) }
  return .replaces { s with
    installations := s.installations ++ [record]
    resources := s.resources ++ directories.map fun directory =>
      makeResource record directory.1 directory.2 .directory true
    datasets := s.datasets.filter (·.datasetId ≠ request.datasetId) ++ [{
      datasetId := request.datasetId
      owner := owner
      installationId := some request.installationId
      state := .bound }] } (.installation record)

/-! ### Bindings -/

/-- `new_id` gives `fresh`. -/
def bind (fresh : Nat) (installationId : String) (datasetId : Option String) (config : Option PluginConfig)
    (globalEnabled : Bool) : Except Raised Outcome := do
  let installation ← s.installation installationId
  require (installation.state ≠ .uninstalled)
    (.packageUnavailable "uninstalled plugin must be explicitly installed again")
  match installation.bindingId with
  | some bindingId => do
    let binding ← s.binding bindingId
    return .returns (.binding binding)
  | none => do
    require (datasetId.all (· = installation.datasetId))
      (.plugin "unknown_owner" "binding dataset does not match installation owner")
    match config.or installation.config with
    | none => throw (.plugin "protocol_mismatch" "plugin binding requires a configuration")
    | some bindingConfig => do
      let binding : BindingRecord := {
        bindingId := fresh
        installationId := installationId
        datasetId := installation.datasetId
        config := bindingConfig
        enabled := false
        globalEnabled := globalEnabled
        bindingEpoch := installation.bindingEpoch
        permissionEpoch := installation.permissionEpoch }
      return .replaces { s with
        installations := s.withInstallation { installation with
          bindingId := some fresh
          config := some bindingConfig }
        bindings := s.bindings ++ [binding] } (.binding binding)

def enable (outside : Outside) (bindingId : Nat) : Except Raised Outcome := do
  let binding ← s.binding bindingId
  let installation ← s.installation binding.installationId
  require binding.globalEnabled (.permissionDenied "global plugin disable is a hard barrier")
  require (installation.state ≠ .uninstalling && installation.state ≠ .uninstalled)
    (.packageUnavailable "plugin is being removed")
  outside.verifyPackage installation.installationId
  let updated := { binding with enabled := true, bindingEpoch := binding.bindingEpoch + 1 }
  return .replaces { s with
    bindings := s.withBinding updated
    installations := s.withInstallation { installation with
      state := .enabled
      bindingEpoch := binding.bindingEpoch + 1
      lastErrorCode := none } } (.binding updated)

def beginDisable (bindingId : Nat) (stopRunIds : List String) : Except Raised Outcome := do
  let binding ← s.binding bindingId
  require (binding.activeRunIds.all stopRunIds.contains)
    (.plugin "cleanup_blocked" "active Run depends on this plugin binding")
  let updated := { binding with enabled := false, bindingEpoch := binding.bindingEpoch + 1 }
  let installation ← s.installation binding.installationId
  return .replaces { s with
    bindings := s.withBinding updated
    installations := s.withInstallation { installation with
      state := .disabling
      bindingEpoch := binding.bindingEpoch + 1 } } (.binding updated)

def completeDisable (bindingId : Nat) (failed : Option String) (restartRequired : Bool) :
    Except Raised Outcome := do
  let binding ← s.binding bindingId
  let installation ← s.installation binding.installationId
  let state : PluginLifecycleState :=
    if restartRequired then .restartRequired else if failed.any (· ≠ "") then .failed else .disabled
  return .replaces { s with
    installations := s.withInstallation { installation with state := state, lastErrorCode := failed } }
    (.binding binding)

def markFailed (installationId code : String) : Except Raised Outcome := do
  let installation ← s.installation installationId
  let updated := { installation with state := .failed, lastErrorCode := some code }
  return .replaces { s with installations := s.withInstallation updated } (.installation updated)

def setGlobalEnabled (bindingId : Nat) (enabled : Bool) : Except Raised Outcome := do
  let binding ← s.binding bindingId
  return .replaces { s with bindings := s.withBinding { binding with globalEnabled := enabled } } .done

def configureMaintenance (bindingId : Nat) (enabled : Bool) : Except Raised Outcome := do
  let binding ← s.binding bindingId
  let installation ← s.installation binding.installationId
  require (installation.state ≠ .uninstalled) (.packageUnavailable "cannot configure an uninstalled plugin")
  if binding.config.maintenanceEnabled = enabled then return .returns (.binding binding)
  else
    let config := { binding.config with maintenanceEnabled := enabled, revision := binding.config.revision + 1 }
    let updated := { binding with config := config }
    return .replaces { s with
      bindings := s.withBinding updated
      installations := s.withInstallation { installation with config := some config } } (.binding updated)

/-! ### Runs -/

/-- The highest fencing number of a binding. -/
def maxFencing (bindingId : Nat) : Nat :=
  ((s.runs.filter (·.bindingId = bindingId)).map (·.leaseFencing)).foldl max 0

def createRun (outside : Outside) (fresh bindingId : Nat) (runId : String) (scope : Scope) (ttl : Instant) :
    Except Raised Outcome := do
  let binding ← s.binding bindingId
  require binding.enabled (.permissionDenied "plugin binding is not enabled")
  validateId runId "run_id"
  require (!binding.activeRunIds.contains runId)
    (.plugin "revision_conflict" "Run already has an active plugin dependency")
  let installation ← s.installation binding.installationId
  let lease : RunLease := {
    leaseId := fresh
    runId := runId
    bindingId := binding.bindingId
    installationId := installation.installationId
    datasetId := installation.datasetId
    scope := scope
    bindingEpoch := binding.bindingEpoch
    permissionEpoch := binding.permissionEpoch
    leaseFencing := s.maxFencing bindingId + 1
    expiresAt := outside.now + ttl }
  return .replaces { s with
    bindings := s.withBinding { binding with activeRunIds := binding.activeRunIds ++ [runId] }
    runs := s.runs ++ [lease] } (.lease lease)

/-- `max(.., key=lambda item: item.lease_fencing)`, item by item: the first of the highest. -/
def highest (best : Option RunLease) (item : RunLease) : Option RunLease :=
  match best with
  | none => some item
  | some held => if held.leaseFencing < item.leaseFencing then some item else some held

/-- The active lease of the same run with the highest fencing number. -/
def currentActive (lease : RunLease) : Option RunLease :=
  (s.runs.filter fun item =>
    item.isActive && item.bindingId = lease.bindingId && item.runId = lease.runId).foldl highest none

def releaseRun (leaseId : Nat) (how : RunEnd) : Except Raised Outcome := do
  let lease ← s.run leaseId
  if !lease.isActive then return .returns (.lease lease)
  else
    let updated := { lease with status := .ended how }
    let binding ← s.binding lease.bindingId
    let ownsActiveSlot := (s.currentActive lease).any fun current =>
      current.leaseId = lease.leaseId && current.leaseFencing = lease.leaseFencing
    let updatedBinding :=
      if ownsActiveSlot then { binding with activeRunIds := binding.activeRunIds.filter (· ≠ lease.runId) }
      else binding
    return .replaces { s with
      runs := update s.runs (·.leaseId = leaseId) fun _ => updated
      bindings := s.withBinding updatedBinding } (.lease updated)

def assertLease (outside : Outside) (lease : RunLease) (context : RpcContext) (verifyPackage : Bool) :
    Except Raised Outcome := do
  let current ← s.run lease.leaseId
  require (current.isActive && outside.now < current.expiresAt)
    (.plugin "lease_expired" "plugin Run lease is no longer active")
  let binding ← s.binding lease.bindingId
  let installation ← s.installation lease.installationId
  require (current = lease && context.scope = lease.scope && context.installationId = lease.installationId &&
      context.datasetId = lease.datasetId && context.bindingEpoch = lease.bindingEpoch &&
      context.permissionEpoch = lease.permissionEpoch && context.leaseFencing = lease.leaseFencing &&
      binding.bindingEpoch = lease.bindingEpoch && binding.permissionEpoch = lease.permissionEpoch &&
      binding.enabled && binding.globalEnabled && installation.state = .enabled)
    (.plugin "stale_epoch" "plugin request is bound to a stale or disabled binding")
  if verifyPackage then outside.verifyPackage installation.installationId else pure ()
  return .returns .done

/-- `_fence_recovered_runs`: what a new host makes of the state that it has loaded, if anything. -/
def fenceRecoveredRuns : Option RegistryState :=
  let active := s.runs.filter (·.isActive)
  if active = [] then none
  else
    let bindings := update s.bindings (fun binding => active.any (·.bindingId = binding.bindingId)) fun binding =>
      { binding with activeRunIds := [], bindingEpoch := binding.bindingEpoch + 1 }
    some { s with
      runs := update s.runs (fun item => active.any (·.leaseId = item.leaseId)) fun item =>
        { item with status := .ended .expired }
      bindings := bindings
      installations := s.installations.map fun installation =>
        match bindings.find? (·.installationId = installation.installationId) with
        | none => installation
        | some recovered => { installation with bindingEpoch := recovered.bindingEpoch } }

/-! ### Resources -/

def createResource (outside : Outside) (installationId relativePath category : String) (reconstructible : Bool)
    (pathKind : PathKind) : Except Raised Outcome := do
  let installation ← s.installation installationId
  require (installation.state ≠ .uninstalling && installation.state ≠ .uninstalled)
    (.permissionDenied "plugin resource registration is closed")
  let root ← outside.resourcePath installationId relativePath
  require (!(root || relativePath.startsWith "package/" || relativePath.startsWith "config/"))
    (.permissionDenied "plugin cannot register outside its private data directories")
  match s.resources.find? fun item =>
      item.resource.installationId = installationId && item.relativePath = relativePath with
  | some existing => return .returns (.resource existing.resource)
  | none => do
    outside.ensureManagedResource
    require (["package", "config", "state", "index", "cache", "tmp", "log", "record", "version", "proposal",
        "relation", "observation", "manifest", "job", "subscription"].contains category)
      (.plugin "unsupported" "unsupported Host resource category")
    let stored := makeResource installation relativePath category pathKind reconstructible
    return .replaces { s with resources := s.resources ++ [stored] } (.resource stored.resource)

/-- `resource_lookup`. -/
def resourceLookup (installationId : String) (resourceId : ResourceId) : Except Raised (Option Resource) := do
  let installation ← s.installation installationId
  return (s.resources.find? fun stored =>
      stored.resource.resourceId = resourceId && stored.resource.owner.datasetId = installation.datasetId &&
        (stored.resource.installationId = installationId || stored.resource.consumerIds.contains installationId) &&
        stored.status ≠ .deleted).bind fun stored =>
    if stored.resource.category = "index" ∧ stored.resource.storage = .managedDirectory then some stored.resource
    else none

def attachDatasetConsumer (datasetId installationId : String) : Except Raised Outcome := do
  let _ ← s.installation installationId
  let _ ← s.dataset datasetId
  let changed := s.resources.any fun stored =>
    stored.resource.owner.datasetId = datasetId && !stored.resource.consumerIds.contains installationId
  if changed then
    return .replaces { s with
      resources := update s.resources (·.resource.owner.datasetId = datasetId) (StoredResource.addConsumer installationId) } .done
  else return .returns .done

def revokeDatasetConsumer (datasetId installationId : String) : Except Raised Outcome := do
  let _ ← s.dataset datasetId
  let touched (stored : StoredResource) : Bool :=
    stored.resource.owner.datasetId = datasetId && stored.resource.installationId ≠ installationId
  let changed := s.resources.any fun stored => touched stored && stored.resource.consumerIds.contains installationId
  if changed then
    return .replaces { s with
      resources := update s.resources touched fun stored =>
        stored.withConsumers (stored.resource.consumerIds.filter (· ≠ installationId)) } .done
  else return .returns .done

def bumpResourceRevision (resourceId : ResourceId) : Except Raised Outcome := do
  match (s.resources.filter (·.resource.resourceId = resourceId)).getLast? with
  | none => throw (.permissionDenied "resource is not registered")
  | some stored =>
    return .replaces { s with
      resources := update s.resources (·.resource.resourceId = resourceId) fun stored =>
        { stored with revision := stored.revision + 1 } } (.revision (stored.revision + 1))

/-! ### Transfers -/

/-- `transfer_dataset`, where the owner changes. -/
def transferOwner (request : TransferRequest) (source : DatasetRecord) (installation : InstallationRecord) :
    Except Raised Outcome := do
  require (installation.state = .disabled || installation.state = .failed || installation.state = .blocked)
    (.permissionDenied "destination installation must be stopped before dataset transfer")
  let binding ← s.bindingOf installation
  require (binding.all fun binding => !binding.enabled && binding.activeRunIds.isEmpty)
    (.permissionDenied "destination binding must be disabled with no active Runs")
  let oldDestination ← s.dataset installation.datasetId
  require (installation.datasetId ≠ request.sourceDatasetId)
    (.plugin "revision_conflict" "destination dataset identity is ambiguous")
  require (oldDestination.installationId = some request.destinationInstallationId)
    (.plugin "unknown_owner" "destination installation dataset is inconsistent")
  let owner : DatasetOwner := ⟨request.sourceDatasetId, installation.owner.principalId⟩
  let updated := { source with
    owner := owner
    installationId := some request.destinationInstallationId
    state := .bound
    revision := source.revision + 1 }
  let retained := { oldDestination with
    installationId := none
    state := .retained
    revision := oldDestination.revision + 1 }
  return .replaces { s with
    bindings := match binding with
      | none => s.bindings
      | some binding => s.withBinding { binding with
        datasetId := request.sourceDatasetId
        permissionEpoch := binding.permissionEpoch + 1
        activeRunIds := []
        enabled := false }
    installations := s.withInstallation { installation with
      datasetId := request.sourceDatasetId
      owner := owner
      permissionEpoch := installation.permissionEpoch + 1 }
    datasets := s.datasets.map fun item =>
      if item.datasetId = request.sourceDatasetId then updated
      else if item.datasetId = installation.datasetId then retained
      else item
    resources := update s.resources (·.resource.owner.datasetId = request.sourceDatasetId)
      (StoredResource.addConsumer request.destinationInstallationId) } (.dataset updated)

def transferDataset (request : TransferRequest) : Except Raised Outcome := do
  let source ← s.dataset request.sourceDatasetId
  let destination ← s.dataset request.destinationDatasetId
  let installation ← s.installation request.destinationInstallationId
  require (source.revision = request.expectedRevision ||
      request.mode = .transfer && source.installationId = some request.destinationInstallationId)
    (.plugin "stale_epoch" "dataset transfer revision is stale")
  match request.mode with
  | .transfer => do
    require (request.sourceDatasetId = request.destinationDatasetId)
      (.plugin "unknown_owner" "transfer must preserve dataset identity")
    if source.installationId = some request.destinationInstallationId then return .returns (.dataset source)
    else s.transferOwner request source installation
  | .authorizedCopy => do
    require (request.sourceDatasetId ≠ request.destinationDatasetId)
      (.plugin "unknown_owner" "authorized_copy requires a new dataset id")
    require (installation.datasetId = request.destinationDatasetId)
      (.plugin "unknown_owner" "destination installation does not own the copied dataset")
    if destination.installationId = some request.destinationInstallationId ∧ destination.state = .bound then
      return .returns (.dataset destination)
    else
      let updated := { destination with
        owner := installation.owner
        installationId := some request.destinationInstallationId
        state := .bound
        revision := destination.revision + 1 }
      return .replaces { s with datasets := s.withDataset updated } (.dataset updated)

/-! ### Uninstalling -/

/-- `resources_for`. -/
def resourcesFor (installation : InstallationRecord) : List StoredResource :=
  s.resources.filter fun item =>
    item.status ≠ .deleted && item.resource.owner.datasetId = installation.datasetId &&
      (item.resource.installationId = installation.installationId ||
        item.resource.consumerIds.contains installation.installationId)

def beginUninstall (fresh : Nat) (installationId : String) (dataPolicy : DataPolicy) (stopRunIds : List String)
    (expectedBindingEpoch : Option Nat) : Except Raised Outcome := do
  let installation ← s.installation installationId
  let binding ← s.bindingOf installation
  let epoch := (binding.map (·.bindingEpoch)).getD installation.bindingEpoch
  require (expectedBindingEpoch.all (· = epoch)) (.plugin "stale_epoch" "uninstall inventory is stale")
  let blockers := ((binding.map (·.activeRunIds)).getD []).filter (!stopRunIds.contains ·)
  let dataset ← s.dataset installation.datasetId
  let transferredOwner := isTransferred dataset installationId
  let plan : CleanupPlanRecord := {
    operationId := fresh
    installationId := installationId
    dataPolicy := dataPolicy
    inventoryRevision := installation.inventoryRevision
    expectedBindingEpoch := epoch
    items := (s.resourcesFor installation).map fun stored =>
      cleanupItem installationId dataPolicy transferredOwner blockers stored.resource
    state := if blockers = [] then .pending else .blocked }
  return .replaces { s with
    installations := s.withInstallation { installation with
      state := .uninstalling
      bindingEpoch := epoch + 1 }
    cleanupPlans := s.cleanupPlans ++ [plan]
    datasets := s.withDataset { dataset with
      state := if transferredOwner then dataset.state else .deleting
      revision := if transferredOwner then dataset.revision else dataset.revision + 1 } } (.plan plan)

def markResourceCleanup (operationId : Nat) (resourceId : ResourceId) (item : CleanupItem) :
    Except Raised Outcome := do
  let plan ← s.cleanupPlan operationId
  require (plan.items.any (·.resourceId = resourceId))
    (.plugin "cleanup_blocked" "resource is not part of the cleanup inventory")
  let updated := { plan with items := update plan.items (·.resourceId = resourceId) fun _ => item }
  return .replaces { s with
    cleanupPlans := s.withPlan updated
    resources := update s.resources (·.resource.resourceId = resourceId) fun stored =>
      { stored with status := match item.outcome with
        | .deleted => .deleted
        | .retained => .retained
        | .pending | .blocked | .externalUnconfirmed => stored.status } } (.plan updated)

def completeUninstall (operationId : Nat) : Except Raised Outcome := do
  let plan ← s.cleanupPlan operationId
  if plan.items.any CleanupItem.isUnfinished then
    -- The plan is written before the exception is raised.
    return ⟨some { s with cleanupPlans := s.withPlan { plan with state := .blocked } },
      .error (.plugin "cleanup_blocked" "cleanup plan still contains unfinished resources")⟩
  else do
    let installation ← s.installation plan.installationId
    match s.datasets.find? (·.datasetId = installation.datasetId) with
    | none => throw .stopIteration
    | some dataset =>
      let retained := plan.items.any (·.outcome = .retained)
      let ownsDataset := dataset.installationId.all (· = plan.installationId)
      let updatedDataset :=
        if ownsDataset then { dataset with
          state := if retained then .retained else .deleted
          installationId := none
          revision := dataset.revision + 1 }
        else dataset
      let completed := { plan with state := .completed }
      return .replaces { s with
        installations := s.withInstallation { installation with
          state := .uninstalled
          bindingId := none
          config := none }
        bindings := s.bindings.filter (·.installationId ≠ plan.installationId)
        datasets := s.withDataset updatedDataset
        cleanupPlans := s.withPlan completed } (.plan completed)

end RegistryState
end Operant.Plugins
