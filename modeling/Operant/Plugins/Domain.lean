import Operant.Scheduler.Domain

/-! The records of the plugin registry.

Ids that `new_id` makes are numbers. The id of a resource holds a digest of its path; here it
holds the path. -/
namespace Operant.Plugins
open Operant.Scheduler

inductive Scope where
  | workspace (projectId workspaceId : String)
  | session (projectId workspaceId sessionId : String)
  | run (projectId workspaceId runId : String) (writerId : Option String)
  | personal (principalId optInGrantId : String)
  deriving DecidableEq

structure DatasetOwner where
  datasetId : String
  principalId : String
  deriving DecidableEq

structure PluginManifest where
  pluginId : String
  pluginVersion : String
  sdkVersion : String
  hostApiVersions : List String
  packageDigest : String
  dependenciesDigest : String
  permissionsDigest : String
  deriving DecidableEq

structure PluginConfig where
  configId : String
  revision : Nat
  maintenanceEnabled : Bool
  deriving DecidableEq

inductive CertificationState where
  | valid
  | revoked
  | expired
  deriving DecidableEq

structure Certification where
  certificationId : String
  issuerId : String
  pluginId : String
  pluginVersion : String
  packageDigest : String
  dependenciesDigest : String
  permissionsDigest : String
  lifecycleEvidenceDigest : String
  allowedModes : List String
  validFrom : Instant
  expiresAt : Instant
  revocationEpoch : Nat
  state : CertificationState
  signatureRef : String
  deriving DecidableEq

/-! ### Installations and bindings -/

inductive PluginLifecycleState where
  | disabled
  | enabled
  | disabling
  | uninstalling
  | uninstalled
  | failed
  | restartRequired
  | blocked
  deriving DecidableEq

structure InstallationRecord where
  installationId : String
  manifest : PluginManifest
  datasetId : String
  owner : DatasetOwner
  state : PluginLifecycleState
  bindingId : Option Nat := none
  config : Option PluginConfig := none
  certificationId : Option String := none
  bindingEpoch : Nat := 0
  permissionEpoch : Nat := 0
  inventoryRevision : Nat := 0
  lastErrorCode : Option String := none
  deriving DecidableEq

structure BindingRecord where
  bindingId : Nat
  installationId : String
  datasetId : String
  config : PluginConfig
  enabled : Bool := false
  globalEnabled : Bool := true
  bindingEpoch : Nat := 0
  permissionEpoch : Nat := 0
  activeRunIds : List String := []
  deriving DecidableEq

/-! ### Runs -/

/-- How a run is released. -/
inductive RunEnd where
  | cancelled
  | completed
  | expired
  deriving DecidableEq

inductive LeaseStatus where
  | active
  | ended (how : RunEnd)
  deriving DecidableEq

structure RunLease where
  leaseId : Nat
  runId : String
  bindingId : Nat
  installationId : String
  datasetId : String
  scope : Scope
  bindingEpoch : Nat
  permissionEpoch : Nat
  leaseFencing : Nat
  expiresAt : Instant
  status : LeaseStatus := .active
  deriving DecidableEq

def RunLease.isActive (lease : RunLease) : Bool := lease.status = .active

/-- What `assert_lease` reads of a request. -/
structure RpcContext where
  installationId : String
  datasetId : String
  scope : Scope
  bindingEpoch : Nat
  permissionEpoch : Nat
  leaseFencing : Nat
  deriving DecidableEq

/-! ### Resources -/

inductive Storage where
  | coreRows
  | managedDirectory
  | sharedDependency
  | external
  deriving DecidableEq

inductive PathKind where
  | file
  | directory
  deriving DecidableEq

/-- `resource_<installation>_<digest of the path>`. -/
structure ResourceId where
  installationId : String
  relativePath : String
  deriving DecidableEq

structure Resource where
  resourceId : ResourceId
  owner : DatasetOwner
  installationId : String
  storage : Storage
  category : String
  consumerIds : List String
  retentionLockIds : List String
  reconstructible : Bool
  deriving DecidableEq

inductive ResourceStatus where
  | active
  | retained
  | deleted
  deriving DecidableEq

structure StoredResource where
  resource : Resource
  relativePath : String
  pathKind : PathKind
  revision : Nat := 0
  status : ResourceStatus := .active
  deriving DecidableEq

/-! ### Datasets and cleanup plans -/

inductive DatasetState where
  | bound
  | retained
  | deleting
  | deleted
  | blocked
  deriving DecidableEq

structure DatasetRecord where
  datasetId : String
  owner : DatasetOwner
  installationId : Option String
  state : DatasetState
  revision : Nat := 0
  deriving DecidableEq

inductive DataPolicy where
  | keep
  | delete
  deriving DecidableEq

inductive CleanupOutcome where
  | pending
  | deleted
  | retained
  | blocked
  | externalUnconfirmed
  deriving DecidableEq

inductive CleanupReason where
  | exclusive
  | keepSelected
  | sharedConsumer
  | retentionLock
  | activeRun
  | directoryIdentityChanged
  | externalResource
  | retryRequired
  deriving DecidableEq

structure CleanupItem where
  resourceId : ResourceId
  outcome : CleanupOutcome
  reason : CleanupReason
  blockerIds : List String
  deriving DecidableEq

inductive PlanState where
  | pending
  | completed
  | blocked
  deriving DecidableEq

structure CleanupPlanRecord where
  operationId : Nat
  installationId : String
  dataPolicy : DataPolicy
  inventoryRevision : Nat
  expectedBindingEpoch : Nat
  items : List CleanupItem
  state : PlanState := .pending
  deriving DecidableEq

/-! ### The registry's state -/

structure RegistryState where
  installations : List InstallationRecord := []
  bindings : List BindingRecord := []
  certifications : List Certification := []
  resources : List StoredResource := []
  runs : List RunLease := []
  cleanupPlans : List CleanupPlanRecord := []
  datasets : List DatasetRecord := []
  revokedEpochs : List (String × Nat) := []
  deriving DecidableEq

inductive Raised where
  | plugin (code message : String)
  | value (message : String)
  | stopIteration
  | os
  deriving DecidableEq

namespace Raised

def packageUnavailable (message : String) : Raised := .plugin "package_unavailable" message

def permissionDenied (message : String) : Raised := .plugin "permission_denied" message

end Raised
end Operant.Plugins
