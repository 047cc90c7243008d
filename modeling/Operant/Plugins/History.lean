import Operant.Plugins.Registry

/-! Histories of a registry.

An operation assigns the state in memory and then writes it to the state file; the write may fail.
A restart reads the state file again. -/
namespace Operant.Plugins
open Operant.Scheduler

/-- A registry's process and its state file. -/
structure Registry where
  state : RegistryState := {}
  stored : RegistryState := {}
  /-- What `new_id` gives next. -/
  fresh : Nat := 0

inductive Call where
  | registerCertification (certification : Certification)
  | revokeCertification (certificationId : String)
  | install (request : InstallRequest)
  | bind (installationId : String) (datasetId : Option String) (config : Option PluginConfig) (globalEnabled : Bool)
  | enable (bindingId : Nat)
  | beginDisable (bindingId : Nat) (stopRunIds : List String)
  | completeDisable (bindingId : Nat) (failed : Option String) (restartRequired : Bool)
  | markFailed (installationId code : String)
  | setGlobalEnabled (bindingId : Nat) (enabled : Bool)
  | configureMaintenance (bindingId : Nat) (enabled : Bool)
  | createRun (bindingId : Nat) (runId : String) (scope : Scope) (ttl : Instant)
  | releaseRun (leaseId : Nat) (how : RunEnd)
  | assertLease (lease : RunLease) (context : RpcContext) (verifyPackage : Bool)
  | createResource (installationId relativePath category : String) (reconstructible : Bool) (pathKind : PathKind)
  | attachDatasetConsumer (datasetId installationId : String)
  | revokeDatasetConsumer (datasetId installationId : String)
  | bumpResourceRevision (resourceId : ResourceId)
  | transferDataset (request : TransferRequest)
  | beginUninstall (installationId : String) (dataPolicy : DataPolicy) (stopRunIds : List String)
      (expectedBindingEpoch : Option Nat)
  | markResourceCleanup (operationId : Nat) (resourceId : ResourceId) (item : CleanupItem)
  | completeUninstall (operationId : Nat)

/-- What a call does, but for the registration of a certification that `install` begins with. -/
def Call.outcome (call : Call) (outside : Outside) (fresh : Nat) (s : RegistryState) : Except Raised Outcome :=
  match call with
  | .registerCertification certification => s.registerCertification outside certification
  | .revokeCertification certificationId => s.revokeCertification certificationId
  | .install request => s.install request
  | .bind installationId datasetId config globalEnabled => s.bind fresh installationId datasetId config globalEnabled
  | .enable bindingId => s.enable outside bindingId
  | .beginDisable bindingId stopRunIds => s.beginDisable bindingId stopRunIds
  | .completeDisable bindingId failed restartRequired => s.completeDisable bindingId failed restartRequired
  | .markFailed installationId code => s.markFailed installationId code
  | .setGlobalEnabled bindingId enabled => s.setGlobalEnabled bindingId enabled
  | .configureMaintenance bindingId enabled => s.configureMaintenance bindingId enabled
  | .createRun bindingId runId scope ttl => s.createRun outside fresh bindingId runId scope ttl
  | .releaseRun leaseId how => s.releaseRun leaseId how
  | .assertLease lease context verifyPackage => s.assertLease outside lease context verifyPackage
  | .createResource installationId relativePath category reconstructible pathKind =>
    s.createResource outside installationId relativePath category reconstructible pathKind
  | .attachDatasetConsumer datasetId installationId => s.attachDatasetConsumer datasetId installationId
  | .revokeDatasetConsumer datasetId installationId => s.revokeDatasetConsumer datasetId installationId
  | .bumpResourceRevision resourceId => s.bumpResourceRevision resourceId
  | .transferDataset request => s.transferDataset request
  | .beginUninstall installationId dataPolicy stopRunIds expectedBindingEpoch =>
    s.beginUninstall fresh installationId dataPolicy stopRunIds expectedBindingEpoch
  | .markResourceCleanup operationId resourceId item => s.markResourceCleanup operationId resourceId item
  | .completeUninstall operationId => s.completeUninstall operationId

/-- A call, what it meets, and whether the state file can be written meanwhile; or a restart. -/
inductive Event where
  | call (call : Call) (outside : Outside) (writes : Bool)
  | restart (writes : Bool)

namespace Registry
variable (r : Registry)

/-- The state is assigned, and then written. -/
def perform (outcome : Except Raised Outcome) (writes : Bool) : Except Raised Reply × Registry :=
  match outcome with
  | .error error => (.error error, { r with fresh := r.fresh + 1 })
  | .ok outcome => match outcome.assigned with
    | none => (outcome.reply, { r with fresh := r.fresh + 1 })
    | some s =>
      if writes then (outcome.reply, { state := s, stored := s, fresh := r.fresh + 1 })
      else (.error .os, { r with state := s, fresh := r.fresh + 1 })

/-- A call; `install` registers the certification first, once the package is checked. -/
def call (call : Call) (outside : Outside) (writes : Bool) : Except Raised Reply × Registry :=
  match call with
  | .install request => match checkPackage request with
    | .error error => (.error error, r)
    | .ok () => match request.certification with
      | none => r.perform (call.outcome outside r.fresh r.state) writes
      | some certification => match r.perform (r.state.registerCertification outside certification) writes with
        | (.error error, r) => (.error error, r)
        | (.ok _, r) => r.perform (call.outcome outside r.fresh r.state) writes
  | _ => r.perform (call.outcome outside r.fresh r.state) writes

/-- The state file is read, and the runs in it are fenced. Where that cannot be written, there is no
registry until the next restart. -/
def restart (writes : Bool) : Except Raised Reply × Registry :=
  match r.stored.fenceRecoveredRuns with
  | none => (.ok .done, { r with state := r.stored })
  | some s =>
    if writes then (.ok .done, { state := s, stored := s, fresh := r.fresh + 1 })
    else (.error .os, { r with state := r.stored })

def apply (e : Event) : Except Raised Reply × Registry :=
  match e with
  | .call call outside writes => r.call call outside writes
  | .restart writes => r.restart writes

def run (events : List Event) : Registry := events.foldl (fun r e => (r.apply e).2) r

end Registry
end Operant.Plugins
