/-
# The security manager

The capability tables of `security/src/lib.rs` with the id counter of
`security/src/capability.rs` and the audit log of `security/src/audit.rs`. `NEXT_CAP_ID` is a
static, so it is part of the state beside the manager.
-/

import Aeos.Lib.Machine
import Aeos.Lib.Slots
import Mathlib.Algebra.Group.Nat.Defs

namespace Aeos.Security

open Lib Function

def usizeBound : Nat := 2 ^ 64

def maxCapabilitiesPerTask : Nat := 64

def maxTasks : Nat := 64

inductive SecurityError
  | capabilityNotFound
  | insufficientRights
  | capabilityTableFull
  | invalidResource
  | delegationNotAllowed
  | revocationFailed
  | notInitialized
  deriving DecidableEq

/-! ## Capabilities -/

inductive ResourceType
  | memory
  | ipcChannel
  | device
  | fileSystem
  | network
  | task
  | timer
  deriving DecidableEq

abbrev Rights := BitVec 32

def Rights.grant : Rights := 1 <<< 3

def Rights.contains (r required : Rights) : Bool := r &&& required == required

structure Capability where
  id : Nat
  taskId : Nat
  resourceType : ResourceType
  resourceId : Nat
  rights : Rights
  deriving DecidableEq

def Capability.new (nextCapId taskId : Nat) (resourceType : ResourceType)
  (resourceId : Nat) (rights : Rights) : Capability × Nat :=
  (⟨nextCapId, taskId, resourceType, resourceId, rights⟩, (nextCapId + 1) % usizeBound)

/-! ## Audit log -/

inductive AuditEventType
  | systemStartup
  | capabilityGranted
  | capabilityRevoked
  | capabilityDelegated
  | accessDenied
  | securityViolation
  | taskCreated
  | taskTerminated
  deriving DecidableEq

structure AuditEntry where
  eventType : AuditEventType
  taskId : Nat
  resourceId : Nat
  timestamp : Nat
  deriving DecidableEq

structure AuditLog where
  entries : Nat → AuditEntry
  writeIdx : Nat
  totalEntries : Nat

def AuditLog.new : AuditLog := ⟨fun _ => ⟨.systemStartup, 0, 0, 0⟩, 0, 0⟩

def AuditLog.record (log : AuditLog) (eventType : AuditEventType) (taskId resourceId : Nat) :
  AuditLog where
  entries := update log.entries log.writeIdx ⟨eventType, taskId, resourceId, 0⟩
  writeIdx := (log.writeIdx + 1) % 256
  totalEntries := (log.totalEntries + 1) % usizeBound

/-! ## The manager -/

structure CapabilitySet where
  taskId : Nat
  caps : Slots maxCapabilitiesPerTask Capability
  count : Nat

def CapabilitySet.new : CapabilitySet := ⟨0, fun _ => none, 0⟩

structure SecurityManager where
  capabilities : Nat → CapabilitySet
  auditLog : AuditLog
  initialized : Bool

def SecurityManager.new : SecurityManager := ⟨fun _ => CapabilitySet.new, AuditLog.new, false⟩

structure State where
  manager : SecurityManager
  /-- `NEXT_CAP_ID`. -/
  nextCapId : Nat

def State.caps (s : State) (taskId : Nat) : Slots maxCapabilitiesPerTask Capability :=
  (s.manager.capabilities taskId).caps

def State.setCaps (s : State) (taskId : Nat) (set : CapabilitySet) (eventType : AuditEventType)
  (capId : Nat) : State :=
  { s with
    manager :=
      { s.manager with
        capabilities := update s.manager.capabilities taskId set
        auditLog := s.manager.auditLog.record eventType taskId capId } }

def init (s : State) : Except SecurityError Unit × State :=
  if s.manager.initialized then (.ok (), s)
  else
    let kernel := { s.manager.capabilities 0 with taskId := 0, count := 0 }
    (.ok (), { s with
      manager :=
        { capabilities := update s.manager.capabilities 0 kernel
          auditLog := s.manager.auditLog.record .systemStartup 0 0
          initialized := true } })

def grant (s : State) (taskId : Nat) (resourceType : ResourceType) (resourceId : Nat)
  (rights : Rights) : Except SecurityError Nat × State :=
  if !s.manager.initialized then (.error .notInitialized, s)
  else if maxTasks ≤ taskId then (.error .invalidResource, s)
  else
    let capSet := s.manager.capabilities taskId
    if maxCapabilitiesPerTask ≤ capSet.count then (.error .capabilityTableFull, s)
    else
      let made := Capability.new s.nextCapId taskId resourceType resourceId rights
      let s := { s with nextCapId := made.2 }
      match capSet.caps.position Option.isNone with
      | none => (.error .capabilityTableFull, s)
      | some slot =>
        (.ok made.1.id, s.setCaps taskId
          { capSet with
            caps := update capSet.caps slot (some made.1)
            count := capSet.count + 1 }
          .capabilityGranted made.1.id)

/-- The capability is for this resource, with at least these rights. -/
def Capability.covers (c : Capability) (resourceType : ResourceType) (resourceId : Nat)
  (required : Rights) : Bool :=
  c.resourceType = resourceType && c.resourceId = resourceId && c.rights.contains required

def hasCapability (s : State) (taskId : Nat) (resourceType : ResourceType)
  (resourceId : Nat) (required : Rights) : Bool :=
  if maxTasks ≤ taskId then false
  else
    (s.caps taskId).position
      (fun cap => cap.any fun c => c.covers resourceType resourceId required) |>.isSome

def revoke (s : State) (taskId capId : Nat) : Except SecurityError Unit × State :=
  if !s.manager.initialized then (.error .notInitialized, s)
  else if maxTasks ≤ taskId then (.error .invalidResource, s)
  else
    let capSet := s.manager.capabilities taskId
    match capSet.caps.position fun cap => cap.any fun c => c.id == capId with
    | some slot =>
      (.ok (), s.setCaps taskId
        { capSet with caps := update capSet.caps slot none, count := capSet.count - 1 }
        .capabilityRevoked capId)
    | none => (.error .capabilityNotFound, s)

def source (s : State) (fromTask capId : Nat) : Option Capability :=
  (((s.caps fromTask).position Option.isSome).bind (s.caps fromTask)).filter fun c => c.id == capId

def delegate (s : State) (fromTask toTask capId : Nat) (newRights : Rights) :
  Except SecurityError Nat × State :=
  if !s.manager.initialized then (.error .notInitialized, s)
  else if maxTasks ≤ fromTask ∨ maxTasks ≤ toTask then (.error .invalidResource, s)
  else
    match source s fromTask capId with
    | none => (.error .capabilityNotFound, s)
    | some c =>
      if !c.rights.contains Rights.grant then (.error .delegationNotAllowed, s)
      else grant s toTask c.resourceType c.resourceId (c.rights &&& newRights)

/-! ## Runs -/

inductive Event
  | init
  | grant (taskId : Nat) (resourceType : ResourceType) (resourceId : Nat) (rights : Rights)
  | delegate (fromTask toTask capId : Nat) (newRights : Rights)
  | revoke (taskId capId : Nat)
  deriving DecidableEq

def react (s : State) : Event → State
  | .init => (init s).2
  | .grant taskId resourceType resourceId rights =>
    (grant s taskId resourceType resourceId rights).2
  | .delegate fromTask toTask capId newRights => (delegate s fromTask toTask capId newRights).2
  | .revoke taskId capId => (revoke s taskId capId).2

/-- Every sequence of calls on a new manager, from any value of the counter. -/
def machine : Machine State Event where
  init s := s.manager = SecurityManager.new ∧ s.nextCapId < usizeBound
  enabled _ _ := True
  step := react

def made (s : State) : Event → Option Capability
  | .grant taskId resourceType resourceId rights =>
    match (grant s taskId resourceType resourceId rights).1 with
    | .ok id => some ⟨id, taskId, resourceType, resourceId, rights⟩
    | .error _ => none
  | .delegate fromTask toTask capId newRights =>
    match (delegate s fromTask toTask capId newRights).1 with
    | .ok id => (source s fromTask capId).map fun c =>
      ⟨id, toTask, c.resourceType, c.resourceId, c.rights &&& newRights⟩
    | .error _ => none
  | _ => none

def revoked (s : State) : Event → Option (Nat × Nat)
  | .revoke taskId capId =>
    match (revoke s taskId capId).1 with
    | .ok _ => some (taskId, capId)
    | .error _ => none
  | _ => none

end Aeos.Security
