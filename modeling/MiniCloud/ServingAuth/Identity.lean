import MiniCloud.Lib.Clock
import MiniCloud.Model.Version

/-!
# Identities

`internal/servingauth/identity.go`: who a Worker is, which Assignment an invocation is for, and the
permissions a controller grants. Every fence of the system compares values of these types.
-/

namespace MiniCloud.ServingAuth

open Lib Problem Digest Model

/-- `^[A-Za-z0-9._:-]{1,128}$`. -/
def identifierPattern (s : GoString) : Bool := Text.matchClass isIdByte 1 128 s

/-- Whether an Assignment serves normal traffic or only pinned drain work. -/
inductive Mode where
  | normal
  | drainOnly
  | other (text : GoString)
  deriving DecidableEq

/-- The immutable Worker process and session fence. -/
structure WorkerSession where
  workerID : GoString
  bootID : GoString
  sessionEpoch : UInt64
  deriving DecidableEq

def WorkerSession.validate (s : WorkerSession) : Validation :=
  checks [
    mustNot (!identifierPattern s.workerID) "worker_id" "must be a valid identifier",
    mustNot (!identifierPattern s.bootID) "boot_id" "must be a valid identifier",
    mustNot (s.sessionEpoch == 0) "session_epoch" "must be greater than zero"]

structure AssignmentIdentity where
  worker : WorkerSession
  assignmentID : GoString
  versionID : GoString
  admissionEpoch : UInt64
  deploymentGeneration : UInt64
  policyDigest : SHA256
  mode : Mode
  deriving DecidableEq

def AssignmentIdentity.validate (a : AssignmentIdentity) : Validation := do
  a.worker.validate
  checks [
    mustNot (!identifierPattern a.assignmentID) "assignment_id" "must be a valid identifier",
    mustNot (!identifierPattern a.versionID) "version_id" "must be a valid identifier",
    mustNot (a.admissionEpoch == 0) "admission_epoch" "must be greater than zero",
    mustNot (a.deploymentGeneration == 0) "deployment_generation" "must be greater than zero",
    mustNot (!encodedPattern a.policyDigest) "policy_digest"
      "must be a lowercase sha-256 digest",
    mustNot (a.mode != .normal && a.mode != .drainOnly) "assignment_mode"
      "must be normal or drain-only"]

/-- The Worker-side expiry rule of one authorization. -/
inductive Lifetime where
  | ttl
  | liveOnly
  | other (text : GoString)
  deriving DecidableEq

/-- Stable for the lifetime of one Worker boot. -/
structure WorkerProcess where
  workerID : GoString
  bootID : GoString
  deriving DecidableEq

/-- What a Worker invocation carries. -/
@[ext]
structure InvocationFence where
  assignment : AssignmentIdentity
  discoveryEpoch : UInt64
  deriving DecidableEq

/-- One independently refreshable Assignment permission. -/
structure Authorization where
  fence : InvocationFence
  lifetime : Lifetime
  ttl : Duration
  deriving DecidableEq

/-- One authenticated Leader-to-Worker connection. -/
structure ControlConnection where
  connectionID : GoString
  sessionEpoch : UInt64
  discoveryEpoch : UInt64
  deriving DecidableEq, Inhabited

def WorkerProcess.validate (p : WorkerProcess) : Validation :=
  checks [
    mustNot (!identifierPattern p.workerID) "worker_id" "must be a valid identifier",
    mustNot (!identifierPattern p.bootID) "boot_id" "must be a valid identifier"]

def InvocationFence.validate (f : InvocationFence) : Validation := do
  f.assignment.validate
  checks [mustNot (f.discoveryEpoch == 0) "discovery_epoch" "must be greater than zero"]

def Authorization.validate (a : Authorization) (maxTTL : Duration) : Validation := do
  a.fence.validate
  match a.lifetime with
  | .ttl =>
    checks [
      mustNot (a.ttl ≤ 0 || maxTTL < a.ttl) "authorization_ttl"
        "must be positive and within the worker maximum"]
  | .liveOnly =>
    checks [mustNot (a.ttl != 0) "authorization_ttl" "must be zero for live-only authorization"]
  | .other _ => .error (invalid "authorization_lifetime" "must be ttl or live_only")

def ControlConnection.validate (c : ControlConnection) : Validation :=
  checks [
    mustNot (!identifierPattern c.connectionID) "control_connection_id"
      "must be a valid identifier",
    mustNot (c.sessionEpoch == 0) "session_epoch" "must be greater than zero",
    mustNot (c.discoveryEpoch == 0) "discovery_epoch" "must be greater than zero"]

end MiniCloud.ServingAuth
