import Mathlib
import WireMesh.Lib.SocketAddr

-- The tables of the controller's database, and the queries on them.
namespace Controller

inductive GatewayStatus
  | active
  | replaced
  | removed
deriving DecidableEq

inductive KeyState
  | pending
  | active
  | retiring
deriving DecidableEq

inductive RelayStatus
  | active
  | inactive
deriving DecidableEq

inductive TokenKind
  | gateway
  | relay
  | rebind
deriving DecidableEq

inductive SubjectKind
  | gateway
  | relay
deriving DecidableEq

structure SegmentRow where
  id : Nat
  name : String
deriving DecidableEq

structure CidrRow where
  segmentId : Nat
  cidr : String
deriving DecidableEq

structure GatewayRow where
  id : Nat
  segmentId : Nat
  name : String
  status : GatewayStatus
  appliedVersion : Option Nat
  observeKey : Option String
  candidateEndpoint : Option String
deriving DecidableEq

structure KeyRow where
  gatewayId : Nat
  epoch : Nat
  pubkey : String
  state : KeyState
deriving DecidableEq

-- Only candidates that a gateway reports about itself are kept here.
structure CandidateRow where
  gatewayId : Nat
  endpoint : String
deriving DecidableEq

structure RelayRow where
  id : Nat
  name : String
  endpoint : String
  status : RelayStatus
deriving DecidableEq

structure CertificateRow where
  serial : String
  subjectKind : SubjectKind
  subjectId : Nat
  issuerHandle : String
  revokedAt : Option String
deriving DecidableEq

structure TokenRow where
  id : String
  secretHash : String
  kind : TokenKind
  boundCidrs : String
  rebindSegmentId : Option Nat
  expiresAt : String
  usedAt : Option String
deriving DecidableEq

structure PolicyRow where
  version : Nat
  sourceYaml : String
  compiledIr : String
  fingerprint : String
deriving DecidableEq

-- A new row goes to the end of its table and has the greatest id, so rows stand in the order of ids
-- and the keys of a gateway in the order of epochs.
structure Db where
  segments : List SegmentRow
  cidrs : List CidrRow
  gateways : List GatewayRow
  keys : List KeyRow
  candidates : List CandidateRow
  relays : List RelayRow
  certificates : List CertificateRow
  tokens : List TokenRow
  policies : List PolicyRow
  revision : Nat
deriving DecidableEq

def AWAITING_SUBMISSION_SENTINEL : String := "awaiting-submission"

def isUsableCandidateEndpoint (ep : String) : Bool :=
  (Text.parseSocketAddrV4 ep.toList).isSome

structure GatewayIdentity where
  id : Nat
  segmentId : Nat
  segmentName : String
deriving DecidableEq

abbrev GatewayKeyRow := Nat × String × KeyState

namespace Db

def empty : Db where
  segments     := []
  cidrs        := []
  gateways     := []
  keys         := []
  candidates   := []
  relays       := []
  certificates := []
  tokens       := []
  policies     := []
  revision     := 0

variable (db : Db)

-- The key of a row that is inserted without one.
def nextId (ids : List Nat) : Nat :=
  ids.foldr max 0 + 1

def currentRevision : Nat :=
  db.revision

def cidrsForSegment (segmentId : Nat) : List String :=
  ((db.cidrs.filter (·.segmentId = segmentId)).map (·.cidr)).insertionSort (· ≤ ·)

-- The row of a gateway joined with its segment's.
def identity (g : GatewayRow) : Option GatewayIdentity :=
  (db.segments.find? (·.id = g.segmentId)).map fun s => ⟨g.id, g.segmentId, s.name⟩

def gatewayIdentityById (gatewayId : Nat) : Option GatewayIdentity :=
  (db.gateways.filter (·.id = gatewayId)).findSome? db.identity

def findGatewayByName (name : String) : Option GatewayIdentity :=
  (db.gateways.filter fun g => g.name = name ∧ g.status = .active).findSome? db.identity

def listOtherGateways (excludeGatewayId : Nat) : List GatewayIdentity :=
  (db.gateways.filter fun g => g.id ≠ excludeGatewayId ∧ g.status = .active).filterMap db.identity

def gatewayIsActive (gatewayId : Nat) : Bool :=
  db.gateways.any fun g => g.id = gatewayId ∧ g.status = .active

def activeGatewayForSegment (segmentId : Nat) : Option Nat :=
  (db.gateways.find? fun g => g.segmentId = segmentId ∧ g.status = .active).map (·.id)

def activeGatewayIds : List Nat :=
  (db.gateways.filter (·.status = .active)).map (·.id)

def gatewayObserveKey (gatewayId : Nat) : Option String :=
  (db.gateways.find? fun g => g.id = gatewayId ∧ g.status = .active).bind (·.observeKey)

def allKeysForGateway (gatewayId : Nat) : List GatewayKeyRow :=
  (db.keys.filter (·.gatewayId = gatewayId)).map fun k => (k.epoch, k.pubkey, k.state)

def keysSnapshot (gatewayId : Nat) : List GatewayKeyRow × Nat :=
  (db.allKeysForGateway gatewayId, db.revision)

def gatewaysWithRotationState : List Nat :=
  ((db.keys.filter fun k => k.state = .pending ∨ k.state = .retiring).map
    (·.gatewayId)).dedup.insertionSort (· ≤ ·)

def observedCandidate (gatewayId : Nat) : Option String :=
  (db.gateways.find? fun g => g.id = gatewayId ∧ g.status = .active).bind (·.candidateEndpoint)

def localCandidates (gatewayId : Nat) : List String :=
  ((db.candidates.filter (·.gatewayId = gatewayId)).map (·.endpoint)).insertionSort (· ≤ ·)

-- The observed endpoint comes first and is not repeated.
def candidatesFor (gatewayId : Nat) : List String :=
  let observed := ((db.observedCandidate gatewayId).filter isUsableCandidateEndpoint).toList
  (db.localCandidates gatewayId).foldl
    (fun out l => if isUsableCandidateEndpoint l ∧ l ∉ out then out ++ [l] else out) observed

def revokedSerials : List String :=
  ((db.certificates.filter (·.revokedAt.isSome)).map (·.serial)).insertionSort (· ≤ ·)

def activeRelays : List (Nat × String) :=
  (db.relays.filter (·.status = .active)).map fun r => (r.id, r.endpoint)

def relaysSnapshot : List (Nat × String) × Nat :=
  (db.activeRelays, db.revision)

def findRelayByName (name : String) : Option Nat :=
  (db.relays.find? (·.name = name)).map (·.id)

def revocationSnapshot : Nat × List String :=
  (db.revision, db.revokedSerials)

def relayStatus (relayId : Nat) : Option RelayStatus :=
  (db.relays.find? (·.id = relayId)).map (·.status)

def latestPolicyRow : Option PolicyRow :=
  db.policies.getLast?

def latestPolicy : Option (Nat × String) :=
  db.latestPolicyRow.map fun p => (p.version, p.compiledIr)

end Db
end Controller
