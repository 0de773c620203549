import WireMesh.Controller.Db
import WireMesh.Policy.Compile

-- The transactions on the controller's database. One that fails is rolled back, so it yields its error
-- and no database.
namespace Controller

open Policy

inductive CasOutcome
  | applied
  | noMatch
deriving DecidableEq

inductive DropPendingOutcome
  | dropped
  | rowAbsent
  | rowSuperseded (state : KeyState)
deriving DecidableEq

namespace Db

variable (db : Db)

def bumpRevision : Db :=
  { db with revision := db.revision + 1 }

-- The rows of one gateway's keys, changed by `f`. What `f` yields nothing for is deleted.
def updateKeys (gatewayId : Nat) (f : KeyRow → Option KeyRow) : Db :=
  { db with keys := db.keys.filterMap fun k => if k.gatewayId = gatewayId then f k else some k }

def updateGateway (gatewayId : Nat) (f : GatewayRow → GatewayRow) : Db :=
  { db with gateways := db.gateways.map fun g => if g.id = gatewayId then f g else g }

def maxEpoch (gatewayId : Nat) : Option Nat :=
  ((db.keys.filter (·.gatewayId = gatewayId)).map (·.epoch)).max?

def rotateKey (gatewayId : Nat) : Except String (Nat × Db) :=
  if db.gatewayIsActive gatewayId then
    let epoch := ((db.maxEpoch gatewayId).map (· + 1)).getD 0
    let row := { gatewayId, epoch, pubkey := AWAITING_SUBMISSION_SENTINEL, state := .pending }
    .ok (epoch, { db with keys := db.keys ++ [row] }.bumpRevision)
  else
    .error s!"RotateKey: no ACTIVE gateway row with id {gatewayId} to rotate a key for"

def setEpochPubkey (gatewayId epoch : Nat) (pubkey : String) : CasOutcome × Db :=
  let awaits (k : KeyRow) : Prop :=
    k.epoch = epoch ∧ k.state = .pending ∧ k.pubkey = AWAITING_SUBMISSION_SENTINEL
  if ∃ k ∈ db.keys, k.gatewayId = gatewayId ∧ awaits k then
    (.applied, (db.updateKeys gatewayId fun k =>
      some (if awaits k then { k with pubkey } else k)).bumpRevision)
  else
    (.noMatch, db)

def promoteEpoch (gatewayId epoch : Nat) : CasOutcome × Db :=
  if ∃ k ∈ db.keys, k.gatewayId = gatewayId ∧ k.epoch = epoch ∧ k.state = .pending ∧
      k.pubkey ≠ AWAITING_SUBMISSION_SENTINEL then
    (.applied, (db.updateKeys gatewayId fun k =>
      some (if k.epoch = epoch then { k with state := .active }
            else if k.state = .active then { k with state := .retiring } else k)).bumpRevision)
  else
    (.noMatch, db)

def retireEpoch (gatewayId epoch : Nat) : CasOutcome × Db :=
  let retired (k : KeyRow) : Prop := k.epoch = epoch ∧ k.state = .retiring
  if ∃ k ∈ db.keys, k.gatewayId = gatewayId ∧ retired k then
    (.applied, (db.updateKeys gatewayId fun k => if retired k then none else some k).bumpRevision)
  else
    (.noMatch, db)

def dropPendingEpoch (gatewayId epoch : Nat) : DropPendingOutcome × Db :=
  let dropped (k : KeyRow) : Prop := k.epoch = epoch ∧ k.state = .pending
  if ∃ k ∈ db.keys, k.gatewayId = gatewayId ∧ dropped k then
    (.dropped, (db.updateKeys gatewayId fun k => if dropped k then none else some k).bumpRevision)
  else
    match db.keys.find? fun k => k.gatewayId = gatewayId ∧ k.epoch = epoch with
    | none   => (.rowAbsent, db)
    | some k => (.rowSuperseded k.state, db)

def unrevokedCerts (gatewayId : Nat) : List CertificateRow :=
  db.certificates.filter fun c =>
    c.subjectKind = .gateway ∧ c.subjectId = gatewayId ∧ c.revokedAt = none

def revokeSerials (serials : List String) (now : String) : Db :=
  { db with certificates := db.certificates.map fun c =>
      if c.serial ∈ serials then { c with revokedAt := some now } else c }

-- A gateway leaves the mesh: its certificates are revoked, its row stays.
def withdraw (gatewayId : Nat) (status : GatewayStatus) (now : String) : Db :=
  (db.revokeSerials ((db.unrevokedCerts gatewayId).map (·.serial)) now).updateGateway gatewayId
    ({ · with status })

def drainGateway (gatewayId : Nat) (now : String) : Except String (List String × Db) :=
  if db.gateways.any (·.id = gatewayId) then
    .ok ((db.unrevokedCerts gatewayId).map (·.serial),
      (db.withdraw gatewayId .removed now).bumpRevision)
  else
    .error s!"Drain: no gateway row with id {gatewayId} to drain"

def revokeCert (serial now : String) : Bool × Db :=
  if db.certificates.any (·.serial = serial) then
    let certificates := db.certificates.map fun c =>
      if c.serial = serial ∧ c.revokedAt = none then { c with revokedAt := some now } else c
    (true, { db with certificates }.bumpRevision)
  else
    (false, db)

-- Nothing is written, and the revision stays, where the endpoint is the one on file.
def setCandidateEndpoint (gatewayId : Nat) (addr : String) : Except String (Option Nat × Db) :=
  match db.gateways.find? fun g => g.id = gatewayId ∧ g.status = .active with
  | none   => .error s!"set_candidate_endpoint: no active gateway row with id {gatewayId}"
  | some g =>
    if g.candidateEndpoint = some addr then .ok (none, db)
    else
      let db := (db.updateGateway gatewayId fun g =>
        if g.status = .active then { g with candidateEndpoint := some addr } else g).bumpRevision
      .ok (some db.revision, db)

def setLocalCandidates (gatewayId : Nat) (endpoints : List String) :
    Except String (Option Nat × Db) :=
  if db.gatewayIsActive gatewayId then
    let incoming := (endpoints.insertionSort (· ≤ ·)).dedup
    if db.localCandidates gatewayId = incoming then .ok (none, db)
    else
      let rows := incoming.map fun endpoint => { gatewayId, endpoint : CandidateRow }
      let kept := db.candidates.filter (·.gatewayId ≠ gatewayId)
      let db := { db with candidates := kept ++ rows }.bumpRevision
      .ok (some db.revision, db)
  else
    .error s!"set_local_candidates: no active gateway row with id {gatewayId}"

def setAppliedVersion (gatewayId appliedVersion : Nat) : Except String Db :=
  if appliedVersion ≥ 2 ^ 63 then
    .error s!"applied_version {appliedVersion} exceeds SQLite INTEGER range"
  else if db.gateways.any (·.id = gatewayId) then
    .ok (db.updateGateway gatewayId ({ · with appliedVersion := some appliedVersion }))
  else
    .error s!"Report: no gateway row with id {gatewayId} to record applied_version on"

def insertRelay (name endpoint : String) : Except String (Nat × Db) :=
  if db.relays.any (·.name = name) then .error "UNIQUE constraint failed: relay.name"
  else
    let id := nextId (db.relays.map (·.id))
    let relays := db.relays ++ [{ id, name, endpoint, status := .active }]
    .ok (id, { db with relays }.bumpRevision)

def setRelayStatus (relayId : Nat) (status : RelayStatus) : Db :=
  let relays := db.relays.map fun r => if r.id = relayId then { r with status } else r
  { db with relays }.bumpRevision

end Db
end Controller
