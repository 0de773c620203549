import WireMesh.Controller.Drivers
import WireMesh.Controller.Enrollment

-- The services that enrolled gateways and relays call.
namespace Controller

open Policy Handler

def MAX_LOCAL_CANDIDATES : Nat := 32

def usableLocalCandidates (reported : List String) : List String :=
  (distinct (reported.filter isUsableCandidateEndpoint)).take MAX_LOCAL_CANDIDATES

structure ReportRequest where
  appliedVersion : Nat
  localEndpoints : List String
  relayHealth : List (Nat × Bool)
  epochAcks : List Rotations.EpochAck
  sessionGeneration : Nat

namespace Sync

def identify (gatewayName : String) : Rpc GatewayIdentity := do
  let some gw ← askOr "looking up gateway by cert CN" (.findGatewayByName gatewayName) |
    throw ⟨.permissionDenied, "client certificate's CN does not match any enrolled gateway"⟩
  return gw

-- A generation of 0 is one that nobody has told.
def checkSessionGeneration (gatewayId reqGeneration : Nat) (rpc : String) : Rpc Unit := do
  let stored : Nat ← (Prog.perform <| CtlOp.recordedSession gatewayId : Handler _)
  if stored ≠ 0 ∧ reqGeneration ≠ 0 ∧ stored ≠ reqGeneration then
    throw ⟨.failedPrecondition, s!"{rpc} session_generation {reqGeneration} does not match the " ++
      s!"session_generation {stored} recorded for this gateway's current Sync.Watch; " ++
      "reconnect Watch before retrying"⟩

-- Whether any of the relays has changed its status. One that is not on file is passed over.
def updateRelays : List (Nat × Bool) → Rpc Bool
  | []                         => return false
  | (relayId, healthy) :: rest => do
    let desired : RelayStatus := if healthy then .active else .inactive
    let current ← askOr "reading relay status" (.relayStatus relayId)
    let changed := current.isSome && current != some desired
    if changed then
      orStatus (internal "flipping relay status") (← commit <| .setRelayStatus relayId desired)
    return changed || (← updateRelays rest)

-- The lock of the votes is released at the end, also where an error ends the call.
def reportHealth (gatewayId : Nat) (votes : List (Nat × Bool)) : Rpc Unit := do
  let touched ← (Prog.perform <| CtlOp.vote gatewayId votes : Handler (List (Nat × Bool)))
  match ← ExceptT.lift (updateRelays touched).run with
  | .ok changed =>
    if changed then emitRelaysChanged
    (Prog.perform CtlOp.unlockHealth : Handler Unit)
  | .error status =>
    (Prog.perform CtlOp.unlockHealth : Handler Unit)
    throw status

def readSeeds : List Nat → Handler (List (Nat × Option (Nat × Option Nat)))
  | []      => return []
  | g :: gs => do
    let seed :=
      match ← ask (.allKeysForGateway g) with
      | .ok keys => selectLivePending keys
      | .error _ => none
    return (g, seed) :: (← readSeeds gs)

def reportAcks (reporting : Nat) (acks : List Rotations.EpochAck) : Handler Unit := do
  let touched := distinct (acks.map (·.peerGatewayId))
  let seeds ← readSeeds touched
  Prog.perform <| CtlOp.recordAcks reporting seeds acks
  forEach driveRotationFor touched

def report (gatewayName : String) (req : ReportRequest) : Rpc Unit := do
  let gw ← identify gatewayName
  checkSessionGeneration gw.id req.sessionGeneration "Sync.Report"
  orStatus (internal "recording applied_version")
    (← commit <| .setAppliedVersion gw.id req.appliedVersion)
  let endpoints := usableLocalCandidates req.localEndpoints
  let revision ← orStatus (internal "recording local_endpoints")
    (← commit <| .setLocalCandidates gw.id endpoints)
  if let some revision := revision then emitEndpointObserved gw.id revision
  if !req.relayHealth.isEmpty then reportHealth gw.id req.relayHealth
  if !req.epochAcks.isEmpty then reportAcks gw.id req.epochAcks

def submitEpochKey (gatewayName : String) (epoch : Nat) (pubkey : String) (sessionGeneration : Nat) :
    Rpc Unit := do
  let gw ← identify gatewayName
  checkSessionGeneration gw.id sessionGeneration "Sync.SubmitEpochKey"
  let outcome ← orStatus (internal "submitting epoch key")
    (← commit <| .setEpochPubkey gw.id epoch pubkey)
  if outcome = .noMatch then
    throw ⟨.failedPrecondition, s!"SubmitEpochKey: no pending epoch {epoch} awaiting a key " ++
      s!"submission for gateway {gw.id}"⟩
  emitKeyRotated gw.id
  driveRotationFor gw.id

-- A read of several tables that ends with the first error.
abbrev Read := ExceptT String Handler

def read (q : Query) : Read q.Resp :=
  ExceptT.mk (ask q)

def peersOf : List GatewayIdentity → Read (List Peer)
  | []         => return []
  | gw :: rest => do
    let allowedIps ← read (.cidrsForSegment gw.segmentId)
    let keys ← read (.allKeysForGateway gw.id)
    let candidateEndpoints ← read (.candidatesFor gw.id)
    let facts : GatewayFacts :=
      { gatewayId := gw.id, segmentName := gw.segmentName, allowedIps, keys, candidateEndpoints }
    return facts.peer :: (← peersOf rest)

-- The revision is read before all else.
def buildSnapshot (gatewayId : Nat) (selfCertPem : String) : Read StateSnapshot := do
  let revision ← read .currentRevision
  let peers ← peersOf (← read (.listOtherGateways gatewayId))
  let relayInfos := relayInfosOf (← read .activeRelays)
  let revokedSerials ← read .revokedSerials
  let (policyVersion, policyIr) :=
    match ← read .latestPolicy with
    | some (version, compiledIr) => (version, Text.bytesOf compiledIr)
    | none                       => (0, [])
  return { revision, selfCertPem, peers, relayInfos, policyIr, policyVersion, revokedSerials }

-- The revision and the serials come from one read.
def relaySnapshot (selfCertPem : String) (revocations : Nat × List String) : StateSnapshot where
  revision       := revocations.1
  selfCertPem    := selfCertPem
  peers          := []
  relayInfos     := []
  policyIr       := []
  policyVersion  := 0
  revokedSerials := revocations.2

def buildRelayRevocationSnapshot (selfCertPem : String) : Read StateSnapshot := do
  return relaySnapshot selfCertPem (← read .revocationSnapshot)

-- A stream is its snapshot, and then all that is published from where it subscribed. One that falls
-- behind what is published so far that it lags ends with an error there, which is left out: what is said
-- of streams is said of those that do not lag.
structure Stream where
  snapshot : StateSnapshot
  since : Nat

def watchGateway (gatewayId sessionGeneration : Nat) (selfCertPem : String) : Rpc Stream := do
  (Prog.perform <| CtlOp.recordSession gatewayId sessionGeneration : Handler Unit)
  let since ← (Prog.perform CtlOp.subscribe : Handler Nat)
  (Prog.perform <| CtlOp.register gatewayId : Handler Unit)
  let snapshot ← orStatus (internal "building Sync snapshot")
    (← ExceptT.lift (buildSnapshot gatewayId selfCertPem).run)
  return { since, snapshot }

def watchRelay (selfCertPem : String) : Rpc Stream := do
  let since ← (Prog.perform CtlOp.subscribe : Handler Nat)
  let snapshot ← orStatus (internal "building relay revocation snapshot")
    (← ExceptT.lift (buildRelayRevocationSnapshot selfCertPem).run)
  return { since, snapshot }

def watch (identityCn selfCertPem : String) (sessionGeneration : Nat) : Rpc Stream := do
  if let some gw ← askOr "looking up gateway by cert CN" (.findGatewayByName identityCn) then
    return ← watchGateway gw.id sessionGeneration selfCertPem
  if let some _ ← askOr "looking up relay by cert CN" (.findRelayByName identityCn) then
    return ← watchRelay selfCertPem
  throw ⟨.permissionDenied, "client certificate's CN does not match any enrolled gateway or relay"⟩

end Sync

namespace Observe

def MAGIC : List (BitVec 8) := Text.bytesOf "AOBS"
def GATEWAY_ID_LEN : Nat := 8
def MAC_LEN : Nat := 32
def PROBE_LEN : Nat := MAGIC.length + GATEWAY_ID_LEN + MAC_LEN

def toBeBytes (gatewayId : BitVec 64) : List (BitVec 8) :=
  (List.range 8).map fun i => (gatewayId >>> (8 * (7 - i))).setWidth 8

def fromBeBytes (bytes : List (BitVec 8)) : BitVec 64 :=
  bytes.foldl (fun n b => n <<< 8 ||| b.setWidth 64) 0

def computeMac [Sha256] (observeKey : String) (gatewayId : BitVec 64) : List (BitVec 8) :=
  Sha256.digest (Text.bytesOf observeKey ++ MAGIC ++ toBeBytes gatewayId)

-- The address that the datagram came from is recorded once its sender has shown the gateway's key.
def handleProbe [Sha256] (datagram : List (BitVec 8)) (observed : String) :
    ExceptT String Handler Unit := do
  if datagram.length ≠ PROBE_LEN then throw "wrong length"
  if datagram.take 4 ≠ MAGIC then throw "bad magic"
  let gatewayId := fromBeBytes ((datagram.drop 4).take GATEWAY_ID_LEN)
  let claimedMac := datagram.drop 12
  let observeKey ← match ← ExceptT.lift <| ask (.gatewayObserveKey gatewayId.toNat) with
    | .ok (some observeKey) => pure observeKey
    | .ok none              => throw "unknown or inactive gateway_id"
    | .error _              => throw "db error looking up observe_key"
  if claimedMac ≠ computeMac observeKey gatewayId then throw "MAC verification failed"
  let recorded ← ExceptT.lift <| commit <| .setCandidateEndpoint gatewayId.toNat observed
  match recorded with
  | .error _            => throw "recording candidate endpoint failed"
  | .ok none            => pure ()
  | .ok (some revision) => emitEndpointObserved gatewayId.toNat revision

end Observe
end Controller
