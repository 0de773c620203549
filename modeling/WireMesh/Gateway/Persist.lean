import WireMesh.Lib.Json
import WireMesh.Gateway.State

-- What a gateway ingests, as it comes over the wire with any texts in it, and what it writes to its state
-- file and reads from there. Peers are filtered at both doors.
namespace Gateway.Persist

open Json

abbrev U64 := BitVec 64

section Wire

structure PeerKey where
  epoch : BitVec 32
  pubkey : String
  state : String
deriving DecidableEq

structure Peer where
  gatewayId : U64
  segmentName : String
  keys : List PeerKey
  candidateEndpoints : List String
  allowedIps : List String
deriving DecidableEq

structure RelayInfo where
  relayId : U64
  endpoint : String
deriving DecidableEq

structure StateSnapshot where
  revision : U64
  peers : List Peer
  relayInfos : List RelayInfo
  policyIr : List (BitVec 8)
  policyVersion : U64
  revokedSerials : List String

structure Delta where
  revision : U64
  upsertedPeers : List Peer
  removedPeerIds : List U64
  relayInfos : List RelayInfo
  relaysUpdated : Bool
  policyIr : List (BitVec 8)
  policyVersion : U64
  revokedSerials : List String

end Wire

structure PeerKeyInfo where
  epoch : BitVec 32
  pubkeyB64 : String
  state : String
deriving DecidableEq

structure PeerState where
  gatewayId : U64
  segmentName : String
  activePubkeyB64 : Option String
  keys : List PeerKeyInfo
  candidates : List String
  allowedIps : List String
deriving DecidableEq

@[ext]
structure DesiredState where
  revision : U64
  peers : List PeerState
  policyIr : List (BitVec 8)
  policyVersion : U64
  relays : List RelayInfo
  revokedSerials : List String
deriving DecidableEq

section Filters

structure CandidateFilter where
  kept : List String := []
  dropped : Nat := 0
  overCap : Nat := 0

def CandidateFilter.take (f : CandidateFilter) (c : String) : CandidateFilter :=
  if !Uapi.isDialableEndpoint c then { f with dropped := f.dropped + 1 }
  else if f.kept.length = MAX_PEER_CANDIDATES then { f with overCap := f.overCap + 1 }
  else { f with kept := f.kept ++ [c] }

def partitionDialable (candidates : List String) : CandidateFilter :=
  candidates.foldl CandidateFilter.take {}

structure CidrFilter where
  kept : List String := []
  dropped : Nat := 0

def CidrFilter.take (f : CidrFilter) (c : String) : CidrFilter :=
  if !Uapi.isValidIpv4Cidr c then { f with dropped := f.dropped + 1 }
  else { f with kept := f.kept ++ [c] }

def partitionValidCidrs (cidrs : List String) : CidrFilter :=
  cidrs.foldl CidrFilter.take {}

end Filters

def PeerState.fromProto (p : Peer) : PeerState where
  gatewayId       := p.gatewayId
  segmentName     := p.segmentName
  activePubkeyB64 := ((p.keys.find? (·.state = "active")).map (·.pubkey)).filter Uapi.pubkeyDecodes
  keys            := p.keys.map fun k => ⟨k.epoch, k.pubkey, k.state⟩
  candidates      := (partitionDialable p.candidateEndpoints).kept
  allowedIps      := (partitionValidCidrs p.allowedIps).kept

namespace DesiredState

def fromSnapshot (s : StateSnapshot) : DesiredState where
  revision       := s.revision
  peers          := s.peers.map PeerState.fromProto
  policyIr       := s.policyIr
  policyVersion  := s.policyVersion
  relays         := s.relayInfos
  revokedSerials := s.revokedSerials

def applyDelta (st : DesiredState) (d : Delta) : DesiredState where
  revision       := d.revision
  peers          :=
    let upserted := d.upsertedPeers.foldl (fun peers p =>
      Keyed.upsert PeerState.gatewayId (.fromProto p) peers) st.peers
    upserted.filter (·.gatewayId ∉ d.removedPeerIds)
  relays         := if d.relaysUpdated then d.relayInfos else st.relays
  policyIr       := if d.policyVersion ≠ 0 then d.policyIr else st.policyIr
  policyVersion  := if d.policyVersion ≠ 0 then d.policyVersion else st.policyVersion
  revokedSerials :=
    d.revokedSerials.foldl (fun out s => if s ∈ out then out else out ++ [s]) st.revokedSerials

end DesiredState

section Json

def PeerKeyInfo.toJson (k : PeerKeyInfo) : Json :=
  .obj [("epoch", writeUInt k.epoch), ("pubkey_b64", .str k.pubkeyB64), ("state", .str k.state)]

def PeerKeyInfo.fromJson (j : Json) : Except Error PeerKeyInfo := do
  let [epoch, pubkeyB64, state] ← readFields ["epoch", "pubkey_b64", "state"] j
    | .error .invalidLength
  return {
    epoch     := ← required "epoch" (readUInt 32) epoch
    pubkeyB64 := ← required "pubkey_b64" readString pubkeyB64
    state     := ← required "state" readString state
  }

def RelayInfo.toJson (r : RelayInfo) : Json :=
  .obj [("relay_id", writeUInt r.relayId), ("endpoint", .str r.endpoint)]

def RelayInfo.fromJson (j : Json) : Except Error RelayInfo := do
  let [relayId, endpoint] ← readFields ["relay_id", "endpoint"] j | .error .invalidLength
  return {
    relayId  := ← required "relay_id" (readUInt 64) relayId
    endpoint := ← required "endpoint" readString endpoint
  }

def deserializeDialableCandidates : Reader (List String) := fun j => do
  return (partitionDialable (← readVec readString j)).kept

def deserializeValidActivePubkey : Reader (Option String) := fun j => do
  return (← readOption readString j).filter Uapi.pubkeyDecodes

def deserializeValidCidrs : Reader (List String) := fun j => do
  return (partitionValidCidrs (← readVec readString j)).kept

def PeerState.toJson (p : PeerState) : Json :=
  .obj [
    ("gateway_id", writeUInt p.gatewayId),
    ("segment_name", .str p.segmentName),
    ("active_pubkey_b64", writeOption .str p.activePubkeyB64),
    ("keys", writeVec PeerKeyInfo.toJson p.keys),
    ("candidates", writeVec .str p.candidates),
    ("allowed_ips", writeVec .str p.allowedIps)]

def PeerState.fromJson (j : Json) : Except Error PeerState := do
  let [gatewayId, segmentName, activePubkeyB64, keys, candidates, allowedIps] ← readFields
      ["gateway_id", "segment_name", "active_pubkey_b64", "keys", "candidates", "allowed_ips"] j
    | .error .invalidLength
  return {
    gatewayId       := ← required "gateway_id" (readUInt 64) gatewayId
    segmentName     := ← required "segment_name" readString segmentName
    activePubkeyB64 := ← orDefault none deserializeValidActivePubkey activePubkeyB64
    keys            := ← orDefault [] (readVec PeerKeyInfo.fromJson) keys
    candidates      := ← orDefault [] deserializeDialableCandidates candidates
    allowedIps      := ← required "allowed_ips" deserializeValidCidrs allowedIps
  }

def DesiredState.toJson (s : DesiredState) : Json :=
  .obj [
    ("revision", writeUInt s.revision),
    ("peers", writeVec PeerState.toJson s.peers),
    ("policy_ir", writeVec writeUInt s.policyIr),
    ("policy_version", writeUInt s.policyVersion),
    ("relays", writeVec RelayInfo.toJson s.relays),
    ("revoked_serials", writeVec .str s.revokedSerials)]

def DesiredState.fromJson (j : Json) : Except Error DesiredState := do
  let [revision, peers, policyIr, policyVersion, relays, revokedSerials] ← readFields
      ["revision", "peers", "policy_ir", "policy_version", "relays", "revoked_serials"] j
    | .error .invalidLength
  return {
    revision       := ← required "revision" (readUInt 64) revision
    peers          := ← required "peers" (readVec PeerState.fromJson) peers
    policyIr       := ← required "policy_ir" (readVec (readUInt 8)) policyIr
    policyVersion  := ← required "policy_version" (readUInt 64) policyVersion
    relays         := ← orDefault [] (readVec RelayInfo.fromJson) relays
    revokedSerials := ← required "revoked_serials" (readVec readString) revokedSerials
  }

end Json

section File

variable {Text : Type} [Codec Text]

-- What is in the file once it has been written.
def DesiredState.save (s : DesiredState) : Text :=
  Codec.write s.toJson

-- There need not be a file.
def DesiredState.load (file : Option Text) : Except Error (Option DesiredState) :=
  match file with
  | none      => .ok none
  | some text => do return some (← fromJson (← Codec.parse text))

end File
end Gateway.Persist
