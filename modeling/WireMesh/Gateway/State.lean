import WireMesh.Lib.Keyed
import WireMesh.Controller.Projection
import WireMesh.Gateway.Uapi

-- What a gateway wants its device and its filter to be: the state that it makes of a snapshot and keeps
-- up with deltas.
namespace Gateway

open Controller (KeyState Peer RelayInfo StateSnapshot Delta ChangeEvent deltasFor)

structure PeerKeyInfo where
  epoch : Nat
  pubkeyB64 : String
  state : KeyState
deriving DecidableEq

structure PeerState where
  gatewayId : Nat
  segmentName : String
  activePubkeyB64 : Option String
  keys : List PeerKeyInfo
  candidates : List String
  allowedIps : List String
deriving DecidableEq

def MAX_PEER_CANDIDATES : Nat := 64

def retainDialable (candidates : List String) : List String :=
  (candidates.filter Uapi.isDialableEndpoint).take MAX_PEER_CANDIDATES

def retainValidCidrs (cidrs : List String) : List String :=
  cidrs.filter Uapi.isValidIpv4Cidr

-- An active key that the device cannot take is as good as none.
def PeerState.fromProto (p : Peer) : PeerState where
  gatewayId       := p.gatewayId
  segmentName     := p.segmentName
  activePubkeyB64 := ((p.keys.find? (·.state = .active)).map (·.pubkey)).filter Uapi.pubkeyDecodes
  keys            := p.keys.map fun k => ⟨k.epoch, k.pubkey, k.state⟩
  candidates      := retainDialable p.candidateEndpoints
  allowedIps      := retainValidCidrs p.allowedIps

def PeerState.primaryEndpoint (p : PeerState) : Option String :=
  p.candidates.head?

-- These two go by the list of keys, which is kept as it is advertised.
def PeerState.activeKey (p : PeerState) : Option PeerKeyInfo :=
  p.keys.find? (·.state = .active)

def PeerState.pendingKey (p : PeerState) : Option PeerKeyInfo :=
  p.keys.find? fun k => k.state = .pending ∧ k.pubkeyB64 ≠ "awaiting-submission"

-- A peer as it is read back from `state.json`. Only the list of keys is taken as it stands there.
def PeerState.deserialize (p : PeerState) : PeerState where
  gatewayId       := p.gatewayId
  segmentName     := p.segmentName
  activePubkeyB64 := p.activePubkeyB64.filter Uapi.pubkeyDecodes
  keys            := p.keys
  candidates      := retainDialable p.candidates
  allowedIps      := retainValidCidrs p.allowedIps

structure DesiredState where
  revision : Nat
  peers : List PeerState
  policyIr : List (BitVec 8)
  policyVersion : Nat
  relays : List RelayInfo
  revokedSerials : List String
deriving DecidableEq

namespace DesiredState

def fromSnapshot (s : StateSnapshot) : DesiredState where
  revision       := s.revision
  peers          := s.peers.map PeerState.fromProto
  policyIr       := s.policyIr
  policyVersion  := s.policyVersion
  relays         := s.relayInfos
  revokedSerials := s.revokedSerials

def load (stored : DesiredState) : DesiredState :=
  { stored with peers := stored.peers.map PeerState.deserialize }

-- A delta tells the policy only if it has a version, the relays only if it says so, and serials that
-- have been revoked since.
def applyDelta (st : DesiredState) (d : Delta) : DesiredState where
  revision      := d.revision
  peers         :=
    let upserted := d.upsertedPeers.foldl (fun peers p =>
      Keyed.upsert PeerState.gatewayId (.fromProto p) peers) st.peers
    upserted.filter (·.gatewayId ∉ d.removedPeerIds)
  relays        := if d.relaysUpdated then d.relayInfos else st.relays
  policyIr      := if d.policyVersion ≠ 0 then d.policyIr else st.policyIr
  policyVersion := if d.policyVersion ≠ 0 then d.policyVersion else st.policyVersion
  revokedSerials :=
    d.revokedSerials.foldl (fun out s => if s ∈ out then out else out ++ [s]) st.revokedSerials

-- What a gateway makes of the changes that its stream forwards.
def follow (selfGatewayId : Nat) (st : DesiredState) (events : List ChangeEvent) : DesiredState :=
  (deltasFor selfGatewayId events).foldl applyDelta st

end DesiredState
end Gateway
