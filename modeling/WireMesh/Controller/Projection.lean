import WireMesh.Controller.Db

-- What a gateway is told of the mesh: a snapshot when it connects, and then one delta for each change.
namespace Controller

structure PeerKey where
  epoch : Nat
  pubkey : String
  state : KeyState
deriving DecidableEq

structure Peer where
  gatewayId : Nat
  segmentName : String
  keys : List PeerKey
  candidateEndpoints : List String
  allowedIps : List String
deriving DecidableEq

structure RelayInfo where
  relayId : Nat
  endpoint : String
deriving DecidableEq

structure StateSnapshot where
  revision : Nat
  selfCertPem : String
  peers : List Peer
  relayInfos : List RelayInfo
  policyIr : List (BitVec 8)
  policyVersion : Nat
  revokedSerials : List String
deriving DecidableEq

structure Delta where
  revision : Nat
  upsertedPeers : List Peer := []
  removedPeerIds : List Nat := []
  relayInfos : List RelayInfo := []
  relaysUpdated : Bool := false
  policyIr : List (BitVec 8) := []
  policyVersion : Nat := 0
  revokedSerials : List String := []
deriving DecidableEq

-- An epoch that still awaits its key is withheld.
def advertisablePeerKeys (keys : List GatewayKeyRow) : List PeerKey :=
  (keys.filter fun k => ¬ (k.2.2 = .pending ∧ k.2.1 = AWAITING_SUBMISSION_SENTINEL)).map fun k =>
    ⟨k.1, k.2.1, k.2.2⟩

-- Three of the changes bring along all there is to know about a gateway.
structure GatewayFacts where
  gatewayId : Nat
  segmentName : String
  allowedIps : List String
  keys : List GatewayKeyRow
  candidateEndpoints : List String
deriving DecidableEq

inductive ChangeEvent
  | gatewayEnrolled (newGatewayId : Nat) (segmentName : String) (allowedIps : List String)
      (revokedSerials : List String) (revision : Nat)
  | keyRotated (facts : GatewayFacts) (revision : Nat)
  | gatewayDrained (gatewayId : Nat) (revokedSerials : List String) (revision : Nat)
  | endpointObserved (facts : GatewayFacts) (revision : Nat)
  | certRevoked (serial : String) (revision : Nat)
  | policyUpdated (version : Nat) (ir : List (BitVec 8)) (revision : Nat)
  | segmentCidrsChanged (facts : GatewayFacts) (revision : Nat)
  | relaysChanged (relayInfos : List RelayInfo) (revision : Nat)
deriving DecidableEq

-- Ids start at 1, so 0 is nobody.
def ChangeEvent.subjectGatewayId : ChangeEvent → Nat
  | gatewayEnrolled id _ _ _ _  => id
  | keyRotated facts _          => facts.gatewayId
  | gatewayDrained id _ _       => id
  | endpointObserved facts _    => facts.gatewayId
  | certRevoked _ _             => 0
  | policyUpdated _ _ _         => 0
  | segmentCidrsChanged facts _ => facts.gatewayId
  | relaysChanged _ _           => 0

def GatewayFacts.peer (facts : GatewayFacts) : Peer where
  gatewayId          := facts.gatewayId
  segmentName        := facts.segmentName
  keys               := advertisablePeerKeys facts.keys
  candidateEndpoints := facts.candidateEndpoints
  allowedIps         := facts.allowedIps

-- The delta of a gateway that has just enrolled has neither keys nor candidates.
def deltaForChange : ChangeEvent → Delta
  | .gatewayEnrolled id segmentName allowedIps revokedSerials revision =>
    { revision, revokedSerials, upsertedPeers := [⟨id, segmentName, [], [], allowedIps⟩] }
  | .keyRotated facts revision => { revision, upsertedPeers := [facts.peer] }
  | .gatewayDrained id revokedSerials revision => { revision, revokedSerials, removedPeerIds := [id] }
  | .endpointObserved facts revision => { revision, upsertedPeers := [facts.peer] }
  | .certRevoked serial revision => { revision, revokedSerials := [serial] }
  | .policyUpdated version ir revision => { revision, policyIr := ir, policyVersion := version }
  | .segmentCidrsChanged facts revision => { revision, upsertedPeers := [facts.peer] }
  | .relaysChanged relayInfos revision => { revision, relayInfos, relaysUpdated := true }

-- The deltas that a gateway's stream forwards: all but those about itself.
def deltasFor (selfGatewayId : Nat) (events : List ChangeEvent) : List Delta :=
  (events.filter (·.subjectGatewayId ≠ selfGatewayId)).map deltaForChange

-- A relay hears of revoked serials and of nothing else.
def relayRevocationDelta : ChangeEvent → Option Delta
  | .certRevoked serial revision => some { revision, revokedSerials := [serial] }
  | .gatewayDrained _ serials revision => nonempty serials revision
  | .gatewayEnrolled _ _ _ serials revision => nonempty serials revision
  | _ => none
where
  nonempty (revokedSerials : List String) (revision : Nat) : Option Delta :=
    if revokedSerials.isEmpty then none else some { revision, revokedSerials }

def relayInfosOf (relays : List (Nat × String)) : List RelayInfo :=
  relays.map fun r => ⟨r.1, r.2⟩

end Controller
