import WireMesh.Lib.Run
import WireMesh.Lib.HashMap
import WireMesh.Relay.Registration

-- A relay: a registry of connections, and a task for each connection that registers it and then forwards
-- its datagrams.
namespace Relay

open Text Wire
open Policy (Sha256)

section Certificates

inductive GeneralName
  | dnsName (name : String)
  | other
deriving DecidableEq

inductive Certificate
  | unparsable
  | unreadableSan
  | noSan
  | names (generalNames : List GeneralName)
deriving DecidableEq

def gatewayName : GeneralName → Option String
  | .dnsName name =>
    match name.toList with
    | 'g' :: 'w' :: '-' :: _ :: _ => some name
    | _                           => none
  | .other        => none

-- What the handshake says of a client.
inductive PeerIdentity
  | none
  | notCertificates
  | chain (certs : List Certificate)
deriving DecidableEq

def identityFromClientCert : PeerIdentity → Option String
  | .chain (.names generalNames :: _) => generalNames.findSome? gatewayName
  | _                                 => none

end Certificates

inductive RegisterDecision
  | accept
  | replaceOwnSlot
  | rejectOwnedByOther
  | rejectKeyCollision
deriving DecidableEq

def registerDecision (existing : Option (String × String)) (certIdentity peerIdentity : String) :
    RegisterDecision :=
  match existing with
  | none               => .accept
  | some (owner, peer) =>
    if owner ≠ certIdentity then .rejectOwnedByOther
    else if peer = peerIdentity then .replaceOwnSlot
    else .rejectKeyCollision

-- A connection goes by its place in the order in which connections were accepted.
abbrev ConnId := Nat

structure RegEntry where
  conn : ConnId
  owner : String
  peer : String
deriving DecidableEq

-- What a connection has asked for, once that is found to go with its certificate.
structure Registration where
  certIdentity : String
  myIdentity : String
  peerIdentity : String
  bound : myIdentity = certIdentity
deriving DecidableEq

section

variable [Sha256]

def Registration.key (r : Registration) : Bytes :=
  registrationKey r.myIdentity r.peerIdentity

def Registration.allowedDest (r : Registration) : Bytes :=
  registrationKey r.peerIdentity r.myIdentity

end

-- What the task of a connection waits for.
inductive Task
  | reading (certIdentity : String)
  | registering (r : Registration)
  | acking (r : Registration)
  | serving (r : Registration)
  | lookingUp (r : Registration) (dgram : Bytes)
  | sending (r : Registration) (dgram : Bytes) (peer : ConnId)
  | leaving (r : Registration)
  | ended
deriving DecidableEq

structure Connection where
  stableId : Nat
  identity : PeerIdentity
  task : Task
deriving DecidableEq

structure State where
  conns : List Connection := []
  registry : HashMap Bytes RegEntry := ∅
deriving DecidableEq

namespace State

-- Other than by its own task, a connection is held by its slot and by those that send to it.
def held (s : State) (i : ConnId) : Bool :=
  (s.conns[i]?.any fun c => c.task ≠ .ended) ||
    (s.registry.entries.any fun e => e.2.conn = i) ||
    s.conns.any fun c => match c.task with
      | .sending _ _ peer => peer = i
      | _                 => false

def goTo (s : State) (i : ConnId) (t : Task) : State :=
  { s with conns := s.conns.modify i fun c => { c with task := t } }

-- Of two connections that are held, no two have the same stable id.
def fresh (s : State) (stableId : Nat) : Bool :=
  s.conns.zipIdx.all fun (c, i) => c.stableId ≠ stableId || !s.held i

end State

-- Anything can come from a connection, and each wait can fail.
inductive Event
  | accept (stableId : Nat) (identity : PeerIdentity)
  | readRegistration (i : ConnId) (payload : Option Bytes)
  | register (i : ConnId)
  | ackRegistration (i : ConnId) (ok : Bool)
  | readDatagram (i : ConnId) (dgram : Option Bytes)
  | lookup (i : ConnId)
  | sendDatagram (i : ConnId) (ok : Bool)
  | removeIfOwner (i : ConnId)
deriving DecidableEq

section

variable [Sha256]

-- What becomes of a connection by what is read from its first stream.
def readRegistration (certIdentity : String) (payload : Option Bytes) : Task :=
  match payload with
  | none     => .ended
  | some buf =>
    if MAX_REGISTRATION_BYTES < buf.length then .ended
    else
      match decodeRegistration buf with
      | .error _       => .ended
      | .ok (my, peer) =>
        if h : my = certIdentity then .registering ⟨certIdentity, my, peer, h⟩ else .ended

def readDatagram (r : Registration) (dgram : Option Bytes) : Task :=
  match dgram with
  | none       => .leaving r
  | some dgram =>
    if dgram.length < 8 then .serving r
    else if dgram.take 8 ≠ r.allowedDest then .serving r
    else .lookingUp r dgram

namespace State

def register (s : State) (i : ConnId) (r : Registration) : State :=
  let existing := (s.registry.lookup r.key).map fun e => (e.owner, e.peer)
  match registerDecision existing r.certIdentity r.peerIdentity with
  | .rejectOwnedByOther | .rejectKeyCollision => s.goTo i .ended
  | .accept | .replaceOwnSlot                 =>
    { s.goTo i (.acking r) with
      registry := s.registry.insert r.key ⟨i, r.certIdentity, r.peerIdentity⟩ }

def removeIfOwner (s : State) (key : Bytes) (stableId : Nat) : State :=
  if (s.registry.lookup key).any fun e => s.conns[e.conn]?.any (·.stableId = stableId) then
    { s with registry := s.registry.erase key }
  else s

-- The task of a connection goes on when what it waits for is there.
def step (s : State) : Event → Option State
  | .accept stableId identity =>
    if s.fresh stableId then
      let task := match identityFromClientCert identity with
        | none              => .ended
        | some certIdentity => .reading certIdentity
      some { s with conns := s.conns ++ [⟨stableId, identity, task⟩] }
    else none
  | .readRegistration i payload => do
    let .reading certIdentity := (← s.conns[i]?).task | none
    return s.goTo i (Relay.readRegistration certIdentity payload)
  | .register i => do
    let .registering r := (← s.conns[i]?).task | none
    return s.register i r
  | .ackRegistration i ok => do
    let .acking r := (← s.conns[i]?).task | none
    return s.goTo i (if ok then .serving r else .leaving r)
  | .readDatagram i dgram => do
    let .serving r := (← s.conns[i]?).task | none
    return s.goTo i (Relay.readDatagram r dgram)
  | .lookup i => do
    let .lookingUp r dgram := (← s.conns[i]?).task | none
    return s.goTo i <| match s.registry.lookup (dgram.take 8) with
      | none   => .serving r
      | some e => .sending r dgram e.conn
  | .sendDatagram i _ => do
    let .sending r _ _ := (← s.conns[i]?).task | none
    return s.goTo i (.serving r)
  | .removeIfOwner i => do
    let c ← s.conns[i]?
    let .leaving r := c.task | none
    return (s.removeIfOwner r.key c.stableId).goTo i .ended

-- A datagram that is put on a connection.
structure Delivery where
  sender : ConnId
  receiver : ConnId
  dgram : Bytes
deriving DecidableEq

def delivery (s : State) : Event → Option Delivery
  | .sendDatagram i true => do
    let .sending r dgram peer := (← s.conns[i]?).task | none
    return ⟨i, peer, r.key ++ dgram.drop 8⟩
  | _                    => none

end State

abbrev History := List (State × Event)

abbrev Runs (h : History) (s : State) : Prop :=
  Run (fun s e t => s.step e = some t) {} h s

end
end Relay
