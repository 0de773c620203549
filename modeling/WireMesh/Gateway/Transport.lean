import WireMesh.Gateway.Driver

-- A transport between a local socket and a relay. Its two pumps share only the address that was last
-- seen, which each of them takes up once a round, so that a round of a pump is one step.
namespace Gateway

open Driver (RelayDeathReason)

inductive ConnectionError
  | versionMismatch
  | transportError
  | connectionClosed
  | applicationClosed
  | reset
  | timedOut
  | locallyClosed
  | cidsExhausted
deriving DecidableEq

def ConnectionError.classify : ConnectionError → RelayDeathReason
  | applicationClosed | connectionClosed | locallyClosed => .closed
  | timedOut                                             => .timedOut
  | _                                                    => .other

-- A datagram that cannot be sent, because the connection is lost or for a reason of its own.
inductive SendError
  | connectionLost (e : ConnectionError)
  | unsupportedByPeer
  | disabled
  | tooLarge
deriving DecidableEq

structure RelayTransport where
  closeReason : Option ConnectionError := none
  lastSeen : Option SocketAddr
  uplink : Bool := true
  downlink : Bool := true
  firstDeath : Option RelayDeathReason := none
deriving DecidableEq

namespace RelayTransport

abbrev Bytes := List (BitVec 8)

-- What comes to the pumps, with what becomes of what they pass on, and what happens besides.
inductive Event
  | localRecv (data : Bytes) (src : SocketAddr) (sent : Except SendError Unit)
  | localRecvFails
  | relayRecv (dgram : Bytes) (sent : Bool)
  | relayRecvFails (e : ConnectionError)
  | setLocalPeer (addr : SocketAddr)
  | close (e : ConnectionError)

inductive Output
  | toRelay (data : Bytes)
  | toLocal (data : Bytes) (peer : SocketAddr)
deriving DecidableEq

def UPLINK_BUFFER : Nat := 2048

def isHealthy (t : RelayTransport) : Bool :=
  t.closeReason = none

def deathReason (t : RelayTransport) : Option RelayDeathReason :=
  t.firstDeath.or (t.closeReason.map ConnectionError.classify)

-- The first death counts.
def recordDeath (t : RelayTransport) (e : ConnectionError) : RelayTransport :=
  { t with firstDeath := t.firstDeath.or (some e.classify) }

-- A datagram that does not fit the buffer is cut off. A send that fails does not end the pump.
def pumpUp (t : RelayTransport) (data : Bytes) (src : SocketAddr) (sent : Except SendError Unit) :
    RelayTransport × Option Output :=
  let t := { t with lastSeen := some src }
  let t :=
    match sent with
    | .error (.connectionLost e) => t.recordDeath e
    | _                          => t
  (t, some (.toRelay (data.take UPLINK_BUFFER)))

-- The relay puts the key of the source in front. What is too short for one ends the pump.
def pumpDown (t : RelayTransport) (dgram : Bytes) : RelayTransport × Option Output :=
  if dgram.length < 8 then ({ t with downlink := false }, none)
  else
    match t.lastSeen with
    | some peer => (t, some (.toLocal (dgram.drop 8) peer))
    | none      => (t, none)

def next (t : RelayTransport) : Event → RelayTransport × Option Output
  | .localRecv data src sent => if t.uplink then t.pumpUp data src sent else (t, none)
  | .localRecvFails          => ({ t with uplink := false }, none)
  | .relayRecv dgram _       => if t.downlink then t.pumpDown dgram else (t, none)
  | .relayRecvFails e        =>
    if t.downlink then ({ t.recordDeath e with downlink := false }, none) else (t, none)
  | .setLocalPeer addr       => ({ t with lastSeen := some addr }, none)
  | .close e                 => ({ t with closeReason := t.closeReason.or (some e) }, none)

-- A connection fails for its users when it has been closed.
def Possible (t : RelayTransport) : Event → Prop
  | .localRecv _ _ (.error (.connectionLost e)) => t.closeReason = some e
  | .relayRecvFails e                           => t.closeReason = some e
  | _                                           => True

def start (localPeerHint : Option SocketAddr) : RelayTransport :=
  { lastSeen := localPeerHint }

end RelayTransport
end Gateway
