import WireMesh.Lib.SocketAddr

-- The path to a peer as a state machine, and the trial of the addresses that a peer may be reached at.
-- Instants and durations are in nanoseconds.
namespace Gateway

-- Clocks count nanoseconds.
def seconds (n : Nat) : Nat := n * 10 ^ 9

def CONNECT_TIMEOUT : Nat := seconds 10

def DEGRADED_AFTER : Nat := seconds 45

def DEGRADED_DEAD_AFTER : Nat := CONNECT_TIMEOUT

def BACKOFF_INITIAL : Nat := seconds 2

def BACKOFF_MAX : Nat := seconds 30

def PROBE_DIRECT_INTERVAL : Nat := seconds 20

inductive PathState
  | connecting
  | direct
  | degraded
  | relayed
  | disconnected
deriving DecidableEq

-- The states in which traffic flows.
def PathState.isLive (s : PathState) : Bool :=
  s = .direct || s = .relayed

def directiveShouldPunch (state : Option PathState) (relayPointed : Bool) : Bool :=
  (state = none || state = some .connecting) && !relayPointed

inductive PathAction
  | startPunch
  | markRelayNeeded
  | relayDied
  | retry
  | probeDirect
deriving DecidableEq

structure Path where
  state : PathState
  lastHandshake : Option Nat
  lastInbound : Option Nat
  connectingSince : Nat
  backoff : Nat
  degradedSince : Option Nat
  disconnectedSince : Option Nat
  relayedProbeLast : Option Nat
deriving DecidableEq

namespace Path

def new (now : Nat) : Path where
  state             := .connecting
  lastHandshake     := none
  lastInbound       := none
  connectingSince   := now
  backoff           := BACKOFF_INITIAL
  degradedSince     := none
  disconnectedSince := none
  relayedProbeLast  := none

-- A handshake without received bytes is no evidence.
def onHandshake (p : Path) (now : Nat) (rxCorroborated : Bool) : Path :=
  if !rxCorroborated then p
  else { p with
    lastHandshake     := some now
    lastInbound       := some now
    state             := .direct
    degradedSince     := none
    disconnectedSince := none
    relayedProbeLast  := none
    backoff           := BACKOFF_INITIAL }

def onAuthenticatedInbound (p : Path) (now : Nat) : Path :=
  { p with lastInbound := some now }

-- The direct path has had its time. A relay takes over where there is one.
def giveUp (p : Path) (now : Nat) (relayAvailable : Bool) : Path :=
  if relayAvailable then { p with state := .relayed, relayedProbeLast := some now }
  else { p with state := .disconnected, disconnectedSince := some now }

def tick (p : Path) (now : Nat) (relayAvailable : Bool) : Path × Option PathAction :=
  match p.state with
  | .connecting =>
    if now - p.connectingSince ≥ CONNECT_TIMEOUT then
      (p.giveUp now relayAvailable, some .markRelayNeeded)
    else (p, none)
  | .direct =>
    match p.lastInbound.or p.lastHandshake with
    | some last =>
      if now - last ≥ DEGRADED_AFTER then
        ({ p with state := .degraded, degradedSince := some now }, some .retry)
      else (p, none)
    | none => (p, none)
  | .degraded =>
    if now - p.degradedSince.getD now ≥ DEGRADED_DEAD_AFTER then
      (p.giveUp now relayAvailable, some .markRelayNeeded)
    else (p, some .retry)
  | .relayed =>
    if relayAvailable then
      if p.relayedProbeLast.all fun last => decide (now - last ≥ PROBE_DIRECT_INTERVAL) then
        ({ p with relayedProbeLast := some now }, some .probeDirect)
      else (p, none)
    else
      ({ p with state := .disconnected, disconnectedSince := some now, relayedProbeLast := none },
        some .relayDied)
  | .disconnected =>
    if now - p.disconnectedSince.getD now ≥ p.backoff then
      ({ p with
          state             := .connecting
          connectingSince   := now
          disconnectedSince := none
          backoff           := min (p.backoff * 2) BACKOFF_MAX },
        some .startPunch)
    else (p, none)

end Path

-- An IPv4 address and a port. Those of another family do not parse here, and are not dialled by the
-- source.
structure SocketAddr where
  ip : BitVec 32
  port : BitVec 16
deriving DecidableEq

namespace SocketAddr

def parse (text : String) : Option SocketAddr := do
  let (ip, port) ← Text.parseSocketAddrV4 text.toList
  return ⟨ip, port⟩

def toString (a : SocketAddr) : String :=
  String.ofList (Text.socketAddrV4Chars a.ip a.port.toNat)

def isUnspecified (a : SocketAddr) : Bool :=
  a.ip = 0

def isLoopback (a : SocketAddr) : Bool :=
  a.ip >>> 24 = 127

def localhost (port : BitVec 16) : SocketAddr :=
  ⟨0x7f000001, port⟩

end SocketAddr

def PER_CANDIDATE_PUNCH_TIMEOUT : Nat := seconds 5

inductive TrialStep
  | punch (addr : SocketAddr)
  | waiting
  | exhausted
deriving DecidableEq

-- The addresses are tried one after the other, each of them once.
structure CandidateTrial where
  candidates : List SocketAddr
  idx : Nat
  punchedCurrent : Bool
  currentStarted : Nat
  exhausted : Bool
deriving DecidableEq

namespace CandidateTrial

def new (candidates : List String) (now : Nat) : CandidateTrial :=
  let candidates := candidates.filterMap SocketAddr.parse |>.filter fun addr =>
    !addr.isUnspecified && !addr.isLoopback
  { candidates
    idx            := 0
    punchedCurrent := false
    currentStarted := now
    exhausted      := candidates.isEmpty }

-- There is no result where the index is out of bounds.
def poll (t : CandidateTrial) (now perCandidateTimeout : Nat) : Option (TrialStep × CandidateTrial) :=
  if t.exhausted then some (.exhausted, t)
  else if !t.punchedCurrent then do
    let t := { t with punchedCurrent := true, currentStarted := now }
    return (.punch (← t.candidates[t.idx]?), t)
  else if now - t.currentStarted < perCandidateTimeout then some (.waiting, t)
  else
    let t := { t with idx := t.idx + 1 }
    if t.idx ≥ t.candidates.length then some (.exhausted, { t with exhausted := true })
    else do
      let t := { t with currentStarted := now }
      return (.punch (← t.candidates[t.idx]?), t)

-- The steps that a driver is told at each of its polls.
def polls (t : CandidateTrial) (perCandidateTimeout : Nat) :
    List Nat → Option (List (Nat × TrialStep))
  | []           => some []
  | now :: times => do
    let (step, t) ← t.poll now perCandidateTimeout
    return (now, step) :: (← t.polls perCandidateTimeout times)

end CandidateTrial
end Gateway
