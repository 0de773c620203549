import WireMesh.Lib.Tasks
import WireMesh.Controller.Broker

-- The broker at work: its loop, and the calls of the gateways' streams and of their reports beside it.
namespace Controller

structure PunchDirective where
  peerGatewayId : UInt64
  candidates : List String
  goUnixMs : Nat
deriving DecidableEq

inductive SyncMessage
  | punch (directive : PunchDirective)
  | rotate (epoch : Nat)
deriving DecidableEq

def PUNCH_LEAD_MS : Nat := 300

def PUNCH_CHANNEL_CAPACITY : Nat := 16

def MAX_PERIODIC_ATTEMPTS : Nat := 5

-- The channel of a stream, with what the stream has not taken out yet. It is closed once nobody will.
structure PunchChannel where
  id : Nat
  queued : List SyncMessage
  closed : Bool
deriving DecidableEq

def PunchChannel.accepts (c : PunchChannel) : Bool :=
  !c.closed && c.queued.length < PUNCH_CHANNEL_CAPACITY

def PunchChannel.trySend (c : PunchChannel) (m : SyncMessage) : Option PunchChannel :=
  if c.accepts then some { c with queued := c.queued ++ [m] } else none

-- What the broker shares between its tasks, and of the database the active gateways with their
-- segments and the candidates of each.
structure Hub where
  broker : Broker
  registry : HashMap Int PunchChannel
  gateways : List (Int × Nat)
  candidates : HashMap Int (List String)
  clock : Nat
  looping : Bool

namespace Hub

def start : Hub where
  broker     := ⟨∅, ∅⟩
  registry   := ∅
  gateways   := []
  candidates := ∅
  clock      := 0
  looping    := false

def accepts (s : Hub) (g : Int) : Bool :=
  (s.registry.lookup g).any PunchChannel.accepts

def trySend (s : Hub) (g : Int) (m : SyncMessage) : Bool × Hub :=
  match (s.registry.lookup g).bind (·.trySend m) with
  | some c => (true, { s with registry := s.registry.insert g c })
  | none   => (false, s)

-- Both directives leave in one go. The second is sent even if the first could not be.
def sendPair (s : Hub) (a b : Int) (forA forB : PunchDirective) : Bool × Hub :=
  if a ∈ s.registry ∧ b ∈ s.registry then
    let (aSent, s) := s.trySend a (.punch forA)
    let (bSent, s) := s.trySend b (.punch forB)
    (aSent && bSent, s)
  else (false, s)

-- What makes the broker send.
inductive Trigger
  | sweep
  | edge
deriving DecidableEq

-- A part of the broker's work that nothing else comes between. The loop turns to one trigger after the
-- other.
inductive Op
  | enterLoop
  | leaveLoop
  | connected
  | gatewayIdentityById (g : Int)
  | listOtherGateways (g : Int)
  | bothRegistered (a b : Int)
  | pairSettled (a b : Int)
  | candidatesFor (g : Int)
  | nowUnixMs
  | attempts (key : Int × Int)
  | sendPair (why : Trigger) (a b : Int) (forA forB : PunchDirective)
  | countAttempt (key : Int × Int)
  | resetPair (a b : Int)
  | register (g : Int) (channel : Nat)
  | clearReportedStates (g : Int)
  | storeReport (report : Report)

-- The database answers with an error or not.
abbrev Op.Resp : Op → Type
  | connected             => List Int
  | gatewayIdentityById _ => Option (Option Nat)
  | listOtherGateways _   => Option (List (Int × Nat))
  | bothRegistered _ _    => Bool
  | pairSettled _ _       => Bool
  | candidatesFor _       => Option (List String)
  | nowUnixMs             => Nat
  | attempts _            => Nat
  | sendPair _ _ _ _ _    => Bool
  | storeReport _         => List Int
  | _                     => Unit

def attempts (broker : Broker) (key : Int × Int) : Nat :=
  (broker.periodicAttempts.lookup key).getD 0

def countAttempt (broker : Broker) (key : Int × Int) : Broker :=
  { broker with periodicAttempts := broker.periodicAttempts.insert key (attempts broker key + 1) }

def resetPair (broker : Broker) (a b : Int) : Broker :=
  { broker with periodicAttempts := broker.periodicAttempts.erase (pairKey a b) }

-- The loop is entered when it has come to its end.
def exec (s : Hub) : (o : Op) → Option (o.Resp × Hub)
  | .enterLoop                => if s.looping then none else some ((), { s with looping := true })
  | .leaveLoop                => some ((), { s with looping := false })
  | .connected                => some (s.registry.keys, s)
  | .gatewayIdentityById g    => some (some (s.gateways.lookup g), s)
  | .listOtherGateways g      => some (some (s.gateways.filter (·.1 ≠ g)), s)
  | .bothRegistered a b       => some (decide (a ∈ s.registry ∧ b ∈ s.registry), s)
  | .pairSettled a b          => some (settledIn s.broker.peerPathStates a b, s)
  | .candidatesFor g          => some (some ((s.candidates.lookup g).getD []), s)
  | .nowUnixMs                => some (s.clock, s)
  | .attempts key             => some (attempts s.broker key, s)
  | .sendPair _ a b forA forB => some (s.sendPair a b forA forB)
  | .countAttempt key         => some ((), { s with broker := countAttempt s.broker key })
  | .resetPair a b            => some ((), { s with broker := resetPair s.broker a b })
  | .register g channel       =>
    some ((), { s with registry := s.registry.insert g ⟨channel, [], false⟩ })
  | .clearReportedStates g    =>
    some ((), { s with broker.peerPathStates := s.broker.peerPathStates.erase g })
  | .storeReport report       =>
    let before := s.broker.peerPathStates
    let after := Controller.storeReport before report
    some (Broker.unsettledEdges before after report, { s with broker.peerPathStates := after })

-- The keys of a map come in any order, and a query may fail.
inductive Answers (s : Hub) : (o : Op) → o.Resp → Hub → Prop
  | done : s.exec o = some (x, t) → Answers s o x t
  | connected : ids.Perm s.registry.keys → Answers s .connected ids s
  | identityFailed : Answers s (.gatewayIdentityById g) none s
  | listFailed : Answers s (.listOtherGateways g) none s
  | candidatesFailed : Answers s (.candidatesFor g) none s

abbrev P := Prog Op.Resp

def perform (o : Op) : P o.Resp :=
  Prog.perform o

def emitPair (why : Trigger) (a b : Int) : P Bool := do
  if !(← perform (.bothRegistered a b)) then return false
  if ← perform (.pairSettled a b) then return false
  match ← perform (.candidatesFor a) with
  | none             => return false
  | some aCandidates =>
    match ← perform (.candidatesFor b) with
    | none             => return false
    | some bCandidates =>
      if aCandidates.isEmpty || bCandidates.isEmpty then return false
      let goUnixMs := (← perform .nowUnixMs) + PUNCH_LEAD_MS
      perform (.sendPair why a b ⟨.ofInt b, bCandidates, goUnixMs⟩ ⟨.ofInt a, aCandidates, goUnixMs⟩)

def emitPairPeriodic (a b : Int) : P Unit := do
  let key := pairKey a b
  if (← perform (.attempts key)) ≥ MAX_PERIODIC_ATTEMPTS then return
  if ← emitPair .sweep a b then perform (.countAttempt key)

def peerIdsOf (g : Int) : P (Option (List Int)) := do
  match ← perform (.gatewayIdentityById g) with
  | none                  => return none
  | some none             => return some []
  | some (some mySegment) =>
    match ← perform (.listOtherGateways g) with
    | none        => return none
    | some others => return some ((others.filter (·.2 ≠ mySegment)).map (·.1))

def punchPeersOf (g : Int) (reset : Bool) : P Unit := do
  match ← peerIdsOf g with
  | none       => return
  | some peers =>
    peers.forM fun peer => do
      if reset then perform (.resetPair g peer)
      let _ ← emitPair .edge g peer

-- Each pair is handled once, from its lower id.
def periodicSweep : P Unit := do
  let connected ← perform .connected
  connected.forM fun gw => do
    match ← peerIdsOf gw with
    | none       => return
    | some peers =>
      peers.forM fun peer =>
        if peer ≤ gw ∨ peer ∉ connected then return else emitPairPeriodic gw peer

def onGatewayConnected (g : Int) : P Unit := do
  perform (.clearReportedStates g)
  punchPeersOf g true

def onReport (report : Report) : P Unit := do
  if !report.snapshot && report.peerPaths.isEmpty then return
  let edges ← perform (.storeReport report)
  edges.forM fun peer => do
    perform (.resetPair report.reporter peer)
    let _ ← emitPair .edge report.reporter peer

-- What the tasks of the broker are about: a tick of the loop, a candidate that has changed, a stream
-- that opens, a report.
inductive Request
  | tick
  | endpointObserved (g : Int)
  | watch (g : Int) (channel : Nat)
  | report (report : Report)

def inLoop (p : P Unit) : P Unit := do
  perform .enterLoop
  p
  perform .leaveLoop

def Request.handle : Request → P Unit
  | tick               => inLoop periodicSweep
  | endpointObserved g => inLoop (punchPeersOf g true)
  | watch g channel    => do perform (.register g channel); onGatewayConnected g
  | report r           => onReport r

-- What happens to the channels, to the clock and to the database from outside.
inductive Outside
  | taken (g : Int)
  | queued (g : Int) (m : SyncMessage)
  | closed (g : Int)
  | dropped (g : Int) (channel : Nat)
  | clock (ms : Nat)
  | database (gateways : List (Int × Nat)) (candidates : HashMap Int (List String))

-- A channel that is not registered any more is nobody's business.
def channel (s : Hub) (g : Int) (f : PunchChannel → PunchChannel) : Hub :=
  match s.registry.lookup g with
  | some c => { s with registry := s.registry.insert g (f c) }
  | none   => s

def outside (s : Hub) : Outside → Hub
  | .taken g       => s.channel g fun c => { c with queued := c.queued.tail }
  | .queued g m    => (s.trySend g m).2
  | .closed g      => s.channel g fun c => { c with closed := true }
  | .dropped g id  =>
    if (s.registry.lookup g).any (·.id = id) then { s with registry := s.registry.erase g } else s
  | .clock ms      => { s with clock := ms }
  | .database gs c => { s with gateways := gs, candidates := c }

-- A controller that is started again knows nothing but the database.
def restart (s : Hub) : Hub :=
  { start with gateways := s.gateways, candidates := s.candidates, clock := s.clock }

def rules : Pool.Rules Request Op.Resp Outside Hub where
  prog      := Request.handle
  answers   := Answers
  env s v t := t = s.outside v
  halt      := restart

abbrev System := Pool Op.Resp Hub

abbrev History := Pool.History Request Op.Resp Outside Hub

abbrev Runs (h : History) (s : System) : Prop :=
  Run (Pool.Step rules) ⟨start, []⟩ h s

def player : Pool.Player rules where
  exec        := exec
  outside s v := some (s.outside v)
  answers     := .done
  env h       := (Option.some.inj h).symm

end Hub
end Controller
