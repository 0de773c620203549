import WireMesh.Lib.Tasks
import WireMesh.Gateway.Ops

-- The paths of a gateway to its peers: the ticks that read a device and drive the paths, the trials that
-- punch, and the relays that are fallen back to. Which trials and relays are started, and when, is left
-- open. So is what the rest of the gateway does to the device and to the desired state.
namespace Gateway.Driver

open Uapi Reconcile
open Controller (RelayInfo)

section State

-- Ticks come one after the other. The paths stay locked while a tick goes through its peers, and
-- endpoints are committed under a lock.
inductive Lock
  | pathTicks
  | paths
  | endpointCommit
deriving DecidableEq

inductive RelayDeathReason
  | closed
  | timedOut
  | other
deriving DecidableEq

-- A transport that has not died is healthy.
structure PeerRelay where
  localAddr : SocketAddr
  relayId : Nat
  death : Option RelayDeathReason := none
deriving DecidableEq

structure PeerLiveness where
  latestHandshake : Option Nat := none
  rxBytes : Nat := 0
  endpoint : Option SocketAddr := none
deriving DecidableEq

-- What a device tells of its peers, by their keys.
abbrev Liveness := HashMap Key PeerLiveness

structure PathCtx where
  held : List Lock := []
  clock : Nat := 0
  active : ActiveTunInfo
  desired : Option DesiredState := none
  wg0Pins : HashMap Nat String := ∅
  liveEndpoints : HashMap Nat String := ∅
  endpointCommitGen : Nat := 0
  paths : HashMap Nat Path := ∅
  relayPointed : HashMap Nat Bool := ∅
  relayTransports : HashMap Nat PeerRelay := ∅
  relayConnecting : List Nat := []
  relayNextIdx : HashMap Nat Nat := ∅
  -- What belongs to the ticks.
  lastHsAge : HashMap Nat Nat := ∅
  lastRx : HashMap Nat Nat := ∅
  pendingHs : HashMap Nat Nat := ∅
  devices : HashMap String Liveness := ∅

def PathCtx.pointed (s : PathCtx) (gid : Nat) : Bool :=
  (s.relayPointed.lookup gid).getD false

def PathCtx.healthy (s : PathCtx) (gid : Nat) : Bool :=
  (s.relayTransports.lookup gid).any (·.death.isNone)

end State

section Operations

inductive Op
  | lock (l : Lock)
  | unlock (l : Lock)
  | now
  | systemNow
  | active
  | desired
  -- Endpoints.
  | pathState (gid : Nat)
  | relayPointed (gid : Nat)
  | pinLive (gid : Nat) (endpoint : SocketAddr)
  | bumpCommitGen
  | scopedConfig (gid : Nat) (privKey : String) (port : Nat)
  | removePeer (ifname : String) (key : Key)
  | addPeer (ifname : String) (key : Key) (endpoint : Option SocketAddr)
  | recordScoped (peer : PeerConfig) (privKey : String) (port : Nat)
  | setRelayPointed (gid : Nat) (isRelay : Bool)
  -- Trials.
  | enterPath (gid now : Nat)
  | punchCancelled (gid : Nat)
  -- Relays.
  | relayHealthy (gid : Nat)
  | tryStartRelayConnect (gid : Nat)
  | endRelayConnect (gid : Nat)
  | nextRelay (gid relays : Nat)
  | relayConnectAllowed (gid relayId : Nat)
  | startTransport (relay : RelayInfo)
  | insertTransport (gid : Nat) (relay : PeerRelay)
  | deathReason (gid : Nat)
  | removeTransport (gid : Nat)
  | unpoint (gid : Nat)
  -- Ticks.
  | commitGen
  | getPeerLiveness (ifname : String)
  | retainRelayPointed (gids : List Nat)
  | retainRelayNextIdx (gids : List Nat)
  | retainLiveEndpoints (gids : List Nat)
  | retainPaths (gids : List Nat)
  | retainSeen (gids : List Nat)
  | healthyRelays (gids : List Nat)
  | entry (gid now : Nat)
  | seeRx (gid rx : Nat)
  | seeAge (gid age : Nat)
  | takePending (gid : Nat)
  | keepPending (gid now : Nat)
  | onHandshake (gid now : Nat) (rxCorroborated : Bool)
  | onAuthenticatedInbound (gid now : Nat)
  | tick (gid now : Nat) (relayAvailable : Bool)
  | livePins
  | pinEndpoints (changes : List (Nat × SocketAddr))
  | unpinLive (gid : Nat)

abbrev Op.Resp : Op → Type
  | now                     => Nat
  | systemNow               => Nat
  | active                  => ActiveTunInfo
  | desired                 => Option DesiredState
  | pathState _             => Option PathState
  | relayPointed _          => Bool
  | scopedConfig _ _ _      => Option (DeviceConfig × Option String)
  | removePeer _ _          => Bool
  | addPeer _ _ _           => Bool
  | recordScoped _ _ _      => Bool
  | punchCancelled _        => Bool
  | relayHealthy _          => Bool
  | tryStartRelayConnect _  => Bool
  | nextRelay _ _           => Nat
  | relayConnectAllowed _ _ => Bool
  | startTransport _        => Option SocketAddr
  | deathReason _           => Option RelayDeathReason
  | commitGen               => Nat
  | getPeerLiveness _       => Option Liveness
  | healthyRelays _         => List Nat
  | entry _ _               => PathState
  | seeRx _ _               => Bool
  | seeAge _ _              => Bool
  | takePending _           => Option Nat
  | tick _ _ _              => PathState × Option PathAction
  | livePins                => HashMap Nat String
  | _                       => Unit

-- What the world decides: whether a call succeeds, the time of day, whether an attempt is let go on, and
-- the port of a transport.
structure Choice where
  succeeds : Bool := true
  systemNow : Nat := 0
  cancelled : Bool := false
  localPort : Option (BitVec 16) := none

namespace PathCtx

def modifyPath (s : PathCtx) (gid : Nat) (f : Path → Path) : PathCtx :=
  match s.paths.lookup gid with
  | some p => { s with paths := s.paths.insert gid (f p) }
  | none   => s

-- A path is started for a peer that has none.
def enter (s : PathCtx) (gid now : Nat) : PathCtx :=
  match s.paths.lookup gid with
  | some _ => s
  | none   => { s with paths := s.paths.insert gid (.new now) }

-- A lock that is held has to be waited for.
def exec (c : Choice) (s : PathCtx) : (o : Op) → Option (o.Resp × PathCtx)
  | .lock l   => if l ∈ s.held then none else some ((), { s with held := l :: s.held })
  | .unlock l => some ((), { s with held := s.held.filter (· ≠ l) })
  | .now       => some (s.clock, s)
  | .systemNow => some (c.systemNow, s)
  | .active    => some (s.active, s)
  | .desired   => some (s.desired, s)
  | .pathState gid =>
    if .paths ∈ s.held then none else some ((s.paths.lookup gid).map (·.state), s)
  | .relayPointed gid => some (s.pointed gid, s)
  | .pinLive gid endpoint =>
    some ((), { s with liveEndpoints := s.liveEndpoints.insert gid endpoint.toString })
  | .bumpCommitGen => some ((), { s with endpointCommitGen := s.endpointCommitGen + 1 })
  | .scopedConfig gid privKey port =>
    let config (ds : DesiredState) :=
      (deviceConfigPinned ds privKey port s.wg0Pins s.liveEndpoints,
        (ds.peers.find? (·.gatewayId = gid)).bind (selectedKey s.wg0Pins))
    some (s.desired.map config, s)
  | .removePeer ifname key =>
    match s.devices.lookup ifname, c.succeeds with
    | some d, true => some (true, { s with devices := s.devices.insert ifname (d.erase key) })
    | _, _         => some (false, s)
  | .addPeer ifname key endpoint =>
    match s.devices.lookup ifname, c.succeeds with
    | some d, true =>
      some (true, { s with devices := s.devices.insert ifname (d.insert key { endpoint }) })
    | _, _         => some (false, s)
  | .recordScoped peer privKey port =>
    let peers := Gw.recordPeer peer s.active.appliedPeers
    match encodeSet ⟨privKey, port, peers⟩ with
    | .ok encoded =>
      some (true, { s with active.appliedConfig := some encoded, active.appliedPeers := peers })
    | .error _    => some (false, { s with active.appliedPeers := peers })
  | .setRelayPointed gid isRelay =>
    some ((), { s with relayPointed := s.relayPointed.insert gid isRelay })
  | .enterPath gid now => if .paths ∈ s.held then none else some ((), s.enter gid now)
  | .punchCancelled _  => some (c.cancelled, s)
  | .relayHealthy gid  => some (s.healthy gid, s)
  | .tryStartRelayConnect gid =>
    if gid ∈ s.relayConnecting then some (false, s)
    else some (true, { s with relayConnecting := gid :: s.relayConnecting })
  | .endRelayConnect gid =>
    some ((), { s with relayConnecting := s.relayConnecting.filter (· ≠ gid) })
  | .nextRelay gid relays =>
    let cursor := (s.relayNextIdx.lookup gid).getD 0
    some (cursor % relays, { s with relayNextIdx := s.relayNextIdx.insert gid (cursor + 1) })
  | .relayConnectAllowed _ _ => some (c.succeeds, s)
  | .startTransport _        => some (c.localPort.map .localhost, s)
  | .insertTransport gid relay =>
    some ((), { s with relayTransports := s.relayTransports.insert gid relay })
  | .deathReason gid     => some ((s.relayTransports.lookup gid).bind (·.death), s)
  | .removeTransport gid => some ((), { s with relayTransports := s.relayTransports.erase gid })
  | .unpoint gid         => some ((), { s with relayPointed := s.relayPointed.erase gid })
  | .commitGen           => some (s.endpointCommitGen, s)
  | .getPeerLiveness ifname =>
    some (if c.succeeds then s.devices.lookup ifname else none, s)
  | .retainRelayPointed gids =>
    some ((), { s with relayPointed := s.relayPointed.retain (· ∈ gids) })
  | .retainRelayNextIdx gids =>
    some ((), { s with relayNextIdx := s.relayNextIdx.retain (· ∈ gids) })
  | .retainLiveEndpoints gids =>
    some ((), { s with liveEndpoints := s.liveEndpoints.retain (· ∈ gids) })
  | .retainPaths gids => some ((), { s with paths := s.paths.retain (· ∈ gids) })
  | .retainSeen gids =>
    some ((), { s with
      lastHsAge := s.lastHsAge.retain (· ∈ gids)
      lastRx    := s.lastRx.retain (· ∈ gids)
      pendingHs := s.pendingHs.retain (· ∈ gids) })
  | .healthyRelays gids =>
    let s := { s with relayTransports := s.relayTransports.retain (· ∈ gids) }
    some (gids.filter s.healthy, s)
  | .entry gid now =>
    let t := s.enter gid now
    some (((t.paths.lookup gid).map (·.state)).getD .connecting, t)
  | .seeRx gid rx =>
    let rose := (s.lastRx.lookup gid).elim (decide (0 < rx)) fun prev => decide (prev < rx)
    some (rose, { s with lastRx := s.lastRx.insert gid rx })
  | .seeAge gid age =>
    let fresh := (s.lastHsAge.lookup gid).all fun prev => decide (age < prev)
    some (fresh, { s with lastHsAge := s.lastHsAge.insert gid age })
  | .takePending gid =>
    some (s.pendingHs.lookup gid, { s with pendingHs := s.pendingHs.erase gid })
  | .keepPending gid now => some ((), { s with pendingHs := s.pendingHs.insert gid now })
  | .onHandshake gid now rxCorroborated =>
    some ((), s.modifyPath gid (·.onHandshake now rxCorroborated))
  | .onAuthenticatedInbound gid now => some ((), s.modifyPath gid (·.onAuthenticatedInbound now))
  | .tick gid now relayAvailable =>
    match s.paths.lookup gid with
    | some p =>
      let (p, action) := p.tick now relayAvailable
      some ((p.state, action), { s with paths := s.paths.insert gid p })
    | none   => some ((.connecting, none), s)
  | .livePins => some (s.liveEndpoints, s)
  | .pinEndpoints changes =>
    let pins := changes.foldl (fun m c => m.insert c.1 c.2.toString) s.liveEndpoints
    some ((), { s with liveEndpoints := pins })
  | .unpinLive gid => some ((), { s with liveEndpoints := s.liveEndpoints.erase gid })

def Answers (s : PathCtx) (o : Op) (x : o.Resp) (t : PathCtx) : Prop :=
  ∃ c, s.exec c o = some (x, t)

end PathCtx

abbrev P := Prog Op.Resp

def perform (o : Op) : P o.Resp :=
  Prog.perform o

end Operations

section Endpoints

-- Putting a peer back is tried twice.
def setOnePeer (ifname : String) (peer : PeerConfig) : P Bool := do
  let .ok key := keyOfB64 peer.publicKeyB64 | return false
  if !(← perform (.removePeer ifname key)) then return false
  let .ok _ := encodeAddPeers [peer] | return false
  let endpoint := peer.endpoint.bind SocketAddr.parse
  if ← perform (.addPeer ifname key endpoint) then return true
  perform (.addPeer ifname key endpoint)

def applyPeerEndpointScoped (ifname : String) (dev : DeviceConfig) (targetPubkey : Option String) :
    P Bool := do
  let some peer := targetPubkey.bind fun pk => dev.peers.find? (·.publicKeyB64 = pk) | return true
  if peer ∈ (← perform .active).appliedPeers then return true
  if !(← setOnePeer ifname peer) then return false
  perform (.recordScoped peer dev.privateKeyB64 dev.listenPort)

-- An address that has been punched yields to a relay.
def mayPoint (gid : Nat) (isRelay : Bool) : P Bool := do
  if isRelay then return true
  let state ← perform (.pathState gid)
  let relayInstalled ← perform (.relayPointed gid)
  return state = some .connecting && !relayInstalled

-- Tells whether the address has been written, has yielded, or that writing it has failed.
inductive Commit
  | committed
  | yielded
  | failed
deriving DecidableEq

def commitEndpoint (gid : Nat) (endpoint : SocketAddr) (isRelay : Bool) : P Commit := do
  let a ← perform .active
  if !(← mayPoint gid isRelay) then return .yielded
  perform (.pinLive gid endpoint)
  perform .bumpCommitGen
  let some (dev, target) ← perform (.scopedConfig gid a.privKey a.wgPort) | return .failed
  if !(← applyPeerEndpointScoped a.ifname dev target) then return .failed
  perform (.setRelayPointed gid isRelay)
  return .committed

def setPeerEndpoint (gid : Nat) (endpoint : SocketAddr) (isRelay : Bool) : P Commit := do
  perform (.lock .endpointCommit)
  let commit ← commitEndpoint gid endpoint isRelay
  perform (.unlock .endpointCommit)
  return commit

end Endpoints

section Punching

-- Tells whether the trial goes on.
def punchStep (gid : Nat) : TrialStep → P Bool
  | .exhausted  => return false
  | .waiting    => return true
  | .punch addr => do
    if ← perform (.punchCancelled gid) then return false
    return (← setPeerEndpoint gid addr false) ≠ .yielded

-- A trial goes round until it is over, or the gateway stops.
def punchLoop (gid : Nat) : Nat → CandidateTrial → P Unit
  | 0, _          => return
  | rounds + 1, t => do
    if ← perform (.punchCancelled gid) then return
    let state ← perform (.pathState gid)
    let pointed ← perform (.relayPointed gid)
    if !(state.isSome && directiveShouldPunch state pointed) then return
    let some (step, t) := t.poll (← perform .now) PER_CANDIDATE_PUNCH_TIMEOUT | return
    if !(← punchStep gid step) then return
    if (← perform (.pathState gid)) = some .direct then return
    punchLoop gid rounds t

def punchAndApply (gid : Nat) (candidates : List String) (rounds : Nat) : P Unit := do
  perform (.enterPath gid (← perform .now))
  punchLoop gid rounds (.new candidates (← perform .now))

def onPunchDirective (gid : Nat) (candidates : List String) (rounds : Nat) : P Unit := do
  let state ← perform (.pathState gid)
  let pointed ← perform (.relayPointed gid)
  if directiveShouldPunch state pointed then punchAndApply gid candidates rounds

end Punching

section Relays

def connectRelay (gid : Nat) (relays : List RelayInfo) : P Unit := do
  if ← perform (.relayHealthy gid) then return
  let some relay := relays[← perform (.nextRelay gid relays.length)]? | return
  if !(← perform (.relayConnectAllowed gid relay.relayId)) then return
  if (SocketAddr.parse relay.endpoint).isNone then return
  let some localAddr ← perform (.startTransport relay) | return
  perform (.insertTransport gid ⟨localAddr, relay.relayId, none⟩)
  let _ ← setPeerEndpoint gid localAddr true

def ensureRelayTransport (gid : Nat) (relays : List RelayInfo) : P Unit := do
  if relays.isEmpty then return
  if ← perform (.relayHealthy gid) then return
  if !(← perform (.tryStartRelayConnect gid)) then return
  connectRelay gid relays
  perform (.endRelayConnect gid)

end Relays

section Ticks

def HANDSHAKE_CORROBORATION_WINDOW : Nat := DEGRADED_AFTER

-- A device may report the time of a handshake or its age. Twenty years tell them apart.
def reportedHandshakeAge (reported now : Nat) : Nat :=
  if reported ≥ seconds (20 * 365 * 86400) then now - reported else reported

-- A handshake needs received bytes to count, at once or within the window. One that a relay has carried
-- counts for no more than the bytes.
def observe (gid now : Nat) (info : PeerLiveness) : P Unit := do
  let rxIncreased ← perform (.seeRx gid info.rxBytes)
  let some t := info.latestHandshake | return
  let age := reportedHandshakeAge t (← perform .systemNow)
  let newHandshake ← perform (.seeAge gid age)
  if newHandshake && rxIncreased then
    let _ ← perform (.takePending gid)
    if ← perform (.relayPointed gid) then perform (.onAuthenticatedInbound gid now)
    else perform (.onHandshake gid now true)
  else if newHandshake then
    perform (.keepPending gid now)
    perform (.onHandshake gid now false)
  else if rxIncreased then
    let pending ← perform (.takePending gid)
    let promoted := pending.any fun hsAt => now - hsAt ≤ HANDSHAKE_CORROBORATION_WINDOW
    let pointed ← perform (.relayPointed gid)
    if promoted && !pointed then perform (.onHandshake gid now true)
    else perform (.onAuthenticatedInbound gid now)

-- What a tick makes of a peer.
structure Found where
  gid : Nat
  before : PathState
  after : PathState
  action : Option PathAction
  sweep : Bool
  endpoint : Option SocketAddr

def collectPeer (now : Nat) (relaysAdvertised : Bool) (healthy : List Nat) (liveness : Liveness)
    (peer : PeerState) : P (Option Found) := do
  let some b64 := peer.activePubkeyB64 | return none
  let .ok key := keyOfB64 b64 | return none
  let gid := peer.gatewayId
  let before ← perform (.entry gid now)
  let info := liveness.lookup key
  info.forM (observe gid now)
  let (after, action) ← perform (.tick gid now (relaysAdvertised && decide (gid ∈ healthy)))
  let unbacked := action ≠ some .relayDied && after ≠ .relayed && gid ∉ healthy
  let sweep ← if unbacked then perform (.relayPointed gid) else pure false
  let endpoint := (info.bind (·.endpoint)).filter fun ep =>
    after.isLive && !ep.isUnspecified && ep.port ≠ 0
  return some ⟨gid, before, after, action, sweep, endpoint⟩

def collect (now : Nat) (relaysAdvertised : Bool) (healthy : List Nat) (liveness : Liveness) :
    List PeerState → P (List Found)
  | []            => return []
  | peer :: peers => do
    let found ← collectPeer now relaysAdvertised healthy liveness peer
    return found.toList ++ (← collect now relaysAdvertised healthy liveness peers)

-- The addresses that the device uses are pinned, unless one has been committed since `gen` was read.
def readThrough (gen : Nat) (found : List Found) : P Unit := do
  let pins ← perform .livePins
  let changes := found.filterMap fun f => do
    let ep ← f.endpoint
    if pins.lookup f.gid = some ep.toString then none else some (f.gid, ep)
  if changes.isEmpty then return
  perform (.lock .endpointCommit)
  if (← perform .commitGen) = gen then perform (.pinEndpoints changes)
  perform (.unlock .endpointCommit)

def settleRecorded (f : Found) : P Unit := do
  if f.before ≠ f.after && !f.after.isLive then perform (.unpinLive f.gid)

def settleDirect (f : Found) : P Unit := do
  if f.before ≠ f.after && f.after = .direct then perform (.removeTransport f.gid)

-- A relay that was closed is reached for again at once, by a task of its own.
def settleDied (f : Found) : P Unit := do
  if f.action = some .relayDied then
    let _ ← perform (.deathReason f.gid)
    perform (.removeTransport f.gid)
    perform (.unpoint f.gid)

def settleSweep (f : Found) : P Unit := do
  if f.sweep then
    if !(← perform (.relayHealthy f.gid)) then
      perform (.removeTransport f.gid)
      perform (.unpoint f.gid)

def pathTick : P Unit := do
  let a ← perform .active
  let gen ← perform .commitGen
  let some liveness ← perform (.getPeerLiveness a.ifname) | return
  let some ds ← perform .desired | return
  let gids := ds.peers.map (·.gatewayId)
  perform (.retainRelayPointed gids)
  perform (.retainRelayNextIdx gids)
  perform (.retainLiveEndpoints gids)
  perform (.retainPaths gids)
  perform (.retainSeen gids)
  let healthy ← perform (.healthyRelays gids)
  let now ← perform .now
  perform (.lock .paths)
  let found ← collect now (!ds.relays.isEmpty) healthy liveness ds.peers
  perform (.unlock .paths)
  readThrough gen found
  found.forM settleRecorded
  found.forM settleDirect
  found.forM settleDied
  found.forM settleSweep

def runPathTick : P Unit := do
  perform (.lock .pathTicks)
  pathTick
  perform (.unlock .pathTicks)

end Ticks

section System

inductive Request
  | pathTick
  | punch (gid : Nat) (candidates : List String) (rounds : Nat)
  | directive (gid : Nat) (candidates : List String) (rounds : Nat)
  | relay (gid : Nat) (relays : List RelayInfo)

def Request.prog : Request → P Unit
  | pathTick                        => runPathTick
  | punch gid candidates rounds     => punchAndApply gid candidates rounds
  | directive gid candidates rounds => onPunchDirective gid candidates rounds
  | relay gid relays                => ensureRelayTransport gid relays

-- What happens to a gateway's paths from outside: time passes, the device is at work or written by the
-- main loop, the main loop goes on to other states, devices and keys, and relays die.
inductive Outside
  | elapse (ns : Nat)
  | device (ifname : String) (peers : Liveness)
  | desired (ds : DesiredState)
  | active (a : ActiveTunInfo)
  | wg0Pins (pins : HashMap Nat String)
  | redial (gid : Nat) (endpoint : String)
  | relayDies (gid : Nat) (reason : RelayDeathReason)

def PathCtx.outside (s : PathCtx) : Outside → PathCtx
  | .elapse ns           => { s with clock := s.clock + ns }
  | .device ifname peers => { s with devices := s.devices.insert ifname peers }
  | .desired ds          => { s with desired := some ds }
  | .active a            => { s with active := a }
  | .wg0Pins pins        => { s with wg0Pins := pins }
  | .redial gid endpoint => { s with liveEndpoints := s.liveEndpoints.insert gid endpoint }
  | .relayDies gid why   =>
    match s.relayTransports.lookup gid with
    | some relay =>
      let died := { relay with death := relay.death.or (some why) }
      { s with relayTransports := s.relayTransports.insert gid died }
    | none       => s

abbrev System := Pool Op.Resp PathCtx

abbrev SystemEvent := Pool.Event Request Op.Resp Outside

abbrev History := Pool.History Request Op.Resp Outside PathCtx

-- A gateway that is started over knows nothing of its paths.
def rules : Pool.Rules Request Op.Resp Outside PathCtx where
  prog      := Request.prog
  answers   := PathCtx.Answers
  env s v t := t = s.outside v
  halt s    := { clock := s.clock, active := s.active }

abbrev Runs (active : ActiveTunInfo) (h : History) (s : System) : Prop :=
  Run (Pool.Step rules) ⟨{ active }, []⟩ h s

-- The paths as they go where the world decides by the operation alone.
def player (choose : Op → Choice) : Pool.Player rules where
  exec s o    := s.exec (choose o) o
  outside s v := some (s.outside v)
  answers h   := ⟨_, h⟩
  env h       := (Option.some.inj h).symm

end System
end Gateway.Driver
