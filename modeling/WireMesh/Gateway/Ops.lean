import WireMesh.Lib.Prog
import WireMesh.Gateway.Enforce
import WireMesh.Gateway.EpochKeys
import WireMesh.Gateway.Path
import WireMesh.Gateway.Rotation

-- The state of a running gateway, its devices and its routes, and what its tasks do to them in one go.
-- Each operation holds the locks that it needs from its start to its end.
namespace Gateway

open Uapi Reconcile
open Controller (StateSnapshot Delta)

-- The device that carries the traffic, and what it was last given by way of `appliedConfig`.
structure ActiveTunInfo where
  ifname : String
  privKey : String
  wgPort : Nat
  epoch : Nat
  appliedConfig : Option Body := none
  appliedPeers : List PeerConfig := []
deriving DecidableEq

structure RoleAPeer where
  gatewayId : Nat
  activeKey : Key
  cidrs : List String
deriving DecidableEq

structure RoleA where
  newTun : String
  newPriv : String
  newPort : Nat
  oldEpoch : Nat
  peers : List RoleAPeer
deriving DecidableEq

structure RoleB where
  pendingEpoch : Nat
  newTun : String
  builtAtOwnEpoch : Nat
  peerPendingKey : Key
  peerCidrs : List String
  cutOver : Bool := false
  done : Bool := false
  collapseArmed : Bool := false
deriving DecidableEq

def RoleB.claim (b : RoleB) : OverlapClaim :=
  ⟨b.builtAtOwnEpoch, b.cutOver⟩

def RoleB.identity (b : RoleB) : OverlapIdentity :=
  ⟨b.pendingEpoch, b.newTun⟩

-- The main loop and the rotation ticks take their turns one after the other. Endpoints are committed
-- under a lock.
inductive Lock
  | mainLoop
  | rotationTicks
  | endpointCommit
deriving DecidableEq

structure Config where
  tunIfname : String
  wgListenPort : Nat
  legacyPrivB64 : String
  legacyPubB64 : String
deriving DecidableEq

inductive Message
  | snapshot (s : StateSnapshot)
  | delta (d : Delta)

structure Gw where
  config : Config
  -- What is on disk.
  stateJson : Option DesiredState
  storedKeys : Option EpochKeys
  -- The process has come up, and has not given up.
  booted : Bool := false
  exited : Bool := false
  held : List Lock := []
  clock : Nat := 0
  -- What the tasks share.
  active : ActiveTunInfo
  wg0Pins : HashMap Nat String := ∅
  liveEndpoints : HashMap Nat String := ∅
  desired : Option DesiredState := none
  published : Option DesiredState := none
  paths : HashMap Nat PathState := ∅
  relayPointed : HashMap Nat Bool := ∅
  endpointCommitGen : Nat := 0
  enforcers : HashMap TunnelId GatewayEnforcer
  rotation : RotationPhase := .idle
  roleA : Option RoleA := none
  roleB : HashMap Nat RoleB := ∅
  retireReady : Option Nat := none
  collapseReady : List (Nat × Nat) := []
  epochKeys : EpochKeys
  -- What belongs to the main loop and to the rotation ticks.
  current : Option DesiredState := none
  applied : Option DesiredState := none
  tunnels : TunnelSet
  retireAllLiveSince : Option Nat := none
  -- The devices by their names, and the device of each route.
  devices : HashMap String Device
  routes : HashMap String String := ∅

-- What a gateway mints for a directive.
inductive Minted
  | refused
  | unpersisted (key : EpochKey)
  | minted (key : EpochKey) (activeEpoch : Nat)

-- A peer has to be live on the new device for as long before the old one goes.
def RETIRE_GRACE : Nat := seconds 6

-- In seconds.
def ROTATION_KEEPALIVE : Nat := 3

inductive Op
  | boot
  | lock (l : Lock)
  | unlock (l : Lock)
  | exit
  -- The main loop.
  | classify (m : Message)
  | reconnect
  | applied
  | setApplied (ds : DesiredState)
  | setDesired (ds : DesiredState)
  | publish (ds : DesiredState)
  | save (ds : DesiredState)
  -- The active device and what it was given.
  | active
  | deviceConfig (ds : DesiredState) (privKey : String) (port : Nat)
  | recordApplied (encoded : Body) (peers : List PeerConfig)
  | recordAdded (snapCfg : Option Body) (snapPeers : List PeerConfig) (encoded : Body)
      (peers : List PeerConfig)
  | recordScoped (peer : PeerConfig) (privKey : String) (port : Nat)
  | renormalized (port : Nat)
  -- Devices and routes.
  | send (ifname : String) (body : Body)
  | addRoute (cidr ifname : String)
  | delRoute (cidr ifname : String)
  | plan (id : TunnelId)
  | bringUp (plan : TunnelPlan) (privKey : String)
  | tearDown (id : TunnelId)
  | setListenPort (id : TunnelId) (port : Nat)
  | attach (ifname : String) (ds : DesiredState)
  | insertEnforcer (id : TunnelId) (e : GatewayEnforcer)
  | removeEnforcer (id : TunnelId)
  -- The rotation of the own key.
  | onDirective (epoch : Nat)
  | mint (epoch : Nat)
  | roleA
  | setRoleA (a : Option RoleA)
  | submitEpochKey (epoch : Nat) (pubkeyB64 : String)
  | discardPending (epoch : Nat)
  | onFailed
  | phase
  | watch (a : RoleA) (phase : RotationPhase)
  | liveness (ifname : String)
  | onNewEpochSession
  | seedGuard (a : RoleA)
  | setActive (a : ActiveTunInfo)
  | promote (epoch : Nat)
  | allLive
  | notAllLive
  | signalRetire (oldEpoch : Nat)
  | takeRetireReady
  | onEpochRetired (epoch : Nat)
  | retireKey (epoch : Nat)
  -- Overlaps with peers that rotate theirs.
  | collapseRoleB (ds : DesiredState)
  | roleB
  | roleBOf (gid : Nat)
  | takeRoleB (gid : Nat)
  | insertRoleB (gid : Nat) (b : RoleB)
  | pin (gid : Nat) (pubkeyB64 : String)
  | unpin (gid : Nat)
  | markCutOver (gid : Nat) (taken : OverlapIdentity)
  | markDone (gid : Nat) (taken : OverlapIdentity)
  | dropOverlap (gid : Nat) (taken : OverlapIdentity)
  | sendEpochAck (gid epoch : Nat)
  | signalCollapse (gid epoch : Nat)
  | takeCollapseReady
  -- Endpoints and paths.
  | mayPoint (gid : Nat) (isRelay : Bool)
  | pinLive (gid : Nat) (endpoint : String)
  | scopedConfig (gid : Nat) (privKey : String) (port : Nat)
  | setRelayPointed (gid : Nat) (isRelay : Bool)
  | commitGen
  | readThrough (gid : Nat) (endpoint : String) (gen : Nat)
  | transition (gid : Nat) (after : PathState)

abbrev Op.Resp : Op → Type
  | classify _         => Option DesiredState
  | boot               => Option DesiredState
  | applied            => Option DesiredState
  | save _             => Bool
  | active             => ActiveTunInfo
  | deviceConfig _ _ _ => DeviceConfig
  | recordScoped _ _ _ => Bool
  | send _ _           => Bool
  | addRoute _ _       => Bool
  | delRoute _ _       => Bool
  | plan _             => Option TunnelPlan
  | bringUp _ _        => Bool
  | setListenPort _ _  => Bool
  | attach _ _         => Option GatewayEnforcer
  | onDirective _      => Option RotationAction
  | mint _             => Minted
  | roleA              => Option RoleA
  | submitEpochKey _ _ => Bool
  | phase              => RotationPhase
  | watch _ _          => List (Nat × Key)
  | liveness _         => Option (List Key)
  | onNewEpochSession  => Option RotationAction
  | seedGuard _        => Option (Body × List PeerConfig)
  | allLive            => Bool
  | takeRetireReady    => Option Nat
  | onEpochRetired _   => Option RotationAction
  | roleB              => HashMap Nat RoleB
  | roleBOf _          => Option RoleB
  | takeRoleB _        => Option RoleB
  | markCutOver _ _    => WriteBack
  | markDone _ _       => WriteBack
  | dropOverlap _ _    => WriteBack
  | sendEpochAck _ _   => Bool
  | takeCollapseReady  => List (Nat × Nat)
  | mayPoint _ _       => Bool
  | scopedConfig _ _ _ => Option (DeviceConfig × Option String)
  | commitGen          => Nat
  | _                  => Unit

-- A filter that has been attached is given the policy of the state at once, whose text reads as `parsed`.
def GatewayEnforcer.given (e : GatewayEnforcer) (ds : DesiredState) (parsed : Policy.PolicyIR) :
    GatewayEnforcer :=
  { e with
    enforced       := some (if ds.policyIr.isEmpty then ⟨1, ds.policyVersion, []⟩ else parsed)
    appliedVersion := some ds.policyVersion }

-- What the world decides: whether a call or a write succeeds, the key that is drawn, the peers that
-- have been heard on a device, the filter that is attached and takes its policy, and how that reads.
structure Choice where
  succeeds : Bool := true
  persists : Bool := true
  privateKeyB64 : String := ""
  pubkeyB64 : String := ""
  live : Option (List Key) := none
  enforcer : Option GatewayEnforcer := some {}
  policy : Policy.PolicyIR := ⟨1, 0, []⟩

namespace Gw

-- A delta needs a state to be applied to.
def classify (s : Gw) : Message → Option DesiredState
  | .snapshot snap => some (.fromSnapshot snap)
  | .delta d       => s.current.map (·.applyDelta d)

def modifyOverlap (s : Gw) (gid : Nat) (taken : OverlapIdentity) (f : RoleB → Option RoleB) :
    WriteBack × Gw :=
  match s.roleB.lookup gid with
  | none   => (.vanished, s)
  | some b =>
    match overlapWriteBack taken (some b.identity) with
    | .apply =>
      let roleB :=
        match f b with
        | some b' => s.roleB.insert gid b'
        | none    => s.roleB.erase gid
      (.apply, { s with roleB })
    | verdict => (verdict, s)

-- The peer has taken the key of its overlap for its active one. It is unpinned, and dialled where its
-- new device is if the gateway has rotated in the meantime.
def collapseOne (ds : DesiredState) (s : Gw) (gid : Nat) : Gw :=
  match s.roleB.lookup gid, ds.peers.find? (·.gatewayId = gid) with
  | some b, some peer =>
    if b.collapseArmed ∨ peer.pendingKey.isSome ∨
        (peer.activeKey.bind fun k => (keyOfB64 k.pubkeyB64).toOption) ≠ some b.peerPendingKey then s
    else
      let dial := peer.primaryEndpoint.bind (collapseDial s.active.epoch b.builtAtOwnEpoch)
      { s with
        wg0Pins       := s.wg0Pins.erase gid
        liveEndpoints := dial.elim s.liveEndpoints (s.liveEndpoints.insert gid)
        roleB         := s.roleB.insert gid { b with collapseArmed := true } }
  | _, _ => s

def collapse (s : Gw) (ds : DesiredState) : Gw :=
  s.roleB.keys.foldl (collapseOne ds) s

def selectedFor (s : Gw) (ds : DesiredState) (gid : Nat) : Option String :=
  (ds.peers.find? (·.gatewayId = gid)).bind (selectedKey s.wg0Pins)

def pinnedConfig (s : Gw) (ds : DesiredState) (privKey : String) (port : Nat) : DeviceConfig :=
  deviceConfigPinned ds privKey port s.wg0Pins s.liveEndpoints

-- A peer takes the place of the entry with its key, or comes at the end.
def recordPeer (peer : PeerConfig) (peers : List PeerConfig) : List PeerConfig :=
  match peers.findIdx? (·.publicKeyB64 = peer.publicKeyB64) with
  | some i => peers.set i peer
  | none   => peers ++ [peer]

def persist (c : Choice) (s : Gw) (ks : EpochKeys) : Gw :=
  { s with epochKeys := ks, storedKeys := if c.persists then some ks else s.storedKeys }

-- An operation of a process that has come up. A lock that is held has to be waited for. What is one step
-- here may take several locks for a moment each in the source: `pinLive` that of the endpoints before it
-- bumps the generation, `mayPoint` those of the paths and of the relays, and `collapseRoleB` those of the
-- pins, of the active device and of the endpoints while it holds that of the overlaps.
def exec (c : Choice) (s : Gw) : (o : Op) → Option (o.Resp × Gw)
  | .boot     => none
  | .lock l   => if l ∈ s.held then none else some ((), { s with held := l :: s.held })
  | .unlock l => some ((), { s with held := s.held.filter (· ≠ l) })
  | .exit     => some ((), { s with exited := true })
  | .classify m    => some (s.classify m, { s with current := (s.classify m).or s.current })
  | .reconnect     => some ((), { s with current := s.applied })
  | .applied       => some (s.applied, s)
  | .setApplied ds => some ((), { s with applied := some ds })
  | .setDesired ds => some ((), { s with desired := some ds })
  | .publish ds    => some ((), { s with published := some ds })
  | .save ds       =>
    some (c.succeeds, if c.succeeds then { s with stateJson := some ds } else s)
  | .active        => some (s.active, s)
  | .deviceConfig ds privKey port => some (s.pinnedConfig ds privKey port, s)
  | .recordApplied encoded peers =>
    some ((), { s with active.appliedConfig := some encoded, active.appliedPeers := peers })
  | .recordAdded snapCfg snapPeers encoded peers =>
    if s.active.appliedConfig = snapCfg ∧ s.active.appliedPeers = snapPeers then
      some ((), { s with active.appliedConfig := some encoded, active.appliedPeers := peers })
    else some ((), s)
  | .recordScoped peer privKey port =>
    let peers := recordPeer peer s.active.appliedPeers
    match encodeSet ⟨privKey, port, peers⟩ with
    | .ok encoded =>
      some (true, { s with active.appliedConfig := some encoded, active.appliedPeers := peers })
    | .error _    => some (false, { s with active.appliedPeers := peers })
  | .renormalized port =>
    match s.active.appliedConfig.map (rewriteListenPort · port) with
    | none           => some ((), { s with active.wgPort := port })
    | some (some cfg) =>
      some ((), { s with active.wgPort := port, active.appliedConfig := some cfg })
    | some none      =>
      some ((), { s with
        active.wgPort := port, active.appliedConfig := none, active.appliedPeers := [] })
  -- A request that fails, or makes the device panic, is taken to have had no effect on it.
  | .send ifname body =>
    match (s.devices.lookup ifname).bind (·.set body), c.succeeds with
    | some d, true => some (true, { s with devices := s.devices.insert ifname d })
    | _, _         => some (false, s)
  | .addRoute cidr ifname =>
    some (c.succeeds, if c.succeeds then { s with routes := s.routes.insert cidr ifname } else s)
  | .delRoute cidr ifname =>
    let gone := if s.routes.lookup cidr = some ifname then s.routes.erase cidr else s.routes
    some (c.succeeds, if c.succeeds then { s with routes := gone } else s)
  | .plan id =>
    some (planTunnel id s.config.tunIfname s.config.wgListenPort (s.tunnels.plans s.clock), s)
  | .bringUp p privKey =>
    match keyOfB64 privKey, s.tunnels.free p && c.succeeds with
    | .ok key, true =>
      some (true, { s with
        tunnels := s.tunnels.bringUp p
        devices := s.devices.insert p.ifname ⟨key, p.listenPort, []⟩ })
    | _, _ => some (false, s)
  | .tearDown id =>
    let devices :=
      match s.tunnels.tunnels.lookup id with
      | some t => s.devices.erase t.ifname
      | none   => s.devices
    some ((), { s with tunnels := s.tunnels.tearDown s.clock id, devices })
  | .setListenPort id port =>
    match s.tunnels.tunnels.lookup id with
    | none   => some (false, s)
    | some t =>
      if t.listenPort = port then some (true, s)
      else if s.tunnels.tunnels.entries.any fun e => e.1 ≠ id ∧ e.2.listenPort = port then
        some (false, s)
      else
        match (s.devices.lookup t.ifname).bind (·.set [.listenPort port]), c.succeeds with
        | some d, true =>
          some (true, { s with
            tunnels := s.tunnels.setListenPort id t port
            devices := s.devices.insert t.ifname d })
        | _, _ => some (false, s)
  | .attach _ ds         => some (c.enforcer.map (·.given ds c.policy), s)
  | .insertEnforcer id e => some ((), { s with enforcers := s.enforcers.insert id e })
  | .removeEnforcer id   => some ((), { s with enforcers := s.enforcers.erase id })
  | .onDirective epoch   =>
    let (rotation, action) := s.rotation.onDirective epoch
    some (action, { s with rotation })
  | .mint epoch =>
    match s.epochKeys.generateNextAt epoch c.privateKeyB64 c.pubkeyB64 with
    | none           => some (.refused, s)
    | some (key, ks) =>
      let s := s.persist c ks
      let activeEpoch := (ks.active.map (·.epoch)).getD 0
      some (if c.persists then .minted key activeEpoch else .unpersisted key, s)
  | .roleA              => some (s.roleA, s)
  | .setRoleA a         => some ((), { s with roleA := a })
  | .submitEpochKey _ _ => some (c.succeeds, s)
  | .discardPending epoch =>
    match s.epochKeys.discardPending epoch with
    | some ks => some ((), s.persist c ks)
    | none    => some ((), s)
  | .onFailed           => some ((), { s with rotation := s.rotation.onFailed.1 })
  | .phase              => some (s.rotation, s)
  | .watch a phase      =>
    let cutOver := phase matches .cutOver _
    let snapshot := a.peers.map fun p => (p.gatewayId, p.activeKey)
    some (newEpochWatchKeys snapshot cutOver s.desired s.wg0Pins, s)
  | .liveness _         => some (c.live, s)
  | .onNewEpochSession  =>
    let (rotation, action) := s.rotation.onNewEpochSession true
    some (action, { s with rotation })
  | .seedGuard a        =>
    let guard := do
      let dev := s.pinnedConfig (← s.desired) a.newPriv a.newPort
      return (← (encodeSet dev).toOption, dev.peers)
    some (guard, s)
  | .setActive a        => some ((), { s with active := a })
  | .promote epoch      =>
    match s.epochKeys.promote epoch with
    | some ks => some ((), s.persist c ks)
    | none    => some ((), s)
  | .allLive            =>
    let since := s.retireAllLiveSince.getD s.clock
    if s.clock - since ≥ RETIRE_GRACE then some (true, { s with retireAllLiveSince := none })
    else some (false, { s with retireAllLiveSince := some since })
  | .notAllLive         => some ((), { s with retireAllLiveSince := none })
  | .signalRetire epoch => some ((), { s with retireReady := some epoch })
  | .takeRetireReady    => some (s.retireReady, { s with retireReady := none })
  | .onEpochRetired epoch =>
    let (rotation, action) := s.rotation.onEpochRetired epoch
    some (action, { s with rotation })
  | .retireKey epoch =>
    match s.epochKeys.retire epoch with
    | some ks => some ((), s.persist c ks)
    | none    => some ((), s)
  | .collapseRoleB ds   => some ((), s.collapse ds)
  | .roleB              => some (s.roleB, s)
  | .roleBOf gid        => some (s.roleB.lookup gid, s)
  | .takeRoleB gid      => some (s.roleB.lookup gid, { s with roleB := s.roleB.erase gid })
  | .insertRoleB gid b  => some ((), { s with roleB := s.roleB.insert gid b })
  | .pin gid key        => some ((), { s with wg0Pins := s.wg0Pins.insert gid key })
  | .unpin gid          => some ((), { s with wg0Pins := s.wg0Pins.erase gid })
  | .markCutOver gid taken => some (s.modifyOverlap gid taken fun b => some { b with cutOver := true })
  | .markDone gid taken    => some (s.modifyOverlap gid taken fun b => some { b with done := true })
  | .dropOverlap gid taken => some (s.modifyOverlap gid taken fun _ => none)
  | .sendEpochAck _ _      => some (c.succeeds, s)
  | .signalCollapse gid epoch =>
    some ((), { s with collapseReady := s.collapseReady ++ [(gid, epoch)] })
  | .takeCollapseReady     => some (s.collapseReady, { s with collapseReady := [] })
  | .mayPoint gid isRelay  =>
    let connecting := s.paths.lookup gid = some .connecting
    let relayInstalled := (s.relayPointed.lookup gid).getD false
    some (isRelay || (connecting && !relayInstalled), s)
  | .pinLive gid ep        =>
    some ((), { s with
      liveEndpoints := s.liveEndpoints.insert gid ep
      endpointCommitGen := s.endpointCommitGen + 1 })
  | .scopedConfig gid privKey port =>
    some (s.desired.map fun ds => (s.pinnedConfig ds privKey port, s.selectedFor ds gid), s)
  | .setRelayPointed gid isRelay => some ((), { s with relayPointed := s.relayPointed.insert gid isRelay })
  | .commitGen             => some (s.endpointCommitGen, s)
  | .readThrough gid ep gen =>
    if s.endpointCommitGen = gen then
      some ((), { s with liveEndpoints := s.liveEndpoints.insert gid ep })
    else some ((), s)
  | .transition gid after  =>
    let liveEndpoints :=
      if after = .direct ∨ after = .relayed then s.liveEndpoints else s.liveEndpoints.erase gid
    some ((), { s with paths := s.paths.insert gid after, liveEndpoints })

-- A process that is not up yet has to come up first, and one that has given up does nothing more.
def step (c : Choice) (s : Gw) (o : Op) : Option (o.Resp × Gw) :=
  match o with
  | .boot =>
    if s.booted then none
    else some (s.stateJson.map .load, { s with booted := true, held := [.mainLoop] })
  | o     => if s.booted && !s.exited then s.exec c o else none

def Answers (s : Gw) (o : Op) (x : o.Resp) (t : Gw) : Prop :=
  ∃ c, s.step c o = some (x, t)

end Gw

abbrev P := Prog Op.Resp

end Gateway
