import WireMesh.Gateway.Ops

-- The tasks of a gateway.
namespace Gateway

open Uapi Reconcile

def perform (o : Op) : P o.Resp :=
  Prog.perform o

-- Goes on while it is well.
def allOk (f : α → P Bool) : List α → P Bool
  | []      => return true
  | a :: as => do if ← f a then allOk f as else return false

-- Writes a whole configuration to a device.
def applyConfig (ifname : String) (cfg : DeviceConfig) : P Bool := do
  match encodeSet cfg with
  | .ok body => perform (.send ifname body)
  | .error _ => return false

section Reconciliation

-- A peer is told by the text of its key.
inductive PeerSetDelta
  | unchanged
  | pureAdditions (added : List PeerConfig)
  | needsFullApply

-- Of several entries with one key the last counts.
def classifyPeerDelta (prev next : List PeerConfig) : PeerSetDelta :=
  let existing (p : PeerConfig) := prev.reverse.find? (·.publicKeyB64 = p.publicKeyB64)
  if prev.any fun p => next.all (·.publicKeyB64 ≠ p.publicKeyB64) then .needsFullApply
  else if next.any fun p => (existing p).any (· ≠ p) then .needsFullApply
  else
    match next.filter fun p => (existing p).isNone with
    | []    => .unchanged
    | added => .pureAdditions added

def applyDeviceIfChanged (ifname : String) (dev : DeviceConfig) : P Bool := do
  match encodeSet dev with
  | .error _    => return false
  | .ok encoded =>
    if (← perform .active).appliedConfig = some encoded then return true
    if !(← perform (.send ifname encoded)) then return false
    perform (.recordApplied encoded dev.peers)
    return true

-- The new peers alone are written. What was applied is recorded unless another task has recorded
-- something in the meantime.
def addPeers (ifname : String) (snapshot : ActiveTunInfo) (dev : DeviceConfig) (encoded : Body)
    (added : List PeerConfig) : P Bool := do
  match encodeAddPeers added with
  | .error _ => return false
  | .ok body =>
    if !(← perform (.send ifname body)) then return false
    perform (.recordAdded snapshot.appliedConfig snapshot.appliedPeers encoded dev.peers)
    return true

def applyRoutes (ifname : String) (diff : RouteDiff) : P Bool := do
  if ← allOk (fun cidr => perform (.addRoute cidr ifname)) diff.toAdd then
    allOk (fun cidr => perform (.delRoute cidr ifname)) diff.toDel
  else return false

def applyDevice (ifname : String) (dev : DeviceConfig) : P Bool := do
  let snapshot ← perform .active
  match encodeSet dev with
  | .error _    => return false
  | .ok encoded =>
    let headerMatches := snapshot.appliedConfig.any (deviceHeader · = deviceHeader encoded)
    let delta := snapshot.appliedConfig.map fun _ => classifyPeerDelta snapshot.appliedPeers dev.peers
    match delta, headerMatches with
    | some .unchanged, true             => return true
    | some (.pureAdditions added), true => addPeers ifname snapshot dev encoded added
    | _, _                              => applyDeviceIfChanged ifname dev

def emptyState : DesiredState where
  revision       := 0
  peers          := []
  policyIr       := []
  policyVersion  := 0
  relays         := []
  revokedSerials := []

def applyState (prev : Option DesiredState) (ds : DesiredState) : P Bool := do
  let a ← perform .active
  let dev ← perform (.deviceConfig ds a.privKey a.wgPort)
  if ← applyDevice a.ifname dev then applyRoutes a.ifname (routeDiff (prev.getD emptyState) ds)
  else return false

end Reconciliation

section Endpoints

-- The peer is taken off the device and put back with its new endpoint. Putting it back is tried twice.
def setOnePeer (ifname : String) (peer : PeerConfig) : P Bool := do
  match encodeRemovePeer peer.publicKeyB64 with
  | .error _ => return false
  | .ok body =>
    if !(← perform (.send ifname body)) then return false
    match encodeAddPeers [peer] with
    | .error _ => return false
    | .ok body =>
      if ← perform (.send ifname body) then return true
      perform (.send ifname body)

def applyPeerEndpointScoped (ifname : String) (dev : DeviceConfig) (targetPubkey : Option String) :
    P Bool := do
  match targetPubkey.bind fun pk => dev.peers.find? (·.publicKeyB64 = pk) with
  | none      => return true
  | some peer =>
    if peer ∈ (← perform .active).appliedPeers then return true
    if !(← setOnePeer ifname peer) then return false
    perform (.recordScoped peer dev.privateKeyB64 dev.listenPort)

-- An endpoint that has been punched yields to a relay.
def setPeerEndpoint (gid : Nat) (endpoint : String) (isRelay : Bool) : P Unit := do
  perform (.lock .endpointCommit)
  let a ← perform .active
  if ← perform (.mayPoint gid isRelay) then
    perform (.pinLive gid endpoint)
    if let some (dev, target) ← perform (.scopedConfig gid a.privKey a.wgPort) then
      if ← applyPeerEndpointScoped a.ifname dev target then
        perform (.setRelayPointed gid isRelay)
  perform (.unlock .endpointCommit)

-- The endpoint that the device uses is pinned, unless one has been committed while it was read.
def readThroughEndpoint (gid : Nat) (endpoint : String) : P Unit := do
  let gen ← perform .commitGen
  perform (.lock .endpointCommit)
  perform (.readThrough gid endpoint gen)
  perform (.unlock .endpointCommit)

end Endpoints

section RoleB

def placePeerRoutes (cidrs : List String) (activeIfname : String) (activeEpoch : Nat)
    (overlap : Option (String × OverlapClaim)) : P Unit := do
  let target :=
    match routeOwner activeEpoch (overlap.map (·.2)), overlap with
    | .overlapTun, some (ifname, _) => ifname
    | _, _                          => activeIfname
  cidrs.forM fun cidr => do
    let _ ← perform (.addRoute cidr target)

def retireStaleOverlap (gid staleEpoch : Nat) : P Unit := do
  let stale ← perform (.takeRoleB gid)
  perform (.unpin gid)
  if let some b := stale then
    let a ← perform .active
    placePeerRoutes b.peerCidrs a.ifname a.epoch none
  perform (.tearDown (.overlap gid staleEpoch))
  perform (.removeEnforcer (.overlap gid staleEpoch))

-- Brings up a device for the peer's new key beside the active one, which keeps to the peer's old key.
def startOverlap (ds : DesiredState) (gid pendingEpoch : Nat) : P Unit := do
  let some peer := ds.peers.find? (·.gatewayId = gid) | return
  let some active := peer.activeKey | return
  let some pending := peer.pendingKey | return
  let .ok peerPendingKey := keyOfB64 pending.pubkeyB64 | return
  let peers := (pendingPeerConfigs ds ROTATION_KEEPALIVE).filter
    (·.publicKeyB64 = pending.pubkeyB64)
  if peers.isEmpty then return
  let id := TunnelId.overlap gid pendingEpoch
  let some plan ← perform (.plan id) | return
  let a ← perform .active
  if !(← perform (.bringUp plan a.privKey)) then return
  let some e ← perform (.attach plan.ifname ds) | do
    perform (.tearDown id)
    return
  perform (.insertEnforcer id e)
  if !(← applyConfig plan.ifname ⟨a.privKey, plan.listenPort, peers⟩) then
    perform (.tearDown id)
    perform (.removeEnforcer id)
    return
  perform (.pin gid active.pubkeyB64)
  perform (.insertRoleB gid {
    pendingEpoch    := pendingEpoch
    newTun          := plan.ifname
    builtAtOwnEpoch := a.epoch
    peerPendingKey  := peerPendingKey
    peerCidrs       := peer.allowedIps
  })

def maybeStartRoleB (ds : DesiredState) : P Unit := do
  let roleB ← perform .roleB
  let overlapped : HashMap Nat Nat :=
    roleB.entries.foldl (fun m b => m.insert b.1 b.2.pendingEpoch) ∅
  (roleBDecisions ds overlapped).forM fun (gid, decision) =>
    match decision with
    | .skip | .unusable _ => pure ()
    | .start pendingEpoch => startOverlap ds gid pendingEpoch
    | .restart staleEpoch pendingEpoch => do
      retireStaleOverlap gid staleEpoch
      startOverlap ds gid pendingEpoch

def serviceRoleBCollapse : P Unit := do
  (← perform .takeCollapseReady).forM fun (gid, epoch) => do
    perform (.tearDown (.overlap gid epoch))
    perform (.removeEnforcer (.overlap gid epoch))

end RoleB

section RoleA

def roleAPeers (ds : DesiredState) : List RoleAPeer :=
  ds.peers.filterMap fun p => do
    let key ← (keyOfB64 (← p.activePubkeyB64)).toOption
    return ⟨p.gatewayId, key, p.allowedIps⟩

-- Everything between the directive and the key's submission. Tells whether it has come to its end, and
-- what to undo: the epoch that was minted, if any.
def handleRotateInner (directiveEpoch : Nat) (applied : Option DesiredState) :
    P (Bool × Option Nat) := do
  let some (.mintBringUpSubmit n) ← perform (.onDirective directiveEpoch) | return (true, none)
  let some ds := applied | return (false, none)
  match ← perform (.mint n) with
  | .refused                  => return (false, none)
  | .unpersisted key          => return (false, some key.epoch)
  | .minted key activeEpoch   => do
    if key.epoch ≠ n then return (false, some key.epoch)
    let id := TunnelId.own n
    let some plan ← perform (.plan id) | return (false, some key.epoch)
    if !(← perform (.bringUp plan key.privateKeyB64)) then return (false, some key.epoch)
    let some e ← perform (.attach plan.ifname ds) | do
      perform (.tearDown id)
      return (false, some key.epoch)
    perform (.insertEnforcer id e)
    let dev := deviceConfigAtPort ds key.privateKeyB64 plan.listenPort ROTATION_KEEPALIVE
    if !(← applyConfig plan.ifname dev) then return (false, some key.epoch)
    perform (.setRoleA (some {
      newTun   := plan.ifname
      newPriv  := key.privateKeyB64
      newPort  := plan.listenPort
      oldEpoch := activeEpoch
      peers    := roleAPeers ds
    }))
    return (← perform (.submitEpochKey n key.pubkeyB64), some key.epoch)

def unwindFailedRotation (tunEpoch : Nat) (mintedEpoch : Option Nat) : P Unit := do
  perform (.setRoleA none)
  perform (.tearDown (.own tunEpoch))
  perform (.removeEnforcer (.own tunEpoch))
  if let some minted := mintedEpoch then
    perform (.discardPending minted)
  perform .onFailed

def handleRotate (directiveEpoch : Nat) (applied : Option DesiredState) : P Unit := do
  let (ok, minted) ← handleRotateInner directiveEpoch applied
  if !ok then unwindFailedRotation directiveEpoch minted

-- The active device goes back to the port that is advertised for it.
def renormalizeActiveListenPort (baseWgPort : Nat) : P Unit := do
  let a ← perform .active
  if a.wgPort ≠ baseWgPort then
    perform (.lock .endpointCommit)
    if ← perform (.setListenPort (.own a.epoch) baseWgPort) then
      perform (.renormalized baseWgPort)
    perform (.unlock .endpointCommit)

def serviceRetire (baseWgPort : Nat) : P Unit := do
  let some oldEpoch ← perform .takeRetireReady | return
  let some (.tearDown epoch) ← perform (.onEpochRetired oldEpoch) | return
  perform (.tearDown (.own epoch))
  perform (.removeEnforcer (.own epoch))
  renormalizeActiveListenPort baseWgPort
  perform (.retireKey epoch)

-- The traffic goes over to the new device.
def cutOver (a : RoleA) (epoch : Nat) : P Unit := do
  a.peers.forM fun p => do
    let held ← perform (.roleBOf p.gatewayId)
    placePeerRoutes p.cidrs a.newTun epoch (held.map fun b => (b.newTun, b.claim))
  let guard ← perform (.seedGuard a)
  perform (.setActive {
    ifname        := a.newTun
    privKey       := a.newPriv
    wgPort        := a.newPort
    epoch         := epoch
    appliedConfig := guard.map (·.1)
    appliedPeers  := (guard.map (·.2)).getD []
  })
  perform (.promote epoch)

def tickRoleA : P Unit := do
  let some a ← perform .roleA | return
  let phase ← perform .phase
  let watch ← perform (.watch a phase)
  let live ← perform (.liveness a.newTun)
  let heard (w : Nat × Key) : Bool := live.any (w.2 ∈ ·)
  match phase with
  | .idle          => return
  | .overlapping _ =>
    if watch.any heard then
      if let some (.flipRoutes epoch) ← perform .onNewEpochSession then
        cutOver a epoch
  | .cutOver _     =>
    if !watch.isEmpty && watch.all heard then
      if ← perform .allLive then
        perform (.signalRetire a.oldEpoch)
        perform (.setRoleA none)
    else
      perform .notAllLive

def tickPending (gid : Nat) (b : RoleB) : P Unit := do
  let live ← perform (.liveness b.newTun)
  if live.any (b.peerPendingKey ∈ ·) then
    if (← perform (.markCutOver gid b.identity)) = .apply then
      let a ← perform .active
      placePeerRoutes b.peerCidrs a.ifname a.epoch (some (b.newTun, { b.claim with cutOver := true }))
      if ← perform (.sendEpochAck gid b.pendingEpoch) then
        let _ ← perform (.markDone gid b.identity)

def tickArmed (gid : Nat) (b : RoleB) : P Unit := do
  let a ← perform .active
  let live ← perform (.liveness a.ifname)
  if live.any (b.peerPendingKey ∈ ·) then
    if (← perform (.dropOverlap gid b.identity)) = .apply then
      placePeerRoutes b.peerCidrs a.ifname a.epoch none
      perform (.signalCollapse gid b.pendingEpoch)

def tickRotation : P Unit := do
  perform (.lock .rotationTicks)
  tickRoleA
  let pendingB := (← perform .roleB).entries.filter fun b => !b.2.done && !b.2.collapseArmed
  pendingB.forM fun b => tickPending b.1 b.2
  let armedB := (← perform .roleB).entries.filter fun b => b.2.collapseArmed
  armedB.forM fun b => tickArmed b.1 b.2
  perform (.unlock .rotationTicks)

end RoleA

section MainLoop

-- A state that cannot be applied, or saved, ends the process.
def onState (ds : DesiredState) : P Unit := do
  perform (.collapseRoleB ds)
  if !(← applyState (← perform .applied) ds) then
    perform .exit
    return
  perform (.publish ds)
  if !(← perform (.save ds)) then
    perform .exit
    return
  maybeStartRoleB ds
  perform (.setDesired ds)
  perform (.setApplied ds)

def boot : P Unit := do
  if let some ds ← perform .boot then
    if !(← applyState none ds) then
      perform .exit
      return
    perform (.publish ds)
    perform (.setApplied ds)
    perform (.setDesired ds)
    perform .reconnect
  perform (.unlock .mainLoop)

-- A turn of the main loop.
def turn (baseWgPort : Nat) (event : P Unit) : P Unit := do
  perform (.lock .mainLoop)
  serviceRetire baseWgPort
  serviceRoleBCollapse
  event
  perform (.unlock .mainLoop)

def onMessage (m : Message) : P Unit := do
  match ← perform (.classify m) with
  | some ds => onState ds
  | none    => perform .reconnect

def onRotate (epoch : Nat) : P Unit := do
  handleRotate epoch (← perform .applied)

end MainLoop
end Gateway
