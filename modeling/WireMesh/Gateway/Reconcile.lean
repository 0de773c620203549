import WireMesh.Gateway.State
import WireMesh.Gateway.TunnelSet

-- What a desired state asks of the devices and of the routes.
namespace Gateway
namespace Reconcile

open Uapi

def ownTunEndpoint (candidate : String) : Option String := do
  let (ip, port) ← Text.parseSocketAddrV4 candidate.toList
  let ownTunPort ← checkedAddPort port.toNat OWN_TUN_PORT_OFFSET
  return String.ofList (Text.socketAddrV4Chars ip ownTunPort)

def pendingPeerConfigs (ds : DesiredState) (keepaliveSecs : Nat) : List PeerConfig :=
  ds.peers.filterMap fun p => do
    let _ ← p.activeKey
    let pending ← p.pendingKey
    guard (pubkeyDecodes pending.pubkeyB64)
    let endpoint ← ownTunEndpoint (← p.primaryEndpoint)
    return {
      publicKeyB64  := pending.pubkeyB64
      endpoint      := some endpoint
      allowedIps    := p.allowedIps
      keepaliveSecs := keepaliveSecs
    }

-- The key that a peer is configured with: the one pinned for it, or its active one.
def selectedKey (pinnedPubkeys : HashMap Nat String) (p : PeerState) : Option String :=
  (pinnedPubkeys.lookup p.gatewayId).or p.activePubkeyB64

def deviceConfigPinned (ds : DesiredState) (privateKeyB64 : String) (listenPort : Nat)
    (pinnedPubkeys liveEndpoints : HashMap Nat String) : DeviceConfig where
  privateKeyB64 := privateKeyB64
  listenPort    := listenPort
  peers         := ds.peers.filterMap fun p => do
    return {
      publicKeyB64  := ← selectedKey pinnedPubkeys p
      endpoint      := (liveEndpoints.lookup p.gatewayId).or p.primaryEndpoint
      allowedIps    := p.allowedIps
      keepaliveSecs := PERSISTENT_KEEPALIVE_SECS
    }

def deviceConfigAtPort (ds : DesiredState) (privateKeyB64 : String) (port keepaliveSecs : Nat) :
    DeviceConfig where
  privateKeyB64 := privateKeyB64
  listenPort    := port
  peers         := ds.peers.filterMap fun p => do
    return {
      publicKeyB64  := ← p.activePubkeyB64
      endpoint      := none
      allowedIps    := p.allowedIps
      keepaliveSecs := keepaliveSecs
    }

structure RouteDiff where
  toAdd : List String
  toDel : List String

def allCidrs (ds : DesiredState) : List String :=
  (ds.peers.flatMap (·.allowedIps)).dedup

def routeDiff (old new : DesiredState) : RouteDiff where
  toAdd := (allCidrs new).filter (· ∉ allCidrs old)
  toDel := (allCidrs old).filter (· ∉ allCidrs new)

end Reconcile
end Gateway
