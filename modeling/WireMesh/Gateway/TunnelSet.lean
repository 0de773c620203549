import WireMesh.Lib.HashMap
import WireMesh.Enforcer.Nft
import WireMesh.Gateway.Path

-- The devices that a gateway has up: one of its own for each epoch, and one for each overlap with a
-- peer that rotates its key.
namespace Gateway

inductive TunnelId
  | own (epoch : Nat)
  | overlap (gatewayId epoch : Nat)
deriving DecidableEq

structure TunnelPlan where
  id : TunnelId
  ifname : String
  listenPort : Nat
deriving DecidableEq

def MAX_ROTATION_TUNS : Nat := 64

def OWN_TUN_PORT_OFFSET : Nat := 1

def QUARANTINE : Nat := seconds 5

def MAX_QUARANTINE : Nat := MAX_ROTATION_TUNS / 2

def checkedAddPort (port n : Nat) : Option Nat :=
  if port + n < 2 ^ 16 then some (port + n) else none

def validIface (iface : String) : Bool :=
  (Enforcer.validateIface iface).toBool

-- The name of an own device tells its epoch, that of an overlap the first slot that is free.
def planIfname (id : TunnelId) (baseTun : String) (live : List TunnelPlan) : Option String :=
  let taken (name : String) := live.any (·.ifname = name)
  match id with
  | .own epoch   =>
    let ifname := s!"{baseTun}e{epoch}"
    if validIface ifname && !taken ifname then some ifname else none
  | .overlap _ _ => do
    let slots := (List.range MAX_ROTATION_TUNS).map fun slot => s!"{baseTun}o{slot}"
    let ifname ← slots.find? fun ifname => !validIface ifname || !taken ifname
    guard (validIface ifname)
    return ifname

def planPort (id : TunnelId) (basePort : Nat) (live : List TunnelPlan) : Option Nat :=
  let taken (port : Nat) := live.any (·.listenPort = port)
  match id with
  | .own _       => (checkedAddPort basePort OWN_TUN_PORT_OFFSET).filter (!taken ·)
  | .overlap _ _ =>
    (List.range' (OWN_TUN_PORT_OFFSET + 1) (MAX_ROTATION_TUNS - OWN_TUN_PORT_OFFSET)).filterMap
      (checkedAddPort basePort) |>.find? (!taken ·)

def planTunnel (id : TunnelId) (baseTun : String) (basePort : Nat) (live : List TunnelPlan) :
    Option TunnelPlan := do
  let ifname ← planIfname id baseTun live
  let listenPort ← planPort id basePort live
  return { id, ifname, listenPort }

structure Tunnel where
  ifname : String
  listenPort : Nat
deriving DecidableEq

-- A name and a port stay taken for a while once their device is gone.
structure TunnelSet where
  tunnels : HashMap TunnelId Tunnel := ∅
  quarantine : List (TunnelPlan × Nat) := []
deriving DecidableEq

namespace TunnelSet

-- Whether a device may be brought up under this name and on this port.
def free (s : TunnelSet) (p : TunnelPlan) : Bool :=
  (s.tunnels.lookup p.id).isNone &&
    s.tunnels.entries.all fun t => t.2.ifname ≠ p.ifname && t.2.listenPort ≠ p.listenPort

def bringUp (s : TunnelSet) (p : TunnelPlan) : TunnelSet where
  tunnels    := s.tunnels.insert p.id ⟨p.ifname, p.listenPort⟩
  quarantine := s.quarantine.filter fun q =>
    q.1.id ≠ p.id ∧ q.1.ifname ≠ p.ifname ∧ q.1.listenPort ≠ p.listenPort

def pruneQuarantine (now : Nat) (quarantine : List (TunnelPlan × Nat)) : List (TunnelPlan × Nat) :=
  let held := quarantine.filter fun q => now - q.2 < QUARANTINE
  held.drop (held.length - MAX_QUARANTINE)

def tearDown (s : TunnelSet) (now : Nat) (id : TunnelId) : TunnelSet :=
  match s.tunnels.lookup id with
  | none   => s
  | some t =>
    { tunnels    := s.tunnels.erase id,
      quarantine := pruneQuarantine now (s.quarantine ++ [(⟨id, t.ifname, t.listenPort⟩, now)]) }

def setListenPort (s : TunnelSet) (id : TunnelId) (t : Tunnel) (port : Nat) : TunnelSet where
  tunnels    := s.tunnels.insert id { t with listenPort := port }
  quarantine := s.quarantine.filter (·.1.listenPort ≠ port)

def plans (s : TunnelSet) (now : Nat) : List TunnelPlan :=
  s.tunnels.entries.map (fun t => ⟨t.1, t.2.ifname, t.2.listenPort⟩) ++
    (s.quarantine.filter fun q => now - q.2 < QUARANTINE).map (·.1)

end TunnelSet
end Gateway
