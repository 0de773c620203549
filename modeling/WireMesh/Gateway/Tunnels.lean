import WireMesh.Lib.Run
import WireMesh.Gateway.Reconcile

-- The devices of a gateway as they come and go: a device is planned and brought up, torn down, or moved
-- to another port, at any time.
namespace Gateway

structure Tunnels where
  set : TunnelSet
  clock : Nat
deriving DecidableEq

namespace Tunnels

-- Devices and ports can be refused by the system.
inductive Call
  | elapse (ns : Nat)
  | bringUp (id : TunnelId) (succeeds : Bool)
  | tearDown (id : TunnelId)
  | setListenPort (id : TunnelId) (port : Nat) (succeeds : Bool)

-- The names and ports of all devices are made from those of the first one.
structure Base where
  ifname : String
  port : BitVec 16

variable (base : Base)

def plan (s : Tunnels) (id : TunnelId) : Option TunnelPlan :=
  planTunnel id base.ifname base.port.toNat (s.set.plans s.clock)

def boot (epoch clock : Nat) : Tunnels where
  set   := { tunnels := AList.singleton (.own epoch) ⟨base.ifname, base.port.toNat⟩ }
  clock := clock

def call (s : Tunnels) : Call → Tunnels
  | .elapse ns            => { s with clock := s.clock + ns }
  | .bringUp id succeeds  =>
    match s.plan base id with
    | none   => s
    | some p => if s.set.free p && succeeds then { s with set := s.set.bringUp p } else s
  | .tearDown id          => { s with set := s.set.tearDown s.clock id }
  | .setListenPort id port succeeds =>
    match s.set.tunnels.lookup id with
    | none   => s
    | some t =>
      if t.listenPort = port then s
      else if s.set.tunnels.entries.any fun e => e.1 ≠ id ∧ e.2.listenPort = port then s
      else if succeeds then { s with set := s.set.setListenPort id t port }
      else s

abbrev History := List (Tunnels × Call)

abbrev Runs (epoch clock : Nat) (h : History) (s : Tunnels) : Prop :=
  Run (fun s e t => t = call base s e) (boot base epoch clock) h s

end Tunnels
end Gateway
