import WireMesh.Lib.Run
import WireMesh.Enforcer.Theorems.Program

-- A packet on its way through the rules while the loader applies policies, one access to a map at a
-- time on either side.
namespace Enforcer

open Policy

-- An apply keeps what it has found active, its rules and the state it has started from.
inductive LoaderState
  | idle (gen : GenerationState)
  | busy (activeNow : Nat) (flat : List FlatRule) (gen : GenerationState)
      (rest : Loader (Except String GenerationState))

inductive PacketState
  | none
  | evaluating (fwd : FlowKey) (since : Nat) (rest : Kernel (Option (Nat × RuleMeta)))
  | decided (fwd : FlowKey) (pick : Option (Nat × RuleMeta))

structure Race where
  maps : Maps
  clock : Nat
  loader : LoaderState
  packet : PacketState
  -- The policy of the active generation, and when it became the active one.
  policy : List FlatRule
  flipped : Option Nat

namespace Race

def start (config : ArrayMap CONFIG_LEN Nat) : Race where
  maps    := .loaded config
  clock   := 0
  loader  := .idle .default
  packet  := .none
  policy  := []
  flipped := none

inductive Event
  | tick
  | other
  | apply (ir : PolicyIR)
  | load
  | finish
  | abort
  | packet
  | read
  | decide
deriving DecidableEq

-- An apply starts once the time that `applyReadyAt` gives has come, and may fail at any point before it
-- has flipped. A packet is through before `grace` has passed. Anything else that goes on in the kernel
-- leaves the generations alone.
inductive Step [Ipnet] (grace : Nat) : Race → Event → Race → Prop
  | tick : r.clock ≤ c → Step grace r .tick { r with clock := c }
  | other : r.maps.SameGens m → Step grace r .other { r with maps := m }
  | apply : r.loader = .idle gen → (∀ t, applyReadyAt gen grace = some t → t ≤ r.clock) →
      flatten ir = .ok flat →
      Step grace r (.apply ir)
        { r with loader := .busy r.maps.activeSlot flat gen (applyGeneration flat gen) }
  | load {o : LoaderOp} {next : o.Resp → Loader (Except String GenerationState)} {x : o.Resp} :
      r.loader = .busy a flat gen (.op o next) →
      r.maps.execLoader r.clock o = (x, m) →
      Step grace r .load
        { r with
          maps    := m
          loader  := .busy a flat gen (next x)
          policy  := if m.activeSlot = r.maps.activeSlot then r.policy else flat
          flipped := if m.activeSlot = r.maps.activeSlot then r.flipped else some r.clock }
  | finish : r.loader = .busy a flat gen (.ret (.ok gen')) →
      Step grace r .finish { r with loader := .idle gen' }
  | abort : r.loader = .busy a flat gen rest → r.maps.activeSlot = a →
      gen'.pendingReap = gen.pendingReap →
      Step grace r .abort { r with loader := .idle gen' }
  | packet : (∀ fwd t rest, r.packet ≠ .evaluating fwd t rest) →
      Step grace r .packet
        { r with
          packet := .evaluating fwd r.clock (scanRules fwd.src fwd.dst fwd.proto fwd.dport) }
  | read {o : MapOp} {next : o.Resp → Kernel (Option (Nat × RuleMeta))} {x : o.Resp} :
      r.packet = .evaluating fwd t (.op o next) → r.clock < t + grace →
      r.maps.exec o = (x, m) →
      Step grace r .read { r with maps := m, packet := .evaluating fwd t (next x) }
  | decide : r.packet = .evaluating fwd t (.ret pick) → r.clock < t + grace →
      Step grace r .decide { r with packet := .decided fwd pick }

-- A step as a function: nothing else goes on in the kernel, no apply fails, and a packet that comes
-- is `fwd`.
def next [Ipnet] (grace : Nat) (fwd : FlowKey) (r : Race) : Event → Option Race
  | .tick     => some { r with clock := r.clock + 1 }
  | .apply ir =>
    match r.loader, flatten ir with
    | .idle gen, .ok flat =>
      if (applyReadyAt gen grace).all (· ≤ r.clock) then
        some { r with loader := .busy r.maps.activeSlot flat gen (applyGeneration flat gen) }
      else none
    | _, _ => none
  | .load     =>
    match r.loader with
    | .busy a flat gen (.op o next) =>
      let x := r.maps.execLoader r.clock o
      some
        { r with
          maps    := x.2
          loader  := .busy a flat gen (next x.1)
          policy  := if x.2.activeSlot = r.maps.activeSlot then r.policy else flat
          flipped := if x.2.activeSlot = r.maps.activeSlot then r.flipped else some r.clock }
    | _ => none
  | .finish   =>
    match r.loader with
    | .busy _ _ _ (.ret (.ok gen)) => some { r with loader := .idle gen }
    | _ => none
  | .packet   =>
    match r.packet with
    | .evaluating .. => none
    | _ =>
      some
        { r with
          packet := .evaluating fwd r.clock (scanRules fwd.src fwd.dst fwd.proto fwd.dport) }
  | .read     =>
    match r.packet with
    | .evaluating fwd t (.op o next) =>
      if r.clock < t + grace then
        let x := r.maps.exec o
        some { r with maps := x.2, packet := .evaluating fwd t (next x.1) }
      else none
    | _ => none
  | .decide   =>
    match r.packet with
    | .evaluating fwd t (.ret pick) =>
      if r.clock < t + grace then some { r with packet := .decided fwd pick } else none
    | _ => none
  | .other | .abort => none

end Race
end Enforcer
