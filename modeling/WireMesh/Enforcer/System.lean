import WireMesh.Lib.Run
import WireMesh.Enforcer.Ebpf
import WireMesh.Enforcer.Program

-- A gateway at work: packets in both directions, applies and flushes, one after the other.
namespace Enforcer

open Policy

structure Gateway where
  maps : Maps
  gen : GenerationState
  -- The policy of the active generation.
  policy : List FlatRule
  -- An apply that has put its generation in place but has not come to the fold yet, and the slot that
  -- it has found active.
  pending : Option (List FlatRule × Nat)
  clock : Nat

namespace Gateway

def start (config : ArrayMap CONFIG_LEN Nat) : Gateway where
  maps    := .loaded config
  gen     := .default
  policy  := []
  pending := none
  clock   := 0

inductive Event
  | ingress (ctx : TcContext) (now : Nat)
  | egress (ctx : TcContext) (now : Nat)
  | prepare (ir : PolicyIR)
  | commit (now : Nat)
  | flush
  | evict

-- A packet never comes between the fold and the flip of an apply, which are one step. It may come at
-- any time before. An apply that does not get to its fold is left behind by the next one.
inductive Step [Ipnet] : Gateway → Event → Gateway → Prop
  | ingress : g.clock ≤ now → Step g (.ingress ctx now)
      { g with maps := (Kernel.run (aethIngress ctx now) g.maps).2, clock := now }
  | egress : g.clock ≤ now → Step g (.egress ctx now)
      { g with maps := (Kernel.run (aethEgress ctx now) g.maps).2, clock := now }
  | prepare : flatten ir = .ok flat → checkLpmCapacity flat = .ok () →
      Loader.run c (prepareGeneration flat) g.maps = (.ok activeNow, m) →
      Step g (.prepare ir) { g with maps := m, pending := some (flat, activeNow) }
  | commit : g.clock ≤ now → g.pending = some (flat, activeNow) →
      Loader.run now (commitGeneration flat activeNow g.gen) g.maps = (gen', m) →
      Step g (.commit now) { maps := m, gen := gen', policy := flat, pending := none, clock := now }
  | flush : Step g .flush { g with maps := flushFlows g.maps }
  | evict : (∀ k, flows k = g.maps.flows k ∨ flows k = none) →
      (∀ s, rate s = g.maps.rate s ∨ rate s = none) →
      Step g .evict { g with maps := { g.maps with flows, rate } }

-- A step as a function, where the kernel forgets nothing.
def next [Ipnet] (g : Gateway) : Event → Option Gateway
  | .ingress ctx now =>
    if g.clock ≤ now then
      some { g with maps := (Kernel.run (aethIngress ctx now) g.maps).2, clock := now }
    else none
  | .egress ctx now =>
    if g.clock ≤ now then
      some { g with maps := (Kernel.run (aethEgress ctx now) g.maps).2, clock := now }
    else none
  | .prepare ir => do
    let flat ← (flatten ir).toOption
    let _ ← (checkLpmCapacity flat).toOption
    let r := Loader.run g.clock (prepareGeneration flat) g.maps
    return { g with maps := r.2, pending := some (flat, ← r.1.toOption) }
  | .commit now => do
    let (flat, activeNow) ← g.pending
    let r := Loader.run now (commitGeneration flat activeNow g.gen) g.maps
    if g.clock ≤ now then
      some { maps := r.2, gen := r.1, policy := flat, pending := none, clock := now }
    else none
  | .flush => some { g with maps := flushFlows g.maps }
  | .evict => none

end Gateway
end Enforcer
