import WireMesh.Enforcer.System
import WireMesh.Enforcer.Theorems.Apply
import WireMesh.Enforcer.Theorems.Ingress

-- What a gateway keeps over any run: the active slot answers for the policy, and an apply under way
-- has its own policy ready in the other slot.
namespace Enforcer

open Policy

def packetOf (fwd : FlowKey) : Packet where
  src   := fromBe32 fwd.src
  dst   := fromBe32 fwd.dst
  proto := fwd.proto
  dport := fromBe16 fwd.dport

-- A slot picks rules as the kernel program is to pick them from the list.
def Slot.Serves (s : Slot) (flat : List FlatRule) : Prop :=
  ∀ fwd : FlowKey, s.scan fwd.src fwd.dst fwd.proto fwd.dport =
    (flat.find? (·.ebpfSelects (packetOf fwd))).map fun f => (f.idx, ruleMeta f)

theorem Generation.Holds.serves (h : Generation.Holds g flat) (n : Numbered flat) :
    (Slot.ofGeneration g).Serves flat := by
  intro fwd
  have hs := Slot.scan_ofGeneration n h (packetOf fwd)
  have hd : toBe16 (fromBe16 fwd.dport) = fwd.dport := fromBe16_toBe16 fwd.dport
  simpa only [packetOf, toBe32_fromBe32, hd] using hs

theorem Slot.serves_empty : Slot.empty.Serves [] := by
  intro fwd
  have loop (bits : RuleBits) (is : List Nat) :
      Slot.empty.scanLoop bits 0 fwd.proto fwd.dport is = none := by
    cases is
    case nil  => rfl
    case cons => simp [Slot.scanLoop]
  exact loop ..

namespace Gateway

structure Coherent (g : Gateway) : Prop where
  serves   : (g.maps.slot g.maps.activeSlot).Serves g.policy
  numbered : Numbered g.policy
  mapping  : g.gen.idxToRuleId = g.policy.map (·.ruleId)
  pending  : ∀ flat a, g.pending = some (flat, a) →
    a = g.maps.activeSlot ∧ Numbered flat ∧ (g.maps.slot (1 - a)).Serves flat

variable {g g' : Gateway}

theorem Coherent.start (config : ArrayMap CONFIG_LEN Nat) : (start config).Coherent where
  serves   := Slot.serves_empty
  numbered := ⟨by simp [Gateway.start], Nat.zero_le _⟩
  mapping  := rfl
  pending  := nofun

theorem Coherent.sameGens (h : g.Coherent) (hm : g.maps.SameGens m) :
    Coherent { g with maps := m, clock := c } where
  serves   := by simpa only [hm.active, hm.slot] using h.serves
  numbered := h.numbered
  mapping  := h.mapping
  pending  := by simpa only [hm.active, hm.slot] using h.pending

variable [Ipnet]

theorem Coherent.step (h : g.Coherent) (hs : Step g e g') : g'.Coherent := by
  cases hs
  case ingress => exact h.sameGens (.run ..)
  case egress  => exact h.sameGens (.run ..)
  case flush   => exact h.sameGens (c := g.clock) ⟨fun _ => rfl, rfl, rfl⟩
  case evict   => exact h.sameGens (c := g.clock) ⟨fun _ => rfl, rfl, rfl⟩
  case prepare ir flat c a m hf hc hr =>
    have n := flatten_numbered hf
    obtain ⟨gen, hg, hp⟩ := run_prepareGeneration c g.maps n hc
    cases hp.symm.trans hr
    have other : g.maps.activeSlot ≠ 1 - g.maps.activeSlot := by omega
    constructor
    case serves =>
      show ((g.maps.install (1 - g.maps.activeSlot) gen).slot g.maps.activeSlot).Serves g.policy
      rw [g.maps.slot_install_ne gen other]
      exact h.serves
    case numbered => exact h.numbered
    case mapping  => exact h.mapping
    case pending =>
      rintro _ _ ⟨⟩
      refine ⟨rfl, n, ?_⟩
      rw [g.maps.slot_install_self gen (by simp only [GENERATIONS]; omega)]
      exact hg.serves n
  case commit now flat a gen' m _ hp hr =>
    have hc := run_commitGeneration now flat a g.gen g.maps
    rw [hr] at hc
    obtain ⟨ha, n, hs⟩ := h.pending flat a hp
    constructor
    case serves   => simpa only [hc.active, hc.slot] using hs
    case numbered => exact n
    case mapping  => exact hc.idxToRuleId
    case pending  => rintro _ _ ⟨⟩

theorem Coherent.run (r : Run Step (Gateway.start config) h g) : g.Coherent :=
  r.invariant (I := fun _ => Coherent) (.start config) fun _ h => h.step

-- A policy of one rule, which lets in what comes for port 443.
def onePolicy : PolicyIR where
  schema  := 1
  version := 1
  blocks  := [{
    fromName := "a", toName := "b", srcCidrs := ["10.0.0.0/8"], dstCidrs := ["192.168.0.0/16"]
    rules    := [{
      ruleId := "r", action := .allow, proto := .tcp, src := [], dst := [], ports := [(443, 443)]
    }]
  }]

def oneFlat : List FlatRule := [{
  idx := 0, ruleId := "r", action := .allow, proto := .tcp
  srcCidrs := [.slash8 10], dstCidrs := [.slash16 192 168]
  portLo := 443, portHi := 443
}]

end Gateway
end Enforcer
