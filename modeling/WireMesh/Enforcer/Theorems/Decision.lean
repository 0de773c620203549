import WireMesh.Lib.FirstMatch
import WireMesh.Enforcer.Theorems.Apply

-- The decision of the kernel program against the first match of the flattened list.
namespace Enforcer

open Policy Loader

variable {flat : List FlatRule} {m : Maps} {pkt : Packet}

-- The program takes the first rule that passes its own test.
theorem ebpfDecision_eq (n : Numbered flat) (h : g.Holds flat)
    (hs : m.slot m.activeSlot = .ofGeneration g) (pkt : Packet) :
    ebpfDecision m pkt = .ofRule (flat.find? (·.ebpfSelects pkt)) := by
  rw [ebpfDecision, run_scanRules, hs, Slot.scan_ofGeneration n h]
  cases flat.find? (·.ebpfSelects pkt)
  case none   => rfl
  case some f =>
    have code (a : IrAction) : (if actionNum a = ACT_ALLOW then IrAction.allow else .deny) = a := by
      cases a <;> decide
    simp only [Option.map_some, Decision.ofRule, ruleMeta, code]

-- Every rule whose range has only an upper bound of zero and that covers the packet comes after a
-- rule that selects the packet.
def ZeroUpperShadowed (flat : List FlatRule) (pkt : Packet) : Prop :=
  ∀ f ∈ flat, f.zeroUpper → f.selectsAddrs pkt → protoSelects f.proto pkt.proto →
    ∃ g ∈ flat, g.idx < f.idx ∧ g.selects pkt

instance : Decidable (ZeroUpperShadowed flat pkt) :=
  inferInstanceAs <| Decidable (∀ _ ∈ _, _)

theorem find_ebpfSelects_iff (n : Numbered flat) :
    flat.find? (·.ebpfSelects pkt) = firstMatch flat pkt ↔ ZeroUpperShadowed flat pkt := by
  have wider (f : FlatRule) : f.selects pkt → f.ebpfSelects pkt := by
    rw [FlatRule.ebpfSelects_eq]
    exact fun h => by simp [h]
  have narrow {f : FlatRule} (h : f.zeroUpper) : f.selects pkt = false := by
    simp only [FlatRule.zeroUpper, decide_eq_true_eq] at h
    simp only [FlatRule.selects, portSelects, h, Bool.and_eq_false_iff]
    right
    simp
    bv_omega
  rw [firstMatch, FirstMatch.find_eq_iff fun f _ => wider f]
  constructor
  case mp =>
    intro h f hf hz ha hp
    obtain ⟨l₁, l₂, he⟩ := List.append_of_mem hf
    have hs := h l₁ f l₂ he (by simp [FlatRule.ebpfSelects_eq, hz, ha, hp])
    simp only [narrow hz, Bool.false_eq_true, false_or] at hs
    obtain ⟨g, hg, hs⟩ := hs
    obtain ⟨hm, hlt⟩ := (n.mem_before he).mp hg
    exact ⟨g, hm, hlt, hs⟩
  case mpr =>
    intro h l₁ f l₂ he hs
    simp only [FlatRule.ebpfSelects_eq, Bool.or_eq_true, Bool.and_eq_true] at hs
    cases hs
    case inl hs => exact .inl hs
    case inr hs =>
      obtain ⟨⟨hz, ha⟩, hp⟩ := hs
      obtain ⟨g, hg, hlt, hs⟩ := h f (by simp [he]) hz ha hp
      exact .inr ⟨g, (n.mem_before he).mpr ⟨hg, hlt⟩, hs⟩

-- After an apply of any policy that `flatten` accepts, the kernel decides a packet by the first match
-- of the flattened list, action and index, unless a rule with an upper bound of zero gets in first.
theorem ebpfDecision_eq_firstMatch_iff [Ipnet] {ir : PolicyIR} (h : flatten ir = .ok flat)
    (clock : Nat) (gen : GenerationState) (m : Maps) (pkt : Packet) :
    ∃ gen' m', run clock (applyPolicy ir gen) m = (.ok gen', m') ∧
      (ebpfDecision m' pkt = .ofRule (firstMatch flat pkt) ↔ ZeroUpperShadowed flat pkt) := by
  have ⟨gen', m', hr, ha⟩ := run_applyPolicy clock gen m h
  have ⟨g, hg, hs⟩ := ha.installed
  have n := flatten_numbered h
  refine ⟨gen', m', hr, ?_⟩
  rw [ebpfDecision_eq n hg hs, firstMatch, Decision.ofRule_inj n]
  exact find_ebpfSelects_iff n

-- One rule with the ports 5 to 0. The range holds no port, so a packet to 443 is to be denied.
def zeroUpperPolicy : PolicyIR where
  schema  := 1
  version := 1
  blocks  := [{
    fromName := "a", toName := "b", srcCidrs := ["10.0.0.0/8"], dstCidrs := ["192.168.0.0/16"]
    rules    := [{
      ruleId := "r", action := .allow, proto := .tcp, src := [], dst := [], ports := [(5, 0)]
    }]
  }]

def zeroUpperFlat : List FlatRule := [{
  idx := 0, ruleId := "r", action := .allow, proto := .tcp
  srcCidrs := [.slash8 10], dstCidrs := [.slash16 192 168]
  portLo := 5, portHi := 0
}]

def httpsPacket : Packet where
  src   := 0x0a000001
  dst   := 0xc0a80001
  proto := 6
  dport := 443

theorem flatten_zeroUpperPolicy : flatten zeroUpperPolicy = .ok zeroUpperFlat := by
  rfl

theorem ebpfDecision_zeroUpper :
    flatten zeroUpperPolicy = .ok zeroUpperFlat ∧
    ebpfDecision (run 0 (applyPolicy zeroUpperPolicy .default) (.loaded (.zeroed _ 0))).2 httpsPacket =
      { action := .allow, ruleIdx := some 0 } ∧
    Decision.ofRule (firstMatch zeroUpperFlat httpsPacket) = { action := .deny, ruleIdx := none } :=
  ⟨flatten_zeroUpperPolicy, by decide +kernel, by decide⟩

theorem ebpfDecision_eq_firstMatch_zeroUpper :
    ∃ gen' m',
      run 0 (applyPolicy zeroUpperPolicy .default) (.loaded (.zeroed _ 0)) = (.ok gen', m') ∧
      (ebpfDecision m' httpsPacket = .ofRule (firstMatch zeroUpperFlat httpsPacket) ↔
        ZeroUpperShadowed zeroUpperFlat httpsPacket) :=
  ebpfDecision_eq_firstMatch_iff flatten_zeroUpperPolicy 0 .default (.loaded (.zeroed _ 0)) httpsPacket

end Enforcer
