import WireMesh.Enforcer.Nft
import WireMesh.Enforcer.Theorems.Decision

-- The two backends against each other, on a packet that belongs to no connection.
namespace Enforcer

open Policy Loader

-- What a packet looks like to the scan of the kernel program, which reads a port only off the headers
-- that have one.
def scanned (pkt : Packet) : Packet :=
  { pkt with dport := if pkt.proto = 6 ∨ pkt.proto = 17 then pkt.dport else 0 }

def packetAt (ctx : TcContext) (h : Ipv4Header) : Packet where
  src   := fromBe32 h.src
  dst   := fromBe32 h.dst
  proto := h.proto
  dport := fromBe16 ((ctx.loadU16 (h.ihl + 2)).getD 0)

theorem forwardKey_dport (ctx : TcContext) (h : Ipv4Header) :
    fromBe16 (forwardKey ctx h).dport = (scanned (packetAt ctx h)).dport := by
  have zero : fromBe16 0 = 0 := by decide
  simp only [forwardKey, portsAt, scanned, packetAt]
  by_cases hp : h.proto = 6 ∨ h.proto = 17
  case pos => simp only [hp, if_true]
  case neg => simp only [hp, if_false]; split <;> exact zero

theorem protoSelects_cases (h : protoSelects q n) : n = 1 ∨ n = 6 ∨ n = 17 := by
  cases q <;> simp_all [protoSelects]

theorem covers_protoMatch (proto : L4Proto) (lo hi : Port) (pkt : Packet) :
    (protoMatch proto lo hi).covers pkt =
      (decide (pkt.proto = proto.num) && portSelects lo hi pkt.dport) := by
  simp only [protoMatch, portSelects]
  split
  case isTrue h  => simp [ProtoMatch.covers, h]
  case isFalse h =>
    simp only [ProtoMatch.covers, h, decide_false, Bool.false_or, Bool.and_assoc]

namespace FlatRule

-- The rule is about the packet, ports aside.
def covers (f : FlatRule) (pkt : Packet) : Bool :=
  f.selectsAddrs pkt && protoSelects f.proto pkt.proto

-- Both backends let the ports of the rule match.
def portsMatch (f : FlatRule) (pkt : Packet) : Bool :=
  if pkt.proto = 1 then decide (f.portLo = 0 ∨ f.portHi = 0) else portSelects f.portLo f.portHi pkt.dport

-- One backend lets the ports match and the other does not: for icmp it is the script that drops the
-- range, for the others it is the program that takes an upper bound of zero for any port.
def portsSplit (f : FlatRule) (pkt : Packet) : Bool :=
  decide (f.portLo ≠ 0) && (if pkt.proto = 1 then decide (f.portHi ≠ 0) else decide (f.portHi = 0))

def nftSelects (f : FlatRule) (pkt : Packet) : Bool :=
  (ruleLines f).any (·.covers pkt)

-- What the lines of one rule match together.
theorem nftSelects_lines (f : FlatRule) (pkt : Packet) :
    f.nftSelects pkt =
      (f.covers pkt && (decide (pkt.proto = 1) || portSelects f.portLo f.portHi pkt.dport)) := by
  have any : portSelects 0 0 pkt.dport = true := by simp [portSelects]
  simp only [nftSelects, ruleLines, List.any_map, Function.comp_def, NftRule.covers, covers,
    selectsAddrs, covers_protoMatch]
  cases f.proto <;> simp [concreteProtos, protoSelects, L4Proto.num] <;> grind

theorem nftSelects_eq (f : FlatRule) (pkt : Packet) :
    f.nftSelects pkt =
      (f.covers pkt && (f.portsMatch pkt || (decide (pkt.proto = 1) && f.portsSplit pkt))) := by
  rw [nftSelects_lines, portsMatch, portsSplit]
  congr 1
  by_cases hp : pkt.proto = 1
  case pos => simp only [hp, if_true]; grind
  case neg => simp only [hp, if_false, decide_false, Bool.false_or, Bool.false_and, Bool.or_false]

theorem ebpfSelects_scanned (f : FlatRule) (pkt : Packet) :
    f.ebpfSelects (scanned pkt) =
      (f.covers pkt && (f.portsMatch pkt || (decide (pkt.proto ≠ 1) && f.portsSplit pkt))) := by
  rw [ebpfSelects, metaMatches_ruleMeta, ← Bool.and_assoc, ← covers]
  cases hc : f.covers pkt
  case false =>
    have hc : f.covers (scanned pkt) = false := hc
    simp only [hc, Bool.false_and]
  case true =>
    have hc' : f.covers (scanned pkt) = true := hc
    simp only [covers, Bool.and_eq_true] at hc
    have hp := protoSelects_cases hc.2
    simp only [hc', Bool.true_and]
    simp only [scanned, portsMatch, portsSplit, portSelects]
    rcases hp with hp | hp | hp
    case inl     => simp only [hp]; grind
    case inr.inl => simp only [hp]; grind
    case inr.inr => simp only [hp]; grind

end FlatRule

theorem nftVerdict_eq (flat : List FlatRule) (pkt : Packet) :
    nftVerdict flat false pkt = FirstMatch.verdict flat (·.nftSelects pkt) (·.action) .deny := by
  simp only [nftVerdict, Bool.false_eq_true, if_false, FirstMatch.verdict]
  congr 1
  induction flat
  case nil => rfl
  case cons f flat ih =>
    have line (r : NftRule) (h : r ∈ ruleLines f) : r.action = f.action := by
      obtain ⟨_, _, h⟩ := List.mem_map.mp h
      rw [← h]
    have sel : f.nftSelects pkt = ((ruleLines f).find? (·.covers pkt)).isSome := by
      rw [FlatRule.nftSelects, Bool.eq_iff_iff, List.find?_isSome, List.any_eq_true]
    rw [fromFabric, List.flatMap_cons, ← fromFabric, List.find?_append, List.find?_cons, sel]
    cases hf : (ruleLines f).find? (·.covers pkt)
    case none   => simpa using ih
    case some r => simp [line r (List.mem_of_find?_eq_some hf)]

-- Where one backend takes a rule that the other passes over, before either has taken another, the
-- rule says what the rules behind it come to.
def SplitHarmless (flat : List FlatRule) (pkt : Packet) : Prop :=
  ∀ l₁ f l₂, flat = l₁ ++ f :: l₂ →
    (∀ g ∈ l₁, g.covers pkt → ¬ g.portsMatch pkt ∧ ¬ g.portsSplit pkt) →
    f.covers pkt → f.portsSplit pkt →
      f.action = FirstMatch.verdict l₂ (fun g => g.covers pkt && g.portsMatch pkt) (·.action) .deny

theorem portsMatch_of_portsSplit {f : FlatRule} (h : f.portsSplit pkt) : f.portsMatch pkt = false := by
  simp only [FlatRule.portsSplit, Bool.and_eq_true, decide_eq_true_eq] at h
  simp only [FlatRule.portsMatch, portSelects]
  by_cases hp : pkt.proto = 1
  case pos => simp only [hp, if_true] at h ⊢; grind
  case neg =>
    simp only [hp, if_false, decide_eq_true_eq] at h ⊢
    simp only [h, and_true, decide_false, Bool.false_or, Bool.and_eq_false_iff,
      decide_eq_false_iff_not]
    bv_omega

-- A test that also passes the rules on which the backends differ comes to the same as one that passes
-- only those on which they agree exactly if the former do no harm.
theorem splitHarmless_iff (flat : List FlatRule) (pkt : Packet) :
    FirstMatch.verdict flat (fun f => f.covers pkt && (f.portsMatch pkt || f.portsSplit pkt))
        (·.action) .deny =
      FirstMatch.verdict flat (fun f => f.covers pkt && f.portsMatch pkt) (·.action) .deny ↔
    SplitHarmless flat pkt := by
  rw [FirstMatch.verdict_eq_iff (by simp_all)]
  refine forall₄_congr fun l₁ f l₂ he => ?_
  have before (g : FlatRule) : (g.covers pkt && (g.portsMatch pkt || g.portsSplit pkt)) = false ↔
      (g.covers pkt → ¬ g.portsMatch pkt ∧ ¬ g.portsSplit pkt) := by
    cases g.covers pkt <;> simp
  simp only [before]
  refine imp_congr_right fun _ => ?_
  cases hs : f.portsSplit pkt <;> cases hc : f.covers pkt <;>
    simp_all [portsMatch_of_portsSplit]

-- After an apply of any policy that `flatten` accepts, the rule scan of the kernel and the chain of the
-- ruleset give a packet the same verdict exactly if no rule they treat differently gets to decide.
theorem ebpfDecision_eq_nftVerdict_iff [Ipnet] {ir : PolicyIR} (h : flatten ir = .ok flat)
    (clock : Nat) (gen : GenerationState) (m : Maps) (pkt : Packet) :
    ∃ gen' m', run clock (applyPolicy ir gen) m = (.ok gen', m') ∧
      ((ebpfDecision m' (scanned pkt)).action = nftVerdict flat false pkt ↔
        SplitHarmless flat pkt) := by
  have ⟨gen', m', hr, ha⟩ := run_applyPolicy clock gen m h
  have ⟨g, hg, hs⟩ := ha.installed
  refine ⟨gen', m', hr, ?_⟩
  have ebpf : (ebpfDecision m' (scanned pkt)).action =
      FirstMatch.verdict flat (·.ebpfSelects (scanned pkt)) (·.action) .deny := by
    rw [ebpfDecision_eq (flatten_numbered h) hg hs, FirstMatch.verdict]
    cases flat.find? (·.ebpfSelects (scanned pkt)) <;> rfl
  simp only [ebpf, nftVerdict_eq, FlatRule.ebpfSelects_scanned, FlatRule.nftSelects_eq,
    ← splitHarmless_iff]
  -- For icmp the script is the one with the wider test, for everything else the program.
  by_cases hp : pkt.proto = 1
  case pos =>
    simp only [hp, ne_eq, not_true_eq_false, decide_false, decide_true, Bool.false_and,
      Bool.true_and, Bool.or_false]
    exact eq_comm
  case neg =>
    simp only [hp, ne_eq, not_false_eq_true, decide_true, decide_false, Bool.false_and,
      Bool.true_and, Bool.or_false]

-- A rule that lets icmp in with a range of ports. The script drops the range, the program looks for a
-- port that no icmp packet has.
def icmpPortsPolicy : PolicyIR where
  schema  := 1
  version := 1
  blocks  := [{
    fromName := "a", toName := "b", srcCidrs := ["10.0.0.0/8"], dstCidrs := ["192.168.0.0/16"]
    rules    := [{
      ruleId := "r", action := .allow, proto := .icmp, src := [], dst := [], ports := [(80, 80)]
    }]
  }]

def icmpPortsFlat : List FlatRule := [{
  idx := 0, ruleId := "r", action := .allow, proto := .icmp
  srcCidrs := [.slash8 10], dstCidrs := [.slash16 192 168]
  portLo := 80, portHi := 80
}]

def echoPacket : Packet where
  src   := 0x0a000001
  dst   := 0xc0a80001
  proto := 1
  dport := 0

theorem flatten_icmpPortsPolicy : flatten icmpPortsPolicy = .ok icmpPortsFlat := by
  rfl

theorem ebpfDecision_nftVerdict_icmpPorts :
    flatten icmpPortsPolicy = .ok icmpPortsFlat ∧
    (ebpfDecision (run 0 (applyPolicy icmpPortsPolicy .default) (.loaded (.zeroed _ 0))).2
      (scanned echoPacket)).action = .deny ∧
    nftVerdict icmpPortsFlat false echoPacket = .allow :=
  ⟨flatten_icmpPortsPolicy, by decide +kernel, by decide⟩

theorem ebpfDecision_eq_nftVerdict_icmpPorts :
    ∃ gen' m',
      run 0 (applyPolicy icmpPortsPolicy .default) (.loaded (.zeroed _ 0)) = (.ok gen', m') ∧
      ((ebpfDecision m' (scanned echoPacket)).action = nftVerdict icmpPortsFlat false echoPacket ↔
        SplitHarmless icmpPortsFlat echoPacket) :=
  ebpfDecision_eq_nftVerdict_iff flatten_icmpPortsPolicy 0 .default (.loaded (.zeroed _ 0)) echoPacket

end Enforcer
