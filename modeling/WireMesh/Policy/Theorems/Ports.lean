import WireMesh.Policy.Theorems.Compile
import WireMesh.Policy.Theorems.Table

-- Compilation reads the ports of a document as validation has read them.
namespace Policy

open Checked

-- The rule that a written rule was compiled to has its ports, one by one.
def RuleSrc.ReadAs (rule : RuleSrc) (r : IrRule) : Prop :=
  ∃ action body, ruleAction rule = .ok (action, body) ∧ List.Forall₂ PortSpec.ReadAs body.ports r.ports

theorem compileProto_total {body : RuleBody} [Ipnet] (h : body.Valid) :
    ∃ proto, compileProto body.proto = .ok proto := by
  obtain h | h | h | h := h.proto
  all_goals
    rw [h]
    exact ⟨_, rfl⟩

section
variable [Ipnet] [Sha256] {segments : List SegmentDef}

theorem compileRule_read (block : BlockSrc) (hv : rule.Valid) :
    ∃ r, compileRule block rule = .ok r ∧ rule.ReadAs r := by
  have ⟨action, body, ha, hb⟩ := hv
  have ⟨proto, hproto⟩ := compileProto_total hb
  have ⟨src, hsrc, _⟩ := normalizedCidrStrings_ok hb.src
  have ⟨dst, hdst, _⟩ := normalizedCidrStrings_ok hb.dst
  have ⟨ports, hports, hr⟩ := mapM_exists (l := body.ports) (f := normalizePort) fun p hp =>
    normalizePort_read (hb.ports p hp)
  let r : IrRule :=
    ⟨"", action, proto, src.map Ipv4Net.display, dst.map Ipv4Net.display, ports⟩
  refine ⟨{ r with ruleId := ruleId block.fromName block.toName r }, ?_, action, body, ha, hr⟩
  simp only [compileRule, ha, hproto, hsrc, hdst, hports, ok_bind]
  rfl

theorem compileBlock_read (hv : block.Valid segments) :
    ∃ b, compileBlock segments block = .ok b ∧
      List.Forall₂ RuleSrc.ReadAs block.rules b.rules := by
  have ⟨fromSeg, hf, _⟩ := hv.fromSeg
  have ⟨toSeg, ht, _⟩ := hv.toSeg
  have ⟨rules, hc, hr⟩ := mapM_exists fun rule hm => compileRule_read block (hv.rules rule hm)
  refine ⟨⟨block.fromName, block.toName, sortedCidrStrings fromSeg.cidrs,
    sortedCidrStrings toSeg.cidrs, rules⟩, ?_, hr⟩
  simp only [compileBlock, hf, ht, hc, ok_bind]
  rfl

variable [IpnetV6]

theorem compileBlocks_read (src : PolicySource segments) :
    ∃ blocks, compileBlocks src = .ok blocks ∧
      List.Forall₂ (fun block b => List.Forall₂ RuleSrc.ReadAs block.rules b.rules)
        src.doc.policy blocks :=
  mapM_exists fun block hm => compileBlock_read (src.valid_blocks block hm)

-- A document that has been accepted is compiled without a panic, and every pair of ports that comes
-- out has the bounds that validation read from the same text.
theorem compile_ports_as_validated {fromYaml : String → Except String PolicyDoc}
    {src : PolicySource segments} (h : parsePolicy fromYaml yaml segments = .ok src) (version : Nat) :
    fromYaml yaml = .ok src.doc ∧
      (∀ msg, compile src version ≠ .error (.panicked msg)) ∧
      ∀ ir, compile src version = .ok ir →
        List.Forall₂ (fun block b => List.Forall₂ RuleSrc.ReadAs block.rules b.rules)
          src.doc.policy ir.blocks := by
  obtain ⟨blocks, hb, hr⟩ := compileBlocks_read src
  refine ⟨parsePolicy_ok.mp h, fun msg hc => ?_, fun ir hc => ?_⟩
  case refine_1 =>
    simp only [compile, hb, ok_bind] at hc
    split at hc
    all_goals cases hc
  case refine_2 =>
    obtain ⟨blocks', hb', _, hir⟩ := compile_ok.mp hc
    cases hb.symm.trans hb'
    exact hir ▸ hr

end

-- A rule for one port and for a range that is written with a sign and with spaces.
namespace Web

scoped instance : Sha256 where
  digest := id

scoped instance : IpnetV6 where
  isV6 _ := false

def table : List SegmentDef :=
  [⟨"web", [.slash8 10]⟩]

def doc : PolicyDoc :=
  ⟨[⟨"web", "web", [⟨some ⟨[], [], [.single 443, .range " 8000 - +8080"], some "tcp"⟩, none⟩]⟩]⟩

def source : PolicySource table :=
  ⟨doc, by decide +kernel⟩

theorem compile_source : ∃ ir, compile source 1 = .ok ir := by
  have h : (compile source 1).isOk := by decide +kernel
  cases hc : compile source 1
  case ok ir     => exact ⟨ir, rfl⟩
  case error err => rw [hc] at h; cases h

theorem compile_ports_as_validated_web :
    ∃ src : PolicySource table, parsePolicy (fun _ => .ok doc) "" table = .ok src ∧
      ∃ ir, compile src 1 = .ok ir ∧
        List.Forall₂ (fun block b => List.Forall₂ RuleSrc.ReadAs block.rules b.rules)
          doc.policy ir.blocks :=
  have hp : parsePolicy (fun _ => .ok doc) "" table = .ok source := parsePolicy_ok.mpr rfl
  have ⟨ir, hc⟩ := compile_source
  ⟨source, hp, ir, hc, (compile_ports_as_validated hp 1).2.2 ir hc⟩

end Web
end Policy
