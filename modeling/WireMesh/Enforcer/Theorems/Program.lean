import WireMesh.Enforcer.Ebpf
import WireMesh.Enforcer.Program
import WireMesh.Enforcer.Semantics

namespace Enforcer

open Policy Kernel

-- What one slot of the four outer arrays holds. A slot that was never written to holds nothing.
structure Slot where
  src : Option Trie
  dst : Option Trie
  rules : Option RulesArr
  metaArr : Option MetaArr

namespace Slot

def empty : Slot :=
  ⟨none, none, none, none⟩

def ofGeneration (g : Generation) : Slot :=
  ⟨g.src, g.dst, g.rules, g.metaArr⟩

def bits (s : Slot) (src dst : BitVec 32) : RuleBits :=
  bitAnd (trieBits s.src (src.setWidth 64)) (trieBits s.dst (dst.setWidth 64))

def len (s : Slot) : Nat :=
  min ((s.metaArr.bind (·.get 0)).getD 0) MAX_RULES

def scanLoop (s : Slot) (bits : RuleBits) (len : Nat) (proto : BitVec 8) (dport : BitVec 16) :
    List Nat → Option (Nat × RuleMeta)
  | []      => none
  | i :: is =>
    if i ≥ len then none
    else if !bitGet bits i then s.scanLoop bits len proto dport is
    else match s.rules.bind (·.get i) with
      | none   => none
      | some m => if metaMatches m proto dport then some (i, m) else s.scanLoop bits len proto dport is

-- The outcome of a scan that reads all it needs from one slot.
def scan (s : Slot) (src dst : BitVec 32) (proto : BitVec 8) (dport : BitVec 16) :
    Option (Nat × RuleMeta) :=
  s.scanLoop (s.bits src dst) s.len proto dport (List.range MAX_RULES)

end Slot

def Maps.slot (m : Maps) (s : Nat) : Slot where
  src     := m.slotSrc s
  dst     := m.slotDst s
  rules   := m.slotRules s
  metaArr := m.slotMeta s

theorem run_scanLoop (m : Maps) (slot : Nat) (bits : RuleBits) (len : Nat) (is : List Nat) :
    run (scanLoop slot bits len proto dport is) m =
      ((m.slot slot).scanLoop bits len proto dport is, m) := by
  induction is
  case nil => rfl
  case cons i is ih =>
    have hr : (m.slot slot).rules = m.slotRules slot := rfl
    simp only [scanLoop, Slot.scanLoop, run_ite, run_pure, run_bind, run_genRules, ih, hr]
    cases (m.slotRules slot).bind (·.get i)
    case none   => simp only [run_pure]; grind
    case some r => simp only [run_ite, run_pure, ih]; grind

-- Run alone, the verdict path is the scan of the active slot, and it changes nothing.
theorem run_scanRules (m : Maps) :
    run (scanRules src dst proto dport) m = ((m.slot m.activeSlot).scan src dst proto dport, m) := by
  simp only [scanRules, run_bind, run_active, run_genSrc, run_genDst, run_genMeta, run_scanLoop]
  rfl

-- The parts of the maps that only the loader writes.
structure Maps.SameGens (m m' : Maps) : Prop where
  slot   : ∀ s, m'.slot s = m.slot s
  active : m'.activeSlot = m.activeSlot
  config : m'.config = m.config

namespace Maps.SameGens

theorem refl (m : Maps) : SameGens m m :=
  ⟨fun _ => rfl, rfl, rfl⟩

theorem trans {m₁ m₂ m₃ : Maps} (h₁ : SameGens m₁ m₂) (h₂ : SameGens m₂ m₃) : SameGens m₁ m₃ where
  slot s := (h₂.slot s).trans (h₁.slot s)
  active := h₂.active.trans h₁.active
  config := h₂.config.trans h₁.config

-- No program that runs on a packet writes to them.
theorem run (p : Kernel α) (m : Maps) : SameGens m (Kernel.run p m).2 := by
  refine Prog.run_rel Maps.exec refl trans (fun o m => ?_) p m
  cases o
  case flowWrite   => simp only [Maps.exec]; split <;> exact ⟨fun _ => rfl, rfl, rfl⟩
  case rateWrite   => simp only [Maps.exec]; split <;> exact ⟨fun _ => rfl, rfl, rfl⟩
  case budgetWrite b _ _ => cases b <;> exact ⟨fun _ => rfl, rfl, rfl⟩
  all_goals exact ⟨fun _ => rfl, rfl, rfl⟩

end Maps.SameGens

-- A packet passes on the code for allow alone. The packet is given in host order.
def ebpfDecision (m : Maps) (pkt : Packet) : Decision :=
  match (run (scanRules (toBe32 pkt.src) (toBe32 pkt.dst) pkt.proto (toBe16 pkt.dport)) m).1 with
  | some (i, r) => { action := if r.action = ACT_ALLOW then .allow else .deny, ruleIdx := i }
  | none        => { action := .deny, ruleIdx := none }

end Enforcer
