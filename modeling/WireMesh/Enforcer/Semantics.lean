import WireMesh.Enforcer.Flatten
import WireMesh.Policy.Semantics

-- What a flattened policy means: the first rule that selects a packet decides it, and a packet that
-- no rule selects is denied.
namespace Enforcer

open Policy

-- An omitted protocol stands for the three that a policy can name.
def protoSelects : IrProto → BitVec 8 → Bool
  | .tcp,  n => decide (n = 6)
  | .udp,  n => decide (n = 17)
  | .icmp, n => decide (n = 1)
  | .any,  n => decide (n = 1 ∨ n = 6 ∨ n = 17)

-- The range (0, 0) stands for any port.
def portSelects (lo hi p : Port) : Bool :=
  decide (lo = 0 ∧ hi = 0) || (decide (lo ≤ p) && decide (p ≤ hi))

namespace FlatRule

def selectsAddrs (f : FlatRule) (pkt : Packet) : Bool :=
  f.srcCidrs.any (·.containsAddr pkt.src) && f.dstCidrs.any (·.containsAddr pkt.dst)

def selects (f : FlatRule) (pkt : Packet) : Bool :=
  f.selectsAddrs pkt && protoSelects f.proto pkt.proto && portSelects f.portLo f.portHi pkt.dport

end FlatRule

def firstMatch (flat : List FlatRule) (pkt : Packet) : Option FlatRule :=
  flat.find? (·.selects pkt)

def verdict (flat : List FlatRule) (pkt : Packet) : IrAction :=
  ((firstMatch flat pkt).map (·.action)).getD .deny

-- What a rule says, if it selects the packet.
def FlatRule.verdict (f : FlatRule) (pkt : Packet) : Option IrAction :=
  if f.selects pkt then some f.action else none

theorem verdict_eq (flat : List FlatRule) (pkt : Packet) :
    verdict flat pkt = (flat.findSome? (·.verdict pkt)).getD .deny := by
  rw [verdict, firstMatch]
  congr 1
  induction flat
  case nil => rfl
  case cons f flat ih =>
    rw [List.find?_cons, List.findSome?_cons, FlatRule.verdict]
    cases f.selects pkt <;> simp [ih]

-- An action, and the index of the rule it comes from unless it is the default.
structure Decision where
  action : IrAction
  ruleIdx : Option Nat
deriving DecidableEq

def Decision.ofRule : Option FlatRule → Decision
  | some f => { action := f.action, ruleIdx := f.idx }
  | none   => { action := .deny, ruleIdx := none }

-- The index of every rule is its position, and the positions fit the tables of the kernel.
structure Numbered (flat : List FlatRule) : Prop where
  idx    : ∀ (i : Nat) (f : FlatRule), flat[i]? = some f → f.idx = i
  length : flat.length ≤ MAX_RULES

namespace Numbered

variable {flat : List FlatRule} {f g : FlatRule}

theorem getElem? (n : Numbered flat) (h : f ∈ flat) : flat[f.idx]? = some f := by
  have ⟨i, hi⟩ := List.mem_iff_getElem?.mp h
  exact n.idx i f hi ▸ hi

theorem idx_inj (n : Numbered flat) (hf : f ∈ flat) (hg : g ∈ flat) (h : f.idx = g.idx) : f = g :=
  Option.some.inj <| (n.getElem? hf).symm.trans (h ▸ n.getElem? hg)

theorem idx_lt (n : Numbered flat) (h : f ∈ flat) : f.idx < MAX_RULES := by
  have ⟨hl, _⟩ := List.getElem?_eq_some_iff.mp (n.getElem? h)
  exact Nat.lt_of_lt_of_le hl n.length

theorem exists_idx (n : Numbered flat) {P : FlatRule → Prop} (hf : flat[i]? = some f) :
    (∃ g ∈ flat, g.idx = i ∧ P g) ↔ P f := by
  constructor
  case mpr => exact fun h => ⟨f, List.mem_of_getElem? hf, n.idx i f hf, h⟩
  case mp =>
    intro ⟨g, hg, hi, h⟩
    cases Option.some.inj <| (n.getElem? hg).symm.trans (hi ▸ hf)
    exact h

-- What stands before a rule is what has a smaller index.
theorem mem_before (n : Numbered flat) (h : flat = l₁ ++ f :: l₂) :
    g ∈ l₁ ↔ g ∈ flat ∧ g.idx < f.idx := by
  have hf : f.idx = l₁.length := n.idx _ f (by simp [h])
  constructor
  case mp =>
    intro hg
    have ⟨i, hi⟩ := List.mem_iff_getElem?.mp hg
    have ⟨hl, _⟩ := List.getElem?_eq_some_iff.mp hi
    have hi' : flat[i]? = some g := by rw [h, List.getElem?_append_left hl, hi]
    exact ⟨List.mem_of_getElem? hi', n.idx i g hi' ▸ hf ▸ hl⟩
  case mpr =>
    intro ⟨hg, hlt⟩
    have hi := n.getElem? hg
    rw [h, List.getElem?_append_left (hf ▸ hlt)] at hi
    exact List.mem_of_getElem? hi

end Numbered

theorem Decision.ofRule_inj (n : Numbered flat) {p q : FlatRule → Bool} :
    ofRule (flat.find? p) = ofRule (flat.find? q) ↔ flat.find? p = flat.find? q := by
  constructor
  case mpr => exact congrArg ofRule
  case mp =>
    intro h
    cases hp : flat.find? p <;> cases hq : flat.find? q <;> simp_all [ofRule]
    exact n.idx_inj (List.mem_of_find?_eq_some hp) (List.mem_of_find?_eq_some hq) h.2

end Enforcer
