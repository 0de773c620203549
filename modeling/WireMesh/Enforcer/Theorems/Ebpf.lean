import WireMesh.Enforcer.Theorems.Flatten
import WireMesh.Enforcer.Theorems.Program

-- The tables that the loader builds, and the decision that the program draws from them.
namespace Enforcer

open Policy

variable {flat : List FlatRule} {side : Side} {p : Ipv4Net} {a : Ipv4Addr}

theorem accumulateSide_eq (flat : List FlatRule) (side : Side) :
    accumulateSide flat side = DistinctSideCidrs.empty.observe (flat.flatMap (sideCidrs · side)) := by
  have h (d : DistinctSideCidrs) :
      flat.foldl (fun acc f => acc.observe (sideCidrs f side)) d =
        d.observe (flat.flatMap (sideCidrs · side)) := by
    induction flat generalizing d
    case nil => rfl
    case cons f flat ih => simp [ih]
  exact h .empty

theorem mem_distinctSideCidrs : p ∈ distinctSideCidrs flat side ↔ ∃ f ∈ flat, p ∈ sideCidrs f side := by
  simp [distinctSideCidrs, accumulateSide_eq, DistinctSideCidrs.empty]

theorem bitGet_coveringBits (h : ∀ f ∈ flat, f.idx < MAX_RULES) :
    bitGet (coveringBits flat side p) i ↔
      ∃ f ∈ flat, f.idx = i ∧ (sideCidrs f side).any (·.contains p) := by
  have fold (flat : List FlatRule) (h : ∀ f ∈ flat, f.idx < MAX_RULES) (b : RuleBits) :
      bitGet (flat.foldl
        (fun bits f => if (sideCidrs f side).any (·.contains p) then bitSet bits f.idx else bits) b) i ↔
      bitGet b i ∨ ∃ f ∈ flat, f.idx = i ∧ (sideCidrs f side).any (·.contains p) := by
    induction flat generalizing b
    case nil => simp
    case cons f flat ih =>
      have ⟨hf, ht⟩ := List.forall_mem_cons.mp h
      rw [List.foldl_cons, ih ht]
      split
      case isTrue hc =>
        rw [bitGet_bitSet b hf, Bool.or_eq_true, decide_eq_true_eq]
        grind
      case isFalse hc => grind
  simpa [coveringBits] using fold flat h .zero

theorem lpmKey_covers_iff :
    (lpmKey p).Covers keyBit ((toBe32 a).setWidth 64) ↔ p.containsAddr a := by
  have hn : Prefix.Agree p.prefixLen p.network a ↔ p.containsAddr a := by
    rw [Ipv4Net.containsAddr_iff]
    exact ⟨Ipv4Net.agree_network.trans, Ipv4Net.agree_network.symm.trans⟩
  rw [← hn, Prefix.Agree.iff_getMsbD p.prefixLen_le]
  have bit {i} (x : Ipv4Addr) (h : i < p.prefixLen) : keyBit ((toBe32 x).setWidth 64) i = x.getMsbD i :=
    keyBit_toBe32 x (Nat.lt_of_lt_of_le h p.prefixLen_le)
  constructor
  case mp  => exact fun h i hi => bit p.network hi ▸ bit a hi ▸ h i hi
  case mpr => exact fun h i hi => (bit p.network hi).trans <| (h i hi).trans (bit a hi).symm

theorem buildTrie_eq (h : entries.length ≤ LPM_MAX_ENTRIES) :
    buildTrie entries = some (.build keyBit (entries.map fun e => (lpmKey e.1, e.2))) := by
  have fold (t : Trie) (es : List (Ipv4Net × RuleBits)) (h : t.length + es.length ≤ LPM_MAX_ENTRIES) :
      es.foldlM (fun trie e => trieInsert trie (lpmKey e.1) e.2) t =
        some ((es.map fun e => (lpmKey e.1, e.2)).foldl (fun t e => t.insert keyBit e.1 e.2) t) := by
    induction es generalizing t
    case nil => rfl
    case cons e es ih =>
      have hl := Lpm.Table.length_insert_le keyBit t (lpmKey e.1) e.2
      simp only [List.length_cons] at h
      have hi : trieInsert t (lpmKey e.1) e.2 = some (t.insert keyBit (lpmKey e.1) e.2) :=
        if_pos (by omega)
      rw [List.foldlM_cons, hi]
      exact ih _ (by omega)
  exact fold [] entries (by simpa using h)

-- The longest CIDR around an address carries the bits of all rules with a CIDR around the address:
-- such a CIDR is no longer than it and has an address in common with it, so it contains it.
theorem trieBits_iff (n : Numbered flat) (h : buildTrie (buildLpmEntries flat side) = some t)
    (hl : (distinctSideCidrs flat side).length ≤ LPM_MAX_ENTRIES) :
    bitGet (trieBits (some t) ((toBe32 a).setWidth 64)) i ↔
      ∃ f ∈ flat, f.idx = i ∧ (sideCidrs f side).any (·.containsAddr a) := by
  rw [buildTrie_eq (by simpa [buildLpmEntries] using hl), Option.some.injEq] at h
  subst h
  simp only [buildLpmEntries, List.map_map]
  simp only [trieBits, Option.bind_some]
  cases hlk : Lpm.Table.lookup keyBit _ _
  case none =>
    have none {f c} (hf : f ∈ flat) (hc : c ∈ sideCidrs f side) : ¬c.containsAddr a := by
      rw [← lpmKey_covers_iff]
      have hd := mem_distinctSideCidrs.mpr ⟨f, hf, hc⟩
      exact Lpm.Table.lookup_build_none hlk (List.mem_map_of_mem hd)
    simp only [Option.getD_none, bitGet_zero, Bool.false_eq_true, false_iff, List.any_eq_true]
    rintro ⟨f, hf, -, c, hc, ha⟩
    exact none hf hc ha
  case some bits =>
    have ⟨e, he, hb, hcov, hmax⟩ := Lpm.Table.lookup_build_some hlk
    have ⟨p, hp, hpe⟩ := List.mem_map.mp he
    subst hpe hb
    have hpa := lpmKey_covers_iff.mp hcov
    simp only [Option.getD_some, Function.comp, bitGet_coveringBits fun f hf => n.idx_lt hf,
      List.any_eq_true]
    constructor
    case mp =>
      intro ⟨f, hf, hi, c, hc, hcp⟩
      exact ⟨f, hf, hi, c, hc, Ipv4Net.containsAddr_of_contains hcp hpa⟩
    case mpr =>
      intro ⟨f, hf, hi, c, hc, hca⟩
      have hd := mem_distinctSideCidrs.mpr ⟨f, hf, hc⟩
      have hle := hmax _ (List.mem_map_of_mem hd) (lpmKey_covers_iff.mpr hca)
      exact ⟨f, hf, hi, c, hc, Ipv4Net.contains_of_common hle hca hpa⟩

theorem fillRules_eq {rules : List RuleMeta} (h : rules.length ≤ MAX_RULES) :
    ∃ arr, fillRules rules = some arr ∧
      ∀ i < MAX_RULES, arr.get i = some (rules[i]?.getD RuleMeta.zero) := by
  have fold (rs : List RuleMeta) (k : Nat) (arr : RulesArr) (h : k + rs.length ≤ MAX_RULES) :
      ∃ arr', (rs.zipIdx k).foldlM setRule arr = some arr' ∧
        ∀ i < MAX_RULES, arr'.get i = if k ≤ i then (rs[i - k]?.or (arr.get i)) else arr.get i := by
    induction rs generalizing k arr
    case nil => exact ⟨arr, rfl, fun i _ => by simp⟩
    case cons r rs ih =>
      simp only [List.length_cons] at h
      have ⟨arr', he, hg⟩ := ih (k + 1) (arr.set k r) (by omega)
      refine ⟨arr', ?_, fun i hi => ?_⟩
      case refine_1 =>
        rw [List.zipIdx_cons, List.foldlM_cons, setRule, if_pos (by omega)]
        exact he
      case refine_2 =>
        rw [hg i hi, ArrayMap.get_set arr r hi]
        grind
  have ⟨arr, he, hg⟩ := fold rules 0 (.zeroed MAX_RULES .zero) (by simpa using h)
  refine ⟨arr, he, fun i hi => ?_⟩
  rw [hg i hi, ArrayMap.get_zeroed hi]
  cases rules[i]? <;> simp

-- The tables of a generation hold a flattened policy.
structure Generation.Holds (g : Generation) (flat : List FlatRule) : Prop where
  src : ∀ a i, bitGet (trieBits g.src ((toBe32 a).setWidth 64)) i ↔
    ∃ f ∈ flat, f.idx = i ∧ f.srcCidrs.any (·.containsAddr a)
  dst : ∀ a i, bitGet (trieBits g.dst ((toBe32 a).setWidth 64)) i ↔
    ∃ f ∈ flat, f.idx = i ∧ f.dstCidrs.any (·.containsAddr a)
  rules : ∀ i f, flat[i]? = some f → g.rules.get i = some (ruleMeta f)
  len : g.metaArr.get 0 = some flat.length

theorem buildGeneration_holds (n : Numbered flat) (hc : checkLpmCapacity flat = .ok ()) :
    ∃ g, buildGeneration (buildLpmEntries flat .src) (buildLpmEntries flat .dst)
      (buildRules flat).1 = .ok g ∧ g.Holds flat := by
  simp only [checkLpmCapacity, Checked.bind_ok, DistinctSideCidrs.check_ok, exists_const] at hc
  have trie {side} (h : (accumulateSide flat side).Fits) : ∃ t,
      buildTrie (buildLpmEntries flat side) = some t :=
    ⟨_, buildTrie_eq <| (Nat.le_of_eq <| List.length_map _).trans h⟩
  have ⟨s, hs⟩ := trie hc.1
  have ⟨d, hd⟩ := trie hc.2
  have ⟨arr, ha, hget⟩ := fillRules_eq (show (flat.map ruleMeta).length ≤ _ by simpa using n.length)
  refine ⟨_, by simp only [buildGeneration, hs, hd, buildRules, ha]; rfl, ?_, ?_, ?_, ?_⟩
  case refine_1 => exact fun a i => trieBits_iff n hs hc.1
  case refine_2 => exact fun a i => trieBits_iff n hd hc.2
  case refine_3 =>
    intro i f hf
    have hi := n.idx i f hf ▸ n.idx_lt (List.mem_of_getElem? hf)
    simp [hget i hi, hf]
  case refine_4 => simp [ArrayMap.get_set_self]

namespace FlatRule

-- The test that the program makes of a rule in place of `selects`.
def ebpfSelects (f : FlatRule) (pkt : Packet) : Bool :=
  f.selectsAddrs pkt && metaMatches (ruleMeta f) pkt.proto (toBe16 pkt.dport)

end FlatRule

theorem Slot.scan_ofGeneration (n : Numbered flat) (h : g.Holds flat) (pkt : Packet) :
    (ofGeneration g).scan (toBe32 pkt.src) (toBe32 pkt.dst) pkt.proto (toBe16 pkt.dport) =
      (flat.find? (·.ebpfSelects pkt)).map fun f => (f.idx, ruleMeta f) := by
  set bits := (ofGeneration g).bits (toBe32 pkt.src) (toBe32 pkt.dst) with hb
  have hbit {i} {f : FlatRule} (hf : flat[i]? = some f) : bitGet bits i = f.selectsAddrs pkt := by
    rw [hb, Slot.bits, bitGet_and, FlatRule.selectsAddrs, Bool.eq_iff_iff, Bool.and_eq_true,
      Bool.and_eq_true]
    exact and_congr ((h.src _ _).trans (n.exists_idx hf)) ((h.dst _ _).trans (n.exists_idx hf))
  have hlen : (ofGeneration g).len = flat.length := by
    simp [len, ofGeneration, h.len, n.length]
  -- The loop from index `i` on looks at what is left of the list from there.
  have loop (k i : Nat) (hk : i + k = MAX_RULES) :
      (ofGeneration g).scanLoop bits flat.length pkt.proto (toBe16 pkt.dport) (List.range' i k) =
        ((flat.drop i).find? (·.ebpfSelects pkt)).map fun f => (f.idx, ruleMeta f) := by
    induction k generalizing i
    case zero =>
      have := n.length
      rw [List.drop_eq_nil_of_le (by omega)]
      rfl
    case succ k ih =>
      rw [List.range'_succ, scanLoop]
      split
      case isTrue hi => rw [List.drop_eq_nil_of_le hi]; rfl
      case isFalse hi =>
        have hf : flat[i]? = some flat[i] := List.getElem?_eq_getElem (by omega)
        rw [List.drop_eq_getElem_cons (by omega), List.find?_cons, hbit hf, ih (i + 1) (by omega)]
        have hr : (ofGeneration g).rules.bind (·.get i) = some (ruleMeta flat[i]) := h.rules i _ hf
        have hi := n.idx i _ hf
        simp only [hr, FlatRule.ebpfSelects]
        cases flat[i].selectsAddrs pkt <;>
          cases hm : metaMatches (ruleMeta flat[i]) pkt.proto (toBe16 pkt.dport) <;> simp [hi]
  rw [scan, hlen, ← hb, List.range_eq_range', loop MAX_RULES 0 (by simp), List.drop_zero]

theorem metaMatches_ruleMeta (f : FlatRule) (proto : BitVec 8) (p : Port) :
    metaMatches (ruleMeta f) proto (toBe16 p) =
      (protoSelects f.proto proto &&
        (decide (f.portHi = 0) || (decide (f.portLo ≤ p) && decide (p ≤ f.portHi)))) := by
  have wide (n : BitVec 8) : n.setWidth 32 = proto.setWidth 32 ↔ proto = n := by
    constructor
    case mp  => intro h; bv_omega
    case mpr => exact fun h => h ▸ rfl
  have num (q : IrProto) :
      (if protoNum q = 0 then decide (proto = 1 ∨ proto = 6 ∨ proto = 17)
        else decide (protoNum q = proto.setWidth 32)) = protoSelects q proto := by
    cases q
    case any  => rfl
    case tcp  => exact decide_eq_decide.mpr (wide 6)
    case udp  => exact decide_eq_decide.mpr (wide 17)
    case icmp => exact decide_eq_decide.mpr (wide 1)
  rw [metaMatches, fromBe16_toBe16, ← num]
  rfl

namespace FlatRule

-- A range with an upper bound of zero and a lower one above it holds no port, but the program takes
-- an upper bound of zero for any port.
def zeroUpper (f : FlatRule) : Bool :=
  decide (f.portHi = 0 ∧ f.portLo ≠ 0)

theorem ebpfSelects_eq (f : FlatRule) (pkt : Packet) :
    f.ebpfSelects pkt =
      (f.selects pkt || (f.zeroUpper && f.selectsAddrs pkt && protoSelects f.proto pkt.proto)) := by
  rw [ebpfSelects, metaMatches_ruleMeta, selects, portSelects, zeroUpper]
  cases f.selectsAddrs pkt <;> cases protoSelects f.proto pkt.proto <;> simp
  grind

end FlatRule

end Enforcer
