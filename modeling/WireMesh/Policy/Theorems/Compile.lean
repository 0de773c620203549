import WireMesh.Lib.Checked
import WireMesh.Policy.Semantics
import WireMesh.Policy.Theorems.Validate

-- Compilation of validated documents never panics, and what it normalises keeps its meaning.
namespace Policy

-- The bounds of a port as validation reads them.
def PortSpec.read : PortSpec → Option (Int × Int)
  | single n => some (n, n)
  | range s  => parseRange s

theorem PortSpec.contains_of_read {p : PortSpec} (h : p.read = some (lo, hi)) (q : Port) :
    p.contains q = decide (lo ≤ (q.toNat : Int) ∧ (q.toNat : Int) ≤ hi) := by
  cases p
  case single n =>
    cases h
    simp only [contains, decide_eq_decide]
    omega
  case range s =>
    rw [read] at h
    simp only [contains, h]

theorem splitRange_eq_some {parse : List Char → Option α} (h : splitRange parse s = some (a, b)) :
    ∃ l r, Text.splitOnce '-' s.toList = some (l, r) ∧ parse (Text.trim l) = some a ∧
      parse (Text.trim r) = some b := by
  simp only [splitRange, Option.bind_eq_bind, Option.bind_eq_some_iff, Option.pure_def,
    Option.some.injEq, Prod.mk.injEq] at h
  have ⟨⟨l, r⟩, hs, _, ha, _, hb, h₁, h₂⟩ := h
  exact ⟨l, r, hs, h₁ ▸ ha, h₂ ▸ hb⟩

-- A pair of ports as it was read.
structure PortSpec.ReadAs (p : PortSpec) (q : Port × Port) : Prop where
  read : p.read = some ((q.1.toNat : Int), (q.2.toNat : Int))
  pos : 1 ≤ q.1.toNat
  le : q.1.toNat ≤ q.2.toNat
  max : q.2.toNat ≤ 65535

theorem toNat_ofNat_port {n : Int} (h₁ : 1 ≤ n) (h₂ : n ≤ 65535) :
    ((BitVec.ofNat 16 n.toNat).toNat : Int) = n := by
  rw [BitVec.toNat_ofNat]
  omega

-- The two readers of a range, one signed and one unsigned, agree on what validation accepts.
theorem normalizePort_read (h : p.Valid) : ∃ q, normalizePort p = .ok q ∧ p.ReadAs q := by
  cases p
  case single n =>
    have hn : ((BitVec.ofInt 16 n).toNat : Int) = n := by
      simp only [PortSpec.Valid] at h
      rw [BitVec.toNat_ofInt]
      omega
    obtain ⟨h₁, h₂⟩ := h
    refine ⟨_, rfl, by rw [PortSpec.read, hn], ?_, Nat.le_refl _, ?_⟩
    all_goals
      dsimp only
      omega
  case range s =>
    obtain ⟨lo, hi, hp, h₁, h₂, h₃⟩ := h
    obtain ⟨l, r, hs, hl, hr⟩ := splitRange_eq_some hp
    have read {cs : List Char} {n : Int} (h : Text.parseSigned 64 cs = some n) (h₁ : 1 ≤ n)
        (h₂ : n ≤ 65535) : Text.parseUnsigned 16 cs = some n.toNat := by
      apply Text.parseUnsigned_of_parseSigned (b := 64) <;> try omega
      rw [h, Int.toNat_of_nonneg (by omega)]
    have hlo := toNat_ofNat_port (n := lo) (by omega) (by omega)
    have hhi := toNat_ofNat_port (n := hi) (by omega) (by omega)
    refine ⟨(BitVec.ofNat 16 lo.toNat, BitVec.ofNat 16 hi.toNat), ?_, ?_, ?_, ?_, ?_⟩
    case refine_1 =>
      simp only [normalizePort, hs, read hl (by omega) (by omega), read hr (by omega) (by omega)]
    case refine_2 => rw [PortSpec.read, hp, hlo, hhi]
    all_goals
      dsimp only
      omega

theorem normalizePort_ok (h : p.Valid) :
    ∃ lo hi, normalizePort p = .ok (lo, hi) ∧ lo ≠ 0 ∧
      ∀ q : Port, (decide (lo ≤ q) && decide (q ≤ hi)) = p.contains q := by
  have ⟨(lo, hi), hn, hr⟩ := normalizePort_read h
  refine ⟨lo, hi, hn, fun h0 => ?_, fun q => ?_⟩
  case refine_1 =>
    have := hr.pos
    simp [h0] at this
  case refine_2 =>
    rw [PortSpec.contains_of_read hr.read, ← Bool.decide_and, decide_eq_decide, BitVec.le_def,
      BitVec.le_def]
    dsimp only
    omega

variable [Ipnet]

theorem normalizedCidrStrings_ok {raw : List String} (h : ∀ s ∈ raw, ∃ n, Ipnet.parse s = .ok n) :
    ∃ nets : List Ipv4Net, normalizedCidrStrings raw = .ok (nets.map Ipv4Net.display) ∧
      List.Forall₂ (fun s n => Ipnet.parse s = .ok n) raw nets := by
  induction raw
  case nil => exact ⟨[], rfl, .nil⟩
  case cons s raw ih =>
    have ⟨⟨n, hn⟩, ht⟩ := List.forall_mem_cons.mp h
    have ⟨nets, hr, hf⟩ := ih ht
    refine ⟨n :: nets, ?_, .cons hn hf⟩
    rw [normalizedCidrStrings] at hr ⊢
    rw [List.mapM_cons, hr, hn]
    rfl

theorem any_textContains {raw : List String} {nets : List Ipv4Net}
    (h : List.Forall₂ (fun s n => Ipnet.parse s = .ok n) raw nets) (a : Ipv4Addr) :
    raw.any (textContains a) = nets.any (·.containsAddr a) := by
  induction h
  case nil => rfl
  case cons hn _ ih => simp only [List.any_cons, textContains, hn, ih]

end Policy
