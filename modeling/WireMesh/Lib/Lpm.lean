import Mathlib

-- Longest-prefix-match tables over keys whose bits are read one by one: an insertion at a key that
-- is already present overwrites its value, a lookup yields the value of the longest stored key that
-- covers the search word.
namespace Lpm

variable {κ V : Type} {bit : κ → Nat → Bool}

structure Key (κ : Type) where
  prefixLen : Nat
  data : κ

namespace Key

-- `k` covers `x` if the two agree on the first `prefixLen` bits.
def Covers (bit : κ → Nat → Bool) (k : Key κ) (x : κ) : Prop :=
  ∀ i < k.prefixLen, bit k.data i = bit x i

instance : Decidable (Covers bit k x) :=
  inferInstanceAs <| Decidable (∀ _ < _, _)

-- Bits past the prefix do not take part in the identity of a key.
def Same (bit : κ → Nat → Bool) (k₁ k₂ : Key κ) : Prop :=
  k₁.prefixLen = k₂.prefixLen ∧ k₁.Covers bit k₂.data

instance : Decidable (Same bit k₁ k₂) :=
  inferInstanceAs <| Decidable (_ ∧ _)

namespace Same

variable {k₁ k₂ k₃ : Key κ}

theorem refl (k : Key κ) : Same bit k k :=
  ⟨rfl, fun _ _ => rfl⟩

theorem symm (h : Same bit k₁ k₂) : Same bit k₂ k₁ :=
  ⟨h.1.symm, fun i hi => (h.2 i (h.1 ▸ hi)).symm⟩

theorem trans (h₁ : Same bit k₁ k₂) (h₂ : Same bit k₂ k₃) : Same bit k₁ k₃ :=
  ⟨h₁.1.trans h₂.1, fun i hi => (h₁.2 i hi).trans (h₂.2 i (h₁.1 ▸ hi))⟩

theorem covers_iff (h : Same bit k₁ k₂) : k₁.Covers bit x ↔ k₂.Covers bit x where
  mp hc  := fun i hi => (h.symm.2 i hi).trans (hc i (h.1 ▸ hi))
  mpr hc := fun i hi => (h.2 i hi).trans (hc i (h.1 ▸ hi))

end Same
end Key

abbrev Table (κ V : Type) := List (Key κ × V)

namespace Table

def insert (bit : κ → Nat → Bool) (t : Table κ V) (k : Key κ) (v : V) : Table κ V :=
  if t.any (fun e => decide (e.1.Same bit k))
  then t.map (fun e => if e.1.Same bit k then (e.1, v) else e)
  else t ++ [(k, v)]

def lookup (bit : κ → Nat → Bool) (t : Table κ V) (x : κ) : Option V :=
  (t.filter (fun e => decide (e.1.Covers bit x))).argmax (·.1.prefixLen) |>.map (·.2)

def build (bit : κ → Nat → Bool) (es : List (Key κ × V)) : Table κ V :=
  es.foldl (fun t e => t.insert bit e.1 e.2) []

variable {t : Table κ V} {x : κ} {v : V} {e d : Key κ × V} {es : List (Key κ × V)}

theorem lookup_none_iff : t.lookup bit x = none ↔ ∀ e ∈ t, ¬e.1.Covers bit x := by
  simp [lookup, List.argmax_eq_none, List.filter_eq_nil_iff]

theorem lookup_some (h : t.lookup bit x = some v) :
    ∃ e ∈ t, e.2 = v ∧ e.1.Covers bit x ∧
      ∀ e' ∈ t, e'.1.Covers bit x → e'.1.prefixLen ≤ e.1.prefixLen := by
  have ⟨e, he, hv⟩ := Option.map_eq_some_iff.mp h
  have ⟨hm, hc⟩ := List.mem_filter.mp <| List.argmax_mem he
  refine ⟨e, hm, hv, of_decide_eq_true hc, fun e' hm' hc' => ?_⟩
  have hf : e' ∈ t.filter (fun e => decide (e.1.Covers bit x)) := by simp [hm', hc']
  exact List.le_of_mem_argmax (f := fun e => e.1.prefixLen) hf he

-- An entry of a table after an insertion carries the inserted value or is an old one.
theorem mem_insert (h : e ∈ t.insert bit k v) : (e.1.Same bit k ∧ e.2 = v) ∨ e ∈ t := by
  unfold insert at h
  split at h
  case isTrue =>
    have ⟨e', hm, he⟩ := List.mem_map.mp h
    split at he
    case isTrue hs => exact .inl <| he ▸ ⟨hs, rfl⟩
    case isFalse   => exact .inr <| he ▸ hm
  case isFalse =>
    cases List.mem_append.mp h
    case inl hm => exact .inr hm
    case inr hm => cases List.mem_singleton.mp hm; exact .inl ⟨.refl k, rfl⟩

theorem insert_self (bit : κ → Nat → Bool) (t : Table κ V) (k : Key κ) (v : V) :
    ∃ e ∈ t.insert bit k v, e.1.Same bit k := by
  unfold insert
  split
  case isTrue h =>
    have ⟨e, hm, hs⟩ := List.any_eq_true.mp h
    replace hs := of_decide_eq_true hs
    exact ⟨(e.1, v), List.mem_map.mpr ⟨e, hm, by simp [hs]⟩, hs⟩
  case isFalse => exact ⟨(k, v), by simp, .refl k⟩

theorem length_insert_le (bit : κ → Nat → Bool) (t : Table κ V) (k : Key κ) (v : V) :
    (t.insert bit k v).length ≤ t.length + 1 := by
  unfold insert
  split <;> simp

theorem insert_keeps (bit : κ → Nat → Bool) (k : Key κ) (v : V) (hm : e ∈ t) :
    ∃ e' ∈ t.insert bit k v, e'.1 = e.1 := by
  unfold insert
  split
  case isFalse => exact ⟨e, List.mem_append_left _ hm, rfl⟩
  case isTrue =>
    by_cases hs : e.1.Same bit k
    case pos => exact ⟨(e.1, v), List.mem_map.mpr ⟨e, hm, by simp [hs]⟩, rfl⟩
    case neg => exact ⟨e, List.mem_map.mpr ⟨e, hm, by simp [hs]⟩, rfl⟩

private theorem foldl_insert_keeps
    (bit : κ → Nat → Bool) (es : List (Key κ × V)) (hm : e ∈ t) :
    ∃ e' ∈ es.foldl (fun t e => t.insert bit e.1 e.2) t, e'.1 = e.1 := by
  induction es generalizing t e
  case nil => exact ⟨e, hm, rfl⟩
  case cons d es ih =>
    have ⟨e₁, hm₁, h₁⟩ := insert_keeps bit d.1 d.2 hm
    have ⟨e₂, hm₂, h₂⟩ := ih hm₁
    exact ⟨e₂, hm₂, h₂.trans h₁⟩

private theorem foldl_insert_mem (es : List (Key κ × V))
    (h : e ∈ es.foldl (fun t e => t.insert bit e.1 e.2) t) :
    e ∈ t ∨ ∃ d ∈ es, e.1.Same bit d.1 ∧ e.2 = d.2 := by
  induction es generalizing t
  case nil => exact .inl h
  case cons d es ih =>
    cases ih h
    case inr h => exact .inr <| let ⟨d', hd, h⟩ := h; ⟨d', List.mem_cons_of_mem _ hd, h⟩
    case inl h =>
      cases mem_insert h
      case inl h => exact .inr ⟨d, List.mem_cons_self, h⟩
      case inr h => exact .inl h

private theorem foldl_insert_complete (hd : d ∈ es) :
    ∃ e ∈ es.foldl (fun t e => t.insert bit e.1 e.2) t, e.1.Same bit d.1 := by
  induction es generalizing t
  case nil => cases hd
  case cons d' es ih =>
    cases List.mem_cons.mp hd
    case inr hd => exact ih hd
    case inl hd =>
      have ⟨e₁, hm₁, h₁⟩ := insert_self bit t d'.1 d'.2
      have ⟨e₂, hm₂, h₂⟩ := foldl_insert_keeps bit es hm₁
      exact ⟨e₂, hm₂, hd ▸ h₂ ▸ h₁⟩

theorem mem_build (h : e ∈ build bit es) : ∃ d ∈ es, e.1.Same bit d.1 ∧ e.2 = d.2 :=
  foldl_insert_mem es h |>.resolve_left List.not_mem_nil

theorem build_complete (bit : κ → Nat → Bool) (h : d ∈ es) : ∃ e ∈ build bit es, e.1.Same bit d.1 :=
  foldl_insert_complete h

-- A lookup in a table built from `es` yields the value of a longest covering entry of `es`.
theorem lookup_build_some (h : (build bit es).lookup bit x = some v) :
    ∃ d ∈ es, d.2 = v ∧ d.1.Covers bit x ∧
      ∀ d' ∈ es, d'.1.Covers bit x → d'.1.prefixLen ≤ d.1.prefixLen := by
  have ⟨e, hm, hv, hc, hl⟩ := lookup_some h
  have ⟨d, hd, hs, hw⟩ := mem_build hm
  refine ⟨d, hd, hw ▸ hv, hs.covers_iff.mp hc, fun d' hd' hc' => ?_⟩
  have ⟨e', hm', hs'⟩ := build_complete bit hd'
  exact hs'.1 ▸ hs.1 ▸ hl e' hm' (hs'.covers_iff.mpr hc')

theorem lookup_build_none (h : (build bit es).lookup bit x = none) (hd : d ∈ es) :
    ¬d.1.Covers bit x := by
  intro hc
  have ⟨e, hm, hs⟩ := build_complete bit hd
  exact lookup_none_iff.mp h e hm (hs.covers_iff.mpr hc)

end Table
end Lpm
