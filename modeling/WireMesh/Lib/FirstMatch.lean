import Mathlib

-- Ordered lists in which the first element to pass a test decides.
namespace FirstMatch

variable {α β : Type} {p q : α → Bool} {l : List α}

-- A test that passes more elements has the same first match exactly if every element that only it
-- passes stands behind one that both do.
theorem find_eq_iff (h : ∀ x ∈ l, p x → q x) :
    l.find? q = l.find? p ↔
      ∀ l₁ x l₂, l = l₁ ++ x :: l₂ → q x → p x ∨ ∃ y ∈ l₁, p y := by
  induction l
  case nil => simp
  case cons a l ih =>
    have ⟨ha, hl⟩ := List.forall_mem_cons.mp h
    specialize ih hl
    by_cases hp : p a
    case pos =>
      simp only [List.find?_cons, hp, ha hp, true_iff]
      intro l₁ x l₂ he _
      cases l₁
      case nil  => cases he; exact .inl hp
      case cons => cases he; exact .inr ⟨a, List.mem_cons_self, hp⟩
    case neg =>
      by_cases hq : q a
      case pos =>
        simp only [List.find?_cons, hp, hq]
        constructor
        case mp  => exact fun he => absurd (List.find?_some he.symm) hp
        case mpr => exact fun h => absurd (h [] a l rfl hq) (by simp [hp])
      case neg =>
        simp only [List.find?_cons, hp, hq, ih]
        constructor
        case mp =>
          intro h l₁ x l₂ he hx
          cases l₁
          case nil => cases he; contradiction
          case cons =>
            cases he
            cases h _ _ _ rfl hx
            case inl h => exact .inl h
            case inr h => have ⟨y, hy, hp⟩ := h; exact .inr ⟨y, List.mem_cons_of_mem _ hy, hp⟩
        case mpr =>
          intro h l₁ x l₂ he hx
          cases h (a :: l₁) x l₂ (he ▸ rfl) hx
          case inl h => exact .inl h
          case inr h => simp_all

-- What the first match says, or a default.
def verdict (l : List α) (p : α → Bool) (v : α → β) (d : β) : β :=
  ((l.find? p).map v).getD d

variable {v : α → β} {d : β} {x : α} {l₁ l₂ : List α}

theorem verdict_first (h : ∀ y ∈ l₁, p y = false) (hx : p x) :
    verdict (l₁ ++ x :: l₂) p v d = v x := by
  have hn : l₁.find? p = none := List.find?_eq_none.mpr fun y hy => by simp [h y hy]
  simp [verdict, List.find?_append, hn, hx]

theorem verdict_skip (h : ∀ y ∈ l₁, p y = false) (hx : p x = false) :
    verdict (l₁ ++ x :: l₂) p v d = verdict l₂ p v d := by
  have hn : l₁.find? p = none := List.find?_eq_none.mpr fun y hy => by simp [h y hy]
  simp [verdict, List.find?_append, hn, hx]

-- Both tests come to the same unless the first element that the wider one passes is one that only it
-- passes, and that element says something else than what is decided behind it.
theorem verdict_eq_iff (h : ∀ x ∈ l, p x → q x) :
    verdict l q v d = verdict l p v d ↔
      ∀ l₁ x l₂, l = l₁ ++ x :: l₂ → (∀ y ∈ l₁, q y = false) → q x → p x = false →
        v x = verdict l₂ p v d := by
  have narrow {l₁ : List α} (hs : ∀ y ∈ l₁, y ∈ l) (h₁ : ∀ y ∈ l₁, q y = false) :
      ∀ y ∈ l₁, p y = false :=
    fun y hy => Bool.eq_false_iff.mpr fun hp => by simpa [h₁ y hy] using h y (hs y hy) hp
  constructor
  case mp =>
    rintro he l₁ x l₂ rfl h₁ hq hp
    rwa [verdict_first h₁ hq, verdict_skip (narrow (by simp_all) h₁) hp] at he
  case mpr =>
    intro hc
    cases hf : l.find? q
    case none =>
      have hn : l.find? p = none := by
        rw [List.find?_eq_none] at hf ⊢
        exact fun x hx hp => hf x hx (h x hx hp)
      simp [verdict, hf, hn]
    case some x =>
      have ⟨hq, l₁, l₂, he, h₁⟩ := List.find?_eq_some_iff_append.mp hf
      replace h₁ : ∀ y ∈ l₁, q y = false := fun y hy => by simpa using h₁ y hy
      have hn := narrow (by simp_all) h₁
      rw [he, verdict_first h₁ hq]
      cases hp : p x
      case true  => rw [verdict_first hn hp]
      case false => rw [verdict_skip hn hp, hc l₁ x l₂ he h₁ hq hp]

end FirstMatch
