import Mathlib

-- Fail-fast computations: what a successful run says about its parts.
namespace Checked

variable {ε α β γ σ : Type} {f : α → Except ε β} {l : List α} {bs : List β}

theorem ok_bind (a : α) (f : α → Except ε β) : Except.ok a >>= f = f a :=
  rfl

theorem bind_ok {x : Except ε α} {b : β} : x >>= f = .ok b ↔ ∃ a, x = .ok a ∧ f a = .ok b := by
  cases x
  case error => simp [bind, Except.bind]
  case ok    => simp [bind, Except.bind]

theorem pure_ok {a b : α} : (pure a : Except ε α) = .ok b ↔ a = b := by
  simp [pure, Except.pure]

theorem map_ok {x : Except ε α} {g : α → β} {b : β} :
    g <$> x = .ok b ↔ ∃ a, x = .ok a ∧ g a = b := by
  cases x
  case error => simp [Functor.map, Except.map]
  case ok    => simp [Functor.map, Except.map]

theorem toOption_some {x : Except ε α} : x.toOption = some a ↔ x = .ok a := by
  cases x <;> simp [Except.toOption]

theorem mapM_ok : l.mapM f = .ok bs ↔ List.Forall₂ (fun a b => f a = .ok b) l bs := by
  induction l generalizing bs
  case nil => rw [List.mapM_nil, pure_ok, List.forall₂_nil_left_iff, eq_comm]
  case cons a l ih =>
    simp only [List.mapM_cons, bind_ok, pure_ok, ih, List.forall₂_cons_left_iff]
    grind

theorem mapM_mem (h : l.mapM f = .ok bs) (hb : b ∈ bs) : ∃ a ∈ l, f a = .ok b := by
  replace h := mapM_ok.mp h
  induction h
  case nil => simp at hb
  case cons h _ ih =>
    cases List.mem_cons.mp hb
    case inl hb => exact ⟨_, List.mem_cons_self, hb ▸ h⟩
    case inr hb =>
      have ⟨a, ha, hf⟩ := ih hb
      exact ⟨a, List.mem_cons_of_mem _ ha, hf⟩

theorem mapM_mem_left (h : l.mapM f = .ok bs) (ha : a ∈ l) : ∃ b ∈ bs, f a = .ok b := by
  replace h := mapM_ok.mp h
  induction h
  case nil => cases ha
  case cons b _ _ hb _ ih =>
    cases List.mem_cons.mp ha
    case inl he => exact ⟨b, by simp, he ▸ hb⟩
    case inr ha =>
      have ⟨b, hb, he⟩ := ih ha
      exact ⟨b, List.mem_cons_of_mem _ hb, he⟩

theorem mapM_congr {f g : α → Except ε β} {l : List α} (h : ∀ a ∈ l, f a = g a) :
    l.mapM f = l.mapM g := by
  induction l
  case nil => rfl
  case cons a l ih =>
    have ⟨ha, hl⟩ := List.forall_mem_cons.mp h
    rw [List.mapM_cons, List.mapM_cons, ha, ih hl]

theorem mapM_exists {R : α → β → Prop} (h : ∀ a ∈ l, ∃ b, f a = .ok b ∧ R a b) :
    ∃ bs, l.mapM f = .ok bs ∧ List.Forall₂ R l bs := by
  induction l
  case nil => exact ⟨[], rfl, .nil⟩
  case cons a l ih =>
    have ⟨⟨b, hb, hr⟩, ht⟩ := List.forall_mem_cons.mp h
    have ⟨bs, hm, hf⟩ := ih ht
    refine ⟨b :: bs, ?_, .cons hr hf⟩
    rw [List.mapM_cons, hb, hm]
    rfl

-- What every single result keeps of its argument, the list of results keeps of the list.
theorem mapM_map {g : β → γ} {k : α → γ} (hg : ∀ a b, f a = .ok b → g b = k a)
    (h : l.mapM f = .ok bs) : bs.map g = l.map k := by
  replace h := mapM_ok.mp h
  induction h
  case nil => rfl
  case cons hb _ ih => rw [List.map_cons, List.map_cons, hg _ _ hb, ih]

-- A fold that is a traversal followed by pure updates, each allowed only into a state that `ok`
-- accepts, succeeds exactly if the traversal does and the last state is accepted, provided that
-- updates never lead back to accepted states.
theorem foldlM_ok {step : σ → α → Except ε σ} {upd : σ → β → σ} {good : β → Prop} {ok : σ → Prop}
    (spec : ∀ s a s', ok s →
      (step s a = .ok s' ↔ ∃ b, f a = .ok b ∧ good b ∧ s' = upd s b ∧ ok s'))
    (mono : ∀ s b, ok (upd s b) → ok s) {s t : σ} (hs : ok s) :
    l.foldlM step s = .ok t ↔
      ∃ bs, l.mapM f = .ok bs ∧ (∀ b ∈ bs, good b) ∧ t = bs.foldl upd s ∧ ok t := by
  have down (bs : List β) : ∀ s, ok (bs.foldl upd s) → ok s := by
    induction bs
    case nil => exact fun _ => id
    case cons b bs ih => exact fun s h => mono s b <| ih _ h
  induction l generalizing s
  case nil =>
    simp only [List.foldlM_nil, List.mapM_nil, pure_ok]
    constructor
    case mp  => rintro rfl; exact ⟨[], rfl, by simp, rfl, hs⟩
    case mpr => rintro ⟨_, rfl, -, rfl, -⟩; rfl
  case cons a l ih =>
    rw [List.foldlM_cons, bind_ok]
    constructor
    case mp =>
      intro ⟨u, hu, hl⟩
      have ⟨b, hf, hg, he, hok⟩ := (spec s a u hs).mp hu
      have ⟨bs, hm, hgs, ht, hok'⟩ := (ih hok).mp hl
      subst he
      refine ⟨b :: bs, ?_, ?_, ht, hok'⟩
      case refine_1 => rw [List.mapM_cons, hf, hm]; rfl
      case refine_2 => exact List.forall_mem_cons.mpr ⟨hg, hgs⟩
    case mpr =>
      intro ⟨_, hm, hg, ht, hok⟩
      have ⟨b, bs, hf, hl, he⟩ := List.forall₂_cons_left_iff.mp <| mapM_ok.mp hm
      subst he ht
      have ⟨hg, hgs⟩ := List.forall_mem_cons.mp hg
      have hb := down bs (upd s b) hok
      exact ⟨upd s b, (spec s a _ hs).mpr ⟨b, hf, hg, rfl, hb⟩,
        (ih hb).mpr ⟨bs, mapM_ok.mpr hl, hgs, rfl, hok⟩⟩

end Checked
