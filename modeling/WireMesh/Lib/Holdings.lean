import Mathlib

-- Who holds what. Every holder that is known has a set of things, and nothing that is held may clash
-- with anything else that is. What holders have is replaced one after another, or all at once.
abbrev Holdings (κ α : Type) := κ → Option (Set α)

namespace Holdings

variable {κ α : Type} [DecidableEq κ] {clash : α → α → Prop} {t : Holdings κ α}

-- The holder has these things in place of those that it had.
def put (t : Holdings κ α) (p : κ × List α) : Holdings κ α :=
  Function.update t p.1 (some {a | a ∈ p.2})

def putAll (t : Holdings κ α) (ps : List (κ × List α)) : Holdings κ α :=
  ps.foldl put t

@[simp]
theorem put_self (t : Holdings κ α) (p : κ × List α) : put t p p.1 = some {a | a ∈ p.2} :=
  Function.update_self ..

theorem put_of_ne (h : k ≠ p.1) : put t p k = t k :=
  Function.update_of_ne h ..

theorem put_eq_self (h : t p.1 = some {a | a ∈ p.2}) : put t p = t := by
  rw [put, ← h]
  exact Function.update_eq_self ..

theorem putAll_of_not_mem (h : k ∉ ps.map Prod.fst) : putAll t ps k = t k := by
  induction ps generalizing t
  case nil => rfl
  case cons p ps ih =>
    have ⟨hp, hps⟩ := not_or.mp (mt List.mem_cons.mpr h)
    exact (ih hps).trans (put_of_ne hp)

-- Nobody is given different things in two places.
def Agree (ps : List (κ × List α)) : Prop :=
  ∀ k as bs, (k, as) ∈ ps → (k, bs) ∈ ps → as ⊆ bs

omit [DecidableEq κ] in
theorem agree_of_nodup {ps : List (κ × List α)} (h : (ps.map Prod.fst).Nodup) : Agree ps := by
  intro k as bs ha hb
  have he := List.inj_on_of_nodup_map h ha hb rfl
  cases he
  exact fun _ => id

omit [DecidableEq κ] in
theorem Agree.eq {ps : List (κ × List α)} (h : Agree ps) (hp : p ∈ ps) (hq : q ∈ ps)
    (hk : p.1 = q.1) : {a | a ∈ p.2} = {a | a ∈ q.2} := by
  obtain ⟨k, as⟩ := p
  obtain ⟨k', bs⟩ := q
  cases hk
  exact Set.Subset.antisymm (h k as bs hp hq) (h k bs as hq hp)

-- In the end everybody has what they were given exactly if no place took it back.
theorem putAll_mem_iff {ps : List (κ × List α)} :
    (∀ p ∈ ps, putAll t ps p.1 = some {a | a ∈ p.2}) ↔ Agree ps := by
  constructor
  case mp =>
    intro h k as bs ha hb
    have he : some {a | a ∈ as} = some {a | a ∈ bs} := (h (k, as) ha).symm.trans (h (k, bs) hb)
    exact fun a hm => (Set.ext_iff.mp (Option.some.inj he) a).mp hm
  case mpr =>
    intro h
    induction ps generalizing t
    case nil => simp
    case cons q ps ih =>
      have tail : Agree ps := fun k as bs ha hb => h k as bs (.tail _ ha) (.tail _ hb)
      intro p hp
      cases List.mem_cons.mp hp
      case inr hp => exact ih tail p hp
      case inl he =>
        subst he
        by_cases hk : p.1 ∈ ps.map Prod.fst
        case neg => exact (putAll_of_not_mem hk).trans (put_self ..)
        case pos =>
          have ⟨q, hq, hk⟩ := List.mem_map.mp hk
          rw [h.eq hp (.tail _ hq) hk.symm, ← hk]
          exact ih tail q hq

theorem putAll_of_mem (hk : (ps.map Prod.fst).Nodup) (hp : p ∈ ps) :
    putAll t ps p.1 = some {a | a ∈ p.2} :=
  putAll_mem_iff.mpr (agree_of_nodup hk) p hp

theorem putAll_perm (hk : (ps.map Prod.fst).Nodup) (hp : qs.Perm ps) :
    putAll t qs = putAll t ps := by
  funext k
  have keys := hp.map Prod.fst
  by_cases hm : k ∈ ps.map Prod.fst
  case neg => rw [putAll_of_not_mem hm, putAll_of_not_mem (mt keys.mem_iff.mp hm)]
  case pos =>
    have ⟨p, hps, he⟩ := List.mem_map.mp hm
    subst he
    rw [putAll_of_mem hk hps, putAll_of_mem (keys.nodup_iff.mpr hk) (hp.mem_iff.mpr hps)]

-- Nothing that is held clashes with anything else.
def Clear (clash : α → α → Prop) (t : Holdings κ α) : Prop :=
  ∀ k k' A B, t k = some A → t k' = some B → ∀ a ∈ A, ∀ b ∈ B, (k, a) ≠ (k', b) → ¬ clash a b

-- A new holder gets something, and what a holder gets clashes neither in itself nor with what others
-- have.
structure Fits (clash : α → α → Prop) (t : Holdings κ α) (p : κ × List α) : Prop where
  nonempty : t p.1 = none → p.2 ≠ []
  apart : p.2.Pairwise fun a b => ¬ clash a b
  others : ∀ k B, k ≠ p.1 → t k = some B → ∀ a ∈ p.2, ∀ b ∈ B, ¬ clash a b

-- What a holder has already is never in question.
def Takes (clash : α → α → Prop) (t : Holdings κ α) (p : κ × List α) : Prop :=
  t p.1 = some {a | a ∈ p.2} ∨ Fits clash t p

-- One after another, each against what is held when its turn has come.
def TakesAll (clash : α → α → Prop) : Holdings κ α → List (κ × List α) → Prop
  | _, []      => True
  | t, p :: ps => Takes clash t p ∧ TakesAll clash (put t p) ps

section Orders

variable (symm : ∀ a b, clash a b → clash b a)
include symm

theorem Takes.clear (h : Takes clash t p) (ht : Clear clash t) : Clear clash (put t p) := by
  cases h
  case inl h => rwa [put_eq_self h]
  case inr h =>
    have : Std.Symm fun a b => ¬ clash a b := ⟨fun a b hn hc => hn (symm b a hc)⟩
    intro k k' A B hA hB a ha b hb hne
    by_cases hk : k = p.1 <;> by_cases hk' : k' = p.1
    case pos =>
      subst hk hk'
      cases (put_self t p).symm.trans hA
      cases (put_self t p).symm.trans hB
      exact h.apart.forall ha hb fun he => hne (he ▸ rfl)
    case neg =>
      subst hk
      cases (put_self t p).symm.trans hA
      exact h.others k' B hk' ((put_of_ne hk').symm.trans hB) a ha b hb
    case pos =>
      subst hk'
      cases (put_self t p).symm.trans hB
      exact fun hc => h.others k A hk ((put_of_ne hk).symm.trans hA) b hb a ha (symm _ _ hc)
    case neg =>
      rw [put_of_ne hk] at hA
      rw [put_of_ne hk'] at hB
      exact ht k k' A B hA hB a ha b hb hne

theorem TakesAll.clear (h : TakesAll clash t ps) (ht : Clear clash t) :
    Clear clash (putAll t ps) := by
  induction ps generalizing t
  case nil => exact ht
  case cons ih => exact ih h.2 (h.1.clear symm ht)

omit symm

-- If all of it is clear at once, then it is enough that each fits what was held at the start.
theorem takesAll_of_fits (hk : (ps.map Prod.fst).Nodup) (hc : Clear clash (putAll t ps))
    (h : ∀ p ∈ ps, Takes clash t p) : TakesAll clash t ps := by
  induction ps generalizing t
  case nil => trivial
  case cons p ps ih =>
    have ⟨hp, hps⟩ := List.nodup_cons.mp hk
    refine ⟨h p List.mem_cons_self, ih hps hc fun q hq => ?_⟩
    have hne : q.1 ≠ p.1 := fun he => hp (he ▸ List.mem_map_of_mem hq)
    cases h q (.tail _ hq)
    case inl hs => exact .inl ((put_of_ne hne).trans hs)
    case inr hf =>
      refine .inr ⟨put_of_ne hne ▸ hf.nonempty, hf.apart, fun k B hk' hB a ha b hb => ?_⟩
      by_cases hkp : k = p.1
      case neg => exact hf.others k B hk' ((put_of_ne hkp).symm.trans hB) a ha b hb
      case pos =>
        have hP : putAll t (p :: ps) k = some B := hkp ▸ (putAll_of_not_mem hp).trans (hkp ▸ hB)
        have hQ : putAll t (p :: ps) q.1 = some {a | a ∈ q.2} := putAll_of_mem hk (.tail _ hq)
        exact hc q.1 k _ B hQ hP a ha b hb fun he => hk' (congrArg Prod.fst he).symm

include symm

-- Every order comes down to replacing all at once exactly if, whenever that is clear, nothing that is
-- new clashes with what was held before.
theorem every_order_iff (ht : Clear clash t) (hk : (ps.map Prod.fst).Nodup) :
    (∀ qs, qs.Perm ps → (TakesAll clash t qs ↔ Clear clash (putAll t ps))) ↔
    (Clear clash (putAll t ps) →
      ∀ p ∈ ps, t p.1 ≠ some {a | a ∈ p.2} → Fits clash t p) := by
  constructor
  case mp =>
    intro h hc p hp hne
    -- Any of them may come first.
    have ⟨l, r, he⟩ := List.append_of_mem hp
    have first : (p :: (l ++ r)).Perm ps := he ▸ List.perm_middle.symm
    exact ((h _ first).mpr hc).1.resolve_left hne
  case mpr =>
    intro h qs hq
    have hkq : (qs.map Prod.fst).Nodup := (hq.map Prod.fst).nodup_iff.mpr hk
    have he : putAll t qs = putAll t ps := putAll_perm hk hq
    constructor
    case mp  => exact fun hta => he ▸ hta.clear symm ht
    case mpr =>
      refine fun hc => takesAll_of_fits hkq (he ▸ hc) fun p hp => ?_
      by_cases hs : t p.1 = some {a | a ∈ p.2}
      case pos => exact .inl hs
      case neg => exact .inr (h hc p (hq.mem_iff.mp hp) hs)

end Orders

end Holdings
