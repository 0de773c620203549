import Mathlib

-- Lists whose entries are known by a key. The first entry of a key is the one that counts.
namespace Keyed

variable {α κ : Type} [DecidableEq κ] {key : α → κ}

def lookup (key : α → κ) (k : κ) (as : List α) : Option α :=
  as.find? (key · = k)

-- Takes the place of the first entry of its key, or goes to the end.
def upsert (key : α → κ) (a : α) (as : List α) : List α :=
  match as.findIdx? (key · = key a) with
  | some i => as.set i a
  | none   => as ++ [a]

@[simp]
theorem lookup_nil (k : κ) : lookup key k ([] : List α) = none :=
  rfl

theorem lookup_cons (k : κ) (a : α) (as : List α) :
    lookup key k (a :: as) = if key a = k then some a else lookup key k as := by
  by_cases h : key a = k <;> simp [lookup, h]

theorem upsert_cons (a b : α) (as : List α) :
    upsert key a (b :: as) = if key b = key a then a :: as else b :: upsert key a as := by
  by_cases h : key b = key a
  case pos => simp [upsert, List.findIdx?_cons, h]
  case neg =>
    simp only [upsert, List.findIdx?_cons, h, decide_false, Bool.false_eq_true, if_false]
    cases as.findIdx? (key · = key a) <;> rfl

theorem mem_upsert (h : b ∈ upsert key a as) : b = a ∨ b ∈ as := by
  rw [upsert] at h
  split at h
  case h_1 => exact (List.mem_or_eq_of_mem_set h).symm
  case h_2 => simpa [or_comm] using h

-- Entries may be told in other words as long as the words for their keys differ when the keys do.
theorem map_upsert {β μ : Type} [DecidableEq μ] {key' : β → μ} {f : α → β}
    (h : ∀ b ∈ as, key' (f b) = key' (f a) ↔ key b = key a) :
    (upsert key a as).map f = upsert key' (f a) (as.map f) := by
  induction as
  case nil => rfl
  case cons b as ih =>
    have ⟨hb, has⟩ := List.forall_mem_cons.mp h
    rw [List.map_cons, upsert_cons, upsert_cons, if_congr hb rfl rfl]
    split
    case isTrue  => rfl
    case isFalse => rw [List.map_cons, ih has]

section Distinct

variable {as : List α} (hd : (as.map key).Nodup)
include hd

-- Where no two entries have the same key, the first of a key is the only one.
theorem filter_eq_lookup (k : κ) : as.filter (key · = k) = (lookup key k as).toList := by
  induction as
  case nil => rfl
  case cons a as ih =>
    have ⟨ha, hd⟩ := List.nodup_cons.mp hd
    rw [lookup_cons]
    by_cases hk : key a = k
    case pos =>
      have none : as.filter (key · = k) = [] :=
        List.filter_eq_nil_iff.mpr fun b hb hbk =>
          ha (hk ▸ of_decide_eq_true hbk ▸ List.mem_map_of_mem hb)
      rw [if_pos hk, List.filter_cons_of_pos (by simpa using hk), none]
      rfl
    case neg => rw [if_neg hk, List.filter_cons_of_neg (by simpa using hk), ih hd]

theorem lookup_of_mem (ha : a ∈ as) : lookup key (key a) as = some a := by
  have hm : a ∈ as.filter (key · = key a) := List.mem_filter.mpr ⟨ha, by simp⟩
  rw [filter_eq_lookup hd] at hm
  simpa using hm

end Distinct
end Keyed
