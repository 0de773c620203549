import Mathlib

-- Maps from keys to values of one type, as lists of pairs with no key twice.
abbrev HashMap (κ ν : Type) := AList fun _ : κ => ν

namespace HashMap

variable {κ ν : Type} [DecidableEq κ] {m : HashMap κ ν} {v : ν}

theorem lookup_insert (k k' : κ) (v : ν) (m : HashMap κ ν) :
    AList.lookup k' (m.insert k v) = if k' = k then some v else AList.lookup k' m := by
  split
  case isTrue h  => exact h ▸ AList.lookup_insert m
  case isFalse h => exact AList.lookup_insert_ne h

theorem lookup_singleton (k k' : κ) (v : ν) :
    AList.lookup k' (AList.singleton k v : HashMap κ ν) = if k' = k then some v else none :=
  lookup_insert k k' v ∅

theorem lookup_erase (k k' : κ) (m : HashMap κ ν) :
    AList.lookup k' (m.erase k) = if k' = k then none else AList.lookup k' m := by
  split
  case isTrue h  => exact h ▸ AList.lookup_erase _ m
  case isFalse h => exact AList.lookup_erase_ne h

-- The entries whose keys are wanted.
def retain (p : κ → Bool) (m : HashMap κ ν) : HashMap κ ν where
  entries   := m.entries.filter fun e => p e.1
  nodupKeys := m.nodupKeys.sublist List.filter_sublist

theorem lookup_retain (p : κ → Bool) (k : κ) (m : HashMap κ ν) :
    AList.lookup k (m.retain p) = if p k then AList.lookup k m else none := by
  have mem (v : ν) : v ∈ AList.lookup k (m.retain p) ↔ v ∈ AList.lookup k m ∧ p k := by
    rw [AList.mem_lookup_iff, AList.mem_lookup_iff, retain]
    exact List.mem_filter
  ext v
  have := mem v
  split <;> simp_all

theorem mem_keys_of_lookup (h : AList.lookup k m = some v) : k ∈ m.keys :=
  AList.lookup_isSome.mp (h ▸ rfl)

end HashMap
