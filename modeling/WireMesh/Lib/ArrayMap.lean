import Mathlib

-- Arrays of a fixed number of slots that always exist: a read past the end yields nothing, a write
-- past the end does nothing.
def ArrayMap (n : Nat) (V : Type) :=
  Fin n → V

namespace ArrayMap

variable {n : Nat} {V : Type} {m : ArrayMap n V} {i j : Nat} {v : V}

def zeroed (n : Nat) (v : V) : ArrayMap n V :=
  fun _ => v

def get (m : ArrayMap n V) (i : Nat) : Option V :=
  if h : i < n then some (m ⟨i, h⟩) else none

def set (m : ArrayMap n V) (i : Nat) (v : V) : ArrayMap n V :=
  fun j => if j.val = i then v else m j

theorem get_eq_none (h : n ≤ i) : m.get i = none := by
  simp [get, Nat.not_lt.mpr h]

theorem get_isSome (m : ArrayMap n V) (h : i < n) : ∃ v, m.get i = some v :=
  ⟨_, dif_pos h⟩

theorem get_zeroed (h : i < n) : (zeroed n v).get i = some v := by
  simp [get, zeroed, h]

theorem get_set_self (m : ArrayMap n V) (v : V) (h : i < n) : (m.set i v).get i = some v := by
  simp [get, set, h]

theorem get_set_ne (m : ArrayMap n V) (v : V) (h : j ≠ i) : (m.set i v).get j = m.get j := by
  simp [get, set, h]

theorem get_set (m : ArrayMap n V) (v : V) (h : j < n) :
    (m.set i v).get j = if j = i then some v else m.get j := by
  split
  case isTrue he  => exact he ▸ get_set_self m v h
  case isFalse hn => exact get_set_ne m v hn

end ArrayMap
