import Mathlib

-- Lists that are cut into pieces of one length, the last of which may be shorter.
namespace Chunks

open List

variable {α : Type} {n : Nat} {xs : List α}

theorem go_acc (xs : List α) (piece : Array α) (done : Array (List α)) :
    toChunks.go n xs piece done = done.toList ++ toChunks.go n xs piece #[] := by
  induction xs generalizing piece done
  case nil => simp [toChunks.go]
  case cons x xs ih =>
    rw [toChunks.go, toChunks.go]
    split
    case isTrue =>
      rw [ih, ih _ (#[].push piece.toList)]
      simp
    case isFalse => exact ih _ _

-- What still fits into a piece is put into it.
theorem go_append (xs ys : List α) (piece : Array α) (h : piece.size + xs.length ≤ n) :
    toChunks.go n (xs ++ ys) piece #[] = toChunks.go n ys (piece ++ xs) #[] := by
  induction xs generalizing piece
  case nil => simp
  case cons x xs ih =>
    have hne : ¬ (piece.size == n) := by
      simp only [length_cons] at h
      simp
      omega
    rw [cons_append, toChunks.go, if_neg hne, ih (piece.push x) (by simp at h ⊢; omega)]
    simp

theorem toChunks_cons (x : α) (xs : List α) (hn : 0 < n) :
    (x :: xs).toChunks n = toChunks.go n xs #[x] #[] := by
  cases n
  case zero => cases hn
  case succ => rfl

theorem toChunks_of_length_le (hx : xs ≠ []) (hl : xs.length ≤ n) : xs.toChunks n = [xs] := by
  cases xs
  case nil => exact absurd rfl hx
  case cons x xs =>
    have hg := go_append xs [] #[x] (by simpa [Nat.add_comm] using hl)
    rw [append_nil] at hg
    rw [toChunks_cons x xs (Nat.zero_lt_of_lt hl), hg]
    simp [toChunks.go]

theorem toChunks_append (hl : xs.length = n) (hn : 0 < n) (ys : List α) :
    (xs ++ ys).toChunks n = xs :: ys.toChunks n := by
  have hx : xs ≠ [] := fun he => by simp [he] at hl; omega
  cases ys
  case nil => rw [append_nil, toChunks_of_length_le hx (Nat.le_of_eq hl), toChunks]
  case cons y ys =>
    cases xs
    case nil => exact absurd rfl hx
    case cons x xs =>
      have hg := go_append xs (y :: ys) #[x] (by simpa [Nat.add_comm] using (Nat.le_of_eq hl))
      have hf : (#[x] ++ xs).size == n := by simpa [Nat.add_comm] using hl
      rw [cons_append, toChunks_cons _ _ hn, toChunks_cons _ _ hn, hg, toChunks.go, if_pos hf,
        go_acc]
      simp

end Chunks
