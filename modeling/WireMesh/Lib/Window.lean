import Mathlib

-- A limiter that counts what it lets through in windows of time. A window is opened by the first
-- event after the last one has run out, and has room for `cap` events.
structure Window where
  start : Nat
  count : Nat

namespace Window

-- What a limiter has let through, each event with its time and the start of the window that it was
-- counted in.
inductive Log (width cap : Nat) : Option Window → List (Nat × Nat) → Prop
  | nil : Log width cap o []
  | opened : (∀ w ∈ o, now - w.start > width) → Log width cap (some ⟨now, 1⟩) log →
      Log width cap o ((now, now) :: log)
  | counted : w.count < cap → now - w.start ≤ width →
      Log width cap (some ⟨w.start, w.count + 1⟩) log → Log width cap (some w) ((now, w.start) :: log)

variable {width cap t : Nat} {w : Window} {log : List (Nat × Nat)}

-- The room that there still is for events in the window that starts at `t`.
def room (cap t : Nat) (w : Window) : Nat :=
  if t = w.start then cap - w.count else if t < w.start then 0 else cap

theorem room_le : room cap t w ≤ cap := by
  unfold room
  split_ifs <;> omega

theorem room_opened (hc : 0 < cap) (hw : w.start < now) :
    (if now = t then 1 else 0) + room cap t ⟨now, 1⟩ ≤ room cap t w := by
  simp only [room]
  split_ifs <;> omega

theorem room_counted (h : w.count < cap) :
    (if w.start = t then 1 else 0) + room cap t ⟨w.start, w.count + 1⟩ ≤ room cap t w := by
  simp only [room]
  split_ifs <;> omega

theorem Log.count_le_room (hc : 0 < cap) (h : Log width cap (some w) log) :
    log.countP (·.2 = t) ≤ room cap t w := by
  generalize ho : some w = o at h
  induction h generalizing w
  case nil => exact Nat.zero_le _
  case opened now log ho' _ ih =>
    have hw := ho' w ho.symm
    have hr : _ + room cap t ⟨now, 1⟩ ≤ room cap t w := room_opened hc (by omega)
    have ih := ih rfl
    simp only [List.countP_cons, decide_eq_true_eq]
    omega
  case counted hlt _ _ ih =>
    cases ho
    have hr := room_counted (t := t) hlt
    have ih := ih rfl
    simp only [List.countP_cons, decide_eq_true_eq]
    omega

-- No window takes more than its cap.
theorem Log.count_le (hc : 0 < cap) (h : Log width cap o log) (t : Nat) :
    log.countP (·.2 = t) ≤ cap := by
  cases h
  case nil => exact Nat.zero_le _
  case counted h₁ h₂ h => exact Nat.le_trans (Log.counted h₁ h₂ h |>.count_le_room hc) room_le
  case opened now log h _ =>
    have hr := h.count_le_room (t := t) hc
    simp only [room] at hr
    simp only [List.countP_cons, decide_eq_true_eq]
    split_ifs at hr ⊢ <;> omega

variable {x : Nat}

-- Until a window has run out, everything is counted in it.
theorem Log.count_le_of_running (h : Log width cap (some w) log)
    (sorted : (log.map (·.1)).Pairwise (· ≤ ·)) :
    log.countP (·.1 ≤ w.start + width) ≤ cap - w.count := by
  generalize ho : some w = o at h
  induction h generalizing w
  case nil => exact Nat.zero_le _
  case opened now log ho' _ _ =>
    have hw := ho' w ho.symm
    have hs := (List.pairwise_cons.mp sorted).1
    have hz : ((now, now) :: log).countP (·.1 ≤ w.start + width) = 0 := by
      refine List.countP_eq_zero.mpr fun e he => ?_
      obtain rfl | he := List.mem_cons.mp he
      all_goals simp only [decide_eq_true_eq]
      case inl => omega
      case inr =>
        have hn : now ≤ e.1 := hs e.1 (List.mem_map_of_mem he)
        omega
    omega
  case counted hlt _ _ ih =>
    cases ho
    have ih := ih (List.pairwise_cons.mp sorted).2 rfl
    dsimp only at ih
    rw [List.countP_cons]
    split <;> omega

-- Of the events from `x` on, those within the width of a window are counted in the window that is
-- open or in the next one.
theorem Log.count_le_from (hc : 0 < cap) (h : Log width cap o log)
    (sorted : (log.map (·.1)).Pairwise (· ≤ ·)) (from_x : ∀ e ∈ log, x ≤ e.1) :
    log.countP (·.1 ≤ x + width) ≤ o.elim 0 (cap - ·.count) + cap := by
  induction h
  case nil => exact Nat.zero_le _
  case opened now log _ h _ =>
    have hx := from_x _ (.head _)
    have hr := h.count_le_of_running (List.pairwise_cons.mp sorted).2
    have hm : log.countP (·.1 ≤ x + width) ≤ log.countP (·.1 ≤ now + width) :=
      List.countP_mono_left fun e _ he => by
        simp only [decide_eq_true_eq] at he ⊢
        omega
    dsimp only at hr
    rw [List.countP_cons]
    split <;> omega
  case counted hlt _ _ ih =>
    have ih := ih (List.pairwise_cons.mp sorted).2 fun e he => from_x e (.tail _ he)
    simp only [Option.elim_some] at ih ⊢
    rw [List.countP_cons]
    split <;> omega

-- At most two windows have a part in an interval that is no longer than a window.
theorem Log.count_le_two_mul (hc : 0 < cap) (h : Log width cap o log)
    (sorted : (log.map (·.1)).Pairwise (· ≤ ·)) (x : Nat) :
    log.countP (fun e => x ≤ e.1 ∧ e.1 ≤ x + width) ≤ 2 * cap := by
  induction log generalizing o
  case nil => exact Nat.zero_le _
  case cons e log ih =>
    have ⟨hs, sorted'⟩ := List.pairwise_cons.mp sorted
    by_cases hx : x ≤ e.1
    case pos =>
      have from_x : ∀ e' ∈ e :: log, x ≤ e'.1 := by
        refine List.forall_mem_cons.mpr ⟨hx, fun e' he => ?_⟩
        exact Nat.le_trans hx (hs e'.1 (List.mem_map_of_mem he))
      have hle := h.count_le_from hc sorted from_x
      have he : (e :: log).countP (fun e => x ≤ e.1 ∧ e.1 ≤ x + width) =
          (e :: log).countP (·.1 ≤ x + width) :=
        List.countP_congr fun e' he => by simp [from_x e' he]
      have ho : o.elim 0 (cap - ·.count) ≤ cap := by cases o <;> simp
      omega
    case neg =>
      have ⟨o', h'⟩ : ∃ o', Log width cap o' log := by
        cases h
        case opened h    => exact ⟨_, h⟩
        case counted h   => exact ⟨_, h⟩
      have ih := ih h' sorted'
      simpa [List.countP_cons, hx] using ih

end Window
