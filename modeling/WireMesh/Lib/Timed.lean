import Mathlib

-- Machines that are driven by events, some of which have a time.
namespace Timed

variable {ε σ : Type} {time : ε → Option Nat} {es : List ε} {e : ε}

-- The times do not decrease.
def Ordered (time : ε → Option Nat) (es : List ε) : Prop :=
  (es.filterMap time).Pairwise (· ≤ ·)

instance : Decidable (Ordered time es) :=
  inferInstanceAs <| Decidable (List.Pairwise _ _)

-- No event is later.
def Before (time : ε → Option Nat) (es : List ε) (now : Nat) : Prop :=
  ∀ t ∈ es.filterMap time, t ≤ now

theorem Ordered.of_append (h : Ordered time (es ++ fs)) : Ordered time fs := by
  rw [Ordered, List.filterMap_append] at h
  exact (List.pairwise_append.mp h).2.1

theorem Ordered.init (h : Ordered time (es ++ fs)) : Ordered time es := by
  rw [Ordered, List.filterMap_append] at h
  exact (List.pairwise_append.mp h).1

theorem Ordered.before (h : Ordered time (es ++ [e])) (he : time e = some now) :
    Before time es now := by
  rw [Ordered, List.filterMap_append] at h
  intro t ht
  exact (List.pairwise_append.mp h).2.2 t ht now (by simp [he])

theorem Before.init (h : Before time (es ++ fs) now) : Before time es now := by
  intro t ht
  exact h t (by rw [List.filterMap_append]; exact List.mem_append_left _ ht)

theorem Before.last (h : Before time (es ++ [e]) now) (he : time e = some t) : t ≤ now :=
  h t (by simp [he])

-- What the passing of time does not break, and every event keeps at its own time, holds in the end. An
-- event may use that it comes after those before it.
theorem invariant {after : σ → ε → σ} {I : σ → Nat → Prop} {s : σ} (start : ε)
    (mono : ∀ {s t now}, t ≤ now → I s t → I s now)
    (init : ∀ now, Before time [start] now → I s now)
    (step : ∀ l e r, es = l ++ e :: r → ∀ now, (∀ t ∈ time e, t = now) →
      I (l.foldl after s) now → I (after (l.foldl after s) e) now)
    (ho : Ordered time (start :: es)) (hb : Before time (start :: es) now) :
    I (es.foldl after s) now := by
  induction es using List.reverseRecOn generalizing now
  case nil => exact init now hb
  case append_singleton es e ih =>
    have ho' : Ordered time ((start :: es) ++ [e]) := ho
    have hb' : Before time ((start :: es) ++ [e]) now := hb
    have ih {now} (hb : Before time (start :: es) now) : I (es.foldl after s) now :=
      ih (fun l f r h => step l f (r ++ [e]) (by simp [h])) ho'.init hb
    rw [List.foldl_append, List.foldl_cons, List.foldl_nil]
    cases ht : time e
    case none   => exact step es e [] rfl now (by simp [ht]) (ih hb'.init)
    case some t => exact mono (hb'.last ht) <| step es e [] rfl t (by simp [ht]) (ih <| ho'.before ht)

end Timed
