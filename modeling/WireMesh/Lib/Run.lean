import Mathlib

-- Runs of a system whose steps are labelled with events. A run carries its history, the latest event
-- first, with the state that each event met.
inductive Run {σ ε : Type} (Step : σ → ε → σ → Prop) (init : σ) : List (σ × ε) → σ → Prop
  | start : Run Step init [] init
  | step : Run Step init h s → Step s e t → Run Step init ((s, e) :: h) t

namespace Run

variable {σ ε : Type} {Step : σ → ε → σ → Prop} {init s : σ} {h : List (σ × ε)}

-- What holds at the start and is kept by every step holds at the end of every run.
theorem invariant {I : List (σ × ε) → σ → Prop} (start : I [] init)
    (step : ∀ {h s e t}, Run Step init h s → I h s → Step s e t → I ((s, e) :: h) t)
    (r : Run Step init h s) : I h s := by
  induction r
  case start        => exact start
  case step r hs ih => exact step r ih hs

theorem mono {Step' : σ → ε → σ → Prop} (hs : ∀ {s e t}, Step s e t → Step' s e t)
    (r : Run Step init h s) : Run Step' init h s := by
  induction r
  case start       => exact .start
  case step hst ih => exact ih.step (hs hst)

-- Every event of a run was a step from the end of a run.
theorem mem (r : Run Step init h s) (hm : (t, e) ∈ h) :
    ∃ h₁ h₂ u, h = h₂ ++ (t, e) :: h₁ ∧ Run Step init h₁ t ∧ Step t e u := by
  induction r
  case start => cases hm
  case step h _ _ _ r hs ih =>
    cases List.mem_cons.mp hm
    case inl hm =>
      cases hm
      exact ⟨_, [], _, rfl, r, hs⟩
    case inr hm =>
      have ⟨h₁, h₂, u, he, r, hs⟩ := ih hm
      exact ⟨h₁, _ :: h₂, u, by rw [he]; rfl, r, hs⟩

-- What every step relates, a whole run relates.
theorem rel {R : σ → σ → Prop} (refl : ∀ s, R s s) (trans : ∀ {s t u}, R s t → R t u → R s u)
    (step : ∀ {s e t}, Step s e t → R s t) (r : Run Step init h s) : R init s := by
  induction r
  case start      => exact refl _
  case step hs ih => exact trans ih (step hs)

section Along

variable {P : List (σ × ε) → σ → ε → Prop}

-- Every step of a run is as `P` says of what has gone before, the state and the event.
def Along (P : List (σ × ε) → σ → ε → Prop) : List (σ × ε) → Prop
  | []          => True
  | (s, e) :: h => P h s e ∧ Along P h

instance Along.decide [inst : ∀ h s e, Decidable (P h s e)] :
    (h : List (σ × ε)) → Decidable (Along P h)
  | []          => .isTrue trivial
  | (s, e) :: h => @instDecidableAnd _ _ (inst h s e) (Along.decide h)

theorem along_iff_forall {P : σ → ε → Prop} :
    Along (fun _ => P) h ↔ ∀ s e, (s, e) ∈ h → P s e := by
  induction h
  case nil => exact iff_of_true trivial nofun
  case cons x h ih =>
    rw [Along, ih]
    simp only [List.mem_cons, or_imp, forall_and]
    exact and_congr_left fun _ => ⟨fun hp s e he => by cases he; exact hp, fun hp => hp x.1 x.2 rfl⟩

end Along

section Each

variable {P : List (σ × ε) → σ → ε → σ → Prop}

-- Every step of a run is as `P` says, with the state that it has led to.
def Each (P : List (σ × ε) → σ → ε → σ → Prop) : List (σ × ε) → σ → Prop
  | [], _          => True
  | (s, e) :: h, t => P h s e t ∧ Each P h s

instance Each.decide [inst : ∀ h s e t, Decidable (P h s e t)] :
    (h : List (σ × ε)) → (t : σ) → Decidable (Each P h t)
  | [], _          => .isTrue trivial
  | (s, e) :: h, t => @instDecidableAnd _ _ (inst h s e t) (Each.decide h s)

end Each

section Trace

variable {f : σ → ε → σ}

-- Where a step is a function, any events, the latest first, make a run.
def trace (f : σ → ε → σ) (init : σ) : List ε → List (σ × ε) × σ
  | []      => ([], init)
  | e :: es => let (h, s) := trace f init es; ((s, e) :: h, f s e)

theorem run_trace (init : σ) (es : List ε) :
    Run (fun s e t => t = f s e) init (trace f init es).1 (trace f init es).2 := by
  induction es
  case nil => exact .start
  case cons ih => exact ih.step rfl

end Trace

section Replay

variable {f : σ → ε → Option σ}

-- Where a step may be out of place, the events, the latest first, make a run if none of them is.
def replay (f : σ → ε → Option σ) (init : σ) : List ε → Option (List (σ × ε) × σ)
  | []      => some ([], init)
  | e :: es => do
    let (h, s) ← replay f init es
    return ((s, e) :: h, ← f s e)

theorem run_replay (hr : replay f init es = some (h, s)) :
    Run (fun s e t => f s e = some t) init h s := by
  induction es generalizing h s
  case nil =>
    cases hr
    exact .start
  case cons e es ih =>
    simp only [replay, Option.bind_eq_bind, Option.bind_eq_some_iff, Option.pure_def,
      Option.some.injEq, Prod.exists] at hr
    obtain ⟨h, s, hr, t, hf, he⟩ := hr
    cases he
    exact (ih hr).step hf

-- Events that are out of place make the run that has not begun.
def replayed (f : σ → ε → Option σ) (init : σ) (es : List ε) : List (σ × ε) × σ :=
  (replay f init es).getD ([], init)

theorem run_replayed (init : σ) (es : List ε) :
    Run (fun s e t => f s e = some t) init (replayed f init es).1 (replayed f init es).2 := by
  rw [replayed]
  cases hr : replay f init es
  case none => exact .start
  case some => exact run_replay hr

end Replay
end Run
