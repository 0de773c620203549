import Mathlib
import WireMesh.Lib.Prog
import WireMesh.Lib.Run

-- Programs that run side by side over one shared state. Tasks are numbered in the order in which they
-- are started, and keep their numbers when they are done.
structure Pool {Op : Type} (Resp : Op → Type) (σ : Type) where
  shared : σ
  tasks : List (Prog Resp Unit)

namespace Pool

variable {Op : Type} {Resp : Op → Type} {Req Env σ ρ : Type}

inductive Event {Op : Type} (Req : Type) (Resp : Op → Type) (Env : Type)
  | spawn (r : Req)
  | op (i : Nat) (o : Op) (x : Resp o)
  | env (v : Env)
  | halt

-- What the steps of a pool depend on: the program of each request, how an operation may be answered,
-- what can happen to the state from outside, and what is left of it once all tasks have been stopped.
structure Rules {Op : Type} (Req : Type) (Resp : Op → Type) (Env σ : Type) where
  prog : Req → Prog Resp Unit
  answers : σ → (o : Op) → Resp o → σ → Prop
  env : σ → Env → σ → Prop
  halt : σ → σ

inductive Step (R : Rules Req Resp Env σ) : Pool Resp σ → Event Req Resp Env → Pool Resp σ → Prop
  | spawn : Step R p (.spawn r) ⟨p.shared, p.tasks ++ [R.prog r]⟩
  | op : p.tasks[i]? = some (.op o next) → R.answers p.shared o x s →
      Step R p (.op i o x) ⟨s, p.tasks.set i (next x)⟩
  | env : R.env p.shared v s → Step R p (.env v) ⟨s, p.tasks⟩
  | halt : Step R p .halt ⟨R.halt p.shared, p.tasks.map fun _ => .ret ()⟩

abbrev History {Op : Type} (Req : Type) (Resp : Op → Type) (Env σ : Type) :=
  List (Pool Resp σ × Event Req Resp Env)

-- What a task knows by the answers to its own operations.
def view (track : (o : Op) → ρ → Resp o → ρ) (r : ρ) (i : Nat) : History Req Resp Env σ → ρ
  | []                  => r
  | (_, .op j o x) :: h => if j = i then track o (view track r i h) x else view track r i h
  | _ :: h              => view track r i h

-- A task that has not come to its end.
def live (p : Pool Resp σ) (i : Nat) : Bool :=
  match p.tasks[i]? with
  | some (.op _ _) => true
  | _              => false

section View

variable {R : Rules Req Resp Env σ} {init p s : Pool Resp σ} {h h₁ : History Req Resp Env σ}
  {track : (o : Op) → ρ → Resp o → ρ} {r : ρ} {pre : Op → ρ → Prop}

theorem view_op_self : view track r i ((s, .op i o x) :: h) = track o (view track r i h) x :=
  if_pos rfl

theorem view_op_ne (hj : j ≠ i) : view track r i ((s, .op j o x) :: h) = view track r i h :=
  if_neg hj

-- A task that has not been started has done nothing.
theorem view_of_le_length (run : Run (Step R) ⟨c, []⟩ h p) (hi : p.tasks.length ≤ i) :
    view track r i h = r := by
  induction run
  case start => rfl
  case step _ e _ _ hs ih =>
    cases hs
    case spawn => exact ih <| Nat.le_of_succ_le (by simpa using hi)
    case op j o _ x _ ht _ =>
      have hj : j ≠ i := fun he => by
        have := (List.getElem?_eq_some_iff.mp ht).1
        simp at hi
        omega
      exact (view_op_ne hj).trans <| ih (by simpa using hi)
    case env => exact ih hi
    case halt => exact ih (by simpa using hi)

abbrev Keeps (pre : Op → ρ → Prop) (track : (o : Op) → ρ → Resp o → ρ) (p : Prog Resp Unit) (r : ρ) :
    Prop :=
  p.Tracks pre track (fun _ _ => True) r

-- What is left of a task does by what it knows as the whole did from the start.
theorem keeps_view (hp : ∀ q, Keeps pre track (R.prog q) r) (run : Run (Step R) ⟨c, []⟩ h p)
    (hi : p.tasks[i]? = some t) : Keeps pre track t (view track r i h) := by
  induction run generalizing t
  case start => cases hi
  case step h s _ _ run hs ih =>
    cases hs
    case spawn q =>
      cases Nat.lt_or_ge i s.tasks.length
      case inl hl => exact ih (by rwa [List.getElem?_append_left hl] at hi)
      case inr hl =>
        rw [List.getElem?_append_right hl] at hi
        have ht : t = R.prog q := by
          simp only [List.getElem?_singleton] at hi
          split at hi <;> simp_all
        have hv : view track r i h = r := view_of_le_length run hl
        rw [ht]
        exact hv.symm ▸ hp q
    case op j o next x _ ht _ =>
      by_cases hj : j = i
      case pos =>
        subst hj
        have hl := (List.getElem?_eq_some_iff.mp ht).1
        rw [List.getElem?_set_self hl] at hi
        cases hi
        rw [view_op_self]
        exact (ih ht).2 _
      case neg =>
        rw [List.getElem?_set_ne hj] at hi
        rw [view_op_ne hj]
        exact ih hi
    case env => exact ih hi
    case halt =>
      rw [List.getElem?_map] at hi
      have ⟨_, _, ht⟩ := Option.map_eq_some_iff.mp hi
      exact ht ▸ trivial

-- What is left of a task that is still at work comes to the end that the whole was to come to.
theorem tracks_spawned {Q : Unit → ρ → Prop}
    (hp : ∀ s q, (s, .spawn q) ∈ h → (R.prog q).Tracks pre track Q r)
    (run : Run (Step R) ⟨c, []⟩ h p) (hi : p.tasks[i]? = some (.op o next)) :
    (Prog.op o next).Tracks pre track Q (view track r i h) := by
  induction run generalizing o next
  case start => cases hi
  case step h s _ _ run hs ih =>
    have ih {o next} := @ih o next fun s q hm => hp s q (List.mem_cons_of_mem _ hm)
    cases hs
    case spawn q =>
      cases Nat.lt_or_ge i s.tasks.length
      case inl hl => exact ih (by rwa [List.getElem?_append_left hl] at hi)
      case inr hl =>
        rw [List.getElem?_append_right hl] at hi
        have ht : .op o next = R.prog q := by
          simp only [List.getElem?_singleton] at hi
          split at hi <;> simp_all
        have hv : view track r i h = r := view_of_le_length run hl
        rw [ht]
        exact hv.symm ▸ hp s q (by simp)
    case op j o' next' x _ ht _ =>
      by_cases hj : j = i
      case pos =>
        subst hj
        rw [List.getElem?_set_self (List.getElem?_eq_some_iff.mp ht).1] at hi
        rw [view_op_self]
        exact Option.some.inj hi ▸ (ih ht).2 _
      case neg =>
        rw [List.getElem?_set_ne hj] at hi
        rw [view_op_ne hj]
        exact ih hi
    case env => exact ih hi
    case halt =>
      rw [List.getElem?_map] at hi
      have ⟨_, _, ht⟩ := Option.map_eq_some_iff.mp hi
      cases ht

-- A task that has not come to the end that it was to come to is still at work.
theorem live_spawned {Q : Unit → ρ → Prop}
    (hp : ∀ s q, (s, .spawn q) ∈ h → (R.prog q).Tracks pre track Q r)
    (run : Run (Step R) ⟨c, []⟩ h s) (hs : Step R s (.op i o x) p)
    (hq : ¬ Q () (track o (view track r i h) x)) : p.live i := by
  cases hs
  case op next ht _ =>
    have ha := (tracks_spawned hp run ht).2 x
    have hi := (List.getElem?_eq_some_iff.mp ht).1
    cases hn : next x
    case ret =>
      rw [hn] at ha
      exact absurd ha hq
    case op => simp [live, List.getElem?_set_self hi]

theorem live_step {Q : Unit → ρ → Prop} (hp : ∀ q, (R.prog q).Tracks pre track Q r)
    (run : Run (Step R) ⟨c, []⟩ h s) (hs : Step R s (.op i o x) p)
    (hq : ¬ Q () (track o (view track r i h) x)) : p.live i :=
  live_spawned (fun _ q _ => hp q) run hs hq

-- Every operation is made where its task may make it, by what the task knows.
theorem pre_view (hp : ∀ q, Keeps pre track (R.prog q) r)
    (run : Run (Step R) ⟨c, []⟩ ((s, .op i o x) :: h) p) : pre o (view track r i h) := by
  cases run
  case step run hs =>
    cases hs
    case op ht _ => exact (keeps_view hp run ht).1

theorem live_of_getElem? (ht : p.tasks[i]? = some (.op o next)) : p.live i := by
  simp [live, ht]

theorem live_op_ne (hs : Step R s (.op i o x) p) (hj : i ≠ j) : p.live j = s.live j := by
  cases hs
  rw [live, live, List.getElem?_set_ne hj]

theorem lt_of_live (hi : p.live i) : i < p.tasks.length := by
  rw [live] at hi
  split at hi
  case h_1 ht => exact (List.getElem?_eq_some_iff.mp ht).1
  case h_2    => cases hi

-- What the operations of the tasks keep where they are made, all tasks know at all times.
theorem view_keeps {I : ρ → Prop} (hp : ∀ q, Keeps pre track (R.prog q) r)
    (run : Run (Step R) ⟨c, []⟩ h p) (start : I r) (step : ∀ o r x, pre o r → I r → I (track o r x)) :
    I (view track r i h) := by
  induction run
  case start => exact start
  case step h s e _ run hs ih =>
    cases hs
    case op j o x _ _ ht ha =>
      by_cases hj : j = i
      case pos =>
        subst hj
        rw [view_op_self]
        exact step _ _ _ (pre_view hp (run.step (.op ht ha))) ih
      case neg => rwa [view_op_ne hj]
    all_goals exact ih

theorem view_invariant {I : ρ → Prop} (start : I r) (step : ∀ o r x, I r → I (track o r x))
    (h : History Req Resp Env σ) : I (view track r i h) := by
  fun_induction view track r i h
  case case1       => exact start
  case case2 ih    => exact step _ _ _ ih
  case case3 ih    => exact ih
  case case4 ih    => exact ih

-- What a task knows after any event, it has learnt by it or knew before.
theorem view_cons {I : ρ → Prop} (e : Event Req Resp Env)
    (own : ∀ o x, e = .op i o x → I (track o (view track r i h) x))
    (rest : (∀ o x, e ≠ .op i o x) → I (view track r i h)) : I (view track r i ((s, e) :: h)) := by
  cases e
  case op j o x =>
    by_cases hj : j = i
    case pos =>
      subst hj
      exact view_op_self.symm ▸ own o x rfl
    case neg =>
      rw [view_op_ne hj]
      refine rest fun o' x' he => ?_
      cases he
      exact hj rfl
  all_goals exact rest nofun

-- What a live task knows after a step. It starts with nothing, goes on with the answer to its
-- operation, or was live before and has not been at work.
inductive Goes (track : (o : Op) → ρ → Resp o → ρ) (r : ρ) (h : History Req Resp Env σ)
    (s : Pool Resp σ) (e : Event Req Resp Env) (j : Nat) (v : ρ) : Prop
  | start (q : Req) : e = .spawn q → v = r → Goes track r h s e j v
  | own (o : Op) (x : Resp o) : e = .op j o x → s.live j → v = track o (view track r j h) x →
      Goes track r h s e j v
  | rest : s.live j → (∀ o x, e ≠ .op j o x) → v = view track r j h → Goes track r h s e j v

theorem not_live_halt (j : Nat) :
    ¬ (⟨u, s.tasks.map fun _ => .ret ()⟩ : Pool Resp σ).live j := by
  simp only [live, List.getElem?_map]
  split
  case h_1 ht =>
    have ⟨_, _, he⟩ := Option.map_eq_some_iff.mp ht
    cases he
  case h_2 => exact Bool.false_ne_true

theorem goes_step (run : Run (Step R) ⟨c, []⟩ h s) (hs : Step R s e p) (hj : p.live j) :
    Goes track r h s e j (view track r j ((s, e) :: h)) := by
  cases hs
  case spawn q =>
    cases Nat.lt_or_ge j s.tasks.length
    case inl hl =>
      have hj : s.live j := by rwa [live, List.getElem?_append_left hl] at hj
      exact .rest hj nofun rfl
    case inr hl => exact .start q rfl (view_of_le_length (h := h) run hl)
  case op i o x u next ht ha =>
    by_cases hi : i = j
    case pos =>
      subst hi
      exact .own _ _ rfl (live_of_getElem? ht) view_op_self
    case neg =>
      have hj : s.live j := by rwa [live, List.getElem?_set_ne hi] at hj
      refine .rest hj (fun o' x' he => ?_) (view_op_ne hi)
      cases he
      exact hi rfl
  case env => exact .rest hj nofun rfl
  case halt => exact absurd hj (not_live_halt j)

theorem views_step {I : ρ → Prop} (run : Run (Step R) ⟨c, []⟩ h s) (hs : Step R s e p)
    (start : ∀ q, e = .spawn q → I r)
    (own : ∀ i o x, e = .op i o x → s.live i → I (track o (view track r i h) x))
    (rest : ∀ j, s.live j → (∀ o x, e ≠ .op j o x) → I (view track r j h)) :
    ∀ j, p.live j → I (view track r j ((s, e) :: h)) := by
  intro j hj
  cases goes_step run hs hj
  case start q he hv    => exact hv ▸ start q he
  case own o x he hl hv => exact hv ▸ own j o x he hl
  case rest hl he hv    => exact hv ▸ rest j hl he

end View

section Play

variable {R : Rules Req Resp Env σ}

-- One way to take the steps of a pool, where there is one.
structure Player (R : Rules Req Resp Env σ) where
  exec : σ → (o : Op) → Option (Resp o × σ)
  outside : σ → Env → Option σ
  answers : exec s o = some (x, t) → R.answers s o x t
  env : outside s v = some t → R.env s v t

-- A task that is told to run makes its next operations, `n` of them if it has as many.
inductive Move (Req Env : Type)
  | spawn (r : Req)
  | run (i n : Nat)
  | env (v : Env)
  | halt

variable (P : Player R)

def advance (i : Nat) (here : History Req Resp Env σ × Pool Resp σ) :
    History Req Resp Env σ × Pool Resp σ :=
  match here.2.tasks[i]? with
  | some (.op o next) =>
    match P.exec here.2.shared o with
    | some (x, s) => ((here.2, .op i o x) :: here.1, ⟨s, here.2.tasks.set i (next x)⟩)
    | none        => here
  | _ => here

def move (here : History Req Resp Env σ × Pool Resp σ) : Move Req Env →
    History Req Resp Env σ × Pool Resp σ
  | .spawn r => ((here.2, .spawn r) :: here.1, ⟨here.2.shared, here.2.tasks ++ [R.prog r]⟩)
  | .run i n => (advance P i)^[n] here
  | .env v   =>
    match P.outside here.2.shared v with
    | some s => ((here.2, .env v) :: here.1, ⟨s, here.2.tasks⟩)
    | none   => here
  | .halt    => ((here.2, .halt) :: here.1, ⟨R.halt here.2.shared, here.2.tasks.map fun _ => .ret ()⟩)

def play (init : Pool Resp σ) (moves : List (Move Req Env)) :
    History Req Resp Env σ × Pool Resp σ :=
  moves.foldl (move P) ([], init)

theorem advance_run (run : Run (Step R) init here.1 here.2) :
    Run (Step R) init (advance P i here).1 (advance P i here).2 := by
  rw [advance]
  split
  case h_2 => exact run
  case h_1 ht =>
    split
    case h_2 => exact run
    case h_1 hx => exact run.step (.op ht (P.answers hx))

theorem move_run (run : Run (Step R) init here.1 here.2) :
    Run (Step R) init (move P here m).1 (move P here m).2 := by
  cases m
  case spawn => exact run.step .spawn
  case run i n =>
    rw [move]
    induction n generalizing here
    case zero => exact run
    case succ ih => exact ih (advance_run P run)
  case env v =>
    rw [move]
    split
    case h_1 hv => exact run.step (.env (P.env hv))
    case h_2    => exact run
  case halt => exact run.step .halt

-- What has been played is a run.
theorem play_run (init : Pool Resp σ) (moves : List (Move Req Env)) :
    Run (Step R) init (play P init moves).1 (play P init moves).2 := by
  have hm (here : History Req Resp Env σ × Pool Resp σ) (run : Run (Step R) init here.1 here.2) :
      Run (Step R) init (moves.foldl (move P) here).1 (moves.foldl (move P) here).2 := by
    induction moves generalizing here
    case nil => exact run
    case cons ih => exact ih _ (move_run P run)
  exact hm ([], init) .start

end Play
end Pool
