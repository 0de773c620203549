import Mathlib

-- Programs over atomic operations. A program is a result, or an operation together with what to do
-- with the response. The same program runs alone against a state, or operation by operation
-- between the steps of others.
inductive Prog {Op : Type} (Resp : Op → Type) (α : Type)
  | ret (a : α)
  | op (o : Op) (next : Resp o → Prog Resp α)

namespace Prog

variable {Op : Type} {Resp : Op → Type} {α β γ σ : Type}

def bind : Prog Resp α → (α → Prog Resp β) → Prog Resp β
  | ret a,     f => f a
  | op o next, f => op o fun r => (next r).bind f

instance : Monad (Prog Resp) where
  pure := ret
  bind := bind

def perform (o : Op) : Prog Resp (Resp o) :=
  op o ret

theorem bind_assoc (p : Prog Resp α) (f : α → Prog Resp β) (g : β → Prog Resp γ) :
    (p.bind f).bind g = p.bind fun a => (f a).bind g := by
  induction p
  case ret => rfl
  case op o next ih => exact congrArg (op o) (funext ih)

theorem bind_ret (p : Prog Resp α) : p.bind ret = p := by
  induction p
  case ret => rfl
  case op o next ih => exact congrArg (op o) (funext ih)

instance : LawfulMonad (Prog Resp) :=
  LawfulMonad.mk' _ bind_ret (fun _ _ => rfl) bind_assoc

section Run

variable (h : (o : Op) → σ → Resp o × σ)

-- The undisturbed run of a program.
def run : Prog Resp α → σ → α × σ
  | ret a,     s => (a, s)
  | op o next, s => (next (h o s).1).run (h o s).2

@[simp]
theorem run_pure (a : α) (s : σ) : (pure a : Prog Resp α).run h s = (a, s) :=
  rfl

@[simp]
theorem run_ret (a : α) (s : σ) : (ret a : Prog Resp α).run h s = (a, s) :=
  rfl

@[simp]
theorem run_perform (o : Op) (s : σ) : (perform o : Prog Resp _).run h s = h o s :=
  rfl

@[simp]
theorem run_bind (p : Prog Resp α) (f : α → Prog Resp β) (s : σ) :
    (p >>= f).run h s = (f (p.run h s).1).run h (p.run h s).2 := by
  induction p generalizing s
  case ret => rfl
  case op o next ih => exact ih _ _

-- A relation that is reflexive, transitive and kept by every operation is kept by every run.
theorem run_rel {R : σ → σ → Prop} (refl : ∀ s, R s s) (trans : ∀ {s t u}, R s t → R t u → R s u)
    (step : ∀ o s, R s (h o s).2) (p : Prog Resp α) (s : σ) : R s (p.run h s).2 := by
  induction p generalizing s
  case ret => exact refl s
  case op o next ih => exact trans (step o s) (ih _ _)

end Run

section Always

variable {ρ : Type} {pre : Op → ρ → Prop} {tr : (o : Op) → ρ → Resp o → ρ → Prop}
  {Q Q' : α → ρ → Prop} {r : ρ}

-- However the operations are answered within `tr`, every one is made where `pre` lets it be made, and
-- the program ends as `Q` says. The part of the state that `ρ` is about belongs to the program, others
-- may do what they like to the rest between its operations.
def Always (pre : Op → ρ → Prop) (tr : (o : Op) → ρ → Resp o → ρ → Prop) (Q : α → ρ → Prop) :
    Prog Resp α → ρ → Prop
  | ret a,     r => Q a r
  | op o next, r => pre o r ∧ ∀ x r', tr o r x r' → (next x).Always pre tr Q r'

theorem always_pure {a : α} (h : Q a r) : (pure a : Prog Resp α).Always pre tr Q r :=
  h

theorem always_perform {o : Op} {Q : Resp o → ρ → Prop} (hp : pre o r)
    (h : ∀ x r', tr o r x r' → Q x r') : (perform o : Prog Resp _).Always pre tr Q r :=
  ⟨hp, h⟩

theorem Always.mono {p : Prog Resp α} (h : p.Always pre tr Q r) (hQ : ∀ a r', Q a r' → Q' a r') :
    p.Always pre tr Q' r := by
  induction p generalizing r
  case ret a => exact hQ a r h
  case op o next ih => exact ⟨h.1, fun x r' hx => ih x (h.2 x r' hx)⟩

theorem always_bind {p : Prog Resp α} {f : α → Prog Resp β} {Q : β → ρ → Prop}
    (h : p.Always pre tr (fun a r' => (f a).Always pre tr Q r') r) :
    (p >>= f).Always pre tr Q r := by
  induction p generalizing r
  case ret => exact h
  case op o next ih => exact ⟨h.1, fun x r' hx => ih x (h.2 x r' hx)⟩

end Always

section Tracks

variable {ρ : Type} {pre : Op → ρ → Prop} {track : (o : Op) → ρ → Resp o → ρ}
  {Q Q' : α → ρ → Prop} {r : ρ}

-- What a program knows goes from one operation to the next by `track`. However the operations are
-- answered, every one is made where `pre` lets it be made, and the program ends as `Q` says.
def Tracks (pre : Op → ρ → Prop) (track : (o : Op) → ρ → Resp o → ρ) (Q : α → ρ → Prop) :
    Prog Resp α → ρ → Prop
  | ret a,     r => Q a r
  | op o next, r => pre o r ∧ ∀ x, (next x).Tracks pre track Q (track o r x)

@[simp]
theorem tracks_pure {a : α} : (pure a : Prog Resp α).Tracks pre track Q r ↔ Q a r :=
  Iff.rfl

@[simp]
theorem tracks_perform {o : Op} {Q : Resp o → ρ → Prop} :
    (perform o : Prog Resp _).Tracks pre track Q r ↔ pre o r ∧ ∀ x, Q x (track o r x) :=
  Iff.rfl

@[simp]
theorem tracks_bind {p : Prog Resp α} {f : α → Prog Resp β} {Q : β → ρ → Prop} :
    (p >>= f).Tracks pre track Q r ↔
      p.Tracks pre track (fun a r' => (f a).Tracks pre track Q r') r := by
  induction p generalizing r
  case ret => exact Iff.rfl
  case op o next ih => exact and_congr_right fun _ => forall_congr' fun x => ih x

@[simp]
theorem tracks_map {p : Prog Resp α} {f : α → β} {Q : β → ρ → Prop} :
    (f <$> p).Tracks pre track Q r ↔ p.Tracks pre track (fun a r' => Q (f a) r') r :=
  tracks_bind

theorem Tracks.mono {p : Prog Resp α} (h : p.Tracks pre track Q r) (hQ : ∀ a r', Q a r' → Q' a r') :
    p.Tracks pre track Q' r := by
  induction p generalizing r
  case ret a => exact hQ a r h
  case op o next ih => exact ⟨h.1, fun x => ih x (h.2 x)⟩

@[simp]
theorem tracks_ite {c : Prop} [Decidable c] {p p' : Prog Resp α} :
    (if c then p else p').Tracks pre track Q r ↔
      (c → p.Tracks pre track Q r) ∧ (¬ c → p'.Tracks pre track Q r) := by
  split <;> simp_all

theorem tracks_forM {f : β → Prog Resp PUnit} {as : List β} {I : ρ → Prop}
    (h : ∀ a ∈ as, ∀ r, I r → (f a).Tracks pre track (fun _ => I) r) (hr : I r) :
    (as.forM f).Tracks pre track (fun _ => I) r := by
  induction as generalizing r
  case nil => exact hr
  case cons a as ih =>
    have ⟨ha, has⟩ := List.forall_mem_cons.mp h
    exact tracks_bind.mpr <| (ha r hr).mono fun _ r' hr' => ih has hr'

end Tracks

section Only

variable {ρ : Type} {pre : Op → ρ → Prop} {track : (o : Op) → ρ → Resp o → ρ} {A B : Op → Prop}
  {p : Prog Resp α} {f : α → Prog Resp β}

-- Every operation of a program is one of `A`, however those before it are answered.
def Only (A : Op → Prop) : Prog Resp α → Prop
  | ret _     => True
  | op o next => A o ∧ ∀ x, (next x).Only A

@[simp]
theorem only_pure {a : α} : (pure a : Prog Resp α).Only A :=
  trivial

@[simp]
theorem only_perform {o : Op} : (perform o : Prog Resp _).Only A ↔ A o :=
  ⟨And.left, fun h => ⟨h, fun _ => trivial⟩⟩

theorem Only.bind (h : p.Only A) (hf : ∀ a, (f a).Only A) : (p >>= f).Only A := by
  induction p
  case ret a => exact hf a
  case op o next ih => exact ⟨h.1, fun x => ih x (h.2 x)⟩

theorem Only.mono (h : p.Only A) (hA : ∀ o, A o → B o) : p.Only B := by
  induction p
  case ret => trivial
  case op o next ih => exact ⟨hA o h.1, fun x => ih x (h.2 x)⟩

theorem Only.ite {c : Prop} [Decidable c] {p p' : Prog Resp α} (h : p.Only A) (h' : p'.Only A) :
    (if c then p else p').Only A := by
  split
  case isTrue  => exact h
  case isFalse => exact h'

theorem Only.forM {f : α → Prog Resp PUnit} {as : List α} (h : ∀ a ∈ as, (f a).Only A) :
    (as.forM f).Only A := by
  induction as
  case nil => trivial
  case cons a as ih =>
    have ⟨ha, has⟩ := List.forall_mem_cons.mp h
    exact ha.bind fun _ => ih has

-- A program tracks what its operations keep.
theorem Only.tracks {I : ρ → Prop} (h : p.Only A)
    (hA : ∀ o, A o → ∀ r, I r → pre o r ∧ ∀ x, I (track o r x)) (hr : I r) :
    p.Tracks pre track (fun _ => I) r := by
  induction p generalizing r
  case ret => exact hr
  case op o next ih =>
    have ⟨hp, hx⟩ := hA o h.1 r hr
    exact ⟨hp, fun x => ih x (h.2 x) (hx x)⟩

-- Operations that teach a program nothing leave what it knows as it is.
theorem Only.same (h : p.Only A) (hA : ∀ o, A o → pre o r ∧ ∀ x, track o r x = r) :
    p.Tracks pre track (fun _ r' => r' = r) r := by
  refine h.tracks (fun o ho r' hr => ?_) rfl
  subst hr
  exact hA o ho

end Only

section Try

variable (h : (o : Op) → σ → Option (Resp o × σ))

-- The undisturbed run of a program where an operation may have to wait.
def run? : Prog Resp α → σ → Option (α × σ)
  | ret a,     s => some (a, s)
  | op o next, s => (h o s).bind fun (x, t) => (next x).run? t

variable {h}

theorem run?_bind {p : Prog Resp α} (hp : p.run? h s = some (a, t)) (f : α → Prog Resp β) :
    (p >>= f).run? h s = (f a).run? h t := by
  induction p generalizing s
  case ret =>
    cases hp
    rfl
  case op o next ih =>
    have ⟨(x, u), hx, hp⟩ := Option.bind_eq_some_iff.mp hp
    change ((h o s).bind fun (x, u) => (next x >>= f).run? h u) = _
    rw [hx]
    exact ih x hp

-- A program whose operations need not wait and leave something alone.
theorem Only.run? {κ : Type} {A : Op → Prop} {f : σ → κ} {p : Prog Resp α} (hp : p.Only A)
    (hA : ∀ o s, A o → ∃ x t, h o s = some (x, t) ∧ f t = f s) (s : σ) :
    ∃ a t, p.run? h s = some (a, t) ∧ f t = f s := by
  induction p generalizing s
  case ret a => exact ⟨a, s, rfl, rfl⟩
  case op o next ih =>
    have ⟨x, t, hx, ht⟩ := hA o s hp.1
    have ⟨a, u, hr, hu⟩ := ih x (hp.2 x) t
    refine ⟨a, u, ?_, hu.trans ht⟩
    rw [Prog.run?, hx]
    exact hr

end Try
end Prog
