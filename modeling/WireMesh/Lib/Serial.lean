import WireMesh.Lib.Prog

-- Programs that run to their end with nobody else at work, where an operation may be answered in more than
-- one way.
namespace Prog

variable {Op : Type} {Resp : Op → Type} {α β ε σ : Type}

-- A run from one state to another with the operations that it makes.
inductive Serves (answers : σ → (o : Op) → Resp o → σ → Prop) :
    Prog Resp α → σ → List Op → α → σ → Prop
  | ret : Serves answers (ret a) s [] a s
  | op : answers s o x t → Serves answers (next x) t l a u →
      Serves answers (.op o next) s (o :: l) a u

variable {answers : σ → (o : Op) → Resp o → σ → Prop} {p : Prog Resp α} {f : α → Prog Resp β}
  {s t u : σ} {l l₁ l₂ : List Op}

theorem serves_pure : Serves answers (pure a : Prog Resp α) s l b t ↔ l = [] ∧ b = a ∧ t = s := by
  constructor
  case mp =>
    intro h
    cases h
    exact ⟨rfl, rfl, rfl⟩
  case mpr =>
    rintro ⟨rfl, rfl, rfl⟩
    exact .ret

theorem serves_perform {o : Op} {x : Resp o} :
    Serves answers (perform o : Prog Resp _) s l x t ↔ l = [o] ∧ answers s o x t := by
  constructor
  case mp =>
    intro h
    cases h
    case op ha hr =>
      cases hr
      exact ⟨rfl, ha⟩
  case mpr =>
    rintro ⟨rfl, ha⟩
    exact .op ha .ret

theorem Serves.bind (hp : Serves answers p s l₁ a t) (hf : Serves answers (f a) t l₂ b u) :
    Serves answers (p >>= f) s (l₁ ++ l₂) b u := by
  induction hp
  case ret          => exact hf
  case op ha _ ih => exact .op ha (ih hf)

theorem serves_bind : Serves answers (p >>= f) s l b u ↔
    ∃ a t l₁ l₂, l = l₁ ++ l₂ ∧ Serves answers p s l₁ a t ∧ Serves answers (f a) t l₂ b u := by
  constructor
  case mpr =>
    rintro ⟨a, t, l₁, l₂, rfl, hp, hf⟩
    exact hp.bind hf
  case mp =>
    intro h
    induction p generalizing s l
    case ret a => exact ⟨a, s, [], l, rfl, .ret, h⟩
    case op o next ih =>
      cases h
      case op ha h =>
        have ⟨a, t, l₁, l₂, hl, hp, hf⟩ := ih _ h
        exact ⟨a, t, o :: l₁, l₂, by rw [hl]; rfl, .op ha hp, hf⟩

-- The operations are among those that the program can make at all.
theorem Serves.only {A : Op → Prop} (h : Serves answers p s l a t) (ho : p.Only A) : ∀ o ∈ l, A o := by
  induction h
  case ret => nofun
  case op ih => exact List.forall_mem_cons.mpr ⟨ho.1, ih (ho.2 _)⟩

-- What every operation relates, a whole run relates.
theorem Serves.rel {R : σ → σ → Prop} {A : Op → Prop} (refl : ∀ s, R s s)
    (trans : ∀ {s t u}, R s t → R t u → R s u)
    (step : ∀ {s o x t}, A o → answers s o x t → R s t)
    (h : Serves answers p s l a t) (hl : ∀ o ∈ l, A o) : R s t := by
  induction h
  case ret => exact refl _
  case op ha _ ih =>
    have ⟨ho, hl⟩ := List.forall_mem_cons.mp hl
    exact trans (step ho ha) (ih hl)

section Except

variable {x : ExceptT ε (Prog Resp) α} {g : α → ExceptT ε (Prog Resp) β}

theorem serves_run_pure :
    Serves answers (pure a : ExceptT ε (Prog Resp) α).run s l r t ↔ l = [] ∧ r = .ok a ∧ t = s :=
  serves_pure

theorem serves_run_throw :
    Serves answers (throw e : ExceptT ε (Prog Resp) α).run s l r t ↔ l = [] ∧ r = .error e ∧ t = s :=
  serves_pure

theorem serves_run_lift {p : Prog Resp α} : Serves answers (ExceptT.lift p : ExceptT ε (Prog Resp) α).run
    s l r t ↔ ∃ a, r = .ok a ∧ Serves answers p s l a t := by
  constructor
  case mp =>
    intro h
    have ⟨a, _, _, _, hl, hp, hr⟩ := serves_bind.mp h
    have ⟨h₁, h₂, h₃⟩ := serves_pure.mp hr
    subst h₁ h₃
    exact ⟨a, h₂, by rwa [hl, List.append_nil]⟩
  case mpr =>
    rintro ⟨a, rfl, hp⟩
    exact serves_bind.mpr ⟨a, t, l, [], (List.append_nil l).symm, hp, serves_pure.mpr ⟨rfl, rfl, rfl⟩⟩

-- A call that ends well has gone well at every step.
theorem serves_run_bind_ok (h : Serves answers (x >>= g).run s l (.ok b) u) :
    ∃ a t l₁ l₂, l = l₁ ++ l₂ ∧ Serves answers x.run s l₁ (.ok a) t ∧
      Serves answers (g a).run t l₂ (.ok b) u := by
  have ⟨r, t, l₁, l₂, hl, hx, hg⟩ := serves_bind.mp h
  cases r
  case ok a    => exact ⟨a, t, l₁, l₂, hl, hx, hg⟩
  case error e =>
    have ⟨_, h, _⟩ := serves_pure.mp hg
    cases h

end Except

section Try

variable (h : (o : Op) → σ → Option (Resp o × σ))

-- One such run, with its operations.
def serve? : Prog Resp α → σ → Option (List Op × α × σ)
  | ret a,     s => some ([], a, s)
  | op o next, s => do
    let (x, t) ← h o s
    let (l, r) ← (next x).serve? t
    return (o :: l, r)

theorem serves_serve? (ha : ∀ {o s x t}, h o s = some (x, t) → answers s o x t)
    (hp : p.serve? h s = some (l, a, t)) : Serves answers p s l a t := by
  induction p generalizing s l
  case ret =>
    cases hp
    exact .ret
  case op o next ih =>
    simp only [serve?, Option.bind_eq_bind, Option.bind_eq_some_iff, Option.pure_def,
      Option.some.injEq, Prod.exists] at hp
    have ⟨x, u, hx, l', a', t', hp, he⟩ := hp
    cases he
    exact .op (ha hx) (ih x hp)

end Try
end Prog
