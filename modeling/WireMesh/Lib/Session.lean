import WireMesh.Lib.Tasks

-- Tasks that enter and leave a session one at a time. What belongs to the session is theirs while they
-- are inside: it changes by their own operations alone, as if they ran undisturbed.
namespace Pool

variable {Op : Type} {Resp : Op → Type} {Req Env σ : Type}

structure Session {Op : Type} (Resp : Op → Type) (σ : Type) where
  enter : Op → Prop
  leave : Op → Prop
  -- What others may do while a task is inside.
  quiet : Op → Prop
  busy : σ → Prop
  -- What holds of the state while nobody is inside.
  rest : σ → Prop
  -- The states that agree in what belongs to the session.
  same : σ → σ → Prop
  -- What an operation inside is made with, and what is known of its answer.
  pre : Op → σ → Prop
  known : σ → (o : Op) → Resp o → Prop

namespace Session

variable (S : Session Resp σ) (R : Rules Req Resp Env σ)

-- A task outside knows nothing of the state.
def May (o : Op) : Option σ → Prop
  | none   => S.enter o ∨ S.quiet o
  | some s => S.leave o ∧ S.rest s ∨ ¬ S.enter o ∧ ¬ S.leave o ∧ S.pre o s

inductive Goes : (o : Op) → Option σ → Resp o → Option σ → Prop
  | enter : S.enter o → S.rest s → Goes o none x (some s)
  | quiet : S.quiet o → Goes o none x none
  | leave : S.leave o → Goes o (some s) x none
  | inside : ¬ S.leave o → R.answers s o x t → S.known s o x → S.same t u →
      Goes o (some s) x (some u)

-- A program that ends outside.
abbrev Keeps (p : Prog Resp Unit) (r : Option σ) : Prop :=
  p.Always S.May (S.Goes R) (fun _ r => r = none) r

section Rules

variable {S R} {o : Op} {f : Resp o → Prog Resp α} {Q : α → Option σ → Prop} {s : σ}

-- An operation inside, with all that may come of it.
theorem always_inside (he : ¬ S.enter o) (hl : ¬ S.leave o) (hp : S.pre o s)
    (hf : ∀ x t u, R.answers s o x t → S.known s o x → S.same t u →
      (f x).Always S.May (S.Goes R) Q (some u)) :
    (Prog.perform o >>= f).Always S.May (S.Goes R) Q (some s) := by
  refine ⟨.inr ⟨he, hl, hp⟩, fun x r hg => ?_⟩
  cases hg
  case leave hl'         => exact absurd hl' hl
  case inside hs ha hk   => exact hf x _ _ ha hk hs

theorem always_enter (he : S.enter o) (hq : ¬ S.quiet o)
    (hf : ∀ x s, S.rest s → (f x).Always S.May (S.Goes R) Q (some s)) :
    (Prog.perform o >>= f).Always S.May (S.Goes R) Q none := by
  refine ⟨.inl he, fun x r hg => ?_⟩
  cases hg
  case enter _ hr => exact hf x _ hr
  case quiet hq'  => exact absurd hq' hq

theorem always_quiet (hq : S.quiet o) (he : ¬ S.enter o)
    (hf : ∀ x, (f x).Always S.May (S.Goes R) Q none) :
    (Prog.perform o >>= f).Always S.May (S.Goes R) Q none := by
  refine ⟨.inr hq, fun x r hg => ?_⟩
  cases hg
  case enter he' _ => exact absurd he' he
  case quiet       => exact hf x

theorem always_leave (hl : S.leave o) (hr : S.rest s)
    (hf : ∀ x, (f x).Always S.May (S.Goes R) Q none) :
    (Prog.perform o >>= f).Always S.May (S.Goes R) Q (some s) := by
  refine ⟨.inl ⟨hl, hr⟩, fun x r hg => ?_⟩
  cases hg
  case leave          => exact hf x
  case inside h _ _ _ => exact absurd hl h

-- Operations that leave alone what belongs to the session.
theorem always_same {A : Op → Prop} {p : Prog Resp α} (h : p.Only A) (refl : S.same s s)
    (trans : ∀ {s t u}, S.same s t → S.same t u → S.same s u)
    (hA : ∀ o, A o → ¬ S.enter o ∧ ¬ S.leave o ∧
      ∀ s, S.pre o s ∧ ∀ x t, R.answers s o x t → S.same s t) :
    p.Always S.May (S.Goes R) (fun _ r => ∃ u, r = some u ∧ S.same s u) (some s) := by
  suffices hs : ∀ u, S.same s u →
      p.Always S.May (S.Goes R) (fun _ r => ∃ u, r = some u ∧ S.same s u) (some u) from hs s refl
  induction p
  case ret => exact fun u hu => ⟨u, rfl, hu⟩
  case op o next ih =>
    intro u hu
    have ⟨he, hl, hp⟩ := hA o h.1
    refine ⟨.inr ⟨he, hl, (hp u).1⟩, fun x r hg => ?_⟩
    cases hg
    case leave hl' => exact absurd hl' hl
    case inside hs ha _ => exact ih x (h.2 x) _ (trans hu (trans ((hp u).2 x _ ha) hs))

end Rules

-- What makes the sessions of a pool sessions, in steps that are `ok`.
structure Valid (ok : Pool Resp σ → Event Req Resp Env → Prop) : Prop where
  refl : S.same s s
  trans : S.same s t → S.same t u → S.same s u
  rest : S.same s t → S.rest s → S.rest t
  enter : ok p (.op i o x) → S.enter o → R.answers p.shared o x t →
    ¬ S.busy p.shared ∧ S.busy t ∧ (S.rest p.shared → S.rest t)
  leave : S.leave o → R.answers s o x t → S.rest s → S.rest t
  known : ok p (.op i o x) → R.answers p.shared o x t → S.known p.shared o x
  quiet : ok p (.op i o x) → S.quiet o → R.answers p.shared o x t →
    (S.busy p.shared → S.same p.shared t) ∧ (S.rest p.shared → S.rest t)
  busy : ¬ S.leave o → R.answers s o x t → S.busy s → S.busy t
  apart : S.quiet o → ¬ S.enter o ∧ ¬ S.leave o
  env : ok p (.env v) → R.env p.shared v t →
    (S.busy p.shared → S.busy t ∧ S.same p.shared t) ∧ (S.rest p.shared → S.rest t)
  halt : S.rest (R.halt s)
  prog : ∀ q, S.Keeps R (R.prog q) none

-- At most one task is inside, and whoever is owns what belongs to the session.
structure Sound (who : Option Nat) (p : Pool Resp σ) : Prop where
  inside : ∀ i, who = some i → S.busy p.shared ∧ i < p.tasks.length ∧
    ∀ q, p.tasks[i]? = some q → ∀ s, S.same p.shared s → S.Keeps R q (some s)
  outside : ∀ i q, who ≠ some i → p.tasks[i]? = some q → S.Keeps R q none
  free : who = none → S.rest p.shared

section Sound

variable {S R} {ok : Pool Resp σ → Event Req Resp Env → Prop} {who : Option Nat}
  {p t : Pool Resp σ} {h : History Req Resp Env σ}

theorem Sound.start (hr : S.rest s) : S.Sound R none ⟨s, []⟩ :=
  ⟨nofun, nofun, fun _ => hr⟩

theorem Sound.spawn (hv : S.Valid R ok) (hp : S.Sound R who p) :
    S.Sound R who ⟨p.shared, p.tasks ++ [R.prog r]⟩ where
  free := hp.free
  inside i hi := by
    have ⟨hb, hl, hk⟩ := hp.inside i hi
    refine ⟨hb, by simp; omega, fun q hq => hk q ?_⟩
    rwa [List.getElem?_append_left hl] at hq
  outside i q hi hq := by
    cases Nat.lt_or_ge i p.tasks.length
    case inl hl => exact hp.outside i q hi (by rwa [List.getElem?_append_left hl] at hq)
    case inr hl =>
      have he : q = R.prog r := by
        rw [List.getElem?_append_right hl, List.getElem?_singleton] at hq
        split at hq <;> simp_all
      exact he ▸ hv.prog r

theorem Sound.env (hv : S.Valid R ok) (hp : S.Sound R who p) (hs : R.env p.shared v s)
    (hk : ok p (.env v)) : S.Sound R who ⟨s, p.tasks⟩ where
  free hw := (hv.env hk hs).2 (hp.free hw)
  outside := hp.outside
  inside i hi := by
    have ⟨hb, hl, hq⟩ := hp.inside i hi
    have ⟨hb', hs⟩ := (hv.env hk hs).1 hb
    exact ⟨hb', hl, fun q ht u hu => hq q ht u (hv.trans hs hu)⟩

theorem Sound.halt (hv : S.Valid R ok) :
    S.Sound R none ⟨R.halt s, p.tasks.map fun _ => .ret ()⟩ where
  free _ := hv.halt
  inside := nofun
  outside i q _ hq := by
    rw [List.getElem?_map] at hq
    have ⟨_, _, he⟩ := Option.map_eq_some_iff.mp hq
    cases he
    rfl

section Op

variable {s : σ} {i : Nat} {o : Op} {next : Resp o → Prog Resp Unit} {x : Resp o}

theorem task_set (hl : i < p.tasks.length) (hq : (p.tasks.set i q')[j]? = some q) :
    j = i ∧ q = q' ∨ j ≠ i ∧ p.tasks[j]? = some q := by
  by_cases hj : i = j
  case pos =>
    subst hj
    rw [List.getElem?_set_self hl] at hq
    exact .inl ⟨rfl, (Option.some.inj hq).symm⟩
  case neg =>
    rw [List.getElem?_set_ne hj] at hq
    exact .inr ⟨Ne.symm hj, hq⟩

-- A task goes in while nobody else is.
theorem Sound.enter (hv : S.Valid R ok) (hp : S.Sound R who p)
    (ht : p.tasks[i]? = some (.op o next)) (ha : R.answers p.shared o x s) (hk : ok p (.op i o x))
    (hw : who ≠ some i) (he : S.enter o) : S.Sound R (some i) ⟨s, p.tasks.set i (next x)⟩ := by
  have hl := (List.getElem?_eq_some_iff.mp ht).1
  have ⟨_, hgo⟩ := hp.outside i _ hw ht
  have ⟨hb, hb', hr⟩ := hv.enter hk he ha
  have hn : who = none := by
    cases hw : who
    case none   => rfl
    case some j => exact absurd (hp.inside j hw).1 hb
  refine ⟨fun j hj => ?_, fun j q hj hq => ?_, nofun⟩
  case refine_1 =>
    cases hj
    refine ⟨hb', by simpa using hl, fun q hq u hu => ?_⟩
    cases task_set hl hq
    case inl hq => exact hq.2 ▸ hgo x _ (.enter he (hv.rest hu (hr (hp.free hn))))
    case inr hq => exact absurd rfl hq.1
  case refine_2 =>
    cases task_set hl hq
    case inl hq => exact absurd (by rw [hq.1]) hj
    case inr hq => exact hp.outside j q (by simp [hn]) hq.2

-- A task goes on outside.
theorem Sound.quiet (hv : S.Valid R ok) (hp : S.Sound R who p)
    (ht : p.tasks[i]? = some (.op o next)) (ha : R.answers p.shared o x s) (hk : ok p (.op i o x))
    (hw : who ≠ some i) (he : S.quiet o) : S.Sound R who ⟨s, p.tasks.set i (next x)⟩ := by
  have hl := (List.getElem?_eq_some_iff.mp ht).1
  have ⟨_, hgo⟩ := hp.outside i _ hw ht
  have ⟨hs, hr⟩ := hv.quiet hk he ha
  refine ⟨fun j hj => ?_, fun j q hj hq => ?_, fun hn => hr (hp.free hn)⟩
  case refine_1 =>
    have ⟨hb, hlj, hin⟩ := hp.inside j hj
    refine ⟨hv.busy (hv.apart he).2 ha hb, by simpa using hlj, fun q hq u hu => ?_⟩
    cases task_set hl hq
    case inl hq => exact absurd (hq.1 ▸ hj) hw
    case inr hq => exact hin q hq.2 u (hv.trans (hs hb) hu)
  case refine_2 =>
    cases task_set hl hq
    case inl hq => exact hq.2 ▸ hgo x _ (.quiet he)
    case inr hq => exact hp.outside j q hj hq.2

-- The task inside goes out, or on.
theorem Sound.own (hv : S.Valid R ok) (hp : S.Sound R (some i) p)
    (ht : p.tasks[i]? = some (.op o next)) (ha : R.answers p.shared o x s)
    (hk : ok p (.op i o x)) : ∃ who, S.Sound R who ⟨s, p.tasks.set i (next x)⟩ := by
  have hl := (List.getElem?_eq_some_iff.mp ht).1
  have ⟨hb, _, hin⟩ := hp.inside i rfl
  have ⟨hm, hgo⟩ := hin _ ht _ hv.refl
  have others (j : Nat) (q : Prog Resp Unit) (hj : j ≠ i) (hq : p.tasks[j]? = some q) :
      S.Keeps R q none :=
    hp.outside j q (fun he => hj (Option.some.inj he).symm) hq
  cases hm
  case inl he =>
    refine ⟨none, nofun, fun j q _ hq => ?_, fun _ => hv.leave he.1 ha he.2⟩
    cases task_set hl hq
    case inl hq => exact hq.2 ▸ hgo x _ (.leave he.1)
    case inr hq => exact others j q hq.1 hq.2
  case inr he =>
    have ⟨_, he, _⟩ := he
    refine ⟨some i, fun j hj => ?_, fun j q hj hq => ?_, nofun⟩
    case refine_1 =>
      cases hj
      refine ⟨hv.busy he ha hb, by simpa using hl, fun q hq u hu => ?_⟩
      cases task_set hl hq
      case inl hq => exact hq.2 ▸ hgo x _ (.inside he ha (hv.known hk ha) hu)
      case inr hq => exact absurd rfl hq.1
    case refine_2 =>
      cases task_set hl hq
      case inl hq => exact absurd (by rw [hq.1]) hj
      case inr hq => exact others j q hq.1 hq.2

end Op

theorem Sound.step (hv : S.Valid R ok) (hp : S.Sound R who p) (hs : Step R p e t) (hk : ok p e) :
    ∃ who, S.Sound R who t := by
  cases hs
  case spawn => exact ⟨who, hp.spawn hv⟩
  case env hs => exact ⟨who, hp.env hv hs hk⟩
  case halt => exact ⟨none, .halt hv⟩
  case op i o x s next ht ha =>
    by_cases hw : who = some i
    case pos => exact (hw ▸ hp).own hv ht ha hk
    case neg =>
      cases (hp.outside i _ hw ht).1
      case inl he => exact ⟨some i, hp.enter hv ht ha hk hw he⟩
      case inr he => exact ⟨who, hp.quiet hv ht ha hk hw he⟩

-- What is done inside is done where it may be.
theorem Sound.pre (hv : S.Valid R ok) (hp : S.Sound R who p) (hs : Step R p (.op i o x) t)
    (he : ¬ S.enter o) (hl : ¬ S.leave o) (hq : ¬ S.quiet o) : S.pre o p.shared := by
  cases hs
  case op next ht ha =>
    by_cases hw : who = some i
    case pos =>
      have ⟨_, _, hin⟩ := hp.inside i hw
      exact ((hin _ ht _ hv.refl).1.resolve_left fun h => hl h.1).2.2
    case neg => exact ((hp.outside i _ hw ht).1.elim he hq).elim

end Sound
end Session
end Pool
