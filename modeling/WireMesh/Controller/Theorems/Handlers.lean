import WireMesh.Controller.System

-- How what a service knows goes from one of its operations to the next.
namespace Controller

open Policy Handler Prog

variable {ρ : Type} {pre : CtlOp → ρ → Prop} {track : (o : CtlOp) → ρ → o.Resp → ρ} {r : ρ}

-- The type of a response computes, so it is no part of what these lemmas are found by.
@[simp]
theorem tracks_performOp {o : CtlOp} {Q : no_index o.Resp → ρ → Prop} :
    (@perform _ CtlOp.Resp o).Tracks pre track Q r ↔ pre o r ∧ ∀ x, Q x (track o r x) :=
  Iff.rfl

@[simp]
theorem tracks_ask {Q : no_index (Except String q.Resp) → ρ → Prop} :
    (ask q).Tracks pre track Q r ↔ pre (.query q) r ∧
      (∀ e, Q (.error e) (track (.query q) r (.error e))) ∧
      ∀ a, Q (.ok a) (track (.query q) r (.ok a)) := by
  refine and_congr_right fun _ => ⟨fun h => ⟨fun e => h _, fun a => h _⟩, fun h x => ?_⟩
  cases x
  case error e => exact h.1 e
  case ok a    => exact h.2 a

@[simp]
theorem tracks_commit {Q : no_index t.Resp → ρ → Prop} :
    (commit t).Tracks pre track Q r ↔ pre (.tx t) r ∧
      (∀ e, Q (.error e) (track (.tx t) r (.error e))) ∧
      ∀ a, Q (.ok a) (track (.tx t) r (.ok a)) := by
  refine and_congr_right fun _ => ⟨fun h => ⟨fun e => h _, fun a => h _⟩, fun h x => ?_⟩
  cases x
  case error e => exact h.1 e
  case ok a    => exact h.2 a

@[simp]
theorem tracks_publish {Q : Unit → ρ → Prop} :
    (publish ev).Tracks pre track Q r ↔
      pre (.publish ev) r ∧ Q () (track (.publish ev) r ()) :=
  and_congr_right fun _ => ⟨fun h => h (), fun h _ => h⟩

@[simp]
theorem tracks_now {Q : Instant → ρ → Prop} :
    now.Tracks pre track Q r ↔ pre .now r ∧ ∀ t, Q t (track .now r t) :=
  Iff.rfl

section Call

@[simp]
theorem tracks_run_ite {c : Prop} [Decidable c] {x y : ExceptT ε Handler α}
    {Q : Except ε α → ρ → Prop} :
    (if c then x else y).run.Tracks pre track Q r ↔
      (c → x.run.Tracks pre track Q r) ∧ (¬ c → y.run.Tracks pre track Q r) := by
  split <;> simp_all

-- A call goes on with what its step has yielded, or ends with the error.
@[simp]
theorem tracks_run_bind {x : ExceptT ε Handler α} {f : α → ExceptT ε Handler β}
    {Q : Except ε β → ρ → Prop} :
    (x >>= f).run.Tracks pre track Q r ↔
      x.run.Tracks pre track (fun
        | .ok a, r'    => (f a).run.Tracks pre track Q r'
        | .error e, r' => Q (.error e) r') r := by
  rw [ExceptT.run_bind, tracks_bind]
  refine iff_of_eq (congrArg (fun Q => x.run.Tracks pre track Q r) ?_)
  funext a r'
  cases a <;> rfl

@[simp]
theorem tracks_run_pure {a : α} {Q : Except ε α → ρ → Prop} :
    (pure a : ExceptT ε Handler α).run.Tracks pre track Q r ↔ Q (.ok a) r :=
  Iff.rfl

@[simp]
theorem tracks_run_throw {e : ε} {Q : Except ε α → ρ → Prop} :
    (throw e : ExceptT ε Handler α).run.Tracks pre track Q r ↔ Q (.error e) r :=
  Iff.rfl

@[simp]
theorem tracks_run_lift {p : Handler α} {Q : Except ε α → ρ → Prop} :
    (ExceptT.lift p : ExceptT ε Handler α).run.Tracks pre track Q r ↔
      p.Tracks pre track (fun a r' => Q (.ok a) r') r :=
  tracks_map

@[simp]
theorem tracks_run_liftM {p : Handler α} {Q : Except ε α → ρ → Prop} :
    (liftM p : ExceptT ε Handler α).run.Tracks pre track Q r ↔
      p.Tracks pre track (fun a r' => Q (.ok a) r') r :=
  tracks_map

@[simp]
theorem tracks_run_map {x : ExceptT ε Handler α} {f : α → β} {Q : Except ε β → ρ → Prop} :
    (f <$> x).run.Tracks pre track Q r ↔
      x.run.Tracks pre track (fun
        | .ok a, r'    => Q (.ok (f a)) r'
        | .error e, r' => Q (.error e) r') r := by
  rw [← bind_pure_comp, tracks_run_bind]
  rfl

@[simp]
theorem tracks_orStatus {status : ε → Status} {x : Except ε α} {Q : Except Status α → ρ → Prop} :
    (orStatus status x).run.Tracks pre track Q r ↔
      (∀ e, x = .error e → Q (.error (status e)) r) ∧ ∀ a, x = .ok a → Q (.ok a) r := by
  cases x <;> simp [orStatus]

@[simp]
theorem tracks_askOr {Q : Except Status (no_index q.Resp) → ρ → Prop} :
    (@ExceptT.run _ _ (no_index q.Resp) (askOr context q)).Tracks pre track Q r ↔ pre (.query q) r ∧
      (∀ e, Q (.error (internal context e)) (track (.query q) r (.error e))) ∧
      ∀ a, Q (.ok a) (track (.query q) r (.ok a)) := by
  simp [askOr]

@[simp]
theorem tracks_ended {x : ExceptT ε Handler α} {Q : Unit → ρ → Prop} :
    (ended x).Tracks pre track Q r ↔ x.run.Tracks pre track (fun _ r' => Q () r') r := by
  simp [ended]

namespace Sync

@[simp]
theorem tracks_read {Q : Except String (no_index q.Resp) → ρ → Prop} :
    (@ExceptT.run _ _ (no_index q.Resp) (Sync.read q)).Tracks pre track Q r ↔ pre (.query q) r ∧
      (∀ e, Q (.error e) (track (.query q) r (.error e))) ∧
      ∀ a, Q (.ok a) (track (.query q) r (.ok a)) :=
  tracks_ask

-- Whoever calls has been found among the active gateways.
theorem tracks_identify {Q : Except Status GatewayIdentity → ρ → Prop}
    (hp : pre (.query (.findGatewayByName name)) r) (he : ∀ e r', Q (.error e) r')
    (hok : ∀ gw, Q (.ok gw) (track (.query (.findGatewayByName name)) r (.ok (some gw)))) :
    (identify name).run.Tracks pre track Q r := by
  simp only [identify, tracks_run_bind, tracks_askOr]
  refine ⟨hp, fun _ => he _ _, ?_⟩
  rintro (_ | gw)
  case none => exact he _ _
  case some => exact hok gw

theorem tracks_checkSessionGeneration {Q : Except Status Unit → ρ → Prop}
    (hp : pre (.recordedSession g) r) (he : ∀ e r', Q (.error e) r')
    (hok : ∀ x, Q (.ok ()) (track (.recordedSession g) r x)) :
    (checkSessionGeneration g generation rpc).run.Tracks pre track Q r := by
  simp only [checkSessionGeneration, tracks_run_bind, tracks_run_liftM]
  refine ⟨hp, fun x => ?_⟩
  change Tracks _ _ _ (ExceptT.run (if _ then _ else _)) _
  rw [tracks_run_ite]
  exact ⟨fun _ => he _ _, fun _ => hok x⟩

end Sync

end Call

theorem tracks_forEach {f : α → Handler Unit} {as : List α} {I : ρ → Prop}
    (h : ∀ a ∈ as, ∀ r, I r → (f a).Tracks pre track (fun _ => I) r) (hr : I r) :
    (forEach f as).Tracks pre track (fun _ => I) r := by
  induction as generalizing r
  case nil => exact hr
  case cons a as ih =>
    have ⟨ha, has⟩ := List.forall_mem_cons.mp h
    exact tracks_bind.mpr <| (ha r hr).mono fun _ r' hr' => ih has hr'

end Controller
