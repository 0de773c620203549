import WireMesh.Controller.StandIn
import WireMesh.Controller.Theorems.History
import WireMesh.Controller.Theorems.Jobs
import WireMesh.Controller.Theorems.Trackers

-- Whether an abort can delete a key that has been submitted.
namespace Controller

open Policy

-- Whether an event gives the pending epoch a real key or takes the epoch from the pending ones.
def keying (g e : Nat) : SystemEvent → Option Bool
  | .op _ (.tx (.setEpochPubkey g' e' pubkey)) (.ok .applied) =>
    if g' = g ∧ e' = e ∧ pubkey ≠ AWAITING_SUBMISSION_SENTINEL then some true else none
  | .op _ (.tx (.promoteEpoch g' e')) (.ok .applied)          =>
    if g' = g ∧ e' = e then some false else none
  | .op _ (.tx (.dropPendingEpoch g' e')) (.ok .dropped)      =>
    if g' = g ∧ e' = e then some false else none
  | _                                                         => none

def readBy (i g : Nat) : SystemEvent → Bool
  | .op j (.query (.allKeysForGateway g')) (.ok _) => j = i ∧ g' = g
  | _                                              => false

-- A real key has been committed for the epoch since the task last read the keys of the gateway.
def keyedSince (i g e : Nat) : History → Bool
  | []           => false
  | (_, ev) :: h => if readBy i g ev then false else (keying g e ev).getD (keyedSince i g e h)

-- An abort that deletes the row of an epoch: the task, the gateway and the epoch.
def aborting : SystemEvent → Option (Nat × Nat × Nat)
  | .op i (.tx (.dropPendingEpoch g e)) (.ok .dropped) => some (i, g, e)
  | _                                                  => none

-- An epoch is dropped that has no real key.
def DropsUnkeyed (s : System) (ev : SystemEvent) : Prop :=
  ∀ a ∈ aborting ev, ¬ (s.shared.db.ring a.2.1).Submitted a.2.2

-- An epoch is dropped that has got no key since its driver has read the keys.
def DropsAsRead (h : History) (ev : SystemEvent) : Prop :=
  ∀ a ∈ aborting ev, keyedSince a.1 a.2.1 a.2.2 h = false

instance (s : System) (ev : SystemEvent) : Decidable (DropsUnkeyed s ev) :=
  inferInstanceAs (Decidable (∀ a ∈ aborting ev, _))

instance (h : History) (ev : SystemEvent) : Decidable (DropsAsRead h ev) :=
  inferInstanceAs (Decidable (∀ a ∈ aborting ev, _))

namespace KeyRing

variable {ring : KeyRing}

theorem submitted_append (hk : ¬ (k.2.2 = .pending ∧ k.2.1 ≠ AWAITING_SUBMISSION_SENTINEL)) :
    (ring ++ [k]).Submitted e ↔ ring.Submitted e := by
  simp only [Submitted, List.mem_append, List.mem_singleton, or_and_right, exists_or,
    exists_eq_left]
  exact or_iff_left fun h => hk h.2

-- Rows that are not moved from or to the pending ones with a key.
theorem submitted_map {f : GatewayKeyRow → GatewayKeyRow}
    (hf : ∀ k ∈ ring, (f k).1 = k.1 ∧ (k.1 = e → ((f k).2.2 = .pending ∧
      (f k).2.1 ≠ AWAITING_SUBMISSION_SENTINEL ↔ k.2.2 = .pending ∧ k.2.1 ≠ AWAITING_SUBMISSION_SENTINEL))) :
    Submitted (ring.map f) e ↔ ring.Submitted e := by
  simp only [Submitted, List.mem_map, exists_exists_and_eq_and]
  refine exists_congr fun k => and_congr_right fun hk => ?_
  rw [(hf k hk).1]
  exact and_congr_right fun he => (hf k hk).2 he

theorem submitted_delete (hs : ¬ (e' = e ∧ state = .pending)) :
    (ring.delete e' state).Submitted e ↔ ring.Submitted e := by
  simp only [Submitted, delete, List.mem_filter]
  refine exists_congr fun k => ?_
  have stays (he : k.1 = e) (hp : k.2.2 = .pending) : ¬ (k.1 = e' ∧ k.2.2 = state) := fun h =>
    hs ⟨h.1.symm.trans he, h.2.symm.trans hp⟩
  simp only [decide_eq_true_eq]
  exact ⟨fun h => ⟨h.1.1, h.2⟩, fun h => ⟨⟨h.1, stays h.2.1 h.2.2.1⟩, h.2⟩⟩

end KeyRing

section Commit

variable {db : Db}

theorem keying_of_not_rings (h : ¬ Db.Rings g t out) : keying g e (.op i (.tx t) (.ok out)) = none := by
  cases t
  case setEpochPubkey   => cases out <;> simp_all [keying, Db.Rings]
  case promoteEpoch     => cases out <;> simp_all [keying, Db.Rings]
  case dropPendingEpoch => cases out <;> simp_all [keying, Db.Rings]
  all_goals rfl

-- What becomes of a key is told by the events.
theorem submitted_turn (ht : Db.RingTurn db g t out r) :
    r.Submitted e ↔ (keying g e (.op i (.tx t) (.ok out))).getD ((db.ring g).Submitted e) := by
  cases ht
  case same hn => simp [keying_of_not_rings hn]
  case enrolled => simp [keying, KeyRing.submitted_append, Db.keyOf, Db.newKey]
  case rotated  => simp [keying, KeyRing.rotate, KeyRing.submitted_append]
  case retired  => simp [keying, KeyRing.submitted_delete]
  case dropped e' _ =>
    by_cases he : e' = e
    case neg => simp [keying, he, KeyRing.submitted_delete]
    case pos => simp [keying, he, KeyRing.Submitted, KeyRing.delete]
  case promoted e' _ =>
    by_cases he : e' = e
    case neg =>
      simp only [keying, he, and_false, if_false, Option.getD_none, decide_eq_true_eq]
      refine KeyRing.submitted_map fun k _ => ⟨KeyRing.promoteRow_epoch k, fun hk => ?_⟩
      have hk : k.1 ≠ e' := fun h => he (h.symm.trans hk)
      simp only [KeyRing.promoteRow, if_neg hk]
      split <;> simp_all
    case pos =>
      simp only [keying, he, and_self, if_true, Option.getD_some, Bool.false_eq_true, iff_false]
      rintro ⟨_, hk, h₁, h₂, _⟩
      obtain ⟨k, _, hf⟩ := List.mem_map.mp hk
      rw [← hf, KeyRing.promoteRow_epoch] at h₁
      rw [← hf, KeyRing.promoteRow_active.mpr h₁] at h₂
      cases h₂
  case submitted e' p ha =>
    by_cases he : e' = e ∧ p ≠ AWAITING_SUBMISSION_SENTINEL
    case pos =>
      have hm : (e, p, .pending) ∈ (db.ring g).submit e p :=
        List.mem_map.mpr ⟨_, he.1 ▸ ha, by simp [KeyRing.submitRow]⟩
      simpa [keying, he] using ⟨_, hm, rfl, rfl, he.2⟩
    case neg =>
      simp only [keying, he, and_false, if_false, Option.getD_none, decide_eq_true_eq]
      refine KeyRing.submitted_map fun k _ => ⟨KeyRing.submitRow_epoch k, fun hk => ?_⟩
      rw [KeyRing.submitRow]
      split
      case isFalse     => rfl
      case isTrue hrow => simp_all

end Commit

section Run

variable [Ipnet] [Sha256] [IpnetV6] [PolicyText] [Base64]

theorem submitted_step (hs : Pool.Step rules s ev t) :
    (t.shared.db.ring g).Submitted e ↔
      (keying g e ev).getD ((s.shared.db.ring g).Submitted e) := by
  cases hs
  case spawn => simp [keying]
  case halt  => simp [keying, rules, Ctl.restart]
  case env he => cases he <;> simp [keying]
  case op i o x _ _ _ ha =>
    cases o
    case tx tx =>
      cases x
      case error => rw [Ctl.Answers.tx_error ha]; simp [keying]
      case ok x  =>
        exact submitted_turn (Db.ringTurn_of_ok (Db.transact_of_commit (Ctl.Answers.tx_ok ha).1))
    all_goals
      rw [Ctl.Answers.db ha fun _ => nofun]
      simp [keying]

abbrev job (g i : Nat) (h : History) : Job :=
  Pool.view (Job.track g) {} i h

-- What a task has read stays as it is until it reads again.
omit [Ipnet] [Sha256] [IpnetV6] [PolicyText] [Base64] in
theorem rows_of_not_readBy {h : History} (hr : readBy i g ev = false) :
    (job g i ((s, ev) :: h)).rows = (job g i h).rows := by
  refine Pool.view_cons (I := fun j : Job => j.rows = (job g i h).rows) ev (fun o x he => ?_)
    fun _ => rfl
  have hw := Job.went g o (job g i h) x
  generalize Job.track g o (job g i h) x = j at hw
  cases hw
  case read     => simp [he, readBy] at hr
  case promoted => exact Job.owe_rows
  case retired  => exact Job.owe_rows
  case dropped  => exact Job.owe_rows
  case absent   => exact Job.owe_rows
  all_goals rfl

theorem rows_of_readBy (hs : Pool.Step rules s ev t) (hr : readBy i g ev) :
    (job g i ((s, ev) :: h)).rows = some (s.shared.db.ring g) ∧ t.shared.db = s.shared.db := by
  fun_cases readBy i g ev
  case case2 => simp [readBy] at hr
  case case1 j g' keys =>
    have ⟨hj, hg⟩ : j = i ∧ g' = g := by simpa [readBy] using hr
    subst hj hg
    cases hs
    case op ht ha =>
      have ⟨hk, hc⟩ := Ctl.Answers.query_ok ha
      exact ⟨by rw [job, Pool.view_op_self, hk]; simp [Job.track, Db.ask], congrArg Ctl.db hc⟩

-- Where the epoch has a key, the task has read of it or it has come since.
theorem submitted_run (r : Runs h s) (hk : keys ∈ (job g i h).rows)
    (hs : (s.shared.db.ring g).Submitted e) : KeyRing.Submitted keys e ∨ keyedSince i g e h := by
  induction r
  case start => cases hk
  case step h s ev t r hst ih =>
    rw [keyedSince]
    split
    case isTrue hr =>
      have ⟨hrows, hd⟩ := rows_of_readBy (h := h) hst hr
      rw [hrows] at hk
      exact .inl (Option.some.inj hk ▸ hd ▸ hs)
    case isFalse hr =>
      rw [rows_of_not_readBy (by simpa using hr)] at hk
      rw [submitted_step hst] at hs
      cases hv : keying g e ev
      case none   => exact ih hk (by simpa [hv] using hs)
      case some b => exact .inr (by simpa [hv] using hs)

theorem submitted_of_keyedSince (r : Runs h s) (hk : keyedSince i g e h) :
    (s.shared.db.ring g).Submitted e := by
  induction r
  case start => cases hk
  case step h s ev t r hs ih =>
    rw [submitted_step hs]
    rw [keyedSince] at hk
    split at hk
    case isTrue => cases hk
    case isFalse =>
      cases hv : keying g e ev
      all_goals simp_all

end Run

section Abort

variable [Ipnet] [Sha256] [IpnetV6] [PolicyText] {c c' : Ctl}

-- A driver that has decided to abort has read of no key.
def Forsaken (j : Job) : Prop :=
  ∀ e reason taken, j.stage = .decided (.abort e reason) taken →
    ∃ keys ∈ j.rows, ¬ KeyRing.Submitted keys e

theorem forsaken_step (hj : Forsaken j) (hm : Job.May g o j) (ha : Ctl.Answers c o x c') :
    Forsaken (Job.track g o j x) := by
  have hw := Job.went g o j x
  generalize Job.track g o j x = j' at hw
  intro e reason taken he
  cases hw
  case same => exact hj e reason taken he
  case planned keys readAt d taken' =>
    cases he
    have hp := (Ctl.Answers.exec ha (fun _ => nofun) fun _ => nofun).1.symm
    have ⟨t, _, _, _, hd⟩ := Rotations.plan_some hp
    refine ⟨keys, hm rfl, fun hs => ?_⟩
    cases hd
    case abort hk _ =>
      rw [Rotations.stateOf_pendingHasRealKey.mpr hs] at hk
      cases hk
  case promoted => exact absurd he Job.owe_stage_ne
  case retired  => exact absurd he Job.owe_stage_ne
  case dropped  => exact absurd he Job.owe_stage_ne
  case absent   => exact absurd he Job.owe_stage_ne
  all_goals cases he

end Abort

section Run

variable [Ipnet] [Sha256] [IpnetV6] [PolicyText] [Base64]

theorem forsaken_run (r : Runs h s) : Forsaken (job g i h) := by
  induction r
  case start => exact nofun
  case step h s ev t r hs ih =>
    refine Pool.view_cons ev (fun o x he => ?_) fun _ => ih
    subst he
    have hm := Pool.pre_view (fun q => drives_handle (g := g) q {}) (r.step hs)
    cases hs
    case op ha => exact forsaken_step ih hm ha

-- An abort meets a key just where it has come since the read that the abort was decided by.
theorem submitted_iff_keyedSince (r : Runs h s)
    (hs : Pool.Step rules s (.op i (.tx (.dropPendingEpoch g e)) (.ok .dropped)) t) :
    (s.shared.db.ring g).Submitted e ↔ keyedSince i g e h := by
  refine ⟨fun hk => ?_, submitted_of_keyedSince r⟩
  have ⟨reason, taken, hd⟩ := Pool.pre_view (fun q => drives_handle (g := g) q {}) (r.step hs) rfl
  have ⟨keys, hr, hn⟩ := forsaken_run r e reason taken hd
  exact (submitted_run r hr hk).resolve_left hn

-- Aborts spare all keys if and only if none comes between the read and the abort.
theorem aborts_spare_keys_iff (r : Runs h s) :
    Run.Along (fun _ => DropsUnkeyed) h ↔ Run.Along (fun h _ => DropsAsRead h) h := by
  induction r
  case start => exact Iff.rfl
  case step h s ev t r hs ih =>
    refine and_congr (forall₂_congr fun a ha => ?_) ih
    fun_cases aborting ev
    case case2 => simp_all [aborting]
    case case1 i g e =>
      cases ha
      rw [submitted_iff_keyedSince r hs, Bool.not_eq_true]

end Run
section Example

open StandIn

-- The abort of the first epoch is decided, and its key comes before the abort is carried out.
def lateKey : Moves :=
  opening ++ calls 3 [.rotateKey 1, .sweepRotations] ++ tick ABORT_AFTER ++
  [.spawn .sweepRotations, .run 5 7, .spawn (.submitEpochKey "gw-aa" 1 "one" 0), .run 6 3, .run 5 1,
    .run 6 99]

set_option maxRecDepth 10000 in
theorem aborts_spare_keys_iff_lateKey :
    (played lateKey).2.shared.db.ring 1 = [(0, "placeholder-pubkey-gw1-epoch0", .active)] ∧
    ¬ Run.Along (fun _ => DropsUnkeyed) (played lateKey).1 :=
  have asRead : ¬ Run.Along (fun h _ => DropsAsRead h) (played lateKey).1 := by decide +kernel
  ⟨by decide +kernel, mt (aborts_spare_keys_iff (runs_played lateKey)).mp asRead⟩

end Example
end Controller
