import WireMesh.Controller.StandIn
import WireMesh.Controller.Theorems.Aborts

-- One rotation of a gateway from its start to the end of the old key, in a run that starts each
-- rotation from rest.
namespace Controller

open Policy

-- When the epoch was demoted by this process. One that starts over does not know of earlier promotions,
-- and its sweep deletes what they have left behind at once.
def demotedAt (g e : Nat) : History → Option Instant
  | []                                                          => none
  | (_, .halt) :: _                                             => none
  | (s, .op _ (.tx (.promoteEpoch g' _)) (.ok .applied)) :: h =>
    if g' = g ∧ (s.shared.db.ring g).Has e .active then some s.shared.clock else demotedAt g e h
  | _ :: h                                                      => demotedAt g e h

-- Nothing of an earlier rotation is left: no other key, no tracker, and no call that has read the keys.
def Rested (g : Nat) (h : History) (s : System) : Prop :=
  (∀ k ∈ s.shared.db.ring g, k.2.2 = .active) ∧ s.shared.rotations g = none ∧
    ∀ i < s.tasks.length, s.live i → (job g i h).rows = none

-- The gateway that a rotation is started for, and the epoch of a gateway whose key is deleted.
def starting : SystemEvent → Option Nat
  | .op _ (.tx (.rotateKey g)) (.ok _) => some g
  | _                                  => none

def retiring : SystemEvent → Option (Nat × Nat)
  | .op _ (.tx (.retireEpoch g e)) (.ok .applied) => some (g, e)
  | _                                             => none

def StartsRested (h : History) (s : System) (ev : SystemEvent) : Prop :=
  ∀ g ∈ starting ev, Rested g h s

-- A key that a promotion of this process has demoted is deleted after the grace.
def KeepsGrace (h : History) (s : System) (ev : SystemEvent) : Prop :=
  ∀ r ∈ retiring ev, ∀ since ∈ demotedAt r.1 r.2 h, since + RETIRE_GRACE ≤ s.shared.clock

instance (g : Nat) (h : History) (s : System) : Decidable (Rested g h s) :=
  inferInstanceAs (Decidable ((∀ k ∈ s.shared.db.ring g, _) ∧ s.shared.rotations g = none ∧ _))

instance (h : History) (s : System) (ev : SystemEvent) : Decidable (StartsRested h s ev) :=
  inferInstanceAs (Decidable (∀ g ∈ starting ev, _))

instance (h : History) (s : System) (ev : SystemEvent) : Decidable (KeepsGrace h s ev) :=
  inferInstanceAs (Decidable (∀ r ∈ retiring ev, _))

-- What a driver may know and have decided in the rotation from `p` to `e`, before and after the
-- promotion at the instant `promoted`.
structure Suits (e p : Nat) (promoted : Option Instant) (now : Instant) (tracked : Prop) (j : Job) :
    Prop where
  rows : ∀ keys ∈ j.rows, selectLivePending keys = some (e, some p) ∧ retiringEpochs keys = [] ∨
    promoted.isSome ∧ selectLivePending keys = none
  decided : ∀ d taken, j.stage = .decided d taken → tracked ∧
    (d = .wait ∨ d = .promote e ∨ (∃ reason, d = .abort e reason) ∨
      d = .retire p ∧ ∃ since ∈ promoted, since + RETIRE_GRACE ≤ now)
  due : ∀ taken effect, j.stage = .due taken effect → effect = .promoted ∧ promoted.isSome
  orphans : j.stage = .orphans → ∀ keys ∈ j.rows, retiringEpochs keys = []

-- A tracker of that rotation.
structure Watches (e p : Nat) (promoted : Option Instant) (t : RotationTracker) : Prop where
  pending : t.pendingEpoch = e
  prior : t.priorActiveEpoch = some p
  since : ∀ since ∈ t.promotedAt, ∃ since' ∈ promoted, since' ≤ since

-- The keys and the tracker of the gateway in that rotation.
structure Era (g e p : Nat) (promoted : Option Instant) (h : History) (c : Ctl) : Prop where
  ne : p ≠ e
  before : promoted = none → ∃ k x, c.db.ring g = [(p, k, .active), (e, x, .pending)]
  after : ∀ since ∈ promoted, (∃ k x, c.db.ring g = [(p, k, .retiring), (e, x, .active)]) ∧
    demotedAt g p h = some since ∧ since ≤ c.clock
  tracker : ∀ t ∈ c.rotations g, Watches e p promoted t
  tracked : promoted.isSome → (c.rotations g).isSome

-- No epoch is pending, and none is left of those that this process has demoted.
structure Calm (g : Nat) (h : History) (c : Ctl) : Prop where
  resting : (c.db.ring g).Resting
  demoted : ∀ e, (c.db.ring g).Has e .retiring → demotedAt g e h = none

inductive Phase (g : Nat) (h : History) (s : System) : Prop
  | calm : Calm g h s.shared → Phase g h s
  | rotating : Era g e p promoted h s.shared →
      (∀ i, s.live i → Suits e p promoted s.shared.clock (s.shared.rotations g).isSome (job g i h)) →
      Phase g h s

section Db

variable [Ipnet] [Sha256] [IpnetV6] [PolicyText] {db db' : Db}

theorem Db.absent_of_commit (h : db.commit (.dropPendingEpoch g e) = (.ok .rowAbsent, db')) :
    ∀ k ∈ db.ring g, k.1 ≠ e := by
  have h : db.dropPendingEpoch g e = (.rowAbsent, db') := Except.ok.inj (transact_of_commit h)
  rw [dropPendingEpoch] at h
  split at h
  case isTrue => cases h
  case isFalse =>
    split at h
    case h_2 => cases h
    case h_1 hf =>
      intro k hk he
      obtain ⟨row, hm, hg, hr⟩ := mem_ring.mp hk
      have hn := List.find?_eq_none.mp hf row hm
      simp [hg, ← he, ← hr, keyOf] at hn

end Db

theorem demotedAt_op {h : History} (ho : ∀ tx, o ≠ .tx tx) :
    demotedAt g e ((s, .op i o x) :: h) = demotedAt g e h := by
  cases o
  case tx tx => exact absurd rfl (ho tx)
  all_goals rfl

theorem demotedAt_of_not_rings {h : History} (hn : ¬ Db.Rings g tx out) :
    demotedAt g e ((s, .op i (.tx tx) (.ok out)) :: h) = demotedAt g e h := by
  cases tx
  case promoteEpoch g' _ =>
    cases out
    case noMatch => rfl
    case applied => exact if_neg fun h => hn h.1
  all_goals rfl

section Suits

variable {e p : Nat} {promoted promoted' : Option Instant} {now now' : Instant}
  {tracked tracked' : Prop} {j : Job}

theorem Suits.start : Suits e p promoted now tracked {} where
  rows    := nofun
  decided := fun _ _ => nofun
  due     := fun _ _ => nofun
  orphans := nofun

theorem Suits.mono (h : Suits e p promoted now tracked j) (hp : ∀ since ∈ promoted, since ∈ promoted')
    (hn : now ≤ now') (ht : tracked → tracked') : Suits e p promoted' now' tracked' j := by
  have some : promoted.isSome → promoted'.isSome := fun hs => by
    have ⟨since, hs⟩ := Option.isSome_iff_exists.mp hs
    exact Option.isSome_of_mem (hp since hs)
  refine ⟨fun keys hk => (h.rows keys hk).imp_right fun hr => ⟨some hr.1, hr.2⟩, fun d taken hd => ?_,
    fun taken effect hd => (h.due taken effect hd).imp_right some, h.orphans⟩
  have ⟨ht', hd⟩ := h.decided d taken hd
  refine ⟨ht ht', hd.imp_right (·.imp_right (·.imp_right fun ⟨hd, since, hs, hl⟩ => ?_))⟩
  exact ⟨hd, since, hp since hs, hl.trans hn⟩

-- A driver that has just read the keys, or has nothing to carry out.
theorem Suits.idle
    (rows : ∀ keys ∈ j.rows, selectLivePending keys = some (e, some p) ∧ retiringEpochs keys = [] ∨
      promoted.isSome ∧ selectLivePending keys = none) (hs : j.stage = .idle) :
    Suits e p promoted now tracked j where
  rows    := rows
  decided := by simp [hs]
  due     := by simp [hs]
  orphans := by simp [hs]

theorem Suits.live (h : Suits e p promoted now tracked j) (hk : keys ∈ j.rows) :
    selectLivePending keys = some (e, some p) ∨ selectLivePending keys = none :=
  (h.rows keys hk).imp And.left And.right

end Suits

section Era

variable {g e p : Nat} {promoted : Option Instant} {h h' : History} {c c' : Ctl}

theorem Era.congr (era : Era g e p promoted h c) (hr : c'.db.ring g = c.db.ring g)
    (ht : c'.rotations g = c.rotations g) (hc : c.clock ≤ c'.clock)
    (hd : demotedAt g p h' = demotedAt g p h) : Era g e p promoted h' c' where
  ne := era.ne
  before := hr ▸ era.before
  after since hs := have ⟨ring, hd', hl⟩ := era.after since hs
    ⟨hr ▸ ring, hd.trans hd', hl.trans hc⟩
  tracker := ht ▸ era.tracker
  tracked := ht ▸ era.tracked

theorem Era.exists_epoch (era : Era g e p promoted h c) : ∃ k ∈ c.db.ring g, k.1 = e := by
  cases promoted
  case none =>
    have ⟨k, x, hr⟩ := era.before rfl
    exact ⟨(e, x, .pending), by simp [hr], rfl⟩
  case some since =>
    have ⟨⟨k, x, hr⟩, _⟩ := era.after since rfl
    exact ⟨(e, x, .active), by simp [hr], rfl⟩

theorem Era.ring_ne_nil (era : Era g e p promoted h c) : c.db.ring g ≠ [] := by
  have ⟨_, hk, _⟩ := era.exists_epoch
  exact List.ne_nil_of_mem hk

theorem Era.not_active (era : Era g e p promoted h c) : ¬ ∀ k ∈ c.db.ring g, k.2.2 = .active := by
  cases promoted
  case none =>
    have ⟨k, x, hr⟩ := era.before rfl
    simp [hr]
  case some since =>
    have ⟨⟨k, x, hr⟩, _⟩ := era.after since rfl
    simp [hr]

theorem Era.none_of_pending (era : Era g e p promoted h c) (hp : (c.db.ring g).Has e' .pending) :
    promoted = none ∧ e' = e := by
  have ⟨row, hm, he, hs⟩ := hp
  cases promoted
  case none =>
    have ⟨k, x, hr⟩ := era.before rfl
    rw [hr] at hm
    simp only [List.mem_cons, List.not_mem_nil, or_false] at hm
    cases hm
    case inl hm => simp [hm] at hs
    case inr hm => exact ⟨rfl, by rw [← he, hm]⟩
  case some since =>
    have ⟨⟨k, x, hr⟩, _⟩ := era.after since rfl
    rw [hr] at hm
    simp only [List.mem_cons, List.not_mem_nil, or_false] at hm
    cases hm <;> simp_all

theorem Era.some_of_retiring (era : Era g e p promoted h c) (hp : (c.db.ring g).Has e' .retiring) :
    promoted.isSome ∧ e' = p := by
  have ⟨row, hm, he, hs⟩ := hp
  cases promoted
  case none =>
    have ⟨k, x, hr⟩ := era.before rfl
    rw [hr] at hm
    simp only [List.mem_cons, List.not_mem_nil, or_false] at hm
    cases hm <;> simp_all
  case some since =>
    have ⟨⟨k, x, hr⟩, _⟩ := era.after since rfl
    rw [hr] at hm
    simp only [List.mem_cons, List.not_mem_nil, or_false] at hm
    cases hm
    case inl hm => exact ⟨rfl, by rw [← he, hm]⟩
    case inr hm => simp [hm] at hs

theorem Era.reshaped (era : Era g e p promoted h c)
    (before : promoted = none → ∃ k x, c'.db.ring g = [(p, k, .active), (e, x, .pending)])
    (after : ∀ since ∈ promoted, (∃ k x, c'.db.ring g = [(p, k, .retiring), (e, x, .active)]) ∧
      demotedAt g p h' = some since ∧ since ≤ c'.clock) (hr : c'.rotations = c.rotations) :
    Era g e p promoted h' c' :=
  ⟨era.ne, before, after, hr ▸ era.tracker, hr ▸ era.tracked⟩

-- What a driver reads of the keys in the rotation.
theorem Era.reads (era : Era g e p promoted h c) :
    selectLivePending (c.db.ring g) = some (e, some p) ∧ retiringEpochs (c.db.ring g) = [] ∨
      promoted.isSome ∧ selectLivePending (c.db.ring g) = none := by
  cases promoted
  case none =>
    have ⟨k, x, hr⟩ := era.before rfl
    exact .inl (by simp [hr, selectLivePending, retiringEpochs])
  case some since =>
    have ⟨⟨k, x, hr⟩, _⟩ := era.after since rfl
    exact .inr (by simp [hr, selectLivePending])

-- A tracker is seeded for the rotation, if at all.
theorem Era.seeded (era : Era g e p promoted h c) (readAt now : Instant)
    (hl : live = some (e, some p) ∨ live = none) :
    (∀ t ∈ c.rotations.seed g live readAt now g, Watches e p promoted t) ∧
    ((c.rotations g).isSome → (c.rotations.seed g live readAt now g).isSome) := by
  cases Rotations.seed_self c.rotations g live readAt now
  case inl h => exact h.symm ▸ ⟨era.tracker, id⟩
  case inr h =>
    have ⟨l, hl', _, h⟩ := h
    have hl : l = (e, some p) := by simpa [hl'] using hl
    rw [h, hl]
    refine ⟨fun t ht => ?_, fun _ => rfl⟩
    cases ht
    exact ⟨rfl, rfl, nofun⟩

theorem Era.seededAbsent (era : Era g e p promoted h c) (now : Instant)
    (hl : ∀ l, (g, some l) ∈ seeds → l = (e, some p)) :
    (∀ t ∈ Rotations.seedAbsent now seeds c.rotations g, Watches e p promoted t) ∧
    ((c.rotations g).isSome → (Rotations.seedAbsent now seeds c.rotations g).isSome) := by
  cases Rotations.seedAbsent_self now seeds c.rotations g
  case inl h => exact h.symm ▸ ⟨era.tracker, id⟩
  case inr h =>
    have ⟨_, l, hm, h⟩ := h
    rw [h, hl l hm]
    refine ⟨fun t ht => ?_, fun _ => rfl⟩
    cases ht
    exact ⟨rfl, rfl, nofun⟩

-- What a driver decides for the tracker of the rotation.
theorem Watches.decides (ht : Watches e p promoted t)
    (hd : Decides (Rotations.stateOf t keys peers) now d) :
    d = .wait ∨ d = .promote e ∨ (∃ reason, d = .abort e reason) ∨
      d = .retire p ∧ ∃ since ∈ promoted, since + RETIRE_GRACE ≤ now := by
  have ⟨he, hp, hs⟩ := ht
  cases hd
  case wait           => exact .inl rfl
  case finished hn    => cases hp.symm.trans hn
  case promote        => exact .inr (.inl (he ▸ rfl))
  case abort reason _ _ _ => exact .inr (.inr (.inl ⟨reason, he ▸ rfl⟩))
  case retire since p' hsince hp' hl =>
    have ⟨since', hm, hl'⟩ := hs since hsince
    cases hp.symm.trans hp'
    exact .inr (.inr (.inr ⟨rfl, since', hm, (Nat.add_le_add_right hl' _).trans hl⟩))

theorem Watches.promote (ht : Watches e p none t) : Watches e p (some now) t :=
  ⟨ht.pending, ht.prior, fun since hs => by
    have ⟨_, hn, _⟩ := ht.since since hs
    cases hn⟩

theorem Watches.heard (ht : Watches e p promoted t) (hh : Rotations.Heard t t') :
    Watches e p promoted t' := by
  rw [hh.same]
  exact ⟨ht.pending, ht.prior, ht.since⟩

end Era

section Jobs

variable [Ipnet] [Sha256] [IpnetV6] [PolicyText] [Base64] {e p : Nat} {promoted promoted' : Option Instant}

theorem suits_op (run : Runs h s) (hs : Pool.Step rules s (.op i o x) t)
    (jobs : ∀ i, s.live i → Suits e p promoted now tracked (job g i h))
    (rest : ∀ j, Suits e p promoted now tracked j → Suits e p promoted' now' tracked' j)
    (own : Suits e p promoted now tracked (job g i h) →
      Suits e p promoted' now' tracked' (Job.track g o (job g i h) x)) :
    ∀ j, t.live j → Suits e p promoted' now' tracked' (job g j ((s, .op i o x) :: h)) :=
  Pool.views_step run hs (fun _ => nofun) (fun i' o' x' he hl => by cases he; exact own (jobs i hl))
    fun j hl _ => rest _ (jobs j hl)

theorem may_run (run : Runs h s) (hs : Pool.Step rules s (.op i o x) t) : Job.May g o (job g i h) :=
  Pool.pre_view (fun q => drives_handle q {}) (run.step hs)

variable (run : Runs h s) (era : Era g e p promoted h s.shared)
  (jobs : ∀ i, s.live i → Suits e p promoted s.shared.clock (s.shared.rotations g).isSome (job g i h))
include run era jobs

-- An operation that leaves the keys, the tracker and what its driver knows alone.
theorem rotating_same (hs : Pool.Step rules s (.op i o x) t)
    (hr : t.shared.db.ring g = s.shared.db.ring g) (ht : t.shared.rotations g = s.shared.rotations g)
    (hc : t.shared.clock = s.shared.clock)
    (hd : demotedAt g p ((s, .op i o x) :: h) = demotedAt g p h)
    (own : ∀ {tracked}, Suits e p promoted s.shared.clock tracked (job g i h) →
      Suits e p promoted s.shared.clock tracked (Job.track g o (job g i h) x)) :
    Phase g ((s, .op i o x) :: h) t :=
  .rotating (era.congr hr ht (le_of_eq hc.symm) hd) <| hc ▸ ht ▸ suits_op run hs jobs (fun _ h => h) own

theorem rotating_query (hs : Pool.Step rules s (.op i (.query q) x) t) :
    Phase g ((s, .op i (.query q) x) :: h) t := by
  have step := hs
  cases hs
  case op next ht ha =>
    have hc := Ctl.Answers.query ha
    subst hc
    refine rotating_same run era jobs step rfl rfl rfl (demotedAt_op fun _ => nofun) fun suits => ?_
    have hw := Job.went g (.query q) (job g i h) x
    generalize Job.track g (.query q) (job g i h) x = j at hw
    cases hw
    case same => exact suits
    case read =>
      refine Suits.idle (fun keys hk => ?_) rfl
      cases hk
      rw [(Ctl.Answers.query_ok ha).1]
      exact era.reads

-- What is done to the tracker in the rotation.
theorem rotating_tracker (hs : Pool.Step rules s (.op i o x) t)
    (hr : t.shared.db.ring g = s.shared.db.ring g) (hc : t.shared.clock = s.shared.clock)
    (hd : demotedAt g p ((s, .op i o x) :: h) = demotedAt g p h)
    (ht : ∀ tracker ∈ t.shared.rotations g, Watches e p promoted tracker)
    (hk : (s.shared.rotations g).isSome → (t.shared.rotations g).isSome)
    (own : Suits e p promoted s.shared.clock (s.shared.rotations g).isSome (job g i h) →
      Suits e p promoted s.shared.clock (t.shared.rotations g).isSome
        (Job.track g o (job g i h) x)) :
    Phase g ((s, .op i o x) :: h) t := by
  refine .rotating ⟨era.ne, hr ▸ era.before, fun since hm => ?_, ht, fun hp => hk (era.tracked hp)⟩ ?_
  case refine_1 =>
    have ⟨ring, hd', hl⟩ := era.after since hm
    exact ⟨hr ▸ ring, hd.trans hd', hc ▸ hl⟩
  case refine_2 =>
    exact hc ▸ suits_op run hs jobs (fun _ h => h.mono (fun _ h => h) (le_refl _) hk) own

theorem rotating_seed (hs : Pool.Step rules s (.op i (.seedRotation g' live readAt) x) t) :
    Phase g ((s, .op i (.seedRotation g' live readAt) x) :: h) t := by
  have may := may_run (g := g) run hs
  have step := hs
  cases hs
  case op next ht ha =>
    have ⟨_, hc⟩ := Ctl.Answers.exec ha (fun _ => nofun) fun _ => nofun
    subst hc
    by_cases hg : g' = g
    case neg =>
      exact rotating_same run era jobs step rfl (Rotations.seed_ne (Ne.symm hg)) rfl
        (demotedAt_op fun _ => nofun) id
    case pos =>
      subst hg
      have ⟨keys, hk, hl⟩ := may rfl
      have suits := jobs i (Pool.live_of_getElem? ht)
      have ⟨watches, keeps⟩ := era.seeded readAt s.shared.clock (hl ▸ suits.live hk)
      refine rotating_tracker run era jobs step rfl rfl (demotedAt_op fun _ => nofun) watches keeps
        fun suits => ?_
      exact suits.mono (fun _ h => h) (le_refl _) keeps

theorem rotating_plan (hs : Pool.Step rules s (.op i (.planRotation g' keys readAt) x) t) :
    Phase g ((s, .op i (.planRotation g' keys readAt) x) :: h) t := by
  have may := may_run (g := g) run hs
  have step := hs
  cases hs
  case op next ht ha =>
    obtain ⟨hx, hc⟩ := Ctl.Answers.exec ha (by simp) (by simp)
    subst hc
    by_cases hg : g' = g
    case neg =>
      refine rotating_same run era jobs step rfl (Rotations.seed_ne (Ne.symm hg)) rfl
        (demotedAt_op (by simp)) ?_
      cases x <;> simp [Job.track, hg]
    case pos =>
      subst hg
      have suits := jobs i (Pool.live_of_getElem? ht)
      obtain ⟨watches, keeps⟩ := era.seeded readAt s.shared.clock (suits.live (may rfl))
      refine rotating_tracker run era jobs step rfl rfl (demotedAt_op (by simp)) watches keeps
        fun suits => ?_
      have hw := Job.went g' (.planRotation g' keys readAt) (job g' i h) x
      generalize Job.track g' (.planRotation g' keys readAt) (job g' i h) x = j at hw
      cases hw
      case same => exact suits.mono (fun _ h => h) (le_refl _) keeps
      case planned d taken =>
        obtain ⟨tracker, peers, hp, _, hd⟩ := Rotations.plan_some hx.symm
        refine ⟨suits.rows, fun d' taken' he => ?_, (by simp), by simp⟩
        cases he
        exact ⟨Option.isSome_of_mem hp, (watches tracker hp).decides hd⟩

theorem rotating_effect (hs : Pool.Step rules s (.op i (.trackerEffect g' taken effect) x) t) :
    Phase g ((s, .op i (.trackerEffect g' taken effect) x) :: h) t := by
  have may := may_run (g := g) run hs
  have step := hs
  cases hs
  case op next ht ha =>
    obtain ⟨_, hc⟩ := Ctl.Answers.exec ha (by simp) (by simp)
    subst hc
    by_cases hg : g' = g
    case neg =>
      refine rotating_same run era jobs step rfl (Rotations.applyEffect_ne (Ne.symm hg)) rfl
        (demotedAt_op (by simp)) ?_
      simp [Job.track, hg]
    case pos =>
      subst hg
      have suits := jobs i (Pool.live_of_getElem? ht)
      -- Nothing but the promotion of this rotation has an effect that is due.
      obtain ⟨he, hp⟩ : effect = .promoted ∧ promoted.isSome := by
        cases may rfl
        case inl hd => exact suits.due taken effect hd
        case inr hd =>
          have hd := (suits.decided _ _ hd.1).2
          simp at hd
      subst he
      obtain ⟨since, hm⟩ := Option.isSome_iff_exists.mp hp
      have own {tracked tracked'} (suits : Suits e p promoted s.shared.clock tracked (job g' i h)) :
          Suits e p promoted s.shared.clock tracked'
            (Job.track g' (.trackerEffect g' taken .promoted) (job g' i h) x) :=
        Suits.idle (by simpa [Job.track] using suits.rows) (by simp [Job.track])
      cases Rotations.applyEffect_promoted s.shared.rotations g' taken s.shared.clock
      case inl hr => exact rotating_same run era jobs step rfl hr rfl (demotedAt_op (by simp)) own
      case inr hr =>
        obtain ⟨tracker, hr, hr'⟩ := hr
        refine rotating_tracker run era jobs step rfl rfl (demotedAt_op (by simp))
          (fun t' ht' => ?_) (fun _ => ?_) own
        case refine_1 =>
          cases hr'.symm.trans ht'
          obtain ⟨he, hp, _⟩ := era.tracker tracker hr
          refine ⟨he, hp, fun since' hs => ⟨since, hm, ?_⟩⟩
          cases hs
          exact (era.after since hm).2.2
        case refine_2 => exact Option.isSome_of_mem hr'

theorem rotating_hasTracker (hs : Pool.Step rules s (.op i (.hasTracker g') x) t) :
    Phase g ((s, .op i (.hasTracker g') x) :: h) t := by
  have step := hs
  cases hs
  case op next ht ha =>
    have ⟨hx, hc⟩ := Ctl.Answers.exec ha (fun _ => nofun) fun _ => nofun
    subst hc
    refine rotating_same run era jobs step rfl rfl rfl (demotedAt_op fun _ => nofun) fun suits => ?_
    have hw := Job.went g (.hasTracker g') (job g i h) x
    generalize Job.track g (.hasTracker g') (job g i h) x = j at hw
    cases hw
    case same => exact suits
    case untracked =>
      refine ⟨suits.rows, fun _ _ => nofun, fun _ _ => nofun, fun _ keys hk => ?_⟩
      cases suits.rows keys hk
      case inl h => exact h.2
      case inr h =>
        have hn : false = (s.shared.rotations g).isSome := hx
        rw [era.tracked h.1] at hn
        cases hn

theorem rotating_acks (hs : Pool.Step rules s (.op i (.recordAcks reporting seeds acks) x) t) :
    Phase g ((s, .op i (.recordAcks reporting seeds acks) x) :: h) t := by
  have may := may_run (g := g) run hs
  have step := hs
  cases hs
  case op next ht ha =>
    have ⟨_, hc⟩ := Ctl.Answers.exec ha (fun _ => nofun) fun _ => nofun
    subst hc
    have suits := jobs i (Pool.live_of_getElem? ht)
    have tells l (hm : (g, some l) ∈ seeds) : l = (e, some p) := by
      have ⟨keys, hk, hl⟩ := may l hm
      simpa [hl] using suits.live hk
    have ⟨watches, keeps⟩ := era.seededAbsent s.shared.clock tells
    cases hr : Rotations.seedAbsent s.shared.clock seeds s.shared.rotations g
    case none =>
      have hr' := Rotations.recordAcks_none reporting acks hr
      have none : s.shared.rotations g = none := by
        cases hn : s.shared.rotations g
        case none => rfl
        case some => simp [hn, hr] at keeps
      exact rotating_same run era jobs step rfl (hr'.trans none.symm) rfl
        (demotedAt_op fun _ => nofun) id
    case some tracker =>
      have ⟨tracker', hr', heard, _⟩ := Rotations.recordAcks_some reporting acks hr
      have keeps : (s.shared.rotations g).isSome →
          (Rotations.recordAcks reporting acks
            (Rotations.seedAbsent s.shared.clock seeds s.shared.rotations) g).isSome :=
        fun _ => Option.isSome_of_mem hr'
      refine rotating_tracker run era jobs step rfl rfl (demotedAt_op fun _ => nofun)
        (fun t' ht' => ?_) keeps fun suits => ?_
      case refine_1 =>
        cases hr'.symm.trans ht'
        exact (watches tracker hr).heard heard
      case refine_2 => exact suits.mono (fun _ h => h) (le_refl _) keeps

-- What is retired in the rotation has had its grace.
theorem rotating_grace (hs : Pool.Step rules s (.op i (.tx (.retireEpoch g e')) (.ok .applied)) t) :
    ∀ since ∈ demotedAt g e' h, since + RETIRE_GRACE ≤ s.shared.clock := by
  have may := may_run (g := g) run hs rfl
  cases hs
  case op next ht ha =>
    have suits := jobs i (Pool.live_of_getElem? ht)
    cases may
    case inr may =>
      have ⟨ho, keys, hk, hm⟩ := may
      rw [suits.orphans ho keys hk] at hm
      cases hm
    case inl may =>
      have ⟨taken, hd⟩ := may
      have hd := (suits.decided _ _ hd).2
      simp only [reduceCtorEq, RotationDecision.retire.injEq, exists_false, false_or] at hd
      have ⟨he, since, hm, hl⟩ := hd
      intro since' hs
      have hd := (era.after since hm).2.1
      rw [← he] at hd
      cases hd.symm.trans hs
      exact hl

-- A turn of the keys ends the rotation, promotes its epoch or leaves it as it is.
theorem rotating_tx (hs : Pool.Step rules s (.op i (.tx tx) (.ok out)) t)
    (hr : StartsRested h s (.op i (.tx tx) (.ok out))) :
    Phase g ((s, .op i (.tx tx) (.ok out)) :: h) t := by
  have may := may_run (g := g) run hs
  have step := hs
  cases hs
  case op c next ht ha =>
    have suits := jobs i (Pool.live_of_getElem? ht)
    obtain ⟨hc, hm⟩ := Ctl.Answers.tx_ok ha
    have turn : Db.RingTurn s.shared.db g tx out (c.db.ring g) :=
      Db.ringTurn_of_ok (Db.transact_of_commit hc)
    have hrot : c.rotations = s.shared.rotations := by rw [hm]
    have hclock : c.clock = s.shared.clock := by rw [hm]
    generalize hring : c.db.ring g = r at turn
    cases turn
    case same hn =>
      refine rotating_same run era jobs step hring (congrFun hrot g) hclock
        (demotedAt_of_not_rings hn) fun suits => ?_
      have hw := Job.went g (.tx tx) (job g i h) (.ok out)
      generalize Job.track g (.tx tx) (job g i h) (.ok out) = j at hw
      cases hw
      case same     => exact suits
      case promoted => exact absurd rfl hn
      case retired  => exact absurd rfl hn
      case dropped  => exact absurd rfl hn
      case absent e' =>
        -- The epoch of the rotation is there, be it pending or active.
        obtain ⟨reason, taken, hd⟩ := may rfl
        have hd := (suits.decided _ _ hd).2
        have he : e' = e := by simpa using hd
        obtain ⟨k, hk, hke⟩ := era.exists_epoch
        exact absurd (hke.trans he.symm) (Db.absent_of_commit hc k hk)
    case enrolled hg =>
      have hm := (keysOk_runs run).owned g era.ring_ne_nil
      exact absurd (hg ▸ hm) (Db.nextId_not_mem _)
    case rotated => exact absurd (hr g rfl).1 era.not_active
    case submitted e' pubkey hw =>
      obtain ⟨hn, _⟩ := era.none_of_pending ⟨(e', _, .pending), hw, rfl, rfl⟩
      subst hn
      obtain ⟨k, x, hr⟩ := era.before rfl
      have shape : ∃ k x, c.db.ring g = [(p, k, .active), (e, x, .pending)] := by
        refine ⟨k, (KeyRing.submitRow e' pubkey (e, x, .pending)).2.1, ?_⟩
        rw [hring, hr]
        simp only [KeyRing.submit, List.map_cons, List.map_nil, KeyRing.submitRow, reduceCtorEq,
          false_and, and_false, if_false]
        split <;> rfl
      refine .rotating (era.reshaped (fun _ => shape) (by simp) hrot) ?_
      exact hclock ▸ hrot ▸ suits_op run step jobs (fun _ h => h) id
    case promoted e' hsub =>
      obtain ⟨row, hrow, he, hp, _⟩ := hsub
      obtain ⟨hn, he⟩ := era.none_of_pending ⟨row, hrow, he, hp⟩
      subst hn he
      obtain ⟨k, x, hr⟩ := era.before rfl
      obtain ⟨taken, hd⟩ := may rfl
      have shape : c.db.ring g = [(p, k, .retiring), (e', x, .active)] := by
        rw [hring, hr]
        simp [KeyRing.promote, KeyRing.promoteRow, era.ne]
      have demoted : demotedAt g p ((s, .op i (.tx (.promoteEpoch g e')) (.ok .applied)) :: h) =
          some c.clock := hclock ▸ if_pos ⟨rfl, (p, k, .active), by simp [hr], rfl, rfl⟩
      have watches t (ht : t ∈ c.rotations g) : Watches e' p (some c.clock) t :=
        (era.tracker t (hrot ▸ ht)).promote
      have tracked : (c.rotations g).isSome := hrot ▸ (suits.decided _ _ hd).1
      have era' : Era g e' p (some c.clock)
          ((s, .op i (.tx (.promoteEpoch g e')) (.ok .applied)) :: h) c := by
        refine ⟨era.ne, by simp, fun since hs => ?_, watches, fun _ => tracked⟩
        cases hs
        exact ⟨⟨k, x, shape⟩, demoted, le_refl _⟩
      refine .rotating era' ?_
      refine suits_op run step jobs (fun _ h => h.mono (by simp) (le_of_eq hclock.symm) (hrot ▸ id)) ?_
      intro suits
      have owes : Job.track g (.tx (.promoteEpoch g e')) (job g i h) (.ok .applied) =
          { job g i h with stage := .due taken .promoted } := by simp [Job.track, Job.owe, hd]
      rw [owes]
      refine ⟨fun keys hk => (suits.rows keys hk).imp_right fun h => ⟨rfl, h.2⟩, (by simp), ?_,
        by simp⟩
      intro _ _ h
      cases h
      exact ⟨rfl, rfl⟩
    case retired e' hh =>
      obtain ⟨hp, he⟩ := era.some_of_retiring hh
      subst he
      obtain ⟨since, hp⟩ := Option.isSome_iff_exists.mp hp
      obtain ⟨⟨k, x, hr⟩, _⟩ := era.after since hp
      have shape : c.db.ring g = [(e, x, .active)] := by
        rw [hring, hr]
        simp [KeyRing.delete]
      exact .calm ⟨by simp [shape, KeyRing.Resting], by simp [shape, KeyRing.Has]⟩
    case dropped e' hh =>
      obtain ⟨hn, he⟩ := era.none_of_pending hh
      subst hn he
      obtain ⟨k, x, hr⟩ := era.before rfl
      have shape : c.db.ring g = [(p, k, .active)] := by
        rw [hring, hr]
        simp [KeyRing.delete]
      exact .calm ⟨by simp [shape, KeyRing.Resting], by simp [shape, KeyRing.Has]⟩

theorem rotating_step (hs : Pool.Step rules s ev t) (hr : StartsRested h s ev) :
    Phase g ((s, ev) :: h) t := by
  cases ev
  case spawn q =>
    have hj := Pool.views_step run hs (fun _ _ => Suits.start) (fun _ _ _ => nofun) fun j hl _ => jobs j hl
    cases hs
    exact .rotating (era.congr rfl rfl (le_refl _) rfl) hj
  case halt =>
    cases hs
    cases promoted
    case none =>
      have era' : Era g e p none ((s, .halt) :: h) (rules.halt s.shared) :=
        ⟨era.ne, era.before, nofun, nofun, nofun⟩
      exact .rotating era' fun i hl => absurd hl (Pool.not_live_halt i)
    case some since =>
      have ⟨⟨k, x, hr⟩, _⟩ := era.after since rfl
      have hr : (rules.halt s.shared).db.ring g = _ := hr
      exact .calm ⟨by simp [hr, KeyRing.Resting], fun _ _ => rfl⟩
  case env v =>
    have hj := Pool.views_step run hs (fun _ => nofun) (fun _ _ _ => nofun) fun j hl _ =>
      jobs j hl
    cases hs
    case env he =>
      cases he
      case tick hc =>
        exact .rotating (era.congr rfl rfl hc rfl) fun i hl => (hj i hl).mono (fun _ h => h) hc id
      case disconnect => exact .rotating (era.congr rfl rfl (le_refl _) rfl) hj
  case op i o x =>
    cases o
    case query         => exact rotating_query run era jobs hs
    case seedRotation  => exact rotating_seed run era jobs hs
    case planRotation  => exact rotating_plan run era jobs hs
    case trackerEffect => exact rotating_effect run era jobs hs
    case hasTracker    => exact rotating_hasTracker run era jobs hs
    case recordAcks    => exact rotating_acks run era jobs hs
    case tx tx =>
      cases x
      case ok => exact rotating_tx run era jobs hs hr
      case error err =>
        have step := hs
        cases hs
        case op ht ha =>
          have hc := Ctl.Answers.tx_error ha
          subst hc
          refine rotating_same run era jobs step rfl rfl rfl ?_ ?_
          case refine_1 => cases tx <;> rfl
          case refine_2 => cases tx <;> exact id
    all_goals
      have step := hs
      cases hs
      case op ht ha =>
        have ⟨_, hc⟩ := Ctl.Answers.exec ha (fun _ => nofun) fun _ => nofun
        subst hc
        exact rotating_same run era jobs step rfl rfl rfl (demotedAt_op fun _ => nofun) id

end Jobs

section Calm

variable [Ipnet] [Sha256] [IpnetV6] [PolicyText] [Base64] {g : Nat}

-- A driver that has read no keys has nothing to carry out.
theorem idle_of_unread (run : Runs h s) (hr : (job g i h).rows = none) : (job g i h).stage = .idle := by
  have all : (job g i h).rows = none → (job g i h).stage = .idle := by
    refine Pool.view_keeps (I := fun j : Job => j.rows = none → j.stage = .idle)
      (fun q => drives_handle (g := g) q {}) run (fun _ => rfl) fun o j x may hj => ?_
    have hw := Job.went g o j x
    generalize Job.track g o j x = j' at hw
    have owe {effect} (h : (j.owe effect).rows = none) : (j.owe effect).stage = .idle := by
      simp [Job.owe, hj (Job.owe_rows ▸ h)]
    cases hw
    case read      => exact fun _ => rfl
    case effected  => exact fun _ => rfl
    case same      => exact hj
    case promoted  => exact owe
    case retired   => exact owe
    case dropped   => exact owe
    case absent    => exact owe
    case planned   => exact fun h => by cases (may rfl).symm.trans h
    case untracked =>
      obtain ⟨_, _, hk, _⟩ := may rfl
      exact fun h => by cases hk.symm.trans h
  exact all hr

omit [Ipnet] [Sha256] [IpnetV6] [PolicyText] [Base64] in
theorem KeyRing.Ok.single {ring : KeyRing} (ok : ring.Ok) (ha : ∀ k ∈ ring, k.2.2 = .active) :
    ∃ p k, ring = [(p, k, .active)] := by
  have hl : ring.length = 1 := by
    rw [← ok.active, List.countP_eq_length.mpr (by simpa using ha)]
  have ⟨row, hr⟩ := List.length_eq_one_iff.mp hl
  refine ⟨row.1, row.2.1, ?_⟩
  rw [hr, ← ha row (by simp [hr])]

-- A rotation starts from rest.
theorem rested_rotates (run : Runs h s) (rested : Rested g h s)
    (hs : Pool.Step rules s (.op i (.tx (.rotateKey g)) (.ok out)) t)
    (active : s.shared.db.gatewayIsActive g) (hring : t.shared.db.ring g = (s.shared.db.ring g).rotate)
    (hrot : t.shared.rotations = s.shared.rotations) :
    Phase g ((s, .op i (.tx (.rotateKey g)) (.ok out)) :: h) t := by
  obtain ⟨ha, hn, hj⟩ := rested
  obtain ⟨p, k, hr⟩ := ((keysOk_runs run).rings g (Db.mem_ids_of_active active)).single ha
  have shape : t.shared.db.ring g =
      [(p, k, .active), (p + 1, AWAITING_SUBMISSION_SENTINEL, .pending)] := by
    rw [hring, hr]
    simp [KeyRing.rotate, KeyRing.nextEpoch]
  have untracked : t.shared.rotations g = none := by rw [hrot, hn]
  have era : Era g (p + 1) p none ((s, .op i (.tx (.rotateKey g)) (.ok out)) :: h) t.shared :=
    ⟨by omega, fun _ => ⟨k, _, shape⟩, by simp, by simp [untracked], by simp⟩
  have suits j (hl : s.live j) :
      Suits (p + 1) p none t.shared.clock (t.shared.rotations g).isSome (job g j h) := by
    have rows := hj j (Pool.lt_of_live hl) hl
    exact Suits.idle (by simp [rows]) (idle_of_unread run rows)
  refine .rotating era <| Pool.views_step run hs (by simp) (fun j o x he hl => ?_)
    fun j hl _ => suits j hl
  cases he
  exact suits i hl

omit [Ipnet] [Sha256] [IpnetV6] [PolicyText] [Base64] in
theorem Calm.congr {c c' : Ctl} {h h' : History} (calm : Calm g h c)
    (hr : c'.db.ring g = c.db.ring g) (hd : ∀ e, demotedAt g e h' = demotedAt g e h) :
    Calm g h' c' :=
  ⟨hr ▸ calm.resting, fun e he => (hd e).trans (calm.demoted e (hr ▸ he))⟩

theorem calm_tx (run : Runs h s) (calm : Calm g h s.shared)
    (hs : Pool.Step rules s (.op i (.tx tx) (.ok out)) t)
    (hr : StartsRested h s (.op i (.tx tx) (.ok out))) :
    Phase g ((s, .op i (.tx tx) (.ok out)) :: h) t := by
  have step := hs
  cases hs
  case op c next ht ha =>
    obtain ⟨hc, hm⟩ := Ctl.Answers.tx_ok ha
    have turn : Db.RingTurn s.shared.db g tx out (c.db.ring g) :=
      Db.ringTurn_of_ok (Db.transact_of_commit hc)
    generalize hring : c.db.ring g = r at turn
    cases turn
    case same hn => exact .calm (calm.congr hring fun _ => demotedAt_of_not_rings hn)
    case rotated active => exact rested_rotates run (hr g rfl) step active hring (by rw [hm])
    case submitted hw => exact absurd rfl (calm.resting _ hw)
    case promoted hw =>
      obtain ⟨k, hk, _, hp, _⟩ := hw
      exact absurd hp (calm.resting k hk)
    case dropped hw =>
      obtain ⟨k, hk, _, hp⟩ := hw
      exact absurd hp (calm.resting k hk)
    case retired e' _ =>
      refine .calm ⟨fun k hk => ?_, fun e he => ?_⟩
      case refine_1 => exact calm.resting k (List.mem_of_mem_filter (hring ▸ hk))
      case refine_2 =>
        obtain ⟨k, hk, hke, hs⟩ := he
        exact calm.demoted e ⟨k, List.mem_of_mem_filter (hring ▸ hk), hke, hs⟩
    case enrolled =>
      refine .calm ⟨fun k hk => ?_, fun e he => ?_⟩
      case refine_1 =>
        cases List.mem_append.mp (hring ▸ hk)
        case inl hk => exact calm.resting k hk
        case inr hk => simp [List.mem_singleton.mp hk, Db.keyOf, Db.newKey]
      case refine_2 =>
        obtain ⟨k, hk, hke, hs⟩ := he
        cases List.mem_append.mp (hring ▸ hk)
        case inl hk => exact calm.demoted e ⟨k, hk, hke, hs⟩
        case inr hk => simp [List.mem_singleton.mp hk, Db.keyOf, Db.newKey] at hs

theorem calm_step (run : Runs h s) (calm : Calm g h s.shared) (hs : Pool.Step rules s ev t)
    (hr : StartsRested h s ev) : Phase g ((s, ev) :: h) t := by
  cases ev
  case spawn =>
    cases hs
    exact .calm (calm.congr rfl fun _ => rfl)
  case halt =>
    cases hs
    exact .calm ⟨calm.resting, fun _ _ => rfl⟩
  case env =>
    cases hs
    case env he => cases he <;> exact .calm (calm.congr rfl fun _ => rfl)
  case op i o x =>
    have step := hs
    cases hs
    case op c next ht ha =>
      cases o
      case tx tx =>
        cases x
        case ok out => exact calm_tx run calm step hr
        case error =>
          refine .calm (calm.congr (congrArg (Db.ring · g) ?_) fun _ => by cases tx <;> rfl)
          exact congrArg Ctl.db (Ctl.Answers.tx_error ha)
      all_goals
        exact .calm (calm.congr (congrArg (Db.ring · g) (Ctl.Answers.db ha fun _ => nofun)) fun _ => rfl)

end Calm

section Run

variable [Ipnet] [Sha256] [IpnetV6] [PolicyText] [Base64]

theorem phase_run (run : Runs h s) (hr : Run.Along StartsRested h) (g : Nat) : Phase g h s := by
  induction run
  case start => exact .calm ⟨by simp [System.start, Ctl.start, KeyRing.Resting, Db.ring,
    Db.allKeysForGateway, Db.empty], fun _ _ => rfl⟩
  case step run hs ih =>
    cases ih hr.2
    case calm calm        => exact calm_step run calm hs hr.1
    case rotating era jobs => exact rotating_step run era jobs hs hr.1

-- Where every rotation starts from rest, a key that was demoted stays for its grace.
theorem rested_rotations_keep_grace (run : Runs h s) (hr : Run.Along StartsRested h) :
    Run.Along KeepsGrace h := by
  induction run
  case start => trivial
  case step h s ev t run hs ih =>
    refine ⟨fun r hret => ?_, ih hr.2⟩
    fun_cases retiring ev
    case case2 => simp_all [retiring]
    case case1 i g e =>
      cases hret
      cases phase_run run hr.2 g
      case rotating era jobs => exact rotating_grace run era jobs hs
      case calm calm =>
        intro since hd
        cases hs
        case op ha =>
          have turn := Db.ringTurn_of_ok (g := g) (Db.transact_of_commit (Ctl.Answers.tx_ok ha).1)
          generalize Db.ring _ g = r at turn
          cases turn
          case same hn     => exact absurd rfl hn
          case retired hh => cases (calm.demoted e hh).symm.trans hd

end Run

section Example

open StandIn

-- A rotation that goes through, with both sweeps at the very end of their graces.
def wholeRotation : Moves :=
  opening ++ calls 3 [.rotateKey 1, .submitEpochKey "gw-aa" 1 "one" 0] ++ tick GRACE_PROMOTE ++
  calls 5 [.sweepRotations] ++ tick (GRACE_PROMOTE + RETIRE_GRACE) ++ calls 6 [.sweepRotations]

set_option maxRecDepth 10000 in
theorem rested_rotations_keep_grace_wholeRotation :
    (played wholeRotation).2.shared.db.ring 1 = [(1, "one", .active)] ∧
    demotedAt 1 0 (played wholeRotation).1 = some GRACE_PROMOTE ∧
    Run.Along KeepsGrace (played wholeRotation).1 :=
  ⟨by decide +kernel, by decide +kernel,
    rested_rotations_keep_grace (runs_played wholeRotation) (by decide +kernel)⟩

end Example
end Controller
