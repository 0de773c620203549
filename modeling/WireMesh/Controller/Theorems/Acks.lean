import WireMesh.Controller.Theorems.Eras

-- Whether the acknowledgements of an epoch reach the tracker that decides on it.
namespace Controller

open Policy

-- The epoch is no longer pending, or this process has ended.
def settles (g e : Nat) : SystemEvent → Bool
  | .halt                                                => true
  | .op _ (.tx (.promoteEpoch g' e')) (.ok .applied)     => g' = g ∧ e' = e
  | .op _ (.tx (.dropPendingEpoch g' e')) (.ok .dropped) => g' = g ∧ e' = e
  | _                                                    => false

-- The gateway that acknowledges the epoch, which is the newest pending one.
def acknowledging (g e : Nat) (s : System) : SystemEvent → Option Nat
  | .op _ (.recordAcks reporting _ acks) _ =>
    if (selectLivePending (s.shared.db.ring g)).map (·.1) = some e ∧
        ∃ ack ∈ acks, ack.peerGatewayId = g ∧ ack.live ∧ ack.epoch = e
    then some reporting else none
  | _                                      => none

-- Who has acknowledged the epoch since this process started, as long as the epoch is pending.
def acknowledged (g e : Nat) : History → List Nat
  | []           => []
  | (s, ev) :: h =>
    if settles g e ev then [] else (acknowledging g e s ev).toList ++ acknowledged g e h

-- What a report brings, and the rotation that a driver has decided on.
def acking : SystemEvent → Option (List (Nat × Option (Nat × Option Nat)) × List Rotations.EpochAck)
  | .op _ (.recordAcks _ seeds acks) _ => some (seeds, acks)
  | _                                  => none

def planning : SystemEvent → Option (Nat × Nat)
  | .op _ (.planRotation g _ _) (some (_, taken)) => some (g, taken.pendingEpoch)
  | _                                             => none

-- The report has read of the pending epoch of each gateway that has no tracker.
def ReadsSeeds (s : System) (ev : SystemEvent) : Prop :=
  ∀ report ∈ acking ev, ∀ ack ∈ report.2, s.shared.rotations ack.peerGatewayId = none →
    ∃ seed ∈ report.1, seed.1 = ack.peerGatewayId ∧ seed.2.isSome

-- As long as the epoch is pending, a driver decides by all acknowledgements of it.
def CountsAcks (h : History) (ev : SystemEvent) (t : System) : Prop :=
  ∀ p ∈ planning ev, ∀ peer ∈ acknowledged p.1 p.2 h,
    ∃ tracker ∈ t.shared.rotations p.1, tracker.pendingEpoch = p.2 ∧ peer ∈ tracker.liveAcks

instance (s : System) (ev : SystemEvent) : Decidable (ReadsSeeds s ev) :=
  inferInstanceAs (Decidable (∀ report ∈ acking ev, _))

instance (h : History) (ev : SystemEvent) (t : System) : Decidable (CountsAcks h ev t) :=
  inferInstanceAs (Decidable (∀ p ∈ planning ev, _))

theorem acknowledging_some (ha : acknowledging g e s ev = some peer) :
    ∃ i seeds acks x, ev = .op i (.recordAcks peer seeds acks) x ∧
      (selectLivePending (s.shared.db.ring g)).map (·.1) = some e ∧
      ∃ ack ∈ acks, ack.peerGatewayId = g ∧ ack.live ∧ ack.epoch = e := by
  rw [acknowledging.eq_def] at ha
  split at ha
  case h_2 => cases ha
  case h_1 i peer' seeds acks x =>
    have ⟨hack, he⟩ := Option.ite_none_right_eq_some.mp ha
    cases he
    exact ⟨i, seeds, acks, x, rfl, hack⟩

theorem selectLivePending_has {ring : KeyRing} (h : selectLivePending ring = some l) :
    ring.Has l.1 .pending := by
  have ⟨e, he, hl⟩ := Option.bind_eq_some_iff.mp h
  cases hl
  have ⟨k, hk, hke⟩ := List.mem_map.mp (List.max?_mem he)
  have ⟨hk, hp⟩ := List.mem_filter.mp hk
  exact ⟨k, hk, hke, by simpa using hp⟩

namespace Rotations

variable {rotations : Rotations}

theorem seed_keeps (ht : rotations g = some t) (hl : ∀ l ∈ live, l.1 = t.pendingEpoch) :
    rotations.seed g live readAt now g = some t := by
  cases seed_self rotations g live readAt now
  case inl h => exact h.trans ht
  case inr h =>
    have ⟨l, hm, hn, _⟩ := h
    exact absurd (hl l hm).symm (hn t ht)

theorem seedAbsent_keeps (now : Instant) (seeds : List (Nat × Option (Nat × Option Nat)))
    (ht : rotations g = some t) : seedAbsent now seeds rotations g = some t := by
  cases seedAbsent_self now seeds rotations g
  case inl h => exact h.trans ht
  case inr h => cases ht.symm.trans h.1

theorem seedAbsent_some (now : Instant) (rotations : Rotations) (hm : (g, some l) ∈ seeds) :
    ∃ t, seedAbsent now seeds rotations g = some t := by
  fun_induction seedAbsent now seeds rotations
  case case1 => cases hm
  case case2 id live rest rotations ih =>
    cases List.mem_cons.mp hm
    case inr hm => exact ih hm
    case inl hm =>
      cases hm
      obtain ⟨t, ht⟩ : ∃ t, (rotations g).or (some (.start l.1 l.2 now)) = some t := by
        cases rotations g <;> simp
      exact ⟨t, seedAbsent_keeps now rest (put_self.trans ht)⟩

end Rotations

-- The tracker of the epoch is there afterwards if it was before, with all that it has heard.
def Carries (g e : Nat) (c c' : Ctl) : Prop :=
  ∀ t, c.rotations g = some t → t.pendingEpoch = e →
    ∃ t', c'.rotations g = some t' ∧ t'.pendingEpoch = e ∧ t.liveAcks ⊆ t'.liveAcks

theorem Carries.of_eq {c c' : Ctl} (h : c'.rotations g = c.rotations g) : Carries g e c c' :=
  fun t ht he => ⟨t, h.trans ht, he, List.Subset.refl _⟩

section Step

variable [Ipnet] [Sha256] [IpnetV6] [PolicyText] [Base64] {e p : Nat}

theorem pending_step (hs : Pool.Step rules s ev t) (hn : settles g e ev = false)
    (hp : (s.shared.db.ring g).Has e .pending) : (t.shared.db.ring g).Has e .pending := by
  obtain ⟨k, hk, he, hst⟩ := id hp
  cases hs
  case spawn => exact hp
  case halt  => cases hn
  case env hv => cases hv <;> exact hp
  case op i o x c next ht ha =>
    cases o
    case tx tx =>
      cases x
      case error => exact (Ctl.Answers.tx_error ha).symm ▸ hp
      case ok out =>
        have turn : Db.RingTurn s.shared.db g tx out (c.db.ring g) :=
          Db.ringTurn_of_ok (Db.transact_of_commit (Ctl.Answers.tx_ok ha).1)
        change KeyRing.Has (c.db.ring g) e .pending
        generalize c.db.ring g = r at turn
        cases turn
        case same      => exact hp
        case enrolled  => exact ⟨k, List.mem_append_left _ hk, he, hst⟩
        case rotated   => exact ⟨k, List.mem_append_left _ hk, he, hst⟩
        case submitted =>
          refine ⟨_, List.mem_map_of_mem hk, (KeyRing.submitRow_epoch k).trans he, ?_⟩
          rw [KeyRing.submitRow]
          split <;> exact hst
        case promoted e' _ =>
          have hne : e ≠ e' := fun h => by simp [settles, h] at hn
          refine ⟨_, List.mem_map_of_mem hk, (KeyRing.promoteRow_epoch k).trans he, ?_⟩
          simp [KeyRing.promoteRow, he, hne, hst]
        case retired   => exact ⟨k, by simp [KeyRing.delete, hk, hst], he, hst⟩
        case dropped e' _ =>
          have hne : e ≠ e' := fun h => by simp [settles, h] at hn
          exact ⟨k, by simp [KeyRing.delete, hk, he, hne], he, hst⟩
    all_goals exact (Ctl.Answers.db ha (by simp)).symm ▸ hp

variable (run : Runs h s) (era : Era g e p none h s.shared)
  (jobs : ∀ i, s.live i → Suits e p none s.shared.clock (s.shared.rotations g).isSome (job g i h))
include run era jobs

-- Before the promotion nothing takes the tracker of the rotation away, short of a restart.
theorem carries_step (hs : Pool.Step rules s ev t) (hh : ev ≠ .halt) :
    Carries g e s.shared t.shared := by
  have step := hs
  cases hs
  case spawn => exact .of_eq rfl
  case halt  => exact absurd rfl hh
  case env he => cases he <;> exact .of_eq rfl
  case op i o x c next ht ha =>
    have may := may_run (g := g) run step
    have suits := jobs i (Pool.live_of_getElem? ht)
    have told keys (hk : keys ∈ (job g i h).rows) :
        selectLivePending keys = some (e, some p) := by
      simpa using suits.rows keys hk |>.imp_left And.left
    cases o
    case query => exact .of_eq (by rw [Ctl.Answers.query ha])
    case tx =>
      cases x
      case error => exact .of_eq (by rw [Ctl.Answers.tx_error ha])
      case ok    => exact .of_eq (by rw [(Ctl.Answers.tx_ok ha).2])
    case seedRotation g' live readAt =>
      have ⟨_, hc⟩ := Ctl.Answers.exec ha (fun _ => nofun) fun _ => nofun
      subst hc
      by_cases hg : g' = g
      case neg => exact .of_eq (Rotations.seed_ne (Ne.symm hg))
      case pos =>
        subst hg
        have ⟨keys, hk, hl⟩ := may rfl
        intro t ht he
        refine ⟨t, Rotations.seed_keeps ht fun l hm => ?_, he, List.Subset.refl _⟩
        rw [told keys hk] at hl
        cases hl
        cases hm
        exact he.symm
    case planRotation g' keys readAt =>
      have ⟨_, hc⟩ := Ctl.Answers.exec ha (fun _ => nofun) fun _ => nofun
      subst hc
      by_cases hg : g' = g
      case neg => exact .of_eq (Rotations.seed_ne (Ne.symm hg))
      case pos =>
        subst hg
        intro t ht he
        refine ⟨t, Rotations.seed_keeps ht fun l hm => ?_, he, List.Subset.refl _⟩
        rw [told keys (may rfl)] at hm
        cases hm
        exact he.symm
    case trackerEffect g' taken effect =>
      have ⟨_, hc⟩ := Ctl.Answers.exec ha (fun _ => nofun) fun _ => nofun
      subst hc
      by_cases hg : g' = g
      case neg => exact .of_eq (Rotations.applyEffect_ne (Ne.symm hg))
      case pos =>
        -- No effect is due before the promotion.
        cases may hg
        case inl hd => cases (suits.due taken effect hd).2
        case inr hd =>
          have hd := (suits.decided _ _ hd.1).2
          simp at hd
    case recordAcks reporting seeds acks =>
      have ⟨_, hc⟩ := Ctl.Answers.exec ha (fun _ => nofun) fun _ => nofun
      subst hc
      intro t ht he
      have hr := Rotations.seedAbsent_keeps s.shared.clock seeds ht
      have ⟨t', hr', heard, _⟩ := Rotations.recordAcks_some reporting acks hr
      exact ⟨t', hr', by rw [heard.same, he], heard.keeps⟩
    all_goals
      have ⟨_, hc⟩ := Ctl.Answers.exec ha (fun _ => nofun) fun _ => nofun
      exact .of_eq (by rw [hc]; rfl)

-- The tracker hears of an acknowledgement of its epoch, and is there to hear of it.
theorem hears_step (hs : Pool.Step rules s ev t) (hr : ReadsSeeds s ev)
    (ha : acknowledging g e s ev = some peer) :
    ∃ t', t.shared.rotations g = some t' ∧ t'.pendingEpoch = e ∧ peer ∈ t'.liveAcks := by
  have ⟨i, seeds, acks, x, hev, _, ack, hm, hg, hl, he⟩ := acknowledging_some ha
  subst hev hg
  have may := may_run (g := ack.peerGatewayId) run hs
  cases hs
  case op c next ht ha =>
    have suits := jobs i (Pool.live_of_getElem? ht)
    have ⟨_, hc⟩ := Ctl.Answers.exec ha (fun _ => nofun) fun _ => nofun
    subst hc
    have ⟨t, hr⟩ : ∃ t, Rotations.seedAbsent s.shared.clock seeds s.shared.rotations
        ack.peerGatewayId = some t := by
      cases hn : s.shared.rotations ack.peerGatewayId
      case some t => exact ⟨t, Rotations.seedAbsent_keeps _ _ hn⟩
      case none =>
        have ⟨⟨_, live⟩, hm, hg, hs⟩ := hr (seeds, acks) rfl ack hm hn
        have ⟨l, hl⟩ := Option.isSome_iff_exists.mp hs
        cases hg
        cases hl
        exact Rotations.seedAbsent_some _ _ hm
    have tells l (hm : (ack.peerGatewayId, some l) ∈ seeds) : l = (e, some p) := by
      have ⟨keys, hk, hl⟩ := may l hm
      simpa [hl] using suits.live hk
    have watches := (era.seededAbsent s.shared.clock tells).1 t hr
    have ⟨t', hr', heard, hears⟩ := Rotations.recordAcks_some peer acks hr
    refine ⟨t', hr', by rw [heard.same, watches.pending], ?_⟩
    exact hears ack hm rfl hl (he.trans watches.pending.symm)

end Step

-- All that has been acknowledged is in the tracker of the epoch.
def Acked (g : Nat) (h : History) (c : Ctl) : Prop :=
  ∀ e, acknowledged g e h ≠ [] → (c.db.ring g).Has e .pending ∧
    ∃ t, c.rotations g = some t ∧ t.pendingEpoch = e ∧ acknowledged g e h ⊆ t.liveAcks

theorem acknowledged_cons {h : History} (hn : settles g e ev = false) :
    acknowledged g e ((s, ev) :: h) = (acknowledging g e s ev).toList ++ acknowledged g e h := by
  simp [acknowledged, hn]

theorem has_pending_of_acknowledging (ha : acknowledging g e s ev = some peer) :
    (s.shared.db.ring g).Has e .pending := by
  have ⟨_, _, _, _, _, hl, _⟩ := acknowledging_some ha
  have ⟨l, hl, he⟩ := Option.map_eq_some_iff.mp hl
  exact he ▸ selectLivePending_has hl

section Run

variable [Ipnet] [Sha256] [IpnetV6] [PolicyText] [Base64]

theorem acked_run (run : Runs h s) (hr : Run.Along StartsRested h)
    (hs : Run.Along (fun _ => ReadsSeeds) h) (g : Nat) : Acked g h s.shared := by
  induction run
  case start => exact fun _ hn => absurd rfl hn
  case step h s ev t run step ih =>
    intro e ha
    have hn : settles g e ev = false := by
      by_contra hn
      simp [acknowledged, hn] at ha
    rw [acknowledged_cons hn] at ha ⊢
    have acked := ih hr.2 hs.2 e
    -- The epoch was pending, be it acknowledged now or before.
    have pending : (s.shared.db.ring g).Has e .pending := by
      cases hv : acknowledging g e s ev
      case none   => exact (acked (by simpa [hv] using ha)).1
      case some _ => exact has_pending_of_acknowledging hv
    refine ⟨pending_step step hn pending, ?_⟩
    cases phase_run run hr.2 g
    case calm calm =>
      have ⟨k, hk, _, hp⟩ := pending
      exact absurd hp (calm.resting k hk)
    case rotating era jobs =>
      have ⟨hnone, he⟩ := era.none_of_pending pending
      subst hnone he
      have before (hb : acknowledged g e h ≠ []) : ∃ t', t.shared.rotations g = some t' ∧
          t'.pendingEpoch = e ∧ acknowledged g e h ⊆ t'.liveAcks := by
        have ⟨_, tracker, ht, he, hsub⟩ := acked hb
        have ⟨t', ht', he', hsub'⟩ :=
          carries_step run era jobs step (fun h => by simp [h, settles] at hn) tracker ht he
        exact ⟨t', ht', he', List.Subset.trans hsub hsub'⟩
      cases hv : acknowledging g e s ev
      case none => exact before (by simpa [hv] using ha)
      case some peer =>
        have ⟨t', ht', he', hm⟩ := hears_step run era jobs step hs.1 hv
        refine ⟨t', ht', he', List.cons_subset.mpr ⟨hm, ?_⟩⟩
        by_cases hb : acknowledged g e h = []
        case pos => simp [hb]
        case neg =>
          have ⟨t'', ht'', _, hsub⟩ := before hb
          cases ht'.symm.trans ht''
          exact hsub

-- Where every rotation starts from rest and reports read of it, no acknowledgement is lost.
theorem rested_rotations_count_acks (run : Runs h s) (hr : Run.Along StartsRested h)
    (hs : Run.Along (fun _ => ReadsSeeds) h) : Run.Each (fun h _ => CountsAcks h) h s := by
  induction run
  case start => trivial
  case step h s ev t run step ih =>
    refine ⟨fun q hq peer hp => ?_, ih hr.2 hs.2⟩
    have ⟨g, e⟩ := q
    have acked := (acked_run (run.step step) hr hs g e)
    fun_cases planning ev
    case case2 => simp_all [planning]
    case case1 i g' keys readAt d taken =>
      cases hq
      rw [acknowledged_cons rfl] at acked
      have ⟨_, tracker, ht, he, hsub⟩ := acked (List.ne_nil_of_mem (List.mem_append_right _ hp))
      exact ⟨tracker, ht, he, hsub (List.mem_append_right _ hp)⟩

end Run

section Example

open StandIn

def ackOf (g e : Nat) : ReportRequest where
  appliedVersion    := 0
  localEndpoints    := []
  relayHealth       := []
  epochAcks         := [⟨g, e, true⟩]
  sessionGeneration := 0

-- Gateway 2 acknowledges the epoch before any tracker of gateway 1 is there.
def earlyAck : Moves :=
  opening ++ calls 3 [.createSegment "b" ["11.0.0.0/8"], token .gateway ["11.0.0.0/8"] 0 "bb",
    enroll ["11.0.0.0/8"] "bb", .rotateKey 1, .report "gw-bb" (ackOf 1 1), .sweepRotations]

set_option maxRecDepth 20000 in
theorem rested_rotations_count_acks_earlyAck :
    acknowledged 1 1 (played earlyAck).1 = [2] ∧
    Run.Each (fun h _ => CountsAcks h) (played earlyAck).1 (played earlyAck).2 :=
  ⟨by decide +kernel, rested_rotations_count_acks (runs_played earlyAck) (by decide +kernel)
    (by decide +kernel)⟩

end Example
end Controller
