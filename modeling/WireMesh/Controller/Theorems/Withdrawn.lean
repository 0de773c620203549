import WireMesh.Controller.StandIn
import WireMesh.Controller.Theorems.Subject

-- Whether a gateway that has left the mesh is announced again.
namespace Controller

open Policy

-- The gateway whose keys a transaction has changed by the row alone, without a look at its status.
def Tx.keyed : (t : Tx) → t.Out → Option Nat
  | .setEpochPubkey g _ _, .applied => some g
  | .promoteEpoch g _, .applied     => some g
  | .retireEpoch g _, .applied      => some g
  | .dropPendingEpoch g _, .dropped => some g
  | _, _                            => none

-- The gateways that have made room for the one that task `i` has enrolled.
def replacedBy (i : Nat) : History → List Nat
  | []                                                     => []
  | (s, .op j (.tx (.enrollGateway _)) (.ok out)) :: h     =>
    if j = i then s.shared.db.activeGatewaysOn out.segmentId else replacedBy i h
  | _ :: h                                                 => replacedBy i h

-- The gateways that are withdrawn by what task `i` publishes: the one that has been drained, or those
-- that have been replaced.
def withdraws (i : Nat) (h : History) : ChangeEvent → List Nat
  | .gatewayDrained g _ _          => [g]
  | .gatewayEnrolled _ _ _ _ _     => replacedBy i h
  | _                              => []

-- The gateways that an event withdraws, each with the task that does it.
def withdrawing (h : History) : SystemEvent → List (Nat × Nat)
  | .op i (.publish ev) _ => (withdraws i h ev).map (i, ·)
  | _                     => []

def withdrawn : History → List Nat
  | []          => []
  | (_, e) :: h => (withdrawing h e).map (·.2) ++ withdrawn h

-- The gateways that an event makes peers.
def upserts : SystemEvent → List Nat
  | .op _ (.publish ev) _ => (deltaForChange ev).upsertedPeers.map (·.gatewayId)
  | _                     => []

-- No change that is published makes a gateway a peer that has been withdrawn before.
def NotReadvertised (h : History) (_ : System) (e : SystemEvent) : Prop :=
  ∀ g ∈ upserts e, g ∉ withdrawn h

def keyed : SystemEvent → Option Nat
  | .op _ (.tx t) (.ok out) => t.keyed out
  | _                       => none

-- Keys are changed for active gateways only, and a gateway is withdrawn when nobody else has
-- something to announce about it.
def Orderly (h : History) (s : System) (e : SystemEvent) : Prop :=
  (∀ g ∈ keyed e, s.shared.db.gatewayIsActive g) ∧
  ∀ p ∈ withdrawing h e, ∀ j < s.tasks.length, j ≠ p.1 → s.live j →
    (Pool.view Announcer.track {} j h).subject ≠ some p.2

instance (h : History) (s : System) (e : SystemEvent) : Decidable (NotReadvertised h s e) :=
  inferInstanceAs (Decidable (∀ g ∈ upserts e, _))

instance (h : History) (s : System) (e : SystemEvent) : Decidable (Orderly h s e) :=
  inferInstanceAs (Decidable (_ ∧ ∀ p ∈ withdrawing h e, _))

-- A gateway that is on file and no longer active.
structure Db.Gone (db : Db) (g : Nat) : Prop where
  onFile : ∃ row ∈ db.gateways, row.id = g
  inactive : ∀ row ∈ db.gateways, row.id = g → row.status ≠ .active

section Gone

variable {db db' : Db}

theorem Db.gatewayIsActive_iff : db.gatewayIsActive g ↔
    ∃ row ∈ db.gateways, row.id = g ∧ row.status = .active := by
  simp [gatewayIsActive]

theorem Db.Gone.not_active (h : Gone db g) : ¬ db.gatewayIsActive g := fun ha =>
  have ⟨row, hr, hi, hs⟩ := gatewayIsActive_iff.mp ha
  h.inactive row hr hi hs

-- Nobody comes back, since a new gateway has an id of its own.
theorem Db.GatewayMove.gone (hm : GatewayMove db t db'.gateways) (h : Gone db g) : Gone db' g := by
  have ⟨row, hr, hi⟩ := h.onFile
  have ⟨row', hr', hi', _⟩ := hm.mem hr
  refine ⟨⟨row', hr', hi'.trans hi⟩, ?_⟩
  generalize db'.gateways = rows at hm
  intro row' hr' hi' ha
  cases hm
  case kept f hf =>
    have ⟨row, hr, he⟩ := List.mem_map.mp hr'
    exact h.inactive row hr (hf.id row ▸ he ▸ hi') (hf.active row (he ▸ ha))
  case enrolled hf _ =>
    cases List.mem_append.mp hr'
    case inl hr' =>
      have ⟨row, hr, he⟩ := List.mem_map.mp hr'
      exact h.inactive row hr (hf.id row ▸ he ▸ hi') (hf.active row (he ▸ ha))
    case inr hr' =>
      rw [List.mem_singleton.mp hr'] at hi'
      have hm : row.id ∈ db.gateways.map (·.id) := List.mem_map_of_mem hr
      exact nextId_not_mem _ (hi'.trans hi.symm ▸ hm)

theorem Db.gone_drainGateway (h : db.drainGateway g now = .ok (serials, db')) : Gone db' g := by
  have ⟨⟨row, hr, hi⟩, _, he⟩ := drainGateway_ok h
  rw [he]
  refine ⟨⟨_, List.mem_map_of_mem hr, ?_⟩, fun row hr hi => ?_⟩
  case refine_1 => split <;> exact hi
  case refine_2 =>
    have ⟨row₀, _, he⟩ := List.mem_map.mp hr
    split at he
    case isTrue => simp [← he]
    case isFalse hn => exact absurd (he ▸ hi) hn

theorem Db.KeysOnly.active (h : KeysOnly db db') (ha : db.gatewayIsActive g) :
    db'.gatewayIsActive g := by
  cases h
  exact ha

theorem Db.observe_active (ha : db.gatewayIsActive g) :
    (db.updateGateway g' (observe addr)).gatewayIsActive g := by
  have ⟨row, hr, hi, hs⟩ := gatewayIsActive_iff.mp ha
  refine gatewayIsActive_iff.mpr ⟨_, List.mem_map_of_mem hr, ?_⟩
  split
  case isTrue  => simp [observe, hs, hi]
  case isFalse => exact ⟨hi, hs⟩

variable [Ipnet] [Sha256] [IpnetV6] [PolicyText] [Base64]

omit [Sha256] [IpnetV6] [PolicyText] [Base64] in
theorem Db.Enrolled.gone (h : Enrolled db args out db') (hg : g ∈ db.activeGatewaysOn out.segmentId) :
    Gone db' g := by
  cases h
  case intro token s certs db₁ new db₂ _ _ _ _ hc ha =>
    have ⟨f, hf, he, hw⟩ := (claimSegment_ok hc).2.gateways
    have ⟨row, hr, hi⟩ := List.mem_map.mp hg
    replace hr := List.mem_of_mem_filter hr
    have ids : db₁.gateways.map (·.id) = db.gateways.map (·.id) := by
      simp [he, Function.comp_def, hf.id]
    have rows : db₂.gateways = db.gateways.map f ++ [newGateway new s args] := by rw [ha.eq, he]
    have gone : Gone db₂ g := by
      refine ⟨⟨f row, ?_, (hf.id row).trans hi⟩, fun row' hr' hi' => ?_⟩
      case refine_1 =>
        rw [rows]
        exact List.mem_append_left _ (List.mem_map_of_mem hr)
      case refine_2 =>
        rw [rows] at hr'
        cases List.mem_append.mp hr'
        case inl hr' =>
          have ⟨row₀, _, he⟩ := List.mem_map.mp hr'
          have hi₀ : row₀.id = g := by rw [← hf.id row₀, he, hi']
          exact he ▸ (hw row₀).1 (hi₀ ▸ hg)
        case inr hr' =>
          rw [List.mem_singleton.mp hr'] at hi'
          have hm : g ∈ db₁.gateways.map (·.id) := ids ▸ hi ▸ List.mem_map_of_mem hr
          exact absurd (ha.id ▸ hi' ▸ hm) (nextId_not_mem _)
    exact ⟨gone.onFile, gone.inactive⟩

theorem gone_step (hs : Pool.Step rules s e t) (h : s.shared.db.Gone g) : t.shared.db.Gone g := by
  cases db_step [] hs
  case inl hd => exact hd.2 ▸ h
  case inr hd =>
    have ⟨_, tx, _, _, hc⟩ := hd
    have hm : Db.GatewayMove s.shared.db tx (s.shared.db.commit tx).2.gateways :=
      Db.gatewayMove_commit tx
    rw [hc] at hm
    exact hm.gone h

-- Whoever becomes the subject of an announcement is active.
omit [Base64] in
theorem active_of_subject (ha : Ctl.Answers c o x c') (hs : o.subject x = some g)
    (hk : ∀ t out, o = .tx t → x ≍ (.ok out : t.Resp) → ∀ g ∈ t.keyed out, c.db.gatewayIsActive g) :
    c'.db.gatewayIsActive g := by
  cases o
  case tx t =>
    cases x
    case error => cases hs
    case ok out =>
      have ho := Db.transact_of_commit (Ctl.Answers.tx_ok ha).1
      replace hk := hk t out rfl .rfl
      cases t
      case enrollGateway args =>
        have ⟨_, _, _, hr⟩ := (Db.enrollGateway_ok ho).authorised
        exact Db.gatewayIsActive_iff.mpr ⟨_, hr, Option.some.inj hs, rfl⟩
      case rotateKey =>
        have ⟨act, _, he⟩ := Db.rotateKey_ok ho
        cases hs
        exact he ▸ act
      case setEpochPubkey =>
        cases out <;> cases hs
        exact Db.snd_of_ok ho ▸ Db.setEpochPubkey_keysOnly.active (hk _ rfl)
      case promoteEpoch =>
        cases out <;> cases hs
        exact Db.snd_of_ok ho ▸ Db.promoteEpoch_keysOnly.active (hk _ rfl)
      case retireEpoch =>
        cases out <;> cases hs
        exact Db.snd_of_ok ho ▸ Db.retireEpoch_keysOnly.active (hk _ rfl)
      case dropPendingEpoch =>
        cases out <;> cases hs
        exact Db.snd_of_ok ho ▸ Db.dropPendingEpoch_keysOnly.active (hk _ rfl)
      case setCandidateEndpoint =>
        cases out <;> cases hs
        have ⟨act, he⟩ := Db.setCandidateEndpoint_ok ho
        exact (he.resolve_left nofun).2 ▸ Db.observe_active act
      case setLocalCandidates =>
        cases out <;> cases hs
        have ⟨act, he⟩ := Db.setLocalCandidates_ok ho
        have ⟨_, _, he⟩ := (he.resolve_left nofun).2
        exact he ▸ act
      all_goals cases hs
  case query q =>
    cases x
    case error => cases q <;> cases hs
    case ok x =>
      cases q
      case activeGatewayForSegment =>
        have ⟨hx, hc⟩ := Ctl.Answers.query_ok ha
        cases hs
        have ⟨row, hr, hi⟩ := Option.map_eq_some_iff.mp hx.symm
        have hp := List.find?_some hr
        exact hc ▸ Db.gatewayIsActive_iff.mpr
          ⟨row, List.mem_of_find?_eq_some hr, hi, (by simpa using hp : _ ∧ _).2⟩
      all_goals cases hs
  all_goals cases hs

end Gone

section Run

variable [Ipnet] [Sha256] [IpnetV6] [PolicyText] [Base64]

-- A gateway that has been drained, or replaced, is gone before that is published.
theorem gone_of_drained (r : Runs h s) (hd : (Pool.view Announcer.track {} i h).drained = some g) :
    s.shared.db.Gone g := by
  induction r
  case start => cases hd
  case step h s e t r hs ih =>
    revert hd
    refine Pool.view_cons (I := fun a : Announcer => a.drained = some g → t.shared.db.Gone g) e
      (fun o x he hd => ?_) fun _ hd => gone_step hs (ih hd)
    subst he
    generalize hm : Announcer.track o _ x = a' at hd
    cases hm ▸ Announcer.tracked_track x
    case read hd' => exact gone_step hs (ih (hd' ▸ hd))
    case found    => exact gone_step hs (ih hd)
    case drained  =>
      cases hd
      cases hs
      case op ha =>
      exact Db.gone_drainGateway (Db.transact_of_commit (Ctl.Answers.tx_ok ha).1)
    all_goals cases hd

theorem gone_of_replaced (r : Runs h s) (hg : g ∈ replacedBy i h) : s.shared.db.Gone g := by
  induction r
  case start => cases hg
  case step h s e t r hs ih =>
    rw [replacedBy.eq_def] at hg
    split at hg
    case h_1 he => cases he
    case h_2 he =>
      cases he
      split at hg
      case isTrue =>
        cases hs
        case op ha =>
        exact (Db.enrollGateway_ok (Db.transact_of_commit (Ctl.Answers.tx_ok ha).1)).gone hg
      case isFalse => exact gone_step hs (ih hg)
    case h_3 he =>
      cases he
      exact gone_step hs (ih hg)

theorem gone_of_withdrawing (r : Runs ((s, e) :: h) t) (hp : p ∈ withdrawing h e) :
    s.shared.db.Gone p.2 := by
  cases e
  case op i o x =>
    cases o
    case publish ev =>
      have may : Announcer.MayPublish _ ev := Pool.pre_view (fun q => announces_handle q {}) r
      have ⟨g, hg, he⟩ := List.mem_map.mp hp
      subst he
      cases r
      case step r _ =>
      cases ev
      case gatewayDrained =>
        cases List.mem_singleton.mp hg
        exact gone_of_drained r may
      case gatewayEnrolled => exact gone_of_replaced r hg
      all_goals cases hg
    all_goals cases hp
  all_goals cases hp

-- Nobody has anything to announce about a gateway that has been withdrawn.
structure Quiet (h : History) (s : System) (g : Nat) : Prop where
  gone : s.shared.db.Gone g
  silent : ∀ j, s.live j → (Pool.view Announcer.track {} j h).subject ≠ some g

theorem Quiet.step (q : Quiet h s g) (r : Runs h s) (hs : Pool.Step rules s e t)
    (ho : Orderly h s e) : Quiet ((s, e) :: h) t g := by
  have gone := gone_step hs q.gone
  refine ⟨gone, Pool.views_step (I := fun a : Announcer => a.subject ≠ some g) r hs ?_ ?_ ?_⟩
  case refine_1 => exact fun _ _ => nofun
  case refine_2 =>
    intro i o x he hl hg
    subst he
    cases Announcer.subject_track hg
    case inl hg => exact q.silent i hl hg
    case inr hg =>
      cases hs
      case op ha =>
      refine gone.not_active (active_of_subject ha hg ?_)
      rintro t out rfl hx
      cases hx
      exact ho.1
  case refine_3 => exact fun j hj _ => q.silent j hj

-- The one who withdraws a gateway has nothing more to announce, and all others have not by the order
-- of things.
theorem quiet_of_withdrawing (r : Runs h s) (hs : Pool.Step rules s e t) (ho : Orderly h s e)
    (hp : p ∈ withdrawing h e) : Quiet ((s, e) :: h) t p.2 := by
  have gone := gone_of_withdrawing (r.step hs) hp
  have ⟨i, ev, x, he, hi⟩ : ∃ i ev x, e = .op i (.publish ev) x ∧ p.1 = i := by
    cases e
    case op i o x =>
      cases o
      case publish ev =>
        have ⟨_, _, he⟩ := List.mem_map.mp hp
        exact ⟨i, ev, x, rfl, he ▸ rfl⟩
      all_goals cases hp
    all_goals cases hp
  subst he
  refine ⟨gone_step hs gone, Pool.views_step (I := fun a : Announcer => a.subject ≠ some p.2) r hs ?_ ?_ ?_⟩
  case refine_1 => exact nofun
  case refine_2 =>
    intro j o x he _
    cases he
    rw [Announcer.subject_publish]
    exact nofun
  case refine_3 =>
    intro j hj hne
    exact ho.2 p hp j (Pool.lt_of_live hj) (fun he => hne _ _ (by rw [he, hi])) hj

theorem quiet_run (r : Runs h s) (ho : Run.Along Orderly h) : ∀ g ∈ withdrawn h, Quiet h s g := by
  induction r
  case start => exact nofun
  case step h s e t r hs ih =>
    intro g hg
    cases List.mem_append.mp hg
    case inr hg => exact (ih ho.2 g hg).step r hs ho.1
    case inl hg =>
      have ⟨p, hp, he⟩ := List.mem_map.mp hg
      exact he ▸ quiet_of_withdrawing r hs ho.1 hp

-- Where keys are changed for active gateways only and a gateway is withdrawn when nobody else has
-- something to announce about it, it is not announced again.
theorem withdrawn_stays_withdrawn (r : Runs h s) (ho : Run.Along Orderly h) :
    Run.Along NotReadvertised h := by
  induction r
  case start => trivial
  case step h s e t r hs ih =>
    refine ⟨fun g hg hw => ?_, ih ho.2⟩
    have quiet := quiet_run r ho.2 g hw
    cases hs
    case op i o _ _ _ ht ha =>
      cases o
      case publish =>
        have ⟨p, hp, he⟩ := List.mem_map.mp hg
        subst he
        exact quiet.silent i (Pool.live_of_getElem? ht) (upsert_subject (r.step (.op ht ha)) hp)
      all_goals cases hg
    all_goals cases hg

end Run

section Example

open StandIn

-- A gateway is drained, and another one is announced twice after that.
def drainedOfTwo : Moves :=
  opening ++ calls 3 [.createSegment "b" ["11.0.0.0/8"], token .gateway ["11.0.0.0/8"] 0 "bb",
    .rotateKey 1, .drain 1 "1", enroll ["11.0.0.0/8"] "bb", .rotateKey 2]

set_option maxRecDepth 20000 in
theorem withdrawn_stays_withdrawn_drained :
    withdrawn (played drainedOfTwo).1 = [1] ∧
    (played drainedOfTwo).2.shared.channel.map
      (fun ev => ((deltaForChange ev).upsertedPeers.map (·.gatewayId), (deltaForChange ev).removedPeerIds)) =
      [([1], []), ([1], []), ([], [1]), ([2], []), ([2], [])] ∧
    Run.Along NotReadvertised (played drainedOfTwo).1 :=
  ⟨by decide +kernel, by decide +kernel,
    withdrawn_stays_withdrawn (runs_played drainedOfTwo) (by decide +kernel)⟩

-- A gateway is drained in the middle of a rotation.
def drainedRotation : Moves :=
  opening ++ calls 3 [.rotateKey 1, .drain 1 "1"]

-- The sweep that gives the rotation up announces the gateway once more.
def abortedRotation : Moves :=
  drainedRotation ++ calls 5 [.sweepRotations] ++ tick ABORT_AFTER ++ calls 6 [.sweepRotations]

set_option maxRecDepth 10000 in
theorem withdrawn_is_announced :
    Runs (played abortedRotation).1 (played abortedRotation).2 ∧
    (played abortedRotation).2.shared.channel.map
      (fun ev => ((deltaForChange ev).upsertedPeers.map (·.gatewayId), (deltaForChange ev).removedPeerIds)) =
      [([1], []), ([1], []), ([], [1]), ([1], [])] ∧
    ¬ Run.Along NotReadvertised (played abortedRotation).1 :=
  ⟨runs_played abortedRotation, by decide +kernel, by decide +kernel⟩

end Example
end Controller
