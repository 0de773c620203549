import Mathlib
import WireMesh.Lib.Serial
import WireMesh.Controller.StandIn
import WireMesh.Controller.Theorems.History
import WireMesh.Controller.Theorems.Uses

-- What the votes of gateways make of a relay, where one call comes after the other.
namespace Controller

open Policy Prog

-- A call with the operations that it has made. Of a report it is known whether it has gone well.
inductive Served
  | report (gatewayName : String) (req : ReportRequest) (ops : List CtlOp) (ok : Bool)
  | request (q : Request) (ops : List CtlOp)
  | outside (v : Outside)

def Served.ops : Served → List CtlOp
  | report _ _ ops _ => ops
  | request _ ops    => ops
  | outside _        => []

section Latest

def CtlOp.votes : CtlOp → List RelayVote
  | vote gatewayId votes => votes.map fun (relayId, healthy) => { relayId, gatewayId, healthy }
  | _                    => []

-- All votes that have been taken, the latest last.
def votesOf : List (Ctl × Served) → List RelayVote
  | []          => []
  | (_, e) :: h => votesOf h ++ e.ops.flatMap CtlOp.votes

def latestOf (g relay : Nat) (votes : List RelayVote) : Option RelayVote :=
  (votes.filter fun v => v.gatewayId = g ∧ v.relayId = relay).getLast?

def latestVote (g relay : Nat) (h : List (Ctl × Served)) : Option Bool :=
  (latestOf g relay (votesOf h)).map (·.healthy)

def castVote (votes : List RelayVote) (v : RelayVote) : List RelayVote :=
  votes.filter (fun w => ¬ (w.relayId = v.relayId ∧ w.gatewayId = v.gatewayId)) ++ [v]

theorem castVotes_eq_foldl (g : Nat) (votes : List (Nat × Bool)) (taken : List RelayVote) :
    castVotes g votes taken = (CtlOp.vote g votes).votes.foldl castVote taken := by
  induction votes generalizing taken
  case nil         => rfl
  case cons v vs ih => exact ih _

theorem latestOf_append : latestOf g relay (votes ++ [v]) =
    if v.gatewayId = g ∧ v.relayId = relay then some v else latestOf g relay votes := by
  split
  case isTrue h  => simp [latestOf, List.filter_append, h]
  case isFalse h => simp [latestOf, List.filter_append, h]

-- The votes that count are the latest ones.
theorem mem_foldl_castVote (votes : List RelayVote) (v : RelayVote) :
    v ∈ votes.foldl castVote [] ↔ latestOf v.gatewayId v.relayId votes = some v := by
  induction votes using List.reverseRecOn
  case nil => simp [latestOf]
  case append_singleton votes w ih =>
    rw [List.foldl_append, List.foldl_cons, List.foldl_nil, latestOf_append, castVote]
    split
    case isTrue h  => simp [h, eq_comm]
    case isFalse h =>
      have hw : v ≠ w := fun he => h (by simp [he])
      have hk : ¬ (v.relayId = w.relayId ∧ v.gatewayId = w.gatewayId) :=
        fun he => h ⟨he.2.symm, he.1.symm⟩
      simp only [List.mem_append, List.mem_filter, List.mem_singleton, hw, or_false, ih,
        decide_eq_true_eq, and_iff_left hk]

theorem CtlOp.votes_of_touch {o : CtlOp} (h : o.touch ≠ .votes) : o.votes = [] := by
  cases o <;> first | rfl | exact absurd rfl h

end Latest

section Relays

variable [Ipnet] [Sha256] [IpnetV6] [PolicyText] {c c' : Ctl} {ops : List CtlOp}

theorem relayHealth_answers (ha : Ctl.Answers c o x c') :
    c'.relayHealth = o.votes.foldl castVote c.relayHealth := by
  cases ha
  case queryFails => rfl
  case txFails    => rfl
  case done =>
    cases o
    case vote g votes _ => exact castVotes_eq_foldl g votes _
    all_goals rfl

theorem relayHealth_serves {p : Handler α} (h : Serves Ctl.Answers p c ops a c') :
    c'.relayHealth = (ops.flatMap CtlOp.votes).foldl castVote c.relayHealth := by
  induction h
  case ret => rfl
  case op ha _ ih => rw [ih, relayHealth_answers ha, List.flatMap_cons, List.foldl_append]

theorem Db.keysOnly_of_touch (h : db.transact t = .ok (out, db')) (ht : t.touch = .driving) :
    KeysOnly db db' := by
  cases t
  case promoteEpoch     => exact snd_of_ok h ▸ promoteEpoch_keysOnly
  case retireEpoch      => exact snd_of_ok h ▸ retireEpoch_keysOnly
  case dropPendingEpoch => exact snd_of_ok h ▸ dropPendingEpoch_keysOnly
  all_goals cases ht

-- Relays and votes are left alone by all that has to do with keys, and by what is only read or told.
def SameRelays (c c' : Ctl) : Prop :=
  c'.db.relays = c.db.relays ∧ c'.relayHealth = c.relayHealth

omit [Ipnet] [Sha256] [IpnetV6] [PolicyText] in
theorem SameRelays.trans (h₁ : SameRelays c c₁) (h₂ : SameRelays c₁ c') : SameRelays c c' :=
  ⟨h₂.1.trans h₁.1, h₂.2.trans h₁.2⟩

theorem sameRelays_answers (ho : o.touch ∈ [Touch.driving, .trackers, .reading, .telling])
    (ha : Ctl.Answers c o x c') : SameRelays c c' := by
  cases ha
  case queryFails => exact ⟨rfl, rfl⟩
  case txFails    => exact ⟨rfl, rfl⟩
  case done =>
    cases o
    case tx t _ =>
      refine ⟨Db.commit_induct (P := fun db => db.relays = c.db.relays) t rfl fun h => ?_, rfl⟩
      have ht : t.touch = .driving := by cases t <;> simp [CtlOp.touch, Tx.touch] at ho ⊢
      cases Db.keysOnly_of_touch h ht
      rfl
    case vote         => simp [CtlOp.touch] at ho
    case unlockHealth => simp [CtlOp.touch] at ho
    all_goals exact ⟨rfl, rfl⟩

theorem sameRelays_serves {p : Handler α} (h : Serves Ctl.Answers p c ops a c')
    (hp : Uses [.driving, .trackers, .reading, .telling] p) : SameRelays c c' :=
  h.rel (R := SameRelays) (fun _ => ⟨rfl, rfl⟩) .trans
    sameRelays_answers (h.only hp.only)

section Calls

theorem serves_orStatus_ok {ε : Type} {status : ε → Status} {r : Except ε α}
    (h : Serves Ctl.Answers (orStatus status r).run c ops (.ok x) c') : r = .ok x ∧ c' = c := by
  cases r
  case error =>
    have ⟨_, h, _⟩ := serves_run_throw.mp h
    cases h
  case ok =>
    have ⟨_, h, hc⟩ := serves_run_pure.mp h
    cases h
    exact ⟨rfl, hc⟩

theorem serves_liftM_ok {p : Handler α}
    (h : Serves Ctl.Answers (liftM p : Rpc α).run c ops (.ok x) c') :
    Serves Ctl.Answers p c ops x c' := by
  have ⟨_, he, hp⟩ := serves_run_lift.mp h
  cases he
  exact hp

theorem serves_askOr_ok {x : q.Resp} (h : Serves Ctl.Answers (askOr context q).run c ops (.ok x) c') :
    x = c.db.ask q ∧ c' = c := by
  have ⟨r, _, _, _, _, hp, hr⟩ := serves_run_bind_ok h
  have ⟨hr, hc⟩ := serves_orStatus_ok hr
  subst hr hc
  exact (serves_perform.mp (serves_liftM_ok hp)).2.query_ok

-- A transaction whose error ends the call.
theorem serves_commit_ok {status : t.Err → Status} {g : t.Out → Rpc β}
    (h : Serves Ctl.Answers
      (do let r ← (liftM (Handler.commit t) : Rpc _); let x ← orStatus status r; g x).run
      c ops (.ok b) c') :
    ∃ x c₁ ops', c.db.commit t = (.ok x, c₁.db) ∧ c₁ = { c with db := c₁.db } ∧
      Serves Ctl.Answers (g x).run c₁ ops' (.ok b) c' := by
  have ⟨r, _, _, _, _, hp, hr⟩ := serves_run_bind_ok h
  have ⟨x, c₁, _, ops', _, hr, hg⟩ := serves_run_bind_ok hr
  have ⟨hr, hc⟩ := serves_orStatus_ok hr
  subst hr hc
  have ⟨hd, hc⟩ := (serves_perform.mp (serves_liftM_ok hp)).2.tx_ok
  exact ⟨x, c₁, ops', hd, hc, hg⟩

theorem serves_map_ok {x : Rpc α} {g : α → β}
    (h : Serves Ctl.Answers (do return g (← x) : Rpc β).run c ops (.ok b) c') :
    ∃ a ops', Serves Ctl.Answers x.run c ops' (.ok a) c' := by
  have ⟨a, _, ops', _, _, hx, h⟩ := serves_run_bind_ok h
  have ⟨_, _, hc⟩ := serves_run_pure.mp h
  exact ⟨a, ops', hc ▸ hx⟩

-- The status that a relay is to have, if it is on file.
def Settled (db : Db) (relay : Nat) (healthy : Bool) : Prop :=
  ∀ status ∈ db.relayStatus relay, status = if healthy then .active else .inactive

omit [Ipnet] [Sha256] [IpnetV6] [PolicyText] in
theorem relayStatus_setRelayStatus (db : Db) :
    (db.setRelayStatus relay status).relayStatus r =
      if r = relay then (db.relayStatus r).map fun _ => status else db.relayStatus r := by
  simp only [Db.relayStatus, Db.setRelayStatus, Db.bumpRevision]
  induction db.relays
  case nil => simp
  case cons row rows ih =>
    by_cases hr : row.id = relay <;> by_cases hx : row.id = r <;> by_cases he : r = relay <;> simp_all

open Sync in
theorem updateRelays_ok (hn : (touched.map Prod.fst).Nodup)
    (h : Serves Ctl.Answers (updateRelays touched).run c ops (.ok b) c') :
    (∀ r ∉ touched.map Prod.fst, c'.db.relayStatus r = c.db.relayStatus r) ∧
      ∀ r healthy, (r, healthy) ∈ touched → Settled c'.db r healthy := by
  induction touched generalizing c ops b
  case nil =>
    have ⟨_, _, hc⟩ := serves_run_pure.mp h
    exact ⟨fun _ _ => by rw [hc], nofun⟩
  case cons t rest ih =>
    have ⟨current, c₁, _, _, _, hq, h⟩ := serves_run_bind_ok h
    have ⟨hs, hc⟩ := serves_askOr_ok hq
    subst hs hc
    simp only [List.map_cons, List.nodup_cons] at hn
    dsimp only at h
    generalize hd : (if t.2 = true then RelayStatus.active else .inactive) = desired at h
    have hu : ∃ c₂ ops' b', (∀ status ∈ c₂.db.relayStatus t.1, status = desired) ∧
        (∀ r ≠ t.1, c₂.db.relayStatus r = c₁.db.relayStatus r) ∧
        Serves Ctl.Answers (updateRelays rest).run c₂ ops' (.ok b') c' := by
      split at h
      case isTrue =>
        have ⟨_, c₂, _, hd, _, h⟩ := serves_commit_ok h
        have ⟨b', ops', h⟩ := serves_map_ok h
        have hd : c₂.db = c₁.db.setRelayStatus t.1 desired := congrArg Prod.snd hd.symm
        refine ⟨c₂, ops', b', ?_, ?_, h⟩
        all_goals simp +contextual [hd, relayStatus_setRelayStatus, eq_comm]
      case isFalse hc =>
        have ⟨b', ops', h⟩ := serves_map_ok h
        refine ⟨c₁, ops', b', fun status hs => ?_, fun _ _ => rfl, h⟩
        simpa [show c₁.db.ask (.relayStatus t.1) = some status from hs] using hc
    have ⟨c₂, _, _, ht, hf, h⟩ := hu
    have ⟨h₁, h₂⟩ := ih hn.2 h
    refine ⟨fun r hr => ?_, fun r healthy hm => ?_⟩
    case refine_1 =>
      simp only [List.map_cons, List.mem_cons, not_or] at hr
      rw [h₁ r hr.2, hf r hr.1]
    case refine_2 =>
      cases hm
      case head    => exact fun status hs => hd ▸ ht status (h₁ r hn.1 ▸ hs)
      case tail hm => exact h₂ r healthy hm

theorem relayHealth_of_uses {p : Handler α} (h : Serves Ctl.Answers p c ops a c')
    (hp : Uses touches p) (ht : .votes ∉ touches) : c'.relayHealth = c.relayHealth := by
  have hn : ops.flatMap CtlOp.votes = [] := by
    refine List.flatMap_eq_nil_iff.mpr fun o ho => CtlOp.votes_of_touch fun he => ht ?_
    exact he ▸ h.only hp.only o ho
  rw [relayHealth_serves h, hn, List.foldl_nil]

theorem voted (ha : Ctl.Answers c (.vote g votes) touched c') :
    touched = (distinct (votes.map Prod.fst)).map (fun r => (r, anyHealthy c'.relayHealth r)) := by
  cases ha
  rfl

theorem unlocked (h : Serves Ctl.Answers (Prog.perform CtlOp.unlockHealth : Handler Unit) c ops () c') :
    SameRelays c c' := by
  have ⟨_, ha⟩ := serves_perform.mp h
  cases ha
  exact ⟨rfl, rfl⟩

open Sync in
theorem reportHealth_ok (h : Serves Ctl.Answers (reportHealth g votes).run c ops (.ok ()) c') :
    ∀ relay ∈ votes.map Prod.fst, Settled c'.db relay (anyHealthy c'.relayHealth relay) := by
  have ⟨touched, c₁, _, _, _, hv, h⟩ := serves_run_bind_ok h
  have ⟨_, hv⟩ := serves_perform.mp (serves_liftM_ok hv)
  have ⟨r, c₂, _, _, _, hu, h⟩ := serves_run_bind_ok h
  have ⟨_, he, hu⟩ := serves_run_lift.mp hu
  cases he
  cases r
  case error =>
    have ⟨_, _, _, _, _, _, h⟩ := serves_run_bind_ok h
    have ⟨_, h, _⟩ := serves_run_throw.mp h
    cases h
  case ok changed =>
    have hc : SameRelays c₂ c' := by
      dsimp only at h
      split at h
      case isTrue =>
        have ⟨_, _, _, _, _, he, hl⟩ := serves_run_bind_ok h
        have he := sameRelays_serves (serves_liftM_ok he) (uses_emitRelaysChanged.weaken (by simp))
        exact he.trans (unlocked (serves_liftM_ok hl))
      case isFalse => exact unlocked (serves_liftM_ok h)
    have hh : c'.relayHealth = c₁.relayHealth :=
      hc.2.trans (relayHealth_of_uses hu uses_updateRelays (by simp))
    have ht := voted hv
    intro relay hr status hs
    have hn : (touched.map Prod.fst).Nodup := by
      rw [ht, List.map_map]
      exact (List.map_id _).symm ▸ nodup_distinct _
    refine (updateRelays_ok hn hu).2 relay (anyHealthy c'.relayHealth relay) ?_ status ?_
    case refine_1 =>
      rw [ht, hh]
      exact List.mem_map_of_mem (f := fun r => (r, anyHealthy c₁.relayHealth r)) (mem_distinct.mpr hr)
    case refine_2 => rwa [Db.relayStatus, hc.1] at hs

open Sync in
theorem report_ok (h : Serves Ctl.Answers (report name req).run c ops (.ok ()) c') :
    ∀ relay ∈ req.relayHealth.map Prod.fst, Settled c'.db relay (anyHealthy c'.relayHealth relay) := by
  have ⟨gw, _, _, _, _, _, h⟩ := serves_run_bind_ok h
  have ⟨_, _, _, _, _, _, h⟩ := serves_run_bind_ok h
  have ⟨_, _, _, _, _, h⟩ := serves_commit_ok h
  have ⟨revision, _, _, _, _, h⟩ := serves_commit_ok h
  -- Whether the endpoints are announced or not, the report goes on in the same way.
  have voting {c₁ ops₁ x} (h : Serves Ctl.Answers
      (if (!req.relayHealth.isEmpty) = true then do
          reportHealth gw.id req.relayHealth
          if (!req.epochAcks.isEmpty) = true then
            liftM (reportAcks gw.id req.epochAcks) else pure ()
        else x : Rpc Unit).run c₁ ops₁ (.ok ()) c') :
      ∀ relay ∈ req.relayHealth.map Prod.fst, Settled c'.db relay (anyHealthy c'.relayHealth relay) := by
    intro relay hr
    have hn := List.ne_nil_of_mem hr
    rw [if_pos (by simpa using hn)] at h
    have ⟨_, c₂, _, _, _, hh, ha⟩ := serves_run_bind_ok h
    have hs : SameRelays c₂ c' := by
      split at ha
      case isTrue  => exact sameRelays_serves (serves_liftM_ok ha) uses_reportAcks
      case isFalse => exact (serves_run_pure.mp ha).2.2 ▸ ⟨rfl, rfl⟩
    have hr := reportHealth_ok hh relay hr
    rwa [Settled, Db.relayStatus, ← hs.1, ← hs.2] at hr
  dsimp only at h
  cases revision
  case none   => exact voting h
  case some n =>
    have ⟨_, _, _, _, _, _, h⟩ := serves_run_bind_ok h
    exact voting h

end Calls

end Relays

section Lifetime

variable [Ipnet] [Sha256] [IpnetV6] [PolicyText] [Base64]

inductive Served.Step (c : Ctl) : Served → Ctl → Prop
  | report : Serves Ctl.Answers (Sync.report name req).run c l res c' → ok = res.isOk →
      Step c (.report name req l ok) c'
  | request : Serves Ctl.Answers q.handle c l () c' → Step c (.request q l) c'
  | outside : Ctl.Outside c v c' → Step c (.outside v) c'

-- The votes that the controller keeps are those it has taken.
theorem relayHealth_run (r : Run Served.Step (Ctl.restart c₀) h c) :
    c.relayHealth = (votesOf h).foldl castVote [] := by
  induction r
  case start => rfl
  case step hs ih =>
    rw [votesOf, List.foldl_append, ← ih]
    cases hs
    case report _ hs => exact relayHealth_serves hs
    case request hs  => exact relayHealth_serves hs
    case outside hs  => cases hs <;> rfl

theorem anyHealthy_iff (r : Run Served.Step (Ctl.restart c₀) h c) :
    anyHealthy c.relayHealth relay ↔ ∃ g, latestVote g relay h = some true := by
  simp only [anyHealthy, List.any_eq_true, decide_eq_true_eq, relayHealth_run r, mem_foldl_castVote,
    latestVote, Option.map_eq_some_iff]
  constructor
  case mp =>
    rintro ⟨v, hv, rfl, hh⟩
    exact ⟨v.gatewayId, v, hv, hh⟩
  case mpr =>
    rintro ⟨g, v, hv, hh⟩
    have hm := List.mem_of_getLast? hv
    simp only [List.mem_filter, decide_eq_true_eq] at hm
    have ⟨_, hg, hr⟩ := hm
    exact ⟨v, by rw [hg, hr, hv], hr, hh⟩

-- Whether the relay's status follows from what active gateways say of it.
def FollowsVotes (h : List (Ctl × Served)) (c : Ctl) (relay : Nat) : Prop :=
  c.db.relayStatus relay = some .active ↔
    ∃ g, c.db.gatewayIsActive g ∧ latestVote g relay h = some true

-- The relays that were voted on by a report that has just come to its end.
def justVoted : List (Ctl × Served) → List Nat
  | (_, .report _ req _ true) :: _ => req.relayHealth.map Prod.fst
  | _                              => []

theorem settled_run (r : Run Served.Step (Ctl.restart c₀) h c) (hv : relay ∈ justVoted h) :
    Settled c.db relay (anyHealthy c.relayHealth relay) := by
  cases r
  case start => cases hv
  case step hs =>
    cases hs
    case request => cases hv
    case outside => cases hv
    case report res ok hk hs =>
      cases res
      case ok    => subst hk; exact report_ok hs relay hv
      case error => subst hk; cases hv

theorem relay_follows_votes_iff (r : Run Served.Step (Ctl.restart c₀) h c) (hv : relay ∈ justVoted h)
    (hf : (c.db.relayStatus relay).isSome) :
    FollowsVotes h c relay ↔
      ((∃ g, latestVote g relay h = some true) →
        ∃ g, c.db.gatewayIsActive g ∧ latestVote g relay h = some true) := by
  have ⟨status, hf⟩ := Option.isSome_iff_exists.mp hf
  have ha : c.db.relayStatus relay = some .active ↔ anyHealthy c.relayHealth relay := by
    rw [hf, settled_run r hv status hf]
    cases anyHealthy c.relayHealth relay <;> simp
  rw [FollowsVotes, ha, anyHealthy_iff r]
  exact ⟨Iff.mp, fun h => ⟨h, fun ⟨g, _, hg⟩ => ⟨g, hg⟩⟩⟩

end Lifetime

section Calls

inductive Call
  | report (gatewayName : String) (req : ReportRequest)
  | request (q : Request)

variable [Ipnet] [Sha256] [IpnetV6] [PolicyText] [Base64]

-- A call as it goes where the database makes no errors.
def Call.serve (c : Ctl) : Call → Option (Served × Ctl)
  | report name req =>
    ((Sync.report name req).run.serve? (fun o c => player.exec c o) c).map
      fun (ops, res, c') => (.report name req ops res.isOk, c')
  | request q =>
    (q.handle.serve? (fun o c => player.exec c o) c).map fun (ops, _, c') => (.request q ops, c')

def Call.next (here : List (Ctl × Served) × Ctl) (call : Call) : List (Ctl × Served) × Ctl :=
  match call.serve here.2 with
  | some (e, c) => ((here.2, e) :: here.1, c)
  | none        => here

def called : List Call → List (Ctl × Served) × Ctl
  | []            => ([], .start)
  | call :: calls => call.next (called calls)

theorem Call.step_serve (h : Call.serve c call = some (e, c')) : Served.Step c e c' := by
  cases call
  case report =>
    have ⟨⟨_, _, _⟩, hs, he⟩ := Option.map_eq_some_iff.mp h
    cases he
    exact .report (serves_serve? _ player.answers hs) rfl
  case request =>
    have ⟨⟨_, _, _⟩, hs, he⟩ := Option.map_eq_some_iff.mp h
    cases he
    exact .request (serves_serve? _ player.answers hs)

theorem run_called (calls : List Call) :
    Run Served.Step (Ctl.restart .start) (called calls).1 (called calls).2 := by
  induction calls
  case nil => exact .start
  case cons call calls ih =>
    rw [called, Call.next]
    split
    case h_1 hs => exact ih.step (Call.step_serve hs)
    case h_2    => exact ih

end Calls

section Example

open StandIn

def vote (healthy : Bool) : ReportRequest where
  appliedVersion    := 0
  localEndpoints    := []
  relayHealth       := [(1, healthy)]
  epochAcks         := []
  sessionGeneration := 0

-- The latest call comes first. Gateway 1 has said that the relay is healthy.
def votedHealthy : List Call :=
  [.report "gw-aa" (vote true), .request (.registerRelay "r" "203.0.113.7:4433"),
    .request (enroll ["11.0.0.0/8"] "bb"), .request (token .gateway ["11.0.0.0/8"] 0 "bb"),
    .request (.createSegment "b" ["11.0.0.0/8"]), .request (enroll ["10.0.0.0/8"] "aa"),
    .request (token .gateway ["10.0.0.0/8"] 0 "aa"), .request (.createSegment "a" ["10.0.0.0/8"])]

-- Gateway 1 is gone, and gateway 2 says that the relay is not healthy.
def votedUnhealthy : List Call :=
  .report "gw-bb" (vote false) :: .request (.drain 1 "1") :: votedHealthy

set_option maxRecDepth 10000 in
theorem relay_follows_votes_iff_healthy :
    (called votedHealthy).2.db.relayStatus 1 = some .active ∧
      FollowsVotes (called votedHealthy).1 (called votedHealthy).2 1 := by
  refine ⟨by decide +kernel, ?_⟩
  refine (relay_follows_votes_iff (run_called votedHealthy) (by decide +kernel) (by decide +kernel)).mpr ?_
  exact fun _ => ⟨1, by decide +kernel, by decide +kernel⟩

set_option maxRecDepth 10000 in
theorem drained_gateway_keeps_relay :
    1 ∈ justVoted (called votedUnhealthy).1 ∧
      (called votedUnhealthy).2.db.relayStatus 1 = some .active ∧
      (called votedUnhealthy).2.db.activeGatewayIds = [2] ∧
      latestVote 2 1 (called votedUnhealthy).1 = some false ∧
      ¬ FollowsVotes (called votedUnhealthy).1 (called votedUnhealthy).2 1 := by
  have hs : (called votedUnhealthy).2.db.relayStatus 1 = some .active := by decide +kernel
  have hg : (called votedUnhealthy).2.db.activeGatewayIds = [2] := by decide +kernel
  have hl : latestVote 2 1 (called votedUnhealthy).1 = some false := by decide +kernel
  refine ⟨by decide +kernel, hs, hg, hl, fun hf => ?_⟩
  have ⟨g, ha, hh⟩ := hf.mp hs
  have hm : g ∈ (called votedUnhealthy).2.db.activeGatewayIds := by
    have ⟨row, hr, hg⟩ := List.any_eq_true.mp ha
    simp only [decide_eq_true_eq] at hg
    exact List.mem_map.mpr ⟨row, List.mem_filter.mpr ⟨hr, by simp [hg.2]⟩, hg.1⟩
  rw [hg, List.mem_singleton] at hm
  rw [hm, hl] at hh
  cases hh

end Example
end Controller
