import WireMesh.Controller.StandIn
import WireMesh.Controller.Theorems.Revocations
import WireMesh.Relay.Theorems.Denylist

-- Whether a relay turns away those clients whose certificates have been revoked at the controller.
namespace Controller

open Policy

-- What a task has revoked and not announced yet.
abbrev owedBy (i : Nat) (h : History) : List String :=
  (Pool.view Teller.track {} i h).owed

-- From where on a task gets what is published, as long as this process lasts.
def subscribedAt (i : Nat) : History → Option Nat
  | []                            => none
  | (_, .halt) :: _               => none
  | (_, .op j .subscribe n) :: h  => if j = i then some n else subscribedAt i h
  | _ :: h                        => subscribedAt i h

-- The stream that a task has opened for a relay: the serials it starts with, and where it goes on.
def relayStream (i : Nat) : History → Option (Nat × List String)
  | []                                                                   => none
  | (_, .halt) :: _                                                      => none
  | (_, .op j (.query .revocationSnapshot) (.ok (_, serials))) :: h      =>
    if j = i then (subscribedAt i h).map (·, serials) else relayStream i h
  | _ :: h                                                               => relayStream i h

def spawning : SystemEvent → Option Request
  | .spawn q => some q
  | _        => none

-- The task that cannot read what it needs for an announcement.
def hindering : SystemEvent → Option Nat
  | .op i (.query q) x => if Teller.hinders q x then some i else none
  | _                  => none

-- Leaves are signed, and whoever has something to announce reads what it needs for that.
def Unhindered (h : History) (ev : SystemEvent) : Prop :=
  (∀ q ∈ spawning ev, q.Signs) ∧ ∀ i ∈ hindering ev, owedBy i h = []

instance (q : Request) : Decidable q.Signs :=
  match q with
  | .enroll req => inferInstanceAs (Decidable (req.issuance.signed = .ok ()))
  | .createSegment .. | .deleteSegment .. | .mintToken .. | .registerRelay .. | .rotateKey ..
  | .drain .. | .revokeCert .. | .apply .. | .report .. | .submitEpochKey .. | .watch .. | .probe ..
  | .sweepRotations | .initiateDueRotations => .isTrue trivial

instance (h : History) (ev : SystemEvent) : Decidable (Unhindered h ev) :=
  inferInstanceAs (Decidable ((∀ q ∈ spawning ev, _) ∧ ∀ i ∈ hindering ev, _))

section Step

variable [Ipnet] [Sha256] [IpnetV6] [PolicyText] [Base64]

theorem isRevoked_step (hs : Pool.Step rules s ev t) (hr : s.shared.db.IsRevoked serial) :
    t.shared.db.IsRevoked serial := by
  cases db_step [] hs
  case inl h => exact h.2 ▸ hr
  case inr h =>
    have ⟨_, _, _, _, hc⟩ := h
    exact ((Db.certTurn_of_ok (Db.transact_of_commit hc)).revoked _).mpr (.inl hr)

-- What a step does to what has been published.
inductive Published (channel : List ChangeEvent) : SystemEvent → List ChangeEvent → Prop
  | told : Published channel (.op i (.publish e) x) (channel ++ [e])
  | lost : Published channel .halt []
  | same : Published channel ev channel

theorem published_step (hs : Pool.Step rules s ev t) :
    Published s.shared.channel ev t.shared.channel := by
  cases hs
  case spawn => exact .same
  case halt  => exact .lost
  case env he => cases he <;> exact .same
  case op i o x c next _ ha =>
    cases o
    case query => exact Ctl.Answers.query ha ▸ .same
    case tx =>
      cases x
      case error => exact Ctl.Answers.tx_error ha ▸ .same
      case ok    => rw [(Ctl.Answers.tx_ok ha).2]; exact .same
    case publish =>
      rw [(Ctl.Answers.exec ha (fun _ => nofun) fun _ => nofun).2]
      exact .told
    all_goals
      rw [(Ctl.Answers.exec ha (fun _ => nofun) fun _ => nofun).2]
      exact .same

theorem may_tell (run : Runs h s) (hs : Pool.Step rules s (.op i o x) t) :
    Teller.May o (Pool.view Teller.track {} i h) :=
  Pool.pre_view (fun q => (tells_handle q).mono fun _ _ _ => trivial) (run.step hs)

-- What is owed has been revoked, and so has all that has been announced.
theorem owed_revoked (run : Runs h s) : ∀ serial ∈ owedBy i h, s.shared.db.IsRevoked serial := by
  induction run
  case start => exact nofun
  case step h s ev t run hs ih =>
    refine Pool.view_cons (I := fun a : Teller => ∀ serial ∈ a.owed, t.shared.db.IsRevoked serial) ev
      (fun o x he => ?_) fun _ serial hm => isRevoked_step hs (ih serial hm)
    subst he
    intro serial hm
    cases o
    case tx tx =>
      cases x
      case error => exact isRevoked_step hs (ih serial hm)
      case ok out =>
        cases List.mem_append.mp hm
        case inl hm => exact isRevoked_step hs (ih serial hm)
        case inr hm =>
          cases hs
          case op ha =>
            have turn := Db.certTurn_of_ok (Db.transact_of_commit (Ctl.Answers.tx_ok ha).1)
            exact (turn.revoked serial).mpr (.inr hm)
    case publish => exact isRevoked_step hs (ih serial (List.mem_of_mem_filter hm))
    case query =>
      refine isRevoked_step hs (ih serial ?_)
      simp only [Teller.track] at hm
      split at hm <;> exact hm
    all_goals exact isRevoked_step hs (ih serial hm)

theorem announced_revoked (run : Runs h s) :
    ∀ e ∈ s.shared.channel, ∀ serial ∈ e.revokes, s.shared.db.IsRevoked serial := by
  induction run
  case start => exact nofun
  case step h s ev t run hs ih =>
    have published := published_step hs
    have step := hs
    generalize t.shared.channel = channel at published
    intro e he serial hm
    cases published
    case same => exact isRevoked_step hs (ih e he serial hm)
    case lost => cases he
    case told i e' x =>
      cases List.mem_append.mp he
      case inl he => exact isRevoked_step hs (ih e he serial hm)
      case inr he =>
        cases List.mem_singleton.mp he
        exact isRevoked_step hs (owed_revoked run serial (may_tell run hs hm))

end Step

section Stream

theorem subscribed_cons {h : History} (hn : subscribedAt i ((s, ev) :: h) = some n) :
    ev ≠ .halt ∧ (ev = .op i .subscribe n ∨ subscribedAt i h = some n) := by
  refine ⟨fun hh => (by subst hh; cases hn), ?_⟩
  rw [subscribedAt.eq_def] at hn
  split at hn
  case h_1 he => cases he
  case h_2    => cases hn
  case h_3 he =>
    cases he
    split at hn
    case isTrue hj =>
      cases hj
      cases hn
      exact .inl rfl
    case isFalse => exact .inr hn
  case h_4 he =>
    cases he
    exact .inr hn

theorem stream_cons {h : History} (hn : relayStream i ((s, ev) :: h) = some (since, serials)) :
    ev ≠ .halt ∧ ((∃ n, ev = .op i (.query .revocationSnapshot) (.ok (n, serials)) ∧
      subscribedAt i h = some since) ∨ relayStream i h = some (since, serials)) := by
  refine ⟨fun hh => (by subst hh; cases hn), ?_⟩
  rw [relayStream.eq_def] at hn
  split at hn
  case h_1 he => cases he
  case h_2    => cases hn
  case h_3 he =>
    cases he
    split at hn
    case isTrue hj =>
      cases hj
      have ⟨_, hs, he⟩ := Option.map_eq_some_iff.mp hn
      cases he
      exact .inl ⟨_, rfl, hs⟩
    case isFalse => exact .inr hn
  case h_4 he =>
    cases he
    exact .inr hn

theorem unhindered_run (tells : Run.Along (fun h _ => Unhindered h) h) :
    (Pool.view Teller.track {} i h).hindered = false := by
  induction h
  case nil => rfl
  case cons x h ih =>
    have ⟨s, ev⟩ := x
    have ih := ih tells.2
    refine Pool.view_cons (I := fun a : Teller => a.hindered = false) ev (fun o x he => ?_) fun _ => ih
    subst he
    cases o
    case query q =>
      simp only [Teller.track]
      split
      case isFalse => exact ih
      case isTrue hh =>
        refine absurd (tells.1.2 i ?_) hh.1
        simp [hindering, hh.2]
    case tx   => cases x <;> exact ih
    all_goals exact ih

theorem signs_of_mem (tells : Run.Along (fun h _ => Unhindered h) h) (hm : (s, .spawn q) ∈ h) :
    q.Signs := by
  induction h
  case nil => cases hm
  case cons ih =>
    cases List.mem_cons.mp hm
    case inl hm =>
      subst hm
      exact tells.1.1 q rfl
    case inr hm => exact ih tells.2 hm

-- What is owed stays so until it is announced.
theorem owed_cons {h : History} (s : System) (ev : SystemEvent) (hm : serial ∈ owedBy j h) :
    serial ∈ owedBy j ((s, ev) :: h) ∨ ∃ e x, ev = .op j (.publish e) x ∧ serial ∈ e.revokes := by
  refine Pool.view_cons (I := fun a : Teller => serial ∈ a.owed ∨ _) ev (fun o x he => ?_)
    fun _ => .inl hm
  cases o
  case publish e =>
    by_cases hr : serial ∈ e.revokes
    case pos => exact .inr ⟨e, x, he, hr⟩
    case neg => exact .inl (List.mem_filter.mpr ⟨hm, by simpa using hr⟩)
  case tx =>
    cases x
    case error => exact .inl hm
    case ok    => exact .inl (List.mem_append_left _ hm)
  case query =>
    simp only [Teller.track]
    split <;> exact .inl hm
  all_goals exact .inl hm

variable [Ipnet] [Sha256] [IpnetV6] [PolicyText] [Base64]

theorem channel_length_step (hs : Pool.Step rules s ev t) (hh : ev ≠ .halt) :
    s.shared.channel.length ≤ t.shared.channel.length := by
  have published := published_step hs
  generalize t.shared.channel = channel at published
  cases published
  case told => simp
  case lost => exact absurd rfl hh
  case same => exact le_refl _

theorem subscribed_le (run : Runs h s) (hn : subscribedAt i h = some n) :
    n ≤ s.shared.channel.length := by
  induction run
  case start => cases hn
  case step h s ev t run hs ih =>
    have ⟨hh, hn⟩ := subscribed_cons hn
    cases hn
    case inr hn => exact (ih hn).trans (channel_length_step hs hh)
    case inl he =>
      subst he
      cases hs
      case op ha =>
        have ⟨hx, hc⟩ := Ctl.Answers.exec ha (fun _ => nofun) fun _ => nofun
        subst hc
        exact le_of_eq hx

theorem stream_le (run : Runs h s) (hn : relayStream i h = some (since, serials)) :
    since ≤ s.shared.channel.length := by
  induction run
  case start => cases hn
  case step h s ev t run hs ih =>
    have ⟨hh, hn⟩ := stream_cons hn
    refine le_trans ?_ (channel_length_step hs hh)
    cases hn
    case inr hn => exact ih hn
    case inl hn =>
      have ⟨_, _, hn⟩ := hn
      exact subscribed_le run hn

-- What has been announced since a task subscribed, it goes on to hear.
theorem announced_step (hs : Pool.Step rules s ev t) (hh : ev ≠ .halt)
    (hle : since ≤ s.shared.channel.length)
    (ha : (∃ e ∈ s.shared.channel.drop since, serial ∈ e.revokes) ∨
      ∃ j e x, ev = .op j (.publish e) x ∧ serial ∈ e.revokes) :
    ∃ e ∈ t.shared.channel.drop since, serial ∈ e.revokes := by
  cases ha
  case inl ha =>
    have ⟨e, he, hm⟩ := ha
    have published := published_step hs
    generalize t.shared.channel = channel at published
    cases published
    case lost => exact absurd rfl hh
    case same => exact ⟨e, he, hm⟩
    case told =>
      rw [List.drop_append_of_le_length hle]
      exact ⟨e, List.mem_append_left _ he, hm⟩
  case inr ha =>
    have ⟨j, e, x, he, hm⟩ := ha
    subst he
    refine ⟨e, ?_, hm⟩
    cases hs
    case op ha =>
      rw [(Ctl.Answers.exec ha (fun _ => nofun) fun _ => nofun).2]
      change e ∈ (s.shared.channel ++ [e]).drop since
      rw [List.drop_append_of_le_length hle]
      simp

-- The serials that a stream starts with have been revoked.
theorem stream_revoked (run : Runs h s) (hn : relayStream i h = some (since, serials)) :
    ∀ serial ∈ serials, s.shared.db.IsRevoked serial := by
  induction run
  case start => cases hn
  case step h s ev t run hs ih =>
    intro serial hm
    cases (stream_cons hn).2
    case inr hn => exact isRevoked_step hs (ih hn serial hm)
    case inl hn =>
      have ⟨_, he, _⟩ := hn
      subst he
      refine isRevoked_step hs (Db.mem_revokedSerials.mp ?_)
      cases hs
      case op ha =>
        rw [(Prod.mk.inj (Ctl.Answers.query_ok ha).1).2] at hm
        exact hm

-- A task that has something to announce is still at work.
theorem live_of_owed (run : Runs h s)
    (tells : Run.Along (fun h _ => Unhindered h) ((s, .op j o x) :: h))
    (hs : Pool.Step rules s (.op j o x) t) (hm : serial ∈ owedBy j ((s, .op j o x) :: h)) : t.live j := by
  have unhindered : (Pool.view Teller.track {} j ((s, .op j o x) :: h)).hindered = false :=
    unhindered_run tells
  rw [owedBy, Pool.view_op_self] at hm
  rw [Pool.view_op_self] at unhindered
  have told (s') (q : Request) (hq : (s', .spawn q) ∈ h) : Tells True q.handle {} :=
    (tells_handle q).mono fun _ _ h _ => h (signs_of_mem tells.2 hq)
  refine Pool.live_spawned told run hs ?_
  simp [unhindered, List.ne_nil_of_mem hm]

theorem live_rest (hs : Pool.Step rules s ev t) (hh : ev ≠ .halt) (hj : ∀ o x, ev ≠ .op j o x)
    (hl : s.live j) : t.live j := by
  cases hs
  case spawn => rwa [Pool.live, List.getElem?_append_left (Pool.lt_of_live hl)]
  case env   => exact hl
  case halt  => exact absurd rfl hh
  case op i o x _ _ _ _ =>
    have hi : i ≠ j := fun he => hj o x (by rw [he])
    rwa [Pool.live, List.getElem?_set_ne hi]

-- Where calls are not kept from it, all that has been revoked is in the stream or about to be.
theorem stream_complete (run : Runs h s) (tells : Run.Along (fun h _ => Unhindered h) h)
    (hn : relayStream i h = some (since, serials)) (hr : s.shared.db.IsRevoked serial) :
    serial ∈ serials ∨ (∃ e ∈ s.shared.channel.drop since, serial ∈ e.revokes) ∨
      ∃ j, s.live j ∧ serial ∈ owedBy j h := by
  induction run
  case start => cases hn
  case step h s ev t run hs ih =>
    have ⟨hh, hn⟩ := stream_cons hn
    cases hn
    case inl hn =>
      have ⟨_, he, _⟩ := hn
      subst he
      refine .inl ?_
      cases hs
      case op ha =>
        have ⟨hx, hc⟩ := Ctl.Answers.query_ok ha
        rw [(Prod.mk.inj hx).2]
        exact Db.mem_revokedSerials.mpr (hc ▸ hr)
    case inr hn =>
      have hle := stream_le run hn
      by_cases hb : s.shared.db.IsRevoked serial
      case neg =>
        -- The serial is revoked by this very step, and the task that has done so owes it now.
        cases db_step h hs
        case inl hd => exact absurd (hd.2 ▸ hr) hb
        case inr hd =>
          have ⟨j, tx, out, he, hc⟩ := hd
          subst he
          have turn := Db.certTurn_of_ok (Db.transact_of_commit hc)
          have hm := ((turn.revoked serial).mp hr).resolve_left hb
          have owes : serial ∈ owedBy j ((s, .op j (.tx tx) (.ok out)) :: h) := by
            rw [owedBy, Pool.view_op_self]
            exact List.mem_append_right _ hm
          exact .inr (.inr ⟨j, live_of_owed run tells hs owes, owes⟩)
      case pos =>
        refine (ih tells.2 hn hb).imp_right fun h => ?_
        cases h
        case inl hm => exact .inl (announced_step hs hh hle (.inl hm))
        case inr hm =>
          have ⟨j, hl, hm⟩ := hm
          cases owed_cons s ev hm
          case inr ha =>
            have ⟨e, x, ha⟩ := ha
            exact .inl (announced_step hs hh hle (.inr ⟨j, e, x, ha⟩))
          case inl owes =>
            refine .inr ⟨j, ?_, owes⟩
            by_cases hj : ∃ o x, ev = .op j o x
            case pos =>
              have ⟨o, x, he⟩ := hj
              subst he
              exact live_of_owed run tells hs owes
            case neg => exact live_rest hs hh (fun o x he => hj ⟨o, x, he⟩) hl

end Stream

section Relay

open Relay (NoSnapshot Added Listed Body)

def relayDeltas (events : List ChangeEvent) : List Body :=
  (events.filterMap relayRevocationDelta).map fun d => .delta d.revokedSerials

theorem noSnapshot_deltas : NoSnapshot (relayDeltas events) := by
  intro b hb
  have ⟨_, _, he⟩ := List.mem_map.mp hb
  simp [← he, Body.isSnapshot]

theorem added_deltas : Added (relayDeltas events) serial ↔ ∃ e ∈ events, serial ∈ e.revokes := by
  simp only [Added, relayDeltas, List.mem_map, List.mem_filterMap, ChangeEvent.revokes]
  constructor
  case mp =>
    rintro ⟨_, ⟨d, ⟨e, he, hd⟩, ⟨⟩⟩, hm⟩
    exact ⟨e, he, by simpa [hd] using hm⟩
  case mpr =>
    rintro ⟨e, he, hm⟩
    cases hd : relayRevocationDelta e
    case none   => simp [hd] at hm
    case some d => exact ⟨d.revokedSerials, ⟨d, ⟨e, he, hd⟩, rfl⟩, by simpa [hd] using hm⟩

-- A relay turns a client away by what it has been told.
theorem refused_iff {r : Relay.Revocations} :
    Relay.verifyClientCert (r.runSync messages).denylist (Relay.issued serial) = .error .revoked ↔
      Listed r.denylist (messages.map (·.1)) (Relay.recorded serial) := by
  rw [Relay.verifyClientCert_of_serial (show (Relay.issued serial).chain = .ok () from rfl) rfl
    (Relay.extractSerialHex_derContent serial), ← Relay.Revocations.mem_runSync]
  split <;> simp_all

variable [Ipnet] [Sha256] [IpnetV6] [PolicyText] [Base64]

theorem told_revoked (run : Runs h s) (hn : relayStream i h = some (since, serials))
    (ht : serial ∈ serials ∨ ∃ e ∈ s.shared.channel.drop since, serial ∈ e.revokes) :
    serial ∈ s.shared.db.revokedSerials := by
  refine Db.mem_revokedSerials.mpr ?_
  cases ht
  case inl hm => exact stream_revoked run hn serial hm
  case inr ht =>
    have ⟨e, he, hm⟩ := ht
    exact announced_revoked run e (List.mem_of_mem_drop he) serial hm

-- However far a relay has read its stream, it turns away none but revoked clients.
theorem relays_refuse_only_revoked (run : Runs h s) (hn : relayStream i h = some (since, serials))
    (r : Relay.Revocations) (messages : List (Body × Bool)) (n : Nat)
    (hm : messages.map (·.1) = .snapshot serials :: relayDeltas ((s.shared.channel.drop since).take n))
    (serial : Relay.Serial)
    (hr : Relay.verifyClientCert (r.runSync messages).denylist (Relay.issued serial) = .error .revoked) :
    Relay.recorded serial ∈ s.shared.db.revokedSerials := by
  rw [refused_iff, hm, Relay.listed_cons noSnapshot_deltas, added_deltas] at hr
  exact told_revoked run hn <| hr.imp_right fun ⟨e, he, hm⟩ => ⟨e, List.mem_of_mem_take he, hm⟩

-- Once nobody is left with something to announce, a relay that has read its stream to the end turns
-- away all clients that are revoked, and no others.
theorem relays_refuse_exactly_revoked (run : Runs h s)
    (tells : Run.Along (fun h _ => Unhindered h) h)
    (idle : ∀ j < s.tasks.length, s.live j → owedBy j h = [])
    (hn : relayStream i h = some (since, serials)) (r : Relay.Revocations)
    (messages : List (Body × Bool))
    (hm : messages.map (·.1) = .snapshot serials :: relayDeltas (s.shared.channel.drop since))
    (serial : Relay.Serial) :
    Relay.verifyClientCert (r.runSync messages).denylist (Relay.issued serial) = .error .revoked ↔
      Relay.recorded serial ∈ s.shared.db.revokedSerials := by
  rw [refused_iff, hm, Relay.listed_cons noSnapshot_deltas, added_deltas]
  refine ⟨told_revoked run hn, fun hr => ?_⟩
  refine (stream_complete run tells hn (Db.mem_revokedSerials.mp hr)).imp_right fun h => ?_
  refine h.resolve_right fun ⟨j, hl, hm⟩ => ?_
  rw [idle j (Pool.lt_of_live hl) hl] at hm
  cases hm

end Relay

section Example

open StandIn

def leafSerial : Relay.Serial :=
  ⟨List.replicate 16 0x17#8, rfl⟩

-- A relay watches, and then the gateway with that certificate is drained.
def drainedGateway : Moves :=
  calls 0 [.createSegment "a" ["10.0.0.0/8"], token .gateway ["10.0.0.0/8"] 0 "aa",
    .enroll
      { cidrs := ["10.0.0.0/8"], token := "#tok_aa@", csrPem := "csr", endpoint := "", wgPubkey := ""
        now := "1", observeKey := "key", issuance := issuance (Relay.recorded leafSerial) },
    .registerRelay "r" "203.0.113.7:4433", .watch "r" "" 0, .drain 1 "2"]

def toldOfDrain : List (Relay.Body × Bool) :=
  [(.snapshot [], true), (.delta [Relay.recorded leafSerial], false)]

set_option maxRecDepth 20000 in
theorem relays_refuse_exactly_revoked_drained :
    relayStream 4 (played drainedGateway).1 = some (2, []) ∧
    Relay.verifyClientCert ((Relay.Revocations.load none).runSync toldOfDrain).denylist
      (Relay.issued leafSerial) = .error .revoked := by
  have hn : relayStream 4 (played drainedGateway).1 = some (2, []) := by decide +kernel
  have hc : (played drainedGateway).2.shared.channel.drop 2 =
      [.gatewayDrained 1 [Relay.recorded leafSerial] 4] := by decide +kernel
  refine ⟨hn, (relays_refuse_exactly_revoked (runs_played drainedGateway) ?_ ?_ hn _ toldOfDrain ?_ leafSerial).mpr ?_⟩
  case refine_1 => decide +kernel
  case refine_2 => decide +kernel
  case refine_3 => rw [hc]; rfl
  case refine_4 => decide +kernel

set_option maxRecDepth 20000 in
theorem relays_refuse_only_revoked_drained :
    Relay.verifyClientCert ((Relay.Revocations.load none).runSync toldOfDrain).denylist
      (Relay.issued leafSerial) = .error .revoked ∧
    Relay.recorded leafSerial ∈ (played drainedGateway).2.shared.db.revokedSerials := by
  have hn : relayStream 4 (played drainedGateway).1 = some (2, []) := by decide +kernel
  have hc : ((played drainedGateway).2.shared.channel.drop 2).take 1 =
      [.gatewayDrained 1 [Relay.recorded leafSerial] 4] := by decide +kernel
  have hr : Relay.verifyClientCert ((Relay.Revocations.load none).runSync toldOfDrain).denylist
      (Relay.issued leafSerial) = .error .revoked := refused_iff.mpr <|
    (Relay.listed_cons (by simp [Relay.NoSnapshot, Relay.Body.isSnapshot])).mpr
      (.inr ⟨[Relay.recorded leafSerial], by simp, by simp⟩)
  refine ⟨hr, relays_refuse_only_revoked (runs_played drainedGateway) hn _ toldOfDrain 1 ?_ leafSerial hr⟩
  rw [hc]
  rfl

end Example
end Controller
