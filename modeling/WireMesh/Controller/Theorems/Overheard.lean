import WireMesh.Controller.Theorems.RelayStream

-- What a relay can tell from its stream: when which serials are revoked, and nothing else of the mesh.
namespace Controller

open Policy

-- A message on the stream of a relay, with all its fields.
inductive RelayMessage
  | snapshot (s : StateSnapshot)
  | delta (d : Delta)
deriving DecidableEq

-- The message apart from its revision.
def RelayMessage.unnumbered : RelayMessage → RelayMessage
  | snapshot s => .snapshot { s with revision := 0 }
  | delta d    => .delta { d with revision := 0 }

-- The certificate of the caller whose `watch` is task `i`.
def callerCert (i : Nat) : History → Option String
  | []                                  => none
  | (_, .halt) :: _                     => none
  | (s, .spawn (.watch _ pem _)) :: h   => if s.tasks.length = i then some pem else callerCert i h
  | _ :: h                              => callerCert i h

-- The stream of a relay as `watchRelay` returns it.
def relayWatch (i : Nat) : History → Option Sync.Stream
  | []                                                        => none
  | (_, .halt) :: _                                           => none
  | (_, .op j (.query .revocationSnapshot) (.ok read)) :: h   =>
    if j = i then do
      let since ← subscribedAt i h
      let pem ← callerCert i h
      return { since, snapshot := Sync.relaySnapshot pem read }
    else relayWatch i h
  | _ :: h                                                    => relayWatch i h

def deltaMessages (events : List ChangeEvent) : List RelayMessage :=
  (events.filterMap relayRevocationDelta).map .delta

-- All messages on the stream of a relay.
def relayMessages (i : Nat) (h : History) (s : System) : Option (List RelayMessage) :=
  (relayWatch i h).map fun w => .snapshot w.snapshot :: deltaMessages (s.shared.channel.drop w.since)

-- All that matters to the stream of one relay.
inductive Matter
  | called (selfCertPem : String)
  | revoked (serials : List String)
  | told (serials : List String)
  | subscribed
  | read
  | restarted
deriving DecidableEq

-- What an event is to the relay whose stream task `i` has opened.
def matterTo (i : Nat) : System × SystemEvent → Option Matter
  | (s, .spawn (.watch _ pem _))                      =>
    if s.tasks.length = i then some (.called pem) else none
  | (_, .op _ (.tx t) (.ok out))                      =>
    if t.revokes out = [] then none else some (.revoked (t.revokes out))
  | (_, .op _ (.publish e) _)                         =>
    (relayRevocationDelta e).map fun d => .told d.revokedSerials
  | (_, .op j .subscribe _)                           => if j = i then some .subscribed else none
  | (_, .op j (.query .revocationSnapshot) (.ok _))   => if j = i then some .read else none
  | (_, .halt)                                        => some .restarted
  | _                                                 => none

def mattersTo (i : Nat) (h : History) : List Matter :=
  h.filterMap (matterTo i)

-- One that goes by what matters: the revoked serials in order, the caller's certificate, what has been
-- told since the subscription, and the messages that have been sent.
structure Ear where
  revoked : List String := []
  pem : Option String := none
  pending : Option (List RelayMessage) := none
  opened : Option (List RelayMessage) := none

namespace Ear

def tell (serials : List String) (ms : List RelayMessage) : List RelayMessage :=
  ms ++ [.delta { revision := 0, revokedSerials := serials }]

def hear : Matter → Ear → Ear
  | .called pem, ear      => { ear with pem := some pem }
  | .revoked serials, ear => { ear with revoked := (ear.revoked ++ serials).dedup.insertionSort (· ≤ ·) }
  | .told serials, ear    =>
    { ear with pending := ear.pending.map (tell serials), opened := ear.opened.map (tell serials) }
  | .subscribed, ear      => { ear with pending := some [] }
  | .read, ear            =>
    let opened := do
      let told ← ear.pending
      let pem ← ear.pem
      return .snapshot (Sync.relaySnapshot pem (0, ear.revoked)) :: told
    { ear with opened }
  | .restarted, ear       => { revoked := ear.revoked }

def hears (ms : List Matter) : Ear :=
  ms.foldr hear {}

end Ear

def unnumbered (ms : List RelayMessage) : List RelayMessage :=
  ms.map RelayMessage.unnumbered

-- The stream as it is, and as it is told by what matters.
structure Follows (i : Nat) (h : History) (s : System) (ear : Ear) : Prop where
  distinct : s.shared.db.SerialsDistinct
  revoked : ear.revoked = s.shared.db.revokedSerials
  pem : ear.pem = callerCert i h
  pending : ear.pending =
    (subscribedAt i h).map fun n => unnumbered (deltaMessages (s.shared.channel.drop n))
  opened : ear.opened = (relayMessages i h s).map unnumbered

namespace Db

variable {db db' : Db}

theorem SerialsDistinct.revokedSerials (h : SerialsDistinct db) : db.revokedSerials.Nodup := by
  rw [Db.revokedSerials, (List.perm_insertionSort _ _).nodup_iff]
  exact h.sublist (List.filter_sublist.map _)

-- The serials that are revoked are told by those that were and those that have been revoked now.
theorem revokedSerials_turn (hd : SerialsDistinct db')
    (hr : ∀ serial, db'.IsRevoked serial ↔ db.IsRevoked serial ∨ serial ∈ serials) :
    db'.revokedSerials = (db.revokedSerials ++ serials).dedup.insertionSort (· ≤ ·) := by
  refine List.Perm.eq_of_pairwise' (List.pairwise_insertionSort _ _) (List.pairwise_insertionSort _ _) ?_
  refine (List.perm_ext_iff_of_nodup hd.revokedSerials ?_).mpr fun serial => ?_
  case refine_1 => exact (List.perm_insertionSort _ _).nodup_iff.mpr (List.nodup_dedup _)
  case refine_2 => simp [mem_revokedSerials, hr]

end Db

-- A relay is told of serials and of nothing else.
theorem delta_serials (h : relayRevocationDelta e = some d) :
    d = { revision := d.revision, revokedSerials := d.revokedSerials } := by
  cases e <;> simp only [relayRevocationDelta, relayRevocationDelta.nonempty, reduceCtorEq] at h
  case certRevoked =>
    cases h
    rfl
  all_goals
    split at h
    case isTrue => cases h
    case isFalse =>
      cases h
      rfl

theorem deltaMessages_append :
    unnumbered (deltaMessages (events ++ [e])) =
      (relayRevocationDelta e).elim (unnumbered (deltaMessages events)) fun d =>
        Ear.tell d.revokedSerials (unnumbered (deltaMessages events)) := by
  cases he : relayRevocationDelta e
  case none   => simp [deltaMessages, List.filterMap_append, he]
  case some d =>
    have hd := delta_serials he
    simp [deltaMessages, unnumbered, Ear.tell, List.filterMap_append, he]
    rw [RelayMessage.unnumbered, hd]

theorem unnumbered_cons : unnumbered (m :: ms) = m.unnumbered :: unnumbered ms :=
  rfl

theorem tell_cons {d : Option Delta} : d.elim (m :: ms) (Ear.tell ·.revokedSerials (m :: ms)) =
    m :: d.elim ms (Ear.tell ·.revokedSerials ms) := by
  cases d <;> rfl

-- The serials of the snapshot are those that the stream starts with.
theorem stream_of_watch {h : History} (hw : relayWatch i h = some w) :
    relayStream i h = some (w.since, w.snapshot.revokedSerials) := by
  fun_induction relayWatch i h
  case case1 => cases hw
  case case2 => cases hw
  case case3 read h =>
    simp only [Option.bind_eq_bind, Option.bind_eq_some_iff, Option.pure_def, Option.some.injEq] at hw
    obtain ⟨n, hn, pem, _, he⟩ := hw
    simp [relayStream, hn, ← he, Sync.relaySnapshot]
  case case4 hj ih =>
    rw [relayStream, if_neg hj]
    exact ih hw
  case case5 hh hr ih =>
    rw [relayStream]
    case x_1 => exact hh
    case x_2 => exact fun s j n serials => hr s j (n, serials)
    exact ih hw

-- An event that leaves the serials, what is published and the stream alone.
theorem Follows.same {h : History} (ih : Follows i h s ear) (hm : matterTo i (s, ev) = none)
    (hd : t.shared.db = s.shared.db) (hc : t.shared.channel = s.shared.channel)
    (hp : callerCert i ((s, ev) :: h) = callerCert i h)
    (hs : subscribedAt i ((s, ev) :: h) = subscribedAt i h)
    (ho : relayWatch i ((s, ev) :: h) = relayWatch i h) :
    Follows i ((s, ev) :: h) t ((matterTo i (s, ev)).elim ear (Ear.hear · ear)) where
  distinct := hd ▸ ih.distinct
  revoked  := by rw [hm, hd]; exact ih.revoked
  pem      := by rw [hm, hp]; exact ih.pem
  pending  := by rw [hm, hs, hc]; exact ih.pending
  opened   := by rw [hm, relayMessages, ho, hc]; exact ih.opened

theorem follows_read (ih : Follows i h s ear) (hx : x.2 = s.shared.db.revokedSerials) :
    Follows i ((s, .op i (.query .revocationSnapshot) (.ok x)) :: h) s (ear.hear .read) := by
  refine ⟨ih.distinct, ih.revoked, ih.pem, ih.pending, ?_⟩
  simp only [Ear.hear, relayMessages, relayWatch, ih.pending, ih.pem, ih.revoked]
  cases subscribedAt i h
  case none => rfl
  case some n =>
    cases callerCert i h
    case none => rfl
    case some pem =>
      simp [unnumbered, RelayMessage.unnumbered, Sync.relaySnapshot, hx]

theorem follows_spawn (ih : Follows i h s ear) (hd : t.shared = s.shared) :
    Follows i ((s, .spawn q) :: h) t ((matterTo i (s, .spawn q)).elim ear (Ear.hear · ear)) := by
  cases q
  case watch cn pem g =>
    by_cases hi : s.tasks.length = i
    case neg => exact ih.same (if_neg hi) (by rw [hd]) (by rw [hd]) (if_neg hi) rfl rfl
    case pos =>
      have hm : matterTo i (s, .spawn (.watch cn pem g)) = some (.called pem) := if_pos hi
      have hp : callerCert i ((s, .spawn (.watch cn pem g)) :: h) = some pem := if_pos hi
      rw [hm]
      refine ⟨hd ▸ ih.distinct, hd ▸ ih.revoked, hp.symm, hd ▸ ih.pending, ?_⟩
      exact ih.opened.trans (by rw [relayMessages, relayMessages, hd]; rfl)
  all_goals exact ih.same rfl (by rw [hd]) (by rw [hd]) rfl rfl rfl

section Run

variable [Ipnet] [Sha256] [IpnetV6] [PolicyText] [Base64]

theorem follows_publish (run : Runs h s) (ih : Follows i h s ear)
    (hd : t.shared.db = s.shared.db) (hc : t.shared.channel = s.shared.channel ++ [e]) :
    Follows i ((s, .op j (.publish e) x) :: h) t
      ((matterTo i (s, .op j (.publish e) x)).elim ear (Ear.hear · ear)) := by
  let told (ms : List RelayMessage) : List RelayMessage :=
    (relayRevocationDelta e).elim ms (Ear.tell ·.revokedSerials ms)
  have hears {n} (hn : n ≤ s.shared.channel.length) :
      unnumbered (deltaMessages (t.shared.channel.drop n)) =
        told (unnumbered (deltaMessages (s.shared.channel.drop n))) := by
    rw [hc, List.drop_append_of_le_length hn, deltaMessages_append]
  have pending : (subscribedAt i h).map (fun n => unnumbered (deltaMessages (t.shared.channel.drop n))) =
      ear.pending.map told := by
    rw [ih.pending, Option.map_map]
    exact Option.map_congr fun n hn => hears (subscribed_le run hn)
  have opened : (relayMessages i h t).map unnumbered = ear.opened.map told := by
    rw [ih.opened, relayMessages, relayMessages, Option.map_map, Option.map_map, Option.map_map]
    refine Option.map_congr fun w hw => ?_
    simp only [Function.comp_apply, unnumbered_cons, hears (stream_le run (stream_of_watch hw)), told]
    exact tell_cons.symm
  cases hn : relayRevocationDelta e
  case none =>
    have hm : matterTo i (s, .op j (.publish e) x) = none := by simp [matterTo, hn]
    simp only [told, hn, Option.elim_none, Option.map_id'] at pending opened
    rw [hm]
    exact ⟨hd ▸ ih.distinct, hd ▸ ih.revoked, ih.pem, pending.symm, opened.symm⟩
  case some d =>
    have hm : matterTo i (s, .op j (.publish e) x) = some (.told d.revokedSerials) := by
      simp [matterTo, hn]
    simp only [told, hn, Option.elim_some] at pending opened
    rw [hm]
    exact ⟨hd ▸ ih.distinct, hd ▸ ih.revoked, ih.pem, pending.symm, opened.symm⟩

omit [Base64] in
theorem follows_tx (ih : Follows i h s ear) (hc : s.shared.db.commit tx = (.ok out, t.shared.db))
    (hch : t.shared.channel = s.shared.channel) :
    Follows i ((s, .op j (.tx tx) (.ok out)) :: h) t
      ((matterTo i (s, .op j (.tx tx) (.ok out))).elim ear (Ear.hear · ear)) := by
  have turn := Db.certTurn_of_ok (Db.transact_of_commit hc)
  have revoked := Db.revokedSerials_turn (turn.distinct ih.distinct) turn.revoked
  have opened : ear.opened = (relayMessages i h t).map unnumbered := by
    rw [relayMessages, hch]
    exact ih.opened
  by_cases hn : tx.revokes out = []
  case pos =>
    have hm : matterTo i (s, .op j (.tx tx) (.ok out)) = none := if_pos hn
    rw [hm]
    have same : s.shared.db.revokedSerials =
        (s.shared.db.revokedSerials ++ []).dedup.insertionSort (· ≤ ·) :=
      Db.revokedSerials_turn ih.distinct (by simp)
    refine ⟨turn.distinct ih.distinct, ?_, ih.pem, hch ▸ ih.pending, opened⟩
    rw [revoked, hn, ← same]
    exact ih.revoked
  case neg =>
    have hm : matterTo i (s, .op j (.tx tx) (.ok out)) = some (.revoked (tx.revokes out)) := if_neg hn
    rw [hm]
    refine ⟨turn.distinct ih.distinct, ?_, ih.pem, hch ▸ ih.pending, opened⟩
    rw [revoked, ← ih.revoked]
    rfl

theorem follows_step (run : Runs h s) (hs : Pool.Step rules s ev t) (ih : Follows i h s ear) :
    Follows i ((s, ev) :: h) t ((matterTo i (s, ev)).elim ear (Ear.hear · ear)) := by
  cases hs
  case spawn => exact follows_spawn ih rfl
  case env he => cases he <;> exact ih.same rfl rfl rfl rfl rfl rfl
  case halt => exact ⟨ih.distinct, ih.revoked, rfl, rfl, rfl⟩
  case op j o x c next ht ha =>
    cases o
    case query q =>
      have hc := Ctl.Answers.query ha
      subst hc
      cases q
      case revocationSnapshot =>
        cases x
        case error => exact ih.same rfl rfl rfl rfl rfl rfl
        case ok x =>
          by_cases hj : j = i
          case neg => exact ih.same (if_neg hj) rfl rfl rfl rfl (if_neg hj)
          case pos =>
            subst hj
            have hm : matterTo j (s, .op j (.query .revocationSnapshot) (.ok x)) = some .read :=
              if_pos rfl
            have hx : x.2 = s.shared.db.revokedSerials := congrArg Prod.snd (Ctl.Answers.query_ok ha).1
            have read := follows_read ih hx
            rw [hm]
            exact ⟨read.distinct, read.revoked, read.pem, read.pending, read.opened⟩
      all_goals exact ih.same rfl rfl rfl rfl rfl rfl
    case tx tx =>
      cases x
      case ok =>
        obtain ⟨hc, he⟩ := Ctl.Answers.tx_ok ha
        exact follows_tx ih hc (by rw [he])
      case error =>
        have hc := Ctl.Answers.tx_error ha
        subst hc
        exact ih.same rfl rfl rfl rfl rfl rfl
    case publish e =>
      obtain ⟨_, hc⟩ := Ctl.Answers.exec ha (by simp) (by simp)
      subst hc
      exact follows_publish run ih rfl rfl
    case subscribe =>
      obtain ⟨hx, hc⟩ := Ctl.Answers.exec ha (by simp) (by simp)
      subst hc
      by_cases hj : j = i
      case neg => exact ih.same (if_neg hj) rfl rfl rfl (if_neg hj) rfl
      case pos =>
        subst hj
        have hm : matterTo j (s, .op j .subscribe x) = some .subscribed := if_pos rfl
        have hx : x = s.shared.channel.length := hx
        rw [hm]
        refine ⟨ih.distinct, ih.revoked, ih.pem, ?_, ih.opened⟩
        simp [Ear.hear, subscribedAt, hx, Ctl.exec, deltaMessages, unnumbered]
    all_goals
      obtain ⟨_, hc⟩ := Ctl.Answers.exec ha (by simp) (by simp)
      subst hc
      exact ih.same rfl rfl rfl rfl rfl rfl

theorem follows_run (run : Runs h s) : Follows i h s (.hears (mattersTo i h)) := by
  induction run
  case start =>
    exact ⟨by simp [Db.SerialsDistinct, System.start, Ctl.start, Db.empty], rfl, rfl, rfl, rfl⟩
  case step h s ev t run hs ih =>
    have step := follows_step run hs ih
    rw [mattersTo, List.filterMap_cons]
    cases hm : matterTo i (s, ev)
    case none   => rwa [hm] at step
    case some m => rwa [hm] at step

-- Two runs that agree on what matters give a relay the same messages, in all their fields but the
-- revision.
theorem relays_hear_revocations_only (run : Runs h s) (run' : Runs h' s')
    (he : mattersTo i h = mattersTo i' h') :
    (relayMessages i h s).map unnumbered = (relayMessages i' h' s').map unnumbered := by
  rw [← (follows_run run).opened, he, (follows_run run').opened]

end Run

section Example

open StandIn

-- The gateway is drained as in the other run, in a mesh with one more segment and gateway, and at
-- another revision.
def drainedFromTwo : Moves :=
  drainedGateway.take 6 ++ calls 3 [.createSegment "b" ["11.0.0.0/8"],
    token .gateway ["11.0.0.0/8"] 0 "bb", .registerRelay "r" "203.0.113.7:4433", .watch "r" "" 0,
    enroll ["11.0.0.0/8"] "bb", .drain 1 "2"]

set_option maxRecDepth 20000 in
theorem relays_hear_revocations_only_drained :
    (played drainedFromTwo).2.shared.db.activeGatewayIds = [2] ∧
    (played drainedGateway).2.shared.db.activeGatewayIds = [] ∧
    relayMessages 4 (played drainedGateway).1 (played drainedGateway).2 =
      some [.snapshot (Sync.relaySnapshot "" (3, [])),
        .delta { revision := 4, revokedSerials := [Relay.recorded leafSerial] }] ∧
    (relayMessages 6 (played drainedFromTwo).1 (played drainedFromTwo).2).map unnumbered =
      (relayMessages 4 (played drainedGateway).1 (played drainedGateway).2).map unnumbered :=
  ⟨by decide +kernel, by decide +kernel, by decide +kernel,
    relays_hear_revocations_only (runs_played drainedFromTwo) (runs_played drainedGateway)
      (by decide +kernel)⟩

end Example
end Controller
