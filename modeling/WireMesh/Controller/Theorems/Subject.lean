import WireMesh.Controller.Theorems.History
import WireMesh.Controller.Theorems.Tokens

-- Whom the announcement is about that a call has ahead of it.
namespace Controller

open Policy

-- The gateway that a transaction has changed something about.
def Tx.about : (t : Tx) → t.Out → Option Nat
  | .enrollGateway _, out             => some out.gatewayId
  | .rotateKey g, _                   => some g
  | .setEpochPubkey g _ _, .applied   => some g
  | .promoteEpoch g _, .applied       => some g
  | .retireEpoch g _, .applied        => some g
  | .dropPendingEpoch g _, .dropped   => some g
  | .setCandidateEndpoint g _, some _ => some g
  | .setLocalCandidates g _, some _   => some g
  | _, _                              => none

-- The gateway that an operation makes the subject of what its task announces next.
def CtlOp.subject : (o : CtlOp) → o.Resp → Option Nat
  | .tx t, .ok out                            => t.about out
  | .query (.activeGatewayForSegment _), .ok g => g
  | _, _                                      => none

namespace Announcer

variable {a : Announcer}

-- What an operation can do to what its task has to announce. What has been read for it is left out.
inductive Tracked (a : Announcer) : (o : CtlOp) → o.Resp → Announcer → Prop
  | read : a'.subject = a.subject → a'.segments = a.segments → a'.enrolled = a.enrolled →
      a'.found = a.found → a'.drained = a.drained → Tracked a o x a'
  | done : segs <:+ a.segments → Tracked a o x { segments := segs }
  | changed : t.about out = some g → Tracked a (.tx t) (.ok out) { subject := some g }
  | about : Tracked a (.query (.activeGatewayForSegment s)) (.ok (some g)) (a.about g)
  | enrolled : Tracked a (.tx (.enrollGateway args)) (.ok out)
      { subject := some out.gatewayId, enrolled := some (out.gatewayId, args.gatewayName) }
  | declared : Tracked a (.tx (.applyFabric nets policyYaml)) (.ok out)
      { segments := out.changedSegmentCidrs }
  | drained : Tracked a (.tx (.drainGateway g now)) (.ok out) { drained := some g }
  | found : Tracked a (.query (.findGatewayByName name)) (.ok (some gw))
      { a with found := some (name, gw) }

theorem Tracked.refl : Tracked a o x a :=
  .read rfl rfl rfl rfl rfl

theorem tracked_committed {out : t.Out} : Tracked a (.tx t) (.ok out) (a.committed t out) := by
  cases t
  case applyFabric      => exact .declared
  case drainGateway     => exact .drained
  case enrollGateway    => exact .enrolled
  case rotateKey        => exact .changed rfl
  case setEpochPubkey   => cases out; exacts [.changed rfl, .refl]
  case promoteEpoch     => cases out; exacts [.changed rfl, .refl]
  case retireEpoch      => cases out; exacts [.changed rfl, .refl]
  case dropPendingEpoch => cases out; exacts [.changed rfl, .refl, .refl]
  case setCandidateEndpoint => cases out; exacts [.refl, .changed rfl]
  case setLocalCandidates   => cases out; exacts [.refl, .changed rfl]
  all_goals exact .refl

theorem tracked_heard {x : q.Resp} : Tracked a (.query q) (.ok x) (a.heard q x) := by
  cases q
  case gatewayIdentityById     => cases x; exacts [.done (List.nil_suffix ..), .read rfl rfl rfl rfl rfl]
  case findGatewayByName       => cases x; exacts [.refl, .found]
  case activeGatewayForSegment => cases x; exacts [.done (List.tail_suffix ..), .about]
  all_goals exact .read rfl rfl rfl rfl rfl

theorem tracked_track (x : o.Resp) : Tracked a o x (track o a x) := by
  cases o
  case tx => cases x; exacts [.refl, tracked_committed]
  case query => cases x; exacts [.done (List.nil_suffix ..), tracked_heard]
  case publish ev =>
    cases ev
    case segmentCidrsChanged => exact .done (List.tail_suffix ..)
    all_goals exact .done (List.nil_suffix ..)
  all_goals exact .refl

theorem subject_track {x : o.Resp} (h : (track o a x).subject = some g) :
    a.subject = some g ∨ o.subject x = some g := by
  generalize ha : track o a x = a' at h
  cases ha ▸ tracked_track x
  case read hs _ _ _ _ => exact .inl (hs ▸ h)
  case changed ho      => cases h; exact .inr ho
  case about           => exact .inr h
  case enrolled        => exact .inr h
  case found           => exact .inl h
  all_goals cases h

theorem subject_publish : (track (.publish ev) a x).subject = none := by
  cases ev <;> rfl

-- Whoever has enrolled is the subject until the announcement is made.
theorem subject_of_enrolled (h : History) (i : Nat) :
    ∀ p ∈ (Pool.view track {} i h).enrolled, (Pool.view track {} i h).subject = some p.1 := by
  refine Pool.view_invariant (I := fun a : Announcer => ∀ p ∈ a.enrolled, a.subject = some p.1) ?_ ?_ h
  case refine_1 => exact nofun
  case refine_2 =>
    intro o a x ha p hp
    generalize hm : track o a x = a' at hp ⊢
    cases hm ▸ tracked_track x
    case read hs _ he _ _ => exact hs.trans (ha p (he ▸ hp))
    case enrolled         => cases hp; rfl
    case found            => exact ha p hp
    all_goals cases hp

end Announcer

section Names

variable {db db' : Db}

def Db.NamesOk (db : Db) : Prop :=
  (db.gateways.map (·.name)).Nodup

theorem Db.GatewayMove.names (hm : GatewayMove db t rows) (h : db.NamesOk) :
    (rows.map (·.name)).Nodup := by
  have kept {f} (hf : Keeps f) : (db.gateways.map f).map (·.name) = db.gateways.map (·.name) := by
    simp [Function.comp_def, hf.name]
  cases hm
  case kept hf => exact kept hf ▸ h
  case enrolled hn hf _ =>
    rw [List.map_append, kept hf]
    refine List.nodup_append.mpr ⟨h, List.nodup_singleton _, ?_⟩
    simpa [newGateway] using hn

-- A row keeps its id and its name.
theorem Db.GatewayMove.mem (hm : GatewayMove db t rows) (hr : row ∈ db.gateways) :
    ∃ row' ∈ rows, row'.id = row.id ∧ row'.name = row.name := by
  cases hm
  case kept f hf => exact ⟨f row, List.mem_map_of_mem hr, hf.id row, hf.name row⟩
  case enrolled hf _ =>
    exact ⟨_, List.mem_append_left _ (List.mem_map_of_mem hr), hf.id row, hf.name row⟩

theorem Db.findGatewayByName_some (h : db.findGatewayByName name = some gw) :
    ∃ row ∈ db.gateways, row.name = name ∧ row.status = .active ∧ row.id = gw.id := by
  have ⟨row, hr, hi⟩ := List.exists_of_findSome?_eq_some h
  have ⟨hr, hn⟩ := List.mem_filter.mp hr
  have ⟨_, _, he⟩ := Option.map_eq_some_iff.mp hi
  have hn : row.name = name ∧ row.status = .active := by simpa using hn
  exact ⟨row, hr, hn.1, hn.2, he ▸ rfl⟩

variable [Ipnet] [Sha256] [IpnetV6] [PolicyText] [Base64]

omit [Base64] in
theorem Db.namesOk_run (r : Run Step .empty h db) : db.NamesOk := by
  refine r.invariant (I := fun _ => NamesOk) ?_ ?_
  case refine_1 => exact List.nodup_nil
  case refine_2 => exact fun _ h hs => hs ▸ (gatewayMove_commit _).names h

-- A step of the controller leaves every gateway's row with its name.
theorem gateway_step (hs : Pool.Step rules s e t) (hr : row ∈ s.shared.db.gateways) :
    ∃ row' ∈ t.shared.db.gateways, row'.id = row.id ∧ row'.name = row.name := by
  cases db_step [] hs
  case inl hd => exact ⟨row, hd.2 ▸ hr, rfl, rfl⟩
  case inr hd =>
    have ⟨_, tx, _, _, hc⟩ := hd
    have hm := (Db.gatewayMove_commit tx).mem hr
    rwa [hc] at hm

-- Whoever has enrolled is on file under their name, and is who is found by it.
structure Announcer.Named (db : Db) (a : Announcer) : Prop where
  onFile : ∀ p ∈ a.enrolled, ∃ row ∈ db.gateways, row.id = p.1 ∧ row.name = p.2
  found : ∀ p ∈ a.enrolled, ∀ f ∈ a.found, f.1 = p.2 → f.2.id = p.1

theorem named_run (r : Runs h s) (i : Nat) :
    (Pool.view Announcer.track {} i h).Named s.shared.db := by
  induction r
  case start => exact ⟨nofun, nofun⟩
  case step h s e t r hs ih =>
    have kept : (Pool.view Announcer.track {} i h).Named t.shared.db := by
      refine ⟨fun p hp => ?_, ih.found⟩
      have ⟨row, hr, hi, hn⟩ := ih.onFile p hp
      have ⟨row', hr', hi', hn'⟩ := gateway_step hs hr
      exact ⟨row', hr', hi'.trans hi, hn'.trans hn⟩
    refine Pool.view_cons (I := Announcer.Named t.shared.db) e (fun o x he => ?_) fun _ => kept
    subst he
    cases hs
    case op hans =>
    generalize Pool.view Announcer.track {} i h = a at ih kept
    generalize hm : Announcer.track o a x = a'
    cases hm ▸ Announcer.tracked_track x
    case read hs _ he hf _ => exact ⟨he ▸ kept.onFile, he ▸ hf ▸ kept.found⟩
    case enrolled args out =>
      have ho := Db.transact_of_commit (Ctl.Answers.tx_ok hans).1
      have ⟨_, _, _, row⟩ := (Db.enrollGateway_ok ho).authorised
      refine ⟨fun p hp => ?_, nofun⟩
      cases hp
      exact ⟨_, row, rfl, rfl⟩
    case found name gw =>
      have ⟨hx, he⟩ := Ctl.Answers.query_ok hans
      refine ⟨kept.onFile, fun p hp f hf hn => ?_⟩
      cases hf
      -- There is only one row of this name.
      have ⟨row, hr, hi, hname⟩ := ih.onFile p hp
      have ⟨row', hr', hname', _, hi'⟩ := Db.findGatewayByName_some hx.symm
      have same : row' = row :=
        List.inj_on_of_nodup_map (Db.namesOk_run (db_run r)) hr' hr (hname'.trans (hn.trans hname.symm))
      rw [← hi', same, hi]
    all_goals exact ⟨nofun, nofun⟩

-- Whoever a published change makes a peer is whom its task has changed.
theorem upsert_subject (r : Runs ((s, .op i (.publish ev) x) :: h) t)
    (hp : p ∈ (deltaForChange ev).upsertedPeers) :
    (Pool.view Announcer.track {} i h).subject = some p.gatewayId := by
  have may : Announcer.MayPublish _ ev := Pool.pre_view (fun q => announces_handle q {}) r
  cases ev
  case gatewayEnrolled =>
    have ⟨new, name, gw, he, hf, hg, _⟩ := may
    cases r
    case step r _ =>
    have hi := (named_run r i).found _ he _ hf rfl
    cases List.mem_singleton.mp hp
    rw [Announcer.subject_of_enrolled h i _ he, hg, hi]
  case keyRotated          => cases List.mem_singleton.mp hp; exact may.1.subject
  case endpointObserved    => cases List.mem_singleton.mp hp; exact may.1.subject
  case segmentCidrsChanged => cases List.mem_singleton.mp hp; exact may.1.subject
  all_goals cases hp

end Names
end Controller
