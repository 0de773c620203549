import WireMesh.Gateway.StandIn
import WireMesh.Gateway.Theorems.Frame
import WireMesh.Gateway.Theorems.Programs

-- What is advertised of peers never keeps a device from being configured, as long as the keys that
-- overlaps pin can be written.
namespace Gateway

open Prog Uapi Reconcile

section Encode

variable {cfg : DeviceConfig} {p : PeerConfig}

-- A peer that a device can be told of.
structure Writable (p : PeerConfig) : Prop where
  key : pubkeyDecodes p.publicKeyB64
  endpoint : ∀ ep ∈ p.endpoint, isDialableEndpoint ep
  allowedIps : ∀ cidr ∈ p.allowedIps, isValidIpv4Cidr cidr

theorem keyOfB64_of_decodes (h : pubkeyDecodes b64) : ∃ key, keyOfB64 b64 = .ok key := by
  rw [pubkeyDecodes] at h
  rw [keyOfB64]
  split
  case h_1 hd => simp [hd] at h
  case h_2 raw hd =>
    have hl : raw.length = 32 := by simpa [hd] using h
    exact ⟨raw, if_pos hl⟩

theorem forM_ok {f : α → Except ε Unit} {as : List α} (h : ∀ a ∈ as, f a = .ok ()) :
    as.forM f = .ok () := by
  induction as
  case nil => rfl
  case cons a as ih =>
    have ⟨ha, has⟩ := List.forall_mem_cons.mp h
    change (f a >>= fun _ => as.forM f) = _
    rw [ha]
    exact ih has

theorem mapM_ok {f : α → Except ε β} {as : List α} (h : ∀ a ∈ as, ∃ b, f a = .ok b) :
    ∃ bs, as.mapM f = .ok bs := by
  induction as
  case nil => exact ⟨[], rfl⟩
  case cons a as ih =>
    have ⟨⟨b, hb⟩, has⟩ := List.forall_mem_cons.mp h
    have ⟨bs, hbs⟩ := ih has
    exact ⟨b :: bs, by rw [List.mapM_cons, hb, hbs]; rfl⟩

theorem Writable.peerBlock (h : Writable p) : ∃ body, peerBlock p = .ok body := by
  have ⟨key, hk⟩ := keyOfB64_of_decodes h.key
  have he : p.endpoint.forM validateIpv4Endpoint = .ok () := by
    cases hp : p.endpoint
    case none    => rfl
    case some ep => exact if_pos (h.endpoint ep hp)
  have hc : p.allowedIps.forM validateIpv4Cidr = .ok () :=
    forM_ok fun cidr hm => if_pos (h.allowedIps cidr hm)
  rw [Uapi.peerBlock, he, hk]
  exact ⟨_, by rw [show p.allowedIps.forM validateIpv4Cidr = .ok () from hc]; rfl⟩

theorem encodeSet_of_writable (hk : pubkeyDecodes cfg.privateKeyB64)
    (hp : ∀ p ∈ cfg.peers, Writable p) : (encodeSet cfg).toBool := by
  have ⟨key, hk⟩ := keyOfB64_of_decodes hk
  have ⟨blocks, hb⟩ := mapM_ok fun p hm => (hp p hm).peerBlock
  rw [encodeSet, hk, encodeAddPeers, hb]
  rfl

end Encode

section State

-- What has been filtered when it came in.
structure PeerState.WellFormed (p : PeerState) : Prop where
  key : ∀ k ∈ p.activePubkeyB64, pubkeyDecodes k
  candidates : ∀ c ∈ p.candidates, isDialableEndpoint c
  allowedIps : ∀ c ∈ p.allowedIps, isValidIpv4Cidr c

def DesiredState.WellFormed (ds : DesiredState) : Prop :=
  ∀ p ∈ ds.peers, p.WellFormed

theorem mem_retainDialable (h : c ∈ retainDialable cs) : isDialableEndpoint c :=
  (List.mem_filter.mp (List.mem_of_mem_take h)).2

theorem PeerState.wellFormed_fromProto (p : Controller.Peer) : (fromProto p).WellFormed where
  key _ h        := (Option.filter_eq_some_iff.mp h).2
  candidates _ h := mem_retainDialable h
  allowedIps _ h := (List.mem_filter.mp h).2

theorem PeerState.wellFormed_deserialize (p : PeerState) : p.deserialize.WellFormed where
  key _ h        := (Option.filter_eq_some_iff.mp h).2
  candidates _ h := mem_retainDialable h
  allowedIps _ h := (List.mem_filter.mp h).2

namespace DesiredState

theorem wellFormed_load (ds : DesiredState) : ds.load.WellFormed := by
  intro p hp
  have ⟨q, _, hq⟩ := List.mem_map.mp hp
  exact hq ▸ q.wellFormed_deserialize

theorem wellFormed_fromSnapshot (s : Controller.StateSnapshot) : (fromSnapshot s).WellFormed := by
  intro p hp
  have ⟨q, _, hq⟩ := List.mem_map.mp hp
  exact hq ▸ PeerState.wellFormed_fromProto q

theorem WellFormed.applyDelta {ds : DesiredState} (h : ds.WellFormed) (d : Controller.Delta) :
    (ds.applyDelta d).WellFormed := by
  have upserted (ps : List Controller.Peer) (peers : List PeerState)
      (h : ∀ p ∈ peers, p.WellFormed) :
      ∀ p ∈ ps.foldl (fun peers p => Keyed.upsert PeerState.gatewayId (.fromProto p) peers) peers,
        p.WellFormed := by
    induction ps generalizing peers
    case nil => exact h
    case cons q ps ih =>
      refine ih _ fun p hp => ?_
      cases Keyed.mem_upsert hp
      case inl hp => exact hp ▸ PeerState.wellFormed_fromProto q
      case inr hp => exact h p hp
  intro p hp
  exact upserted d.upsertedPeers ds.peers h p (List.mem_filter.mp hp).1

end DesiredState

theorem writable_of_mem_deviceConfigPinned {ds : DesiredState} (hd : ds.WellFormed)
    (pins : ∀ gid k, AList.lookup gid pinned = some k → pubkeyDecodes k)
    (live : ∀ gid ep, AList.lookup gid endpoints = some ep → isDialableEndpoint ep)
    (hp : p ∈ (deviceConfigPinned ds priv port pinned endpoints).peers) : Writable p := by
  have ⟨q, hq, he⟩ := List.mem_filterMap.mp hp
  have ⟨key, hk, he⟩ := Option.bind_eq_some_iff.mp he
  cases he
  constructor
  case key =>
    rw [selectedKey] at hk
    cases hl : AList.lookup q.gatewayId pinned <;> rw [hl] at hk
    case none => exact (hd q hq).key key hk
    case some =>
      cases hk
      exact pins _ _ hl
  case endpoint =>
    intro ep hep
    cases hl : AList.lookup q.gatewayId endpoints <;> simp only [hl, Option.or] at hep
    case none => exact (hd q hq).candidates ep (List.mem_of_mem_head? hep)
    case some =>
      cases hep
      exact live _ _ hl
  case allowedIps => exact (hd q hq).allowedIps

end State

section Run

-- A peer that rotates its key advertises an active key that can be written.
def DesiredState.RotatesDecodable (ds : DesiredState) : Prop :=
  ∀ p ∈ ds.peers, p.pendingKey.isSome → ∀ k ∈ p.activeKey, pubkeyDecodes k.pubkeyB64

instance : Decidable (DesiredState.RotatesDecodable ds) :=
  inferInstanceAs (Decidable (∀ _ ∈ _, _))

def ReceivesDecodable (_ : History) (_ : System) : SystemEvent → Prop
  | .op _ (.classify _) (some ds) => ds.RotatesDecodable
  | _                             => True

instance : Decidable (ReceivesDecodable h s e) := by
  unfold ReceivesDecodable
  split <;> infer_instance

-- The configuration that is made of a desired state can be encoded, where the own private key and the
-- endpoints that are pinned can.
def ConfigEncodes (s : System) : SystemEvent → Prop
  | .op _ (.deviceConfig _ priv _) dev =>
    pubkeyDecodes priv → (∀ l ∈ s.shared.liveEndpoints.entries, isDialableEndpoint l.2) →
      (encodeSet dev).toBool
  | _ => True

instance : Decidable (ConfigEncodes s e) := by
  unfold ConfigEncodes
  split <;> infer_instance

-- The desired state that a task has in hand.
inductive InHand
  | nothing
  | loaded (ds : DesiredState)
  | received (ds : DesiredState)

namespace InHand

def state : InHand → Option DesiredState
  | nothing     => none
  | loaded ds   => some ds
  | received ds => some ds

def track : (o : Op) → InHand → o.Resp → InHand
  | .boot, r, x       => x.elim r loaded
  | .classify _, r, x => x.elim r received
  | _, r, _           => r

-- A key is pinned for a peer of the state that has been received.
def May : Op → InHand → Prop
  | .deviceConfig ds _ _, r => r.state = some ds
  | .setApplied ds, r       => r.state = some ds
  | .pin _ key, r           => ∃ ds, r = received ds ∧
      ∃ p ∈ ds.peers, p.pendingKey.isSome ∧ ∃ k ∈ p.activeKey, k.pubkeyB64 = key
  | _, _                    => True

variable {r : InHand}

-- Most operations neither need a state nor yield one.
def Neutral : Op → Prop
  | .boot | .classify _ | .deviceConfig _ _ _ | .setApplied _ | .pin _ _ => False
  | _                                                                    => True

theorem keeps_of_neutral {p : P α} (h : p.Only A) (hA : ∀ o, A o → Neutral o) :
    p.Tracks May track (fun _ r' => r' = r) r := by
  refine h.same fun o ho => ?_
  have ho := hA o ho
  cases o
  all_goals first | exact ⟨trivial, fun _ => rfl⟩ | exact ho.elim

theorem keeps_applyState (hr : r.state = some ds) :
    (applyState prev ds).Tracks May track (fun _ r' => r' = r) r := by
  refine only_applyState.same fun o ho => ?_
  cases o
  case deviceConfig => exact ⟨ho ▸ hr, fun _ => rfl⟩
  all_goals first | exact ⟨trivial, fun _ => rfl⟩ | exact ho.elim

theorem keeps_maybeStartRoleB :
    (maybeStartRoleB ds).Tracks May track (fun _ r' => r' = received ds) (received ds) := by
  refine only_maybeStartRoleB.same fun o ho => ?_
  cases o
  case pin => exact ⟨⟨ds, rfl, ho⟩, fun _ => rfl⟩
  all_goals first | exact ⟨trivial, fun _ => rfl⟩ | exact ho.elim

theorem keeps_onState :
    (onState ds).Tracks May track (fun _ _ => True) (received ds) := by
  simp only [onState, tracks_bind, tracks_performOp]
  refine ⟨trivial, fun _ => ⟨trivial, fun prev => (keeps_applyState rfl).mono fun ok r hr => ?_⟩⟩
  subst hr
  simp only [tracks_ite, tracks_bind, tracks_performOp]
  refine ⟨fun _ => ⟨trivial, fun _ => trivial⟩, fun _ => ⟨trivial, fun _ => ⟨trivial, fun saved => ?_⟩⟩⟩
  refine ⟨fun _ => ⟨trivial, fun _ => trivial⟩, fun _ => keeps_maybeStartRoleB.mono fun _ r hr => ?_⟩
  subst hr
  exact ⟨trivial, fun _ => ⟨rfl, fun _ => trivial⟩⟩

theorem keeps_boot : boot.Tracks May track (fun _ _ => True) nothing := by
  simp only [boot, tracks_bind, tracks_performOp]
  refine ⟨trivial, fun x => ?_⟩
  cases x
  case none => exact ⟨trivial, fun _ => trivial⟩
  case some ds =>
    refine tracks_bind.mpr <| (keeps_applyState (r := loaded ds) rfl).mono fun ok r hr => ?_
    subst hr
    simp only [tracks_ite, tracks_bind]
    exact ⟨fun _ => ⟨trivial, fun _ => trivial⟩, fun _ => ⟨trivial, fun _ => ⟨rfl, fun _ =>
      ⟨trivial, fun _ => ⟨trivial, fun _ => ⟨trivial, fun _ => trivial⟩⟩⟩⟩⟩⟩

theorem neutral_of_service (h : o.OfService) : Neutral o := by
  cases o <;> trivial

theorem neutral_of_overlap (h : o.OfOverlap) : Neutral o := by
  cases o <;> trivial

theorem keeps_turn (h : event.Tracks May track (fun _ _ => True) nothing) :
    (turn port event).Tracks May track (fun _ _ => True) nothing := by
  simp only [turn, tracks_bind]
  refine ⟨trivial, fun _ => (keeps_of_neutral only_serviceRetire fun _ => neutral_of_service).mono
    fun _ r hr => ?_⟩
  subst hr
  refine (keeps_of_neutral only_serviceRoleBCollapse fun _ => neutral_of_overlap).mono fun _ r hr => ?_
  subst hr
  exact h.mono fun _ _ _ => ⟨trivial, fun _ => trivial⟩

theorem keeps_tickRotation : tickRotation.Tracks May track (fun _ _ => True) nothing := by
  have roleA : tickRoleA.Tracks May track (fun _ r => r = nothing) nothing :=
    keeps_of_neutral only_tickRoleA fun o ho => by cases o <;> trivial
  have overlaps {p : P Unit} (h : p.Only Op.OfTickOverlap) :
      p.Tracks May track (fun _ r => r = nothing) nothing :=
    keeps_of_neutral h fun o ho => by cases o <;> trivial
  simp only [tickRotation, tracks_bind, tracks_performOp]
  refine ⟨trivial, fun _ => roleA.mono fun _ r hr => ?_⟩
  subst hr
  refine ⟨trivial, fun _ => (overlaps (.forM fun _ _ => only_tickPending)).mono fun _ r hr => ?_⟩
  subst hr
  refine ⟨trivial, fun _ => (overlaps (.forM fun _ _ => only_tickArmed)).mono fun _ r hr => ?_⟩
  exact ⟨trivial, fun _ => trivial⟩

theorem keeps_prog (q : Request) : Pool.Keeps May track (q.prog port) nothing := by
  have endpoint {p : P Unit} (h : p.Only Op.OfEndpoint) : Pool.Keeps May track p nothing :=
    (keeps_of_neutral h fun o ho => by cases o <;> trivial).mono
      fun _ _ _ => trivial
  cases q
  case boot => exact keeps_boot
  case message m =>
    refine keeps_turn ?_
    simp only [onMessage, tracks_bind, tracks_performOp]
    refine ⟨trivial, fun x => ?_⟩
    cases x
    case none => exact ⟨trivial, fun _ => trivial⟩
    case some => exact keeps_onState
  case rotate =>
    refine keeps_turn ?_
    simp only [onRotate, tracks_bind, tracks_performOp]
    refine ⟨trivial, fun x => (keeps_of_neutral only_handleRotate fun o ho => ?_).mono
      fun _ _ _ => trivial⟩
    cases o <;> trivial
  case reconnect       => exact keeps_turn ⟨trivial, fun _ => trivial⟩
  case idle            => exact keeps_turn trivial
  case tickRotation    => exact keeps_tickRotation
  case setPeerEndpoint => exact endpoint only_setPeerEndpoint
  case readThrough     => exact endpoint only_readThroughEndpoint
  case transition      => exact endpoint (only_performOp.mpr trivial)

-- What is in hand has been filtered, and what has been received is as it must be.
structure Good (r : InHand) : Prop where
  wellFormed : ∀ ds ∈ r.state, ds.WellFormed
  rotates : ∀ ds, r = received ds → ds.RotatesDecodable

end InHand

variable {h : History} {s t : System} {config : Config}

open InHand

structure Decodable (h : History) (s : System) : Prop where
  current : ∀ ds ∈ s.shared.current, ds.WellFormed
  applied : ∀ ds ∈ s.shared.applied, ds.WellFormed
  pins : ∀ gid k, s.shared.wg0Pins.lookup gid = some k → pubkeyDecodes k
  tasks : ∀ i, s.live i → Good (Pool.view track nothing i h)

theorem wellFormed_classify {g : Gw} (hc : ∀ ds ∈ g.current, ds.WellFormed)
    (h : g.classify m = some ds) : ds.WellFormed := by
  cases m
  case snapshot =>
    cases h
    exact DesiredState.wellFormed_fromSnapshot _
  case delta d =>
    have ⟨ds', hd, he⟩ := Option.map_eq_some_iff.mp h
    exact he ▸ (hc ds' hd).applyDelta d

theorem collapse_pins {g : Gw} (ds : DesiredState)
    (h : (g.collapse ds).wg0Pins.lookup gid = some k) : g.wg0Pins.lookup gid = some k := by
  have one (u : Gw) (gid' : Nat) (h : (Gw.collapseOne ds u gid').wg0Pins.lookup gid = some k) :
      u.wg0Pins.lookup gid = some k := by
    rw [Gw.collapseOne] at h
    split at h
    case h_2 => exact h
    case h_1 =>
      split at h
      case isTrue => exact h
      case isFalse =>
        rw [HashMap.lookup_erase] at h
        split at h
        case isTrue  => cases h
        case isFalse => exact h
  rw [Gw.collapse] at h
  generalize g.roleB.keys = gids at h
  induction gids generalizing g
  case nil => exact h
  case cons gid' gids ih => exact one g gid' (ih h)

namespace Decodable

theorem start : Decodable [] ⟨.start config stateJson storedKeys, []⟩ where
  current := nofun
  applied := nofun
  pins    := nofun
  tasks   := nofun

-- What a task has in hand after an operation of its own.
theorem good_track (inv : Decodable h s) (hi : s.live i) {o : Op} {x : o.Resp}
    (ha : s.shared.Answers o x g) (hr : ReceivesDecodable h s (.op i o x)) :
    Good (track o (Pool.view track nothing i h) x) := by
  have ⟨c, hc⟩ := ha
  have old := inv.tasks i hi
  cases o
  case boot =>
    simp only [Gw.step] at hc
    split at hc
    all_goals cases hc
    cases hj : s.shared.stateJson
    case none => exact old
    case some ds =>
      refine ⟨fun ds' hd => ?_, nofun⟩
      cases hd
      exact ds.wellFormed_load
  case classify m =>
    simp only [Gw.step, Gw.exec] at hc
    split at hc
    all_goals cases hc
    cases hm : s.shared.classify m
    case none => exact old
    case some ds =>
      rw [hm] at hr
      refine ⟨fun ds' hd => ?_, fun ds' hd => ?_⟩
      all_goals cases hd
      · exact wellFormed_classify inv.current hm
      · exact hr
  all_goals exact old

theorem op (inv : Decodable h s) (hi : s.live i) {o : Op} {x : o.Resp}
    (ha : s.shared.Answers o x g) (hm : May o (Pool.view track nothing i h)) :
    (∀ ds ∈ g.current, ds.WellFormed) ∧ (∀ ds ∈ g.applied, ds.WellFormed) ∧
      ∀ gid k, g.wg0Pins.lookup gid = some k → pubkeyDecodes k := by
  obtain ⟨c, hc⟩ := ha
  have old := inv.tasks i hi
  have states (hw : Part.states ∉ o.writes) :
      (∀ ds ∈ g.current, ds.WellFormed) ∧ ∀ ds ∈ g.applied, ds.WellFormed := by
    obtain ⟨hcur, happ⟩ : g.current = _ ∧ g.applied = _ := Gw.step_same hc hw
    exact ⟨hcur ▸ inv.current, happ ▸ inv.applied⟩
  have pins (hw : Part.pins ∉ o.writes) :
      ∀ gid k, g.wg0Pins.lookup gid = some k → pubkeyDecodes k := by
    have hp : g.wg0Pins = _ := Gw.step_same hc hw
    exact hp ▸ inv.pins
  cases o
  case classify m =>
    refine ⟨?_, ?_, pins (by simp [Op.writes])⟩
    all_goals
      simp only [Gw.step, Gw.exec] at hc
      split at hc
      all_goals cases hc
    case refine_1 =>
      intro ds hd
      cases hm : s.shared.classify m <;> simp only [hm, Option.or] at hd
      case none => exact inv.current ds hd
      case some =>
        cases hd
        exact wellFormed_classify inv.current hm
    case refine_2 => exact inv.applied
  case reconnect =>
    refine ⟨?_, ?_, pins (by simp [Op.writes])⟩
    all_goals
      simp only [Gw.step, Gw.exec] at hc
      split at hc
      all_goals cases hc
      exact inv.applied
  case setApplied ds =>
    refine ⟨?_, ?_, pins (by simp [Op.writes])⟩
    all_goals
      simp only [Gw.step, Gw.exec] at hc
      split at hc
      all_goals cases hc
    case refine_1 => exact inv.current
    case refine_2 =>
      intro ds' hd
      cases hd
      exact old.wellFormed ds hm
  case pin gid key =>
    obtain ⟨hcur, happ⟩ := states (by simp [Op.writes])
    refine ⟨hcur, happ, fun gid' k hk => ?_⟩
    simp only [Gw.step, Gw.exec] at hc
    split at hc
    all_goals cases hc
    rw [HashMap.lookup_insert] at hk
    split at hk
    case isFalse => exact inv.pins gid' k hk
    case isTrue =>
      cases hk
      obtain ⟨ds, hd, p, hp, pending, a, ha, he⟩ := hm
      exact he ▸ old.rotates ds hd p hp pending a ha
  case unpin gid =>
    obtain ⟨hcur, happ⟩ := states (by simp [Op.writes])
    refine ⟨hcur, happ, fun gid' k hk => ?_⟩
    simp only [Gw.step, Gw.exec] at hc
    split at hc
    all_goals cases hc
    rw [HashMap.lookup_erase] at hk
    split at hk
    case isTrue  => cases hk
    case isFalse => exact inv.pins gid' k hk
  case collapseRoleB ds =>
    obtain ⟨hcur, happ⟩ := states (by simp [Op.writes])
    refine ⟨hcur, happ, fun gid k hk => ?_⟩
    simp only [Gw.step, Gw.exec] at hc
    split at hc
    all_goals cases hc
    exact inv.pins gid k (collapse_pins ds hk)
  all_goals
    obtain ⟨hcur, happ⟩ := states (by simp [Op.writes])
    exact ⟨hcur, happ, pins (by simp [Op.writes])⟩

theorem step (run : Runs config stateJson storedKeys h s) (inv : Decodable h s)
    (hs : Pool.Step (rules config.wgListenPort) s e t) (hr : ReceivesDecodable h s e) :
    Decodable ((s, e) :: h) t := by
  have tasks : ∀ i, t.live i → Good (Pool.view track nothing i ((s, e) :: h)) := by
    refine Pool.views_step run hs (fun _ _ => ⟨nofun, nofun⟩) (fun i o x he hi => ?_)
      fun j hj _ => inv.tasks j hj
    subst he
    cases hs
    case op ha => exact inv.good_track hi ha hr
  cases hs
  case spawn => exact ⟨inv.current, inv.applied, inv.pins, tasks⟩
  case op i o x g next ht ha =>
    have hm := Pool.pre_view keeps_prog (run.step (.op ht ha))
    have ⟨hcur, happ, pins⟩ := inv.op (Pool.live_of_getElem? ht) ha hm
    exact ⟨hcur, happ, pins, tasks⟩
  case env hv =>
    cases hv
    exact ⟨inv.current, inv.applied, inv.pins, tasks⟩
  case halt => exact ⟨nofun, nofun, nofun, tasks⟩

end Decodable

theorem decodable_run (run : Runs config stateJson storedKeys h s)
    (ha : Run.Along ReceivesDecodable h) : Decodable h s := by
  induction run
  case start => exact .start
  case step run hs ih => exact (ih ha.2).step run hs ha.1

-- In a gateway that hears of no rotating peer with an active key that it could not write, no
-- configuration that a desired state is made into fails to be encoded.
theorem configEncodes_run (run : Runs config stateJson storedKeys h s)
    (ha : Run.Along ReceivesDecodable h) : ∀ e ∈ h, ConfigEncodes e.1 e.2 := by
  induction run
  case start => exact fun _ he => (List.not_mem_nil he).elim
  case step s' e _ run hs ih =>
    refine List.forall_mem_cons.mpr ⟨?_, ih ha.2⟩
    cases hs
    case spawn | env | halt => trivial
    case op i o x g next ht hx =>
      have inv := decodable_run run ha.2
      have hm := Pool.pre_view keeps_prog (run.step (.op ht hx))
      cases o
      case deviceConfig ds priv port =>
        intro hk hl
        have wf := (inv.tasks i (Pool.live_of_getElem? ht)).wellFormed ds hm
        have ⟨c, hc⟩ := hx
        simp only [Gw.step, Gw.exec] at hc
        split at hc
        all_goals cases hc
        refine encodeSet_of_writable hk fun p hp => ?_
        exact writable_of_mem_deviceConfigPinned wf inv.pins
          (fun gid ep he => hl ⟨gid, ep⟩ (AList.mem_lookup_iff.mp he)) hp
      all_goals trivial

end Run

-- A peer that rotates away from a key that nobody could write.
namespace Garbled

open StandIn

def advertises (activeKey : String) : Controller.StateSnapshot where
  revision       := 1
  selfCertPem    := ""
  peers          := [{
    gatewayId          := 2
    segmentName        := "west"
    keys               := [⟨0, activeKey, .active⟩, ⟨1, otherKey, .pending⟩]
    candidateEndpoints := ["10.9.0.2:51820"]
    allowedIps         := ["10.10.2.0/24"]
  }]
  relayInfos     := []
  policyIr       := []
  policyVersion  := 0
  revokedSerials := []

-- The gateway comes up and is told of the peer twice.
def moves (activeKey : String) : List (Pool.Move Request Elapse) :=
  [.spawn .boot, .run 0 9, .spawn (.message (.snapshot (advertises activeKey))), .run 1 50,
    .spawn (.message (.snapshot (advertises activeKey))), .run 2 50]

def played (activeKey : String) : History × System :=
  Pool.play (player config.wgListenPort fun _ => {}) ⟨.start config none none, []⟩ (moves activeKey)

theorem runs_played (activeKey : String) :
    Runs config none none (played activeKey).1 (played activeKey).2 :=
  Pool.play_run _ _ _

set_option maxRecDepth 10000 in
theorem configEncodes_garbled :
    Runs config none none (played "garbled").1 (played "garbled").2 ∧
      ¬ ∀ e ∈ (played "garbled").1, ConfigEncodes e.1 e.2 :=
  ⟨runs_played _, by decide +kernel⟩

set_option maxRecDepth 10000 in
theorem configEncodes_decodable :
    (∃ e ∈ (played ownKey).1, e.2 matches .op 2 (.deviceConfig _ _ _) _) ∧
      ∀ e ∈ (played ownKey).1, ConfigEncodes e.1 e.2 :=
  ⟨by decide +kernel, configEncodes_run (runs_played ownKey) (by decide +kernel)⟩

end Garbled
end Gateway
