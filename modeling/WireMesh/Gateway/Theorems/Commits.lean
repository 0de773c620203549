import WireMesh.Gateway.StandIn
import WireMesh.Gateway.Theorems.Driver

-- What holds of the endpoints that are committed, however the commits come between the ticks.
namespace Gateway.Driver

open Uapi Reconcile

section Stages

namespace Stage

-- What an operation makes of a stage.
inductive Goes : (o : Op) → Stage → o.Resp → Stage → Prop
  | stays : Goes o st x st
  | leave : Goes o st x .out
  | enter : Goes (.lock .endpointCommit) st () .inside
  | look : Goes (.pathState gid) .inside x (.looked gid c)
  | clear : Goes (.relayPointed g) (.looked gid c) false (.cleared gid)
  | yields : Goes (.relayPointed g) (.looked gid c) x .yielded
  | pin : Goes (.pinLive gid ep) st () (.pinned ⟨gid, ep, st = .inside, some ep.toString, false⟩)
  | bump : Goes .bumpCommitGen (.pinned w) () (.bumped w)
  | configure : Goes (.scopedConfig gid privKey port) (.bumped w) x (.bumped (w.configured x))
  | land : Goes (.addPeer ifname key ep) (.bumped w) x (.bumped { w with landed := x })

theorem goes (o : Op) (st : Stage) (x : o.Resp) : Goes o st x (o.stageAfter st x) := by
  cases o
  case lock l =>
    cases l
    case endpointCommit => exact .enter
    all_goals exact .stays
  case unlock l =>
    cases l
    case endpointCommit => exact .leave
    all_goals exact .stays
  case pinLive      => exact .pin
  case pinEndpoints => exact .leave
  case pathState =>
    cases st
    case inside => exact .look
    all_goals exact .stays
  case relayPointed =>
    cases st
    case looked gid c =>
      cases x
      case true =>
        rw [Op.stageAfter, Bool.not_true, Bool.and_false]
        exact .yields
      case false =>
        cases c
        case true  => exact .clear
        case false => exact .yields
    all_goals exact .stays
  case bumpCommitGen =>
    cases st
    case pinned => exact .bump
    all_goals exact .stays
  case scopedConfig =>
    cases st
    case bumped => exact .configure
    all_goals exact .stays
  case addPeer =>
    cases st
    case bumped => exact .land
    all_goals exact .stays
  all_goals exact .stays

-- The write that a commit is in the middle of.
def write? : Stage → Option Write
  | pinned w | bumped w => some w
  | _                   => none

-- The peer that is about to be pointed to an address of its own.
def direct? : Stage → Option Nat
  | cleared gid         => some gid
  | pinned w | bumped w => if w.isRelay then none else some w.gid
  | _                   => none

-- The generation has gone up for a write that has not come to the device.
def unlanded : Stage → Bool
  | bumped w => !w.landed
  | _        => false

end Stage

variable {o : Op} {x : o.Resp} {k : Knows} {w : Write}

theorem Write.configured_same (w : Write) (config : Option (DeviceConfig × Option String)) :
    (w.configured config).gid = w.gid ∧ (w.configured config).pinned = w.pinned ∧
      (w.configured config).isRelay = w.isRelay ∧ (w.configured config).landed = w.landed := by
  unfold configured
  (repeat' split) <;> exact ⟨rfl, rfl, rfl, rfl⟩

-- Only the generation's going up leaves a write to be made.
theorem unlanded_track (may : o.May k) (hu : (k.track o x).stage.unlanded) :
    k.stage.unlanded ∨ o = .bumpCommitGen := by
  have goes : k.stage.Goes o x (k.track o x).stage := Stage.goes ..
  generalize (k.track o x).stage = st at goes hu
  generalize he : k.stage = st₀ at goes
  cases goes
  case stays => exact .inl hu
  case bump  => exact .inr rfl
  case configure w config =>
    rw [Stage.unlanded, (w.configured_same config).2.2.2] at hu
    exact .inl hu
  case land =>
    have ⟨_, w, hw, hl, _⟩ := may
    cases he.symm.trans hw
    exact .inl (by simp [Stage.unlanded, hl])
  all_goals cases hu

-- A write goes on as it was, or starts with a pin.
theorem write?_track (hw : (k.track o x).stage.write? = some w) :
    (∃ v, k.stage.write? = some v ∧ v.gid = w.gid ∧ v.pinned = w.pinned ∧ v.isRelay = w.isRelay) ∨
      ∃ gid ep, o = .pinLive gid ep ∧ w = ⟨gid, ep, k.stage = .inside, some ep.toString, false⟩ := by
  have goes : k.stage.Goes o x (k.track o x).stage := Stage.goes ..
  generalize (k.track o x).stage = st at goes hw
  generalize k.stage = st₀ at goes
  cases goes
  case stays       => exact .inl ⟨w, hw, rfl, rfl, rfl⟩
  case pin         => exact .inr ⟨_, _, rfl, (Option.some.inj hw).symm⟩
  case bump        => exact .inl ⟨w, hw, rfl, rfl, rfl⟩
  case land        => cases hw; exact .inl ⟨_, rfl, rfl, rfl, rfl⟩
  case configure v config =>
    cases hw
    have ⟨gid, pinned, relay, _⟩ := v.configured_same config
    exact .inl ⟨v, rfl, gid.symm, pinned.symm, relay.symm⟩
  all_goals cases hw

-- A relay is pointed to where the task's own transport is.
theorem transport_track (may : o.May k)
    (hk : ∀ w, k.stage.write? = some w → w.isRelay = true → k.transport = some w.pinned) :
    ∀ w, (k.track o x).stage.write? = some w → w.isRelay = true →
      (k.track o x).transport = some w.pinned := by
  intro w hw hr
  have same (hn : ∀ relay, o ≠ .startTransport relay) : (k.track o x).transport = k.transport := by
    cases o
    case startTransport relay => exact absurd rfl (hn relay)
    all_goals rfl
  cases write?_track hw
  case inl hv =>
    have ⟨v, hv, _, hp, hi⟩ := hv
    rw [same fun relay he => ?_, hk v hv (hi ▸ hr), hp]
    subst he
    rw [show k.stage = .out from may] at hv
    cases hv
  case inr hp =>
    have ⟨gid, ep, ho, he⟩ := hp
    subst ho
    subst he
    have hs : k.stage = .inside := of_decide_eq_true hr
    cases may.2
    case inl hc => cases hs.symm.trans hc
    case inr ht => exact ht.2

end Stages

section Pins

variable {s t : PathCtx} {o : Op} {x : o.Resp} {k : Knows}

-- The pin to a relay is set by a commit alone.
theorem pointed_exec (h : s.exec c o = some (x, t)) (hp : t.pointed gid = true) :
    s.pointed gid = true ∨ o = .setRelayPointed gid true := by
  by_cases hw : .pointed ∈ o.writes
  case neg =>
    have same : t.relayPointed = s.relayPointed := exec_same h hw
    rw [PathCtx.pointed, same] at hp
    exact .inl hp
  case pos =>
    cases o
    case setRelayPointed g r =>
      cases h
      rw [PathCtx.pointed, HashMap.lookup_insert] at hp
      split at hp
      case isTrue he =>
        cases he
        exact .inr (congrArg _ hp)
      case isFalse => exact .inl hp
    case unpoint g =>
      cases h
      rw [PathCtx.pointed, HashMap.lookup_erase] at hp
      split at hp
      case isTrue  => cases hp
      case isFalse => exact .inl hp
    case retainRelayPointed gids =>
      cases h
      rw [PathCtx.pointed, HashMap.lookup_retain] at hp
      split at hp
      case isTrue  => exact .inl hp
      case isFalse => cases hp
    all_goals simp [Op.writes] at hw

-- No relay is pinned for a peer when it is first to be pointed to an address of its own.
theorem direct?_exec (h : s.exec c o = some (x, t)) (may : o.May k)
    (hd : (k.track o x).stage.direct? = some gid) :
    k.stage.direct? = some gid ∨ t.pointed gid = false := by
  have goes : k.stage.Goes o x (k.track o x).stage := Stage.goes ..
  generalize (k.track o x).stage = st at goes hd
  generalize he : k.stage = st₀ at goes
  cases goes
  case stays => exact .inl hd
  case bump  => exact .inl hd
  case land  => exact .inl hd
  case configure w config =>
    have ⟨hg, _, hr, _⟩ := w.configured_same config
    rw [Stage.direct?, hg, hr] at hd
    exact .inl hd
  case clear =>
    cases hd
    cases may.1 _ _ he
    have ⟨hx, ht⟩ := Prod.mk.inj (Option.some.inj h)
    exact .inr (ht ▸ hx)
  case pin =>
    cases may.2
    case inl hc =>
      cases he.symm.trans hc
      exact .inl hd
    case inr hi =>
      cases he.symm.trans hi.1
      cases hd
  all_goals cases hd

end Pins

section Runs

variable {h : History} {s : System} {active : ActiveTunInfo}

-- An endpoint is committed under the lock.
theorem held_of_stage (run : Runs active h s) (hs : (knows i h).stage ≠ .out) :
    .endpointCommit ∈ (knows i h).holds := by
  by_contra hn
  refine hs ?_
  refine Pool.view_keeps (I := fun k => .endpointCommit ∉ k.holds → k.stage = .out) keeps_prog run
    (fun _ => rfl) (fun o k x may hk => stage_out may hk) hn

-- While a peer is pointed to an address of its own, no relay is pinned for it.
theorem not_pointed_run (run : Runs active h s) : ∀ i, s.live i → ∀ gid,
    (knows i h).stage.direct? = some gid → s.shared.pointed gid = false := by
  induction run
  case start => nofun
  case step h s e t run hs ih =>
    have ex := Pool.exclusive_run (holding _) run
    -- A pin is set under the lock, which the task that is at work on the peer holds.
    have stays (j : Nat) (hl : s.live j) (gid : Nat) (hd : (knows j h).stage.direct? = some gid) :
        t.shared.pointed gid = false := by
      have hn : s.shared.pointed gid = false := ih j hl gid hd
      cases hs
      case op i o x u next ht ha =>
        have ⟨hi, may, c, hc⟩ := made_of_step run (.op ht ha)
        by_contra hp
        have hp : u.pointed gid = true := by simpa using hp
        cases pointed_exec hc hp
        case inl hp => cases hn.symm.trans hp
        case inr ho =>
          subst ho
          have ⟨lock, w, hw, hg, hr⟩ := may
          have hj : .endpointCommit ∈ (knows j h).holds :=
            held_of_stage run fun ho => by simp [ho, Stage.direct?] at hd
          cases ex.alone i j _ hi hl lock hj
          simp [hw, Stage.direct?, hr] at hd
      case env v u hv =>
        have same : u.relayPointed = s.shared.relayPointed :=
          hv ▸ outside_same (p := .pointed) (by decide)
        rw [PathCtx.pointed, same]
        exact hn
      case spawn => exact hn
      case halt  => rfl
    intro j hj gid hd
    have goes : Pool.Goes Knows.track {} h s e j (knows j ((s, e) :: h)) := Pool.goes_step run hs hj
    cases goes
    case start q he hv =>
      rw [hv] at hd
      cases hd
    case rest hl he hv =>
      rw [hv] at hd
      exact stays j hl gid hd
    case own o x he hl hv =>
      rw [hv] at hd
      subst he
      have ⟨_, may, c, hc⟩ := made_of_step run hs
      cases direct?_exec hc may hd
      case inl hd => exact stays j hl gid hd
      case inr hn => exact hn

end Runs

section Relays

variable {h : History} {s : System} {active : ActiveTunInfo}

-- A transport has been started that is reached at `a`.
def started (a : SocketAddr) : History → Bool
  | (_, .op _ (.startTransport _) x) :: h => x = some a || started a h
  | _ :: h                                => started a h
  | []                                    => false

-- The endpoint that a peer was given by the last commit that went through.
def committed (gid : Nat) : History → Option String
  | (_, .op i (.setRelayPointed g _) _) :: h =>
    if g = gid then (knows i h).stage.write?.bind (·.endpoint) else committed gid h
  | _ :: h                                   => committed gid h
  | []                                       => none

def Op.writesEndpoints (o : Op) : Bool :=
  .devices ∈ o.writes || .live ∈ o.writes || .pointed ∈ o.writes

def Op.opensCommit : Op → Bool
  | lock .endpointCommit => true
  | _                    => false

-- A task has written to no device and no pin since it took the lock.
def untouched (i : Nat) : History → Bool
  | (_, .op j o _) :: h =>
    if j = i then o.opensCommit || !o.writesEndpoints && untouched i h else untouched i h
  | _ :: h              => untouched i h
  | []                  => true

-- Where a relay is pinned, the peer was last pointed to a transport.
def RelayBacked (h : History) (s : PathCtx) : Prop :=
  ∀ gid, s.pointed gid = true → ∃ a, started a h = true ∧ committed gid h = some a.toString

-- Where a relay is pinned, the peer is pointed to nothing but a transport.
def NotOver (h : History) (s : System) : SystemEvent → Prop
  | .op _ (.pinLive gid ep) _   => s.shared.pointed gid = true → started ep h = true
  | .op i (.addPeer _ _ ep) _   =>
    ∀ w ∈ (knows i h).stage.write?, s.shared.pointed w.gid = true → ∃ a ∈ ep, started a h = true
  | _                           => True

-- What yields to a relay has touched nothing.
def Quiet (h : History) (_ : System) : SystemEvent → Prop
  | .op i (.unlock .endpointCommit) _ => (knows i h).stage = .yielded → untouched i h = true
  | _                                 => True

-- No other peer is configured with the key of this one.
def OwnKey (ds : DesiredState) (pins : HashMap Nat String) (gid : Nat) : Prop :=
  ∀ p ∈ ds.peers, p.gatewayId = gid → ∀ q ∈ ds.peers, ∀ pk ∈ selectedKey pins p,
    selectedKey pins q = some pk → q.gatewayId = gid

-- The pin of a commit stands until the configuration has been made from it, and the peer has a key of its
-- own.
def Stands (h : History) (s : System) : SystemEvent → Prop
  | .op i (.scopedConfig gid _ _) _ =>
    (∀ w ∈ (knows i h).stage.write?,
      s.shared.liveEndpoints.lookup gid = some w.pinned.toString) ∧
      ∀ ds ∈ s.shared.desired, OwnKey ds s.shared.wg0Pins gid
  | _                               => True

theorem endpoint_of_deviceConfigPinned (hk : OwnKey ds pins gid)
    (he : live.lookup gid = some ep)
    (ht : (ds.peers.find? (·.gatewayId = gid)).bind (selectedKey pins) = some pk)
    (hp : (deviceConfigPinned ds privKey port pins live).peers.find? (·.publicKeyB64 = pk) =
      some peer) : peer.endpoint = some ep := by
  have ⟨p, hf, hpk⟩ := Option.bind_eq_some_iff.mp ht
  have hg : p.gatewayId = gid := by simpa using List.find?_some hf
  have hq : peer.publicKeyB64 = pk := by simpa using List.find?_some hp
  have ⟨q, hm, hc⟩ := List.mem_filterMap.mp (List.mem_of_find?_eq_some hp)
  have ⟨pk', hs, hc⟩ := Option.bind_eq_some_iff.mp hc
  cases hc
  cases hq
  have hqg : q.gatewayId = gid := hk p (List.mem_of_find?_eq_some hf) hg q hm pk' hpk hs
  exact congrArg (·.or q.primaryEndpoint) (hqg ▸ he)

theorem endpoint_configured {s t : PathCtx} {w : Write}
    (h : s.exec c (.scopedConfig gid privKey port) = some (x, t))
    (hl : s.liveEndpoints.lookup gid = some w.pinned.toString)
    (hk : ∀ ds ∈ s.desired, OwnKey ds s.wg0Pins gid) (hw : w.endpoint = some w.pinned.toString) :
    (w.configured x).endpoint = some (w.configured x).pinned.toString := by
  rw [(w.configured_same x).2.1]
  cases hd : s.desired
  case none =>
    simp only [PathCtx.exec, hd, Option.map_none] at h
    cases h
    exact hw
  case some ds =>
    simp only [PathCtx.exec, hd, Option.map_some] at h
    cases h
    rw [Write.configured]
    split
    case h_2 => exact hw
    case h_1 peer hp =>
      obtain ⟨pk, ht, hp⟩ := Option.bind_eq_some_iff.mp hp
      exact endpoint_of_deviceConfigPinned (hk ds hd) hl ht hp

-- What a commit gives to the device is what it has pinned.
def Knows.Faithful (k : Knows) : Prop :=
  ∀ w, k.stage.write? = some w → w.endpoint = some w.pinned.toString

theorem faithful_exec {s t : PathCtx} {o : Op} {x : o.Resp} {k : Knows}
    (h : s.exec c o = some (x, t)) (may : o.May k) (hk : k.Faithful)
    (stands : ∀ gid privKey port, o = .scopedConfig gid privKey port →
      (∀ w ∈ k.stage.write?, s.liveEndpoints.lookup gid = some w.pinned.toString) ∧
        ∀ ds ∈ s.desired, OwnKey ds s.wg0Pins gid) : (k.track o x).Faithful := by
  intro w hw
  have goes : k.stage.Goes o x (k.track o x).stage := Stage.goes ..
  generalize (k.track o x).stage = st at goes hw
  generalize he : k.stage = st₀ at goes
  rw [Knows.Faithful, he] at hk
  cases goes
  case stays => exact hk w hw
  case pin   => cases hw; rfl
  case bump  => exact hk w hw
  case land v _ => cases hw; exact hk v rfl
  case configure v config =>
    have ⟨hl, ho⟩ := stands _ _ _ rfl
    cases hw
    exact endpoint_configured h (hl v (he ▸ rfl)) ho (hk v rfl)
  all_goals cases hw

theorem faithful_run (run : Runs active h s) (stands : Run.Along Stands h) (i : Nat) :
    (knows i h).Faithful := by
  induction run
  case start => nofun
  case step h s e t run hs ih =>
    refine Pool.view_cons e (fun o x he => ?_) fun _ => ih stands.2
    subst he
    have ⟨_, may, c, hc⟩ := made_of_step run hs
    refine faithful_exec hc may (ih stands.2) fun gid privKey port ho => ?_
    subst ho
    exact stands.1

theorem started_cons (hs : started a h = true) : started a (e :: h) = true := by
  rw [started.eq_def]
  split
  case h_1 => simp [(List.cons.inj ‹_›).2 ▸ hs]
  case h_2 => exact (List.cons.inj ‹_›).2 ▸ hs
  case h_3 => cases ‹_›

theorem started_of_transport (ht : (knows i h).transport = some a) : started a h = true := by
  induction h
  case nil => cases ht
  case cons e h ih =>
    revert ht
    refine Pool.view_cons (I := fun k : Knows => k.transport = some a → started a (e :: h) = true) e.2
      (fun o x he ht => ?_) fun _ ht => started_cons (ih ht)
    have ⟨s, _⟩ := e
    subst he
    cases o
    case startTransport relay =>
      cases x
      case none   => exact started_cons (ih ht)
      case some b =>
        cases ht
        simp [started]
    all_goals exact started_cons (ih ht)

-- A relay is pointed to a transport that has been started.
theorem started_of_write (run : Runs active h s) (hw : (knows i h).stage.write? = some w)
    (hr : w.isRelay = true) : started w.pinned h = true := by
  have own : ∀ w, (knows i h).stage.write? = some w → w.isRelay = true →
      (knows i h).transport = some w.pinned :=
    Pool.view_keeps (I := fun k => ∀ w, k.stage.write? = some w → w.isRelay = true →
      k.transport = some w.pinned) keeps_prog run nofun fun _ _ _ => transport_track
  exact started_of_transport (own w hw hr)

theorem SocketAddr.parse_toString (a : SocketAddr) : SocketAddr.parse a.toString = some a := by
  simp [SocketAddr.parse, SocketAddr.toString, Text.parseSocketAddrV4_chars a.ip a.port.isLt]

theorem relayBacked_run (run : Runs active h s) (stands : Run.Along Stands h) :
    RelayBacked h s.shared := by
  induction run
  case start => nofun
  case step h s e t run hs ih =>
    have ih := ih stands.2
    intro gid hp
    have keep (hp : s.shared.pointed gid = true) (hc : committed gid ((s, e) :: h) = committed gid h) :
        ∃ a, started a ((s, e) :: h) = true ∧ committed gid ((s, e) :: h) = some a.toString := by
      have ⟨a, ha, hg⟩ := ih gid hp
      exact ⟨a, started_cons ha, hc.trans hg⟩
    cases hs
    case spawn => exact keep hp rfl
    case halt  => cases hp
    case env v u hv =>
      have same : u.relayPointed = s.shared.relayPointed :=
        hv ▸ outside_same (p := .pointed) (by decide)
      rw [PathCtx.pointed, same] at hp
      exact keep hp rfl
    case op i o x u next ht ha =>
      have ⟨hi, may, c, hc⟩ := made_of_step run (.op ht ha)
      by_cases ho : ∃ r, o = .setRelayPointed gid r
      case pos =>
        have ⟨r, ho⟩ := ho
        subst ho
        have ⟨_, w, hw, hg, hr⟩ := may
        have hww : (knows i h).stage.write? = some w := hw ▸ rfl
        have hr : w.isRelay = true := by
          cases hc
          simpa [PathCtx.pointed, hr] using hp
        refine ⟨w.pinned, started_cons (started_of_write run hww hr), ?_⟩
        rw [committed, if_pos rfl, hww, Option.bind_some]
        exact faithful_run run stands.2 i w hww
      case neg =>
        have hp := (pointed_exec hc hp).resolve_right fun he => ho ⟨_, he⟩
        refine keep hp ?_
        cases o
        case setRelayPointed g r => exact if_neg fun (he : g = gid) => ho ⟨r, he ▸ rfl⟩
        all_goals rfl

theorem notOver_run (run : Runs active h s) (stands : Run.Along Stands h) : Run.Along NotOver h := by
  induction run
  case start => trivial
  case step h s e t run hs ih =>
    refine ⟨?_, ih stands.2⟩
    cases hs
    case op i o x u next ht ha =>
      have ⟨hi, may, c, hc⟩ := made_of_step run (.op ht ha)
      cases o
      case pinLive gid ep =>
        intro hp
        cases may.2
        case inl hs =>
          have hn := not_pointed_run run i hi gid (hs ▸ rfl)
          cases hn.symm.trans hp
        case inr hs => exact started_of_transport hs.2
      case addPeer ifname key ep =>
        intro w hw hp
        have ⟨_, v, hs, _, he⟩ := may
        cases hw.symm.trans (hs ▸ rfl : (knows i h).stage.write? = some v)
        rw [faithful_run run stands.2 i w hw, Option.bind_some, SocketAddr.parse_toString] at he
        have hr : w.isRelay = true := by
          by_contra hr
          have hd : (knows i h).stage.direct? = some w.gid := by simp [hs, Stage.direct?, hr]
          cases (not_pointed_run run i hi w.gid hd).symm.trans hp
        exact ⟨w.pinned, he, started_of_write run hw hr⟩
      all_goals trivial
    all_goals trivial

-- Before its first write, a commit has touched nothing.
def Stage.before : Stage → Bool
  | inside | looked _ _ | yielded | cleared _ => true
  | _                                         => false

theorem writesEndpoints_of_before {o : Op} {x : o.Resp} {k : Knows} (may : o.May k)
    (hb : (k.track o x).stage.before) : o.writesEndpoints = false := by
  -- The commits write where they have come further, and the ticks where they commit nothing.
  have bumped (w : Write) (hs : k.stage = .bumped w) (hb : (o.stageAfter k.stage x).before) :
      o.writesEndpoints = false := by
    have goes := Stage.goes o k.stage x
    generalize o.stageAfter k.stage x = st at goes hb
    rw [hs] at goes
    cases goes
    case enter => rfl
    all_goals cases hb
  cases o
  case pinLive | pinEndpoints => cases hb
  case removePeer =>
    have ⟨_, w, hs, _⟩ := may
    exact bumped w hs hb
  case addPeer =>
    have ⟨_, w, hs, _⟩ := may
    exact bumped w hs hb
  case setRelayPointed =>
    have ⟨_, w, hs, _⟩ := may
    exact bumped w hs hb
  case unpoint | retainRelayPointed =>
    replace hb : k.stage.before := hb
    rw [may.2.1] at hb
    cases hb
  case retainLiveEndpoints | unpinLive =>
    replace hb : k.stage.before := hb
    rw [may.2] at hb
    cases hb
  all_goals rfl

theorem before_track {o : Op} {x : o.Resp} {k : Knows} (hb : (k.track o x).stage.before) :
    k.stage.before ∨ o = .lock .endpointCommit := by
  have goes : k.stage.Goes o x (k.track o x).stage := Stage.goes ..
  generalize (k.track o x).stage = st at goes hb
  generalize k.stage = st₀ at goes
  cases goes
  case enter => exact .inr rfl
  case stays => exact .inl hb
  case look | clear | yields => exact .inl rfl
  all_goals cases hb

theorem untouched_run (run : Runs active h s) (hb : (knows i h).stage.before) :
    untouched i h = true := by
  induction run
  case start => rfl
  case step h s e t run hs ih =>
    cases e
    case op j o x =>
      have ⟨_, may, _⟩ := made_of_step run hs
      by_cases hj : j = i
      case neg =>
        rw [knows, Pool.view_op_ne hj] at hb
        rw [untouched, if_neg hj, ih hb]
      case pos =>
        subst hj
        rw [knows, Pool.view_op_self] at hb
        rw [untouched, if_pos rfl, writesEndpoints_of_before may hb]
        cases before_track hb
        case inl hb => simp [ih hb]
        case inr ho =>
          subst ho
          rfl
    all_goals exact ih hb

theorem quiet_run (run : Runs active h s) : Run.Along Quiet h := by
  induction run
  case start => trivial
  case step h s e t run hs ih =>
    refine ⟨?_, ih⟩
    unfold Quiet
    split
    case h_1 => exact fun hy => untouched_run run (hy ▸ rfl)
    case h_2 => trivial

instance : Decidable (Stands h s e) := by
  unfold Stands OwnKey
  split <;> infer_instance

instance : Decidable (NotOver h s e) := by
  unfold NotOver
  split <;> infer_instance

instance : Decidable (Quiet h s e) := by
  unfold Quiet
  split <;> infer_instance

theorem relay_pins_stand (run : Runs active h s) (stands : Run.Along Stands h) :
    RelayBacked h s.shared ∧ Run.Along NotOver h ∧ Run.Along Quiet h :=
  ⟨relayBacked_run run stands, notOver_run run stands, quiet_run run⟩

end Relays

-- A gateway with one peer and one relay.
namespace OnePeer

open StandIn (ownKey peerKey)

def active : ActiveTunInfo := ⟨"wg0", ownKey, 51820, 0, none, []⟩

def relays : List Controller.RelayInfo := [⟨1, "198.51.100.1:4433"⟩]

def state : DesiredState where
  revision       := 1
  peers          := [⟨7, "b", some peerKey, [], ["192.0.2.7:51820"], ["10.7.0.0/16"]⟩]
  policyIr       := []
  policyVersion  := 0
  relays         := relays
  revokedSerials := []

def choose : Op → Choice
  | .startTransport _ => { localPort := some 40000 }
  | _                 => {}

def played (moves : List (Pool.Move Request Outside)) : History × System :=
  Pool.play (player choose) ⟨{ active }, []⟩
    ([.env (.desired state), .env (.device "wg0" ∅)] ++ moves)

theorem runs_played (moves : List (Pool.Move Request Outside)) :
    Runs active (played moves).1 (played moves).2 :=
  Pool.play_run _ _ _

end OnePeer

-- A path has been given up for a relay, and starts to be punched again while the relay is installed.
namespace Reinstalled

open OnePeer

def moves (n : Nat) : List (Pool.Move Request Outside) :=
  [.spawn .pathTick, .run 0 50, .env (.elapse CONNECT_TIMEOUT), .spawn .pathTick, .run 1 50,
    .spawn (.relay 7 relays), .run 2 n, .env (.elapse BACKOFF_INITIAL), .spawn .pathTick, .run 3 50,
    .run 2 50]

def relayed (n : Nat) : History × System :=
  played (moves n)

-- The relay is pinned, and the device has the peer's own address.
set_option maxRecDepth 10000 in
theorem relay_pins_stand_unpinned :
    Runs active (relayed 11).1 (relayed 11).2 ∧ (relayed 11).2.shared.pointed 7 = true ∧
      committed 7 (relayed 11).1 = some "192.0.2.7:51820" ∧
      ¬ RelayBacked (relayed 11).1 (relayed 11).2.shared := by
  have pointed : (relayed 11).2.shared.pointed 7 = true := by decide +kernel
  have own : committed 7 (relayed 11).1 = some "192.0.2.7:51820" := by decide +kernel
  refine ⟨runs_played _, pointed, own, fun backed => ?_⟩
  have ⟨a, hs, ha⟩ := backed 7 pointed
  have ha : SocketAddr.parse "192.0.2.7:51820" = some a := by
    rw [Option.some.inj (own.symm.trans ha)]
    exact SocketAddr.parse_toString a
  have he : a = ⟨0xC0000207, 51820⟩ := Option.some.inj (ha.symm.trans (by decide +kernel))
  exact absurd hs (he ▸ by decide +kernel)

set_option maxRecDepth 10000 in
theorem relay_pins_stand_undisturbed :
    (relayed 50).2.shared.pointed 7 = true ∧ RelayBacked (relayed 50).1 (relayed 50).2.shared ∧
      Run.Along NotOver (relayed 50).1 ∧ Run.Along Quiet (relayed 50).1 :=
  ⟨by decide +kernel, relay_pins_stand (runs_played _) (by decide +kernel)⟩

end Reinstalled
end Gateway.Driver
