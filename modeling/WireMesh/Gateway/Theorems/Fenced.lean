import WireMesh.Gateway.StandIn
import WireMesh.Gateway.Theorems.Lanes
import WireMesh.Gateway.Theorems.Programs
import WireMesh.Gateway.Theorems.Tunnels

-- No device has peers before it has a filter, and no filter goes before its device.
namespace Gateway.Fence

open Prog

section Minding

-- Where the main loop is with a device: it has been planned, it has been brought up and has no filter yet,
-- or it has been torn down and its filter is still there.
inductive Work
  | rest
  | planned (id : TunnelId) (p : TunnelPlan)
  | building (id : TunnelId) (p : TunnelPlan)
  | torn (id : TunnelId)
deriving DecidableEq

def Work.built? : Work → Option TunnelPlan
  | building _ p => some p
  | _            => none

def Work.up (p : TunnelPlan) : Work → Work
  | planned id _ => building id p
  | w            => w

def Work.down (id : TunnelId) : Work → Work
  | building _ _ => rest
  | _            => torn id

def workAfter : (o : Op) → Work → o.Resp → Work
  | .plan id, w, x            => x.elim w (.planned id)
  | .bringUp p _, w, ok       => if ok then w.up p else .rest
  | .insertEnforcer _ _, _, _ => .rest
  | .tearDown id, w, _        => w.down id
  | .removeEnforcer _, _, _   => .rest
  | _, w, _                   => w

-- What a task knows: the locks that it holds, the filter that it has attached, and the device that it
-- writes an endpoint to.
structure Minder where
  holds : List Lock := []
  work : Work := .rest
  attached : Option GatewayEnforcer := none
  target : Option String := none
deriving DecidableEq

def track (o : Op) (r : Minder) (x : o.Resp) : Minder where
  holds    := o.locks r.holds
  work     := workAfter o r.work x
  attached := match o, x with
    | .attach _ _, x         => x
    | .insertEnforcer _ _, _ => none
    | _, _                   => r.attached
  target   := match o, x with
    | .active, a                 =>
      if .endpointCommit ∈ r.holds then r.target.or (some a.ifname) else r.target
    | .unlock .endpointCommit, _ => none
    | _, _                       => r.target

abbrev minding (i : Nat) (h : History) : Minder :=
  Pool.view track {} i h

-- Where a task may do what it does.
def May : Op → Minder → Prop
  | .boot, r                => r = {}
  | .unlock l, r            => l ∈ r.holds ∧ (l = .mainLoop → r.work = .rest)
  | .plan _, r              => .mainLoop ∈ r.holds ∧ r.work = .rest
  | .bringUp p _, r         => .mainLoop ∈ r.holds ∧ ∃ id, r.work = .planned id p
  | .setListenPort _ _, r   => .mainLoop ∈ r.holds ∧ r.work = .rest
  | .insertEnforcer id e, r =>
    .mainLoop ∈ r.holds ∧ (∃ p, r.work = .building id p) ∧ r.attached = some e
  | .tearDown id, r         =>
    .mainLoop ∈ r.holds ∧ (r.work = .rest ∨ ∃ p, r.work = .building id p)
  | .removeEnforcer id, r   => .mainLoop ∈ r.holds ∧ r.work = .torn id
  | .send ifname _, r       =>
    .mainLoop ∈ r.holds ∧ r.work = .rest ∨ .mainLoop ∉ r.holds ∧ r.target = some ifname
  | _, _                    => True

end Minding

section Programs

-- The main loop between its work on devices.
def atWork : Minder := { holds := [.mainLoop] }

theorem tracks_apply :
    (applyState prev ds).Tracks May track (fun _ r => r = atWork) atWork :=
  only_applyState.same fun o ho => by
    cases o
    case send => exact ⟨.inl ⟨.head _, rfl⟩, fun _ => rfl⟩
    all_goals first | exact ⟨trivial, fun _ => rfl⟩ | exact ho.elim

theorem tracks_applyConfig :
    (applyConfig ifname cfg).Tracks May track (fun _ r => r = atWork) atWork :=
  (only_applyConfig (A := fun o => ∃ body, o = .send ifname body) fun body => ⟨body, rfl⟩).same
    fun _ ⟨_, ho⟩ => ho ▸ ⟨.inl ⟨.head _, rfl⟩, fun _ => rfl⟩

theorem tracks_routes :
    (placePeerRoutes cidrs ifname epoch overlap).Tracks May track (fun _ r => r = atWork) atWork :=
  (only_placePeerRoutes (A := fun o => ∃ c d, o = .addRoute c d) fun _ _ => ⟨_, _, rfl⟩).same
    fun _ ⟨_, _, ho⟩ => ho ▸ ⟨trivial, fun _ => rfl⟩

-- A device goes, and its filter after it.
theorem tracks_takeDown (id : TunnelId) :
    (do perform (.tearDown id); perform (.removeEnforcer id) : P Unit).Tracks May track
      (fun _ r => r = atWork) atWork :=
  ⟨⟨.head _, .inl rfl⟩, fun _ => ⟨⟨.head _, rfl⟩, fun _ => rfl⟩⟩

theorem tracks_renormalize :
    (renormalizeActiveListenPort port).Tracks May track (fun _ r => r = atWork) atWork := by
  have unlock : (perform (.unlock .endpointCommit)).Tracks May track (fun _ r => r = atWork)
      { holds := [.endpointCommit, .mainLoop] } :=
    ⟨⟨.head _, nofun⟩, fun _ => rfl⟩
  refine tracks_bindOp.mpr ⟨trivial, fun _ => tracks_ite.mpr ⟨fun _ => ?_, fun _ => rfl⟩⟩
  refine ⟨trivial, fun _ => tracks_bindOp.mpr ⟨⟨.tail _ (.head _), rfl⟩, fun _ => ?_⟩⟩
  exact tracks_ite.mpr ⟨fun _ => ⟨trivial, fun _ => unlock⟩, fun _ => unlock⟩

theorem tracks_serviceRetire :
    (serviceRetire port).Tracks May track (fun _ r => r = atWork) atWork := by
  refine tracks_bindOp.mpr ⟨trivial, fun old => ?_⟩
  cases old
  case none => rfl
  case some =>
    refine tracks_bindOp.mpr ⟨trivial, fun action => ?_⟩
    split
    case h_2 => rfl
    case h_1 =>
      refine tracks_bindOp.mpr ⟨⟨.head _, .inl rfl⟩, fun _ => ?_⟩
      refine tracks_bindOp.mpr ⟨⟨.head _, rfl⟩, fun _ => tracks_bind.mpr ?_⟩
      refine tracks_renormalize.mono fun _ r hr => ?_
      subst hr
      exact ⟨trivial, fun _ => rfl⟩

theorem tracks_serviceRoleBCollapse :
    serviceRoleBCollapse.Tracks May track (fun _ r => r = atWork) atWork := by
  refine tracks_bindOp.mpr ⟨trivial, fun ready => tracks_forM (fun (gid, epoch) _ r hr => ?_) rfl⟩
  subst hr
  exact tracks_takeDown _

theorem tracks_retireStaleOverlap :
    (retireStaleOverlap gid epoch).Tracks May track (fun _ r => r = atWork) atWork := by
  refine tracks_bindOp.mpr ⟨trivial, fun stale => tracks_bindOp.mpr ⟨trivial, fun _ => ?_⟩⟩
  cases stale
  case none => exact tracks_takeDown _
  case some b =>
    refine tracks_bindOp.mpr ⟨trivial, fun a => tracks_bind.mpr ?_⟩
    refine tracks_routes.mono fun _ r hr => ?_
    subst hr
    exact tracks_takeDown _

theorem tracks_startOverlap :
    (startOverlap ds gid epoch).Tracks May track (fun _ r => r = atWork) atWork := by
  rw [startOverlap]
  (repeat' split) <;> try rfl
  refine tracks_ite.mpr ⟨fun _ => rfl, fun _ => tracks_bindOp.mpr ⟨⟨.head _, rfl⟩, fun plan => ?_⟩⟩
  cases plan
  case none => rfl
  case some p =>
    refine tracks_bindOp.mpr ⟨trivial, fun a => tracks_bindOp.mpr ⟨⟨.head _, _, rfl⟩, fun up => ?_⟩⟩
    cases up
    case false => rfl
    case true =>
      refine tracks_bindOp.mpr ⟨trivial, fun e => ?_⟩
      cases e
      case none => exact ⟨⟨.head _, .inr ⟨p, rfl⟩⟩, fun _ => rfl⟩
      case some e =>
        refine tracks_bindOp.mpr ⟨⟨.head _, ⟨p, rfl⟩, rfl⟩, fun _ => tracks_bind.mpr ?_⟩
        refine tracks_applyConfig.mono fun ok r hr => ?_
        subst hr
        refine tracks_ite.mpr ⟨fun _ => tracks_takeDown _, fun _ => ?_⟩
        exact ⟨trivial, fun _ => ⟨trivial, fun _ => rfl⟩⟩

theorem tracks_maybeStartRoleB :
    (maybeStartRoleB ds).Tracks May track (fun _ r => r = atWork) atWork := by
  refine tracks_bindOp.mpr ⟨trivial, fun _ => tracks_forM (fun (gid, decision) _ r hr => ?_) rfl⟩
  subst hr
  cases decision
  case skip | unusable => rfl
  case start => exact tracks_startOverlap
  case restart =>
    refine tracks_bind.mpr <| tracks_retireStaleOverlap.mono fun _ r hr => ?_
    subst hr
    exact tracks_startOverlap

theorem tracks_handleRotateInner :
    (handleRotateInner d applied).Tracks May track (fun _ r => r = atWork) atWork := by
  refine tracks_bindOp.mpr ⟨trivial, fun action => ?_⟩
  split
  case h_2 => rfl
  case h_1 n =>
    split
    case h_2 => rfl
    case h_1 ds =>
      refine tracks_bindOp.mpr ⟨trivial, fun minted => ?_⟩
      cases minted
      case refused | unpersisted => rfl
      case minted key activeEpoch =>
        refine tracks_ite.mpr ⟨fun _ => rfl, fun _ => tracks_bindOp.mpr ⟨⟨.head _, rfl⟩, fun plan => ?_⟩⟩
        cases plan
        case none => rfl
        case some p =>
          refine tracks_bindOp.mpr ⟨⟨.head _, _, rfl⟩, fun up => ?_⟩
          cases up
          case false => rfl
          case true =>
            refine tracks_bindOp.mpr ⟨trivial, fun e => ?_⟩
            cases e
            case none => exact ⟨⟨.head _, .inr ⟨p, rfl⟩⟩, fun _ => rfl⟩
            case some e =>
              refine tracks_bindOp.mpr ⟨⟨.head _, ⟨p, rfl⟩, rfl⟩, fun _ => tracks_bind.mpr ?_⟩
              refine tracks_applyConfig.mono fun ok r hr => ?_
              subst hr
              refine tracks_ite.mpr ⟨fun _ => rfl, fun _ => ?_⟩
              exact ⟨trivial, fun _ => ⟨trivial, fun _ => rfl⟩⟩

theorem tracks_handleRotate :
    (handleRotate d applied).Tracks May track (fun _ r => r = atWork) atWork := by
  refine tracks_bind.mpr <| tracks_handleRotateInner.mono fun x r hr => ?_
  subst hr
  refine tracks_ite.mpr ⟨fun _ => ⟨trivial, fun _ => ?_⟩, fun _ => rfl⟩
  refine ⟨⟨.head _, .inl rfl⟩, fun _ => ⟨⟨.head _, rfl⟩, fun _ => ?_⟩⟩
  split
  case h_1 => exact ⟨trivial, fun _ => ⟨trivial, fun _ => rfl⟩⟩
  case h_2 => exact ⟨trivial, fun _ => rfl⟩

theorem tracks_onState :
    (onState ds).Tracks May track (fun _ r => r = atWork) atWork := by
  refine ⟨trivial, fun _ => tracks_bindOp.mpr ⟨trivial, fun _ => ?_⟩⟩
  refine tracks_bind.mpr <| tracks_apply.mono fun _ r hr => ?_
  subst hr
  refine tracks_ite.mpr ⟨fun _ => ⟨trivial, fun _ => rfl⟩, fun _ => ⟨trivial, fun _ => ?_⟩⟩
  refine tracks_bindOp.mpr ⟨trivial, fun _ => tracks_ite.mpr ⟨fun _ => ⟨trivial, fun _ => rfl⟩, ?_⟩⟩
  refine fun _ => tracks_bind.mpr <| tracks_maybeStartRoleB.mono fun _ r hr => ?_
  subst hr
  exact ⟨trivial, fun _ => ⟨trivial, fun _ => rfl⟩⟩

-- What a task ends with.
def Done (r : Minder) : Prop :=
  r.work = .rest

theorem tracks_turn (h : event.Tracks May track (fun _ r => r = atWork) atWork) :
    (turn port event).Tracks May track (fun _ => Done) {} := by
  refine tracks_bindOp.mpr ⟨trivial, fun _ => ?_⟩
  refine tracks_bind.mpr <| tracks_serviceRetire.mono fun _ r hr => ?_
  subst hr
  refine tracks_bind.mpr <| tracks_serviceRoleBCollapse.mono fun _ r hr => ?_
  subst hr
  refine tracks_bind.mpr <| h.mono fun _ r hr => ?_
  subst hr
  exact ⟨⟨.head _, fun _ => rfl⟩, fun _ => rfl⟩

theorem tracks_boot : boot.Tracks May track (fun _ => Done) {} := by
  have unlock : (perform (.unlock .mainLoop)).Tracks May track (fun _ => Done) atWork :=
    ⟨⟨.head _, fun _ => rfl⟩, fun _ => rfl⟩
  refine tracks_bindOp.mpr ⟨rfl, fun ds => ?_⟩
  cases ds
  case none => exact unlock
  case some ds =>
    refine tracks_bind.mpr <| tracks_apply.mono fun _ r hr => ?_
    subst hr
    refine tracks_ite.mpr ⟨fun _ => ⟨trivial, fun _ => rfl⟩, fun _ => ?_⟩
    exact ⟨trivial, fun _ => ⟨trivial, fun _ => ⟨trivial, fun _ => ⟨trivial, fun _ => unlock⟩⟩⟩⟩

def ticking : Minder := { holds := [.rotationTicks] }

theorem tracks_tickRotation : tickRotation.Tracks May track (fun _ => Done) {} := by
  refine tracks_bindOp.mpr ⟨trivial, fun _ => tracks_bind.mpr ?_⟩
  refine (only_tickRoleA.same (r := ticking) fun o ho => ?_).mono fun _ r hr => ?_
  case refine_1 => cases o <;> first | exact ⟨trivial, fun _ => rfl⟩ | exact ho.elim
  subst hr
  have overlap {p : P Unit} (hp : p.Only Op.OfTickOverlap) :
      p.Tracks May track (fun _ r => r = ticking) ticking :=
    hp.same fun o ho => by cases o <;> first | exact ⟨trivial, fun _ => rfl⟩ | exact ho.elim
  refine tracks_bindOp.mpr ⟨trivial, fun _ => tracks_bind.mpr ?_⟩
  refine (overlap (.forM fun _ _ => only_tickPending)).mono fun _ r hr => ?_
  subst hr
  refine tracks_bindOp.mpr ⟨trivial, fun _ => tracks_bind.mpr ?_⟩
  refine (overlap (.forM fun _ _ => only_tickArmed)).mono fun _ r hr => ?_
  subst hr
  exact ⟨⟨.head _, nofun⟩, fun _ => rfl⟩

-- An endpoint that is written goes to one device.
def writing (ifname : String) : Minder :=
  { holds := [.endpointCommit], target := some ifname }

theorem tracks_applyPeerEndpointScoped :
    (applyPeerEndpointScoped ifname dev pk).Tracks May track (fun _ r => r = writing ifname)
      (writing ifname) := by
  have sends (body : Uapi.Body) : May (.send ifname body) (writing ifname) :=
    .inr ⟨by simp [writing], rfl⟩
  rw [applyPeerEndpointScoped]
  split
  case h_1 => rfl
  case h_2 peer _ =>
    refine tracks_bindOp.mpr ⟨trivial, fun _ => tracks_ite.mpr ⟨fun _ => rfl, fun _ => ?_⟩⟩
    have one : (setOnePeer ifname peer).Tracks May track (fun _ r => r = writing ifname)
        (writing ifname) := by
      rw [setOnePeer]
      split
      case h_1 => rfl
      case h_2 =>
        refine tracks_bindOp.mpr ⟨sends _, fun _ => tracks_ite.mpr ⟨fun _ => rfl, fun _ => ?_⟩⟩
        split
        case h_1 => rfl
        case h_2 =>
          refine tracks_bindOp.mpr ⟨sends _, fun _ => tracks_ite.mpr ⟨fun _ => rfl, fun _ => ?_⟩⟩
          exact ⟨sends _, fun _ => rfl⟩
    refine tracks_bind.mpr <| one.mono fun ok r hr => ?_
    subst hr
    exact tracks_ite.mpr ⟨fun _ => rfl, fun _ => ⟨trivial, fun _ => rfl⟩⟩

theorem tracks_setPeerEndpoint :
    (setPeerEndpoint gid endpoint isRelay).Tracks May track (fun _ => Done) {} := by
  refine ⟨trivial, fun _ => tracks_bindOp.mpr ⟨trivial, fun a => tracks_bindOp.mpr ⟨trivial, ?_⟩⟩⟩
  have unlock : (perform (.unlock .endpointCommit)).Tracks May track (fun _ => Done)
      (writing a.ifname) :=
    ⟨⟨.head _, nofun⟩, fun _ => rfl⟩
  refine fun may => tracks_ite.mpr ⟨fun _ => ⟨trivial, fun _ => ?_⟩, fun _ => unlock⟩
  refine tracks_bindOp.mpr ⟨trivial, fun config => ?_⟩
  split
  case h_2 => exact unlock
  case h_1 =>
    refine tracks_bind.mpr <| tracks_applyPeerEndpointScoped.mono fun _ r hr => ?_
    subst hr
    exact tracks_ite.mpr ⟨fun _ => ⟨trivial, fun _ => unlock⟩, fun _ => unlock⟩

theorem tracks_prog (q : Request) : (q.prog port).Tracks May track (fun _ => Done) {} := by
  cases q
  case boot => exact tracks_boot
  case message =>
    refine tracks_turn <| tracks_bindOp.mpr ⟨trivial, fun ds => ?_⟩
    cases ds
    case none => exact ⟨trivial, fun _ => rfl⟩
    case some => exact tracks_onState
  case rotate => exact tracks_turn <| tracks_bindOp.mpr ⟨trivial, fun _ => tracks_handleRotate⟩
  case reconnect => exact tracks_turn ⟨trivial, fun _ => rfl⟩
  case idle => exact tracks_turn rfl
  case tickRotation => exact tracks_tickRotation
  case setPeerEndpoint => exact tracks_setPeerEndpoint
  case readThrough =>
    exact ⟨trivial, fun _ => ⟨trivial, fun _ => ⟨trivial, fun _ =>
      ⟨⟨.head _, nofun⟩, fun _ => rfl⟩⟩⟩⟩
  case transition => exact ⟨trivial, fun _ => rfl⟩

theorem keeps_prog (q : Request) : Pool.Keeps May track (q.prog port) {} :=
  (tracks_prog q).mono fun _ _ _ => trivial

theorem holding : Pool.Holding (rules config.wgListenPort) (.start config stateJson storedKeys)
    track {} Gw.held Minder.holds := by
  refine holding_of rfl (fun _ _ _ => rfl) (fun r (may : May .boot r) => ?_) (fun _ _ may => may.1)
    keeps_prog
  exact may ▸ rfl

-- Without the lock there is no device at work.
theorem work_rest {o : Op} {x : o.Resp} {r : Minder} (may : May o r)
    (hr : .mainLoop ∉ r.holds → r.work = .rest) :
    .mainLoop ∉ (track o r x).holds → (track o r x).work = .rest := by
  intro hl
  cases o
  case boot => simp [track, Op.locks] at hl
  case lock => exact hr fun hn => hl (.tail _ hn)
  case unlock l =>
    cases l
    case mainLoop => exact may.2 rfl
    all_goals exact hr (by simpa [track, Op.locks] using hl)
  case plan | bringUp | insertEnforcer | tearDown | removeEnforcer => exact absurd may.1 hl
  all_goals exact hr hl

end Programs

section Properties

def Applied (e : GatewayEnforcer) : Bool :=
  e.enforced.isSome && e.appliedVersion.isSome

-- Every device but the first that has a peer has a filter with a policy.
def Guarded (s : Gw) : Prop :=
  ∀ u ∈ s.tunnels.tunnels.entries, u.2.ifname ≠ s.config.tunIfname →
    (s.devices.lookup u.2.ifname).any (fun d => !d.peers.isEmpty) →
    (s.enforcers.lookup u.1).any Applied

-- A device that stays keeps its filter.
def Spared (_ : History) (s : System) (e : SystemEvent) (t : System) : Prop :=
  match e with
  | .halt => True
  | _     => ∀ id ∈ t.shared.tunnels.tunnels.keys, ∀ f ∈ s.shared.enforcers.lookup id,
    t.shared.enforcers.lookup id = some f

-- A device is brought up under another name than the active one has, or one that an endpoint is being
-- written to, and becomes the active one with its filter.
def Apart (h : History) (s : System) : SystemEvent → Prop
  | .op _ (.bringUp p _) _ => p.ifname ≠ s.shared.active.ifname ∧
    ∀ j < s.tasks.length, s.live j → (minding j h).target ≠ some p.ifname
  | .op _ (.setActive a) _ =>
    ∀ j < s.tasks.length, s.live j → ∀ p ∈ (minding j h).work.built?, p.ifname ≠ a.ifname
  | _                      => True

instance : Decidable (Guarded s) := by
  unfold Guarded
  infer_instance

instance : Decidable (Apart h s e) := by
  unfold Apart
  split <;> infer_instance

end Properties

section Invariant

-- What holds with the main loop where it is.
structure Inv (m : Work) (s : Gw) : Prop where
  distinct : s.tunnels.Distinct
  guarded : ∀ id t, s.tunnels.tunnels.lookup id = some t → t.ifname ≠ s.config.tunIfname →
    (∀ p, m ≠ .building id p) → ∃ e, s.enforcers.lookup id = some e ∧ Applied e
  planned : ∀ id p, m = .planned id p → p.id = id
  building : ∀ id p, m = .building id p → p.id = id ∧
    (∃ port, s.tunnels.tunnels.lookup id = some ⟨p.ifname, port⟩) ∧
    s.enforcers.lookup id = none ∧ ∀ d, s.devices.lookup p.ifname = some d → d.peers = []
  torn : ∀ id, m = .torn id → s.tunnels.tunnels.lookup id = none
  owned : ∀ id, s.enforcers.lookup id ≠ none →
    s.tunnels.tunnels.lookup id ≠ none ∨ m = .torn id

theorem Inv.toGuarded (inv : Inv m s) : Guarded s := by
  intro ⟨id, t⟩ ht hn hd
  replace ht := TunnelSet.mem_entries.mp ht
  have ⟨e, he, ha⟩ := inv.guarded id t ht hn fun p hm => by
    have ⟨_, ⟨port, hp⟩, _, hd'⟩ := inv.building id p hm
    cases hp.symm.trans ht
    cases hs : s.devices.lookup p.ifname
    case none   => simp [hs] at hd
    case some d => simp [hs, hd' d hs] at hd
  simp [he, ha]

-- A gateway that comes up has one device, under the name that it was told.
theorem Inv.start (config : Config) (stateJson : Option DesiredState)
    (storedKeys : Option EpochKeys) : Inv .rest (.start config stateJson storedKeys) := by
  generalize hk : EpochKeys.selectBootKey storedKeys config.legacyPrivB64 config.legacyPubB64 = key
  have lookup (id : TunnelId) :
      (Gw.start config stateJson storedKeys).tunnels.tunnels.lookup id =
        if id = .own key.epoch then some ⟨config.tunIfname, config.wgListenPort⟩ else none :=
    hk ▸ HashMap.lookup_singleton ..
  have one (id : TunnelId) (t : Tunnel)
      (ht : (Gw.start config stateJson storedKeys).tunnels.tunnels.lookup id = some t) :
      id = .own key.epoch ∧ t.ifname = config.tunIfname := by
    rw [lookup] at ht
    split at ht
    all_goals cases ht
    exact ⟨‹_›, rfl⟩
  constructor
  case distinct => exact fun i j t u hi hj hij => absurd ((one i t hi).1.trans (one j u hj).1.symm) hij
  case guarded  => exact fun id t ht hn => absurd (one id t ht).2 hn
  case planned | building | torn => nofun
  case owned =>
    intro id hn
    have enforcers : (Gw.start config stateJson storedKeys).enforcers.lookup id =
        if id = .own key.epoch then some {} else none :=
      hk ▸ HashMap.lookup_singleton ..
    rw [enforcers] at hn
    refine .inl ?_
    rw [lookup]
    split at hn <;> simp_all

theorem Inv.same {s t : Gw} (inv : Inv m s) (hc : t.config = s.config)
    (ht : t.tunnels = s.tunnels) (he : t.enforcers = s.enforcers)
    (hd : ∀ id p, m = .building id p → ∀ d, t.devices.lookup p.ifname = some d → d.peers = []) :
    Inv m t where
  distinct := ht ▸ inv.distinct
  guarded  := by rw [hc, ht, he]; exact inv.guarded
  planned  := inv.planned
  building id p hm := by
    have ⟨hp, hl, hn, _⟩ := inv.building id p hm
    exact ⟨hp, ht ▸ hl, he ▸ hn, hd id p hm⟩
  torn     := ht ▸ inv.torn
  owned    := by rw [ht, he]; exact inv.owned

variable {m : Work} {s t : Gw} {id : TunnelId} {p : TunnelPlan}

-- With no device at work, another may be planned, or the plan be dropped.
theorem Inv.plan (inv : Inv m s) (hm : m = .rest ∨ ∃ id p, m = .planned id p)
    (hm' : m' = .rest ∨ ∃ id p, m' = .planned id p ∧ p.id = id) : Inv m' s where
  distinct := inv.distinct
  guarded id t ht hn _ := inv.guarded id t ht hn fun p hb => by
    rcases hm with hm | ⟨_, _, hm⟩ <;> cases hm.symm.trans hb
  planned id p hp := by
    rcases hm' with hm' | ⟨_, _, hm', he⟩ <;> cases hm'.symm.trans hp
    exact he
  building id p hb := by rcases hm' with hm' | ⟨_, _, hm', _⟩ <;> cases hm'.symm.trans hb
  torn id ht := by rcases hm' with hm' | ⟨_, _, hm', _⟩ <;> cases hm'.symm.trans ht
  owned id hn := by
    refine .inl ((inv.owned id hn).resolve_right fun ht => ?_)
    rcases hm with hm | ⟨_, _, hm⟩ <;> cases hm.symm.trans ht

theorem Inv.bringUp (inv : Inv (.planned id p) s) (hf : s.tunnels.free p) :
    Inv (.building id p) { s with
      tunnels := s.tunnels.bringUp p, devices := s.devices.insert p.ifname ⟨key, p.listenPort, []⟩ } := by
  have hp := inv.planned id p rfl
  subst hp
  have free := (TunnelSet.free_iff.mp hf).1
  have lookup (id : TunnelId) : (s.tunnels.bringUp p).tunnels.lookup id =
      if id = p.id then some ⟨p.ifname, p.listenPort⟩ else s.tunnels.tunnels.lookup id :=
    HashMap.lookup_insert ..
  have none : s.enforcers.lookup p.id = none := by
    by_contra hn
    cases inv.owned p.id hn
    case inl hn => exact hn free
    case inr ht => cases ht
  constructor
  case distinct => exact inv.distinct.bringUp hf
  case planned | torn => nofun
  case guarded =>
    intro id t ht hn hb
    have hi : id ≠ p.id := fun he => hb p (he ▸ rfl)
    rw [lookup, if_neg hi] at ht
    exact inv.guarded id t ht hn nofun
  case building =>
    intro id q he
    cases he
    refine ⟨rfl, ⟨p.listenPort, by rw [lookup, if_pos rfl]⟩, none, fun d hd => ?_⟩
    simp only [HashMap.lookup_insert] at hd
    cases hd
    rfl
  case owned =>
    intro id hn
    refine .inl ?_
    rw [lookup]
    split
    case isTrue  => nofun
    case isFalse => exact (inv.owned id hn).resolve_right nofun

-- A device goes. If it had no filter yet, nothing is left of it.
theorem Inv.tearDown (inv : Inv m s) (hm : m = .rest ∨ ∃ p, m = .building id p)
    (ht : t.tunnels = s.tunnels.tearDown now id) (hc : t.config = s.config)
    (he : t.enforcers = s.enforcers) : Inv (m.down id) t := by
  have lookup (id' : TunnelId) : t.tunnels.tunnels.lookup id' =
      if id' = id then none else s.tunnels.tunnels.lookup id' := by
    rw [ht, TunnelSet.tearDown]
    split
    case h_1 hn =>
      split
      case isTrue he => exact he ▸ hn
      case isFalse   => rfl
    case h_2 => exact HashMap.lookup_erase ..
  have gone : t.tunnels.tunnels.lookup id = none := by rw [lookup, if_pos rfl]
  have distinct : t.tunnels.Distinct := ht ▸ inv.distinct.tearDown
  have guarded (id' : TunnelId) (u : Tunnel) (hu : t.tunnels.tunnels.lookup id' = some u)
      (hn : u.ifname ≠ t.config.tunIfname) : ∃ e, t.enforcers.lookup id' = some e ∧ Applied e := by
    rw [lookup] at hu
    split at hu
    case isTrue => cases hu
    case isFalse hi =>
      rw [he]
      refine inv.guarded id' u hu (hc ▸ hn) fun p hb => ?_
      rcases hm with hm | ⟨_, hm⟩ <;> cases hm.symm.trans hb
      exact hi rfl
  cases hm
  case inl hm =>
    subst hm
    refine ⟨distinct, fun id t ht hn _ => guarded id t ht hn, (fun _ _ h => by cases h),
      (fun _ _ h => by cases h), fun id' hi => ?_, ?_⟩
    case refine_1 =>
      cases hi
      exact gone
    case refine_2 =>
      intro id' hn
      rw [he] at hn
      rw [lookup]
      split
      case isTrue he => exact .inr (he ▸ rfl)
      case isFalse   => exact .inl ((inv.owned id' hn).resolve_right (by simp))
  case inr hm =>
    obtain ⟨p, hm⟩ := hm
    subst hm
    refine ⟨distinct, fun id t ht hn _ => guarded id t ht hn, (fun _ _ h => by cases h),
      (fun _ _ h => by cases h), (fun _ h => by cases h), fun id' hn => ?_⟩
    rw [he] at hn
    rw [lookup]
    split
    case isTrue hi => exact absurd (hi ▸ (inv.building id p rfl).2.2.1) hn
    case isFalse   => exact .inl ((inv.owned id' hn).resolve_right (by simp))

theorem Inv.insertEnforcer (inv : Inv (.building id p) s) (he : Applied e) :
    Inv .rest { s with enforcers := s.enforcers.insert id e } := by
  have ⟨_, ⟨port, hp⟩, _, _⟩ := inv.building id p rfl
  refine ⟨inv.distinct, fun id' t ht hn _ => ?_, nofun, nofun, nofun, fun id' hn => .inl ?_⟩
  case refine_1 =>
    rw [HashMap.lookup_insert]
    split
    case isTrue     => exact ⟨e, rfl, he⟩
    case isFalse hi =>
      refine inv.guarded id' t ht hn fun q hb => ?_
      cases hb
      exact hi rfl
  case refine_2 =>
    rw [HashMap.lookup_insert] at hn
    split at hn
    case isTrue hi =>
      subst hi
      simp [hp]
    case isFalse   => exact (inv.owned id' hn).resolve_right nofun

theorem Inv.removeEnforcer (inv : Inv (.torn id) s) :
    Inv .rest { s with enforcers := s.enforcers.erase id } := by
  have gone := inv.torn id rfl
  refine ⟨inv.distinct, fun id' t ht hn _ => ?_, nofun, nofun, nofun, fun id' hn => .inl ?_⟩
  case refine_1 =>
    have hi : id' ≠ id := fun hi => by
      subst hi
      cases gone.symm.trans ht
    rw [HashMap.lookup_erase, if_neg hi]
    exact inv.guarded id' t ht hn nofun
  case refine_2 =>
    rw [HashMap.lookup_erase] at hn
    split at hn
    case isTrue     => exact absurd rfl hn
    case isFalse hi =>
      refine (inv.owned id' hn).resolve_right fun ht => ?_
      cases ht
      exact hi rfl

theorem Inv.setListenPort (inv : Inv .rest s) (ht : s.tunnels.tunnels.lookup id = some u)
    (hp : ∀ j v, s.tunnels.tunnels.lookup j = some v → j ≠ id → v.listenPort ≠ port) :
    Inv .rest { s with
      tunnels := s.tunnels.setListenPort id u port, devices := s.devices.insert u.ifname d } := by
  have lookup (id' : TunnelId) : (s.tunnels.setListenPort id u port).tunnels.lookup id' =
      if id' = id then some { u with listenPort := port } else s.tunnels.tunnels.lookup id' :=
    HashMap.lookup_insert ..
  refine ⟨inv.distinct.setListenPort ht hp, fun id' t hl hn _ => ?_, nofun, nofun, nofun, ?_⟩
  case refine_1 =>
    rw [lookup] at hl
    split at hl
    case isFalse   => exact inv.guarded id' t hl hn nofun
    case isTrue hi =>
      cases hl
      exact hi ▸ inv.guarded id u ht hn nofun
  case refine_2 =>
    intro id' hn
    refine .inl ?_
    rw [lookup]
    split
    case isTrue  => nofun
    case isFalse => exact (inv.owned id' hn).resolve_right nofun

-- What an operation does to the work of the main loop, with the task at work where it is.
theorem Inv.op {o : Op} {x : o.Resp} {r : Minder} (inv : Inv m s) (hc : s.step c o = some (x, t))
    (may : May o r) (main : .mainLoop ∈ r.holds → r.work = m)
    (attached : ∀ e, r.attached = some e → Applied e)
    (clear : ∀ id p, m = .building id p → r.target ≠ some p.ifname) :
    ∃ m', Inv m' t ∧ (m' = workAfter o r.work x ∧ .mainLoop ∈ r.holds ∨
      m' = m ∧ workAfter o r.work x = r.work) := by
  have same (ht : Part.tunnels ∉ o.writes) (he : Part.enforcers ∉ o.writes)
      (hd : Part.devices ∉ o.writes) (hw : ∀ w x, workAfter o w x = w) :
      ∃ m', Inv m' t ∧ (m' = workAfter o r.work x ∧ .mainLoop ∈ r.holds ∨
        m' = m ∧ workAfter o r.work x = r.work) := by
    have config : t.config = s.config := Gw.step_same hc (p := .config) (by cases o <;> simp [Op.writes])
    have devices : t.devices = s.devices := Gw.step_same hc hd
    refine ⟨m, inv.same config (Gw.step_same hc ht) (Gw.step_same hc he) fun id p hm => ?_, .inr ⟨rfl, hw ..⟩⟩
    rw [devices]
    exact (inv.building id p hm).2.2.2
  cases o
  case plan id =>
    obtain ⟨hl, hr⟩ := may
    rw [hr] at main ⊢
    simp only [Gw.step, Gw.exec] at hc
    split at hc
    all_goals cases hc
    refine ⟨_, inv.plan (.inl (main hl).symm) ?_, .inl ⟨rfl, hl⟩⟩
    cases hp : planTunnel id s.config.tunIfname s.config.wgListenPort (s.tunnels.plans s.clock)
    case none   => exact .inl rfl
    case some p => exact .inr ⟨id, p, rfl, (planTunnel_eq_some hp).1⟩
  case bringUp p key =>
    obtain ⟨hl, id, hr⟩ := may
    rw [hr] at main ⊢
    have hm := main hl
    subst hm
    simp only [Gw.step, Gw.exec] at hc
    split at hc
    case isFalse => cases hc
    case isTrue =>
      split at hc
      all_goals cases hc
      case h_1 hf =>
        have hf := (Bool.and_eq_true_iff.mp hf).1
        exact ⟨_, inv.bringUp hf, .inl ⟨rfl, hl⟩⟩
      case h_2 => exact ⟨_, inv.plan (.inr ⟨_, _, rfl⟩) (.inl rfl), .inl ⟨rfl, hl⟩⟩
  case tearDown id =>
    obtain ⟨hl, hr⟩ := may
    rw [main hl] at hr ⊢
    have config : t.config = s.config := Gw.step_same hc (p := .config) (by simp [Op.writes])
    have enforcers : t.enforcers = s.enforcers := Gw.step_same hc (p := .enforcers) (by simp [Op.writes])
    have tunnels : t.tunnels = s.tunnels.tearDown s.clock id := by
      simp only [Gw.step, Gw.exec] at hc
      split at hc
      all_goals cases hc
      rfl
    exact ⟨_, inv.tearDown hr tunnels config enforcers, .inl ⟨rfl, hl⟩⟩
  case insertEnforcer id e =>
    obtain ⟨hl, ⟨p, hr⟩, ha⟩ := may
    rw [hr] at main ⊢
    have hm := main hl
    subst hm
    simp only [Gw.step, Gw.exec] at hc
    split at hc
    all_goals cases hc
    exact ⟨_, inv.insertEnforcer (attached e ha), .inl ⟨rfl, hl⟩⟩
  case removeEnforcer id =>
    obtain ⟨hl, hr⟩ := may
    rw [hr] at main ⊢
    have hm := main hl
    subst hm
    simp only [Gw.step, Gw.exec] at hc
    split at hc
    all_goals cases hc
    exact ⟨_, inv.removeEnforcer, .inl ⟨rfl, hl⟩⟩
  case setListenPort id port =>
    obtain ⟨hl, hr⟩ := may
    rw [hr] at main ⊢
    have hm := main hl
    subst hm
    refine ⟨.rest, ?_, .inr ⟨rfl, rfl⟩⟩
    simp only [Gw.step, Gw.exec] at hc
    split at hc
    case isFalse => cases hc
    case isTrue =>
      split at hc
      case h_1 => cases hc; exact inv
      case h_2 u hu =>
        split at hc
        case isTrue => cases hc; exact inv
        case isFalse =>
          split at hc
          case isTrue => cases hc; exact inv
          case isFalse ho =>
            split at hc
            all_goals cases hc
            case h_2 => exact inv
            case h_1 =>
              refine inv.setListenPort hu fun j v hv hj he => ho ?_
              exact List.any_eq_true.mpr ⟨⟨j, v⟩, TunnelSet.mem_entries.mpr hv, by simpa using ⟨hj, he⟩⟩
  case send ifname body =>
    refine ⟨m, ?_, .inr ⟨rfl, rfl⟩⟩
    simp only [Gw.step, Gw.exec] at hc
    split at hc
    case isFalse => cases hc
    case isTrue =>
      split at hc
      all_goals cases hc
      case h_2 => exact inv
      case h_1 =>
        refine inv.same rfl rfl rfl fun id p hm d hd => ?_
        have hne : p.ifname ≠ ifname := fun he => by
          cases may
          case inl hr => cases (main hr.1).symm.trans hr.2 ▸ hm
          case inr hr => exact clear id p hm (he ▸ hr.2)
        rw [HashMap.lookup_insert, if_neg hne] at hd
        exact (inv.building id p hm).2.2.2 d hd
  all_goals exact same (by simp [Op.writes]) (by simp [Op.writes]) (by simp [Op.writes]) fun _ _ => rfl

end Invariant

section Runs

variable {h : History} {s t : System} {m : Work} {id : TunnelId} {p : TunnelPlan}

theorem made_of_step {o : Op} {x : o.Resp} (run : Runs config stateJson storedKeys h s)
    (hs : Pool.Step (rules config.wgListenPort) s (.op i o x) t) :
    s.live i ∧ May o (minding i h) ∧ ∃ c, s.shared.step c o = some (x, t.shared) := by
  have may : May o (minding i h) := Pool.pre_view keeps_prog (run.step hs)
  cases hs
  case op ht ha => exact ⟨Pool.live_of_getElem? ht, may, ha⟩

-- A filter is attached with its policy.
theorem attached_run (run : Runs config stateJson storedKeys h s) (i : Nat) :
    ∀ e, (minding i h).attached = some e → Applied e := by
  induction run
  case start => exact fun _ he => by cases he
  case step h s e t run hs ih =>
    refine Pool.view_cons (I := fun r : Minder => ∀ e, r.attached = some e → Applied e) e
      (fun o x he f hf => ?_) fun _ => ih
    subst he
    obtain ⟨_, _, c, hc⟩ := made_of_step run hs
    cases o
    case attach ifname ds =>
      simp only [Gw.step, Gw.exec] at hc
      split at hc
      case isFalse => cases hc
      case isTrue =>
        have hx := congrArg Prod.fst (Option.some.inj hc)
        obtain ⟨g, _, hg⟩ := Option.map_eq_some_iff.mp (hx.trans hf)
        subst hg
        rfl
    case insertEnforcer => cases hf
    all_goals exact ih f hf

theorem ifname_step {o : Op} {x : o.Resp} {s t : Gw} (hc : s.step c o = some (x, t))
    (ho : ∀ a, o ≠ .setActive a) : t.active.ifname = s.active.ifname := by
  by_cases hw : Part.active ∈ o.writes
  case neg => exact congrArg _ (Gw.step_same hc hw : t.active = s.active)
  case pos =>
    cases o
    case setActive a => exact absurd rfl (ho a)
    case recordApplied | recordAdded | recordScoped | renormalized =>
      simp only [Gw.step, Gw.exec] at hc
      (repeat' split at hc)
      all_goals cases hc
      all_goals rfl
    all_goals simp [Op.writes] at hw

theorem active_setActive {s t : Gw} (hc : s.step c (.setActive a) = some (x, t)) : t.active = a := by
  simp only [Gw.step, Gw.exec] at hc
  split at hc
  all_goals cases hc
  rfl

-- An endpoint is written to the device that was active when its commit began.
theorem target_step {o : Op} {x : o.Resp} {s t : Gw} {r : Minder} (hc : s.step c o = some (x, t))
    (ht : (track o r x).target = some n) : r.target = some n ∨ s.active.ifname = n := by
  cases o
  case active =>
    simp only [Gw.step, Gw.exec] at hc
    split at hc
    all_goals cases hc
    simp only [track] at ht
    split at ht
    case isFalse => exact .inl ht
    case isTrue =>
      cases hr : r.target
      case none   => exact .inr (by simpa [hr] using ht)
      case some n' => exact .inl (by simpa [hr] using ht)
  case unlock l =>
    cases l
    case endpointCommit => cases ht
    all_goals exact .inl ht
  all_goals exact .inl ht

theorem building_step {o : Op} {x : o.Resp} (hw : workAfter o w x = .building id p) :
    w = .building id p ∨ ∃ key, o = .bringUp p key := by
  cases o
  case plan =>
    cases x
    case none => exact .inl hw
    case some => cases hw
  case bringUp q key =>
    cases x
    case false => cases hw
    case true =>
      cases w
      case planned => cases hw; exact .inr ⟨key, rfl⟩
      all_goals exact .inl hw
  case insertEnforcer | removeEnforcer => cases hw
  case tearDown => cases w <;> cases hw
  all_goals exact .inl hw

-- Where the main loop is with a device. Nothing is written to one that is being built.
structure Fenced (h : History) (s : System) (m : Work) : Prop where
  lane : Pool.Lane track {} Minder.holds .mainLoop Minder.work .rest m h s
  inv : Inv m s.shared
  clear : ∀ id p, m = .building id p → s.shared.active.ifname ≠ p.ifname ∧
    ∀ j, s.live j → (minding j h).target ≠ some p.ifname

-- A device that is being built is being built by a task.
theorem Fenced.builder (hf : Fenced h s (.building id p)) :
    ∃ i, s.live i ∧ (minding i h).work = .building id p := by
  by_contra hn
  have free := hf.lane.free fun i hi hl => hn ⟨i, hi, hf.lane.inside i hi hl⟩
  cases free

theorem Fenced.op {o : Op} {x : o.Resp} (hf : Fenced h s m)
    (run : Runs config stateJson storedKeys h s)
    (hs : Pool.Step (rules config.wgListenPort) s (.op i o x) t) (apart : Apart h s (.op i o x)) :
    ∃ m', Fenced ((s, .op i o x) :: h) t m' := by
  have ⟨hi, may, c, hc⟩ := made_of_step run hs
  have ⟨m', inv, hm⟩ := hf.inv.op hc may (hf.lane.inside i hi) (attached_run run i)
    fun id p hb => (hf.clear id p hb).2 i hi
  refine ⟨m', ?_, inv, fun id p hb => ?_⟩
  case refine_1 =>
    have ex := Pool.exclusive_run holding run
    have hl := holding.op run hs
    have done (hd : ¬ t.live i) : Done (track o (minding i h) x) :=
      Classical.not_not.mp fun hn => hd (Pool.live_step tracks_prog run hs hn)
    have hout := work_rest (x := x) may (hf.lane.outside i hi)
    cases hm
    case inl hm =>
      rw [hm.1]
      exact hf.lane.moves ex hs hl done hout hm.2
    case inr hm =>
      rw [hm.1]
      exact hf.lane.stays ex hs hl done hout hm.2
  case refine_2 =>
    -- The device has just been brought up, or was being built before.
    have started : m = .building id p ∨ ∃ key, o = .bringUp p key := by
      cases hm
      case inl hm => exact building_step (hf.lane.inside i hi hm.2 ▸ hm.1 ▸ hb)
      case inr hm => exact .inl (hm.1 ▸ hb)
    have before : s.shared.active.ifname ≠ p.ifname ∧
        ∀ j, s.live j → (minding j h).target ≠ some p.ifname := by
      cases started
      case inl hm => exact hf.clear id p hm
      case inr ho =>
        have ⟨key, ho⟩ := ho
        subst ho
        exact ⟨apart.1.symm, fun j hj => apart.2 j (Pool.lt_of_live hj) hj⟩
    constructor
    case left =>
      by_cases ho : ∃ a, o = .setActive a
      case neg => exact ifname_step hc (fun a he => ho ⟨a, he⟩) ▸ before.1
      case pos =>
        have ⟨a, ho⟩ := ho
        subst ho
        have hm : m = .building id p := started.resolve_right nofun
        subst hm
        have ⟨j, hj, hw⟩ := hf.builder
        have hne := apart j (Pool.lt_of_live hj) hj p (hw ▸ rfl)
        exact active_setActive hc ▸ hne.symm
    case right =>
      intro j hj ht
      have goes : Pool.Goes track {} h s (.op i o x) j _ := Pool.goes_step run hs hj
      cases goes
      case start he _ => cases he
      case rest hj _ hv =>
        rw [minding, hv] at ht
        exact before.2 j hj ht
      case own o' x' he hj hv =>
        cases he
        rw [minding, hv] at ht
        cases target_step hc ht
        case inl ht => exact before.2 i hi ht
        case inr ht => exact before.1 ht

theorem fenced_run (run : Runs config stateJson storedKeys h s) (apart : Run.Along Apart h) :
    ∃ m, Fenced h s m := by
  induction run
  case start => exact ⟨.rest, .start, .start .., nofun⟩
  case step h s e t run hs ih =>
    have ⟨m, hf⟩ := ih apart.2
    cases hs
    case op ht ha => exact hf.op run (.op ht ha) apart.1
    case spawn q =>
      refine ⟨m, hf.lane.spawn rfl rfl run .spawn, hf.inv, fun id p hb => ⟨(hf.clear id p hb).1, ?_⟩⟩
      refine Pool.views_step (I := fun r : Minder => r.target ≠ some p.ifname) run .spawn
        (fun _ _ => nofun) (fun _ _ _ he => by cases he) fun j hj _ => (hf.clear id p hb).2 j hj
    case env hv =>
      cases hv
      exact ⟨m, hf.lane.env, hf.inv.same rfl rfl rfl fun id p hm => (hf.inv.building id p hm).2.2.2,
        hf.clear⟩
    case halt =>
      have inv := Inv.start s.shared.config s.shared.stateJson s.shared.storedKeys
      exact ⟨.rest, .halt, inv.same rfl rfl rfl nofun, nofun⟩

theorem spared_run (run : Runs config stateJson storedKeys h s) (apart : Run.Along Apart h) :
    Run.Each Spared h s := by
  induction run
  case start => trivial
  case step h s e t run hs ih =>
    refine ⟨?_, ih apart.2⟩
    obtain ⟨m, hf⟩ := fenced_run run apart.2
    cases hs
    case spawn  => exact fun _ _ _ hf => hf
    case halt   => trivial
    case env hv =>
      cases hv
      exact fun _ _ _ hf => hf
    case op i o x u next ht ha =>
      intro id hid f hl
      obtain ⟨hi, may, c, hc⟩ := made_of_step run (.op ht ha)
      by_cases hw : Part.enforcers ∈ o.writes
      case neg => exact (Gw.step_same hc hw : u.enforcers = s.shared.enforcers) ▸ hl
      case pos =>
        cases o
        case insertEnforcer id' e =>
          obtain ⟨lock, ⟨p, hr⟩, _⟩ := may
          have hm := hf.lane.inside i hi lock
          have bare := (hf.inv.building id' p (hm.symm.trans hr)).2.2.1
          have hne : id ≠ id' := fun he => by
            subst he
            cases bare.symm.trans hl
          simp only [Gw.step, Gw.exec] at hc
          split at hc
          all_goals cases hc
          rwa [HashMap.lookup_insert, if_neg hne]
        case removeEnforcer id' =>
          obtain ⟨lock, hr⟩ := may
          have hm := hf.lane.inside i hi lock
          have gone := hf.inv.torn id' (hm.symm.trans hr)
          simp only [Gw.step, Gw.exec] at hc
          split at hc
          all_goals cases hc
          have hne : id ≠ id' := fun he => by
            subst he
            have up := AList.lookup_isSome.mpr hid
            simp [gone] at up
          rwa [HashMap.lookup_erase, if_neg hne]
        all_goals simp [Op.writes] at hw

theorem devices_guarded (run : Runs config stateJson storedKeys h s) (apart : Run.Along Apart h) :
    Guarded s.shared ∧ Run.Each Spared h s :=
  have ⟨_, hf⟩ := fenced_run run apart
  ⟨hf.inv.toGuarded, spared_run run apart⟩

end Runs

-- A rotation is given up while a tick is at work for it, and the same directive comes again.
namespace Repeated

open StandIn

def advertised : Controller.StateSnapshot where
  revision       := 1
  selfCertPem    := ""
  peers          := [{
    gatewayId          := 7
    segmentName        := "west"
    keys               := [⟨0, peerKey, .active⟩]
    candidateEndpoints := ["192.0.2.7:51820"]
    allowedIps         := ["10.7.0.0/16"]
  }]
  relayInfos     := []
  policyIr       := []
  policyVersion  := 0
  revokedSerials := []

def choose : Op → Choice
  | .submitEpochKey _ _ => { succeeds := false }
  | .liveness _         => { live := some [List.replicate 32 0xbb] }
  | _                   => { privateKeyB64 := ownKey, pubkeyB64 := ownKey }

-- The directive has come to its `n`th operation when the tick goes on and the peer is given an endpoint.
def moves (n : Nat) : List (Pool.Move Request Elapse) :=
  [.spawn .boot, .run 0 9, .spawn (.message (.snapshot advertised)), .run 1 50,
    .spawn (.rotate 1), .run 2 12, .spawn .tickRotation, .run 3 5, .run 2 50, .env RETIRE_GRACE,
    .spawn (.rotate 1), .run 4 n, .run 3 50, .spawn (.setPeerEndpoint 7 "192.0.2.9:51820" true),
    .run 5 50]

def played (n : Nat) : History × System :=
  Pool.play (player config.wgListenPort choose) ⟨.start config none none, []⟩ (moves n)

theorem runs_played (n : Nat) : Runs config none none (played n).1 (played n).2 :=
  Pool.play_run _ _ _

-- The device of the directive has a peer before it has a filter.
set_option maxRecDepth 10000 in
theorem devices_guarded_unfiltered :
    Runs config none none (played 8).1 (played 8).2 ∧ ¬ Guarded (played 8).2.shared ∧
      (played 8).2.shared.enforcers.lookup (.own 1) = none :=
  ⟨runs_played 8, by decide +kernel, by decide +kernel⟩

set_option maxRecDepth 10000 in
theorem devices_guarded_filtered :
    ((played 12).2.shared.devices.lookup "wg0e1").any (fun d => !d.peers.isEmpty) ∧
      Guarded (played 12).2.shared ∧ Run.Each Spared (played 12).1 (played 12).2 :=
  ⟨by decide +kernel, devices_guarded (runs_played 12) (by decide +kernel)⟩

end Repeated
end Gateway.Fence
