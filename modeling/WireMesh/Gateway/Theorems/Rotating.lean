import WireMesh.Gateway.Theorems.Handover
import WireMesh.Gateway.Theorems.Lanes
import WireMesh.Gateway.Theorems.Programs

-- What a task of a gateway knows of the rotation that it is at work for.
namespace Gateway

section Doing

def Main.minted (k : Mint) : Main → Main
  | rotating d n _ b => rotating d n (some k) b
  | m                => m

def Main.setRoleA (armed : Bool) : Main → Main
  | rotating d n m _ => if armed then rotating d n m true else unwinding d m
  | m                => m

def Tick.setRoleA : Tick → Tick
  | signalled => out
  | t         => t

-- A task that rotates touches the epochs that its rotation goes with, and no others.
def Main.Names (k : Nat) : Main → Prop
  | rotating d n _ _ => k = d ∨ k = n
  | unwinding d m    => k = d ∨ ∃ key ∈ m, key.key.epoch = k
  | _                => True

def Main.rotates : Main → Bool
  | rotating _ _ _ _ | unwinding _ _ => true
  | out | took                       => false

def Op.mainAfter : (o : Op) → Main → o.Resp → Main
  | takeRetireReady, m, x   => if x.isSome then .took else m
  | onEpochRetired _, _, _  => .out
  | onDirective d, m, x     =>
    match x with
    | some (.mintBringUpSubmit n) => .rotating d n none false
    | _                           => m
  | mint _, m, x            =>
    match x with
    | .refused         => m
    | .unpersisted key => m.minted ⟨key, false⟩
    | .minted key _    => m.minted ⟨key, true⟩
  | setRoleA a, m, _        => m.setRoleA a.isSome
  | submitEpochKey _ _, m, x => if x then .out else m
  | onFailed, _, _          => .out
  | unlock .mainLoop, _, _  => .out
  | _, m, _                 => m

def Op.tickAfter : (o : Op) → Tick → o.Resp → Tick
  | roleA, t, x                 => if x.isSome then .hasA else t
  | phase, _, p                 => .sees p
  | onNewEpochSession, t, x     =>
    match x with
    | some (.flipRoutes e) => .flipped e
    | _                    => t
  | setActive _, _, _           => .out
  | signalRetire _, _, _        => .signalled
  | setRoleA _, t, _            => t.setRoleA
  | unlock .rotationTicks, _, _ => .out
  | _, t, _                     => t

-- What a task knows of a rotation, and the locks that it holds.
structure Doing where
  holds : List Lock := []
  main : Main := .out
  tick : Tick := .out
deriving DecidableEq

def Doing.track (o : Op) (r : Doing) (x : o.Resp) : Doing :=
  ⟨o.locks r.holds, o.mainAfter r.main x, o.tickAfter r.tick x⟩

abbrev doing (i : Nat) (h : History) : Doing :=
  Pool.view Doing.track {} i h

-- Where a task may do what it does.
def Op.May : Op → Doing → Prop
  | boot, r                       => r = {}
  | unlock l, r                   =>
    l ∈ r.holds ∧ (l = .mainLoop → r.main ≠ .took) ∧ (l = .rotationTicks → r.tick ≠ .signalled)
  | takeRetireReady, r            => .mainLoop ∈ r.holds ∧ r.main = .out
  | onEpochRetired _, r           => .mainLoop ∈ r.holds ∧ r.main = .took
  | onDirective _, r              => .mainLoop ∈ r.holds ∧ r.main = .out
  | mint n, r                     => .mainLoop ∈ r.holds ∧ ∃ d, r.main = .rotating d n none false
  | setRoleA (some _), r          =>
    .mainLoop ∈ r.holds ∧ (∃ d n m, r.main = .rotating d n m false) ∧ r.tick = .out
  | setRoleA none, r              =>
    .mainLoop ∈ r.holds ∧ (∃ d n m b, r.main = .rotating d n m b) ∧ r.tick = .out ∨
      .rotationTicks ∈ r.holds ∧ r.tick = .signalled ∧ r.main = .out
  | onFailed, r                   => .mainLoop ∈ r.holds ∧ ∃ d m, r.main = .unwinding d m
  | tearDown (.own k), r          => r.main.Names k
  | removeEnforcer (.own k), r    => r.main.Names k
  | submitEpochKey n pubkey, r    =>
    .mainLoop ∈ r.holds ∧ ∃ d key, r.main = .rotating d n (some ⟨key, true⟩) true ∧ key.epoch = n ∧
      key.pubkeyB64 = pubkey
  | discardPending k, r           =>
    .mainLoop ∈ r.holds ∧ ∃ d m, r.main = .unwinding d (some m) ∧ m.key.epoch = k
  | retireKey _, r                => .mainLoop ∈ r.holds ∧ r.main = .out
  | roleA, r                      => .rotationTicks ∈ r.holds ∧ r.tick = .out
  | phase, r                      => .rotationTicks ∈ r.holds ∧ r.tick = .hasA
  | onNewEpochSession, r          => .rotationTicks ∈ r.holds ∧ ∃ p, r.tick = .sees p
  | setActive a, r                => .rotationTicks ∈ r.holds ∧ r.tick = .flipped a.epoch
  | signalRetire _, r             => .rotationTicks ∈ r.holds ∧ ∃ e, r.tick = .sees (.cutOver e)
  | _, _                          => True

end Doing

section Programs

open Prog

-- What an event of the main loop starts with and what it ends with.
def atWork : Doing := { holds := [.mainLoop] }

theorem tracks_apply (r : Doing) :
    (applyState prev ds).Tracks Op.May Doing.track (fun _ r' => r' = r) r :=
  only_applyState.same fun o ho => by cases o <;> first | exact ⟨trivial, fun _ => rfl⟩ | exact ho.elim

theorem tracks_overlap {p : P α} (hp : p.Only Op.OfOverlap) (r : Doing) :
    p.Tracks Op.May Doing.track (fun _ r' => r' = r) r :=
  hp.same fun o ho => by
    cases o
    case tearDown id => cases id <;> first | exact ⟨trivial, fun _ => rfl⟩ | exact ho.elim
    case removeEnforcer id => cases id <;> first | exact ⟨trivial, fun _ => rfl⟩ | exact ho.elim
    all_goals first | exact ⟨trivial, fun _ => rfl⟩ | exact ho.elim

theorem tracks_start (r : Doing) :
    (maybeStartRoleB ds).Tracks Op.May Doing.track (fun _ r' => r' = r) r :=
  only_maybeStartRoleB.same fun o ho => by
    cases o
    case tearDown id => cases id <;> first | exact ⟨trivial, fun _ => rfl⟩ | exact ho.elim
    case removeEnforcer id => cases id <;> first | exact ⟨trivial, fun _ => rfl⟩ | exact ho.elim
    all_goals first | exact ⟨trivial, fun _ => rfl⟩ | exact ho.elim

theorem tracks_tickOverlap {p : P α} (hp : p.Only Op.OfTickOverlap) (r : Doing) :
    p.Tracks Op.May Doing.track (fun _ r' => r' = r) r :=
  hp.same fun o ho => by cases o <;> first | exact ⟨trivial, fun _ => rfl⟩ | exact ho.elim

theorem tracks_renormalize :
    (renormalizeActiveListenPort port).Tracks Op.May Doing.track (fun _ r => r = atWork) atWork := by
  have unlock : (perform (.unlock .endpointCommit)).Tracks Op.May Doing.track
      (fun _ r => r = atWork) ⟨[.endpointCommit, .mainLoop], .out, .out⟩ :=
    ⟨⟨.head _, nofun, nofun⟩, fun _ => rfl⟩
  refine tracks_bindOp.mpr ⟨trivial, fun _ => tracks_ite.mpr ⟨fun _ => ?_, fun _ => rfl⟩⟩
  refine ⟨trivial, fun _ => ⟨trivial, fun _ => tracks_ite.mpr ⟨fun _ => ?_, fun _ => unlock⟩⟩⟩
  exact ⟨trivial, fun _ => unlock⟩

theorem tracks_serviceRetire :
    (serviceRetire port).Tracks Op.May Doing.track (fun _ r => r = atWork) atWork := by
  refine tracks_bindOp.mpr ⟨⟨.head _, rfl⟩, fun old => ?_⟩
  cases old
  case none => rfl
  case some =>
    refine tracks_bindOp.mpr ⟨⟨.head _, rfl⟩, fun action => ?_⟩
    split
    case h_2 => rfl
    case h_1 =>
      refine ⟨trivial, fun _ => tracks_bindOp.mpr ⟨trivial, fun _ => ?_⟩⟩
      refine tracks_bind.mpr <| tracks_renormalize.mono fun _ r hr => ?_
      subst hr
      exact ⟨⟨.head _, rfl⟩, fun _ => rfl⟩

def rotating (d n : Nat) (m : Option Mint) (armed : Bool) : Doing :=
  ⟨[.mainLoop], .rotating d n m armed, .out⟩

theorem tracks_applyConfig (r : Doing) :
    (applyConfig ifname cfg).Tracks Op.May Doing.track (fun _ r' => r' = r) r := by
  rw [applyConfig]
  split
  case h_1 => exact ⟨trivial, fun _ => rfl⟩
  case h_2 => rfl

-- A directive that is accepted and fails is at work until its end.
theorem tracks_handleRotateInner :
    (handleRotateInner d applied).Tracks Op.May Doing.track
      (fun x r => r = atWork ∧ x.1 = true ∨
        ∃ n m b, r = rotating d n m b ∧ x = (false, m.map (·.key.epoch))) atWork := by
  refine tracks_bindOp.mpr ⟨⟨.head _, rfl⟩, fun action => ?_⟩
  split
  case h_2 hx =>
    refine .inl ⟨?_, rfl⟩
    simp only [Doing.track, Op.mainAfter]
    rfl
  case h_1 n =>
    have ends (m : Option Mint) (b : Bool) :
        (pure (false, m.map (·.key.epoch)) : P _).Tracks Op.May Doing.track
          (fun x r => r = atWork ∧ x.1 = true ∨
            ∃ n m b, r = rotating d n m b ∧ x = (false, m.map (·.key.epoch))) (rotating d n m b) :=
      .inr ⟨n, m, b, rfl, rfl⟩
    split
    case h_2 => exact ends none false
    case h_1 ds =>
      refine tracks_bindOp.mpr ⟨⟨.head _, _, rfl⟩, fun minted => ?_⟩
      cases minted
      case refused => exact ends none false
      case unpersisted key => exact ends (some ⟨key, false⟩) false
      case minted key activeEpoch =>
        have fails := ends (some ⟨key, true⟩) false
        refine tracks_ite.mpr ⟨fun _ => fails, fun he => ?_⟩
        refine tracks_bindOp.mpr ⟨trivial, fun plan => ?_⟩
        cases plan
        case none => exact fails
        case some plan =>
          refine tracks_bindOp.mpr ⟨trivial, fun up => tracks_ite.mpr ⟨fun _ => fails, fun _ => ?_⟩⟩
          refine tracks_bindOp.mpr ⟨trivial, fun e => ?_⟩
          cases e
          case none => exact ⟨.inr rfl, fun _ => fails⟩
          case some e =>
            refine tracks_bindOp.mpr ⟨trivial, fun _ => tracks_bind.mpr ?_⟩
            refine (tracks_applyConfig (rotating d n (some ⟨key, true⟩) false)).mono fun ok r hr => ?_
            subst hr
            refine tracks_ite.mpr ⟨fun _ => fails, fun _ => ?_⟩
            refine ⟨⟨.head _, ⟨_, _, _, rfl⟩, rfl⟩, fun _ => ?_⟩
            refine ⟨⟨.head _, d, key, rfl, by simpa using he, rfl⟩, fun ok => ?_⟩
            cases ok
            case true  => exact .inl ⟨rfl, rfl⟩
            case false => exact ends (some ⟨key, true⟩) true

theorem tracks_unwindFailedRotation {m : Option Mint} :
    (unwindFailedRotation d (m.map (·.key.epoch))).Tracks Op.May Doing.track (fun _ r => r = atWork)
      (rotating d n m b) := by
  refine ⟨.inl ⟨.head _, ⟨_, _, _, _, rfl⟩, rfl⟩, fun _ => ?_⟩
  refine ⟨.inl rfl, fun _ => ⟨.inl rfl, fun _ => ?_⟩⟩
  cases m
  case none     => exact ⟨⟨.head _, _, _, rfl⟩, fun _ => rfl⟩
  case some key =>
    exact ⟨⟨.head _, d, key, rfl, rfl⟩, fun _ => ⟨⟨.head _, _, _, rfl⟩, fun _ => rfl⟩⟩

theorem tracks_handleRotate :
    (handleRotate d applied).Tracks Op.May Doing.track (fun _ r => r = atWork) atWork := by
  refine tracks_bind.mpr <| tracks_handleRotateInner.mono fun x r hr => ?_
  cases hr
  case inl hr =>
    have ⟨hr, ok⟩ := hr
    exact tracks_ite.mpr ⟨fun hn => by simp [ok] at hn, fun _ => hr⟩
  case inr hr =>
    have ⟨n, m, b, hr, hx⟩ := hr
    subst hr hx
    exact tracks_ite.mpr ⟨fun _ => tracks_unwindFailedRotation, fun hn => absurd rfl hn⟩

-- What a task ends with.
def Doing.Done (r : Doing) : Prop :=
  r.main = .out ∧ r.tick = .out

theorem tracks_turn (h : event.Tracks Op.May Doing.track (fun _ r => r = atWork) atWork) :
    (turn port event).Tracks Op.May Doing.track (fun _ => Doing.Done) {} := by
  refine tracks_bindOp.mpr ⟨trivial, fun _ => ?_⟩
  refine tracks_bind.mpr <| tracks_serviceRetire.mono fun _ r hr => ?_
  subst hr
  refine tracks_bind.mpr <| (tracks_overlap only_serviceRoleBCollapse atWork).mono fun _ r hr => ?_
  subst hr
  refine tracks_bind.mpr <| h.mono fun _ r hr => ?_
  subst hr
  exact ⟨⟨.head _, fun _ => nofun, nofun⟩, fun _ => ⟨rfl, rfl⟩⟩

theorem tracks_onState :
    (onState ds).Tracks Op.May Doing.track (fun _ r => r = atWork) atWork := by
  refine ⟨trivial, fun _ => tracks_bindOp.mpr ⟨trivial, fun _ => ?_⟩⟩
  refine tracks_bind.mpr <| (tracks_apply atWork).mono fun _ r hr => ?_
  subst hr
  refine tracks_ite.mpr ⟨fun _ => ⟨trivial, fun _ => rfl⟩, fun _ => ⟨trivial, fun _ => ?_⟩⟩
  refine tracks_bindOp.mpr ⟨trivial, fun _ => tracks_ite.mpr ⟨fun _ => ⟨trivial, fun _ => rfl⟩, ?_⟩⟩
  refine fun _ => tracks_bind.mpr <| (tracks_start atWork).mono fun _ r hr => ?_
  subst hr
  exact ⟨trivial, fun _ => ⟨trivial, fun _ => rfl⟩⟩

theorem tracks_boot : boot.Tracks Op.May Doing.track (fun _ => Doing.Done) {} := by
  have unlock : (perform (.unlock .mainLoop)).Tracks Op.May Doing.track (fun _ => Doing.Done) atWork :=
    ⟨⟨.head _, fun _ => nofun, nofun⟩, fun _ => ⟨rfl, rfl⟩⟩
  refine tracks_bindOp.mpr ⟨rfl, fun ds => ?_⟩
  cases ds
  case none => exact unlock
  case some ds =>
    refine tracks_bind.mpr <| (tracks_apply atWork).mono fun _ r hr => ?_
    subst hr
    refine tracks_ite.mpr ⟨fun _ => ⟨trivial, fun _ => ⟨rfl, rfl⟩⟩, fun _ => ?_⟩
    exact ⟨trivial, fun _ => ⟨trivial, fun _ => ⟨trivial, fun _ => ⟨trivial, fun _ => unlock⟩⟩⟩⟩

def ticking (t : Tick) : Doing :=
  ⟨[.rotationTicks], .out, t⟩

theorem tracks_cutOver :
    (cutOver a epoch).Tracks Op.May Doing.track (fun _ r => r = ticking .out)
      (ticking (.flipped epoch)) := by
  have routes : (a.peers.forM fun p => do
      let held ← perform (.roleBOf p.gatewayId)
      placePeerRoutes p.cidrs a.newTun epoch
        (held.map fun (b : RoleB) => (b.newTun, b.claim))).Tracks
        Op.May Doing.track (fun _ r => r = ticking (.flipped epoch)) (ticking (.flipped epoch)) := by
    refine tracks_forM (fun p _ r hr => ?_) rfl
    subst hr
    refine tracks_bindOp.mpr ⟨trivial, fun _ => ?_⟩
    exact (only_placePeerRoutes (A := fun o => ∃ c d, o = .addRoute c d) fun _ _ => ⟨_, _, rfl⟩).same
      fun o ⟨c, d, ho⟩ => ho ▸ ⟨trivial, fun _ => rfl⟩
  refine tracks_bind.mpr <| routes.mono fun _ r hr => ?_
  subst hr
  exact ⟨trivial, fun _ => ⟨⟨.head _, rfl⟩, fun _ => ⟨trivial, fun _ => rfl⟩⟩⟩

theorem tracks_tickRoleA :
    tickRoleA.Tracks Op.May Doing.track
      (fun _ r => ∃ t, t ≠ .signalled ∧ r = ticking t) (ticking .out) := by
  refine tracks_bindOp.mpr ⟨⟨.head _, rfl⟩, fun a => ?_⟩
  cases a
  case none => exact ⟨.out, nofun, rfl⟩
  case some a =>
    refine tracks_bindOp.mpr ⟨⟨.head _, rfl⟩, fun phase => ?_⟩
    refine tracks_bindOp.mpr ⟨trivial, fun watch => tracks_bindOp.mpr ⟨trivial, fun live => ?_⟩⟩
    have seen : ∃ t, t ≠ .signalled ∧ ticking (.sees phase) = ticking t := ⟨.sees phase, nofun, rfl⟩
    cases phase
    case idle => exact seen
    case overlapping e =>
      refine tracks_ite.mpr ⟨fun _ => ?_, fun _ => seen⟩
      refine tracks_bindOp.mpr ⟨⟨.head _, _, rfl⟩, fun action => ?_⟩
      split
      case h_1 => exact tracks_cutOver.mono fun _ r hr => ⟨.out, nofun, hr⟩
      case h_2 hx =>
        refine ⟨.sees (.overlapping e), nofun, ?_⟩
        simp only [Doing.track, Op.tickAfter]
        rfl
    case cutOver =>
      refine tracks_ite.mpr ⟨fun _ => ?_, fun _ => ⟨trivial, fun _ => seen⟩⟩
      refine tracks_bindOp.mpr ⟨trivial, fun ok => tracks_ite.mpr ⟨fun _ => ?_, fun _ => seen⟩⟩
      exact ⟨⟨.head _, _, rfl⟩, fun _ => ⟨.inr ⟨.head _, rfl, rfl⟩, fun _ => ⟨.out, nofun, rfl⟩⟩⟩

theorem tracks_tickRotation :
    tickRotation.Tracks Op.May Doing.track (fun _ => Doing.Done) {} := by
  refine tracks_bindOp.mpr ⟨trivial, fun _ => ?_⟩
  refine tracks_bind.mpr <| tracks_tickRoleA.mono fun _ r hr => ?_
  have ⟨t, ht, hr⟩ := hr
  subst hr
  refine tracks_bindOp.mpr ⟨trivial, fun _ => tracks_bind.mpr ?_⟩
  refine (tracks_tickOverlap (.forM fun _ _ => only_tickPending) (ticking t)).mono fun _ r hr => ?_
  subst hr
  refine tracks_bindOp.mpr ⟨trivial, fun _ => tracks_bind.mpr ?_⟩
  refine (tracks_tickOverlap (.forM fun _ _ => only_tickArmed) (ticking t)).mono fun _ r hr => ?_
  subst hr
  exact ⟨⟨.head _, nofun, fun _ => ht⟩, fun _ => ⟨rfl, rfl⟩⟩

theorem tracks_setPeerEndpoint :
    (setPeerEndpoint gid endpoint isRelay).Tracks Op.May Doing.track (fun _ => Doing.Done) {} := by
  have unlock : (perform (.unlock .endpointCommit)).Tracks Op.May Doing.track
      (fun _ => Doing.Done) { holds := [.endpointCommit] } :=
    ⟨⟨.head _, nofun, nofun⟩, fun _ => ⟨rfl, rfl⟩⟩
  refine ⟨trivial, fun _ => tracks_bindOp.mpr ⟨trivial, fun a => tracks_bindOp.mpr ⟨trivial, ?_⟩⟩⟩
  refine fun may => tracks_ite.mpr ⟨fun _ => ⟨trivial, fun _ => ?_⟩, fun _ => unlock⟩
  refine tracks_bindOp.mpr ⟨trivial, fun config => ?_⟩
  split
  case h_2 => exact unlock
  case h_1 =>
    refine tracks_bind.mpr <| (only_applyPeerEndpointScoped.same fun o ho => ?_).mono fun _ r hr => ?_
    case refine_1 => cases o <;> first | exact ⟨trivial, fun _ => rfl⟩ | exact ho.elim
    case refine_2 =>
      subst hr
      exact tracks_ite.mpr ⟨fun _ => ⟨trivial, fun _ => unlock⟩, fun _ => unlock⟩

theorem tracks_prog (q : Request) :
    (q.prog port).Tracks Op.May Doing.track (fun _ => Doing.Done) {} := by
  cases q
  case boot => exact tracks_boot
  case message =>
    refine tracks_turn <| tracks_bindOp.mpr ⟨trivial, fun ds => ?_⟩
    cases ds
    case none => exact ⟨trivial, fun _ => rfl⟩
    case some => exact tracks_onState
  case rotate => exact tracks_turn <| tracks_bindOp.mpr ⟨trivial, fun _ => tracks_handleRotate⟩
  case reconnect => exact tracks_turn ⟨trivial, fun _ => rfl⟩
  case idle => exact tracks_turn rfl
  case tickRotation => exact tracks_tickRotation
  case setPeerEndpoint => exact tracks_setPeerEndpoint
  case readThrough =>
    exact ⟨trivial, fun _ => ⟨trivial, fun _ => ⟨trivial, fun _ =>
      ⟨⟨.head _, nofun, nofun⟩, fun _ => ⟨rfl, rfl⟩⟩⟩⟩⟩
  case transition => exact ⟨trivial, fun _ => ⟨rfl, rfl⟩⟩

end Programs

theorem keeps_prog (q : Request) : Pool.Keeps Op.May Doing.track (q.prog port) {} :=
  (tracks_prog q).mono fun _ _ _ => trivial

theorem holding : Pool.Holding (rules config.wgListenPort) (.start config stateJson storedKeys)
    Doing.track {} Gw.held Doing.holds := by
  refine holding_of rfl (fun _ _ _ => rfl) (fun r (may : Op.boot.May r) => ?_) (fun _ _ may => may.1)
    keeps_prog
  exact may ▸ rfl

-- Without the lock there is nothing that a task is in the middle of.
theorem main_out {o : Op} {x : o.Resp} {r : Doing} (hm : o.May r)
    (hr : .mainLoop ∉ r.holds → r.main = .out) :
    .mainLoop ∉ (r.track o x).holds → (r.track o x).main = .out := by
  intro hl
  cases o
  case boot => simp [Doing.track, Op.locks] at hl
  case lock l =>
    exact hr fun hn => hl (List.mem_cons_of_mem _ hn)
  case unlock l =>
    cases l
    case mainLoop => rfl
    all_goals exact hr (by simpa [Doing.track, Op.locks] using hl)
  case takeRetireReady | onEpochRetired | onDirective | mint | submitEpochKey | onFailed =>
    exact absurd hm.1 hl
  case setRoleA a =>
    cases a
    case some => exact absurd hm.1 hl
    case none =>
      cases hm
      case inl hm => exact absurd hm.1 hl
      case inr hm => simp [Doing.track, Op.mainAfter, hm.2.2, Main.setRoleA]
  all_goals exact hr hl

theorem tick_out {o : Op} {x : o.Resp} {r : Doing} (hm : o.May r)
    (hr : .rotationTicks ∉ r.holds → r.tick = .out) :
    .rotationTicks ∉ (r.track o x).holds → (r.track o x).tick = .out := by
  intro hl
  cases o
  case boot => exact hm ▸ rfl
  case lock l =>
    exact hr fun hn => hl (List.mem_cons_of_mem _ hn)
  case unlock l =>
    cases l
    case rotationTicks => rfl
    all_goals exact hr (by simpa [Doing.track, Op.locks] using hl)
  case roleA | phase | onNewEpochSession | setActive | signalRetire => exact absurd hm.1 hl
  case setRoleA a => simp [Doing.track, Op.tickAfter, hr hl, Tick.setRoleA]
  all_goals exact hr hl

end Gateway
