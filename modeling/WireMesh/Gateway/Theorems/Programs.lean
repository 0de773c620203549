import WireMesh.Gateway.System

-- What the parts of a gateway's tasks do, and how what a task knows goes through them.
namespace Gateway

open Prog Uapi

variable {ρ : Type} {pre : Op → ρ → Prop} {track : (o : Op) → ρ → o.Resp → ρ} {r : ρ}
  {A : Op → Prop}

-- The type of a response computes, so it is no part of what these lemmas are found by.
@[simp]
theorem tracks_performOp {o : Op} {Q : no_index o.Resp → ρ → Prop} :
    (Gateway.perform o).Tracks pre track Q r ↔ pre o r ∧ ∀ x, Q x (track o r x) :=
  Iff.rfl

theorem tracks_bindOp {o : Op} {f : no_index o.Resp → P α} {Q : α → ρ → Prop} :
    (Gateway.perform o >>= f).Tracks pre track Q r ↔
      pre o r ∧ ∀ x, (f x).Tracks pre track Q (track o r x) :=
  Iff.rfl

@[simp]
theorem only_performOp {o : Op} : (Gateway.perform o).Only A ↔ A o :=
  only_perform

theorem only_allOk {f : α → P Bool} {as : List α} (h : ∀ a ∈ as, (f a).Only A) :
    (allOk f as).Only A := by
  induction as
  case nil => trivial
  case cons a as ih =>
    have ⟨ha, has⟩ := List.forall_mem_cons.mp h
    exact ha.bind fun _ => .ite (ih has) trivial

namespace Op

-- What applying a state does.
def OfApply (ds : DesiredState) : Op → Prop
  | deviceConfig ds' _ _  => ds' = ds
  | active                => True
  | send _ _              => True
  | recordApplied _ _     => True
  | recordAdded _ _ _ _   => True
  | addRoute _ _          => True
  | delRoute _ _          => True
  | _                     => False

-- What writing a single peer does.
def OfScoped : Op → Prop
  | active             => True
  | send _ _           => True
  | recordScoped _ _ _ => True
  | _                  => False

-- What pointing a peer to an endpoint does.
def OfEndpoint : Op → Prop
  | lock l              => l = .endpointCommit
  | unlock l            => l = .endpointCommit
  | active              => True
  | mayPoint _ _        => True
  | pinLive _ _         => True
  | scopedConfig _ _ _  => True
  | send _ _            => True
  | recordScoped _ _ _  => True
  | setRelayPointed _ _ => True
  | commitGen           => True
  | readThrough _ _ _   => True
  | transition _ _      => True
  | _                   => False

-- What the main loop does about overlaps.
def OfOverlap : Op → Prop
  | takeRoleB _                     => True
  | insertRoleB _ _                 => True
  | unpin _                         => True
  | active                          => True
  | addRoute _ _                    => True
  | tearDown (.overlap _ _)         => True
  | insertEnforcer (.overlap _ _) _ => True
  | removeEnforcer (.overlap _ _)   => True
  | plan (.overlap _ _)             => True
  | bringUp _ _                     => True
  | attach _ _                      => True
  | send _ _                        => True
  | roleB                           => True
  | takeCollapseReady               => True
  | _                               => False

-- What the rotation ticks do about overlaps.
def OfTickOverlap : Op → Prop
  | roleB            => True
  | liveness _       => True
  | active           => True
  | addRoute _ _     => True
  | markCutOver _ _  => True
  | markDone _ _     => True
  | dropOverlap _ _  => True
  | sendEpochAck _ _ => True
  | signalCollapse _ _ => True
  | _                => False

-- What is left of a retired epoch once its device is gone.
def OfRetired : Op → Prop
  | active            => True
  | lock l            => l = .endpointCommit
  | unlock l          => l = .endpointCommit
  | setListenPort _ _ => True
  | renormalized _    => True
  | retireKey _       => True
  | _                 => False

-- What a retired epoch is given up by.
def OfService : Op → Prop
  | takeRetireReady          => True
  | onEpochRetired _         => True
  | tearDown (.own _)        => True
  | removeEnforcer (.own _)  => True
  | o                        => o.OfRetired

-- What a directive sets going.
def OfRotate : Op → Prop
  | onDirective _            => True
  | mint _                   => True
  | plan (.own _)            => True
  | bringUp _ _              => True
  | attach _ _               => True
  | tearDown (.own _)        => True
  | insertEnforcer (.own _) _ => True
  | removeEnforcer (.own _)  => True
  | send _ _                 => True
  | setRoleA _               => True
  | submitEpochKey _ _       => True
  | discardPending _         => True
  | onFailed                 => True
  | _                        => False

-- What the rotation ticks do about the own key.
def OfTickRoleA : Op → Prop
  | roleA             => True
  | phase             => True
  | watch _ _         => True
  | liveness _        => True
  | onNewEpochSession => True
  | roleBOf _         => True
  | addRoute _ _      => True
  | seedGuard _       => True
  | setActive _       => True
  | promote _         => True
  | allLive           => True
  | notAllLive        => True
  | signalRetire _    => True
  | setRoleA a        => a = none
  | _                 => False

-- A key is pinned for a peer that has both an active one and a pending one.
def OfStart (ds : DesiredState) : Op → Prop
  | pin _ key => ∃ p ∈ ds.peers, p.pendingKey.isSome ∧ ∃ k ∈ p.activeKey, k.pubkeyB64 = key
  | o         => o.OfOverlap

end Op

section Only

theorem only_applyConfig (hA : ∀ body, A (.send ifname body)) : (applyConfig ifname cfg).Only A := by
  rw [applyConfig]
  split
  case h_1 => exact only_performOp.mpr (hA _)
  case h_2 => trivial

theorem only_applyDeviceIfChanged : (applyDeviceIfChanged ifname dev).Only (Op.OfApply ds) := by
  rw [applyDeviceIfChanged]
  split
  case h_1 => trivial
  case h_2 =>
    refine .bind (only_performOp.mpr trivial) fun _ => .ite trivial ?_
    exact .bind (only_performOp.mpr trivial) fun _ => .ite trivial <|
      .bind (only_performOp.mpr trivial) fun _ => trivial

theorem only_addPeers :
    (addPeers ifname snapshot dev encoded added).Only (Op.OfApply ds) := by
  rw [addPeers]
  split
  case h_1 => trivial
  case h_2 =>
    exact .bind (only_performOp.mpr trivial) fun _ => .ite trivial <|
      .bind (only_performOp.mpr trivial) fun _ => trivial

theorem only_applyDevice : (applyDevice ifname dev).Only (Op.OfApply ds) := by
  refine .bind (only_performOp.mpr trivial) fun _ => ?_
  split
  case h_1 => trivial
  case h_2 =>
    dsimp only
    split
    case h_1 => trivial
    case h_2 => exact only_addPeers
    case h_3 => exact only_applyDeviceIfChanged

theorem only_applyRoutes (hadd : ∀ cidr, A (.addRoute cidr ifname))
    (hdel : ∀ cidr, A (.delRoute cidr ifname)) : (applyRoutes ifname diff).Only A :=
  .bind (only_allOk fun _ _ => only_performOp.mpr (hadd _)) fun _ =>
    .ite (only_allOk fun _ _ => only_performOp.mpr (hdel _)) trivial

theorem only_applyState : (applyState prev ds).Only (Op.OfApply ds) :=
  .bind (only_performOp.mpr trivial) fun _ =>
    .bind (only_performOp.mpr rfl) fun _ =>
      .bind only_applyDevice fun _ =>
        .ite (only_applyRoutes (fun _ => trivial) fun _ => trivial) trivial

theorem only_setOnePeer : (setOnePeer ifname peer).Only Op.OfScoped := by
  rw [setOnePeer]
  split
  case h_1 => trivial
  case h_2 =>
    refine .bind (only_performOp.mpr trivial) fun _ => .ite trivial ?_
    split
    case h_1 => trivial
    case h_2 =>
      exact .bind (only_performOp.mpr trivial) fun _ => .ite trivial (only_performOp.mpr trivial)

theorem only_applyPeerEndpointScoped :
    (applyPeerEndpointScoped ifname dev target).Only Op.OfScoped := by
  rw [applyPeerEndpointScoped]
  split
  case h_1 => trivial
  case h_2 =>
    refine .bind (only_performOp.mpr trivial) fun _ => .ite trivial ?_
    exact .bind only_setOnePeer fun _ => .ite trivial (only_performOp.mpr trivial)

theorem only_setPeerEndpoint : (setPeerEndpoint gid endpoint isRelay).Only Op.OfEndpoint := by
  refine .bind (only_performOp.mpr rfl) fun _ => .bind (only_performOp.mpr trivial) fun _ =>
    .bind (only_performOp.mpr trivial) fun _ => .ite ?_ (only_performOp.mpr rfl)
  refine .bind (only_performOp.mpr trivial) fun _ => .bind (only_performOp.mpr trivial) fun x => ?_
  split
  case h_2 => exact only_performOp.mpr rfl
  case h_1 =>
    refine .bind (only_applyPeerEndpointScoped.mono fun o ho => ?_) fun _ =>
      .ite ?_ (only_performOp.mpr rfl)
    case refine_1 => cases o <;> first | exact ho | exact ho.elim
    exact .bind (only_performOp.mpr trivial) fun _ => only_performOp.mpr rfl

theorem only_readThroughEndpoint : (readThroughEndpoint gid endpoint).Only Op.OfEndpoint :=
  .bind (only_performOp.mpr trivial) fun _ => .bind (only_performOp.mpr rfl) fun _ =>
    .bind (only_performOp.mpr trivial) fun _ => only_performOp.mpr rfl

theorem only_placePeerRoutes (hA : ∀ cidr ifname, A (.addRoute cidr ifname)) :
    (placePeerRoutes cidrs ifname epoch overlap).Only A :=
  .forM fun _ _ => .bind (only_performOp.mpr (hA _ _)) fun _ => trivial

theorem only_retireStaleOverlap : (retireStaleOverlap gid epoch).Only Op.OfOverlap := by
  refine .bind (only_performOp.mpr trivial) fun x => .bind (only_performOp.mpr trivial) fun _ => ?_
  have rest : (do
      Gateway.perform (.tearDown (.overlap gid epoch))
      Gateway.perform (.removeEnforcer (.overlap gid epoch)) : P Unit).Only Op.OfOverlap :=
    .bind (only_performOp.mpr trivial) fun _ => only_performOp.mpr trivial
  split
  case h_1 =>
    exact .bind (only_performOp.mpr trivial) fun _ =>
      .bind (only_placePeerRoutes fun _ _ => trivial) fun _ => rest
  case h_2 => exact rest

theorem only_serviceRoleBCollapse : serviceRoleBCollapse.Only Op.OfOverlap :=
  .bind (only_performOp.mpr trivial) fun _ => .forM fun _ _ =>
    .bind (only_performOp.mpr trivial) fun _ => only_performOp.mpr trivial

theorem only_tickPending : (tickPending gid b).Only Op.OfTickOverlap := by
  refine .bind (only_performOp.mpr trivial) fun _ => .ite ?_ trivial
  refine .bind (only_performOp.mpr trivial) fun _ => .ite ?_ trivial
  refine .bind (only_performOp.mpr trivial) fun _ => ?_
  refine .bind (only_placePeerRoutes fun _ _ => trivial) fun _ => ?_
  refine .bind (only_performOp.mpr trivial) fun _ => .ite ?_ trivial
  exact .bind (only_performOp.mpr trivial) fun _ => trivial

theorem only_tickArmed : (tickArmed gid b).Only Op.OfTickOverlap := by
  refine .bind (only_performOp.mpr trivial) fun _ => .bind (only_performOp.mpr trivial) fun _ => ?_
  refine .ite ?_ trivial
  refine .bind (only_performOp.mpr trivial) fun _ => .ite ?_ trivial
  exact .bind (only_placePeerRoutes fun _ _ => trivial) fun _ => only_performOp.mpr trivial

theorem only_renormalize : (renormalizeActiveListenPort port).Only Op.OfRetired := by
  refine .bind (only_performOp.mpr trivial) fun _ => .ite ?_ trivial
  refine .bind (only_performOp.mpr rfl) fun _ => .bind (only_performOp.mpr trivial) fun _ => .ite ?_ ?_
  case refine_1 => exact .bind (only_performOp.mpr trivial) fun _ => only_performOp.mpr rfl
  case refine_2 => exact only_performOp.mpr rfl

theorem only_serviceRetire : (serviceRetire port).Only Op.OfService := by
  refine .bind (only_performOp.mpr trivial) fun _ => ?_
  split
  case h_2 => trivial
  case h_1 =>
    refine .bind (only_performOp.mpr trivial) fun _ => ?_
    split
    case h_2 => trivial
    case h_1 =>
      refine .bind (only_performOp.mpr trivial) fun _ => .bind (only_performOp.mpr trivial) fun _ => ?_
      refine .bind (only_renormalize.mono fun o ho => ?_) fun _ => only_performOp.mpr trivial
      cases o <;> first | exact ho | exact ho.elim

theorem only_cutOver : (cutOver a epoch).Only Op.OfTickRoleA := by
  refine .bind (.forM fun _ _ => .bind (only_performOp.mpr trivial) fun _ =>
    only_placePeerRoutes fun _ _ => trivial) fun _ => ?_
  exact .bind (only_performOp.mpr trivial) fun _ => .bind (only_performOp.mpr trivial) fun _ =>
    only_performOp.mpr trivial

theorem only_tickRoleA : tickRoleA.Only Op.OfTickRoleA := by
  refine .bind (only_performOp.mpr trivial) fun _ => ?_
  split
  case h_2 => trivial
  case h_1 =>
    refine .bind (only_performOp.mpr trivial) fun phase => .bind (only_performOp.mpr trivial) fun _ =>
      .bind (only_performOp.mpr trivial) fun _ => ?_
    cases phase
    case idle => trivial
    case overlapping =>
      refine .ite (.bind (only_performOp.mpr trivial) fun _ => ?_) trivial
      split
      case h_1 => exact only_cutOver
      case h_2 => trivial
    case cutOver =>
      refine .ite ?_ (only_performOp.mpr trivial)
      refine .bind (only_performOp.mpr trivial) fun _ => .ite ?_ trivial
      exact .bind (only_performOp.mpr trivial) fun _ => only_performOp.mpr rfl

theorem only_unwindFailedRotation : (unwindFailedRotation epoch minted).Only Op.OfRotate := by
  refine .bind (only_performOp.mpr trivial) fun _ => .bind (only_performOp.mpr trivial) fun _ =>
    .bind (only_performOp.mpr trivial) fun _ => ?_
  split
  case h_1 => exact .bind (only_performOp.mpr trivial) fun _ => only_performOp.mpr trivial
  case h_2 => exact only_performOp.mpr trivial

theorem only_handleRotateInner : (handleRotateInner epoch applied).Only Op.OfRotate := by
  refine .bind (only_performOp.mpr trivial) fun _ => ?_
  split
  case h_2 => trivial
  case h_1 =>
    split
    case h_2 => trivial
    case h_1 =>
      refine .bind (only_performOp.mpr trivial) fun minted => ?_
      cases minted
      case refused | unpersisted => trivial
      case minted =>
        refine .ite trivial <| .bind (only_performOp.mpr trivial) fun _ => ?_
        split
        case h_2 => trivial
        case h_1 =>
          refine .bind (only_performOp.mpr trivial) fun _ => .ite trivial <|
            .bind (only_performOp.mpr trivial) fun _ => ?_
          split
          case h_2 => exact .bind (only_performOp.mpr trivial) fun _ => trivial
          case h_1 =>
            refine .bind (only_performOp.mpr trivial) fun _ =>
              .bind (only_applyConfig fun _ => trivial) fun _ => .ite trivial ?_
            exact .bind (only_performOp.mpr trivial) fun _ =>
              .bind (only_performOp.mpr trivial) fun _ => trivial

theorem only_handleRotate : (handleRotate epoch applied).Only Op.OfRotate :=
  .bind only_handleRotateInner fun _ => .ite only_unwindFailedRotation trivial

theorem only_startOverlap : (startOverlap ds gid epoch).Only (Op.OfStart ds) := by
  rw [startOverlap]
  split
  case h_2 => trivial
  case h_1 peer hp =>
    have hm := List.mem_of_find?_eq_some hp
    split
    case h_2 => trivial
    case h_1 active ha =>
      split
      case h_2 => trivial
      case h_1 pending hpend =>
        split
        case h_2 => trivial
        case h_1 =>
          refine .ite trivial <| .bind (only_performOp.mpr trivial) fun _ => ?_
          split
          case h_2 => trivial
          case h_1 =>
            refine .bind (only_performOp.mpr trivial) fun _ =>
              .bind (only_performOp.mpr trivial) fun _ => .ite trivial <|
                .bind (only_performOp.mpr trivial) fun _ => ?_
            split
            case h_2 => exact .bind (only_performOp.mpr trivial) fun _ => trivial
            case h_1 =>
              refine .bind (only_performOp.mpr trivial) fun _ =>
                .bind (only_applyConfig fun _ => trivial) fun _ => .ite ?_ ?_
              case refine_1 =>
                exact .bind (only_performOp.mpr trivial) fun _ =>
                  .bind (only_performOp.mpr trivial) fun _ => trivial
              case refine_2 =>
                exact .bind (only_performOp.mpr ⟨peer, hm, by simp [hpend], active, ha, rfl⟩)
                  fun _ => only_performOp.mpr trivial

theorem only_maybeStartRoleB : (maybeStartRoleB ds).Only (Op.OfStart ds) := by
  refine .bind (only_performOp.mpr trivial) fun _ => .forM fun (gid, decision) _ => ?_
  cases decision
  case skip | unusable => trivial
  case start => exact only_startOverlap
  case restart =>
    refine .bind (only_retireStaleOverlap.mono fun o ho => ?_) fun _ => only_startOverlap
    cases o <;> first | exact ho | exact ho.elim

end Only
end Gateway
