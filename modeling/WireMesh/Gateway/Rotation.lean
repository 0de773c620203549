import WireMesh.Gateway.Reconcile

-- The rotation of a gateway's own key as a state machine, and the overlaps with peers that rotate theirs.
namespace Gateway

inductive RotationPhase
  | idle
  | overlapping (newEpoch : Nat)
  | cutOver (newEpoch : Nat)
deriving DecidableEq

inductive RotationAction
  | mintBringUpSubmit (epoch : Nat)
  | flipRoutes (epoch : Nat)
  | tearDown (epoch : Nat)
  | abort (epoch : Nat)
deriving DecidableEq

namespace RotationPhase

-- What becomes of the machine, and what it asks for.
def onDirective (newEpoch : Nat) : RotationPhase → RotationPhase × Option RotationAction
  | idle => (overlapping newEpoch, some (.mintBringUpSubmit newEpoch))
  | p    => (p, none)

def onNewEpochSession (rxCorroborated : Bool) : RotationPhase → RotationPhase × Option RotationAction
  | overlapping newEpoch =>
    if rxCorroborated then (cutOver newEpoch, some (.flipRoutes newEpoch))
    else (overlapping newEpoch, none)
  | p => (p, none)

def onEpochRetired (epoch : Nat) : RotationPhase → RotationPhase × Option RotationAction
  | cutOver _ => (idle, some (.tearDown epoch))
  | p         => (p, none)

def onFailed : RotationPhase → RotationPhase × Option RotationAction
  | overlapping newEpoch => (idle, some (.abort newEpoch))
  | p                    => (p, none)

end RotationPhase

inductive RoleBDecision
  | skip
  | start (pendingEpoch : Nat)
  | restart (staleEpoch pendingEpoch : Nat)
  | unusable (pendingEpoch : Nat)
deriving DecidableEq

def decideRoleB (peer : PeerState) (overlapped : Option Nat) : RoleBDecision :=
  match peer.activeKey, peer.pendingKey with
  | some _, some pending =>
    if !Uapi.pubkeyDecodes pending.pubkeyB64 then .unusable pending.epoch
    else
      match overlapped with
      | some held => if held = pending.epoch then .skip else .restart held pending.epoch
      | none      => .start pending.epoch
  | _, _ => .skip

def roleBDecisions (ds : DesiredState) (overlapped : HashMap Nat Nat) :
    List (Nat × RoleBDecision) :=
  ds.peers.map fun peer => (peer.gatewayId, decideRoleB peer (overlapped.lookup peer.gatewayId))

structure OverlapIdentity where
  pendingEpoch : Nat
  newTun : String
deriving DecidableEq

inductive WriteBack
  | apply
  | replaced
  | vanished
deriving DecidableEq

def overlapWriteBack (taken : OverlapIdentity) : Option OverlapIdentity → WriteBack
  | none         => .vanished
  | some current => if current = taken then .apply else .replaced

inductive RouteOwner
  | activeTun
  | overlapTun
deriving DecidableEq

structure OverlapClaim where
  builtAtOwnEpoch : Nat
  cutOver : Bool
deriving DecidableEq

-- An overlap that was built on another of the own epochs cannot pair with the peer any more.
def routeOwner (ownActiveEpoch : Nat) : Option OverlapClaim → RouteOwner
  | some o => if o.cutOver ∧ o.builtAtOwnEpoch = ownActiveEpoch then .overlapTun else .activeTun
  | none   => .activeTun

-- What the retirement of an epoch waits for on the new device, for one peer.
inductive EpochWatch (κ : Type)
  | key (k : κ)
  | gone
deriving DecidableEq

def EpochWatch.key? {κ : Type} : EpochWatch κ → Option κ
  | key k => some k
  | gone  => none

-- Keys are written as `decode` has them. A peer that is gone, or has no key any more, is not waited for
-- once the rotation has cut over.
def epochWatches {κ : Type} (decode : String → Option κ) (snapshot : List (Nat × κ)) (cutOver : Bool)
    (ds : Option DesiredState) (pinnedPubkeys : HashMap Nat String) : List (Nat × EpochWatch κ) :=
  snapshot.map fun (gid, snapshotKey) =>
    if !cutOver then (gid, .key snapshotKey)
    else
      match ds with
      | none    => (gid, .key snapshotKey)
      | some ds =>
        match ds.peers.find? (·.gatewayId = gid) with
        | none      => (gid, .gone)
        | some peer =>
          let selected :=
            match pinnedPubkeys.lookup gid with
            | some pinned => some pinned
            | none        => peer.activePubkeyB64
          match selected with
          | none          => (gid, .gone)
          | some selected => (gid, .key ((decode selected).getD snapshotKey))

-- The keys whose sessions are waited for.
def newEpochWatchKeys (snapshot : List (Nat × Uapi.Key)) (cutOver : Bool) (ds : Option DesiredState)
    (pinnedPubkeys : HashMap Nat String) : List (Nat × Uapi.Key) :=
  let watches := epochWatches (Uapi.keyOfB64 · |>.toOption) snapshot cutOver ds pinnedPubkeys
  watches.filterMap fun (gid, watch) => watch.key?.map (gid, ·)

def collapseDial (ownActiveEpoch builtAtOwnEpoch : Nat) (peerCandidate : String) : Option String :=
  if builtAtOwnEpoch = ownActiveEpoch then none else Reconcile.ownTunEndpoint peerCandidate

end Gateway
