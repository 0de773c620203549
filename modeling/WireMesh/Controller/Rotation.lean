import WireMesh.Controller.Db

-- The rotation of a gateway's key: what the controller remembers of it between two decisions, and how
-- it decides.
namespace Controller

-- Instants are nanoseconds.
abbrev Instant := Nat

def GRACE_PROMOTE : Nat := 90 * 10 ^ 9

def RETIRE_GRACE : Nat := 30 * 10 ^ 9

def ABORT_AFTER : Nat := 300 * 10 ^ 9

inductive RotationDecision
  | wait
  | promote (epoch : Nat)
  | retire (epoch : Nat)
  | finished
  | abort (epoch : Nat) (reason : String)
deriving DecidableEq

structure RotationState where
  pendingEpoch : Nat
  pendingHasRealKey : Bool
  priorActiveEpoch : Option Nat
  startedAt : Instant
  promotedAt : Option Instant
  expectedPeers : List Nat
  liveAcks : List Nat

def RotationState.decide (s : RotationState) (now : Instant) : RotationDecision :=
  match s.promotedAt with
  | some promotedAt =>
    match s.priorActiveEpoch with
    | none       => .finished
    | some prior => if now - promotedAt ≥ RETIRE_GRACE then .retire prior else .wait
  | none =>
    if !s.pendingHasRealKey then
      if now - s.startedAt ≥ ABORT_AFTER
      then .abort s.pendingEpoch "no epoch key submitted before abort deadline"
      else .wait
    else if s.expectedPeers ≠ [] ∧ s.expectedPeers ⊆ s.liveAcks then .promote s.pendingEpoch
    else if now - s.startedAt ≥ GRACE_PROMOTE then .promote s.pendingEpoch
    else .wait

structure RotationTracker where
  pendingEpoch : Nat
  priorActiveEpoch : Option Nat
  startedAt : Instant
  promotedAt : Option Instant
  liveAcks : List Nat
  installedAt : Instant
deriving DecidableEq

def RotationTracker.start (pendingEpoch : Nat) (priorActiveEpoch : Option Nat) (now : Instant) :
    RotationTracker where
  pendingEpoch     := pendingEpoch
  priorActiveEpoch := priorActiveEpoch
  startedAt        := now
  promotedAt       := none
  liveAcks         := []
  installedAt      := now

-- The newest pending epoch, and the first active one.
def selectLivePending (keys : List GatewayKeyRow) : Option (Nat × Option Nat) := do
  let pending ← ((keys.filter fun k => k.2.2 = .pending).map (·.1)).max?
  return (pending, (keys.find? fun k => k.2.2 = .active).map (·.1))

-- A tracker goes if the rows it was read against are not older than it and name another epoch.
def evictDecision (trackerPending : Nat) (trackerInstalledAt : Instant) (dbPending : Option Nat)
    (readAt : Instant) : Bool :=
  match dbPending with
  | none           => false
  | some dbPending => if trackerInstalledAt > readAt then false else trackerPending ≠ dbPending

structure TrackerToken where
  pendingEpoch : Nat
  installedAt : Instant
deriving DecidableEq

def TrackerToken.of (tracker : RotationTracker) : TrackerToken where
  pendingEpoch := tracker.pendingEpoch
  installedAt  := tracker.installedAt

inductive WriteBack
  | apply
  | replaced
  | vanished
deriving DecidableEq

def trackerWriteBack (taken : TrackerToken) : Option TrackerToken → WriteBack
  | none     => .vanished
  | some cur => if cur = taken then .apply else .replaced

inductive TrackerEffect
  | promoted
  | finished
  | finishedIfUnpromoted
deriving DecidableEq

abbrev Rotations := Nat → Option RotationTracker

namespace Rotations

variable (rotations : Rotations)

def put (gatewayId : Nat) (tracker : Option RotationTracker) : Rotations :=
  Function.update rotations gatewayId tracker

-- A tracker of another rotation than the one in the rows is evicted, then a missing one is seeded.
def seed (gatewayId : Nat) (live : Option (Nat × Option Nat)) (readAt now : Instant) : Rotations :=
  let tracker := (rotations gatewayId).filter fun t =>
    !evictDecision t.pendingEpoch t.installedAt (live.map (·.1)) readAt
  rotations.put gatewayId <| tracker.or (live.map fun l => .start l.1 l.2 now)

def stateOf (tracker : RotationTracker) (keys : List GatewayKeyRow) (expectedPeers : List Nat) :
    RotationState where
  pendingEpoch      := tracker.pendingEpoch
  pendingHasRealKey := keys.any fun k =>
    k.1 = tracker.pendingEpoch ∧ k.2.2 = .pending ∧ k.2.1 ≠ AWAITING_SUBMISSION_SENTINEL
  priorActiveEpoch  := tracker.priorActiveEpoch
  startedAt         := tracker.startedAt
  promotedAt        := tracker.promotedAt
  expectedPeers     := expectedPeers
  liveAcks          := tracker.liveAcks

-- One critical section: seed, then decide by what is tracked.
def plan (gatewayId : Nat) (keys : List GatewayKeyRow) (readAt : Instant) (connected : List Nat)
    (now : Instant) : Option (RotationDecision × TrackerToken) × Rotations :=
  let rotations := rotations.seed gatewayId (selectLivePending keys) readAt now
  let expectedPeers := connected.filter (· ≠ gatewayId)
  let decision := (rotations gatewayId).map fun t =>
    ((stateOf t keys expectedPeers).decide now, TrackerToken.of t)
  (decision, rotations)

-- The outcome of a decision goes to the tracker it was taken for, and to no other.
def applyEffect (gatewayId : Nat) (taken : TrackerToken) (effect : TrackerEffect) (now : Instant) :
    Rotations :=
  match trackerWriteBack taken ((rotations gatewayId).map TrackerToken.of) with
  | .replaced => rotations
  | .vanished => rotations
  | .apply    =>
    match effect with
    | .promoted =>
      rotations.put gatewayId <| (rotations gatewayId).map ({ · with promotedAt := some now })
    | .finished => rotations.put gatewayId none
    | .finishedIfUnpromoted =>
      if (rotations gatewayId).any (·.promotedAt.isSome) then rotations
      else rotations.put gatewayId none

structure EpochAck where
  peerGatewayId : Nat
  epoch : Nat
  live : Bool

-- Gateways without a tracker are seeded from what was read of them before.
def seedAbsent (now : Instant) : List (Nat × Option (Nat × Option Nat)) → Rotations → Rotations
  | [],               rotations => rotations
  | (id, live) :: rest, rotations =>
    seedAbsent now rest <|
      rotations.put id <| (rotations id).or (live.map fun l => .start l.1 l.2 now)

def recordAcks (reporting : Nat) : List EpochAck → Rotations → Rotations
  | [],          rotations => rotations
  | ack :: acks, rotations =>
    recordAcks reporting acks <| rotations.put ack.peerGatewayId <|
      (rotations ack.peerGatewayId).map fun t =>
        if ack.epoch = t.pendingEpoch ∧ ack.live ∧ reporting ∉ t.liveAcks
        then { t with liveAcks := t.liveAcks ++ [reporting] } else t

end Rotations
end Controller
