import WireMesh.Controller.Service

-- The work that moves the rotations of keys on, from calls and in the background.
namespace Controller

open Handler

-- The announcement of changed keys where nobody waits for its outcome.
def announceKeys (gatewayId : Nat) : Handler Unit := do
  let _ ← (emitKeyRotated gatewayId).run

def trackerEffect (gatewayId : Nat) (taken : TrackerToken) (effect : TrackerEffect) : Handler Unit :=
  Prog.perform <| CtlOp.trackerEffect gatewayId taken effect

-- A decision on a rotation is carried out, and what it has changed is announced.
def carryOut (gatewayId : Nat) (taken : TrackerToken) : RotationDecision → Handler Unit
  | .wait          => pure ()
  | .finished      => trackerEffect gatewayId taken .finished
  | .promote epoch => do
    match ← commit <| .promoteEpoch gatewayId epoch with
    | .ok .applied =>
      trackerEffect gatewayId taken .promoted
      announceKeys gatewayId
    | _            => pure ()
  | .retire epoch  => do
    match ← commit <| .retireEpoch gatewayId epoch with
    | .ok .applied =>
      trackerEffect gatewayId taken .finished
      announceKeys gatewayId
    | _            => pure ()
  | .abort epoch _ => do
    match ← commit <| .dropPendingEpoch gatewayId epoch with
    | .ok .dropped   =>
      trackerEffect gatewayId taken .finished
      announceKeys gatewayId
    | .ok .rowAbsent => trackerEffect gatewayId taken .finishedIfUnpromoted
    | _              => pure ()

def driveRotationFor (gatewayId : Nat) : Handler Unit := do
  let readAt ← now
  match ← ask (.allKeysForGateway gatewayId) with
  | .error _ => pure ()
  | .ok keys =>
    match ← Prog.perform <| CtlOp.planRotation gatewayId keys readAt with
    | some (decision, taken) => carryOut gatewayId taken decision
    | none                   => pure ()

def forEach (f : α → Handler Unit) : List α → Handler Unit
  | []      => pure ()
  | a :: as => do f a; forEach f as

-- An epoch that is left retiring without a tracker goes without a grace.
def retireOrphan (gatewayId epoch : Nat) : Handler Unit := do
  match ← commit <| .retireEpoch gatewayId epoch with
  | .ok .applied => announceKeys gatewayId
  | _            => pure ()

def retiringEpochs (keys : List GatewayKeyRow) : List Nat :=
  (keys.filter fun k => k.2.2 = .retiring).map (·.1)

def sweepOrphans (gatewayId : Nat) : Handler Unit := do
  match ← ask (.allKeysForGateway gatewayId) with
  | .error _ => pure ()
  | .ok keys =>
    if !(retiringEpochs keys).isEmpty then
      if !(← Prog.perform <| CtlOp.hasTracker gatewayId) then
        forEach (retireOrphan gatewayId) (retiringEpochs keys)

def sweepGateway (gatewayId : Nat) : Handler Unit := do
  let readAt ← now
  match ← ask (.allKeysForGateway gatewayId) with
  | .error _ => pure ()
  | .ok keys =>
    if let some live := selectLivePending keys then
      Prog.perform <| CtlOp.seedRotation gatewayId live readAt
    driveRotationFor gatewayId
    sweepOrphans gatewayId

def sweepRotations : Handler Unit := do
  match ← ask .gatewaysWithRotationState with
  | .error _       => pure ()
  | .ok gatewayIds => forEach sweepGateway gatewayIds

def initiateRotation (gatewayId : Nat) : Handler Unit := do
  match ← commit <| .rotateKey gatewayId with
  | .ok _    => announceKeys gatewayId
  | .error _ => pure ()

def dueRotations (midRotation activeIds : List Nat) : List Nat :=
  activeIds.filter (· ∉ midRotation)

-- The rotation timer leaves gateways alone that have a rotation underway.
def initiateDueRotations : Handler Unit := do
  match ← ask .gatewaysWithRotationState with
  | .error _        => pure ()
  | .ok midRotation =>
    match ← ask .activeGatewayIds with
    | .error _      => pure ()
    | .ok activeIds => forEach initiateRotation (dueRotations midRotation activeIds)

end Controller
