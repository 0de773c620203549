import WireMesh.Lib.Prog
import WireMesh.Controller.Enroll
import WireMesh.Controller.Fabric
import WireMesh.Controller.Projection
import WireMesh.Controller.Rotation

-- The state of a running controller, and what its services do to it in one go. Nothing else comes
-- between the parts of one operation: a query or a transaction holds the lock of the database, and
-- the trackers and the votes on relays have locks of their own.
namespace Controller

open Policy

inductive Query
  | currentRevision
  | cidrsForSegment (segmentId : Nat)
  | gatewayIdentityById (gatewayId : Nat)
  | findGatewayByName (name : String)
  | listOtherGateways (excludeGatewayId : Nat)
  | activeGatewayForSegment (segmentId : Nat)
  | activeGatewayIds
  | gatewayObserveKey (gatewayId : Nat)
  | allKeysForGateway (gatewayId : Nat)
  | keysSnapshot (gatewayId : Nat)
  | gatewaysWithRotationState
  | candidatesFor (gatewayId : Nat)
  | revokedSerials
  | activeRelays
  | relaysSnapshot
  | relayStatus (relayId : Nat)
  | latestPolicy
  | findRelayByName (name : String)
  | revocationSnapshot

abbrev Query.Resp : Query → Type
  | currentRevision           => Nat
  | cidrsForSegment _         => List String
  | gatewayIdentityById _     => Option GatewayIdentity
  | findGatewayByName _       => Option GatewayIdentity
  | listOtherGateways _       => List GatewayIdentity
  | activeGatewayForSegment _ => Option Nat
  | activeGatewayIds          => List Nat
  | gatewayObserveKey _       => Option String
  | allKeysForGateway _       => List GatewayKeyRow
  | keysSnapshot _            => List GatewayKeyRow × Nat
  | gatewaysWithRotationState => List Nat
  | candidatesFor _           => List String
  | revokedSerials            => List String
  | activeRelays              => List (Nat × String)
  | relaysSnapshot            => List (Nat × String) × Nat
  | relayStatus _             => Option RelayStatus
  | latestPolicy              => Option (Nat × String)
  | findRelayByName _         => Option Nat
  | revocationSnapshot        => Nat × List String

def Db.ask (db : Db) : (q : Query) → q.Resp
  | .currentRevision           => db.currentRevision
  | .cidrsForSegment s         => db.cidrsForSegment s
  | .gatewayIdentityById g     => db.gatewayIdentityById g
  | .findGatewayByName n       => db.findGatewayByName n
  | .listOtherGateways g       => db.listOtherGateways g
  | .activeGatewayForSegment s => db.activeGatewayForSegment s
  | .activeGatewayIds          => db.activeGatewayIds
  | .gatewayObserveKey g       => db.gatewayObserveKey g
  | .allKeysForGateway g       => db.allKeysForGateway g
  | .keysSnapshot g            => db.keysSnapshot g
  | .gatewaysWithRotationState => db.gatewaysWithRotationState
  | .candidatesFor g           => db.candidatesFor g
  | .revokedSerials            => db.revokedSerials
  | .activeRelays              => db.activeRelays
  | .relaysSnapshot            => db.relaysSnapshot
  | .relayStatus r             => db.relayStatus r
  | .latestPolicy              => db.latestPolicy
  | .findRelayByName n         => db.findRelayByName n
  | .revocationSnapshot        => db.revocationSnapshot

inductive Tx
  | createSegment (name : String) (cidrs : List Ipv4Net)
  | deleteSegment (segmentId : Nat)
  | applyFabric (segments : List (String × List Ipv4Net)) (policyYaml : Option String)
  | insertEnrollmentToken (token : TokenRow)
  | enrollGateway (args : EnrollArgs)
  | enrollRelay (secretHash relayName endpoint certSerial issuerHandle now : String)
  | rotateKey (gatewayId : Nat)
  | setEpochPubkey (gatewayId epoch : Nat) (pubkey : String)
  | promoteEpoch (gatewayId epoch : Nat)
  | retireEpoch (gatewayId epoch : Nat)
  | dropPendingEpoch (gatewayId epoch : Nat)
  | drainGateway (gatewayId : Nat) (now : String)
  | revokeCert (serial now : String)
  | setCandidateEndpoint (gatewayId : Nat) (addr : String)
  | setLocalCandidates (gatewayId : Nat) (endpoints : List String)
  | setAppliedVersion (gatewayId appliedVersion : Nat)
  | insertRelay (name endpoint : String)
  | setRelayStatus (relayId : Nat) (status : RelayStatus)

-- What a transaction yields when it is committed, and the errors it may end with instead.
abbrev Tx.Out : Tx → Type
  | createSegment _ _         => Nat
  | deleteSegment _           => Unit
  | applyFabric _ _           => ApplyOutcome
  | insertEnrollmentToken _   => Unit
  | enrollGateway _           => EnrollOutcome
  | enrollRelay _ _ _ _ _ _   => Nat
  | rotateKey _               => Nat
  | setEpochPubkey _ _ _      => CasOutcome
  | promoteEpoch _ _          => CasOutcome
  | retireEpoch _ _           => CasOutcome
  | dropPendingEpoch _ _      => DropPendingOutcome
  | drainGateway _ _          => List String
  | revokeCert _ _            => Bool
  | setCandidateEndpoint _ _  => Option Nat
  | setLocalCandidates _ _    => Option Nat
  | setAppliedVersion _ _     => Unit
  | insertRelay _ _           => Nat
  | setRelayStatus _ _        => Unit

abbrev Tx.Err : Tx → Type
  | enrollGateway _         => EnrollError
  | enrollRelay _ _ _ _ _ _ => EnrollError
  | _                       => String

abbrev Tx.Resp (t : Tx) : Type :=
  Except t.Err t.Out

-- An error of the database itself, as the transaction reports it.
def Tx.dbError : (t : Tx) → String → t.Err
  | enrollGateway _          => .other
  | enrollRelay _ _ _ _ _ _  => .other
  | createSegment _ _        => id
  | deleteSegment _          => id
  | applyFabric _ _          => id
  | insertEnrollmentToken _  => id
  | rotateKey _              => id
  | setEpochPubkey _ _ _     => id
  | promoteEpoch _ _         => id
  | retireEpoch _ _          => id
  | dropPendingEpoch _ _     => id
  | drainGateway _ _         => id
  | revokeCert _ _           => id
  | setCandidateEndpoint _ _ => id
  | setLocalCandidates _ _   => id
  | setAppliedVersion _ _    => id
  | insertRelay _ _          => id
  | setRelayStatus _ _       => id

namespace Db

variable (db : Db) [Ipnet] [Sha256] [IpnetV6] [PolicyText]

def transact : (t : Tx) → Except t.Err (t.Out × Db)
  | .createSegment name cidrs        => db.createSegment name cidrs
  | .deleteSegment s                 => (db.deleteSegment s).map ((), ·)
  | .applyFabric segments policyYaml => db.applyFabric segments policyYaml
  | .insertEnrollmentToken t         => (db.insertEnrollmentToken t).map ((), ·)
  | .enrollGateway args              => db.enrollGateway args
  | .enrollRelay h n e s i now       => db.enrollRelay h n e s i now
  | .rotateKey g                     => db.rotateKey g
  | .setEpochPubkey g e pubkey       => .ok (db.setEpochPubkey g e pubkey)
  | .promoteEpoch g e                => .ok (db.promoteEpoch g e)
  | .retireEpoch g e                 => .ok (db.retireEpoch g e)
  | .dropPendingEpoch g e            => .ok (db.dropPendingEpoch g e)
  | .drainGateway g now              => db.drainGateway g now
  | .revokeCert serial now           => .ok (db.revokeCert serial now)
  | .setCandidateEndpoint g addr     => db.setCandidateEndpoint g addr
  | .setLocalCandidates g endpoints  => db.setLocalCandidates g endpoints
  | .setAppliedVersion g v           => (db.setAppliedVersion g v).map ((), ·)
  | .insertRelay name endpoint       => db.insertRelay name endpoint
  | .setRelayStatus r status         => .ok ((), db.setRelayStatus r status)

-- A transaction that fails is rolled back.
def commit (t : Tx) : t.Resp × Db :=
  match db.transact t with
  | .ok (a, db') => (.ok a, db')
  | .error e     => (.error e, db)

end Db

structure RelayVote where
  relayId : Nat
  gatewayId : Nat
  healthy : Bool
deriving DecidableEq

structure Ctl where
  db : Db
  rotations : Rotations
  -- The latest vote of each gateway on each relay, and whether a report is at work on them.
  relayHealth : List RelayVote
  healthLocked : Bool
  -- The generation that each gateway's stream was opened with, 0 for none.
  sessions : Nat → Nat
  connected : List Nat
  clock : Instant
  -- All that has been broadcast, in this order.
  channel : List ChangeEvent

def Ctl.start : Ctl where
  db           := .empty
  rotations    := fun _ => none
  relayHealth  := []
  healthLocked := false
  sessions     := fun _ => 0
  connected    := []
  clock        := 0
  channel      := []

inductive CtlOp
  | query (q : Query)
  | tx (t : Tx)
  | publish (ev : ChangeEvent)
  | now
  | seedRotation (gatewayId : Nat) (live : Nat × Option Nat) (readAt : Instant)
  | planRotation (gatewayId : Nat) (keys : List GatewayKeyRow) (readAt : Instant)
  | trackerEffect (gatewayId : Nat) (taken : TrackerToken) (effect : TrackerEffect)
  | hasTracker (gatewayId : Nat)
  | recordAcks (reporting : Nat) (seeds : List (Nat × Option (Nat × Option Nat)))
      (acks : List Rotations.EpochAck)
  | recordedSession (gatewayId : Nat)
  | recordSession (gatewayId generation : Nat)
  | subscribe
  | register (gatewayId : Nat)
  | vote (gatewayId : Nat) (votes : List (Nat × Bool))
  | unlockHealth

abbrev CtlOp.Resp : CtlOp → Type
  | query q            => Except String q.Resp
  | tx t               => t.Resp
  | now                => Instant
  | planRotation _ _ _ => Option (RotationDecision × TrackerToken)
  | hasTracker _       => Bool
  | recordedSession _  => Nat
  | subscribe          => Nat
  | vote _ _           => List (Nat × Bool)
  | _                  => Unit

-- A later vote of the same gateway takes the place of an earlier one.
def castVotes (gatewayId : Nat) : List (Nat × Bool) → List RelayVote → List RelayVote
  | [],                        votes => votes
  | (relayId, healthy) :: rest, votes =>
    let others := votes.filter fun v => ¬ (v.relayId = relayId ∧ v.gatewayId = gatewayId)
    castVotes gatewayId rest (others ++ [{ relayId, gatewayId, healthy }])

-- A relay is healthy as long as anybody says so.
def anyHealthy (votes : List RelayVote) (relayId : Nat) : Bool :=
  votes.any fun v => v.relayId = relayId ∧ v.healthy

-- Duplicates are dropped, the first of them stays.
def distinct [DecidableEq α] (as : List α) : List α :=
  as.reverse.dedup.reverse

def Ctl.exec [Ipnet] [Sha256] [IpnetV6] [PolicyText] : (o : CtlOp) → Ctl → o.Resp × Ctl
  | .query q, c => (.ok (c.db.ask q), c)
  | .tx t, c => ((c.db.commit t).1, { c with db := (c.db.commit t).2 })
  | .publish ev, c => ((), { c with channel := c.channel ++ [ev] })
  | .now, c => (c.clock, c)
  | .seedRotation g live readAt, c =>
    ((), { c with rotations := c.rotations.seed g (some live) readAt c.clock })
  | .planRotation g keys readAt, c =>
    let plan := c.rotations.plan g keys readAt c.connected c.clock
    (plan.1, { c with rotations := plan.2 })
  | .trackerEffect g taken effect, c =>
    ((), { c with rotations := c.rotations.applyEffect g taken effect c.clock })
  | .hasTracker g, c => ((c.rotations g).isSome, c)
  | .recordAcks reporting seeds acks, c =>
    let seeded := Rotations.seedAbsent c.clock seeds c.rotations
    ((), { c with rotations := Rotations.recordAcks reporting acks seeded })
  | .recordedSession g, c => (c.sessions g, c)
  | .recordSession g generation, c =>
    ((), { c with sessions := Function.update c.sessions g generation })
  -- A subscriber hears of all that is published from here on.
  | .subscribe, c => (c.channel.length, c)
  | .register g, c => ((), { c with connected := distinct (c.connected ++ [g]) })
  | .vote g votes, c =>
    let relayHealth := castVotes g votes c.relayHealth
    let touched := distinct (votes.map (·.1))
    (touched.map fun r => (r, anyHealthy relayHealth r), { c with relayHealth, healthLocked := true })
  | .unlockHealth, c => ((), { c with healthLocked := false })

def CtlOp.isVote : CtlOp → Bool
  | vote _ _ => true
  | _        => false

-- Only the lock of the votes is held over more than one operation.
def Ctl.enabled (c : Ctl) (o : CtlOp) : Prop :=
  o.isVote → c.healthLocked = false

-- How an operation may be answered. A query or a transaction can also meet an error of the database,
-- which leaves all as it was.
inductive Ctl.Answers [Ipnet] [Sha256] [IpnetV6] [PolicyText] (c : Ctl) :
    (o : CtlOp) → o.Resp → Ctl → Prop
  | done : c.enabled o → Answers c o (Ctl.exec o c).1 (Ctl.exec o c).2
  | queryFails : Answers c (.query q) (.error e) c
  | txFails : Answers c (.tx t) (.error (t.dbError e)) c

end Controller
