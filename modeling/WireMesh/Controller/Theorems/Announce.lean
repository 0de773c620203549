import WireMesh.Controller.Theorems.Handlers
import WireMesh.Controller.Theorems.Keys

-- What a service that has changed something has to announce, and what it has read for that.
namespace Controller

open Policy Handler Prog

structure Announcer where
  -- The gateway that has been changed, or found as the one that a change is about.
  subject : Option Nat := none
  -- The segments with new CIDRs that have not been announced yet.
  segments : List (Nat × String × List String) := []
  -- The gateway that has enrolled, with its name, and the one that has been looked up by a name.
  enrolled : Option (Nat × String) := none
  found : Option (String × GatewayIdentity) := none
  drained : Option Nat := none
  identity : Option (Nat × GatewayIdentity) := none
  cidrs : Option (Nat × List String) := none
  keys : Option (Nat × List GatewayKeyRow) := none
  candidates : Option (Nat × List String) := none

namespace Announcer

-- The gateway of a segment with new CIDRs is read anew.
def about (a : Announcer) (g : Nat) : Announcer :=
  { segments := a.segments, subject := some g }

def committed (a : Announcer) : (t : Tx) → t.Out → Announcer
  | .applyFabric _ _, out           => { segments := out.changedSegmentCidrs }
  | .enrollGateway args, out        =>
    { subject := some out.gatewayId, enrolled := some (out.gatewayId, args.gatewayName) }
  | .rotateKey g, _                 => { subject := some g }
  | .setEpochPubkey g _ _, .applied => { subject := some g }
  | .promoteEpoch g _, .applied     => { subject := some g }
  | .retireEpoch g _, .applied      => { subject := some g }
  | .dropPendingEpoch g _, .dropped => { subject := some g }
  | .setCandidateEndpoint g _, some _ => { subject := some g }
  | .setLocalCandidates g _, some _   => { subject := some g }
  | .drainGateway g _, _            => { drained := some g }
  | _, _                            => a

def heard (a : Announcer) : (q : Query) → q.Resp → Announcer
  | .gatewayIdentityById g, some gw      => { a with identity := some (g, gw) }
  | .gatewayIdentityById _, none         => {}
  | .findGatewayByName name, some gw     => { a with found := some (name, gw) }
  | .activeGatewayForSegment _, some g   => a.about g
  | .activeGatewayForSegment _, none     => { segments := a.segments.tail }
  | .cidrsForSegment s, cidrs            => { a with cidrs := some (s, cidrs) }
  | .allKeysForGateway g, keys           => { a with keys := some (g, keys) }
  | .keysSnapshot g, (keys, _)           => { a with keys := some (g, keys) }
  | .candidatesFor g, candidates         => { a with candidates := some (g, candidates) }
  | _, _                                 => a

def published (a : Announcer) : ChangeEvent → Announcer
  | .segmentCidrsChanged _ _ => { segments := a.segments.tail }
  | _                        => {}

-- After a read that fails nothing is announced any more.
def track : (o : CtlOp) → Announcer → o.Resp → Announcer
  | .tx t, a, .ok out       => a.committed t out
  | .query q, a, .ok x      => a.heard q x
  | .query _, _, .error _   => {}
  | .publish ev, a, _       => a.published ev
  | _, a, _                 => a

-- The facts are those that have been read.
structure Read (a : Announcer) (f : GatewayFacts) : Prop where
  subject : a.subject = some f.gatewayId
  keys : a.keys = some (f.gatewayId, f.keys)
  candidates : a.candidates = some (f.gatewayId, f.candidateEndpoints)

def MayPublish (a : Announcer) : ChangeEvent → Prop
  | .keyRotated f _ | .endpointObserved f _ => a.Read f ∧
    ∃ gw, a.identity = some (f.gatewayId, gw) ∧ f.segmentName = gw.segmentName ∧
      a.cidrs = some (gw.segmentId, f.allowedIps)
  | .segmentCidrsChanged f _ => a.Read f ∧
    ∃ s rest, a.segments = (s, f.segmentName, f.allowedIps) :: rest
  | .gatewayEnrolled g segmentName cidrs _ _ => ∃ new name gw,
    a.enrolled = some (new, name) ∧ a.found = some (name, gw) ∧ g = gw.id ∧
      segmentName = gw.segmentName ∧ a.cidrs = some (gw.segmentId, cidrs)
  | .gatewayDrained g _ _ => a.drained = some g
  | _ => True

def May [Base64] : CtlOp → Announcer → Prop
  | .publish ev, a => a.MayPublish ev
  | .tx t, _       => t.KeyChecked
  | .query (.activeGatewayForSegment s), a => ∃ name cidrs rest, a.segments = (s, name, cidrs) :: rest
  | _, _ => True

end Announcer

section Announces

open Announcer (May MayPublish track heard committed published about Read)

variable [Base64] {a : Announcer}

abbrev Announces (p : Handler α) (a : Announcer) : Prop :=
  p.Tracks May track (fun _ _ => True) a

theorem announces_emitKeyRotated (h : a.subject = some g) : Announces (emitKeyRotated g).run a := by
  simp only [emitKeyRotated, tracks_run_bind, tracks_askOr]
  refine ⟨trivial, fun _ => trivial, ?_⟩
  rintro (_ | gw)
  case none => trivial
  case some => simp [May, MayPublish, track, heard, Read.mk, h]

theorem announces_emitEndpointObserved (h : a.subject = some g) :
    Announces (emitEndpointObserved g revision) a := by
  simp only [emitEndpointObserved, tracks_bind, tracks_ask]
  refine ⟨trivial, fun _ => trivial, ?_⟩
  rintro (_ | gw)
  case none => trivial
  case some => simp [May, MayPublish, track, heard, Read.mk, h]

theorem announces_emitRelaysChanged : Announces emitRelaysChanged a := by
  simp [emitRelaysChanged, May, MayPublish]

theorem announces_createSegment [Ipnet] : Announces (Admin.createSegment name cidrs).run a := by
  simp [Admin.createSegment, May, Tx.KeyChecked]

theorem announces_deleteSegment : Announces (Admin.deleteSegment s).run a := by
  simp [Admin.deleteSegment, May, Tx.KeyChecked]

theorem announces_mintToken [Ipnet] : Announces (Admin.mintToken req).run a := by
  simp only [Admin.mintToken, tracks_run_bind, tracks_run_ite, tracks_run_throw, tracks_orStatus,
    tracks_run_liftM, tracks_commit]
  exact ⟨fun _ => trivial, fun _ => ⟨fun _ _ => trivial, fun _ _ => ⟨trivial, by simp, by simp⟩⟩⟩

theorem announces_registerRelay : Announces (Admin.registerRelay name endpoint).run a := by
  simp [Admin.registerRelay, May, Tx.KeyChecked, MayPublish]

theorem announces_rotateKey : Announces (Admin.rotateKey g).run a := by
  simp [Admin.rotateKey, May, Tx.KeyChecked]
  exact fun _ => announces_emitKeyRotated rfl

theorem announces_drain : Announces (Admin.drain g instant).run a := by
  simp [Admin.drain, May, Tx.KeyChecked, MayPublish, track, committed, heard]

theorem announces_revokeCert : Announces (Admin.revokeCert serial instant).run a := by
  simp [Admin.revokeCert, May, Tx.KeyChecked, MayPublish]

theorem announces_announceCidrs {segments : List (Nat × String × List String)}
    (h : a.segments = segments) :
    (Admin.announceCidrs segments).run.Tracks May track (fun _ _ => True) a := by
  induction segments generalizing a
  case nil => simp [Admin.announceCidrs]
  case cons seg rest ih =>
    simp only [Admin.announceCidrs, tracks_run_bind, tracks_askOr]
    refine ⟨⟨_, _, _, h⟩, fun _ => trivial, ?_⟩
    rintro (_ | g)
    case none => exact ih (by simp [track, heard, h])
    case some =>
      simp [May, MayPublish, track, heard, about, Read.mk, h]
      exact fun _ _ _ => ⟨⟨_, rfl⟩, ih rfl⟩

theorem announces_announcePolicy : Announces Admin.announcePolicy.run a := by
  simp [Admin.announcePolicy, May]
  rintro (_ | policy)
  all_goals simp [May, MayPublish]

theorem announces_apply [Ipnet] : Announces (Admin.apply declared policyYaml).run a := by
  simp only [Admin.apply, tracks_run_bind, tracks_orStatus, tracks_run_liftM, tracks_commit]
  refine ⟨fun _ _ => trivial, fun _ _ => ⟨trivial, by simp, fun out => ?_⟩⟩
  refine ⟨by simp, fun _ ho => (announces_announceCidrs ?_).mono fun x _ _ => ?_⟩
  case refine_1 => rw [← Except.ok.inj ho]; rfl
  case refine_2 =>
    cases x
    case error => trivial
    case ok =>
      simp
      intro _
      exact announces_announcePolicy.mono fun x _ _ => by cases x <;> trivial

theorem announces_enrollRelay : Announces (Enrollment.enrollRelay req secret).run a := by
  simp [Enrollment.enrollRelay, May, Tx.KeyChecked]
  exact fun _ _ _ _ _ _ => announces_emitRelaysChanged

theorem announces_announce (h : ∃ new, a.enrolled = some (new, name)) :
    Announces (Enrollment.announce name serials) a := by
  simp only [Enrollment.announce, tracks_bind, tracks_ask]
  refine ⟨trivial, fun _ => trivial, ?_⟩
  rintro (_ | gw)
  case none => trivial
  case some => simp [May, MayPublish, track, heard, h]

theorem announces_enrollGateway
    (hk : req.wgPubkey.isEmpty ∨ (Base64.decode req.wgPubkey).map (·.length) = some 32) :
    Announces (Enrollment.enrollGateway req secret nets).run a := by
  simp only [Enrollment.enrollGateway, tracks_run_bind, tracks_orStatus, tracks_run_liftM, tracks_commit]
  refine ⟨fun _ _ => trivial, fun _ _ => ⟨fun _ _ => trivial, fun _ _ => ⟨hk, by simp, fun out => ?_⟩⟩⟩
  refine ⟨by simp, fun _ ho => ⟨fun _ _ => trivial, fun _ _ => (announces_announce ?_).mono ?_⟩⟩
  case refine_1 => exact ⟨_, rfl⟩
  case refine_2 => exact fun _ _ _ => trivial

theorem announces_enroll [Ipnet] [Sha256] : Announces (Enrollment.enroll req).run a := by
  simp only [Enrollment.enroll, tracks_run_ite]
  refine ⟨fun _ => trivial, fun _ => ?_⟩
  split
  case h_2 => trivial
  case h_1 secret _ =>
    simp only [tracks_run_bind, tracks_orStatus, tracks_run_ite, tracks_run_throw]
    refine ⟨fun _ _ => trivial, fun nets _ => ⟨fun _ => announces_enrollRelay.mono ?_, fun _ => ?_⟩⟩
    case refine_1 => exact fun x _ _ => by cases x <;> trivial
    case refine_2 =>
      refine ⟨fun _ => trivial, fun _ => ⟨fun _ => trivial, fun hk => announces_enrollGateway ?_⟩⟩
      by_cases he : req.wgPubkey.isEmpty
      case pos => exact .inl he
      case neg => exact .inr (not_not.mp fun hd => hk ⟨by simpa using he, hd⟩)

theorem announces_announceKeys (h : a.subject = some g) : Announces (announceKeys g) a := by
  simp only [announceKeys, tracks_bind]
  exact announces_emitKeyRotated h

theorem announces_carryOut : Announces (carryOut g taken d) a := by
  cases d
  case wait     => trivial
  case finished => exact ⟨trivial, fun _ => trivial⟩
  case promote e =>
    simp only [carryOut, tracks_bind, tracks_commit]
    refine ⟨trivial, fun _ => trivial, ?_⟩
    rintro (_ | _)
    case applied => exact ⟨trivial, fun _ => announces_announceKeys rfl⟩
    case noMatch => trivial
  case retire e =>
    simp only [carryOut, tracks_bind, tracks_commit]
    refine ⟨trivial, fun _ => trivial, ?_⟩
    rintro (_ | _)
    case applied => exact ⟨trivial, fun _ => announces_announceKeys rfl⟩
    case noMatch => trivial
  case abort e _ =>
    simp only [carryOut, tracks_bind, tracks_commit]
    refine ⟨trivial, fun _ => trivial, ?_⟩
    rintro (_ | _ | _)
    case dropped       => exact ⟨trivial, fun _ => announces_announceKeys rfl⟩
    case rowAbsent     => exact ⟨trivial, fun _ => trivial⟩
    case rowSuperseded => trivial

theorem announces_driveRotationFor : Announces (driveRotationFor g) a := by
  simp only [driveRotationFor, tracks_bind, tracks_now, tracks_ask]
  refine ⟨trivial, fun _ => ⟨trivial, fun _ => trivial, fun keys => ⟨trivial, ?_⟩⟩⟩
  rintro (_ | ⟨d, taken⟩)
  case none => trivial
  case some => exact announces_carryOut

theorem announces_retireOrphan : Announces (retireOrphan g e) a := by
  simp only [retireOrphan, tracks_bind, tracks_commit]
  refine ⟨trivial, fun _ => trivial, ?_⟩
  rintro (_ | _)
  case applied => exact announces_announceKeys rfl
  case noMatch => trivial

theorem announces_forEach {f : α → Handler Unit} (h : ∀ x a, Announces (f x) a) :
    Announces (forEach f xs) a :=
  tracks_forEach (fun x _ a _ => h x a) trivial

theorem announces_sweepOrphans : Announces (sweepOrphans g) a := by
  simp only [sweepOrphans, tracks_bind, tracks_ask]
  refine ⟨trivial, fun _ => trivial, fun keys => ?_⟩
  simp only [tracks_ite, tracks_bind, tracks_performOp]
  refine ⟨fun _ => ⟨trivial, fun x => ⟨fun _ => ?_, fun _ => trivial⟩⟩, fun _ => trivial⟩
  exact announces_forEach fun _ _ => announces_retireOrphan

theorem announces_sweepGateway : Announces (sweepGateway g) a := by
  have rest (a) : Announces (do driveRotationFor g; sweepOrphans g) a :=
    tracks_bind.mpr <| announces_driveRotationFor.mono fun _ _ _ => announces_sweepOrphans
  simp only [sweepGateway, tracks_bind, tracks_now, tracks_ask]
  refine ⟨trivial, fun _ => ⟨trivial, fun _ => trivial, fun keys => ?_⟩⟩
  split
  case h_1 => exact ⟨trivial, fun _ => rest _⟩
  case h_2 => exact rest _

theorem announces_sweepRotations : Announces sweepRotations a := by
  simp only [sweepRotations, tracks_bind, tracks_ask]
  exact ⟨trivial, fun _ => trivial, fun _ => announces_forEach fun _ _ => announces_sweepGateway⟩

theorem announces_initiateRotation : Announces (initiateRotation g) a := by
  simp only [initiateRotation, tracks_bind, tracks_commit]
  exact ⟨trivial, fun _ => trivial, fun _ => announces_announceKeys rfl⟩

theorem announces_initiateDueRotations : Announces initiateDueRotations a := by
  simp only [initiateDueRotations, tracks_bind, tracks_ask]
  refine ⟨trivial, fun _ => trivial, fun _ => ⟨trivial, fun _ => trivial, fun _ => ?_⟩⟩
  exact announces_forEach fun _ _ => announces_initiateRotation

open Sync

theorem announces_updateRelays : Announces (updateRelays touched).run a := by
  induction touched generalizing a
  case nil => trivial
  case cons t rest ih =>
    have last {changed : Bool} (a) :
        Announces (do return changed || (← updateRelays rest) : Rpc Bool).run a := by
      simp only [tracks_run_bind]
      exact ih.mono fun x _ _ => by cases x <;> trivial
    simp only [updateRelays, tracks_run_bind, tracks_askOr]
    refine ⟨trivial, fun _ => trivial, fun current => ?_⟩
    simp only [tracks_run_ite, tracks_run_bind, tracks_run_liftM, tracks_commit, tracks_orStatus]
    refine ⟨fun _ => ⟨trivial, by simp, fun _ => ⟨by simp, fun _ _ => ?_⟩⟩, fun _ => ?_⟩
    all_goals exact ih.mono fun x _ _ => by cases x <;> trivial

theorem announces_reportHealth : Announces (reportHealth g votes).run a := by
  simp only [reportHealth, tracks_run_bind, tracks_run_liftM, tracks_run_lift, tracks_performOp]
  refine ⟨trivial, fun touched => announces_updateRelays.mono fun x _ _ => ?_⟩
  cases x
  case error => exact ⟨trivial, fun _ => trivial⟩
  case ok changed =>
    simp only [tracks_run_ite, tracks_run_bind, tracks_run_liftM]
    refine ⟨fun _ => announces_emitRelaysChanged.mono ?_, fun _ => ⟨trivial, fun _ => trivial⟩⟩
    exact fun _ _ _ => ⟨trivial, fun _ => trivial⟩

theorem announces_readSeeds : Announces (readSeeds gs) a := by
  induction gs generalizing a
  case nil => trivial
  case cons g gs ih =>
    simp only [readSeeds, tracks_bind, tracks_ask]
    exact ⟨trivial, fun _ => ih.mono fun _ _ _ => trivial, fun _ => ih.mono fun _ _ _ => trivial⟩

theorem announces_reportAcks : Announces (reportAcks g acks) a := by
  simp only [reportAcks, tracks_bind]
  refine announces_readSeeds.mono fun _ _ _ => ⟨trivial, fun _ => ?_⟩
  exact announces_forEach fun _ _ => announces_driveRotationFor

theorem announces_report : Announces (report name req).run a := by
  have rest (g a) : Announces (do
      if !req.relayHealth.isEmpty then reportHealth g req.relayHealth
      if !req.epochAcks.isEmpty then liftM (reportAcks g req.epochAcks) : Rpc Unit).run a := by
    simp only [tracks_run_ite, tracks_run_bind, tracks_run_liftM]
    refine ⟨fun _ => announces_reportHealth.mono fun x _ _ => ?_, fun _ => ?_⟩
    case refine_2 => exact ⟨fun _ => announces_reportAcks, fun _ => trivial⟩
    case refine_1 =>
      cases x
      case error => trivial
      case ok    => exact ⟨fun _ => announces_reportAcks, fun _ => trivial⟩
  simp only [report, tracks_run_bind]
  refine tracks_identify trivial (fun _ _ => trivial) fun gw => ?_
  refine tracks_checkSessionGeneration trivial (fun _ _ => trivial) fun _ => ?_
  simp only [tracks_run_liftM, tracks_commit, tracks_orStatus]
  refine ⟨trivial, by simp, fun _ => ⟨by simp, fun _ _ => ⟨trivial, by simp, ?_⟩⟩⟩
  rintro (_ | revision)
  case none => exact ⟨by simp, fun _ ho => Except.ok.inj ho ▸ rest gw.id _⟩
  case some =>
    refine ⟨by simp, fun _ ho => Except.ok.inj ho ▸ ?_⟩
    simp only [tracks_run_bind, tracks_run_liftM]
    exact (announces_emitEndpointObserved rfl).mono fun _ _ _ => rest gw.id _

theorem announces_submitEpochKey : Announces (submitEpochKey name epoch pubkey s).run a := by
  simp only [submitEpochKey, tracks_run_bind]
  refine tracks_identify trivial (fun _ _ => trivial) fun gw => ?_
  refine tracks_checkSessionGeneration trivial (fun _ _ => trivial) fun _ => ?_
  simp only [tracks_run_liftM, tracks_commit, tracks_orStatus, tracks_run_bind, tracks_run_ite]
  refine ⟨trivial, by simp, ?_⟩
  rintro (_ | _)
  case noMatch => exact ⟨by simp, fun _ ho => Except.ok.inj ho ▸ ⟨fun _ => trivial, by simp⟩⟩
  case applied =>
    refine ⟨by simp, fun _ ho => Except.ok.inj ho ▸ ⟨fun _ => trivial, fun _ => ?_⟩⟩
    refine (announces_emitKeyRotated rfl).mono fun x _ _ => ?_
    cases x
    case error => trivial
    case ok    => exact announces_driveRotationFor

theorem announces_peersOf : Announces (peersOf gws).run a := by
  induction gws generalizing a
  case nil => trivial
  case cons gw gws ih =>
    simp only [peersOf, tracks_run_bind, tracks_read]
    refine ⟨trivial, fun _ => trivial, fun _ => ⟨trivial, fun _ => trivial, fun _ => ⟨trivial, ?_⟩⟩⟩
    exact ⟨fun _ => trivial, fun _ => ih.mono fun x _ _ => by cases x <;> trivial⟩

theorem announces_buildSnapshot : Announces (buildSnapshot g pem).run a := by
  simp only [buildSnapshot, tracks_run_bind, tracks_read]
  refine ⟨trivial, fun _ => trivial, fun _ => ⟨trivial, fun _ => trivial, fun _ => ?_⟩⟩
  refine announces_peersOf.mono fun x _ _ => ?_
  cases x
  case error => trivial
  case ok    => simp [May]

theorem announces_watch : Announces (watch cn pem s).run a := by
  simp only [watch, tracks_run_bind, tracks_askOr]
  refine ⟨trivial, fun _ => trivial, ?_⟩
  rintro (_ | gw)
  case none =>
    simp only [tracks_run_bind, tracks_askOr]
    refine ⟨trivial, fun _ => trivial, ?_⟩
    rintro (_ | _)
    case none => trivial
    case some => simp [watchRelay, buildRelayRevocationSnapshot, May]
  case some =>
    simp only [watchGateway, tracks_run_bind, tracks_run_liftM, tracks_run_lift]
    refine ⟨trivial, fun _ => ⟨trivial, fun _ => ⟨trivial, fun _ => ?_⟩⟩⟩
    exact announces_buildSnapshot.mono fun x _ _ => by cases x <;> simp

theorem announces_handleProbe [Sha256] : Announces (Observe.handleProbe datagram observed).run a := by
  simp only [Observe.handleProbe, tracks_run_ite, tracks_run_bind, tracks_run_lift, tracks_ask]
  refine ⟨fun _ => trivial, fun _ => ⟨fun _ => trivial, fun _ => ⟨trivial, fun _ => trivial, ?_⟩⟩⟩
  rintro (_ | key)
  case none => trivial
  case some =>
    simp only [tracks_run_ite, tracks_run_bind, tracks_run_lift, tracks_commit, pure_bind]
    refine ⟨fun _ => trivial, fun _ => ⟨trivial, fun _ => trivial, ?_⟩⟩
    rintro (_ | revision)
    case none => trivial
    case some => exact tracks_run_liftM.mpr (announces_emitEndpointObserved rfl)

-- All that a call or a job announces, it has changed before, and read since.
theorem announces_handle [Ipnet] [Sha256] (q : Request) (a : Announcer) : Announces q.handle a := by
  cases q <;> simp only [Request.handle, tracks_ended]
  case createSegment        => exact announces_createSegment
  case deleteSegment        => exact announces_deleteSegment
  case mintToken            => exact announces_mintToken
  case registerRelay        => exact announces_registerRelay
  case rotateKey            => exact announces_rotateKey
  case drain                => exact announces_drain
  case revokeCert           => exact announces_revokeCert
  case apply                => exact announces_apply
  case enroll               => exact announces_enroll
  case report               => exact announces_report
  case submitEpochKey       => exact announces_submitEpochKey
  case watch                => exact announces_watch
  case probe                => exact announces_handleProbe
  case sweepRotations       => exact announces_sweepRotations
  case initiateDueRotations => exact announces_initiateDueRotations

end Announces
end Controller
