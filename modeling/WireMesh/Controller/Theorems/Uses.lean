import Mathlib
import WireMesh.Controller.Theorems.Handlers

-- What each call and each job can touch, so that all the rest is known to be left alone.
namespace Controller

open Policy Handler Prog

inductive Touch
  | reading
  | telling -- of keys, endpoints, CIDRs, relays and the policy
  | fabric
  | tokens
  | enrolling
  | revoking
  | relays
  | starting
  | submitting
  | driving
  | candidates
  | applied
  | trackers
  | streams
  | votes
deriving DecidableEq

def Tx.touch : Tx → Touch
  | createSegment _ _ | deleteSegment _ | applyFabric _ _                  => .fabric
  | insertEnrollmentToken _                                                => .tokens
  | enrollGateway _                                                        => .enrolling
  | enrollRelay _ _ _ _ _ _ | insertRelay _ _ | setRelayStatus _ _         => .relays
  | rotateKey _                                                            => .starting
  | setEpochPubkey _ _ _                                                   => .submitting
  | promoteEpoch _ _ | retireEpoch _ _ | dropPendingEpoch _ _              => .driving
  | drainGateway _ _ | revokeCert _ _                                      => .revoking
  | setCandidateEndpoint _ _ | setLocalCandidates _ _                      => .candidates
  | setAppliedVersion _ _                                                  => .applied

def ChangeEvent.touch : ChangeEvent → Touch
  | gatewayEnrolled _ _ _ _ _          => .enrolling
  | gatewayDrained _ _ _ | certRevoked _ _ => .revoking
  | _                                  => .telling

def CtlOp.touch : CtlOp → Touch
  | query _ | now | recordedSession _                                              => .reading
  | tx t                                                                           => t.touch
  | publish ev                                                                     => ev.touch
  | seedRotation _ _ _ | planRotation _ _ _ | trackerEffect _ _ _ | recordAcks _ _ _
  | hasTracker _                                                                   => .trackers
  | recordSession _ _ | subscribe | register _                                     => .streams
  | vote _ _ | unlockHealth                                                        => .votes

def Request.touches : Request → List Touch
  | createSegment _ _ | deleteSegment _  => [.fabric]
  | mintToken _                          => [.tokens]
  | registerRelay _ _                    => [.relays, .reading, .telling]
  | rotateKey _                          => [.starting, .reading, .telling]
  | drain _ _ | revokeCert _ _           => [.revoking, .reading]
  | apply _ _                            => [.fabric, .reading, .telling]
  | enroll _                             => [.enrolling, .relays, .reading, .telling]
  | report _ _                           =>
    [.reading, .applied, .candidates, .telling, .votes, .relays, .trackers, .driving]
  | submitEpochKey _ _ _ _               => [.submitting, .reading, .driving, .telling, .trackers]
  | watch _ _ _                          => [.reading, .streams]
  | probe _ _                            => [.reading, .candidates, .telling]
  | sweepRotations                       => [.reading, .driving, .telling, .trackers]
  | initiateDueRotations                 => [.starting, .reading, .telling]

-- What moves rotations on.
def drivers : List Touch :=
  [.driving, .trackers]

def Within (touches : List Touch) (o : CtlOp) (_ : Unit) : Prop :=
  o.touch ∈ touches

def nothing : (o : CtlOp) → Unit → o.Resp → Unit
  | _, _, _ => ()

-- The operations of a program touch no more than is said.
abbrev Uses (touches : List Touch) (p : Handler α) : Prop :=
  p.Tracks (Within touches) nothing (fun _ _ => True) ()

theorem nodup_distinct [DecidableEq α] (as : List α) : (distinct as).Nodup :=
  List.nodup_reverse.mpr (List.nodup_dedup _)

theorem mem_distinct [DecidableEq α] {as : List α} : a ∈ distinct as ↔ a ∈ as := by
  simp [distinct]

section Uses

variable {touches touches' : List Touch}

theorem Uses.weaken {p : Handler α} (h : Uses touches p) (hs : touches ⊆ touches') :
    Uses touches' p := by
  induction p
  case ret           => trivial
  case op o next ih => exact ⟨hs h.1, fun x => ih x (h.2 x)⟩

theorem Uses.only {p : Handler α} (h : Uses touches p) : p.Only (·.touch ∈ touches) := by
  induction p
  case ret           => trivial
  case op o next ih => exact ⟨h.1, fun x => ih x (h.2 x)⟩

theorem uses_forEach {f : α → Handler Unit} (h : ∀ a, Uses touches (f a)) :
    Uses touches (forEach f as) :=
  tracks_forEach (fun a _ _ _ => h a) trivial

theorem uses_emitKeyRotated : Uses [.reading, .telling] (emitKeyRotated g).run := by
  simp only [emitKeyRotated, tracks_run_bind, tracks_askOr]
  refine ⟨by simp [Within, CtlOp.touch], fun _ => trivial, ?_⟩
  rintro (_ | gw)
  case none => trivial
  case some => simp [Within, CtlOp.touch, ChangeEvent.touch]

theorem uses_announceKeys : Uses [.reading, .telling] (announceKeys g) := by
  simp only [announceKeys, tracks_bind]
  exact uses_emitKeyRotated

theorem uses_emitEndpointObserved :
    Uses [.reading, .telling] (emitEndpointObserved g revision) := by
  simp only [emitEndpointObserved, tracks_bind, tracks_ask]
  refine ⟨by simp [Within, CtlOp.touch], fun _ => trivial, ?_⟩
  rintro (_ | gw)
  case none => trivial
  case some => simp [Within, CtlOp.touch, ChangeEvent.touch]

theorem uses_emitRelaysChanged : Uses [.reading, .telling] emitRelaysChanged := by
  simp [emitRelaysChanged, Within, CtlOp.touch, ChangeEvent.touch]

section Admin

theorem uses_createSegment [Ipnet] : Uses [.fabric] (Admin.createSegment name cidrs).run := by
  simp [Admin.createSegment, Within, CtlOp.touch, Tx.touch]

theorem uses_deleteSegment : Uses [.fabric] (Admin.deleteSegment s).run := by
  simp [Admin.deleteSegment, Within, CtlOp.touch, Tx.touch]

theorem uses_mintToken [Ipnet] : Uses [.tokens] (Admin.mintToken req).run := by
  simp only [Admin.mintToken, tracks_run_bind, tracks_run_ite, tracks_run_throw, tracks_orStatus,
    tracks_run_liftM, tracks_commit]
  refine ⟨fun _ => trivial, fun _ => ⟨fun _ _ => trivial, fun _ _ => ⟨?_, by simp, by simp⟩⟩⟩
  simp [Within, CtlOp.touch, Tx.touch]

theorem uses_registerRelay :
    Uses [.relays, .reading, .telling] (Admin.registerRelay name endpoint).run := by
  simp [Admin.registerRelay, Within, CtlOp.touch, Tx.touch, ChangeEvent.touch]

theorem uses_rotateKey : Uses [.starting, .reading, .telling] (Admin.rotateKey g).run := by
  simp [Admin.rotateKey, Within, CtlOp.touch, Tx.touch]
  exact fun _ => Tracks.mono (uses_emitKeyRotated.weaken (by simp)) fun x _ _ => by cases x <;> trivial

theorem uses_drain : Uses [.revoking, .reading] (Admin.drain g instant).run := by
  simp [Admin.drain, Within, CtlOp.touch, Tx.touch, ChangeEvent.touch]

theorem uses_revokeCert : Uses [.revoking, .reading] (Admin.revokeCert serial instant).run := by
  simp [Admin.revokeCert, Within, CtlOp.touch, Tx.touch, ChangeEvent.touch]

theorem uses_announceCidrs : Uses [.reading, .telling] (Admin.announceCidrs segments).run := by
  induction segments
  case nil => trivial
  case cons seg rest ih =>
    simp only [Admin.announceCidrs, tracks_run_bind, tracks_askOr]
    refine ⟨by simp [Within, CtlOp.touch], fun _ => trivial, ?_⟩
    rintro (_ | g)
    case none => exact ih
    case some => simp [Within, CtlOp.touch, ChangeEvent.touch, ih]

theorem uses_announcePolicy : Uses [.reading, .telling] Admin.announcePolicy.run := by
  simp [Admin.announcePolicy, Within, CtlOp.touch]
  rintro (_ | policy)
  all_goals simp [Within, CtlOp.touch, ChangeEvent.touch]

theorem uses_apply [Ipnet] :
    Uses [.fabric, .reading, .telling] (Admin.apply declared policyYaml).run := by
  simp only [Admin.apply, tracks_run_bind, tracks_orStatus, tracks_run_liftM, tracks_commit]
  refine ⟨fun _ _ => trivial, fun _ _ => ⟨by simp [Within, CtlOp.touch, Tx.touch], by simp, fun out => ?_⟩⟩
  refine ⟨by simp, fun _ _ => Tracks.mono (uses_announceCidrs.weaken (by simp)) fun x _ _ => ?_⟩
  cases x
  case error => trivial
  case ok =>
    simp only [tracks_run_ite, tracks_run_bind]
    refine ⟨fun _ => Tracks.mono (uses_announcePolicy.weaken (by simp)) fun x _ _ => ?_, fun _ => trivial⟩
    cases x <;> trivial

end Admin

section Enrollment

theorem uses_enrollRelay :
    Uses [.relays, .reading, .telling] (Enrollment.enrollRelay req secret).run := by
  simp [Enrollment.enrollRelay, Within, CtlOp.touch, Tx.touch]
  exact fun _ _ _ _ _ _ => uses_emitRelaysChanged.weaken (by simp)

theorem uses_announce : Uses [.enrolling, .reading] (Enrollment.announce name serials) := by
  simp only [Enrollment.announce, tracks_bind, tracks_ask]
  refine ⟨by simp [Within, CtlOp.touch], fun _ => trivial, ?_⟩
  rintro (_ | gw)
  case none => trivial
  case some => simp [Within, CtlOp.touch, ChangeEvent.touch]

theorem uses_enrollGateway :
    Uses [.enrolling, .reading] (Enrollment.enrollGateway req secret nets).run := by
  simp only [Enrollment.enrollGateway, tracks_run_bind, tracks_orStatus, tracks_run_liftM,
    tracks_commit]
  refine ⟨fun _ _ => trivial, fun _ _ => ⟨fun _ _ => trivial, fun _ _ => ⟨?_, by simp, fun out => ?_⟩⟩⟩
  case refine_1 => simp [Within, CtlOp.touch, Tx.touch]
  case refine_2 => exact ⟨by simp, fun _ _ => ⟨fun _ _ => trivial, fun _ _ => uses_announce⟩⟩

theorem uses_enroll [Ipnet] [Sha256] [Base64] :
    Uses [.enrolling, .relays, .reading, .telling] (Enrollment.enroll req).run := by
  simp only [Enrollment.enroll, tracks_run_ite]
  refine ⟨fun _ => trivial, fun _ => ?_⟩
  split
  case h_2 => trivial
  case h_1 =>
    simp only [tracks_run_bind, tracks_orStatus, tracks_run_ite, tracks_run_throw]
    refine ⟨fun _ _ => trivial, fun nets _ => ⟨fun _ => ?_, fun _ => ?_⟩⟩
    case refine_1 => exact Tracks.mono (uses_enrollRelay.weaken (by simp)) fun x _ _ => by cases x <;> trivial
    case refine_2 =>
      refine ⟨fun _ => trivial, fun _ => ⟨fun _ => trivial, fun _ => ?_⟩⟩
      exact uses_enrollGateway.weaken (by simp)

end Enrollment

section Drivers

theorem uses_carryOut : Uses [.driving, .trackers, .reading, .telling] (carryOut g taken d) := by
  have announced : Uses [.driving, .trackers, .reading, .telling] (announceKeys g) :=
    uses_announceKeys.weaken (by simp)
  cases d
  case wait     => trivial
  case finished => exact ⟨by simp [Within, CtlOp.touch], fun _ => trivial⟩
  all_goals
    simp only [carryOut, tracks_bind, tracks_commit]
    refine ⟨by simp [Within, CtlOp.touch, Tx.touch], fun _ => trivial, ?_⟩
  case promote =>
    rintro (_ | _)
    case applied => exact ⟨by simp [Within, CtlOp.touch], fun _ => announced⟩
    case noMatch => trivial
  case retire =>
    rintro (_ | _)
    case applied => exact ⟨by simp [Within, CtlOp.touch], fun _ => announced⟩
    case noMatch => trivial
  case abort =>
    rintro (_ | _ | _)
    case dropped       => exact ⟨by simp [Within, CtlOp.touch], fun _ => announced⟩
    case rowAbsent     => exact ⟨by simp [Within, CtlOp.touch], fun _ => trivial⟩
    case rowSuperseded => trivial

theorem uses_driveRotationFor :
    Uses [.driving, .trackers, .reading, .telling] (driveRotationFor g) := by
  simp only [driveRotationFor, tracks_bind, tracks_now, tracks_ask]
  refine ⟨by simp [Within, CtlOp.touch], fun _ => ⟨by simp [Within, CtlOp.touch], fun _ => trivial, fun keys => ?_⟩⟩
  refine ⟨by simp [Within, CtlOp.touch], ?_⟩
  rintro (_ | ⟨d, taken⟩)
  case none => trivial
  case some => exact uses_carryOut

theorem uses_retireOrphan : Uses [.driving, .trackers, .reading, .telling] (retireOrphan g e) := by
  simp only [retireOrphan, tracks_bind, tracks_commit]
  refine ⟨by simp [Within, CtlOp.touch, Tx.touch], fun _ => trivial, ?_⟩
  rintro (_ | _)
  case applied => exact uses_announceKeys.weaken (by simp)
  case noMatch => trivial

theorem uses_sweepOrphans : Uses [.driving, .trackers, .reading, .telling] (sweepOrphans g) := by
  simp only [sweepOrphans, tracks_bind, tracks_ask]
  refine ⟨by simp [Within, CtlOp.touch], fun _ => trivial, fun keys => ?_⟩
  simp only [tracks_ite, tracks_bind, tracks_performOp]
  refine ⟨fun _ => ⟨by simp [Within, CtlOp.touch], fun x => ⟨fun _ => ?_, fun _ => trivial⟩⟩, fun _ => trivial⟩
  exact uses_forEach fun _ => uses_retireOrphan

theorem uses_sweepGateway : Uses [.driving, .trackers, .reading, .telling] (sweepGateway g) := by
  have rest : Uses [.driving, .trackers, .reading, .telling] (do driveRotationFor g; sweepOrphans g) :=
    tracks_bind.mpr <| Tracks.mono uses_driveRotationFor fun _ _ _ => uses_sweepOrphans
  simp only [sweepGateway, tracks_bind, tracks_now, tracks_ask]
  refine ⟨by simp [Within, CtlOp.touch], fun _ => ⟨by simp [Within, CtlOp.touch], fun _ => trivial, fun keys => ?_⟩⟩
  split
  case h_1 => exact ⟨by simp [Within, CtlOp.touch], fun _ => rest⟩
  case h_2 => exact rest

theorem uses_initiateRotation : Uses [.starting, .reading, .telling] (initiateRotation g) := by
  simp only [initiateRotation, tracks_bind, tracks_commit]
  refine ⟨by simp [Within, CtlOp.touch, Tx.touch], fun _ => trivial, fun _ => ?_⟩
  exact uses_announceKeys.weaken (by simp)

theorem uses_initiateDueRotations : Uses [.starting, .reading, .telling] initiateDueRotations := by
  simp only [initiateDueRotations, tracks_bind, tracks_ask]
  refine ⟨by simp [Within, CtlOp.touch], fun _ => trivial, fun _ => ⟨by simp [Within, CtlOp.touch], ?_⟩⟩
  exact ⟨fun _ => trivial, fun _ => uses_forEach fun _ => uses_initiateRotation⟩

end Drivers

section Sync

open Sync

theorem uses_identify : Uses [.reading] (identify name).run :=
  tracks_identify (by simp [Within, CtlOp.touch]) (fun _ _ => trivial) fun _ => trivial

theorem uses_checkSessionGeneration :
    Uses [.reading] (checkSessionGeneration g generation rpc).run :=
  tracks_checkSessionGeneration (by simp [Within, CtlOp.touch]) (fun _ _ => trivial) fun _ => trivial

theorem uses_updateRelays : Uses [.reading, .relays] (updateRelays touched).run := by
  induction touched
  case nil => trivial
  case cons t rest ih =>
    simp only [updateRelays, tracks_run_bind, tracks_askOr]
    refine ⟨by simp [Within, CtlOp.touch], fun _ => trivial, fun current => ?_⟩
    simp only [tracks_run_ite, tracks_run_bind, tracks_run_liftM, tracks_commit, tracks_orStatus]
    refine ⟨fun _ => ⟨by simp [Within, CtlOp.touch, Tx.touch], by simp, fun _ => ⟨by simp, fun _ _ => ?_⟩⟩,
      fun _ => ?_⟩
    all_goals exact Tracks.mono ih fun x _ _ => by cases x <;> trivial

theorem uses_reportHealth :
    Uses [.votes, .reading, .relays, .telling] (reportHealth g votes).run := by
  simp only [reportHealth, tracks_run_bind, tracks_run_liftM, tracks_run_lift, tracks_performOp]
  refine ⟨by simp [Within, CtlOp.touch], fun touched => ?_⟩
  refine Tracks.mono (uses_updateRelays.weaken (by simp)) fun x _ _ => ?_
  cases x
  case error => exact ⟨by simp [Within, CtlOp.touch], fun _ => trivial⟩
  case ok changed =>
    simp only [tracks_run_ite, tracks_run_bind, tracks_run_liftM]
    refine ⟨fun _ => Tracks.mono (uses_emitRelaysChanged.weaken (by simp)) ?_, fun _ => ?_⟩
    case refine_1 => exact fun _ _ _ => ⟨by simp [Within, CtlOp.touch], fun _ => trivial⟩
    case refine_2 => exact ⟨by simp [Within, CtlOp.touch], fun _ => trivial⟩

theorem uses_readSeeds : Uses [.reading] (readSeeds gs) := by
  induction gs
  case nil => trivial
  case cons g gs ih =>
    simp only [readSeeds, tracks_bind, tracks_ask]
    refine ⟨by simp [Within, CtlOp.touch], fun _ => ?_, fun _ => ?_⟩
    all_goals exact Tracks.mono ih fun _ _ _ => trivial

theorem uses_reportAcks : Uses [.driving, .trackers, .reading, .telling] (reportAcks g acks) := by
  simp only [reportAcks, tracks_bind]
  refine Tracks.mono (uses_readSeeds.weaken (by simp)) fun _ _ _ => ⟨by simp [Within, CtlOp.touch], fun _ => ?_⟩
  exact uses_forEach fun _ => uses_driveRotationFor

theorem uses_peersOf : Uses [.reading] (peersOf gws).run := by
  induction gws
  case nil => trivial
  case cons gw gws ih =>
    simp only [peersOf, tracks_run_bind, tracks_read]
    refine ⟨by simp [Within, CtlOp.touch], fun _ => trivial, fun _ => ?_⟩
    refine ⟨by simp [Within, CtlOp.touch], fun _ => trivial, fun _ => ?_⟩
    refine ⟨by simp [Within, CtlOp.touch], fun _ => trivial, fun _ => ?_⟩
    exact Tracks.mono ih fun x _ _ => by cases x <;> trivial

theorem uses_buildSnapshot : Uses [.reading] (buildSnapshot g pem).run := by
  simp only [buildSnapshot, tracks_run_bind, tracks_read]
  refine ⟨by simp [Within, CtlOp.touch], fun _ => trivial, fun _ => ?_⟩
  refine ⟨by simp [Within, CtlOp.touch], fun _ => trivial, fun _ => ?_⟩
  refine Tracks.mono uses_peersOf fun x _ _ => ?_
  cases x
  case error => trivial
  case ok    => simp [Within, CtlOp.touch]

theorem uses_watch : Uses [.reading, .streams] (watch cn pem s).run := by
  simp only [watch, tracks_run_bind, tracks_askOr]
  refine ⟨by simp [Within, CtlOp.touch], fun _ => trivial, ?_⟩
  rintro (_ | gw)
  case none =>
    simp only [tracks_run_bind, tracks_askOr]
    refine ⟨by simp [Within, CtlOp.touch], fun _ => trivial, ?_⟩
    rintro (_ | _)
    case none => trivial
    case some => simp [watchRelay, buildRelayRevocationSnapshot, Within, CtlOp.touch]
  case some =>
    simp only [watchGateway, tracks_run_bind, tracks_run_liftM, tracks_run_lift, tracks_performOp]
    refine ⟨by simp [Within, CtlOp.touch], fun _ => ⟨by simp [Within, CtlOp.touch], fun _ => ?_⟩⟩
    refine ⟨by simp [Within, CtlOp.touch], fun _ => ?_⟩
    change Tracks _ _ _ (buildSnapshot gw.id pem).run _
    exact Tracks.mono (uses_buildSnapshot.weaken (by simp)) fun x _ _ => by cases x <;> simp

theorem uses_handleProbe [Sha256] :
    Uses [.reading, .candidates, .telling] (Observe.handleProbe datagram observed).run := by
  simp only [Observe.handleProbe, tracks_run_ite, tracks_run_bind, tracks_run_lift, tracks_ask]
  refine ⟨fun _ => trivial, fun _ => ⟨fun _ => trivial, fun _ => ?_⟩⟩
  refine ⟨by simp [Within, CtlOp.touch], fun _ => trivial, ?_⟩
  rintro (_ | key)
  case none => trivial
  case some =>
    simp only [tracks_run_ite, tracks_run_bind, tracks_run_lift, tracks_commit, pure_bind]
    refine ⟨fun _ => trivial, fun _ => ⟨by simp [Within, CtlOp.touch, Tx.touch], fun _ => trivial, ?_⟩⟩
    rintro (_ | revision)
    case none => trivial
    case some => exact tracks_run_liftM.mpr (uses_emitEndpointObserved.weaken (by simp))

end Sync
end Uses

section Driven

variable {ρ : Type} {pre : CtlOp → ρ → Prop} {track : (o : CtlOp) → ρ → o.Resp → ρ} {r : ρ}
  {I : ρ → Prop} {whole : List Touch}

def driving : List Touch :=
  [.driving, .trackers, .reading, .telling]

-- A part of a request that moves no rotation on does what the others do.
theorem Uses.tracks {p : Handler α} (h : Uses touches p)
    (others : ∀ o, o.touch ∈ whole → o.touch ∉ drivers → ∀ r, I r → pre o r ∧ ∀ x, I (track o r x))
    (hd : ∀ t ∈ touches, t ∈ whole ∧ t ∉ drivers) (hr : I r) : p.Tracks pre track (fun _ => I) r :=
  h.only.tracks (fun o ho => others o (hd _ ho).1 (hd _ ho).2) hr

open Sync

theorem tracks_report
    (others : ∀ o, o.touch ∈ (Request.report name req).touches → o.touch ∉ drivers →
      ∀ r, I r → pre o r ∧ ∀ x, I (track o r x))
    (acks : ∀ g as r, I r → (reportAcks g as).Tracks pre track (fun _ => I) r) (hr : I r) :
    (report name req).run.Tracks pre track (fun _ => I) r := by
  have last (g r) (hr : I r) : (do
      if !req.epochAcks.isEmpty then liftM (reportAcks g req.epochAcks) : Rpc Unit).run.Tracks
        pre track (fun _ => I) r := by
    simp only [tracks_run_ite, tracks_run_liftM]
    exact ⟨fun _ => acks g _ r hr, fun _ => hr⟩
  have rest (g r) (hr : I r) : (do
      if !req.relayHealth.isEmpty then reportHealth g req.relayHealth
      if !req.epochAcks.isEmpty then liftM (reportAcks g req.epochAcks) : Rpc Unit).run.Tracks
        pre track (fun _ => I) r := by
    rw [tracks_run_ite]
    refine ⟨fun _ => ?_, fun _ => last g r hr⟩
    refine tracks_run_bind.mpr <|
      (uses_reportHealth.tracks others (by simp [Request.touches, drivers]) hr).mono ?_
    rintro (_ | _) r' hr'
    case error => exact hr'
    case ok    => exact last g r' hr'
  simp only [report, tracks_run_bind]
  refine (uses_identify.tracks others (by simp [Request.touches, drivers]) hr).mono ?_
  rintro (_ | gw) r hr
  case error => exact hr
  refine (uses_checkSessionGeneration.tracks others (by simp [Request.touches, drivers]) hr).mono ?_
  rintro (_ | _) r hr
  case error => exact hr
  obtain ⟨ha, hr⟩ := others (.tx (.setAppliedVersion gw.id req.appliedVersion))
    (by simp [Request.touches, CtlOp.touch, Tx.touch]) (by simp [drivers, CtlOp.touch, Tx.touch]) r hr
  refine tracks_run_liftM.mpr ⟨ha, fun x => tracks_orStatus.mpr ⟨fun _ _ => hr x, fun _ _ => ?_⟩⟩
  obtain ⟨hc, hr⟩ := others (.tx (.setLocalCandidates gw.id (usableLocalCandidates req.localEndpoints)))
    (by simp [Request.touches, CtlOp.touch, Tx.touch]) (by simp [drivers, CtlOp.touch, Tx.touch]) _
    (hr x)
  refine tracks_run_liftM.mpr ⟨hc, fun x => tracks_orStatus.mpr ⟨fun _ _ => hr x, ?_⟩⟩
  rintro (_ | revision) _
  case none => exact rest gw.id _ (hr x)
  case some =>
    refine tracks_run_bind.mpr <| tracks_run_liftM.mpr ?_
    refine (uses_emitEndpointObserved.tracks others (by simp [Request.touches, drivers]) (hr x)).mono ?_
    exact fun _ r' hr' => rest gw.id r' hr'

theorem tracks_submitEpochKey
    (others : ∀ o, o.touch ∈ (Request.submitEpochKey name epoch pubkey s).touches →
      o.touch ∉ drivers → ∀ r, I r → pre o r ∧ ∀ x, I (track o r x))
    (drive : ∀ g r, I r → (driveRotationFor g).Tracks pre track (fun _ => I) r) (hr : I r) :
    (submitEpochKey name epoch pubkey s).run.Tracks pre track (fun _ => I) r := by
  simp only [submitEpochKey, tracks_run_bind]
  refine (uses_identify.tracks others (by simp [Request.touches, drivers]) hr).mono ?_
  rintro (_ | gw) r hr
  case error => exact hr
  refine (uses_checkSessionGeneration.tracks others (by simp [Request.touches, drivers]) hr).mono ?_
  rintro (_ | _) r hr
  case error => exact hr
  obtain ⟨hs, hr⟩ := others (.tx (.setEpochPubkey gw.id epoch pubkey))
    (by simp [Request.touches, CtlOp.touch, Tx.touch]) (by simp [drivers, CtlOp.touch, Tx.touch]) r hr
  refine tracks_run_liftM.mpr ⟨hs, fun x => tracks_orStatus.mpr ⟨fun _ _ => hr x, fun out _ => ?_⟩⟩
  simp only [tracks_run_ite, tracks_run_bind]
  refine ⟨fun _ => hr x, fun _ => ?_⟩
  refine (uses_emitKeyRotated.tracks others (by simp [Request.touches, drivers]) (hr x)).mono ?_
  rintro (_ | _) r hr
  case error => exact hr
  case ok    => exact tracks_run_liftM.mpr (drive gw.id r hr)

-- Only drivers move rotations on, so all that is tracked of them is tracked there.
theorem tracks_handle [Ipnet] [Sha256] [Base64] (q : Request)
    (others : ∀ o, o.touch ∈ q.touches → o.touch ∉ drivers →
      ∀ r, I r → pre o r ∧ ∀ x, I (track o r x))
    (acks : driving ⊆ q.touches → ∀ g as r, I r → (reportAcks g as).Tracks pre track (fun _ => I) r)
    (drive : driving ⊆ q.touches → ∀ g r, I r → (driveRotationFor g).Tracks pre track (fun _ => I) r)
    (sweep : driving ⊆ q.touches → ∀ g r, I r → (sweepGateway g).Tracks pre track (fun _ => I) r)
    (hr : I r) : q.handle.Tracks pre track (fun _ => I) r := by
  cases q <;> simp only [Request.handle, Request.touches, tracks_ended] at others acks drive ⊢
  case createSegment        => exact uses_createSegment.tracks others (by decide) hr
  case deleteSegment        => exact uses_deleteSegment.tracks others (by decide) hr
  case mintToken            => exact uses_mintToken.tracks others (by decide) hr
  case registerRelay        => exact uses_registerRelay.tracks others (by decide) hr
  case rotateKey            => exact uses_rotateKey.tracks others (by decide) hr
  case drain                => exact uses_drain.tracks others (by decide) hr
  case revokeCert           => exact uses_revokeCert.tracks others (by decide) hr
  case apply                => exact uses_apply.tracks others (by decide) hr
  case enroll               => exact uses_enroll.tracks others (by decide) hr
  case report               => exact tracks_report others (acks (by decide)) hr
  case submitEpochKey       => exact tracks_submitEpochKey others (drive (by decide)) hr
  case watch                => exact uses_watch.tracks others (by decide) hr
  case probe                => exact uses_handleProbe.tracks others (by decide) hr
  case initiateDueRotations => exact uses_initiateDueRotations.tracks others (by decide) hr
  case sweepRotations =>
    obtain ⟨hp, hr⟩ := others (.query .gatewaysWithRotationState) (by decide) (by decide) r hr
    simp only [sweepRotations, tracks_bind, tracks_ask]
    exact ⟨hp, fun _ => hr _, fun _ => tracks_forEach (fun g _ r => sweep (by decide) g r) (hr _)⟩

-- What is said of each request is what it touches.
theorem uses_handle [Ipnet] [Sha256] [Base64] (q : Request) : Uses q.touches q.handle :=
  tracks_handle (I := fun _ => True) q (fun _ ho _ _ _ => ⟨ho, fun _ => trivial⟩)
    (fun hs _ _ _ _ => uses_reportAcks.weaken hs) (fun hs _ _ _ => uses_driveRotationFor.weaken hs)
    (fun hs _ _ _ => uses_sweepGateway.weaken hs) trivial

end Driven
end Controller
