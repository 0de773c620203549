import WireMesh.Controller.KeyRing
import WireMesh.Controller.Theorems.Uses

-- What the drivers of rotations know of one gateway, from the read of its keys to the last effect.
namespace Controller

open Policy Handler Prog

inductive Stage
  | idle
  | decided (d : RotationDecision) (taken : TrackerToken)
  | due (taken : TrackerToken) (effect : TrackerEffect)
  | orphans -- there was no tracker

-- The keys of the gateway as they were last read, and what has come of them.
structure Job where
  rows : Option KeyRing := none
  stage : Stage := .idle

namespace Job

-- A decision has been carried out, and its effect on the tracker is left.
def owe (j : Job) (effect : TrackerEffect) : Job :=
  match j.stage with
  | .decided _ taken => { j with stage := .due taken effect }
  | _                => j

theorem owe_rows {j : Job} : (j.owe effect).rows = j.rows := by
  rw [owe]
  split <;> rfl

theorem owe_stage_ne {j : Job} : (j.owe effect).stage ≠ .decided d taken := by
  rw [owe]
  split
  case h_1        => exact nofun
  case h_2 hn     => exact fun h => hn _ _ h

def track (g : Nat) : (o : CtlOp) → Job → o.Resp → Job
  | .query (.allKeysForGateway g'), j, .ok keys       => if g' = g then ⟨some keys, .idle⟩ else j
  | .planRotation g' _ _, j, some (d, taken)          =>
    if g' = g then { j with stage := .decided d taken } else j
  | .tx (.promoteEpoch g' _), j, .ok .applied         => if g' = g then j.owe .promoted else j
  | .tx (.retireEpoch g' _), j, .ok .applied          => if g' = g then j.owe .finished else j
  | .tx (.dropPendingEpoch g' _), j, .ok .dropped     => if g' = g then j.owe .finished else j
  | .tx (.dropPendingEpoch g' _), j, .ok .rowAbsent   =>
    if g' = g then j.owe .finishedIfUnpromoted else j
  | .trackerEffect g' _ _, j, _                       => if g' = g then { j with stage := .idle } else j
  | .hasTracker g', j, false                          =>
    if g' = g then { j with stage := .orphans } else j
  | _, j, _                                           => j

-- All that an operation can do to what is known.
inductive Went (g : Nat) (j : Job) : (o : CtlOp) → o.Resp → Job → Prop
  | read : Went g j (.query (.allKeysForGateway g)) (.ok keys) ⟨some keys, .idle⟩
  | planned : Went g j (.planRotation g keys readAt) (some (d, taken)) { j with stage := .decided d taken }
  | promoted : Went g j (.tx (.promoteEpoch g e)) (.ok .applied) (j.owe .promoted)
  | retired : Went g j (.tx (.retireEpoch g e)) (.ok .applied) (j.owe .finished)
  | dropped : Went g j (.tx (.dropPendingEpoch g e)) (.ok .dropped) (j.owe .finished)
  | absent : Went g j (.tx (.dropPendingEpoch g e)) (.ok .rowAbsent) (j.owe .finishedIfUnpromoted)
  | effected : Went g j (.trackerEffect g taken effect) () { j with stage := .idle }
  | untracked : Went g j (.hasTracker g) false { j with stage := .orphans }
  | same : Went g j o x j

theorem went (g : Nat) (o : CtlOp) (j : Job) (x : o.Resp) : Went g j o x (track g o j x) := by
  fun_cases track g o j x
  case case1  => exact .read
  case case3  => exact .planned
  case case5  => exact .promoted
  case case7  => exact .retired
  case case9  => exact .dropped
  case case11 => exact .absent
  case case13 => exact .effected
  case case15 => exact .untracked
  all_goals exact .same

-- What a driver does for the gateway, it does by what it has read and decided.
def May (g : Nat) : CtlOp → Job → Prop
  | .planRotation g' keys _, j => g' = g → j.rows = some keys
  | .seedRotation g' live _, j => g' = g → ∃ keys ∈ j.rows, selectLivePending keys = some live
  | .recordAcks _ seeds _, j =>
    ∀ live, (g, some live) ∈ seeds → ∃ keys ∈ j.rows, selectLivePending keys = some live
  | .tx (.promoteEpoch g' e), j => g' = g → ∃ taken, j.stage = .decided (.promote e) taken
  | .tx (.retireEpoch g' e), j => g' = g →
    (∃ taken, j.stage = .decided (.retire e) taken) ∨
      j.stage = .orphans ∧ ∃ keys ∈ j.rows, e ∈ retiringEpochs keys
  | .tx (.dropPendingEpoch g' e), j => g' = g → ∃ reason taken, j.stage = .decided (.abort e reason) taken
  | .trackerEffect g' taken effect, j => g' = g →
    j.stage = .due taken effect ∨ j.stage = .decided .finished taken ∧ effect = .finished
  | .hasTracker g', j => g' = g → j.stage = .idle ∧ ∃ keys ∈ j.rows, retiringEpochs keys ≠ []
  | _, _ => True

end Job

abbrev Drives (g : Nat) (p : Handler α) (j : Job) : Prop :=
  p.Tracks (Job.May g) (Job.track g) (fun _ _ => True) j

section Drives

variable {g : Nat} {j : Job}

theorem may_of_touch {o : CtlOp} (ho : o.touch ∉ drivers) : Job.May g o j := by
  cases o
  case tx t => cases t <;> first | trivial | simp [CtlOp.touch, Tx.touch, drivers] at ho
  all_goals first | trivial | simp [CtlOp.touch, drivers] at ho

theorem drives_announceKeys :
    (announceKeys g').Tracks (Job.May g) (Job.track g) (fun _ j' => j' = j) j := by
  simp only [announceKeys, emitKeyRotated, tracks_bind, tracks_run_bind, tracks_askOr]
  refine ⟨trivial, fun _ => rfl, ?_⟩
  rintro (_ | gw)
  case none => exact rfl
  case some => simp [Job.May, Job.track]

theorem drives_carryOut (hj : g' = g → j.stage = .decided d taken) :
    Drives g (carryOut g' taken d) j := by
  cases d
  case wait     => trivial
  case finished => exact ⟨fun hg => .inr ⟨hj hg, rfl⟩, fun _ => trivial⟩
  case promote e =>
    simp only [carryOut, tracks_bind, tracks_commit]
    refine ⟨fun hg => ⟨taken, hj hg⟩, fun _ => trivial, ?_⟩
    rintro (_ | _)
    case noMatch => trivial
    case applied =>
      refine ⟨fun hg => .inl ?_, fun _ => drives_announceKeys.mono fun _ _ _ => trivial⟩
      simp [Job.track, hg, Job.owe, hj hg]
  case retire e =>
    simp only [carryOut, tracks_bind, tracks_commit]
    refine ⟨fun hg => .inl ⟨taken, hj hg⟩, fun _ => trivial, ?_⟩
    rintro (_ | _)
    case noMatch => trivial
    case applied =>
      refine ⟨fun hg => .inl ?_, fun _ => drives_announceKeys.mono fun _ _ _ => trivial⟩
      simp [Job.track, hg, Job.owe, hj hg]
  case abort e reason =>
    simp only [carryOut, tracks_bind, tracks_commit]
    refine ⟨fun hg => ⟨reason, taken, hj hg⟩, fun _ => trivial, ?_⟩
    rintro (_ | _ | _)
    case rowSuperseded => trivial
    case dropped =>
      refine ⟨fun hg => .inl ?_, fun _ => drives_announceKeys.mono fun _ _ _ => trivial⟩
      simp [Job.track, hg, Job.owe, hj hg]
    case rowAbsent =>
      refine ⟨fun hg => .inl ?_, fun _ => trivial⟩
      simp [Job.track, hg, Job.owe, hj hg]

theorem drives_driveRotationFor : Drives g (driveRotationFor g') j := by
  simp only [driveRotationFor, tracks_bind, tracks_now, tracks_ask]
  refine ⟨trivial, fun _ => ⟨trivial, fun _ => trivial, fun keys => ⟨fun hg => ?_, ?_⟩⟩⟩
  case refine_1 => simp [Job.track, hg]
  rintro (_ | ⟨d, taken⟩)
  case none => trivial
  case some => exact drives_carryOut fun hg => by simp [Job.track, hg]

theorem drives_retireOrphan
    (hj : g' = g → j.stage = .orphans ∧ ∃ keys ∈ j.rows, e ∈ retiringEpochs keys) :
    (retireOrphan g' e).Tracks (Job.May g) (Job.track g) (fun _ j' => j' = j) j := by
  have keeps : Job.track g (.tx (.retireEpoch g' e)) j (.ok .applied) = j := by
    simp only [Job.track]
    split
    case isTrue hg => simp [Job.owe, (hj hg).1]
    case isFalse   => rfl
  simp only [retireOrphan, tracks_bind, tracks_commit]
  refine ⟨fun hg => .inr (hj hg), fun _ => rfl, ?_⟩
  rintro (_ | _)
  case noMatch => exact rfl
  case applied => exact keeps.symm ▸ drives_announceKeys

theorem drives_sweepOrphans : Drives g (sweepOrphans g') j := by
  simp only [sweepOrphans, tracks_bind, tracks_ask]
  refine ⟨trivial, fun _ => trivial, fun keys => ?_⟩
  simp only [tracks_ite, tracks_bind, tracks_performOp]
  refine ⟨fun hn => ⟨fun hg => by simpa [Job.track, hg] using hn, ?_⟩, fun _ => trivial⟩
  rintro (_ | _)
  case true  => exact ⟨by simp, fun _ => trivial⟩
  case false =>
    let I (j : Job) : Prop := g' = g → j.stage = .orphans ∧ j.rows = some keys
    have each e (he : e ∈ retiringEpochs keys) j (hj : I j) :
        (retireOrphan g' e).Tracks (Job.May g) (Job.track g) (fun _ => I) j :=
      (drives_retireOrphan fun hg => ⟨(hj hg).1, keys, (hj hg).2, he⟩).mono fun _ _ he => he ▸ hj
    refine ⟨fun _ => (tracks_forEach each fun hg => ?_).mono fun _ _ _ => trivial, by simp⟩
    simp [Job.track, hg]

theorem drives_sweepGateway : Drives g (sweepGateway g') j := by
  have rest (j) : Drives g (do driveRotationFor g'; sweepOrphans g') j :=
    tracks_bind.mpr <| drives_driveRotationFor.mono fun _ _ _ => drives_sweepOrphans
  simp only [sweepGateway, tracks_bind, tracks_now, tracks_ask]
  refine ⟨trivial, fun _ => ⟨trivial, fun _ => trivial, fun keys => ?_⟩⟩
  split
  case h_1 live hl => exact ⟨fun hg => ⟨keys, by simp [Job.track, hg], hl⟩, fun _ => rest _⟩
  case h_2 => exact rest _

open Sync

-- The seeds of acknowledgements come from the last read of each gateway.
theorem drives_readSeeds (hn : gs.Nodup) :
    (readSeeds gs).Tracks (Job.May g) (Job.track g) (fun seeds j' =>
      (g ∉ gs → j' = j) ∧ (∀ p ∈ seeds, p.1 ∈ gs) ∧
      ∀ live, (g, some live) ∈ seeds → ∃ keys ∈ j'.rows, selectLivePending keys = some live) j := by
  induction gs generalizing j
  case nil => exact ⟨fun _ => rfl, by simp, by simp⟩
  case cons g' gs ih =>
    have ⟨hg, hn⟩ := List.nodup_cons.mp hn
    simp only [readSeeds, tracks_bind, tracks_ask]
    refine ⟨trivial, fun e => (ih hn).mono ?_, fun keys => (ih hn).mono ?_⟩
    case refine_1 =>
      rintro seeds j' ⟨hj, hs, hl⟩
      refine ⟨fun h => hj (by simp_all), ?_, ?_⟩
      case refine_1 => simpa using fun p q hp => .inr (hs _ hp)
      case refine_2 => simpa using hl
    case refine_2 =>
      rintro seeds j' ⟨hj, hs, hl⟩
      refine ⟨fun h => ?_, ?_, ?_⟩
      case refine_1 =>
        have ⟨h₁, h₂⟩ := not_or.mp (mt List.mem_cons.mpr h)
        rw [hj h₂]
        exact if_neg (Ne.symm h₁)
      case refine_2 => simpa using fun p q hp => .inr (hs _ hp)
      case refine_3 =>
        intro live hm
        cases List.mem_cons.mp hm
        case inl hm =>
          have ⟨he, hl⟩ := Prod.mk.inj hm
          rw [hj (he ▸ hg)]
          exact ⟨keys, by simp [Job.track, he], hl.symm⟩
        case inr hm => exact hl live hm

theorem drives_reportAcks : Drives g (reportAcks g' acks) j := by
  simp only [reportAcks, tracks_bind]
  refine (drives_readSeeds (nodup_distinct _)).mono fun seeds j' hs => ⟨hs.2.2, fun _ => ?_⟩
  exact tracks_forEach (I := fun _ => True) (fun _ _ _ _ => drives_driveRotationFor) trivial

theorem drives_handle [Ipnet] [Sha256] [Base64] (q : Request) (j : Job) : Drives g q.handle j :=
  tracks_handle (I := fun _ => True) q (fun _ _ ho _ _ => ⟨may_of_touch ho, fun _ => trivial⟩)
    (fun _ _ _ _ _ => drives_reportAcks) (fun _ _ _ _ => drives_driveRotationFor)
    (fun _ _ _ _ => drives_sweepGateway) trivial

end Drives
end Controller
