import WireMesh.Controller.KeyRing
import WireMesh.Controller.Rotation

-- What can become of the tracker of a gateway, and what it lets a driver decide.
namespace Controller

-- What a decision says of the rotation that it is about.
inductive Decides (s : RotationState) (now : Instant) : RotationDecision → Prop
  | wait : Decides s now .wait
  | finished : s.promotedAt.isSome → s.priorActiveEpoch = none → Decides s now .finished
  | promote : s.promotedAt = none → s.pendingHasRealKey → Decides s now (.promote s.pendingEpoch)
  | retire : s.promotedAt = some t → s.priorActiveEpoch = some e → t + RETIRE_GRACE ≤ now →
      Decides s now (.retire e)
  | abort : s.promotedAt = none → s.pendingHasRealKey = false → s.startedAt + ABORT_AFTER ≤ now →
      Decides s now (.abort s.pendingEpoch reason)

theorem add_le_of_elapsed {now since span : Nat} (h : now - since ≥ span) (hs : 0 < span) :
    since + span ≤ now := by
  omega

theorem decides_decide (s : RotationState) (now : Instant) : Decides s now (s.decide now) := by
  fun_cases RotationState.decide s now
  case case1 hp hn     => exact .finished (by simp [hp]) hn
  case case2 hp _ he h => exact .retire hp he (add_le_of_elapsed h (by decide))
  case case3           => exact .wait
  case case4 hp hk h   => exact .abort hp (by simpa using hk) (add_le_of_elapsed h (by decide))
  case case5           => exact .wait
  case case6 hp hk _   => exact .promote hp (by simpa using hk)
  case case7 hp hk _ _ => exact .promote hp (by simpa using hk)
  case case8           => exact .wait

namespace Rotations

variable {rotations : Rotations} {g : Nat}

theorem put_self : rotations.put g tracker g = tracker :=
  Function.update_self ..

theorem put_ne (hg : g ≠ g') : rotations.put g' tracker g = rotations g :=
  Function.update_of_ne hg ..

theorem seed_ne (hg : g ≠ g') : rotations.seed g' live readAt now g = rotations g :=
  put_ne hg

-- A tracker is kept, or one for the rows takes the place of none and of one for another epoch.
theorem seed_self (rotations : Rotations) (g : Nat) (live : Option (Nat × Option Nat))
    (readAt now : Instant) : rotations.seed g live readAt now g = rotations g ∨
    ∃ l, live = some l ∧ (∀ t ∈ rotations g, t.pendingEpoch ≠ l.1) ∧
      rotations.seed g live readAt now g = some (.start l.1 l.2 now) := by
  simp only [seed, put_self]
  cases live
  case none => cases hr : rotations g <;> simp [evictDecision]
  case some l =>
    cases hr : rotations g
    case none   => simp
    case some t =>
      by_cases he : evictDecision t.pendingEpoch t.installedAt (some l.1) readAt
      case neg => simp [Option.filter, he]
      case pos =>
        refine .inr ⟨l, rfl, fun t' ht' => ?_, by simp [Option.filter, he]⟩
        cases ht'
        simp only [evictDecision] at he
        split at he
        case isTrue  => cases he
        case isFalse => simpa using he

-- A driver decides for the tracker that it leaves in place.
theorem plan_some (hp : (rotations.plan g keys readAt connected now).1 = some (d, taken)) :
    ∃ t peers, (rotations.plan g keys readAt connected now).2 g = some t ∧ taken = .of t ∧
      Decides (stateOf t keys peers) now d := by
  have ⟨t, ht, he⟩ := Option.map_eq_some_iff.mp hp
  cases he
  exact ⟨t, _, ht, rfl, decides_decide _ _⟩

theorem stateOf_pendingHasRealKey :
    (stateOf t keys peers).pendingHasRealKey ↔ KeyRing.Submitted keys t.pendingEpoch := by
  simp [stateOf, KeyRing.Submitted]

theorem applyEffect_ne (hg : g ≠ g') : rotations.applyEffect g' taken effect now g = rotations g := by
  fun_cases applyEffect rotations g' taken effect now
  case case3 => exact put_ne hg
  case case4 => exact put_ne hg
  case case6 => exact put_ne hg
  all_goals rfl

-- A promotion is noted in the tracker, and no other effect leaves it.
theorem applyEffect_promoted (rotations : Rotations) (g : Nat) (taken : TrackerToken)
    (now : Instant) : rotations.applyEffect g taken .promoted now g = rotations g ∨
    ∃ t, rotations g = some t ∧
      rotations.applyEffect g taken .promoted now g = some { t with promotedAt := some now } := by
  cases hw : trackerWriteBack taken ((rotations g).map .of) <;> simp only [applyEffect, hw]
  case apply =>
    cases hr : rotations g
    case none   => simp [hr, trackerWriteBack] at hw
    case some t => exact .inr ⟨t, rfl, put_self⟩
  all_goals exact .inl trivial

theorem seedAbsent_self (now : Instant) (seeds : List (Nat × Option (Nat × Option Nat)))
    (rotations : Rotations) (g : Nat) : seedAbsent now seeds rotations g = rotations g ∨
    rotations g = none ∧ ∃ l, (g, some l) ∈ seeds ∧
      seedAbsent now seeds rotations g = some (.start l.1 l.2 now) := by
  fun_induction seedAbsent now seeds rotations
  case case1 => exact .inl rfl
  case case2 id live rest rotations ih =>
    by_cases hg : g = id
    case neg =>
      rw [put_ne hg] at ih
      refine ih.imp_right fun ⟨hn, l, hl, he⟩ => ⟨hn, l, List.mem_cons_of_mem _ hl, he⟩
    case pos =>
      subst hg
      rw [put_self] at ih
      cases hr : rotations g
      case some t => simpa [hr] using ih
      case none =>
        cases live
        case none => simpa [hr] using ih
        case some l => exact .inr ⟨rfl, l, by simp, by simpa [hr] using ih⟩

def hear (reporting : Nat) (ack : EpochAck) (t : RotationTracker) : RotationTracker :=
  if ack.epoch = t.pendingEpoch ∧ ack.live ∧ reporting ∉ t.liveAcks
  then { t with liveAcks := t.liveAcks ++ [reporting] } else t

-- Acknowledgements are added to the tracker that is there.
structure Heard (t t' : RotationTracker) : Prop where
  same : t' = { t with liveAcks := t'.liveAcks }
  keeps : t.liveAcks ⊆ t'.liveAcks

theorem Heard.refl (t : RotationTracker) : Heard t t :=
  ⟨rfl, List.Subset.refl _⟩

theorem Heard.trans (h : Heard t t') (h' : Heard t' t'') : Heard t t'' :=
  ⟨by rw [h'.same, h.same], List.Subset.trans h.keeps h'.keeps⟩

theorem heard_hear {ack : EpochAck} : Heard t (hear reporting ack t) := by
  rw [hear]
  split
  case isTrue  => exact ⟨rfl, List.subset_append_left ..⟩
  case isFalse => exact .refl t

theorem mem_hear {ack : EpochAck} (he : ack.epoch = t.pendingEpoch) (hl : ack.live) :
    reporting ∈ (hear reporting ack t).liveAcks := by
  rw [hear]
  split
  case isTrue     => simp
  case isFalse hn => exact not_not.mp fun hm => hn ⟨he, hl, hm⟩

theorem recordAcks_none (reporting : Nat) (acks : List EpochAck) (h : rotations g = none) :
    recordAcks reporting acks rotations g = none := by
  fun_induction recordAcks reporting acks rotations
  case case1 => exact h
  case case2 ack acks rotations ih =>
    refine ih ?_
    by_cases hg : g = ack.peerGatewayId
    case neg => rwa [put_ne hg]
    case pos => rw [hg, put_self, ← hg, h]; rfl

-- A tracker hears of all live acknowledgements of its epoch.
theorem recordAcks_some (reporting : Nat) (acks : List EpochAck) (h : rotations g = some t) :
    ∃ t', recordAcks reporting acks rotations g = some t' ∧ Heard t t' ∧
      ∀ ack ∈ acks, ack.peerGatewayId = g → ack.live → ack.epoch = t.pendingEpoch →
        reporting ∈ t'.liveAcks := by
  fun_induction recordAcks reporting acks rotations generalizing t
  case case1 => exact ⟨t, h, .refl t, nofun⟩
  case case2 ack acks rotations ih =>
    by_cases hg : g = ack.peerGatewayId
    case neg =>
      have ⟨t', ht, hh, ha⟩ := ih ((put_ne hg).trans h)
      refine ⟨t', ht, hh, fun a hm hp => ?_⟩
      cases List.mem_cons.mp hm
      case inl hm => exact absurd (hm ▸ hp).symm hg
      case inr hm => exact ha a hm hp
    case pos =>
      subst hg
      have ⟨t', ht, hh, ha⟩ := @ih (hear reporting ack t) (by rw [put_self, h]; rfl)
      refine ⟨t', ht, heard_hear.trans hh, fun a hm hp hl he => ?_⟩
      cases List.mem_cons.mp hm
      case inl hm => exact hh.keeps (mem_hear (hm ▸ he) (hm ▸ hl))
      case inr hm => exact ha a hm hp hl (by rw [heard_hear.same, he])

end Rotations
end Controller
