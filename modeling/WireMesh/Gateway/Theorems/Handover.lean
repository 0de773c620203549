import WireMesh.Gateway.EpochKeys
import WireMesh.Gateway.Rotation

-- What the main loop and the rotation ticks tell each other of a rotation, and no more of either: the
-- phase, whether the ticks have a rotation to drive, whether they have asked for the old epoch to be
-- retired, and the epoch of the active device.
namespace Gateway

-- Where the main loop is: with an epoch to retire, within a rotation that it may have handed to the
-- ticks, or giving one up. A rotation goes with the epoch of its directive, the one that the machine
-- has answered with, and the key that has been minted, which may have gone to the disk.
structure Mint where
  key : EpochKey
  stored : Bool
deriving DecidableEq

inductive Main
  | out
  | took
  | rotating (epoch n : Nat) (minted : Option Mint) (armed : Bool)
  | unwinding (epoch : Nat) (minted : Option Mint)
deriving DecidableEq

-- Where the ticks are: with a rotation to drive, having seen its phase, having cut it over without the
-- new device being the active one yet, or having asked for the old epoch to be retired.
inductive Tick
  | out
  | hasA
  | sees (p : RotationPhase)
  | flipped (e : Nat)
  | signalled
deriving DecidableEq

def Tick.driving : Tick → Bool
  | hasA | sees _ | flipped _ => true
  | out | signalled           => false

def RotationPhase.isOverlapping : RotationPhase → Bool
  | overlapping _ => true
  | _             => false

def RotationPhase.isCutOver : RotationPhase → Bool
  | cutOver _ => true
  | _         => false

structure Handover where
  main : Main := .out
  tick : Tick := .out
  rotation : RotationPhase := .idle
  armed : Bool := false
  signal : Bool := false
  epoch : Nat

namespace Handover

inductive MainStep (a : Handover) : Handover → Prop
  | take : a.main = .out → a.signal → MainStep a { a with main := .took, signal := false }
  | retire : a.main = .took →
      MainStep a { a with main := .out, rotation := (a.rotation.onEpochRetired e).1 }
  | directive : a.main = .out → a.rotation = .idle → a.epoch ≠ n →
      MainStep a { a with main := .rotating n n none false, rotation := .overlapping n }
  | mint : a.main = .rotating d n none false → k.key.epoch = n →
      MainStep a { a with main := .rotating d n (some k) false }
  | arm : a.main = .rotating d n m false →
      MainStep a { a with main := .rotating d n m true, armed := true }
  | unwind : a.main = .rotating d n m b →
      MainStep a { a with main := .unwinding d m, armed := false }
  | failed : a.main = .unwinding d m →
      MainStep a { a with main := .out, rotation := a.rotation.onFailed.1 }
  | ends : a.main ≠ .took → MainStep a { a with main := .out }

inductive TickStep (a : Handover) : Handover → Prop
  | readA : a.tick = .out → a.armed → TickStep a { a with tick := .hasA }
  | readPhase : a.tick = .hasA → TickStep a { a with tick := .sees a.rotation }
  | flip : a.tick = .sees p → a.rotation = .overlapping e →
      TickStep a { a with tick := .flipped e, rotation := .cutOver e }
  | activate : a.tick = .flipped e → TickStep a { a with tick := .out, epoch := e }
  | signal : a.tick = .sees (.cutOver e) → TickStep a { a with tick := .signalled, signal := true }
  | disarm : a.tick = .signalled → TickStep a { a with tick := .out, armed := false }
  | ends : a.tick ≠ .signalled → TickStep a { a with tick := .out }

inductive Step (a b : Handover) : Prop
  | main : MainStep a b → Step a b
  | tick : TickStep a b → Step a b

-- What holds with the main loop where it is. While a rotation overlaps, the active device is another
-- epoch's.
def MainInv (a : Handover) : Prop :=
  match a.main with
  | .out              => True
  | .took             => a.rotation.isCutOver ∧ ¬a.signal ∧ ¬a.tick.driving
  | .rotating d n m b =>
    a.rotation ≠ .idle ∧ n = d ∧ (∀ k ∈ m, k.key.epoch = d) ∧ (a.rotation.isOverlapping → a.epoch ≠ d) ∧
    (¬b → ¬a.signal ∧ (¬a.armed ∨ a.tick = .signalled) ∧
      (a.tick = .hasA → a.rotation.isOverlapping) ∧ ∀ e, a.tick ≠ .sees (.cutOver e))
  | .unwinding d m    =>
    a.rotation ≠ .idle ∧ (∀ k ∈ m, k.key.epoch = d) ∧ (a.rotation.isOverlapping → a.epoch ≠ d) ∧ ¬a.armed

-- What holds with the ticks where they are.
def TickInv (a : Handover) : Prop :=
  match a.tick with
  | .out              => a.armed → ¬a.signal ∧ a.main ≠ .took ∧ a.rotation ≠ .idle
  | .hasA             => ¬a.signal ∧ a.main ≠ .took ∧ (a.armed → a.rotation ≠ .idle)
  | .sees (.cutOver _) => ¬a.signal ∧ a.main ≠ .took ∧ a.rotation.isCutOver
  | .sees _           => ¬a.signal ∧ a.main ≠ .took ∧ (a.armed → a.rotation ≠ .idle)
  | .flipped e        => ¬a.signal ∧ a.main ≠ .took ∧ a.rotation = .cutOver e
  | .signalled        => True

structure Inv (a : Handover) : Prop where
  signal : a.signal → a.rotation.isCutOver
  main : a.MainInv
  tick : a.TickInv

variable {a b : Handover}

theorem Inv.start (epoch : Nat) : Inv { epoch } := by
  constructor <;> simp [MainInv, TickInv]

theorem Inv.main_step (inv : Inv a) (h : MainStep a b) : Inv b := by
  obtain ⟨main, tick, rotation, armed, signal, epoch⟩ := a
  obtain ⟨hs, hm, ht⟩ := inv
  simp only [MainInv, TickInv] at hs hm ht
  cases h
  -- These two move the phase by where it is.
  case' retire => cases rotation
  case' failed => cases rotation
  all_goals constructor
  all_goals
    grind [MainInv, TickInv, Tick.driving, RotationPhase.isCutOver, RotationPhase.isOverlapping,
      RotationPhase.onEpochRetired, RotationPhase.onFailed]

theorem Inv.tick_step (inv : Inv a) (h : TickStep a b) : Inv b := by
  obtain ⟨main, tick, rotation, armed, signal, epoch⟩ := a
  obtain ⟨hs, hm, ht⟩ := inv
  simp only [MainInv, TickInv] at hs hm ht
  cases h
  all_goals constructor
  all_goals
    grind [MainInv, TickInv, Tick.driving, RotationPhase.isCutOver, RotationPhase.isOverlapping]

theorem Inv.step (inv : Inv a) (h : Step a b) : Inv b := by
  cases h
  case main h => exact inv.main_step h
  case tick h => exact inv.tick_step h

end Handover
end Gateway
