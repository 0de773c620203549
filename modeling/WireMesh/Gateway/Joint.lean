import WireMesh.Controller.Ops
import WireMesh.Gateway.System

-- A gateway beside the database of its controller. The controller makes its transactions as it likes,
-- and a key that the gateway submits reaches it by a call. The gateway may get no answer to a call, and
-- then it cannot tell whether the call has been carried out, or will be.
namespace Gateway

open Controller (Db Tx PolicyText)
open Policy

structure Joint where
  gw : Gw
  db : Db
  -- Calls that have got no answer and may still come through.
  underway : List (Nat × String) := []
  -- Calls that have been carried out without an answer.
  unheard : List (Nat × String) := []

namespace Joint

-- The id that the gateway has enrolled with.
variable (g : Nat)

inductive Answers (s : Joint) : (o : Op) → o.Resp → Joint → Prop
  | own : (∀ n p, o ≠ .submitEpochKey n p) → s.gw.Answers o x t → Answers s o x { s with gw := t }
  | heard : s.gw.Answers (.submitEpochKey n p) ((s.db.setEpochPubkey g n p).1 = .applied) t →
      Answers s (.submitEpochKey n p) ((s.db.setEpochPubkey g n p).1 = .applied)
        { s with gw := t, db := (s.db.setEpochPubkey g n p).2 }
  | failed : s.gw.Answers (.submitEpochKey n p) false t →
      Answers s (.submitEpochKey n p) false { s with gw := t, underway := (n, p) :: s.underway }
  | unheard : s.gw.Answers (.submitEpochKey n p) false t →
      (s.db.setEpochPubkey g n p).1 = .applied →
      Answers s (.submitEpochKey n p) false
        { s with gw := t, db := (s.db.setEpochPubkey g n p).2, unheard := (n, p) :: s.unheard }

inductive Outside
  | elapse (ns : Nat)
  | tx (t : Tx)
  | comesThrough (epoch : Nat) (pubkeyB64 : String)

variable [Ipnet] [Sha256] [IpnetV6] [PolicyText]

-- The gateway that a transaction submits a key for.
def submits : Tx → Option Nat
  | .setEpochPubkey g _ _ => some g
  | _                     => none

-- Nobody else submits keys for the gateway.
inductive Happens (s : Joint) : Outside → Joint → Prop
  | elapse : s.gw.Outside ns t → Happens s (.elapse ns) { s with gw := t }
  | tx : submits t ≠ some g → Happens s (.tx t) { s with db := (s.db.commit t).2 }
  | comesThrough : (n, p) ∈ s.underway → (s.db.setEpochPubkey g n p).1 = .applied →
      Happens s (.comesThrough n p)
        { s with db := (s.db.setEpochPubkey g n p).2, unheard := (n, p) :: s.unheard }

-- The gateway may have been in a call when it was stopped, with any of the keys that it has stored.
def restart (s : Joint) : Joint :=
  { s with
    gw       := s.gw.restart
    underway := s.underway ++ (s.gw.storedKeys.getD []).map fun k => (k.epoch, k.pubkeyB64) }

abbrev System := Pool Op.Resp Joint

abbrev SystemEvent := Pool.Event Request Op.Resp Outside

abbrev History := Pool.History Request Op.Resp Outside Joint

def rules (baseWgPort : Nat) : Pool.Rules Request Op.Resp Outside Joint where
  prog    := Request.prog baseWgPort
  answers := Answers g
  env     := Happens g
  halt    := restart

abbrev Runs (config : Config) (stateJson : Option DesiredState) (storedKeys : Option EpochKeys)
    (db : Db) (h : History) (s : System) : Prop :=
  Run (Pool.Step (rules g config.wgListenPort)) ⟨⟨.start config stateJson storedKeys, db, [], []⟩, []⟩ h s

-- A call may go either way.
omit [Ipnet] [Sha256] [IpnetV6] [PolicyText] in
theorem answers_submit {s t : Gw} (h : s.step c (.submitEpochKey n p) = some (x, t)) (y : Bool) :
    s.Answers (.submitEpochKey n p) y t := by
  simp only [Gw.step, Gw.exec] at h
  split at h
  all_goals cases h
  exact ⟨{ succeeds := y }, by simp [Gw.step, Gw.exec, *]⟩

-- Both as they run where the world decides by the operation alone. A call that fails is carried out
-- all the same.
def player (baseWgPort : Nat) (choose : Op → Choice) : Pool.Player (rules g baseWgPort) where
  exec s
    | .submitEpochKey n p => do
      let (x, t) ← s.gw.step (choose (.submitEpochKey n p)) (.submitEpochKey n p)
      let call := s.db.setEpochPubkey g n p
      if call.1 = .applied then
        if x then some (true, { s with gw := t, db := call.2 })
        else some (false, { s with gw := t, db := call.2, unheard := (n, p) :: s.unheard })
      else some (false, { s with gw := t, underway := (n, p) :: s.underway })
    | o => do
      let (x, t) ← s.gw.step (choose o) o
      some (x, { s with gw := t })
  outside s
    | .elapse ns        => some { s with gw := { s.gw with clock := s.gw.clock + ns } }
    | .tx t             =>
      if submits t = some g then none else some { s with db := (s.db.commit t).2 }
    | .comesThrough _ _ => none
  answers {s o x t} h := by
    cases o
    case submitEpochKey n p =>
      have ⟨(x', t'), hx, h⟩ := Option.bind_eq_some_iff.mp h
      have may := answers_submit hx
      dsimp only at h
      split at h
      case isTrue ha =>
        split at h
        all_goals cases h
        case isTrue =>
          have heard := Answers.heard (g := g) (may ((s.db.setEpochPubkey g n p).1 = .applied))
          simp only [ha, decide_true] at heard
          exact heard
        case isFalse => exact .unheard (may false) ha
      case isFalse =>
        cases h
        exact .failed (may false)
    all_goals
      have ⟨(x', t'), hx, h⟩ := Option.bind_eq_some_iff.mp h
      cases h
      exact .own nofun ⟨_, hx⟩
  env {s v t} h := by
    cases v
    case elapse =>
      cases h
      exact .elapse .elapse
    case tx =>
      simp only at h
      split at h
      case isTrue    => cases h
      case isFalse hn =>
        cases h
        exact .tx hn
    case comesThrough => cases h

end Joint
end Gateway
