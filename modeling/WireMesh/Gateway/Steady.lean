import WireMesh.Lib.Tasks
import WireMesh.Gateway.System

-- A gateway that keeps to its own key: desired states are applied to the active device one after the
-- other, while peers are pointed to other endpoints, paths change, and the keys of peers are pinned and
-- unpinned.
namespace Gateway
namespace Steady

inductive Request
  | applyState (ds : DesiredState)
  | setPeerEndpoint (gid : Nat) (endpoint : String) (isRelay : Bool)
  | readThrough (gid : Nat) (endpoint : String)
  | transition (gid : Nat) (after : PathState)

-- A state that cannot be applied ends the process.
def applying (ds : DesiredState) : P Unit := do
  perform (.lock .mainLoop)
  if !(← applyState (← perform .applied) ds) then
    perform .exit
    return
  perform (.publish ds)
  perform (.setDesired ds)
  perform (.setApplied ds)
  perform (.unlock .mainLoop)

def Request.prog : Request → P Unit
  | applyState ds                    => applying ds
  | setPeerEndpoint gid endpoint rel => Gateway.setPeerEndpoint gid endpoint rel
  | readThrough gid endpoint         => readThroughEndpoint gid endpoint
  | transition gid after             => perform (.transition gid after)

inductive Outside
  | pins (pinnedPubkeys : HashMap Nat String)
  | dial (liveEndpoints : HashMap Nat String)

inductive Happens (s : Gw) : Outside → Gw → Prop
  | pins : Happens s (.pins pinned) { s with wg0Pins := pinned }
  | dial : Happens s (.dial live) { s with liveEndpoints := live }

def up (s : Gw) : Gw :=
  { s with booted := true }

abbrev System := Pool Op.Resp Gw

abbrev SystemEvent := Pool.Event Request Op.Resp Outside

abbrev History := Pool.History Request Op.Resp Outside Gw

def rules : Pool.Rules Request Op.Resp Outside Gw where
  prog    := Request.prog
  answers := Gw.Answers
  env     := Happens
  halt s  := up s.restart

abbrev Runs (config : Config) (stateJson : Option DesiredState) (storedKeys : Option EpochKeys)
    (h : History) (s : System) : Prop :=
  Run (Pool.Step rules) ⟨up (.start config stateJson storedKeys), []⟩ h s

-- The gateway as it runs where the world decides by the operation alone.
theorem answers_of_step (choose : Op → Choice) {s t : Gw} {o : Op} {x : o.Resp}
    (h : s.step (choose o) o = some (x, t)) : s.Answers o x t :=
  ⟨_, h⟩

def player (choose : Op → Choice) : Pool.Player rules where
  exec s o    := s.step (choose o) o
  outside s
    | .pins pinned => some { s with wg0Pins := pinned }
    | .dial live   => some { s with liveEndpoints := live }
  answers     := answers_of_step choose
  env {s v t} h := by
    cases v
    all_goals cases h
    case pins => exact .pins
    case dial => exact .dial

end Steady
end Gateway
