import WireMesh.Lib.Tasks
import WireMesh.Gateway.Main

-- A gateway at work: the turns of its main loop, the rotation ticks, and endpoints that are committed
-- and paths that change in between.
namespace Gateway

inductive Request
  | boot
  | message (m : Message)
  | rotate (epoch : Nat)
  | reconnect
  | idle
  | tickRotation
  | setPeerEndpoint (gid : Nat) (endpoint : String) (isRelay : Bool)
  | readThrough (gid : Nat) (endpoint : String)
  | transition (gid : Nat) (after : PathState)

def Request.prog (baseWgPort : Nat) : Request → P Unit
  | boot                             => Gateway.boot
  | message m                        => turn baseWgPort (onMessage m)
  | rotate epoch                     => turn baseWgPort (onRotate epoch)
  | reconnect                        => turn baseWgPort (perform .reconnect)
  | idle                             => turn baseWgPort (pure ())
  | tickRotation                     => Gateway.tickRotation
  | setPeerEndpoint gid endpoint rel => Gateway.setPeerEndpoint gid endpoint rel
  | readThrough gid endpoint         => readThroughEndpoint gid endpoint
  | transition gid after             => perform (.transition gid after)

-- A process that comes up finds its keys, has one device with no peers, and no routes.
def Gw.start (config : Config) (stateJson : Option DesiredState) (storedKeys : Option EpochKeys) :
    Gw :=
  let key := EpochKeys.selectBootKey storedKeys config.legacyPrivB64 config.legacyPubB64
  let device := (Uapi.keyOfB64 key.privateKeyB64).toOption.getD []
  { config, stateJson, storedKeys
    active    := ⟨config.tunIfname, key.privateKeyB64, config.wgListenPort, key.epoch, none, []⟩
    enforcers := AList.singleton (.own key.epoch) {}
    epochKeys := storedKeys.getD [⟨0, config.legacyPrivB64, config.legacyPubB64, .active⟩]
    tunnels   := ⟨AList.singleton (.own key.epoch) ⟨config.tunIfname, config.wgListenPort⟩, []⟩
    devices   := AList.singleton config.tunIfname ⟨device, config.wgListenPort, []⟩ }

-- The process is started over with what it has on disk.
def Gw.restart (s : Gw) : Gw :=
  { Gw.start s.config s.stateJson s.storedKeys with clock := s.clock }

abbrev Elapse := Nat

inductive Gw.Outside (s : Gw) : Elapse → Gw → Prop
  | elapse : Outside s ns { s with clock := s.clock + ns }

abbrev System := Pool Op.Resp Gw

abbrev SystemEvent := Pool.Event Request Op.Resp Elapse

abbrev History := Pool.History Request Op.Resp Elapse Gw

def rules (baseWgPort : Nat) : Pool.Rules Request Op.Resp Elapse Gw where
  prog    := Request.prog baseWgPort
  answers := Gw.Answers
  env     := Gw.Outside
  halt    := Gw.restart

-- A run of a gateway from what it finds on disk when it is first started.
abbrev Runs (config : Config) (stateJson : Option DesiredState) (storedKeys : Option EpochKeys)
    (h : History) (s : System) : Prop :=
  Run (Pool.Step (rules config.wgListenPort)) ⟨.start config stateJson storedKeys, []⟩ h s

-- The gateway as it runs where the world decides by the operation alone.
def player (baseWgPort : Nat) (choose : Op → Choice) : Pool.Player (rules baseWgPort) where
  exec s o      := s.step (choose o) o
  outside s v   := some { s with clock := s.clock + v }
  answers h     := ⟨_, h⟩
  env h         := by
    cases h
    exact .elapse

end Gateway
