import WireMesh.Gateway.System

-- What each operation of a gateway leaves as it is.
namespace Gateway

inductive Part
  | config
  | booted
  | locks
  | exited
  | states
  | desired
  | active
  | pins
  | live
  | enforcers
  | rotation
  | roleA
  | roleB
  | retireReady
  | collapseReady
  | keys
  | tunnels
  | devices
  | routes
deriving DecidableEq

def Part.Same (s t : Gw) : Part → Prop
  | config        => t.config = s.config
  | booted        => t.booted = s.booted
  | locks         => t.held = s.held
  | exited        => t.exited = s.exited
  | states        => t.current = s.current ∧ t.applied = s.applied
  | desired       => t.desired = s.desired
  | active        => t.active = s.active
  | pins          => t.wg0Pins = s.wg0Pins
  | live          => t.liveEndpoints = s.liveEndpoints
  | enforcers     => t.enforcers = s.enforcers
  | rotation      => t.rotation = s.rotation
  | roleA         => t.roleA = s.roleA
  | roleB         => t.roleB = s.roleB
  | retireReady   => t.retireReady = s.retireReady
  | collapseReady => t.collapseReady = s.collapseReady
  | keys          => t.epochKeys = s.epochKeys ∧ t.storedKeys = s.storedKeys
  | tunnels       => t.tunnels = s.tunnels
  | devices       => t.devices = s.devices
  | routes        => t.routes = s.routes

def Op.writes : Op → List Part
  | boot                => [.booted, .locks]
  | lock _              => [.locks]
  | unlock _            => [.locks]
  | exit                => [.exited]
  | classify _          => [.states]
  | reconnect           => [.states]
  | setApplied _        => [.states]
  | setDesired _        => [.desired]
  | recordApplied _ _   => [.active]
  | recordAdded _ _ _ _ => [.active]
  | recordScoped _ _ _  => [.active]
  | renormalized _      => [.active]
  | setActive _         => [.active]
  | send _ _            => [.devices]
  | addRoute _ _        => [.routes]
  | delRoute _ _        => [.routes]
  | bringUp _ _         => [.tunnels, .devices]
  | tearDown _          => [.tunnels, .devices]
  | setListenPort _ _   => [.tunnels, .devices]
  | insertEnforcer _ _  => [.enforcers]
  | removeEnforcer _    => [.enforcers]
  | onDirective _       => [.rotation]
  | onFailed            => [.rotation]
  | onNewEpochSession   => [.rotation]
  | onEpochRetired _    => [.rotation]
  | mint _              => [.keys]
  | discardPending _    => [.keys]
  | promote _           => [.keys]
  | retireKey _         => [.keys]
  | setRoleA _          => [.roleA]
  | signalRetire _      => [.retireReady]
  | takeRetireReady     => [.retireReady]
  | collapseRoleB _     => [.pins, .live, .roleB]
  | takeRoleB _         => [.roleB]
  | insertRoleB _ _     => [.roleB]
  | markCutOver _ _     => [.roleB]
  | markDone _ _        => [.roleB]
  | dropOverlap _ _     => [.roleB]
  | pin _ _             => [.pins]
  | unpin _             => [.pins]
  | signalCollapse _ _  => [.collapseReady]
  | takeCollapseReady   => [.collapseReady]
  | pinLive _ _         => [.live]
  | readThrough _ _ _   => [.live]
  | transition _ _      => [.live]
  | _                   => []

namespace Gw

variable {s t : Gw} {o : Op} {x : o.Resp}

-- Overlaps collapse without touching anything else.
theorem collapse_same (ds : DesiredState) (hp : p ∉ [Part.pins, .live, .roleB]) :
    p.Same s (s.collapse ds) := by
  rw [collapse]
  generalize s.roleB.keys = gids
  have one (u : Gw) (gid : Nat) (hu : p.Same s u) : p.Same s (collapseOne ds u gid) := by
    rw [collapseOne]
    split
    case h_1 =>
      split
      case isTrue => exact hu
      case isFalse => cases p <;> first | exact hu | simp at hp
    case h_2 => exact hu
  exact List.foldlRecOn gids _ (by cases p <;> simp [Part.Same]) fun u hu gid _ => one u gid hu

-- An operation changes nothing but what it writes.
theorem step_same (h : s.step c o = some (x, t)) (hp : p ∉ o.writes) : p.Same s t := by
  unfold step at h
  split at h
  case h_1 =>
    split at h
    all_goals cases h
    cases p <;> first | rfl | exact ⟨rfl, rfl⟩ | simp [Op.writes] at hp
  case h_2 =>
    split at h
    case isFalse => cases h
    case isTrue =>
      cases o
      case collapseRoleB ds =>
        cases h
        exact collapse_same _ hp
      all_goals
        simp only [exec, persist, modifyOverlap] at h
        (repeat' split at h)
        all_goals cases h
        all_goals cases p <;> first | rfl | exact ⟨rfl, rfl⟩ | exact absurd (by simp [Op.writes]) hp

-- Only a process that is up does anything but come up.
theorem booted_of_step (h : s.step c o = some (x, t)) (ho : o ≠ .boot) : s.booted = true := by
  unfold step at h
  split at h
  case h_1 => exact absurd rfl ho
  case h_2 =>
    split at h
    case isFalse   => cases h
    case isTrue hb => exact (Bool.and_eq_true_iff.mp hb).1

end Gw
end Gateway
