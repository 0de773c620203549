import WireMesh.Gateway.State
import WireMesh.Gateway.TunnelSet
import WireMesh.Policy.Ir

-- The filter of one device, and what of a desired state it has been given.
namespace Gateway

open Policy

-- The reader of a policy's text, which lies outside of the gateway.
class PolicyJson where
  fromJson : List (BitVec 8) → Option PolicyIR

-- What the backend enforces, from when on it may be written to again, and the version that it has been
-- given. One that has just been attached denies everything.
structure GatewayEnforcer where
  enforced : Option PolicyIR := none
  applyReadyAt : Option Nat := none
  appliedVersion : Option Nat := none
deriving DecidableEq

-- How a backend takes a policy. One that fails, or panics, enforces what it did before.
structure Backend where
  succeeds : Bool
  readyAt : Option Nat

variable [PolicyJson]

-- No policy at all stands for an empty one.
def DesiredState.policy (ds : DesiredState) : Option PolicyIR :=
  if ds.policyIr.isEmpty then some ⟨1, ds.policyVersion, []⟩ else PolicyJson.fromJson ds.policyIr

def GatewayEnforcer.applyIfChanged (e : GatewayEnforcer) (ds : DesiredState) (backend : Backend) :
    Except Unit Bool × GatewayEnforcer :=
  if e.appliedVersion = some ds.policyVersion then (.ok false, e)
  else
    match ds.policy with
    | none    => (.error (), e)
    | some ir =>
      if backend.succeeds then (.ok true, ⟨some ir, backend.readyAt, some ds.policyVersion⟩)
      else (.error (), { e with applyReadyAt := backend.readyAt })

end Gateway
