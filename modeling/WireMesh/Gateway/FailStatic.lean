import WireMesh.Gateway.Enforce

-- The file that a gateway starts from when there is no controller, and its writer, which puts no policy
-- there that it could not read again.
namespace Gateway

-- How far the writing of the file gets. What is renamed into place is found there, even if the call
-- fails after that.
inductive WriteOutcome
  | notRenamed
  | notSynced
  | written
deriving DecidableEq

def DesiredState.save (ds : DesiredState) (outcome : WriteOutcome) (disk : Option DesiredState) :
    Except Unit Unit × Option DesiredState :=
  match outcome with
  | .notRenamed => (.error (), disk)
  | .notSynced  => (.error (), some ds)
  | .written    => (.ok (), some ds)

def policyIrIsDecodable [PolicyJson] (policyIr : List (BitVec 8)) : Bool :=
  policyIr.isEmpty || (PolicyJson.fromJson policyIr).isSome

-- The last policy that could be read, with its version, and the version of the last one that could not.
structure FailStaticWriter where
  lastGood : Option (Nat × List (BitVec 8)) := none
  warned : Option Nat := none
deriving DecidableEq

namespace FailStaticWriter

variable [PolicyJson]

def seededFrom (persisted : Option DesiredState) : FailStaticWriter where
  lastGood :=
    let readable := persisted.filter fun ds => policyIrIsDecodable ds.policyIr
    readable.map fun ds => (ds.policyVersion, ds.policyIr)
  warned   := none

def save (w : FailStaticWriter) (ds : DesiredState) (outcome : WriteOutcome)
    (disk : Option DesiredState) : FailStaticWriter × Except Unit Unit × Option DesiredState :=
  if w.lastGood.any fun (_, ir) => ir = ds.policyIr then
    ({ w with warned := none }, ds.save outcome disk)
  else if policyIrIsDecodable ds.policyIr then
    (⟨some (ds.policyVersion, ds.policyIr), none⟩, ds.save outcome disk)
  else
    let (keptVersion, keptIr) := w.lastGood.getD (0, [])
    let sanitized := { ds with policyVersion := keptVersion, policyIr := keptIr }
    ({ w with warned := some ds.policyVersion }, sanitized.save outcome disk)

end FailStaticWriter
end Gateway
