import WireMesh.Controller.Service

-- An apply together with the rows that it adds to the audit log.
namespace Controller

open Policy

-- What a row of the log tells of. It is stored as a text.
inductive AuditDiff
  | createSegment (name : String) (cidrs : List String)
  | updateSegmentCidrs (name : String) (oldCidrs newCidrs : List String)
  | policy (version : Nat)
deriving DecidableEq

namespace AuditDiff

def action : AuditDiff → String
  | createSegment ..      => "apply-create-segment"
  | updateSegmentCidrs .. => "apply-update-segment-cidrs"
  | policy _              => "apply-policy"

def entity : AuditDiff → String
  | createSegment name _         => s!"segment/{name}"
  | updateSegmentCidrs name _ _  => s!"segment/{name}"
  | policy version               => s!"policy_version/{version}"

end AuditDiff

structure AuditRow where
  ts : String
  actor : String
  action : String
  entity : String
  diff : AuditDiff
deriving DecidableEq

def auditRow (actor now : String) (diff : AuditDiff) : AuditRow :=
  { ts := now, actor, action := diff.action, entity := diff.entity, diff }

namespace Db

variable (db : Db)

def storedCidrs (name : String) : List String :=
  ((db.segments.find? (·.name = name)).map fun s => db.cidrsForSegment s.id).getD []

-- The note on a declared segment is made where one of the counters goes up.
def segmentNote (st st' : ApplyState) (name : String) (cidrs : List Ipv4Net) : List AuditDiff :=
  let declared := cidrs.map Ipv4Net.display
  if st'.updated ≠ st.updated then [.updateSegmentCidrs name (st.db.storedCidrs name) declared]
  else if st'.created ≠ st.created then [.createSegment name declared]
  else []

def policyNote : List AuditDiff :=
  db.latestPolicyRow.toList.map fun row => .policy row.version

variable [Ipnet]

def noteSegment (existing : List String) (acc : ApplyState × List AuditDiff)
    (s : String × List Ipv4Net) : Except String (ApplyState × List AuditDiff) := do
  let st ← applySegment existing acc.1 s.1 s.2
  return (st, acc.2 ++ segmentNote acc.1 st s.1 s.2)

variable [Sha256] [IpnetV6] [PolicyText]

-- The notes become rows only if something has been written.
def applyAudited (segments : List (String × List Ipv4Net)) (policyYaml : Option String)
    (actor now : String) : Except String (ApplyOutcome × Db × List AuditRow) := do
  let existing := db.segments.map (·.name)
  let (st, notes) ← segments.foldlM (noteSegment existing) (⟨db, 0, 0, []⟩, [])
  let source :=
    match policyYaml with
    | some source => some source
    | none        => if st.changed = [] then none else st.db.latestPolicyRow.map (·.sourceYaml)
  let (policyUpdated, db') ← match source with
    | some source => st.db.applyPolicy source
    | none        => pure (false, st.db)
  if st.created = 0 ∧ st.updated = 0 ∧ !policyUpdated then return (⟨0, 0, false, []⟩, db, [])
  let notes := if policyUpdated then notes ++ db'.policyNote else notes
  return (⟨st.created, st.updated, policyUpdated, st.changed⟩, db'.bumpRevision,
    notes.map (auditRow actor now))

end Db

-- An apply up to the end of its transaction.
def Admin.applyTx [Ipnet] [Sha256] [IpnetV6] [PolicyText] (db : Db)
    (segments : List (String × List String)) (policyYaml : Option String) (actor now : String) :
    Except Status (ApplyOutcome × Db × List AuditRow) := do
  let segments ← segments.mapM parseSegment
  match db.applyAudited segments policyYaml actor now with
  | .ok r    => return r
  | .error e => throw (internal "applying fabric" e)

end Controller
