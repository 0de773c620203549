import WireMesh.Controller.Tx

-- Segments and their CIDRs, and the transaction that applies a fabric document to them.
namespace Controller

open Policy

-- The readers and writers of texts that lie outside of the controller.
class PolicyText where
  fromYaml : String → Except String PolicyDoc
  toCanonicalJson : PolicyIR → String
  blocksJson : List IrBlock → String

def blocksFingerprint [Sha256] [PolicyText] (blocks : List IrBlock) : String :=
  hexEncode <| Sha256.digest <| Text.bytesOf <| PolicyText.blocksJson blocks

def displayError (e : CompileError) : String :=
  match e.block, e.rule with
  | some b, some r => s!"block {b} rule {r}: {e.msg}"
  | some b, none   => s!"block {b}: {e.msg}"
  | none,   _      => e.msg

def displayErrors (errors : List CompileError) : String :=
  "\n".intercalate (errors.map displayError)

structure ApplyOutcome where
  createdSegments : Nat
  updatedSegments : Nat
  policyUpdated : Bool
  -- The segments that have got other CIDRs, and these as they were declared.
  changedSegmentCidrs : List (Nat × String × List String)
deriving DecidableEq

-- The part of an apply that goes through the declared segments.
structure ApplyState where
  db : Db
  created : Nat
  updated : Nat
  changed : List (Nat × String × List String)

variable [Ipnet]

namespace Db

variable (db : Db)

def overlaps (n m : Ipv4Net) : Bool :=
  n.containsAddr m.network || m.containsAddr n.network

-- The segment of the first row that overlaps. Rows are read up to there.
def findConflict (cidr : Ipv4Net) : List (String × String) → Except String (Option String)
  | []                       => .ok none
  | (existing, owner) :: rest => do
    if overlaps cidr (← Ipnet.parse existing) then return some owner else findConflict cidr rest

def othersCidrs (segmentId : Nat) : List (String × String) :=
  (db.cidrs.filter (·.segmentId ≠ segmentId)).filterMap fun c =>
    (db.segments.find? (·.id = c.segmentId)).map fun s => (c.cidr, s.name)

def overlapError (segment : String) : String :=
  s!"CIDR overlaps with an existing CIDR of segment '{segment}'"

def insertCidrs (segmentId : Nat) (name : String) (accepted : List Ipv4Net) (db : Db) :
    List Ipv4Net → Except String Db
  | []            => .ok db
  | cidr :: cidrs => do
    if accepted.any (overlaps cidr) then throw (overlapError name)
    if let some owner ← findConflict cidr (db.othersCidrs segmentId) then throw (overlapError owner)
    insertCidrs segmentId name (accepted ++ [cidr])
      { db with cidrs := db.cidrs ++ [{ segmentId, cidr := cidr.display }] } cidrs

def insertSegment (name : String) (cidrs : List Ipv4Net) : Except String (Nat × Db) := do
  if cidrs = [] then throw ("segment " ++ Text.debugStr name ++ ": cidrs must not be empty")
  if db.segments.any (·.name = name) then throw "UNIQUE constraint failed: segment.name"
  let id := nextId (db.segments.map (·.id))
  let db ← insertCidrs id name [] { db with segments := db.segments ++ [{ id, name }] } cidrs
  return (id, db)

def createSegment (name : String) (cidrs : List Ipv4Net) : Except String (Nat × Db) := do
  let (id, db) ← db.insertSegment name cidrs
  return (id, db.bumpRevision)

def deleteSegment (segmentId : Nat) : Except String Db :=
  if ¬ db.segments.any (·.id = segmentId) then
    .error s!"DeleteSegment: no segment row with id {segmentId}"
  else if db.gateways.any (·.segmentId = segmentId) then
    .error (s!"DeleteSegment: segment {segmentId} has associated gateway row(s); " ++
      "drain them before deleting the segment")
  else if db.tokens.any (·.rebindSegmentId = some segmentId) then
    .error "FOREIGN KEY constraint failed"
  else
    let cidrs := db.cidrs.filter (·.segmentId ≠ segmentId)
    let segments := db.segments.filter (·.id ≠ segmentId)
    .ok { db with cidrs, segments }.bumpRevision

-- A stored text that is no CIDR is an error of its own.
def parseStored (name : String) (texts : List String) : Except String (List Ipv4Net) :=
  texts.mapM fun s =>
    match Ipnet.parse s with
    | .ok net  => .ok net
    | .error e =>
      .error ("stored cidr for segment " ++ Text.debugStr name ++ s!" is not valid IPv4: {e}")

def readAllSegmentDefs : Except String (List SegmentDef) :=
  db.segments.mapM fun s => do
    return { name := s.name, cidrs := ← parseStored s.name (db.cidrsForSegment s.id) }

-- One declared segment. `existing` are the names at the start of the apply. The CIDRs of a segment are
-- replaced if they are not the declared ones as a set.
def applySegment (existing : List String) (st : ApplyState) (name : String) (cidrs : List Ipv4Net) :
    Except String ApplyState := do
  if name ∈ existing then
    let some segment := st.db.segments.find? (·.name = name) |
      throw "Query returned no rows"
    let stored ← parseStored name (st.db.cidrsForSegment segment.id)
    if stored ⊆ cidrs ∧ cidrs ⊆ stored then return st
    let kept := st.db.cidrs.filter (·.segmentId ≠ segment.id)
    let db ← insertCidrs segment.id name [] { st.db with cidrs := kept } cidrs
    let changed := st.changed ++ [(segment.id, name, cidrs.map Ipv4Net.display)]
    return { st with db, changed, updated := st.updated + 1 }
  else
    let (_, db) ← st.db.insertSegment name cidrs
    return { st with db, created := st.created + 1 }

variable [Sha256] [IpnetV6] [PolicyText]

-- The new policy version, if the source compiles to other blocks than the latest one.
def applyPolicy (sourceYaml : String) : Except String (Bool × Db) := do
  let segments ← db.readAllSegmentDefs
  let source ← match parsePolicy PolicyText.fromYaml sourceYaml segments with
    | .ok source    => pure source
    | .error errors => throw (displayErrors errors)
  let version := (db.latestPolicyRow.map (·.version + 1)).getD 1
  let ir ← match compile source version with
    | .ok ir                    => pure ir
    | .error (.errors errors)   => throw (displayErrors errors)
    | .error (.panicked msg)    => throw msg
  let fingerprint := blocksFingerprint ir.blocks
  if db.latestPolicyRow.map (·.fingerprint) = some fingerprint then return (false, db)
  let compiledIr := PolicyText.toCanonicalJson ir
  return (true, { db with policies := db.policies ++ [{ version, sourceYaml, compiledIr, fingerprint }] })

-- Without a policy of its own, an apply that changes CIDRs compiles the latest source again.
def applyFabric (segments : List (String × List Ipv4Net)) (policyYaml : Option String) :
    Except String (ApplyOutcome × Db) := do
  let existing := db.segments.map (·.name)
  let st ← segments.foldlM (fun st s => applySegment existing st s.1 s.2) ⟨db, 0, 0, []⟩
  let source :=
    match policyYaml with
    | some source => some source
    | none        => if st.changed = [] then none else st.db.latestPolicyRow.map (·.sourceYaml)
  let (policyUpdated, db') ← match source with
    | some source => st.db.applyPolicy source
    | none        => pure (false, st.db)
  if st.created = 0 ∧ st.updated = 0 ∧ !policyUpdated then return (⟨0, 0, false, []⟩, db)
  return (⟨st.created, st.updated, policyUpdated, st.changed⟩, db'.bumpRevision)

end Db
end Controller
