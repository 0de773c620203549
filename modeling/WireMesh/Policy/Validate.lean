import WireMesh.Policy.Dsl

namespace Policy

section Rule

variable [Ipnet] (blockIdx ruleIdx : Nat) (ctx : String)

def ruleError (msg : String) : CompileError :=
  { block := some blockIdx, rule := some ruleIdx, msg := ctx ++ " " ++ msg }

-- The reader of the network crate for either address family, as far as it is consulted: whether a
-- text that is no IPv4 network is an IPv6 one.
class IpnetV6 where
  isV6 : String → Bool

variable [IpnetV6]

def validateCidr (field : String) (segment : Option SegmentDef) (raw : String) :
    List CompileError :=
  match Ipnet.parse raw with
  | .error _ =>
    if IpnetV6.isV6 raw then
      [ruleError blockIdx ruleIdx ctx s!"{field} '{raw}' is not IPv4 (v1 is IPv4-only)"]
    else
      [ruleError blockIdx ruleIdx ctx s!"{field} '{raw}': invalid CIDR"]
  | .ok v4 =>
    match segment with
    | none     => []
    | some seg =>
      if seg.cidrs.any (·.contains v4) then []
      else [ruleError blockIdx ruleIdx ctx s!"{field} '{raw}' is not a subset of segment's CIDRs"]

def validateCidrs (field : String) (values : List String) (segment : Option SegmentDef) :
    List CompileError :=
  values.flatMap (validateCidr blockIdx ruleIdx ctx field segment)

def checkPortValue (n : Int) : List CompileError :=
  if n = 0 then
    [ruleError blockIdx ruleIdx ctx "port 0 is not valid (ports are 1-65535)"]
  else if ¬(1 ≤ n ∧ n ≤ 65535) then
    [ruleError blockIdx ruleIdx ctx s!"port {n} is out of range (ports are 1-65535)"]
  else
    []

def parseRange : String → Option (Int × Int) :=
  splitRange (Text.parseSigned 64)

-- The endpoints are checked left to right, and each check only if the ones before it passed.
def validatePort : PortSpec → List CompileError
  | .single n => checkPortValue blockIdx ruleIdx ctx n
  | .range s  =>
    match parseRange s with
    | none          =>
      [ruleError blockIdx ruleIdx ctx s!"port range '{s}' is malformed (expected \"lo-hi\")"]
    | some (lo, hi) =>
      match checkPortValue blockIdx ruleIdx ctx lo, checkPortValue blockIdx ruleIdx ctx hi with
      | [], []  =>
        if lo > hi then
          [ruleError blockIdx ruleIdx ctx s!"port range '{s}' invalid: lo > hi ({lo} > {hi})"]
        else
          []
      | [], es  => es
      | es, _   => es

def validatePorts (body : RuleBody) : List CompileError :=
  match body.proto with
  | none | some "tcp" | some "udp" | some "icmp" =>
    if body.ports.isEmpty then []
    else
      match body.proto with
      | some "tcp" | some "udp" => body.ports.flatMap (validatePort blockIdx ruleIdx ctx)
      | _ => [ruleError blockIdx ruleIdx ctx "ports require proto tcp|udp"]
  | some other =>
    [ruleError blockIdx ruleIdx ctx
      s!"invalid proto '{other}' (must be tcp, udp, icmp, or omitted)"]

def validateRule (fromSeg toSeg : Option SegmentDef) (rule : RuleSrc) : List CompileError :=
  match rule.allow, rule.deny with
  | some body, none | none, some body =>
    validateCidrs blockIdx ruleIdx ctx "src" body.src fromSeg ++
    validateCidrs blockIdx ruleIdx ctx "dst" body.dst toSeg ++
    validatePorts blockIdx ruleIdx ctx body
  | none, none =>
    [ruleError blockIdx ruleIdx ctx "rule needs exactly one of allow/deny"]
  | some _, some _ =>
    [ruleError blockIdx ruleIdx ctx "rule needs exactly one of allow/deny (both present)"]

end Rule

section Block

variable (blockIdx : Nat) (ctx : String)

def blockError (msg : String) : CompileError :=
  { block := some blockIdx, rule := none, msg := ctx ++ " " ++ msg }

def validateSegment (side name : String) : Option SegmentDef → List CompileError
  | none     => [blockError blockIdx ctx s!"unknown segment '{name}' in {side}"]
  | some seg =>
    if seg.cidrs.isEmpty then
      [blockError blockIdx ctx (s!"segment '{name}' referenced in {side} has no CIDRs " ++
        "(a segment's cidrs list must not be empty)")]
    else
      []

-- The first block of every pair seen so far.
abbrev SeenPairs := List ((String × String) × Nat)

def validatePair (seen : SeenPairs) (block : BlockSrc) : List CompileError × SeenPairs :=
  match seen.lookup (block.fromName, block.toName) with
  | some original =>
    let src := block.fromName
    let dst := block.toName
    ([blockError blockIdx ctx (s!"duplicate block for ordered (from, to) pair '{src}' → '{dst}' " ++
      s!"(pair first defined at block {original})")], seen)
  | none          => ([], ((block.fromName, block.toName), blockIdx) :: seen)

end Block

variable [Ipnet] [IpnetV6]

def blockCtx (block : BlockSrc) : String :=
  "(" ++ block.fromName ++ "→" ++ block.toName ++ ")"

def validateBlock (segments : List SegmentDef) (blockIdx : Nat) (seen : SeenPairs)
    (block : BlockSrc) : List CompileError × SeenPairs :=
  let ctx := blockCtx block
  let fromSeg := findSegment segments block.fromName
  let toSeg := findSegment segments block.toName
  let (pairErrors, seen) := validatePair blockIdx ctx seen block
  let errors :=
    validateSegment blockIdx ctx "from" block.fromName fromSeg ++
    validateSegment blockIdx ctx "to" block.toName toSeg ++
    pairErrors ++
    (block.rules.zipIdx.flatMap fun (rule, ruleIdx) =>
      validateRule blockIdx ruleIdx ctx fromSeg toSeg rule)
  (errors, seen)

def validate.go (segments : List SegmentDef) :
    Nat → SeenPairs → List BlockSrc → List CompileError
  | _, _, []                        => []
  | blockIdx, seen, block :: blocks =>
    let (errors, seen) := validateBlock segments blockIdx seen block
    errors ++ validate.go segments (blockIdx + 1) seen blocks

def validate (doc : PolicyDoc) (segments : List SegmentDef) : List CompileError :=
  validate.go segments 0 [] doc.policy

-- A document that passed validation against a segment table.
structure PolicySource (segments : List SegmentDef) where
  doc : PolicyDoc
  valid : validate doc segments = []

-- `fromYaml` is the YAML reader: it yields the document, or the text of its error.
def parsePolicy (fromYaml : String → Except String PolicyDoc) (yaml : String)
    (segments : List SegmentDef) : Except (List CompileError) (PolicySource segments) :=
  match fromYaml yaml with
  | .error e => .error [{ block := none, rule := none, msg := s!"YAML parse error: {e}" }]
  | .ok doc  =>
    match h : validate doc segments with
    | []     => .ok ⟨doc, h⟩
    | errors => .error errors

end Policy
