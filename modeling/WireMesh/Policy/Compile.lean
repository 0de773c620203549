import WireMesh.Lib.Fields
import WireMesh.Policy.Ir
import WireMesh.Policy.Validate

namespace Policy

-- The digest of the hash crate.
class Sha256 where
  digest : List (BitVec 8) → List (BitVec 8)

def hexEncode (bytes : List (BitVec 8)) : String :=
  String.ofList (Text.writeHex bytes)

def IrAction.name : IrAction → String
  | allow => "allow"
  | deny  => "deny"

def IrProto.name : IrProto → String
  | tcp  => "tcp"
  | udp  => "udp"
  | icmp => "icmp"
  | any  => "any"

def portRangeText (p : Port × Port) : String :=
  toString p.1.toNat ++ "-" ++ toString p.2.toNat

def ruleIdPreimage (fromName toName : String) (rule : IrRule) : String :=
  fromName ++ "|" ++ toName ++ "|" ++ rule.action.name ++ "|" ++ rule.proto.name ++
  "|src=" ++ ",".intercalate rule.src ++ "|dst=" ++ ",".intercalate rule.dst ++
  "|ports=" ++ ",".intercalate (rule.ports.map portRangeText)

def ruleId [Sha256] (fromName toName : String) (rule : IrRule) : String :=
  hexEncode <| (Sha256.digest <| Text.bytesOf <| ruleIdPreimage fromName toName rule).take 8

def MAX_RULES : Nat := 256

def MAX_LPM_CIDRS_PER_SIDE : Nat := 1024

-- A call either reports errors to its caller or reaches an `expect` or `unreachable!`.
inductive Failure
  | errors (es : List CompileError)
  | panicked (msg : String)

def notValidated (what : String) : Failure :=
  .panicked s!"compile() requires an already-validated PolicySource: {what}"

variable [Ipnet] [Sha256]

-- Ascending by address and then by prefix length. The sort is stable, so only its keys matter.
def cidrLe (n m : Ipv4Net) : Bool :=
  decide (n.addr < m.addr) || (decide (n.addr = m.addr) && decide (n.prefixLen ≤ m.prefixLen))

def sortedCidrStrings (cidrs : List Ipv4Net) : List String :=
  (cidrs.mergeSort cidrLe).map Ipv4Net.display

def normalizedCidrStrings (raw : List String) : Except Failure (List String) :=
  raw.mapM fun s =>
    match Ipnet.parse s with
    | .ok n    => .ok n.display
    | .error _ => .error <| notValidated s!"invalid CIDR '{s}'"

def normalizePort : PortSpec → Except Failure (Port × Port)
  | .single n =>
    let p : Port := BitVec.ofInt 16 n
    .ok (p, p)
  | .range s  =>
    match Text.splitOnce '-' s.toList with
    | none          => .error <| notValidated s!"malformed port range '{s}'"
    | some (lo, hi) =>
      match Text.parseUnsigned 16 (Text.trim lo), Text.parseUnsigned 16 (Text.trim hi) with
      | some l, some h => .ok (BitVec.ofNat 16 l, BitVec.ofNat 16 h)
      | none, _        => .error <| .panicked ("invalid port '" ++ String.ofList lo ++ "'")
      | some _, none   => .error <| .panicked ("invalid port '" ++ String.ofList hi ++ "'")

def compileProto : Option String → Except Failure IrProto
  | none | some "any" => .ok .any
  | some "tcp"        => .ok .tcp
  | some "udp"        => .ok .udp
  | some "icmp"       => .ok .icmp
  | some other        => .error <| notValidated s!"unrecognized proto '{other}'"

def ruleAction (rule : RuleSrc) : Except Failure (IrAction × RuleBody) :=
  match rule.allow, rule.deny with
  | some body, none => .ok (.allow, body)
  | none, some body => .ok (.deny, body)
  | _, _            => .error <| notValidated "rule needs exactly one of allow/deny"

def compileRule (block : BlockSrc) (rule : RuleSrc) : Except Failure IrRule := do
  let (action, body) ← ruleAction rule
  let proto ← compileProto body.proto
  let src ← normalizedCidrStrings body.src
  let dst ← normalizedCidrStrings body.dst
  let ports ← body.ports.mapM normalizePort
  let irRule : IrRule := { ruleId := "", action, proto, src, dst, ports }
  return { irRule with ruleId := ruleId block.fromName block.toName irRule }

def compileBlock (segments : List SegmentDef) (block : BlockSrc) : Except Failure IrBlock :=
  match findSegment segments block.fromName, findSegment segments block.toName with
  | none, _ => .error <| notValidated "unknown `from` segment"
  | _, none => .error <| notValidated "unknown `to` segment"
  | some fromSeg, some toSeg => do
    let srcCidrs := sortedCidrStrings fromSeg.cidrs
    let dstCidrs := sortedCidrStrings toSeg.cidrs
    let rules ← block.rules.mapM (compileRule block)
    return { fromName := block.fromName, toName := block.toName, srcCidrs, dstCidrs, rules }

-- The number of table entries a rule explodes into: one if it has no port range.
def IrRule.entries (rule : IrRule) : Nat :=
  max rule.ports.length 1

def flattenedCount (blocks : List IrBlock) : Nat :=
  (blocks.flatMap (·.rules)).map IrRule.entries |>.sum

-- The side lists of a rule, with the fallback to the lists of its block.
def effectiveSrc (block : IrBlock) (rule : IrRule) : List String :=
  if rule.src.isEmpty then block.srcCidrs else rule.src

def effectiveDst (block : IrBlock) (rule : IrRule) : List String :=
  if rule.dst.isEmpty then block.dstCidrs else rule.dst

def distinctCount (side : IrBlock → IrRule → List String) (blocks : List IrBlock) : Nat :=
  (blocks.flatMap fun b => b.rules.flatMap (side b)).dedup.length

def limitError (msg : String) : CompileError :=
  { block := none, rule := none, msg }

def maxRulesErrors (blocks : List IrBlock) : List CompileError :=
  let count := flattenedCount blocks
  if count > MAX_RULES then
    [limitError (s!"policy flattens to {count} rules, exceeding the {MAX_RULES}-rule limit " ++
      "(MAX_RULES; see wiremesh_enforcer::flatten::MAX_RULES)")]
  else
    []

def lpmErrors (name : String) (side : IrBlock → IrRule → List String) (blocks : List IrBlock) :
    List CompileError :=
  let count := distinctCount side blocks
  if count > MAX_LPM_CIDRS_PER_SIDE then
    [limitError (s!"policy's {name} side resolves to {count} distinct CIDRs, exceeding " ++
      s!"the {MAX_LPM_CIDRS_PER_SIDE}-entry per-side eBPF LPM trie capacity " ++
      "(MAX_LPM_CIDRS_PER_SIDE; see wiremesh_enforcer_common::LPM_MAX_ENTRIES)")]
  else
    []

def limitErrors (blocks : List IrBlock) : List CompileError :=
  maxRulesErrors blocks ++ lpmErrors "src" effectiveSrc blocks ++ lpmErrors "dst" effectiveDst blocks

variable [IpnetV6] {segments : List SegmentDef}

-- The blocks `compile` has built when it comes to its limit checks.
def compileBlocks (src : PolicySource segments) : Except Failure (List IrBlock) :=
  src.doc.policy.mapM (compileBlock segments)

def compile (src : PolicySource segments) (version : Nat) : Except Failure PolicyIR := do
  let blocks ← compileBlocks src
  match limitErrors blocks with
  | []     => return { schema := 1, version, blocks }
  | errors => throw <| .errors errors

end Policy
