import WireMesh.Policy.Ir
import WireMesh.Policy.Validate

-- What a policy document says about a packet: blocks and their rules are gone through as they are
-- written, and the first rule that selects the packet decides. Nothing else is let through.
namespace Policy

structure Packet where
  src : Ipv4Addr
  dst : Ipv4Addr
  proto : BitVec 8
  dport : Port
deriving DecidableEq

def PortSpec.contains (port : Port) : PortSpec → Bool
  | single n => decide ((port.toNat : Int) = n)
  | range s  =>
    match parseRange s with
    | some (lo, hi) => decide (lo ≤ (port.toNat : Int) ∧ (port.toNat : Int) ≤ hi)
    | none          => false

variable [Ipnet]

def textContains (addr : Ipv4Addr) (raw : String) : Bool :=
  match Ipnet.parse raw with
  | .ok net  => net.containsAddr addr
  | .error _ => false

-- An omitted side is the whole segment.
def sideSelects (written : List String) (segment : SegmentDef) (addr : Ipv4Addr) : Bool :=
  if written.isEmpty then segment.cidrs.any (·.containsAddr addr)
  else written.any (textContains addr)

-- An omitted protocol is tcp, udp or icmp.
def protoTextSelects : Option String → BitVec 8 → Bool
  | none,        n => decide (n = 1 ∨ n = 6 ∨ n = 17)
  | some "tcp",  n => decide (n = 6)
  | some "udp",  n => decide (n = 17)
  | some "icmp", n => decide (n = 1)
  | some _,      _ => false

def RuleBody.selects (body : RuleBody) (fromSeg toSeg : SegmentDef) (pkt : Packet) : Bool :=
  sideSelects body.src fromSeg pkt.src && sideSelects body.dst toSeg pkt.dst &&
  protoTextSelects body.proto pkt.proto &&
  (body.ports.isEmpty || body.ports.any (·.contains pkt.dport))

-- What a rule says, if it selects the packet.
def RuleSrc.verdict (rule : RuleSrc) (fromSeg toSeg : SegmentDef) (pkt : Packet) : Option IrAction :=
  match rule.allow, rule.deny with
  | some body, none => if body.selects fromSeg toSeg pkt then some .allow else none
  | none, some body => if body.selects fromSeg toSeg pkt then some .deny else none
  | _, _            => none

def BlockSrc.verdict (block : BlockSrc) (segments : List SegmentDef) (pkt : Packet) :
    Option IrAction :=
  match findSegment segments block.fromName, findSegment segments block.toName with
  | some fromSeg, some toSeg => block.rules.findSome? (·.verdict fromSeg toSeg pkt)
  | _, _                     => none

def PolicyDoc.verdict (doc : PolicyDoc) (segments : List SegmentDef) (pkt : Packet) : IrAction :=
  (doc.policy.findSome? (·.verdict segments pkt)).getD .deny

end Policy
