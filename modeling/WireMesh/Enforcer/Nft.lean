import WireMesh.Enforcer.Flatten
import WireMesh.Lib.Script
import WireMesh.Policy.Semantics

-- The second backend: the flattened policy is printed as a script that replaces a table of nft.
namespace Enforcer

open Policy

-- A byte beyond ASCII is never accepted, so the bytes can be read as characters.
def isIfaceChar (c : Char) : Bool :=
  c.isAlphanum || c == '_' || c == '.' || c == '-'

def validateIface (iface : String) : Except String Unit :=
  if iface.isEmpty ∨ iface.utf8ByteSize > 15 ∨ !iface.toList.all isIfaceChar ∨
      iface.toList.head? = some '-' ∨ iface.toList.head? = some '.' then
    .error ("invalid interface name " ++ Text.debugStr iface ++
      ": must be 1-15 bytes of [A-Za-z0-9_.-] and must not start with '-' or '.'")
  else
    .ok ()

inductive L4Proto
  | tcp
  | udp
  | icmp
deriving DecidableEq

namespace L4Proto

def text : L4Proto → String
  | tcp  => "tcp"
  | udp  => "udp"
  | icmp => "icmp"

def num : L4Proto → BitVec 8
  | tcp  => 6
  | udp  => 17
  | icmp => 1

end L4Proto

-- The clause of a rule that is about the transport layer.
inductive ProtoMatch
  | l4proto (proto : L4Proto)
  | dport (proto : L4Proto) (lo hi : Port)
deriving DecidableEq

def portText (p : Port) : String :=
  toString p.toNat

def protoMatch (proto : L4Proto) (portLo portHi : Port) : ProtoMatch :=
  if portLo = 0 ∧ portHi = 0 then .l4proto proto else .dport proto portLo portHi

def ProtoMatch.text : ProtoMatch → String
  | l4proto proto     => "meta l4proto " ++ proto.text
  | dport proto lo hi =>
    if lo = hi then proto.text ++ " dport \x7b " ++ portText lo ++ " \x7d"
    else proto.text ++ " dport \x7b " ++ portText lo ++ "-" ++ portText hi ++ " \x7d"

-- One line of the chain that filters what comes from the fabric.
structure NftRule where
  saddr : List Ipv4Net
  daddr : List Ipv4Net
  pm : ProtoMatch
  ruleId : String
  action : IrAction
deriving DecidableEq

def cidrSet (cidrs : List Ipv4Net) : String :=
  "\x7b " ++ String.intercalate ", " (cidrs.map (·.display)) ++ " \x7d"

def verdictText : IrAction → String
  | .allow => "accept"
  | .deny  => "drop"

def NftRule.line (r : NftRule) : String :=
  "    ip saddr " ++ cidrSet r.saddr ++ " ip daddr " ++ cidrSet r.daddr ++ " " ++ r.pm.text ++
  " counter name \"r_" ++ r.ruleId ++ "\" " ++ verdictText r.action

def concreteProtos : IrProto → List L4Proto
  | .tcp  => [.tcp]
  | .udp  => [.udp]
  | .icmp => [.icmp]
  | .any  => [.tcp, .udp, .icmp]

-- A line for each concrete protocol. The one for icmp never names a port.
def ruleLines (f : FlatRule) : List NftRule :=
  (concreteProtos f.proto).map fun proto =>
    let (lo, hi) := if proto = .icmp then (0, 0) else (f.portLo, f.portHi)
    { saddr := f.srcCidrs, daddr := f.dstCidrs, pm := protoMatch proto lo hi,
      ruleId := f.ruleId, action := f.action }

def writeRuleLines (f : FlatRule) : List String :=
  (ruleLines f).map (·.line)

-- The rules of the chain, without the lines around them.
def fromFabric (flat : List FlatRule) : List NftRule :=
  flat.flatMap ruleLines

-- The distinct identifiers in order of first appearance.
def ruleIds (flat : List FlatRule) : List String :=
  flat.foldl (fun ids f => if f.ruleId ∈ ids then ids else ids ++ [f.ruleId]) []

def tableName (iface : String) : String :=
  "wiremesh_" ++ iface

def hookLine (iface hook : String) : String :=
  "  chain " ++ hook ++ " \x7b type filter hook " ++ hook ++
  " priority 0; policy accept; iifname \"" ++ iface ++ "\" jump from_fabric; \x7d"

def rulesetLines (flat : List FlatRule) (iface : String) : List String :=
  ["table ip " ++ tableName iface,
   "flush table ip " ++ tableName iface,
   "table ip " ++ tableName iface ++ " \x7b"] ++
  (ruleIds flat).map (fun id => "  counter r_" ++ id ++ " \x7b\x7d") ++
  ["  counter default_deny \x7b\x7d",
   "  chain from_fabric \x7b",
   "    ct state established,related counter accept"] ++
  flat.flatMap writeRuleLines ++
  ["    counter name \"default_deny\" drop",
   "  \x7d",
   hookLine iface "input",
   hookLine iface "forward",
   "\x7d"]

def ruleset [Ipnet] (ir : PolicyIR) (iface : String) : Except String String := do
  validateIface iface
  let flat ← flatten ir
  return String.join ((rulesetLines flat iface).map (· ++ "\n"))

-- What nft makes of the chain: a rule applies where all of its clauses match, the first that applies
-- decides, and the last line drops the rest.
namespace ProtoMatch

def covers : ProtoMatch → Packet → Bool
  | l4proto proto, pkt     => decide (pkt.proto = proto.num)
  | dport proto lo hi, pkt =>
    decide (pkt.proto = proto.num) && decide (lo ≤ pkt.dport) && decide (pkt.dport ≤ hi)

end ProtoMatch

def NftRule.covers (r : NftRule) (pkt : Packet) : Bool :=
  r.saddr.any (·.containsAddr pkt.src) && r.daddr.any (·.containsAddr pkt.dst) && r.pm.covers pkt

-- A packet of an established or related connection never gets to the rules.
def nftVerdict (flat : List FlatRule) (established : Bool) (pkt : Packet) : IrAction :=
  if established then .allow
  else (((fromFabric flat).find? (·.covers pkt)).map (·.action)).getD .deny

end Enforcer
