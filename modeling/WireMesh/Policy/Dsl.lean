import WireMesh.Policy.Net

namespace Policy

-- A segment of the controller's segment table.
structure SegmentDef where
  name : String
  cidrs : List Ipv4Net

inductive PortSpec
  | single (n : Int)
  | range (s : String)

structure RuleBody where
  src : List String
  dst : List String
  ports : List PortSpec
  proto : Option String

structure RuleSrc where
  allow : Option RuleBody
  deny : Option RuleBody

structure BlockSrc where
  fromName : String
  toName : String
  rules : List RuleSrc

structure PolicyDoc where
  policy : List BlockSrc

structure CompileError where
  block : Option Nat
  rule : Option Nat
  msg : String

-- The segment a name in a document resolves to.
def findSegment (segments : List SegmentDef) (name : String) : Option SegmentDef :=
  segments.find? (·.name == name)

-- The two endpoints of a `"lo-hi"` range, as the reader `parse` takes them.
def splitRange (parse : List Char → Option α) (s : String) : Option (α × α) := do
  let (lo, hi) ← Text.splitOnce '-' s.toList
  return (← parse (Text.trim lo), ← parse (Text.trim hi))

end Policy
