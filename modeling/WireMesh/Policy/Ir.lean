import WireMesh.Policy.Net

namespace Policy

inductive IrAction
  | allow
  | deny
deriving DecidableEq

inductive IrProto
  | tcp
  | udp
  | icmp
  | any
deriving DecidableEq

abbrev Port := BitVec 16

-- An empty `src` or `dst` stands for the whole segment of the block, a port range is a pair of its
-- bounds.
structure IrRule where
  ruleId : String
  action : IrAction
  proto : IrProto
  src : List String
  dst : List String
  ports : List (Port × Port)
deriving DecidableEq

structure IrBlock where
  fromName : String
  toName : String
  srcCidrs : List String
  dstCidrs : List String
  rules : List IrRule
deriving DecidableEq

structure PolicyIR where
  schema : Nat
  version : Nat
  blocks : List IrBlock
deriving DecidableEq

end Policy
