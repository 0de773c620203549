import WireMesh.Gateway.Path
import WireMesh.Gateway.Uapi

-- How a gateway wakes a peer: the addresses that it sends packets to.
namespace Gateway.Punch

-- The host of one CIDR. The prefix is read as a number of 32 bits, where validation reads one of 8.
def nudgeHost (cidr : String) : Option (BitVec 32) := do
  let (ip, len) ← Text.splitOnce '/' cidr.toList
  let addr ← Text.parseIpv4Addr ip
  let len ← Text.parseUnsigned 32 len
  if len > 32 then none
  else if len = 0 then none
  else if len = 32 then some addr
  else
    let network := addr &&& (BitVec.allOnes 32 <<< (32 - len))
    some (network + 1)

-- CIDRs without a host are passed over.
def nudgeTarget (allowedIps : List String) : Option (BitVec 32) :=
  allowedIps.findSome? nudgeHost

def firstHostOf (cidr : String) : Option String := do
  let (ip, len) ← Text.splitOnce '/' cidr.toList
  let addr ← Text.parseIpv4Addr ip
  let len ← Text.parseUnsigned 32 len
  if len > 32 then none
  else
    let mask := if len = 0 then 0#32 else BitVec.allOnes 32 <<< (32 - len)
    let network := addr &&& mask
    some (String.ofList (Text.ipv4Chars (network + 1)))

end Gateway.Punch
