import WireMesh.Gateway.Ops

-- Keys, a configuration and states that examples of gateways share.
namespace Gateway.StandIn

def ownKey : String := "qqqqqqqqqqqqqqqqqqqqqqqqqqqqqqqqqqqqqqqqqqo="

def peerKey : String := "u7u7u7u7u7u7u7u7u7u7u7u7u7u7u7u7u7u7u7u7u7s="

def otherKey : String := "zMzMzMzMzMzMzMzMzMzMzMzMzMzMzMzMzMzMzMzMzMw="

def config : Config := ⟨"wg0", 51820, ownKey, ownKey⟩

def state (peers : List PeerState) : DesiredState where
  revision       := 1
  peers          := peers
  policyIr       := []
  policyVersion  := 0
  relays         := []
  revokedSerials := []

-- What a gateway is told that has no peers.
def alone : Controller.StateSnapshot where
  revision       := 1
  selfCertPem    := ""
  peers          := []
  relayInfos     := []
  policyIr       := []
  policyVersion  := 0
  revokedSerials := []

end Gateway.StandIn
