import WireMesh.Lib.Fields
import WireMesh.Gateway.Rotation

-- What the retirement of an epoch waits for, peer by peer, in the words of the device.
namespace Gateway

def Uapi.pubkeyB64ToHex (b64 : String) : Option String := do
  let raw ← base64Decode b64
  guard (raw.length = 32)
  return String.ofList (Text.writeHex raw)

def newEpochWatches : List (Nat × String) → Bool → Option DesiredState → HashMap Nat String →
    List (Nat × EpochWatch String) :=
  epochWatches Uapi.pubkeyB64ToHex

end Gateway
