import WireMesh.Lib.SocketAddr

-- The requests that a gateway makes to a device.
namespace Gateway

namespace Uapi

def base64Val (c : BitVec 8) : Option (BitVec 32) :=
  if 0x41#8 ≤ c ∧ c ≤ 0x5a#8 then some ((c - 0x41#8).setWidth 32)
  else if 0x61#8 ≤ c ∧ c ≤ 0x7a#8 then some ((c - 0x61#8 + 26).setWidth 32)
  else if 0x30#8 ≤ c ∧ c ≤ 0x39#8 then some ((c - 0x30#8 + 52).setWidth 32)
  else if c = 0x2b#8 then some 62
  else if c = 0x2f#8 then some 63
  else none

def isAsciiWhitespace (c : BitVec 8) : Bool :=
  c = 0x20#8 || c = 0x09#8 || c = 0x0a#8 || c = 0x0c#8 || c = 0x0d#8

-- One, two or three bytes of at most four letters. A letter on its own counts for a byte too.
def base64Chunk (chunk : List (BitVec 8)) : Option (List (BitVec 8)) := do
  let vals ← chunk.mapM base64Val
  let n := vals.zipIdx.foldl (fun (n : BitVec 32) (v, i) => n ||| v <<< (18 - 6 * i)) 0
  let bytes := [(n >>> 16).setWidth 8, (n >>> 8).setWidth 8, n.setWidth 8]
  return bytes.take (if chunk.length > 3 then 3 else if chunk.length > 2 then 2 else 1)

def base64Decode (s : String) : Option (List (BitVec 8)) := do
  let bytes := (Text.bytesOf s).filter fun c => c ≠ 0x3d#8 ∧ !isAsciiWhitespace c
  return (← (bytes.toChunks 4).mapM base64Chunk).flatten

-- Whether a key can be written to the device, as its 32 bytes.
def pubkeyDecodes (b64 : String) : Bool :=
  (base64Decode b64).any (·.length = 32)

def isDialableEndpoint (ep : String) : Bool :=
  (Text.parseSocketAddrV4 ep.toList).isSome

def isValidIpv4Cidr (cidr : String) : Bool :=
  match Text.splitOnce '/' cidr.toList with
  | none           => false
  | some (ip, len) =>
    (Text.parseIpv4Addr ip).isSome && (Text.parseUnsigned 8 len).any (· ≤ 32)

def PERSISTENT_KEEPALIVE_SECS : Nat := 25

structure PeerConfig where
  publicKeyB64 : String
  endpoint : Option String
  allowedIps : List String
  keepaliveSecs : Nat
deriving DecidableEq

structure DeviceConfig where
  privateKeyB64 : String
  listenPort : Nat
  peers : List PeerConfig
deriving DecidableEq

abbrev Key := List (BitVec 8)

inductive Error
  | invalidBase64
  | keyLength (bytes : Nat)
  | invalidEndpoint (ep : String)
  | invalidCidr (cidr : String)
deriving DecidableEq

def keyOfB64 (b64 : String) : Except Error Key :=
  match base64Decode b64 with
  | none     => .error .invalidBase64
  | some raw => if raw.length = 32 then .ok raw else .error (.keyLength raw.length)

-- The lines of a request to a device. A key is written in hexadecimal digits, two for each byte.
inductive Line
  | privateKey (key : Key)
  | listenPort (port : Nat)
  | replacePeers
  | publicKey (key : Key)
  | remove
  | endpoint (ep : String)
  | replaceAllowedIps
  | allowedIp (cidr : String)
  | persistentKeepaliveInterval (secs : Nat)
deriving DecidableEq

abbrev Body := List Line

def validateIpv4Endpoint (ep : String) : Except Error Unit :=
  if isDialableEndpoint ep then .ok () else .error (.invalidEndpoint ep)

def validateIpv4Cidr (cidr : String) : Except Error Unit :=
  if isValidIpv4Cidr cidr then .ok () else .error (.invalidCidr cidr)

def peerBlock (p : PeerConfig) : Except Error Body := do
  p.endpoint.forM validateIpv4Endpoint
  p.allowedIps.forM validateIpv4Cidr
  let key ← keyOfB64 p.publicKeyB64
  return .publicKey key :: p.endpoint.toList.map .endpoint ++
    .replaceAllowedIps :: p.allowedIps.map .allowedIp ++
    [.persistentKeepaliveInterval p.keepaliveSecs]

def encodeAddPeers (peers : List PeerConfig) : Except Error Body := do
  return (← peers.mapM peerBlock).flatten

def encodeSet (cfg : DeviceConfig) : Except Error Body := do
  let key ← keyOfB64 cfg.privateKeyB64
  return [.privateKey key, .listenPort cfg.listenPort, .replacePeers] ++
    (← encodeAddPeers cfg.peers)

def encodeRemovePeer (publicKeyB64 : String) : Except Error Body := do
  return [.publicKey (← keyOfB64 publicKeyB64), .remove]

def Line.isPublicKey : Line → Bool
  | publicKey _ => true
  | _           => false

-- The lines before the first peer, and whether there is no peer. In that case the empty line that ends
-- the request counts as a part of the header.
def deviceHeader (encoded : Body) : Body × Bool :=
  (encoded.takeWhile (!·.isPublicKey), encoded.all (!·.isPublicKey))

def rewriteListenPort (encoded : Body) (port : Nat) : Option Body :=
  let rewrite : Line → Line
    | .listenPort _ => .listenPort port
    | line          => line
  let header := (deviceHeader encoded).1
  if header.any (fun | .listenPort _ => true | _ => false) then
    some (header.map rewrite ++ encoded.drop header.length)
  else none

end Uapi

-- What a device holds, and how it takes a request. The device is boringtun's and no part of the source,
-- so this is assumed of it: that it reads the lines in their order, that it tells a peer by its key alone,
-- and that it panics where the source says so.
namespace Device

open Uapi

structure Peer where
  key : Key
  endpoint : Option String := none
  allowedIps : List String := []
  keepalive : Nat := 0
deriving DecidableEq

end Device

structure Device where
  privateKey : Uapi.Key
  listenPort : Nat
  peers : List Device.Peer := []
deriving DecidableEq

namespace Device

open Uapi

-- The peer whose lines are being read, and whether it is to go.
structure Update where
  peer : Peer
  remove : Bool := false

-- A device panics when it is told of a peer that it has, other than to remove it.
def updatePeer (d : Device) (u : Update) : Option Device :=
  if u.remove then some { d with peers := d.peers.filter (·.key ≠ u.peer.key) }
  else if d.peers.any (·.key = u.peer.key) then none
  else some { d with peers := d.peers ++ [u.peer] }

def finish (d : Device) (u : Option Update) : Option Device :=
  match u with
  | none   => some d
  | some u => d.updatePeer u

def Update.line (u : Update) : Line → Update
  | .remove                           => { u with remove := true }
  | .endpoint ep                      => { u with peer.endpoint := some ep }
  | .replaceAllowedIps                => { u with peer.allowedIps := [] }
  | .allowedIp cidr                   => { u with peer.allowedIps := u.peer.allowedIps ++ [cidr] }
  | .persistentKeepaliveInterval secs => { u with peer.keepalive := secs }
  | _                                 => u

def apiSet (d : Device) (u : Option Update) : Body → Option Device
  | []                      => d.finish u
  | .publicKey key :: rest  => (d.finish u).bind (·.apiSet (some ⟨{ key }, false⟩) rest)
  | .privateKey key :: rest => apiSet { d with privateKey := key } u rest
  | .listenPort port :: rest => apiSet { d with listenPort := port } u rest
  | .replacePeers :: rest   => apiSet { d with peers := [] } u rest
  | line :: rest            => d.apiSet (u.map (·.line line)) rest

-- What becomes of a device by a request, or that it panics.
def set (d : Device) (body : Body) : Option Device :=
  d.apiSet none body

end Device
end Gateway
