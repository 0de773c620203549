import WireMesh.Lib.Wire
import WireMesh.Policy.Compile

-- What a client and a relay say to each other.
namespace Relay

open Text Wire
open Policy (Sha256)

variable [Sha256]

def MAX_REGISTRATION_BYTES : Nat := 1024

-- A slot of the relay, for one end of a pair.
def registrationKey (myIdentity peerIdentity : String) : Bytes :=
  (Sha256.digest (beBytes 8 (bytesOf myIdentity).length ++ bytesOf myIdentity ++
    bytesOf peerIdentity)).take 8

def encodeRegistration (myIdentity peerIdentity : String) : Bytes :=
  beBytes 2 (bytesOf myIdentity).length ++ bytesOf myIdentity ++ bytesOf peerIdentity

inductive RegistrationError
  | tooShort (bytes : Nat)
  | truncated (myLen bytes : Nat)
  | myNotUtf8
  | peerNotUtf8
  | emptyIdentity (my peer : String)
deriving DecidableEq

def decodeRegistration (buf : Bytes) : Except RegistrationError (String × String) := do
  if buf.length < 2 then throw (.tooShort buf.length)
  let myLen := ofBeBytes (buf.take 2)
  if buf.length < 2 + myLen then throw (.truncated myLen (buf.length - 2))
  let some my := fromUtf8 ((buf.drop 2).take myLen) | throw .myNotUtf8
  let some peer := fromUtf8 (buf.drop (2 + myLen)) | throw .peerNotUtf8
  if my.isEmpty || peer.isEmpty then throw (.emptyIdentity my peer)
  return (my, peer)

-- A client that has been let in, bound to one peer.
structure Client where
  destKey : Bytes

namespace Client

def finishConnect (myIdentity peerIdentity : String) : Client where
  destKey := registrationKey peerIdentity myIdentity

def send (c : Client) (data : Bytes) : Bytes :=
  c.destKey ++ data

def recv (dgram : Bytes) : Option (Bytes × Bytes) :=
  if dgram.length < 8 then none else some (dgram.take 8, dgram.drop 8)

end Client
end Relay
