import Mathlib
import WireMesh.Lib.Wire
import WireMesh.Policy.Compile

-- Which clients a relay turns away because their certificate has been revoked.
namespace Relay

open Policy (hexEncode)

abbrev Denylist := Finset String

namespace Denylist

def contains (denylist : Denylist) (serialHex : String) : Bool :=
  serialHex ∈ denylist

def replaceAll (serials : List String) : Denylist :=
  serials.toFinset

def union (denylist : Denylist) (serials : List String) : Denylist :=
  serials.foldl (fun set s => insert s set) denylist

end Denylist

-- The messages of the controller. Those that carry no serials are all alike here.
inductive Body
  | snapshot (revokedSerials : List String)
  | delta (revokedSerials : List String)
  | other

-- The denylist in use, and the one in the file that the next start reads.
structure Revocations where
  denylist : Denylist
  file : Option Denylist

namespace Revocations

def load (file : Option Denylist) : Revocations :=
  ⟨file.getD ∅, file⟩

-- A failure to write the file is reported, and the new denylist is used all the same.
def update (denylist : Denylist) (persists : Bool) (r : Revocations) : Revocations :=
  ⟨denylist, if persists then some denylist else r.file⟩

def receive (r : Revocations) : Body × Bool → Revocations
  | (.snapshot serials, persists) => r.update (Denylist.replaceAll serials) persists
  | (.delta serials, persists)    =>
    if serials.isEmpty then r else r.update (r.denylist.union serials) persists
  | (.other, _)                   => r

-- All messages since the start, over any number of connections to the controller.
def runSync (r : Revocations) (messages : List (Body × Bool)) : Revocations :=
  messages.foldl receive r

end Revocations

-- The content of the `INTEGER` for a serial: as short as can be, with a zero in front of a high bit.
def derContent (serial : Bytes) : Bytes :=
  match serial.dropWhile (· = 0) with
  | []        => [0]
  | b :: rest => if b.msb then 0 :: b :: rest else b :: rest

def extractSerialHex (raw : Bytes) : Except String String :=
  let content := if raw.length = 17 ∧ raw.head? = some 0 then raw.tail else raw
  if content.length > 16 then
    .error s!"cert serial DER content longer than 16 bytes: {content.length}"
  else
    .ok <| hexEncode (List.replicate (16 - content.length) 0 ++ content)

inductive TlsError
  | chain (msg : String)
  | general (msg : String)
  | revoked
deriving DecidableEq

-- What the inner verifier says about the chain of a certificate, and what is parsed as its serial.
structure ClientCert where
  chain : Except String Unit
  rawSerial : Except String Bytes

def verifyClientCert (denylist : Denylist) (cert : ClientCert) : Except TlsError Unit := do
  cert.chain.mapError .chain
  let unread (e : String) := TlsError.general s!"denylist: could not read client cert serial: {e}"
  let raw ← cert.rawSerial.mapError fun e =>
    unread s!"parsing end-entity cert DER for serial: {e}"
  let serialHex ← (extractSerialHex raw).mapError unread
  if denylist.contains serialHex then throw .revoked

-- The serials the authority can draw.
abbrev Serial := { bytes : Bytes // bytes.length = 16 }

-- What the authority signs, with a chain that holds, and what the controller keeps of it.
def issued (serial : Serial) : ClientCert :=
  ⟨.ok (), .ok (derContent serial)⟩

def recorded (serial : Serial) : String :=
  hexEncode serial

end Relay
