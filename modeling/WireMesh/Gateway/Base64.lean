import WireMesh.Gateway.KeyStore
import WireMesh.Gateway.Uapi

-- How a gateway prints its keys, and how it makes them.
namespace Gateway.Uapi

def B64 : List Char :=
  "ABCDEFGHIJKLMNOPQRSTUVWXYZabcdefghijklmnopqrstuvwxyz0123456789+/".toList

-- The letter of the lowest six bits.
def b64Char (n : BitVec 32) : Char :=
  B64.get (Fin.ofNat 64 (n &&& 63).toNat)

def base64Group (chunk : List (BitVec 8)) : List Char :=
  let byte (i : Nat) : BitVec 32 := (chunk.getD i 0).setWidth 32
  let n := byte 0 <<< 16 ||| byte 1 <<< 8 ||| byte 2
  [ b64Char (n >>> 18),
    b64Char (n >>> 12),
    if chunk.length > 1 then b64Char (n >>> 6) else '=',
    if chunk.length > 2 then b64Char n else '=' ]

def base64Encode (input : List (BitVec 8)) : String :=
  String.ofList ((input.toChunks 3).flatMap base64Group)

-- The curve that takes a private key to its public key.
class X25519 where
  publicKey : Key → Key
  length_publicKey : ∀ key : Key, (publicKey key).length = 32

def base64PubFromPriv [X25519] (privB64 : String) : Except String String := do
  let some raw := base64Decode privB64 | throw "invalid base64 char"
  if raw.length ≠ 32 then throw "private key must be 32 bytes"
  return base64Encode (X25519.publicKey raw)

-- A new key is made of 32 random bytes.
def generatedKey [X25519] (raw : Key) : KeyDraw :=
  let privateKeyB64 := base64Encode raw
  { privateKeyB64, pubkeyB64 := (base64PubFromPriv privateKeyB64).toOption }

end Gateway.Uapi
