import WireMesh.Controller.Service

-- The service that turns a token into a gateway or a relay.
namespace Controller

open Policy Handler

-- The decoder that an enrolling gateway's key is checked with. It takes the letters of its alphabet
-- and no others.
class Base64 where
  decode : String → Option (List (BitVec 8))
  alphabet : (decode s).isSome → ∀ c ∈ s.toList, c.isAlphanum ∨ c = '+' ∨ c = '/' ∨ c = '='

-- What the certificate issuer answers to an enrollment.
structure Issuance where
  validCsr : Except String Unit
  trustBundle : Except String Unit
  signed : Except String Unit
  serial : String
  handle : String

structure EnrollRequest where
  token : String
  csrPem : String
  cidrs : List String
  endpoint : String
  wgPubkey : String
  now : String
  observeKey : String
  issuance : Issuance

namespace Enrollment

def parseTokenSecret (token : String) : Option String := do
  let afterHash := (← Text.splitOnce '#' token.toList).2
  let afterTok ← if "tok_".toList.isPrefixOf afterHash then some (afterHash.drop 4) else none
  let secret := (← Text.splitOnce '@' afterTok).1
  if secret.isEmpty then none else some (String.ofList secret)

def hexValue (b : BitVec 8) : Option (BitVec 8) :=
  if 0x30#8 ≤ b ∧ b ≤ 0x39#8 then some (b - 0x30#8)
  else if 0x61#8 ≤ b ∧ b ≤ 0x66#8 then some (b - 0x57#8)
  else if 0x41#8 ≤ b ∧ b ≤ 0x46#8 then some (b - 0x37#8)
  else none

def hexDecode : List (BitVec 8) → Option (List (BitVec 8))
  | []              => some []
  | [_]             => none
  | hi :: lo :: rest => do
    let hi ← hexValue hi
    let lo ← hexValue lo
    return (hi <<< 4 ||| lo) :: (← hexDecode rest)

-- All that is known of a token from here on is the hash of its secret.
def secretHash [Sha256] (token : String) : Option String := do
  let secret ← hexDecode (Text.bytesOf (← parseTokenSecret token))
  return hexEncode (Sha256.digest secret)

def refused (e : EnrollError) : Status :=
  match e with
  | .invalidToken =>
    ⟨.permissionDenied, "enrollment token is invalid, expired, wrong kind, or already used"⟩
  | .noMatchingSegment =>
    ⟨.failedPrecondition, "no segment is registered for the declared cidrs"⟩
  | .boundCidrMismatch =>
    ⟨.permissionDenied, "declared cidrs are outside this token's authorized scope"⟩
  | .segmentAlreadyBound =>
    ⟨.alreadyExists, "segment already has an active gateway; use a rebind token to replace it"⟩
  | .other e => internal "enrollment failed" e

def relayRefused (e : EnrollError) : Status :=
  match e with
  | .invalidToken =>
    ⟨.permissionDenied, "enrollment token is invalid, expired, wrong kind, or already used"⟩
  | .noMatchingSegment   => internal "relay enrollment failed" "NoMatchingSegment"
  | .boundCidrMismatch   => internal "relay enrollment failed" "BoundCidrMismatch"
  | .segmentAlreadyBound => internal "relay enrollment failed" "SegmentAlreadyBound"
  | .other e             => internal "relay enrollment failed" e

-- A relay's certificate is signed before its token is spent.
def enrollRelay (req : EnrollRequest) (secretHash : String) : Rpc Nat := do
  if (Text.parseSocketAddrV4 req.endpoint.toList).isNone then
    throw ⟨.invalidArgument, "relay endpoint must be a valid IPv4 ip:port"⟩
  orStatus (fun e => ⟨.invalidArgument, s!"signing CSR failed: {e}"⟩) req.issuance.signed
  orStatus (internal "reading trust bundle") req.issuance.trustBundle
  let relayId ← orStatus relayRefused (← commit <| .enrollRelay secretHash
    ("relay-" ++ secretHash) req.endpoint req.issuance.serial req.issuance.handle req.now)
  emitRelaysChanged
  return relayId

-- The new gateway is looked up by its name, and announced if it is still active and can be read.
def announce (gatewayName : String) (revokedSerials : List String) : Handler Unit := do
  match ← ask (.findGatewayByName gatewayName) with
  | .ok (some identity) =>
    match ← ask (.cidrsForSegment identity.segmentId) with
    | .ok allowedIps =>
      match ← ask .currentRevision with
      | .ok revision =>
        publish <|
          .gatewayEnrolled identity.id identity.segmentName allowedIps revokedSerials revision
      | .error _ => pure ()
    | .error _ => pure ()
  | _ => pure ()

-- A gateway's certificate is signed after its token is spent. If that fails, nothing is announced.
def enrollGateway (req : EnrollRequest) (secretHash : String) (cidrs : List Ipv4Net) :
    Rpc (Nat × String) := do
  let gatewayName := "gw-" ++ secretHash
  orStatus (fun e => ⟨.invalidArgument, s!"signing CSR failed: {e}"⟩) req.issuance.validCsr
  orStatus (internal "reading trust bundle") req.issuance.trustBundle
  let outcome ← orStatus refused (← commit <| .enrollGateway
    { secretHash, cidrs, gatewayName, wgPubkey := req.wgPubkey
      certSerial := req.issuance.serial, issuerHandle := req.issuance.serial
      observeKey := req.observeKey, now := req.now })
  orStatus (internal "signing gateway leaf failed") req.issuance.signed
  announce gatewayName outcome.revokedSerials
  return (outcome.gatewayId, outcome.observeKey)

-- A request with an endpoint is a relay's, any other a gateway's.
def enroll [Ipnet] [Sha256] [Base64] (req : EnrollRequest) : Rpc (Nat × String) := do
  if req.csrPem.isEmpty then throw ⟨.invalidArgument, "csr_pem must not be empty"⟩
  let some secretHash := secretHash req.token |
    throw ⟨.permissionDenied, "invalid enrollment token"⟩
  let bad (c e : String) := "invalid IPv4 CIDR " ++ Text.debugStr c ++ s!": {e}"
  let cidrs ← orStatus id (parseCidrs bad req.cidrs)
  if !req.endpoint.isEmpty then return (← enrollRelay req secretHash, "")
  if cidrs.isEmpty then throw ⟨.invalidArgument, "cidrs must not be empty"⟩
  if !req.wgPubkey.isEmpty ∧ (Base64.decode req.wgPubkey).map (·.length) ≠ some 32 then
    throw ⟨.invalidArgument, "wg_pubkey must be base64 of exactly 32 bytes"⟩
  enrollGateway req secretHash cidrs

end Enrollment

end Controller
