import WireMesh.Controller.Tx

-- The transactions that redeem enrollment tokens.
namespace Controller

open Policy

inductive EnrollError
  | invalidToken
  | noMatchingSegment
  | boundCidrMismatch
  | segmentAlreadyBound
  | other (msg : String)
deriving DecidableEq

structure EnrollOutcome where
  segmentId : Nat
  gatewayId : Nat
  revokedIssuerHandles : List String
  revokedSerials : List String
  observeKey : String
deriving DecidableEq

def encodeBoundCidrs (cidrs : List String) : String :=
  ",".intercalate cidrs

def decodeBoundCidrs (stored : String) : List String :=
  if stored.isEmpty then [] else (stored.toList.splitOn ',').map String.ofList

-- What an enrolling gateway brings along. The serial and the observe key are drawn at random.
structure EnrollArgs where
  secretHash : String
  cidrs : List Ipv4Net
  gatewayName : String
  wgPubkey : String
  certSerial : String
  issuerHandle : String
  observeKey : String
  now : String

namespace Db

variable (db : Db)

def insertEnrollmentToken (token : TokenRow) : Except String Db :=
  if db.tokens.any (·.id = token.id) then .error "UNIQUE constraint failed: enrollment_token.id"
  else if ∃ s ∈ token.rebindSegmentId, ¬ db.segments.any (·.id = s) then
    .error "FOREIGN KEY constraint failed"
  else .ok { db with tokens := db.tokens ++ [token] }

-- A token that is unused and not expired. Instants are compared as text.
def redeemable (secretHash now : String) (kinds : List TokenKind) : Option TokenRow :=
  db.tokens.find? fun t =>
    t.secretHash = secretHash ∧ t.usedAt = none ∧ now < t.expiresAt ∧ t.kind ∈ kinds

def spendToken (tokenId now : String) : Db :=
  let tokens := db.tokens.map fun t =>
    if t.id = tokenId ∧ t.usedAt = none then { t with usedAt := some now } else t
  { db with tokens }

-- The declared CIDRs are exactly those that the token is bound to, and there are some.
def checkBoundCidrs [Ipnet] (boundCidrs : String) (cidrs : List Ipv4Net) :
    Except EnrollError Unit := do
  let bound ← (decodeBoundCidrs boundCidrs).mapM fun c =>
    match Ipnet.parse c with
    | .ok net  => .ok net
    | .error e =>
      .error (.other ("stored bound_cidr " ++ Text.debugStr c ++ s!" is not valid IPv4: {e}"))
  if bound ≠ [] ∧ bound ⊆ cidrs ∧ cidrs ⊆ bound then .ok () else .error .boundCidrMismatch

-- The one segment that owns every CIDR.
def segmentOfCidrs : Option Nat → List Ipv4Net → Except EnrollError (Option Nat)
  | seen, []      => .ok seen
  | seen, c :: cs =>
    match (db.cidrs.find? (·.cidr = c.display)).map (·.segmentId), seen with
    | none,   _      => .error .noMatchingSegment
    | some s, none   => segmentOfCidrs (some s) cs
    | some s, some t => if s ≠ t then .error .noMatchingSegment else segmentOfCidrs (some t) cs

def activeGatewaysOn (segmentId : Nat) : List Nat :=
  (db.gateways.filter fun g => g.segmentId = segmentId ∧ g.status = .active).map (·.id)

-- Every active gateway of the segment makes room. Yields their certificates too.
def replaceGateways (now : String) : List Nat → List CertificateRow × Db → List CertificateRow × Db
  | [],      acc         => acc
  | g :: gs, (certs, db) =>
    replaceGateways now gs (certs ++ db.unrevokedCerts g, db.withdraw g .replaced now)

-- A rebind token replaces what is active on the segment it names, any other needs the segment free.
def claimSegment (token : TokenRow) (segmentId : Nat) (now : String) :
    Except EnrollError (List CertificateRow × Db) :=
  if token.kind = .rebind then
    if token.rebindSegmentId ≠ some segmentId then .error .boundCidrMismatch
    else .ok (replaceGateways now (db.activeGatewaysOn segmentId) ([], db))
  else
    if db.activeGatewaysOn segmentId ≠ [] then .error .segmentAlreadyBound else .ok ([], db)

def addGateway (segmentId : Nat) (args : EnrollArgs) : Except EnrollError (Nat × Db) :=
  let id := nextId (db.gateways.map (·.id))
  if db.gateways.any (·.name = args.gatewayName) then
    .error (.other "UNIQUE constraint failed: gateway.name")
  else if db.certificates.any (·.serial = args.certSerial) then
    .error (.other "UNIQUE constraint failed: certificate.serial")
  else
    let gateway : GatewayRow :=
      { id, segmentId, name := args.gatewayName, status := .active, appliedVersion := none,
        observeKey := some args.observeKey, candidateEndpoint := none }
    let certificate : CertificateRow :=
      { serial := args.certSerial, subjectKind := .gateway, subjectId := id,
        issuerHandle := args.issuerHandle, revokedAt := none }
    let pubkey :=
      if args.wgPubkey.isEmpty then s!"placeholder-pubkey-gw{id}-epoch0" else args.wgPubkey
    .ok (id, { db with
      gateways     := db.gateways ++ [gateway]
      certificates := db.certificates ++ [certificate]
      keys         := db.keys ++ [{ gatewayId := id, epoch := 0, pubkey, state := .active }] })

def enrollGateway [Ipnet] (args : EnrollArgs) : Except EnrollError (EnrollOutcome × Db) := do
  if args.cidrs = [] then throw .noMatchingSegment
  let some token := db.redeemable args.secretHash args.now [.gateway, .rebind] |
    throw .invalidToken
  if token.kind ≠ .rebind then checkBoundCidrs token.boundCidrs args.cidrs
  let some segmentId ← db.segmentOfCidrs none args.cidrs | throw .noMatchingSegment
  let (certs, db) ← db.claimSegment token segmentId args.now
  let (gatewayId, db) ← db.addGateway segmentId args
  let outcome :=
    { segmentId, gatewayId, observeKey := args.observeKey
      revokedIssuerHandles := certs.map (·.issuerHandle)
      revokedSerials       := certs.map (·.serial) }
  return (outcome, (db.spendToken token.id args.now).bumpRevision)

def enrollRelay (secretHash relayName endpoint certSerial issuerHandle now : String) :
    Except EnrollError (Nat × Db) := do
  let some token := db.redeemable secretHash now [.relay] | throw .invalidToken
  if db.relays.any (·.name = relayName) then
    throw <| .other "UNIQUE constraint failed: relay.name"
  if db.certificates.any (·.serial = certSerial) then
    throw <| .other "UNIQUE constraint failed: certificate.serial"
  let id := nextId (db.relays.map (·.id))
  let relays := db.relays ++ [{ id, name := relayName, endpoint, status := .active }]
  let certificates := db.certificates ++
    [{ serial := certSerial, subjectKind := .relay, subjectId := id, issuerHandle, revokedAt := none }]
  return (id, ({ db with relays, certificates }.spendToken token.id now).bumpRevision)

end Db
end Controller
