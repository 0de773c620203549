import WireMesh.Controller.Ops

-- The services of the controller, as programs over its operations. What a service does between two of
-- its operations, the others do not see.
namespace Controller

open Policy

inductive Code
  | invalidArgument
  | permissionDenied
  | failedPrecondition
  | alreadyExists
  | notFound
  | internal
deriving DecidableEq

structure Status where
  code : Code
  msg : String
deriving DecidableEq

abbrev Handler := Prog CtlOp.Resp

-- A call that may end with an error for its caller.
abbrev Rpc := ExceptT Status Handler

def internal (context : String) (e : String) : Status :=
  ⟨.internal, s!"{context}: {e}"⟩

-- The error of a step on the way, as the caller is told.
def orStatus (status : ε → Status) : Except ε α → Rpc α
  | .ok a    => pure a
  | .error e => throw (status e)

namespace Handler

def ask (q : Query) : Handler (Except String q.Resp) := Prog.perform <| CtlOp.query q
def commit (t : Tx) : Handler t.Resp := Prog.perform <| CtlOp.tx t
def publish (ev : ChangeEvent) : Handler Unit := Prog.perform <| CtlOp.publish ev
def now : Handler Instant := Prog.perform CtlOp.now

end Handler

open Handler

-- A query whose error ends the call.
def askOr (context : String) (q : Query) : Rpc q.Resp := do
  orStatus (internal context) (← ask q)

-- The shared end of all that changes the keys of a gateway: its facts are read again and published.
def emitKeyRotated (gatewayId : Nat) : Rpc Unit := do
  let some identity ←
    askOr "re-reading gateway after key change" (.gatewayIdentityById gatewayId) |
    throw ⟨.internal, s!"gateway {gatewayId} vanished immediately after a key-rotation mutation " ++
      "committed"⟩
  let allowedIps ←
    askOr "reading segment cidrs after key change" (.cidrsForSegment identity.segmentId)
  let (keys, revision) ← askOr "reading gateway keys after key change" (.keysSnapshot gatewayId)
  let candidateEndpoints ←
    askOr "reading gateway candidates after key change" (.candidatesFor gatewayId)
  publish <| .keyRotated
    { gatewayId, segmentName := identity.segmentName, allowedIps, keys, candidateEndpoints } revision

-- The candidates of a gateway have changed, in the transaction that went up to `revision`. Nothing is
-- published where a read fails.
def emitEndpointObserved (gatewayId revision : Nat) : Handler Unit := do
  match ← ask (.gatewayIdentityById gatewayId) with
  | .ok (some identity) =>
    let allowedIps ← ask (.cidrsForSegment identity.segmentId)
    let keys ← ask (.allKeysForGateway gatewayId)
    let candidateEndpoints ← ask (.candidatesFor gatewayId)
    match allowedIps, keys, candidateEndpoints with
    | .ok allowedIps, .ok keys, .ok candidateEndpoints =>
      publish <| .endpointObserved
        { gatewayId, segmentName := identity.segmentName, allowedIps, keys, candidateEndpoints }
        revision
    | _, _, _ => pure ()
  | _ => pure ()

def emitRelaysChanged : Handler Unit := do
  match ← ask .relaysSnapshot with
  | .ok (active, revision) => publish <| .relaysChanged (relayInfosOf active) revision
  | .error _               => pure ()

def contains (msg part : String) : Bool :=
  msg.toList.tails.any (part.toList.isPrefixOf ·)

def parseCidrs [Ipnet] (bad : String → String → String) (cidrs : List String) :
    Except Status (List Ipv4Net) :=
  cidrs.mapM fun c =>
    match Ipnet.parse c with
    | .ok net  => .ok net
    | .error e => .error ⟨.invalidArgument, bad c e⟩

namespace Admin

def createSegment [Ipnet] (name : String) (cidrs : List String) : Rpc Nat := do
  if name.isEmpty then throw ⟨.invalidArgument, "segment name must not be empty"⟩
  if cidrs.isEmpty then throw ⟨.invalidArgument, "cidrs must not be empty"⟩
  let bad (c e : String) := "invalid IPv4 CIDR " ++ Text.debugStr c ++ s!": {e}"
  let nets ← orStatus id (parseCidrs bad cidrs)
  orStatus (fun e => ⟨.alreadyExists, e⟩) (← commit <| .createSegment name (nets.map (·.trunc)))

def deleteSegment (segmentId : Nat) : Rpc Unit := do
  let status (e : String) : Status :=
    if contains e "no segment row" then ⟨.notFound, e⟩
    else if contains e "has associated gateway" then ⟨.failedPrecondition, e⟩
    else internal "deleting segment" e
  orStatus status (← commit <| .deleteSegment segmentId)

-- The id, the hash of the secret and the expiry are those of the token that is made.
structure MintTokenRequest where
  kind : TokenKind
  boundCidrs : List String
  rebindSegmentId : Nat
  tokenId : String
  secretHash : String
  expiresAt : String

def mintToken [Ipnet] (req : MintTokenRequest) : Rpc Unit := do
  if req.kind = .rebind ∧ req.rebindSegmentId = 0 then
    throw ⟨.invalidArgument, "rebind_segment_id must be non-zero for a rebind token (it is the " ++
      "token's authorization scope; 0 encodes 'no rebind')"⟩
  let bad (c e : String) := "invalid IPv4 bound_cidr " ++ Text.debugStr c ++ s!": {e}"
  let _ ← orStatus id (parseCidrs bad req.boundCidrs)
  let token :=
    { id := req.tokenId, secretHash := req.secretHash, kind := req.kind
      boundCidrs      := encodeBoundCidrs req.boundCidrs
      rebindSegmentId := if req.rebindSegmentId = 0 then none else some req.rebindSegmentId
      expiresAt := req.expiresAt, usedAt := none }
  orStatus (internal "storing enrollment token") (← commit <| .insertEnrollmentToken token)

def registerRelay (name endpoint : String) : Rpc Nat := do
  if name.isEmpty then throw ⟨.invalidArgument, "relay name must not be empty"⟩
  if endpoint.isEmpty then throw ⟨.invalidArgument, "relay endpoint must not be empty"⟩
  if (Text.parseSocketAddrV4 endpoint.toList).isNone then
    throw ⟨.invalidArgument, "relay endpoint must be a valid IPv4 ip:port"⟩
  let relayId ← orStatus (fun e => ⟨.alreadyExists, e⟩) (← commit <| .insertRelay name endpoint)
  let (active, revision) ← askOr "reading relays snapshot" .relaysSnapshot
  publish <| .relaysChanged (relayInfosOf active) revision
  return relayId

def rotateKey (gatewayId : Nat) : Rpc Nat := do
  let status (e : String) : Status :=
    if contains e "no ACTIVE gateway row" then ⟨.notFound, e⟩ else internal "rotating key" e
  let epoch ← orStatus status (← commit <| .rotateKey gatewayId)
  emitKeyRotated gatewayId
  return epoch

def drain (gatewayId : Nat) (now : String) : Rpc Unit := do
  let status (e : String) : Status :=
    if contains e "no gateway row" then ⟨.notFound, e⟩ else internal "draining gateway" e
  let serials ← orStatus status (← commit <| .drainGateway gatewayId now)
  let revision ← askOr "reading revision after drain" .currentRevision
  publish <| .gatewayDrained gatewayId serials revision

def revokeCert (serial now : String) : Rpc Unit := do
  if serial.isEmpty then throw ⟨.invalidArgument, "serial must not be empty"⟩
  if !(← orStatus (internal "revoking certificate") (← commit <| .revokeCert serial now)) then
    throw ⟨.notFound, "no certificate row with serial " ++ Text.debugStr serial⟩
  let revision ← askOr "reading revision after revocation" .currentRevision
  publish <| .certRevoked serial revision

-- Every segment with other CIDRs is announced for the gateway that is active on it, if there is one.
def announceCidrs : List (Nat × String × List String) → Rpc Unit
  | []                                          => pure ()
  | (segmentId, segmentName, allowedIps) :: rest => do
    if let some gatewayId ← askOr s!"looking up gateway for CIDR-changed segment {segmentId}"
        (.activeGatewayForSegment segmentId) then
      let keys ← askOr "reading gateway keys after CIDR change" (.allKeysForGateway gatewayId)
      let candidateEndpoints ←
        askOr "reading candidate endpoints after CIDR change" (.candidatesFor gatewayId)
      let revision ← askOr "reading revision after CIDR change" .currentRevision
      publish <| .segmentCidrsChanged
        { gatewayId, segmentName, allowedIps, keys, candidateEndpoints } revision
    announceCidrs rest

def announcePolicy : Rpc Unit := do
  if let some (version, compiledIr) ←
      askOr "reading latest policy after apply" .latestPolicy then
    let revision ← askOr "reading revision after policy apply" .currentRevision
    publish <| .policyUpdated version (Text.bytesOf compiledIr) revision

def parseSegment [Ipnet] (segment : String × List String) :
    Except Status (String × List Ipv4Net) := do
  let bad (c e : String) :=
    "invalid IPv4 CIDR " ++ Text.debugStr c ++ " in segment " ++ Text.debugStr segment.1 ++ s!": {e}"
  let nets ← parseCidrs bad segment.2
  if nets.isEmpty then
    throw ⟨.invalidArgument, "segment " ++ Text.debugStr segment.1 ++ ": cidrs must not be empty"⟩
  return (segment.1, nets.map (·.trunc))

-- The document is given as it has been read from its text.
def apply [Ipnet] (segments : List (String × List String)) (policyYaml : Option String) :
    Rpc ApplyOutcome := do
  let segments ← orStatus id (segments.mapM parseSegment)
  let outcome ← orStatus (internal "applying fabric") (← commit <| .applyFabric segments policyYaml)
  announceCidrs outcome.changedSegmentCidrs
  if outcome.policyUpdated then announcePolicy
  return outcome

end Admin
end Controller
