import WireMesh.Controller.System

-- Stand-ins for what lies outside of the controller, simple enough to follow a run of it by hand.
namespace Controller.StandIn

open Policy

scoped instance : Sha256 where
  digest := id

scoped instance : IpnetV6 where
  isV6 _ := false

def inAlphabet (c : Char) : Bool :=
  c.isAlphanum || c = '+' || c = '/' || c = '='

scoped instance : Base64 where
  decode s := if s.toList.all inAlphabet then some (Text.bytesOf s) else none
  alphabet h c hc := by
    split at h
    case isTrue ha => simpa [inAlphabet, or_assoc] using List.all_eq_true.mp ha c hc
    case isFalse   => cases h

def ruleWords (rule : IrRule) : List (List Char) :=
  [rule.ruleId.toList, rule.action.name.toList, rule.proto.name.toList,
    Text.pack (rule.src.map String.toList), Text.pack (rule.dst.map String.toList),
    Text.pack (rule.ports.flatMap fun p => [Nat.toDigits 10 p.1.toNat, Nat.toDigits 10 p.2.toNat])]

def blockWords (block : IrBlock) : List (List Char) :=
  [block.fromName.toList, block.toName.toList,
    Text.pack (block.srcCidrs.map String.toList), Text.pack (block.dstCidrs.map String.toList),
    Text.pack (block.rules.map fun rule => Text.pack (ruleWords rule))]

def blocksText (blocks : List IrBlock) : String :=
  String.ofList <| Text.pack <| blocks.map fun block => Text.pack (blockWords block)

theorem map_toList_injective : Function.Injective (List.map String.toList) :=
  List.map_injective_iff.mpr fun _ _ => String.toList_inj.mp

theorem toDigits_injective : Function.Injective (Nat.toDigits 10) := fun n m h =>
  Option.some.inj <| by rw [← Text.parseDigits_toDigits n, h, Text.parseDigits_toDigits]

theorem portWords_injective : Function.Injective fun ports : List (Port × Port) =>
    ports.flatMap fun p => [Nat.toDigits 10 p.1.toNat, Nat.toDigits 10 p.2.toNat] := by
  intro ports ports' h
  induction ports generalizing ports'
  case nil =>
    cases ports'
    case nil  => rfl
    case cons => cases h
  case cons p ports ih =>
    cases ports'
    case nil => cases h
    case cons q ports' =>
      simp only [List.flatMap_cons, List.cons_append, List.nil_append, List.cons.injEq] at h
      have ⟨h₁, h₂, h⟩ := h
      have h₁ := BitVec.eq_of_toNat_eq (toDigits_injective h₁)
      have h₂ := BitVec.eq_of_toNat_eq (toDigits_injective h₂)
      rw [Prod.ext h₁ h₂, ih h]

theorem ruleWords_injective : Function.Injective ruleWords := by
  rintro ⟨ruleId, action, proto, src, dst, ports⟩ ⟨ruleId', action', proto', src', dst', ports'⟩ h
  simp only [ruleWords, List.cons.injEq, and_true, String.toList_inj] at h
  have ⟨hi, ha, hp, hs, hd, hports⟩ := h
  have ha : action = action' := by
    revert ha
    cases action <;> cases action' <;> decide
  have hp : proto = proto' := by
    revert hp
    cases proto <;> cases proto' <;> decide
  rw [hi, ha, hp, map_toList_injective (Text.pack_injective hs),
    map_toList_injective (Text.pack_injective hd), portWords_injective (Text.pack_injective hports)]

theorem blockWords_injective : Function.Injective blockWords := by
  rintro ⟨fromName, toName, src, dst, rules⟩ ⟨fromName', toName', src', dst', rules'⟩ h
  simp only [blockWords, List.cons.injEq, and_true, String.toList_inj] at h
  have ⟨hf, ht, hs, hd, hr⟩ := h
  have inj : Function.Injective fun rule => Text.pack (ruleWords rule) :=
    Text.pack_injective.comp ruleWords_injective
  rw [hf, ht, map_toList_injective (Text.pack_injective hs),
    map_toList_injective (Text.pack_injective hd),
    List.map_injective_iff.mpr inj (Text.pack_injective hr)]

theorem blocksText_injective : Function.Injective blocksText := fun _ _ h =>
  List.map_injective_iff.mpr (Text.pack_injective.comp blockWords_injective)
    (Text.pack_injective (String.ofList_inj.mp h))

-- A policy is written as the names of two segments, and lets everything through from one to the other.
def fromYaml (s : String) : Except String PolicyDoc :=
  match Text.splitOnce '>' s.toList with
  | none             => .error "expected two segments"
  | some (src, dst) =>
    let body := { src := [], dst := [], ports := [], proto := none }
    let rules := [{ allow := some body, deny := none }]
    .ok ⟨[{ fromName := String.ofList src, toName := String.ofList dst, rules }]⟩

scoped instance : PolicyText where
  fromYaml           := fromYaml
  toCanonicalJson ir := toString ir.version ++ ":" ++ blocksText ir.blocks
  blocksJson         := blocksText

theorem blocksFingerprint_injective : Function.Injective blocksFingerprint := fun _ _ h =>
  blocksText_injective <| Text.bytesOf_injective <| Text.writeHex_injective <| String.ofList_inj.mp h

-- An issuer that signs whatever it is asked to.
def issuance (serial : String) : Issuance where
  validCsr    := .ok ()
  trustBundle := .ok ()
  signed      := .ok ()
  serial      := serial
  handle      := serial

-- A token is known by the hash of its secret, which is the secret itself.
def token (kind : TokenKind) (cidrs : List String) (segmentId : Nat) (secret : String) : Request :=
  .mintToken ⟨kind, cidrs, segmentId, "token " ++ secret, secret, "2"⟩

def enroll (cidrs : List String) (secret : String) : Request :=
  .enroll
    { cidrs, token := "#tok_" ++ secret ++ "@", csrPem := "csr", endpoint := "", wgPubkey := ""
      now := "1", observeKey := "key " ++ secret, issuance := issuance ("serial " ++ secret) }

abbrev Moves := List (Pool.Move Request Outside)

abbrev played (moves : Moves) : History × System :=
  Pool.play player System.start moves

theorem runs_played (moves : Moves) : Runs (played moves).1 (played moves).2 :=
  Pool.play_run player System.start moves

-- Each call runs to its end before the next one is made. The first one is task `i`.
def calls (i : Nat) : List Request → Moves
  | []      => []
  | r :: rs => .spawn r :: .run i 99 :: calls (i + 1) rs

def tick (now : Instant) : Moves :=
  [.env (.tick now)]

-- Segment 1 and its gateway, which is number 1 and goes by the name of gw-aa.
def opening : Moves :=
  calls 0 [.createSegment "a" ["10.0.0.0/8"], token .gateway ["10.0.0.0/8"] 0 "aa",
    enroll ["10.0.0.0/8"] "aa"]

section Transactions

-- The transactions come with the latest first.
abbrev committed (txs : List Tx) : List (Db × Tx) × Db :=
  Run.trace (fun db t => (db.commit t).2) .empty txs

def gatewayToken (secret : String) : TokenRow where
  id              := "token " ++ secret
  secretHash      := secret
  kind            := .gateway
  boundCidrs      := "10.0.0.0/8"
  rebindSegmentId := none
  expiresAt       := "2"
  usedAt          := none

def enrollArgs (secret wgPubkey : String) : EnrollArgs where
  secretHash   := secret
  cidrs        := [.slash8 10]
  gatewayName  := "gw-" ++ secret
  wgPubkey     := wgPubkey
  certSerial   := "serial " ++ secret
  issuerHandle := "serial " ++ secret
  observeKey   := "key " ++ secret
  now          := "1"

def openingTxs : List Tx :=
  [.enrollGateway (enrollArgs "aa" ""), .insertEnrollmentToken (gatewayToken "aa"),
    .createSegment "a" [.slash8 10]]

-- There are two segments with a gateway each. The token of the first gateway is tried again in vain, and
-- a rebind puts another gateway in its place. Then the segment gets another CIDR, and the one it had
-- goes to a third segment with a gateway.
def reboundTxs : List Tx :=
  [.enrollGateway (enrollArgs "dd" ""), .insertEnrollmentToken (gatewayToken "dd"),
    .applyFabric [("a", [.slash8 12]), ("c", [.slash8 10])] none,
    .enrollGateway (enrollArgs "cc" ""),
    .insertEnrollmentToken { gatewayToken "cc" with kind := .rebind, rebindSegmentId := some 1 },
    .enrollGateway (enrollArgs "aa" ""),
    .enrollGateway { enrollArgs "bb" "" with cidrs := [.slash8 11] },
    .insertEnrollmentToken { gatewayToken "bb" with boundCidrs := "11.0.0.0/8" },
    .createSegment "b" [.slash8 11]] ++ openingTxs

end Transactions
end Controller.StandIn
