import WireMesh.Controller.Theorems.Fabric

-- What a transaction on gateways, relays and their tokens has done when it has been committed.
namespace Controller.Db

open Policy Checked

section Gateways

variable {db db' : Db}

-- What an update of a gateway's row leaves alone. Nobody becomes active again.
structure Keeps (f : GatewayRow → GatewayRow) : Prop where
  id : ∀ g, (f g).id = g.id
  segmentId : ∀ g, (f g).segmentId = g.segmentId
  name : ∀ g, (f g).name = g.name
  active : ∀ g, (f g).status = .active → g.status = .active

theorem Keeps.refl : Keeps fun g => g :=
  ⟨fun _ => rfl, fun _ => rfl, fun _ => rfl, fun _ h => h⟩

theorem Keeps.comp (h₁ : Keeps f₁) (h₂ : Keeps f₂) : Keeps (f₂ ∘ f₁) where
  id g        := (h₂.id _).trans (h₁.id g)
  segmentId g := (h₂.segmentId _).trans (h₁.segmentId g)
  name g      := (h₂.name _).trans (h₁.name g)
  active g    := h₁.active g ∘ h₂.active _

theorem Keeps.ite {P : GatewayRow → Prop} [DecidablePred P] (h : Keeps f) :
    Keeps fun g => if P g then f g else g where
  id g := by split; exacts [h.id g, rfl]
  segmentId g := by split; exacts [h.segmentId g, rfl]
  name g := by split; exacts [h.name g, rfl]
  active g := by split; exacts [h.active g, fun h => h]

theorem Keeps.withdrawn (hs : status ≠ .active) : Keeps fun g => { g with status } :=
  ⟨fun _ => rfl, fun _ => rfl, fun _ => rfl, fun _ h => absurd h hs⟩

-- The serials of an update are the revoked ones and those that have become so.
def IsRevoked (db : Db) (serial : String) : Prop :=
  ∃ c ∈ db.certificates, c.serial = serial ∧ c.revokedAt.isSome

-- A certificate's row stays what it is, but for its revocation, which is never undone.
structure KeepsCert (f : CertificateRow → CertificateRow) : Prop where
  serial : ∀ c, (f c).serial = c.serial
  subject : ∀ c, (f c).subjectKind = c.subjectKind ∧ (f c).subjectId = c.subjectId
  revoked : ∀ c, c.revokedAt.isSome → (f c).revokedAt.isSome

theorem KeepsCert.comp (h₁ : KeepsCert f₁) (h₂ : KeepsCert f₂) : KeepsCert (f₂ ∘ f₁) where
  serial c  := (h₂.serial _).trans (h₁.serial c)
  subject c := ⟨(h₂.subject _).1.trans (h₁.subject c).1, (h₂.subject _).2.trans (h₁.subject c).2⟩
  revoked c := h₂.revoked _ ∘ h₁.revoked c

theorem KeepsCert.revokes {P : CertificateRow → Prop} [DecidablePred P] :
    KeepsCert fun c => if P c then { c with revokedAt := some now } else c where
  serial c := by split <;> rfl
  subject c := by split <;> exact ⟨rfl, rfl⟩
  revoked c := by split <;> simp

-- The gateways `gs` have left, and their certificates are revoked. Nothing else has changed.
structure Withdrew (gs : List Nat) (serials : List String) (db db' : Db) : Prop where
  eq : ∃ gateways certificates, db' = { db with gateways, certificates }
  gateways : ∃ f, Keeps f ∧ db'.gateways = db.gateways.map f ∧
    ∀ g, (g.id ∈ gs → (f g).status ≠ .active) ∧ (g.id ∉ gs → f g = g)
  certificates : ∃ f, KeepsCert f ∧ db'.certificates = db.certificates.map f ∧
    ∀ c ∈ db.certificates, c.subjectKind = .gateway → c.subjectId ∈ gs → (f c).revokedAt.isSome
  revoked : ∀ serial, db'.IsRevoked serial ↔ db.IsRevoked serial ∨ serial ∈ serials

theorem isRevoked_revokeSerials (hs : serials ⊆ db.certificates.map (·.serial)) :
    (db.revokeSerials serials now).IsRevoked serial ↔ db.IsRevoked serial ∨ serial ∈ serials := by
  simp only [IsRevoked, revokeSerials, List.mem_map]
  constructor
  case mp =>
    rintro ⟨_, ⟨c, hc, rfl⟩, hs, hr⟩
    split at hs
    case isTrue hm => exact .inr (hs ▸ hm)
    case isFalse hm =>
      rw [if_neg hm] at hr
      exact .inl ⟨c, hc, hs, hr⟩
  case mpr =>
    rintro (⟨c, hc, rfl, hr⟩ | hm)
    case inl =>
      refine ⟨_, ⟨c, hc, rfl⟩, ?_, ?_⟩
      case refine_1 => split <;> rfl
      case refine_2 => split <;> simp [hr]
    case inr =>
      have ⟨c, hc, he⟩ := List.mem_map.mp (hs hm)
      exact ⟨_, ⟨c, hc, rfl⟩, by rw [if_pos (he ▸ hm)]; exact he, by rw [if_pos (he ▸ hm)]; rfl⟩

theorem withdrew_withdraw (hs : status ≠ .active) :
    Withdrew [g] ((db.unrevokedCerts g).map (·.serial)) db (db.withdraw g status now) where
  eq := ⟨_, _, rfl⟩
  gateways := by
    refine ⟨_, (Keeps.withdrawn hs).ite, rfl, fun row => ⟨fun hg => ?_, fun hg => ?_⟩⟩
    case refine_1 => rw [if_pos (List.mem_singleton.mp hg)]; exact hs
    case refine_2 => rw [if_neg (mt List.mem_singleton.mpr hg)]
  certificates := by
    refine ⟨_, .revokes, rfl, fun c hc hk hi => ?_⟩
    cases hr : c.revokedAt
    case none =>
      have hm : c ∈ db.unrevokedCerts g := by
        simp [unrevokedCerts, hc, hk, hr, List.mem_singleton.mp hi]
      rw [if_pos (List.mem_map_of_mem hm)]
      rfl
    case some => split <;> simp [hr]
  revoked serial := by
    refine (isRevoked_revokeSerials ?_ : _ ↔ _)
    intro x hx
    have ⟨c, hc, he⟩ := List.mem_map.mp hx
    exact List.mem_map.mpr ⟨c, List.mem_of_mem_filter hc, he⟩

theorem Withdrew.trans (h₁ : Withdrew gs₁ s₁ db db₁) (h₂ : Withdrew gs₂ s₂ db₁ db₂) :
    Withdrew (gs₁ ++ gs₂) (s₁ ++ s₂) db db₂ where
  eq := by
    have ⟨_, _, e₁⟩ := h₁.eq
    have ⟨_, _, e₂⟩ := h₂.eq
    exact ⟨_, _, by rw [e₂, e₁]⟩
  gateways := by
    have ⟨f₁, k₁, e₁, r₁⟩ := h₁.gateways
    have ⟨f₂, k₂, e₂, r₂⟩ := h₂.gateways
    refine ⟨f₂ ∘ f₁, k₁.comp k₂, by rw [e₂, e₁, List.map_map], fun g => ⟨fun hg ha => ?_, fun hg => ?_⟩⟩
    case refine_1 =>
      cases List.mem_append.mp hg
      case inl hg => exact (r₁ g).1 hg (k₂.active _ ha)
      case inr hg => exact (r₂ (f₁ g)).1 (by rwa [k₁.id]) ha
    case refine_2 =>
      simp only [List.mem_append, not_or] at hg
      have h₁ := (r₁ g).2 hg.1
      simp only [Function.comp_apply, h₁]
      exact (r₂ g).2 hg.2
  certificates := by
    have ⟨f₁, k₁, e₁, r₁⟩ := h₁.certificates
    have ⟨f₂, k₂, e₂, r₂⟩ := h₂.certificates
    refine ⟨f₂ ∘ f₁, k₁.comp k₂, by rw [e₂, e₁, List.map_map], fun c hc hk hi => ?_⟩
    cases List.mem_append.mp hi
    case inl hi => exact k₂.revoked _ (r₁ c hc hk hi)
    case inr hi =>
      exact r₂ (f₁ c) (e₁ ▸ List.mem_map_of_mem hc) ((k₁.subject c).1 ▸ hk) ((k₁.subject c).2 ▸ hi)
  revoked serial := by
    rw [h₂.revoked, h₁.revoked, List.mem_append, or_assoc]

theorem Withdrew.refl (db : Db) : Withdrew [] [] db db where
  eq := ⟨_, _, rfl⟩
  gateways := ⟨_, .refl, by simp, fun g => ⟨by simp, fun _ => rfl⟩⟩
  certificates := ⟨id, ⟨fun _ => rfl, fun _ => ⟨rfl, rfl⟩, fun _ h => h⟩, by simp, by simp⟩
  revoked := by simp

theorem withdrew_replaceGateways (now : String) (gs : List Nat) (certs : List CertificateRow)
    (db : Db) : ∃ new, (replaceGateways now gs (certs, db)).1 = certs ++ new ∧
      Withdrew gs (new.map (·.serial)) db (replaceGateways now gs (certs, db)).2 := by
  induction gs generalizing certs db
  case nil => exact ⟨[], by simp [replaceGateways], .refl _⟩
  case cons g gs ih =>
    have ⟨new, hc, hw⟩ := ih (certs ++ db.unrevokedCerts g) (db.withdraw g .replaced now)
    refine ⟨db.unrevokedCerts g ++ new, by simp [replaceGateways, hc], ?_⟩
    rw [List.map_append]
    exact (withdrew_withdraw (by simp)).trans hw

-- The gateways that a token's redemption puts aside, with their certificates.
theorem claimSegment_ok (h : db.claimSegment token s now = .ok (certs, db')) :
    (token.kind = .rebind ∧ token.rebindSegmentId = some s ∨
      token.kind ≠ .rebind ∧ db.activeGatewaysOn s = []) ∧
    Withdrew (db.activeGatewaysOn s) (certs.map (·.serial)) db db' := by
  rw [claimSegment] at h
  split at h
  case isTrue hk =>
    split at h
    case isTrue => cases h
    case isFalse hs =>
      have hr := Except.ok.inj h
      have ⟨new, hc, hw⟩ := withdrew_replaceGateways now (db.activeGatewaysOn s) [] db
      rw [hr] at hc hw
      have hn : certs = new := hc
      exact ⟨.inl ⟨hk, by simpa using hs⟩, hn ▸ hw⟩
  case isFalse hk =>
    split at h
    case isTrue => cases h
    case isFalse hs =>
      cases h
      have hs : db.activeGatewaysOn s = [] := by simpa using hs
      exact ⟨.inr ⟨hk, hs⟩, hs ▸ .refl db⟩

-- The rows of a gateway that has just enrolled.
def newGateway (id s : Nat) (args : EnrollArgs) : GatewayRow where
  id                := id
  segmentId         := s
  name              := args.gatewayName
  status            := .active
  appliedVersion    := none
  observeKey        := some args.observeKey
  candidateEndpoint := none

def newKey (id : Nat) (args : EnrollArgs) : KeyRow where
  gatewayId := id
  epoch     := 0
  pubkey    := if args.wgPubkey.isEmpty then s!"placeholder-pubkey-gw{id}-epoch0" else args.wgPubkey
  state     := .active

def newCertificate (kind : SubjectKind) (id : Nat) (serial handle : String) : CertificateRow where
  serial       := serial
  subjectKind  := kind
  subjectId    := id
  issuerHandle := handle
  revokedAt    := none

structure Added (s : Nat) (args : EnrollArgs) (g : Nat) (db db' : Db) : Prop where
  id : g = nextId (db.gateways.map (·.id))
  name : ∀ g ∈ db.gateways, g.name ≠ args.gatewayName
  serial : ∀ c ∈ db.certificates, c.serial ≠ args.certSerial
  eq : db' = { db with
    gateways     := db.gateways ++ [newGateway g s args]
    certificates := db.certificates ++ [newCertificate .gateway g args.certSerial args.issuerHandle]
    keys         := db.keys ++ [newKey g args] }

theorem addGateway_ok (h : db.addGateway s args = .ok (g, db')) : Added s args g db db' := by
  rw [addGateway] at h
  dsimp only at h
  split at h
  case isTrue => cases h
  case isFalse hn =>
    split at h
    case isTrue => cases h
    case isFalse hs =>
      cases h
      exact ⟨rfl, by simpa using hn, by simpa using hs, rfl⟩

-- A token that has been redeemed by a gateway: what was checked, who has made room, what is new.
inductive Enrolled [Ipnet] (db : Db) (args : EnrollArgs) : EnrollOutcome → Db → Prop
  | intro : args.cidrs ≠ [] →
      db.redeemable args.secretHash args.now [.gateway, .rebind] = some token →
      (token.kind ≠ .rebind → checkBoundCidrs token.boundCidrs args.cidrs = .ok ()) →
      db.segmentOfCidrs none args.cidrs = .ok (some s) →
      db.claimSegment token s args.now = .ok (certs, db₁) → Added s args g db₁ db₂ →
      Enrolled db args
        ⟨s, g, certs.map (·.issuerHandle), certs.map (·.serial), args.observeKey⟩
        (db₂.spendToken token.id args.now).bumpRevision

-- What is left to do once the token and the CIDRs that it is bound to have been looked at.
theorem enrolled_of_rest [Ipnet] (hc : args.cidrs ≠ [])
    (ht : db.redeemable args.secretHash args.now [.gateway, .rebind] = some token)
    (hb : token.kind ≠ .rebind → checkBoundCidrs token.boundCidrs args.cidrs = .ok ())
    (h : (do
      let some s ← db.segmentOfCidrs none args.cidrs | throw .noMatchingSegment
      let (certs, db) ← db.claimSegment token s args.now
      let (gatewayId, db) ← db.addGateway s args
      return (⟨s, gatewayId, certs.map (·.issuerHandle), certs.map (·.serial), args.observeKey⟩,
        (db.spendToken token.id args.now).bumpRevision) :
      Except EnrollError (EnrollOutcome × Db)) = .ok (out, db')) : Enrolled db args out db' := by
  obtain ⟨s, hs, h⟩ := bind_ok.mp h
  cases s
  case none => cases h
  case some s =>
    obtain ⟨⟨certs, db₁⟩, hcl, h⟩ := bind_ok.mp h
    obtain ⟨⟨id, db₂⟩, ha, h⟩ := bind_ok.mp h
    cases h
    exact .intro hc ht hb hs hcl (addGateway_ok ha)

theorem enrollGateway_ok [Ipnet] (h : db.enrollGateway args = .ok (out, db')) :
    Enrolled db args out db' := by
  rw [enrollGateway] at h
  split at h
  case isTrue => cases h
  case isFalse hc =>
    dsimp only at h
    split at h
    case h_2 => cases h
    case h_1 token ht =>
      split at h
      case isTrue hk =>
        obtain ⟨_, hb, h⟩ := bind_ok.mp h
        exact enrolled_of_rest hc ht (fun _ => hb) h
      case isFalse hk => exact enrolled_of_rest hc ht (fun hk' => absurd hk' hk) h

def addRelay (db : Db) (r : Nat) (name endpoint serial handle : String) : Db :=
  { db with
    relays       := db.relays ++ [⟨r, name, endpoint, .active⟩]
    certificates := db.certificates ++ [newCertificate .relay r serial handle] }

theorem enrollRelay_ok (h : db.enrollRelay secret name endpoint serial handle now = .ok (r, db')) :
    ∃ token, db.redeemable secret now [.relay] = some token ∧
      (∀ row ∈ db.relays, row.name ≠ name) ∧ (∀ c ∈ db.certificates, c.serial ≠ serial) ∧
      r = nextId (db.relays.map (·.id)) ∧
      db' = ((db.addRelay r name endpoint serial handle).spendToken token.id now).bumpRevision := by
  rw [enrollRelay] at h
  split at h
  case h_2 => cases h
  case h_1 token ht =>
    dsimp only at h
    split at h
    case isTrue => cases h
    case isFalse hn =>
      split at h
      case isTrue => cases h
      case isFalse hs =>
        cases h
        exact ⟨token, ht, by simpa using hn, by simpa using hs, rfl, rfl⟩

end Gateways

end Controller.Db
