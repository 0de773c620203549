import WireMesh.Controller.Theorems.History
import WireMesh.Controller.Theorems.Uses

-- Whether what has been revoked is announced, and nothing else is announced as revoked.
namespace Controller

open Policy

-- The serials that a transaction has revoked.
def Tx.revokes : (t : Tx) → t.Out → List String
  | .enrollGateway _, out      => out.revokedSerials
  | .drainGateway _ _, serials => serials
  | .revokeCert serial _, true => [serial]
  | _, _                       => []

-- The serials that relays are told of.
def ChangeEvent.revokes (ev : ChangeEvent) : List String :=
  ((relayRevocationDelta ev).map (·.revokedSerials)).getD []

theorem ChangeEvent.revokes_certRevoked : (certRevoked serial n).revokes = [serial] :=
  rfl

theorem ChangeEvent.revokes_gatewayDrained : (gatewayDrained g serials n).revokes = serials := by
  cases serials <;> rfl

theorem ChangeEvent.revokes_gatewayEnrolled :
    (gatewayEnrolled g name cidrs serials n).revokes = serials := by
  cases serials <;> rfl

namespace Db

open Checked

variable {db db' : Db}

theorem mem_revokedSerials : serial ∈ db.revokedSerials ↔ db.IsRevoked serial := by
  simp only [revokedSerials, List.mem_insertionSort, List.mem_map, List.mem_filter, IsRevoked]
  exact exists_congr fun _ => ⟨fun h => ⟨h.1.1, h.2, h.1.2⟩, fun h => ⟨⟨h.1, h.2.2⟩, h.2.1⟩⟩

theorem isRevoked_congr (h : db'.certificates = db.certificates) :
    db'.IsRevoked serial ↔ db.IsRevoked serial := by
  rw [IsRevoked, h, IsRevoked]

-- A new certificate is not revoked.
theorem isRevoked_append (h : db'.certificates = db.certificates ++ [c]) (hc : c.revokedAt = none) :
    db'.IsRevoked serial ↔ db.IsRevoked serial := by
  simp [IsRevoked, h, or_and_right, exists_or, hc]

theorem isRevoked_revokeCert (h : db.revokeCert serial' stamp = (out, db')) :
    db'.IsRevoked serial ↔ db.IsRevoked serial ∨ out ∧ serial = serial' := by
  rw [revokeCert] at h
  split at h
  case isFalse =>
    cases h
    simp
  case isTrue hc =>
    cases h
    obtain ⟨c, hc, he⟩ : ∃ c ∈ db.certificates, c.serial = serial' := by simpa using hc
    simp only [IsRevoked, bumpRevision, List.mem_map, exists_exists_and_eq_and, true_and]
    refine ⟨?_, ?_⟩
    case refine_1 =>
      rintro ⟨c, hc, hs, hr⟩
      split at hs
      case isTrue h => exact .inr (hs.symm.trans h.1)
      case isFalse hn =>
        rw [if_neg hn] at hr
        exact .inl ⟨c, hc, hs, hr⟩
    case refine_2 =>
      rintro (⟨c, hc, hs, hr⟩ | hs)
      case inl => exact ⟨c, hc, by split <;> exact hs, by split <;> simp [hr]⟩
      case inr =>
        refine ⟨c, hc, by split <;> exact he.trans hs.symm, ?_⟩
        split
        case isTrue      => rfl
        case isFalse hn => exact Option.isSome_iff_ne_none.mpr fun hr => hn ⟨he, hr⟩

theorem FabricOnly.certificates (h : FabricOnly db db') : db'.certificates = db.certificates := by
  have ⟨_, _, _, _, e⟩ := h
  rw [e]

theorem KeysOnly.certificates (h : KeysOnly db db') : db'.certificates = db.certificates := by
  cases h
  rfl

-- No two certificates share a serial.
def SerialsDistinct (db : Db) : Prop :=
  (db.certificates.map (·.serial)).Nodup

theorem SerialsDistinct.map (h : SerialsDistinct db) (hf : KeepsCert f)
    (hc : db'.certificates = db.certificates.map f) : SerialsDistinct db' := by
  rw [SerialsDistinct, hc, List.map_map, show (·.serial) ∘ f = (·.serial) from funext hf.serial]
  exact h

theorem SerialsDistinct.append (h : SerialsDistinct db) (hn : ∀ c ∈ db.certificates, c.serial ≠ new.serial)
    (hc : db'.certificates = db.certificates ++ [new]) : SerialsDistinct db' := by
  rw [SerialsDistinct, hc, List.map_append]
  refine List.nodup_append.mpr ⟨h, by simp, ?_⟩
  simpa using hn

-- What a commit does to the certificates: the given serials are revoked, and no serial is used twice.
structure CertTurn (serials : List String) (db db' : Db) : Prop where
  distinct : SerialsDistinct db → SerialsDistinct db'
  revoked : ∀ serial, db'.IsRevoked serial ↔ db.IsRevoked serial ∨ serial ∈ serials

theorem CertTurn.same (hc : db'.certificates = db.certificates) : CertTurn [] db db' where
  distinct h := by rwa [SerialsDistinct, hc]
  revoked serial := by simp [isRevoked_congr hc]

theorem Enrolled.certTurn [Ipnet] (h : Enrolled db args out db') :
    CertTurn out.revokedSerials db db' := by
  cases h
  case intro db₁ _ db₂ _ _ _ _ hc ha =>
    have withdrew := (claimSegment_ok hc).2
    have hc : db₂.certificates = db₁.certificates ++ _ := congrArg certificates ha.eq
    refine ⟨fun hd => ?_, fun serial => ?_⟩
    case refine_1 =>
      have ⟨f, hf, he, _⟩ := withdrew.certificates
      exact (hd.map hf he).append ha.serial hc
    case refine_2 =>
      have added : db₂.IsRevoked serial ↔ db₁.IsRevoked serial := isRevoked_append hc rfl
      exact added.trans (withdrew.revoked serial)

variable [Ipnet] [Sha256] [IpnetV6] [PolicyText]

-- All that a commit revokes is what it says that it has revoked.
theorem certTurn_of_ok (h : db.transact t = .ok (out, db')) : CertTurn (t.revokes out) db db' := by
  have same (hc : db'.certificates = db.certificates) (hn : t.revokes out = []) :
      CertTurn (t.revokes out) db db' := hn ▸ .same hc
  cases t
  case enrollGateway => exact (enrollGateway_ok h).certTurn
  case drainGateway g stamp =>
    obtain ⟨_, hs, hd⟩ := drainGateway_ok h
    subst hs hd
    have withdrew : Withdrew [g] _ db (db.withdraw g .removed stamp) := withdrew_withdraw (by simp)
    obtain ⟨f, hf, he, _⟩ := withdrew.certificates
    exact ⟨fun hd => hd.map hf he, withdrew.revoked⟩
  case revokeCert serial stamp =>
    refine ⟨fun hd => ?_, fun _ => ?_⟩
    case refine_1 =>
      have he := snd_of_ok h
      rw [revokeCert] at he
      split at he
      case isTrue  => exact hd.map .revokes (congrArg certificates he)
      case isFalse => exact he ▸ hd
    case refine_2 =>
      rw [isRevoked_revokeCert (Except.ok.inj h)]
      cases out <;> simp [Tx.revokes]
  case enrollRelay =>
    obtain ⟨_, _, _, hn, _, hd⟩ := enrollRelay_ok h
    subst hd
    refine ⟨fun hd => hd.append hn rfl, fun _ => ?_⟩
    rw [isRevoked_append rfl rfl]
    simp [Tx.revokes]
  case createSegment =>
    obtain ⟨_, hf, he⟩ := createSegment_ok h
    exact same (he ▸ hf.fabricOnly.bumpRevision.certificates) rfl
  case deleteSegment =>
    obtain ⟨_, hd, he⟩ := map_ok.mp h
    cases he
    exact same (by rw [(deleteSegment_ok hd).2]) rfl
  case applyFabric => exact same (applyFabric_ok h).fabricOnly.certificates rfl
  case insertEnrollmentToken =>
    obtain ⟨_, hd, he⟩ := map_ok.mp h
    cases he
    exact same (by rw [(insertEnrollmentToken_ok hd).2]) rfl
  case rotateKey        => exact same (by rw [(rotateKey_ok h).2.2]) rfl
  case setEpochPubkey   => exact same (snd_of_ok h ▸ setEpochPubkey_keysOnly.certificates) rfl
  case promoteEpoch     => exact same (snd_of_ok h ▸ promoteEpoch_keysOnly.certificates) rfl
  case retireEpoch      => exact same (snd_of_ok h ▸ retireEpoch_keysOnly.certificates) rfl
  case dropPendingEpoch => exact same (snd_of_ok h ▸ dropPendingEpoch_keysOnly.certificates) rfl
  case setCandidateEndpoint =>
    obtain ⟨_, hd⟩ := setCandidateEndpoint_ok h
    cases hd
    case inl hd => exact same (by rw [hd.2]) rfl
    case inr hd => exact same (by rw [hd.2]; rfl) rfl
  case setLocalCandidates =>
    obtain ⟨_, hd⟩ := setLocalCandidates_ok h
    cases hd
    case inl hd => exact same (by rw [hd.2]) rfl
    case inr hd =>
      obtain ⟨_, _, _, he⟩ := hd
      exact same (by rw [he]) rfl
  case setAppliedVersion =>
    obtain ⟨_, hd, he⟩ := map_ok.mp h
    cases he
    exact same (by rw [setAppliedVersion_ok hd]; rfl) rfl
  case insertRelay => exact same (by rw [(insertRelay_ok h).2.2]) rfl
  case setRelayStatus =>
    cases h
    exact same rfl rfl

end Db

-- What a call has revoked and not announced yet, and whether it has been kept from announcing it.
structure Teller where
  owed : List String := []
  hindered : Bool := false

namespace Teller

def hinders : (q : Query) → Except String q.Resp → Bool
  | .findGatewayByName _, .ok none => true
  | _, .error _                    => true
  | _, .ok _                       => false

def track : (o : CtlOp) → Teller → o.Resp → Teller
  | .tx t, a, .ok out => { a with owed := a.owed ++ t.revokes out }
  | .publish ev, a, _ => { a with owed := a.owed.filter (· ∉ ev.revokes) }
  | .query q, a, x    => if a.owed ≠ [] ∧ hinders q x then { a with hindered := true } else a
  | _, a, _           => a

-- Only what has been revoked is announced.
def May : CtlOp → Teller → Prop
  | .publish ev, a => ev.revokes ⊆ a.owed
  | _, _           => True

end Teller

-- A call that can sign comes to its end with nothing left to announce, unless it has been kept from it.
abbrev Tells (signs : Prop) (p : Handler α) (a : Teller) : Prop :=
  p.Tracks Teller.May Teller.track (fun _ a => signs → a.hindered ∨ a.owed = []) a

def Request.Signs : Request → Prop
  | .enroll req => req.issuance.signed = .ok ()
  | _           => True

section Tells

open Handler Prog Teller

theorem untold_of_touch (o : CtlOp) (ho : o.touch ∉ [Touch.enrolling, .revoking]) (a : Teller)
    (ha : a.owed = []) : May o a ∧ ∀ x, (track o a x).owed = [] := by
  cases o
  case query => exact ⟨trivial, fun x => by simp [track, ha]⟩
  case tx t =>
    refine ⟨trivial, ?_⟩
    rintro (_ | out)
    case error => exact ha
    case ok =>
      cases t
      case enrollGateway => simp [CtlOp.touch, Tx.touch] at ho
      case drainGateway  => simp [CtlOp.touch, Tx.touch] at ho
      case revokeCert    => simp [CtlOp.touch, Tx.touch] at ho
      all_goals simp [track, Tx.revokes, ha]
  case publish ev =>
    refine ⟨?_, fun _ => by simp [track, ha]⟩
    cases ev
    case gatewayEnrolled => simp [CtlOp.touch, ChangeEvent.touch] at ho
    case gatewayDrained  => simp [CtlOp.touch, ChangeEvent.touch] at ho
    case certRevoked     => simp [CtlOp.touch, ChangeEvent.touch] at ho
    all_goals exact List.nil_subset _
  all_goals exact ⟨trivial, fun _ => ha⟩

variable {signs : Prop}

theorem kept_of_error :
    (track (.query q) a (.error e)).hindered ∨ (track (.query q) a (.error e)).owed = [] := by
  by_cases ho : a.owed = []
  case pos => exact .inr (by simp [track, ho])
  case neg => exact .inl (by simp [track, ho, hinders])

theorem track_of_ok (hq : hinders q (.ok x) = false) : track (.query q) a (.ok x) = a := by
  simp [track, hq]

theorem tells_publish (hr : ev.revokes = a.owed) : Tells signs (publish ev) a := by
  simp only [tracks_publish, May, track, hr]
  exact ⟨List.Subset.refl _, fun _ => .inr (by simp)⟩

theorem tells_drain : Tells signs (Admin.drain g stamp).run {} := by
  simp only [Admin.drain, tracks_run_bind, tracks_run_liftM, tracks_commit, tracks_orStatus, tracks_askOr]
  refine ⟨trivial, fun _ => ⟨fun _ _ _ => .inr rfl, (by simp)⟩, fun serials => ⟨by simp, ?_⟩⟩
  rintro _ ⟨⟩
  refine ⟨trivial, fun _ _ => kept_of_error, fun revision => ?_⟩
  rw [track_of_ok rfl]
  exact tells_publish ChangeEvent.revokes_gatewayDrained

theorem tells_revokeCert : Tells signs (Admin.revokeCert serial stamp).run {} := by
  simp only [Admin.revokeCert, tracks_run_ite, tracks_run_bind, tracks_run_liftM, tracks_commit,
    tracks_orStatus, tracks_askOr, tracks_run_throw]
  refine ⟨by simp, fun _ => ⟨trivial, fun _ => ⟨fun _ _ _ => .inr rfl, (by simp)⟩, fun found => ⟨by simp, ?_⟩⟩⟩
  rintro _ ⟨⟩
  cases found
  case false => exact ⟨fun _ _ => .inr rfl, by simp⟩
  case true =>
    refine ⟨by simp, fun _ => ⟨trivial, fun _ _ => kept_of_error, fun revision => ?_⟩⟩
    rw [track_of_ok rfl]
    exact tells_publish ChangeEvent.revokes_certRevoked

theorem tells_announce (ha : a.owed = serials) : Tells signs (Enrollment.announce name serials) a := by
  simp only [Enrollment.announce, tracks_bind, tracks_ask]
  refine ⟨trivial, fun _ _ => kept_of_error, ?_⟩
  rintro (_ | gw)
  case none =>
    by_cases ho : a.owed = []
    case pos => exact fun _ => .inr (by simp [track, ho])
    case neg => exact fun _ => .inl (by simp [track, ho, hinders])
  case some =>
    rw [track_of_ok rfl]
    simp only [tracks_bind, tracks_ask]
    refine ⟨trivial, fun _ _ => kept_of_error, fun cidrs => ?_⟩
    rw [track_of_ok rfl]
    refine ⟨trivial, fun _ _ => kept_of_error, fun revision => ?_⟩
    rw [track_of_ok rfl]
    exact tells_publish (ChangeEvent.revokes_gatewayEnrolled.trans ha.symm)

theorem tells_enrollGateway :
    Tells (req.issuance.signed = .ok ()) (Enrollment.enrollGateway req secret nets).run {} := by
  simp only [Enrollment.enrollGateway, tracks_run_bind, tracks_orStatus, tracks_run_liftM,
    tracks_commit]
  refine ⟨by simp, fun _ _ => ⟨by simp, fun _ _ => ⟨trivial, ?_, fun out => ⟨by simp, ?_⟩⟩⟩⟩
  case refine_1 => exact fun _ => ⟨fun _ _ _ => .inr rfl, (by simp)⟩
  case refine_2 =>
    rintro _ ⟨⟩
    refine ⟨fun _ he hs => ?_, fun _ _ => (tells_announce rfl).mono fun _ _ h => h⟩
    cases he.symm.trans hs

theorem tells_enroll [Ipnet] [Sha256] [Base64] :
    Tells (req.issuance.signed = .ok ()) (Enrollment.enroll req).run {} := by
  simp only [Enrollment.enroll, tracks_run_ite]
  refine ⟨fun _ _ => .inr rfl, fun _ => ?_⟩
  split
  case h_2 => exact fun _ => .inr rfl
  case h_1 =>
    simp only [tracks_run_bind, tracks_orStatus, tracks_run_ite, tracks_run_throw]
    refine ⟨by simp, fun nets _ => ⟨fun _ => ?_, fun _ => ⟨by simp, fun _ => ⟨by simp, fun _ => ?_⟩⟩⟩⟩
    case refine_1 =>
      have silent : ∀ t ∈ [Touch.relays, .reading, .telling], t ∉ [Touch.enrolling, .revoking] := by
        decide
      refine (uses_enrollRelay.only.tracks (fun o ho => untold_of_touch o (silent _ ho))
        (show Teller.owed {} = [] from rfl)).mono ?_
      exact fun x _ ho => by cases x <;> exact fun _ => .inr ho
    case refine_2 => exact tells_enrollGateway

-- What a call has revoked, it announces, as long as it can read what it needs for that.
theorem tells_handle [Ipnet] [Sha256] [Base64] (q : Request) : Tells q.Signs q.handle {} := by
  have untold (hd : ∀ t ∈ q.touches, t ∉ [Touch.enrolling, .revoking]) : Tells q.Signs q.handle {} :=
    ((uses_handle q).only.tracks (fun o ho => untold_of_touch o (hd _ ho)) rfl).mono
      fun _ _ h _ => .inr h
  cases q
  case drain      => exact tracks_ended.mpr (tells_drain.mono fun _ _ h => h)
  case revokeCert => exact tracks_ended.mpr (tells_revokeCert.mono fun _ _ h => h)
  case enroll     => exact tracks_ended.mpr (tells_enroll.mono fun _ _ h => h)
  all_goals exact untold (by simp [Request.touches])

end Tells
end Controller
