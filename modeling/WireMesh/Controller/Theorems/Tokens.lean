import WireMesh.Controller.StandIn
import WireMesh.Controller.Theorems.Commit

-- What an enrollment token is good for.
namespace Controller

def Tx.isEnrollment : Tx → Bool
  | enrollGateway _         => true
  | enrollRelay _ _ _ _ _ _ => true
  | _                       => false

namespace Db

open Policy Checked

variable {db db' : Db}

-- The token that an enrollment finds.
def redeems (db : Db) : Tx → Option TokenRow
  | .enrollGateway args                 => db.redeemable args.secretHash args.now [.gateway, .rebind]
  | .enrollRelay secretHash _ _ _ _ now => db.redeemable secretHash now [.relay]
  | _                                   => none

def peerCount (db : Db) : Nat :=
  db.gateways.length + db.relays.length

theorem redeemable_some (h : db.redeemable secret now kinds = some token) :
    token ∈ db.tokens ∧ token.secretHash = secret ∧ token.usedAt = none ∧ now < token.expiresAt ∧
      token.kind ∈ kinds :=
  ⟨List.mem_of_find?_eq_some h, by simpa using List.find?_some h⟩

-- What is written into a token is read back from it.
theorem decodeBoundCidrs_encodeBoundCidrs {bound : List String}
    (h : ∀ c ∈ bound, c ≠ "" ∧ ',' ∉ c.toList) : decodeBoundCidrs (encodeBoundCidrs bound) = bound := by
  cases bound
  case nil => rfl
  case cons c bound =>
    have hs : (encodeBoundCidrs (c :: bound)).toList.splitOn ',' = (c :: bound).map String.toList := by
      rw [encodeBoundCidrs, String.toList_intercalate]
      refine List.splitOn_intercalate ',' (fun l hl => ?_) (by simp)
      have ⟨c, hc, he⟩ := List.mem_map.mp hl
      exact he ▸ (h c hc).2
    have hne : ¬ (encodeBoundCidrs (c :: bound)).isEmpty := fun he => by
      rw [String.isEmpty_iff.mp he] at hs
      have hc : [] = c.toList := (List.cons.inj hs).1
      exact (h c (by simp)).1 (by simpa using hc.symm)
    rw [decodeBoundCidrs, if_neg hne, hs]
    simp

section Scope

variable [Ipnet]

-- What the token of an enrollment in segment `s` lets it do.
structure Authorised (db : Db) (token : TokenRow) (s : Nat) (db' : Db) : Prop where
  bound : token.kind = .gateway → decodeBoundCidrs token.boundCidrs ≠ [] ∧
    ∀ c ∈ decodeBoundCidrs token.boundCidrs, ∃ n : Ipv4Net, Ipnet.parse c = .ok n ∧
      ⟨s, n.display⟩ ∈ db.cidrs
  free : token.kind = .gateway → ∀ g ∈ db.gateways, g.segmentId = s → g.status ≠ .active
  rebound : token.kind = .rebind → token.rebindSegmentId = some s
  replaced : token.kind = .rebind → ∀ g ∈ db.gateways, g.segmentId = s → g.status = .active →
    ∀ c ∈ db'.certificates, c.subjectKind = .gateway → c.subjectId = g.id → c.revokedAt.isSome

omit [Ipnet] in
theorem segmentOfCidrs_ok {nets : List Ipv4Net} (h : db.segmentOfCidrs seen nets = .ok (some s)) :
    (∀ t ∈ seen, t = s) ∧ ∀ n ∈ nets, ⟨s, n.display⟩ ∈ db.cidrs := by
  induction nets generalizing seen
  case nil =>
    cases h
    simp
  case cons n nets ih =>
    have row {t} (ht : (db.cidrs.find? (·.cidr = n.display)).map (·.segmentId) = some t) :
        ⟨t, n.display⟩ ∈ db.cidrs := by
      have ⟨row, hr, hs⟩ := Option.map_eq_some_iff.mp ht
      have hc : row.cidr = n.display := by simpa using List.find?_some hr
      exact hs ▸ hc ▸ List.mem_of_find?_eq_some hr
    rw [segmentOfCidrs.eq_def] at h
    dsimp only at h
    split at h
    case h_1 => cases h
    case h_2 t ht =>
      have ⟨he, hn⟩ := ih h
      exact ⟨by simp, List.forall_mem_cons.mpr ⟨he t rfl ▸ row ht, hn⟩⟩
    case h_3 t u ht =>
      split at h
      case isTrue => cases h
      case isFalse hu =>
        have ⟨he, hn⟩ := ih h
        have hu : t = u := not_not.mp hu
        exact ⟨he, List.forall_mem_cons.mpr ⟨he u rfl ▸ hu ▸ row ht, hn⟩⟩

theorem checkBoundCidrs_ok (h : checkBoundCidrs stored nets = .ok ()) :
    decodeBoundCidrs stored ≠ [] ∧
    ∀ c ∈ decodeBoundCidrs stored, ∃ n ∈ nets, Ipnet.parse c = .ok n := by
  have ⟨bound, hb, h⟩ := bind_ok.mp h
  split at h
  case isFalse => cases h
  case isTrue hn =>
    refine ⟨fun he => hn.1 ?_, fun c hc => ?_⟩
    case refine_1 =>
      rw [he] at hb
      cases hb
      rfl
    case refine_2 =>
      have ⟨n, hm, hp⟩ := mapM_mem_left hb hc
      refine ⟨n, hn.2.1 hm, ?_⟩
      split at hp
      case h_1 hc => exact hc.trans (congrArg _ (Except.ok.inj hp))
      case h_2    => cases hp

omit [Ipnet] in
-- The certificates of those who have made room are revoked. The new one is nobody's of them.
theorem Added.revoked (ha : Added s args g db₁ db') (hw : Withdrew gs serials db db₁)
    (hr : row ∈ db.gateways) (hg : row.id ∈ gs) (hc : c ∈ db'.certificates)
    (hk : c.subjectKind = .gateway) (hs : c.subjectId = row.id) : c.revokedAt.isSome := by
  have ⟨f, hf, he, hrev⟩ := hw.certificates
  rw [ha.eq, he] at hc
  cases List.mem_append.mp hc
  case inl hc =>
    have ⟨c₀, hc₀, e⟩ := List.mem_map.mp hc
    subst e
    exact hrev c₀ hc₀ ((hf.subject c₀).1 ▸ hk) ((hf.subject c₀).2 ▸ hs ▸ hg)
  case inr hc =>
    rw [List.mem_singleton.mp hc] at hs
    have ⟨k, hk, hm, _⟩ := hw.gateways
    have hid : row.id ∈ db₁.gateways.map (·.id) := by
      rw [hm, List.map_map]
      exact List.mem_map.mpr ⟨row, hr, hk.id row⟩
    exact absurd (hs ▸ hid) (ha.id ▸ nextId_not_mem _)

theorem Enrolled.authorised (h : Enrolled db args out db') :
    ∃ token, db.redeems (.enrollGateway args) = some token ∧
      Authorised db token out.segmentId db' ∧
      newGateway out.gatewayId out.segmentId args ∈ db'.gateways := by
  cases h
  case intro token s certs db₁ g db₂ _ ht hb hs hc ha =>
    have ⟨kind, hw⟩ := claimSegment_ok hc
    have on {g} : g ∈ db.activeGatewaysOn s ↔
        ∃ row ∈ db.gateways, row.segmentId = s ∧ row.status = .active ∧ row.id = g := by
      simp [activeGatewaysOn, and_assoc]
    refine ⟨token, ht, ⟨fun hk => ?_, fun hk => ?_, fun hk => ?_, fun hk => ?_⟩, ?_⟩
    case refine_1 =>
      have ⟨hne, hp⟩ := checkBoundCidrs_ok (hb (by simp [hk]))
      refine ⟨hne, fun c hc => ?_⟩
      have ⟨n, hn, hc⟩ := hp c hc
      exact ⟨n, hc, (segmentOfCidrs_ok hs).2 n hn⟩
    case refine_2 =>
      have none := (kind.resolve_left (by simp [hk])).2
      intro row hr hs ha
      have hm : row.id ∈ db.activeGatewaysOn s := on.mpr ⟨row, hr, hs, ha, rfl⟩
      simp [none] at hm
    case refine_3 => exact (kind.resolve_right (by simp [hk])).2
    case refine_4 =>
      intro row hr hs hact c hc
      exact ha.revoked hw hr (on.mpr ⟨row, hr, hs, hact, rfl⟩) hc
    case refine_5 => simp [bumpRevision, spendToken, ha.eq]

end Scope

-- What a commit does to the tokens. Only an unused one can be spent.
inductive TokenMove (db : Db) : Option TokenRow → List TokenRow → Prop
  | same : TokenMove db none db.tokens
  | minted : (∀ t ∈ db.tokens, t.id ≠ token.id) → TokenMove db none (db.tokens ++ [token])
  | spent : token ∈ db.tokens → token.usedAt = none →
      TokenMove db (some token) (db.spendToken token.id now).tokens

theorem FabricOnly.tokenMove (h : FabricOnly db db') : TokenMove db none db'.tokens := by
  have ⟨_, _, _, _, e⟩ := h
  exact e ▸ .same

theorem KeysOnly.tokenMove (h : KeysOnly db db') : TokenMove db none db'.tokens := by
  cases h
  exact .same

section Commit

variable [Ipnet] [Sha256] [IpnetV6] [PolicyText]

-- The token that a transaction has spent, if it has been committed.
def spends (x : Db × Tx) : Option TokenRow :=
  match (x.1.commit x.2).1 with
  | .ok _    => x.1.redeems x.2
  | .error _ => none

theorem spends_of_ok (h : db.transact t = .ok (a, db')) : spends (db, t) = db.redeems t := by
  simp [spends, commit_of_ok h]

theorem spends_of_error (h : db.transact t = .error e) : spends (db, t) = none := by
  simp [spends, commit_of_error h]

omit [Sha256] [IpnetV6] [PolicyText] in
theorem Enrolled.tokenMove (h : Enrolled db args out db') :
    TokenMove db (db.redeems (.enrollGateway args)) db'.tokens := by
  cases h
  case intro token s certs db₁ g db₂ _ ht _ _ hc ha =>
    have ⟨hm, _, hu, _⟩ := redeemable_some ht
    have ⟨_, _, e₁⟩ := (claimSegment_ok hc).2.eq
    have e : db₂.tokens = db.tokens := by rw [ha.eq, e₁]
    have moved : TokenMove db (some token) (db.spendToken token.id args.now).tokens := .spent hm hu
    rw [redeems, ht]
    simpa [spendToken, bumpRevision, e] using moved

theorem tokenMove_transact (h : db.transact t = .ok (a, db')) :
    TokenMove db (db.redeems t) db'.tokens := by
  by_cases ht : t.isEnrollment
  case pos =>
    cases t <;> try cases ht
    case enrollGateway => exact (enrollGateway_ok h).tokenMove
    case enrollRelay =>
      have ⟨token, ht, _, _, _, he⟩ := enrollRelay_ok h
      have ⟨hm, _, hu, _⟩ := redeemable_some ht
      rw [redeems, ht, he]
      exact .spent hm hu
  case neg =>
    have none : db.redeems t = none := by
      cases t
      case enrollGateway => exact absurd rfl ht
      case enrollRelay   => exact absurd rfl ht
      all_goals rfl
    rw [none]
    cases wrote_of_ok h
    case fabric hf   => exact hf.tokenMove
    case keys hk     => exact hk.tokenMove
    case minted hn   => exact .minted hn
    case enrolled    => exact absurd rfl ht
    case relayed     => exact absurd rfl ht
    all_goals exact .same

theorem tokenMove_commit (t : Tx) : TokenMove db (spends (db, t)) (db.commit t).2.tokens := by
  cases h : db.transact t
  case error => exact spends_of_error h ▸ commit_of_error h ▸ .same
  case ok    => exact spends_of_ok h ▸ commit_of_ok h ▸ tokenMove_transact h

omit [Ipnet] [Sha256] [IpnetV6] [PolicyText] in
theorem spendToken_ids : (db.spendToken token now).tokens.map (·.id) = db.tokens.map (·.id) := by
  rw [spendToken, List.map_map]
  refine List.map_congr_left fun t _ => ?_
  dsimp only [Function.comp_apply]
  split <;> rfl

omit [Ipnet] [Sha256] [IpnetV6] [PolicyText] in
theorem spendToken_used (ht : t ∈ db.tokens) (hu : t.usedAt.isSome ∨ t.id = token) :
    ∃ t' ∈ (db.spendToken token now).tokens, t'.id = t.id ∧ t'.usedAt.isSome := by
  refine ⟨_, List.mem_map_of_mem ht, ?_⟩
  split
  case isTrue => exact ⟨rfl, rfl⟩
  case isFalse hn =>
    refine ⟨rfl, hu.elim (fun hu => hu) fun hi => ?_⟩
    exact Option.isSome_iff_ne_none.mpr fun he => hn ⟨hi, he⟩

-- The tokens that have been spent in the course of a run, and those on file at its end.
structure TokensOk (h : List (Db × Tx)) (tokens : List TokenRow) : Prop where
  ids : (tokens.map (·.id)).Nodup
  used : ∀ token ∈ h.filterMap spends, ∃ t ∈ tokens, t.id = token.id ∧ t.usedAt.isSome
  once : ((h.filterMap spends).map (·.id)).Nodup

theorem TokensOk.step {tokens : List TokenRow} (ok : TokensOk h db.tokens)
    (hm : TokenMove db (spends (db, t)) tokens) : TokensOk ((db, t) :: h) tokens := by
  generalize hs : spends (db, t) = spent at hm
  cases hm
  case same =>
    have he : ((db, t) :: h).filterMap spends = h.filterMap spends := by simp [hs]
    exact ⟨ok.ids, he ▸ ok.used, he ▸ ok.once⟩
  case minted token hn =>
    have he : ((db, t) :: h).filterMap spends = h.filterMap spends := by simp [hs]
    refine ⟨?_, fun x hx => ?_, he ▸ ok.once⟩
    case refine_1 =>
      rw [List.map_append, List.nodup_append]
      simpa [ok.ids] using hn
    case refine_2 =>
      have ⟨t, ht, hu⟩ := ok.used x (he ▸ hx)
      exact ⟨t, List.mem_append_left _ ht, hu⟩
  case spent token now ht hu =>
    have he : ((db, t) :: h).filterMap spends = token :: h.filterMap spends := by simp [hs]
    refine ⟨by rw [spendToken_ids]; exact ok.ids, fun x hx => ?_, ?_⟩
    case refine_1 =>
      rw [he] at hx
      cases List.mem_cons.mp hx
      case inl hx =>
        rw [hx]
        exact spendToken_used ht (.inr rfl)
      case inr hx =>
        have ⟨t, ht, hi, hu⟩ := ok.used x hx
        exact hi ▸ spendToken_used ht (.inl hu)
    case refine_2 =>
      rw [he, List.map_cons]
      refine List.nodup_cons.mpr ⟨fun hm => ?_, ok.once⟩
      -- A token of this id that has been spent before would be the same row, which is unused.
      have ⟨x, hx, hi⟩ := List.mem_map.mp hm
      have ⟨t, ht', hi', hu'⟩ := ok.used x hx
      have same : t = token := List.inj_on_of_nodup_map ok.ids ht' ht (hi'.trans hi)
      simp [same, hu] at hu'

theorem tokensOk_run (r : Run Step .empty h db) : TokensOk h db.tokens := by
  refine r.invariant (I := fun h db => TokensOk h db.tokens) ?_ ?_
  case refine_1 => exact ⟨.nil, by simp, .nil⟩
  case refine_2 =>
    intro h db t db' _ ok hs
    rw [hs]
    exact ok.step (tokenMove_commit t)

omit [Sha256] [IpnetV6] [PolicyText] in
theorem Enrolled.peerCount (h : Enrolled db args out db') : db'.peerCount = db.peerCount + 1 := by
  cases h
  case intro token s certs db₁ g db₂ _ _ _ _ hc ha =>
    have ⟨_, _, he, _⟩ := (claimSegment_ok hc).2.gateways
    have ⟨_, _, e₁⟩ := (claimSegment_ok hc).2.eq
    have hr : db₂.relays = db.relays := by rw [ha.eq, e₁]
    have hg : db₂.gateways.length = db.gateways.length + 1 := by simp [ha.eq, he]
    change db₂.gateways.length + db₂.relays.length = db.gateways.length + db.relays.length + 1
    rw [hr, hg]
    omega

-- An enrollment that is let in brings one gateway or one relay, any other brings none.
theorem peerCount_commit (he : t.isEnrollment) :
    (db.commit t).2.peerCount = db.peerCount + (spends (db, t)).toList.length := by
  cases h : db.transact t
  case error => simp [commit_of_error h, spends_of_error h]
  case ok x =>
    rw [commit_of_ok h, spends_of_ok h]
    cases t <;> try cases he
    case enrollGateway args =>
      have he := enrollGateway_ok h
      have ⟨_, ht, _⟩ := he.authorised
      rw [ht]
      exact he.peerCount
    case enrollRelay =>
      have ⟨token, ht, _, _, _, he⟩ := enrollRelay_ok h
      rw [redeems, ht, he]
      simp [peerCount, bumpRevision, spendToken, addRelay, Nat.add_assoc]

-- A token lets one peer in, a gateway only where the token says, and is left as it was by a call that
-- is refused.
theorem tokens_authorise_enrollments (r : Run Step .empty h db) :
    ((h.filterMap spends).map (·.id)).Nodup ∧
    (∀ x ∈ h, x.2.isEnrollment →
      (x.1.commit x.2).2.peerCount = x.1.peerCount + (spends x).toList.length) ∧
    (∀ args out db', db.enrollGateway args = .ok (out, db') →
      ∃ token, spends (db, .enrollGateway args) = some token ∧ token ∈ db.tokens ∧
        (token.kind = .gateway ∨ token.kind = .rebind) ∧ token.secretHash = args.secretHash ∧
        Authorised db token out.segmentId db' ∧
        newGateway out.gatewayId out.segmentId args ∈ db'.gateways) ∧
    (∀ t e, t.isEnrollment → (db.commit t).1 = .error e → (db.commit t).2 = db) ∧
    ∀ bound : List String, (∀ c ∈ bound, c ≠ "" ∧ ',' ∉ c.toList) →
      decodeBoundCidrs (encodeBoundCidrs bound) = bound := by
  refine ⟨(tokensOk_run r).once, fun x _ => peerCount_commit, fun args out db' he => ?_,
    fun t e _ he => commit_error he, fun _ => decodeBoundCidrs_encodeBoundCidrs⟩
  have ⟨token, ht, authorised, row⟩ := (enrollGateway_ok he).authorised
  have ⟨hm, hs, _, _, hk⟩ := redeemable_some ht
  have ok : db.transact (.enrollGateway args) = .ok (out, db') := he
  exact ⟨token, (spends_of_ok ok).trans ht, hm, by simpa using hk, hs, authorised, row⟩

end Commit

open StandIn in
theorem tokens_authorise_enrollments_rebound :
    (committed reboundTxs).1.countP (·.2.isEnrollment) = 5 ∧
    ((committed reboundTxs).1.filterMap spends).map (·.id) =
      ["token dd", "token cc", "token bb", "token aa"] ∧
    (((committed reboundTxs).1.filterMap spends).map (·.id)).Nodup ∧
    ∀ x ∈ (committed reboundTxs).1, x.2.isEnrollment →
      (x.1.commit x.2).2.peerCount = x.1.peerCount + (spends x).toList.length := by
  obtain ⟨once, counted, _⟩ := tokens_authorise_enrollments (Run.run_trace Db.empty reboundTxs)
  exact ⟨by decide +kernel, by decide +kernel, once, counted⟩

end Db
end Controller
