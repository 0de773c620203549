import WireMesh.Controller.Theorems.Enroll

-- What any commit does to each table.
namespace Controller

-- The transactions that are about segments and the policy.
def Tx.OnFabric : Tx → Prop
  | createSegment _ _ => True
  | deleteSegment _   => True
  | applyFabric _ _   => True
  | _                 => False

-- Those that are about the keys of one gateway.
def Tx.OnKeys : Tx → Prop
  | rotateKey _          => True
  | setEpochPubkey _ _ _ => True
  | promoteEpoch _ _     => True
  | retireEpoch _ _      => True
  | dropPendingEpoch _ _ => True
  | _                    => False

namespace Db

open Policy Checked

variable {db db' : Db}

-- What a commit does to the gateways. One that enrolls has its name and its segment for itself.
inductive GatewayMove (db : Db) : Tx → List GatewayRow → Prop
  | kept : Keeps f → GatewayMove db t (db.gateways.map f)
  | enrolled : (∀ g ∈ db.gateways, g.name ≠ args.gatewayName) →
      Keeps f → (∀ g ∈ db.gateways, g.segmentId = s → (f g).status ≠ .active) →
      GatewayMove db (.enrollGateway args)
        (db.gateways.map f ++ [newGateway (nextId (db.gateways.map (·.id))) s args])

theorem GatewayMove.same : GatewayMove db t db.gateways := by
  have h : GatewayMove db t (db.gateways.map fun g => g) := .kept .refl
  simpa using h

theorem FabricOnly.gatewayMove (h : FabricOnly db db') : GatewayMove db t db'.gateways := by
  have ⟨_, _, _, _, e⟩ := h
  exact e ▸ .same

theorem Enrolled.gatewayMove [Ipnet] (h : Enrolled db args out db') :
    GatewayMove db (.enrollGateway args) db'.gateways := by
  cases h
  case intro token s certs db₁ g db₂ _ _ _ _ hc ha =>
    have ⟨f, hf, he, hg⟩ := (claimSegment_ok hc).2.gateways
    have hid : (db₁.gateways.map (·.id)) = db.gateways.map (·.id) := by
      simp [he, Function.comp_def, hf.id]
    have hn : g = nextId (db.gateways.map (·.id)) := ha.id.trans (by rw [hid])
    have name : ∀ row ∈ db.gateways, row.name ≠ args.gatewayName := fun row hr =>
      hf.name row ▸ ha.name (f row) (he ▸ List.mem_map_of_mem hr)
    have hm : GatewayMove db (.enrollGateway args) (db.gateways.map f ++ [newGateway g s args]) := by
      refine hn ▸ .enrolled name hf fun row hr hs => ?_
      by_cases ha : row.status = .active
      case pos =>
        refine (hg row).1 (List.mem_map_of_mem (List.mem_filter.mpr ⟨hr, ?_⟩))
        simpa using ⟨hs, ha⟩
      case neg => exact fun h => ha (hf.active row h)
    simpa [ha.eq, he, spendToken, bumpRevision] using hm

theorem rotateKey_ok (h : db.rotateKey g = .ok (epoch, db')) :
    db.gatewayIsActive g ∧ epoch = ((db.maxEpoch g).map (· + 1)).getD 0 ∧
    db' = { db with
      keys     := db.keys ++ [⟨g, epoch, AWAITING_SUBMISSION_SENTINEL, .pending⟩]
      revision := db.revision + 1 } := by
  rw [rotateKey] at h
  split at h
  case isFalse => cases h
  case isTrue ha =>
    cases h
    exact ⟨ha, rfl, rfl⟩

theorem updateGateway_gatewayMove (hf : Keeps f) :
    GatewayMove db t (db.updateGateway g f).gateways :=
  .kept hf.ite

def observe (addr : String) (row : GatewayRow) : GatewayRow :=
  if row.status = .active then { row with candidateEndpoint := some addr } else row

theorem Keeps.observe : Keeps (observe addr) :=
  Keeps.ite ⟨fun _ => rfl, fun _ => rfl, fun _ => rfl, fun _ h => h⟩

theorem setCandidateEndpoint_ok (h : db.setCandidateEndpoint g addr = .ok (out, db')) :
    db.gatewayIsActive g ∧ (out = none ∧ db' = db ∨
      out = some (db.revision + 1) ∧ db' = (db.updateGateway g (observe addr)).bumpRevision) := by
  rw [setCandidateEndpoint] at h
  split at h
  case h_1 => cases h
  case h_2 row hr =>
    have ha : db.gatewayIsActive g := List.any_eq_true.mpr
      ⟨row, List.mem_of_find?_eq_some hr, by simpa using List.find?_some hr⟩
    split at h
    case isTrue =>
      cases h
      exact ⟨ha, .inl ⟨rfl, rfl⟩⟩
    case isFalse =>
      cases h
      exact ⟨ha, .inr ⟨rfl, rfl⟩⟩

theorem setLocalCandidates_ok (h : db.setLocalCandidates g endpoints = .ok (out, db')) :
    db.gatewayIsActive g ∧ (out = none ∧ db' = db ∨
      out = some (db.revision + 1) ∧ ∃ rows, (∀ c ∈ rows, c.gatewayId = g) ∧ db' = { db with
        candidates := db.candidates.filter (·.gatewayId ≠ g) ++ rows
        revision   := db.revision + 1 }) := by
  rw [setLocalCandidates] at h
  split at h
  case isFalse => cases h
  case isTrue ha =>
    dsimp only at h
    split at h
    case isTrue =>
      cases h
      exact ⟨ha, .inl ⟨rfl, rfl⟩⟩
    case isFalse =>
      cases h
      exact ⟨ha, .inr ⟨rfl, _, by simp, rfl⟩⟩

theorem setAppliedVersion_ok (h : db.setAppliedVersion g v = .ok db') :
    db' = db.updateGateway g ({ · with appliedVersion := some v }) := by
  rw [setAppliedVersion] at h
  split at h
  case isTrue => cases h
  case isFalse =>
    split at h
    case isFalse => cases h
    case isTrue =>
      cases h
      rfl

theorem drainGateway_ok (h : db.drainGateway g now = .ok (serials, db')) :
    (∃ row ∈ db.gateways, row.id = g) ∧ serials = (db.unrevokedCerts g).map (·.serial) ∧
    db' = (db.withdraw g .removed now).bumpRevision := by
  rw [drainGateway] at h
  split at h
  case isFalse => cases h
  case isTrue hg =>
    cases h
    exact ⟨by simpa using hg, rfl, rfl⟩

theorem insertRelay_ok (h : db.insertRelay name endpoint = .ok (r, db')) :
    (∀ row ∈ db.relays, row.name ≠ name) ∧ r = nextId (db.relays.map (·.id)) ∧
    db' = { db with
      relays   := db.relays ++ [⟨r, name, endpoint, .active⟩]
      revision := db.revision + 1 } := by
  rw [insertRelay] at h
  split at h
  case isTrue => cases h
  case isFalse hn =>
    cases h
    exact ⟨by simpa using hn, rfl, rfl⟩

theorem insertEnrollmentToken_ok (h : db.insertEnrollmentToken token = .ok db') :
    (∀ t ∈ db.tokens, t.id ≠ token.id) ∧ db' = { db with tokens := db.tokens ++ [token] } := by
  rw [insertEnrollmentToken] at h
  split at h
  case isTrue => cases h
  case isFalse hn =>
    split at h
    case isTrue => cases h
    case isFalse =>
      cases h
      exact ⟨by simpa using hn, rfl⟩

-- The transactions on single keys change nothing else, and nothing at all where they do not match.
inductive KeysOnly (db : Db) : Db → Prop
  | intro (rows : List KeyRow) (n : Nat) : KeysOnly db { db with keys := rows, revision := n }

theorem setEpochPubkey_keysOnly : KeysOnly db (db.setEpochPubkey g e pubkey).2 := by
  rw [setEpochPubkey]
  split <;> exact .intro ..

theorem promoteEpoch_keysOnly : KeysOnly db (db.promoteEpoch g e).2 := by
  rw [promoteEpoch]
  split <;> exact .intro ..

theorem retireEpoch_keysOnly : KeysOnly db (db.retireEpoch g e).2 := by
  rw [retireEpoch]
  split <;> exact .intro ..

theorem dropPendingEpoch_keysOnly : KeysOnly db (db.dropPendingEpoch g e).2 := by
  rw [dropPendingEpoch]
  split
  case isTrue  => exact .intro ..
  case isFalse => split <;> exact .intro ..

theorem KeysOnly.gatewayMove (h : KeysOnly db db') : GatewayMove db t db'.gateways := by
  cases h
  exact .same

-- What a transaction has written, table by table. One that writes nothing is among the others.
inductive Wrote [Ipnet] (db : Db) : (t : Tx) → t.Out → Db → Prop
  | fabric : t.OnFabric → FabricOnly db got → Wrote db t out got
  | enrolled : Enrolled db args out got → Wrote db (.enrollGateway args) out got
  | keys : t.OnKeys → KeysOnly db got → Wrote db t out got
  | minted : (∀ t ∈ db.tokens, t.id ≠ token.id) →
      Wrote db (.insertEnrollmentToken token) () { db with tokens := db.tokens ++ [token] }
  | relayed : db.redeemable secret now [.relay] = some token →
      Wrote db (.enrollRelay secret name endpoint serial handle now) r
        ((db.addRelay r name endpoint serial handle).spendToken token.id now).bumpRevision
  | drained : Wrote db (.drainGateway g now) serials (db.withdraw g .removed now).bumpRevision
  | observed : Wrote db (.setCandidateEndpoint g addr) (some n)
      (db.updateGateway g (observe addr)).bumpRevision
  | reported : (∀ c ∈ rows, c.gatewayId = g) → Wrote db (.setLocalCandidates g endpoints) (some n)
      { db with
        candidates := db.candidates.filter (·.gatewayId ≠ g) ++ rows
        revision   := db.revision + 1 }
  | versioned : Wrote db (.setAppliedVersion g v) ()
      (db.updateGateway g ({ · with appliedVersion := some v }))
  | other (relays certificates revision) :
      Wrote db t out { db with relays, certificates, revision }

theorem Wrote.same [Ipnet] : Wrote db t out db :=
  .other db.relays db.certificates db.revision

section Commit

variable [Ipnet] [Sha256] [IpnetV6] [PolicyText]

theorem commit_of_ok (h : db.transact t = .ok (a, db')) : db.commit t = (.ok a, db') := by
  rw [commit, h]

theorem commit_of_error (h : db.transact t = .error e) : db.commit t = (.error e, db) := by
  rw [commit, h]

theorem transact_of_commit (h : db.commit t = (.ok a, db')) : db.transact t = .ok (a, db') := by
  rw [commit] at h
  split at h
  case h_1 ht =>
    cases h
    exact ht
  case h_2 => cases h

theorem commit_error (h : (db.commit t).1 = .error e) : (db.commit t).2 = db := by
  rw [commit] at h ⊢
  split at h
  case h_1 => cases h
  case h_2 => rfl

omit [Ipnet] [Sha256] [IpnetV6] [PolicyText] in
theorem snd_of_ok {p : α × Db} (h : (.ok p : Except ε (α × Db)) = .ok (a, db')) : db' = p.2 :=
  congrArg Prod.snd (Except.ok.inj h).symm

-- What a transaction that is not rolled back keeps, every commit keeps.
theorem commit_induct {P : Db → Prop} (t : Tx) (h₀ : P db)
    (ok : ∀ {a db'}, db.transact t = .ok (a, db') → P db') : P (db.commit t).2 := by
  cases h : db.transact t
  case error => exact commit_of_error h ▸ h₀
  case ok    => exact commit_of_ok h ▸ ok h

theorem wrote_of_ok (h : db.transact t = .ok (out, db')) : Wrote db t out db' := by
  cases t
  case createSegment =>
    have ⟨_, hf, he⟩ := createSegment_ok h
    exact he ▸ .fabric trivial hf.fabricOnly.bumpRevision
  case deleteSegment =>
    have ⟨_, hd, he⟩ := map_ok.mp h
    cases he
    exact (deleteSegment_ok hd).2 ▸ .fabric trivial ⟨_, _, _, _, rfl⟩
  case applyFabric => exact .fabric trivial (applyFabric_ok h).fabricOnly
  case insertEnrollmentToken =>
    have ⟨_, hd, he⟩ := map_ok.mp h
    cases he
    have ⟨hn, hd⟩ := insertEnrollmentToken_ok hd
    exact hd ▸ .minted hn
  case enrollGateway => exact .enrolled (enrollGateway_ok h)
  case enrollRelay =>
    have ⟨_, ht, _, _, _, he⟩ := enrollRelay_ok h
    exact he ▸ .relayed ht
  case rotateKey        => exact (rotateKey_ok h).2.2 ▸ .keys trivial (.intro ..)
  case setEpochPubkey   => exact snd_of_ok h ▸ .keys trivial setEpochPubkey_keysOnly
  case promoteEpoch     => exact snd_of_ok h ▸ .keys trivial promoteEpoch_keysOnly
  case retireEpoch      => exact snd_of_ok h ▸ .keys trivial retireEpoch_keysOnly
  case dropPendingEpoch => exact snd_of_ok h ▸ .keys trivial dropPendingEpoch_keysOnly
  case drainGateway     => exact (drainGateway_ok h).2.2 ▸ .drained
  case revokeCert =>
    rw [snd_of_ok h, revokeCert]
    split <;> exact .other ..
  case setCandidateEndpoint =>
    have ⟨_, hd⟩ := setCandidateEndpoint_ok h
    cases hd
    case inl hd => exact hd.2 ▸ .same
    case inr hd => exact hd.1 ▸ hd.2 ▸ .observed
  case setLocalCandidates =>
    have ⟨_, hd⟩ := setLocalCandidates_ok h
    cases hd
    case inl hd => exact hd.2 ▸ .same
    case inr hd =>
      have ⟨ho, _, hr, he⟩ := hd
      exact ho ▸ he ▸ .reported hr
  case setAppliedVersion =>
    have ⟨_, hd, he⟩ := map_ok.mp h
    cases he
    exact setAppliedVersion_ok hd ▸ .versioned
  case insertRelay => exact (insertRelay_ok h).2.2 ▸ .other ..
  case setRelayStatus =>
    cases h
    exact .other ..

omit [Sha256] [IpnetV6] [PolicyText] in
theorem Wrote.gatewayMove (h : Wrote db t out db') : GatewayMove db t db'.gateways := by
  cases h
  case fabric hf   => exact hf.gatewayMove
  case enrolled he => exact he.gatewayMove
  case keys hk     => exact hk.gatewayMove
  case drained     => exact .kept (Keeps.withdrawn (by simp)).ite
  case observed    => exact updateGateway_gatewayMove .observe
  case versioned   =>
    exact updateGateway_gatewayMove ⟨fun _ => rfl, fun _ => rfl, fun _ => rfl, fun _ h => h⟩
  all_goals exact .same

theorem gatewayMove_commit (t : Tx) : GatewayMove db t (db.commit t).2.gateways :=
  commit_induct (P := fun db' => GatewayMove db t db'.gateways) t .same
    fun h => (wrote_of_ok h).gatewayMove

-- A run of the database: one transaction after the other, whatever its arguments.
abbrev Step (db : Db) (t : Tx) (db' : Db) : Prop :=
  db' = (db.commit t).2

end Commit
end Db
end Controller
