import WireMesh.Lib.Checked
import WireMesh.Controller.Ops

-- What a transaction on the segments and the policy has done when it has been committed.
namespace Controller.Db

open Policy Checked

theorem lt_nextId {ids : List Nat} (h : n ∈ ids) : n < nextId ids := by
  induction ids
  case nil => cases h
  case cons m ids ih =>
    simp only [nextId, List.foldr_cons] at ih ⊢
    cases List.mem_cons.mp h
    case inl h => omega
    case inr h => have := ih h; omega

theorem nextId_not_mem (ids : List Nat) : nextId ids ∉ ids :=
  fun h => Nat.lt_irrefl _ (lt_nextId h)

section Frame

variable {db db' : Db}

-- Only what a fabric document is about has changed.
def FabricOnly (db db' : Db) : Prop :=
  ∃ segments cidrs policies revision, db' = { db with segments, cidrs, policies, revision }

theorem FabricOnly.refl (db : Db) : FabricOnly db db :=
  ⟨_, _, _, _, rfl⟩

theorem FabricOnly.trans (h₁ : FabricOnly db db₁) (h₂ : FabricOnly db₁ db') : FabricOnly db db' := by
  have ⟨_, _, _, _, e₁⟩ := h₁
  have ⟨_, _, _, _, e₂⟩ := h₂
  exact ⟨_, _, _, _, by rw [e₂, e₁]⟩

theorem FabricOnly.bumpRevision (h : FabricOnly db db') : FabricOnly db db'.bumpRevision :=
  h.trans ⟨_, _, _, _, rfl⟩

end Frame

section Segments

variable [Ipnet] {db db' : Db}

theorem findConflict_none (h : findConflict n rows = .ok none) (hr : row ∈ rows) :
    ∃ m, Ipnet.parse row.1 = .ok m ∧ overlaps n m = false := by
  induction rows
  case nil => cases hr
  case cons first rows ih =>
    simp only [findConflict, bind_ok] at h
    have ⟨m, hm, h⟩ := h
    split at h
    case isTrue => simp [pure, Except.pure] at h
    case isFalse ho =>
      cases List.mem_cons.mp hr
      case inl hr => exact ⟨m, hr ▸ hm, by simpa using ho⟩
      case inr hr => exact ih h hr

-- The row of a CIDR that a segment has got.
def cidrRow (segmentId : Nat) (n : Ipv4Net) : CidrRow :=
  ⟨segmentId, n.display⟩

-- All CIDRs go in together, and none overlaps another of them or one of another segment.
structure Inserted (s : Nat) (nets : List Ipv4Net) (db db' : Db) : Prop where
  eq : db' = { db with cidrs := db.cidrs ++ nets.map (cidrRow s) }
  apart : nets.Pairwise fun n m => overlaps m n = false
  others : ∀ n ∈ nets, ∀ row ∈ db.othersCidrs s,
    ∃ m, Ipnet.parse row.1 = .ok m ∧ overlaps n m = false

omit [Ipnet] in
theorem othersCidrs_snoc (db : Db) :
    { db with cidrs := db.cidrs ++ [cidrRow s n] }.othersCidrs s = db.othersCidrs s := by
  simp [othersCidrs, List.filter_append, cidrRow]

theorem insertCidrs_ok (h : insertCidrs s name accepted db nets = .ok db') :
    Inserted s nets db db' ∧ ∀ n ∈ nets, ∀ m ∈ accepted, overlaps n m = false := by
  induction nets generalizing accepted db
  case nil =>
    cases h
    exact ⟨⟨by simp, .nil, by simp⟩, by simp⟩
  case cons n nets ih =>
    rw [insertCidrs] at h
    split at h
    case isTrue => cases h
    case isFalse ha =>
      have ⟨conflict, hc, h⟩ := bind_ok.mp h
      cases conflict
      case some => cases h
      case none =>
        have ⟨⟨heq, apart, others⟩, hacc⟩ := ih h
        have ha : ∀ m ∈ accepted, overlaps n m = false := by simpa using ha
        have hn : ∀ m ∈ nets, overlaps m n = false := fun m hm => hacc m hm n (by simp)
        refine ⟨⟨?_, .cons hn apart, ?_⟩, ?_⟩
        case refine_1 => simpa [cidrRow] using heq
        case refine_2 =>
          intro m hm row hr
          cases List.mem_cons.mp hm
          case inl hm => exact hm ▸ findConflict_none hc hr
          case inr hm => exact others m hm row (othersCidrs_snoc db ▸ hr)
        case refine_3 =>
          intro m hm
          cases List.mem_cons.mp hm
          case inl hm => exact hm ▸ ha
          case inr hm => exact fun k hk => hacc m hm k (by simp [hk])

-- A new segment has an id and a name of its own.
structure Founded (s : Nat) (name : String) (nets : List Ipv4Net) (db db' : Db) : Prop where
  id : s = nextId (db.segments.map (·.id))
  nonempty : nets ≠ []
  fresh : ∀ seg ∈ db.segments, seg.name ≠ name
  inserted : Inserted s nets { db with segments := db.segments ++ [⟨s, name⟩] } db'

theorem insertSegment_ok (h : db.insertSegment name nets = .ok (s, db')) :
    Founded s name nets db db' := by
  rw [insertSegment] at h
  split at h
  case isTrue => cases h
  case isFalse hn =>
    dsimp only at h
    split at h
    case isTrue => cases h
    case isFalse hf =>
      have ⟨db₁, hi, h⟩ := bind_ok.mp h
      cases h
      exact ⟨rfl, hn, by simpa using hf, (insertCidrs_ok hi).1⟩

theorem createSegment_ok (h : db.createSegment name nets = .ok (s, db')) :
    ∃ db₁, Founded s name nets db db₁ ∧ db' = db₁.bumpRevision := by
  have ⟨⟨_, db₁⟩, hi, h⟩ := bind_ok.mp h
  cases h
  exact ⟨db₁, insertSegment_ok hi, rfl⟩

omit [Ipnet] in
theorem deleteSegment_ok (h : db.deleteSegment s = .ok db') :
    (∀ g ∈ db.gateways, g.segmentId ≠ s) ∧
    db' = { db with
      cidrs    := db.cidrs.filter (·.segmentId ≠ s)
      segments := db.segments.filter (·.id ≠ s)
      revision := db.revision + 1 } := by
  rw [deleteSegment] at h
  split at h
  case isTrue => cases h
  case isFalse =>
    split at h
    case isTrue => cases h
    case isFalse hg =>
      split at h
      case isTrue => cases h
      case isFalse =>
        cases h
        exact ⟨by simpa using hg, rfl⟩

-- One declared segment of an apply: it is there as declared, gets other CIDRs, or is new.
inductive Declared (name : String) (nets : List Ipv4Net) (st : ApplyState) : ApplyState → Prop
  | same : Declared name nets st st
  | changed : seg ∈ st.db.segments → seg.name = name →
      Inserted seg.id nets { st.db with cidrs := st.db.cidrs.filter (·.segmentId ≠ seg.id) } got →
      Declared name nets st ⟨got, st.created, st.updated + 1,
        st.changed ++ [(seg.id, name, nets.map Ipv4Net.display)]⟩
  | created : Founded s name nets st.db got →
      Declared name nets st ⟨got, st.created + 1, st.updated, st.changed⟩

theorem applySegment_ok (h : applySegment existing st name nets = .ok st') :
    Declared name nets st st' := by
  rw [applySegment] at h
  split at h
  case isTrue =>
    dsimp only at h
    split at h
    case h_2 => cases h
    case h_1 seg hs =>
      have ⟨stored, _, h⟩ := bind_ok.mp h
      split at h
      case isTrue =>
        cases h
        exact .same
      case isFalse =>
        have ⟨db', hi, h⟩ := bind_ok.mp h
        cases h
        have hn : seg.name = name := by simpa using List.find?_some hs
        exact .changed (List.mem_of_find?_eq_some hs) hn (insertCidrs_ok hi).1
  case isFalse =>
    have ⟨_, hi, h⟩ := bind_ok.mp h
    cases h
    exact .created (insertSegment_ok hi)

-- What holds of every declared segment's step holds of them all.
theorem applySegments_induct {P : ApplyState → Prop} {declared : List (String × List Ipv4Net)}
    (step : ∀ {name nets st st'}, Declared name nets st st' → P st → P st')
    (h : declared.foldlM (fun st s => applySegment existing st s.1 s.2) st = .ok st') (h₀ : P st) :
    P st' := by
  induction declared generalizing st
  case nil =>
    cases h
    exact h₀
  case cons s declared ih =>
    rw [List.foldlM_cons] at h
    have ⟨st₁, hs, h⟩ := bind_ok.mp h
    exact ih h (step (applySegment_ok hs) h₀)

theorem Founded.fabricOnly (h : Founded s name nets db db') : FabricOnly db db' :=
  ⟨_, _, _, _, h.inserted.eq⟩

theorem Declared.fabricOnly (h : Declared name nets st st') (h₀ : FabricOnly db st.db) :
    FabricOnly db st'.db := by
  cases h
  case same           => exact h₀
  case changed _ _ hi => exact h₀.trans ⟨_, _, _, _, hi.eq⟩
  case created hf     => exact h₀.trans hf.fabricOnly

abbrev applyAll (existing : List String) (st : ApplyState)
    (declared : List (String × List Ipv4Net)) : Except String ApplyState :=
  declared.foldlM (fun st s => applySegment existing st s.1 s.2) st

-- The part of an apply that is about segments.
abbrev applySegments (db : Db) (declared : List (String × List Ipv4Net)) :
    Except String ApplyState :=
  applyAll (db.segments.map (·.name)) ⟨db, 0, 0, []⟩ declared

variable [Sha256] [IpnetV6] [PolicyText]

-- The latest source, compiled against the segments as they are.
structure Compiled (db : Db) (yaml : String) (version : Nat) (ir : PolicyIR) : Prop where
  ok : ∃ (defs : List SegmentDef) (src : PolicySource defs), db.readAllSegmentDefs = .ok defs ∧
    parsePolicy PolicyText.fromYaml yaml defs = .ok src ∧ compile src version = .ok ir

def policyRow (yaml : String) (version : Nat) (ir : PolicyIR) : PolicyRow where
  version     := version
  sourceYaml  := yaml
  compiledIr  := PolicyText.toCanonicalJson ir
  fingerprint := blocksFingerprint ir.blocks

def nextVersion (db : Db) : Nat :=
  (db.latestPolicyRow.map (·.version + 1)).getD 1

theorem applyPolicy_ok (h : db.applyPolicy yaml = .ok (updated, db')) :
    ∃ ir, Compiled db yaml db.nextVersion ir ∧
      (updated = false ∧ db' = db ∧
        db.latestPolicyRow.map (·.fingerprint) = some (blocksFingerprint ir.blocks) ∨
       updated = true ∧
        db' = { db with policies := db.policies ++ [policyRow yaml db.nextVersion ir] }) := by
  rw [applyPolicy] at h
  have ⟨defs, hd, h⟩ := bind_ok.mp h
  dsimp only at h
  split at h
  case h_2 => cases h
  case h_1 src hp =>
    rw [pure_bind] at h
    split at h
    case h_2 => cases h
    case h_3 => cases h
    case h_1 ir hc =>
      rw [pure_bind] at h
      refine ⟨ir, ⟨defs, src, hd, hp, hc⟩, ?_⟩
      split at h
      case isTrue hf =>
        cases h
        exact .inl ⟨rfl, rfl, hf⟩
      case isFalse =>
        cases h
        exact .inr ⟨rfl, rfl⟩

-- An apply that has changed something: the segments one by one, then the policy.
inductive Applied (db : Db) (declared : List (String × List Ipv4Net)) (policyYaml : Option String) :
    ApplyOutcome → Db → Prop
  | nothing : Applied db declared policyYaml ⟨0, 0, false, []⟩ db
  | segments : db.applySegments declared = .ok st →
      policyYaml = none → (st.changed = [] ∨ st.db.latestPolicyRow = none) →
      Applied db declared policyYaml ⟨st.created, st.updated, false, st.changed⟩ st.db.bumpRevision
  | policy : db.applySegments declared = .ok st →
      (policyYaml = some yaml ∨
        policyYaml = none ∧ st.changed ≠ [] ∧ st.db.latestPolicyRow.map (·.sourceYaml) = some yaml) →
      st.db.applyPolicy yaml = .ok (updated, got) →
      Applied db declared policyYaml ⟨st.created, st.updated, updated, st.changed⟩ got.bumpRevision

theorem applyFabric_ok (h : db.applyFabric declared policyYaml = .ok (out, db')) :
    Applied db declared policyYaml out db' := by
  rw [applyFabric] at h
  have ⟨st, hs, h⟩ := bind_ok.mp h
  dsimp only at h
  split at h
  case h_1 yaml hy =>
    have ⟨⟨updated, db₁⟩, hp, h⟩ := bind_ok.mp h
    dsimp only at h
    split at h
    case isTrue =>
      cases h
      exact .nothing
    case isFalse =>
      cases h
      refine .policy hs ?_ hp
      split at hy
      case h_1 source => exact .inl hy
      case h_2 =>
        split at hy
        case isTrue => cases hy
        case isFalse hc => exact .inr ⟨rfl, hc, hy⟩
  case h_2 hy =>
    rw [pure_bind] at h
    dsimp only at h
    split at h
    case isTrue =>
      cases h
      exact .nothing
    case isFalse =>
      cases h
      split at hy
      case h_1 => cases hy
      case h_2 =>
        split at hy
        case isTrue hc => exact .segments hs rfl (.inl hc)
        case isFalse => exact .segments hs rfl (.inr (by simpa using hy))

theorem Applied.fabricOnly (h : Applied db declared policyYaml out db') : FabricOnly db db' := by
  have start {existing} {st : ApplyState}
      (h : declared.foldlM (fun st s => applySegment existing st s.1 s.2) ⟨db, 0, 0, []⟩ = .ok st) :
      FabricOnly db st.db :=
    applySegments_induct (P := fun st => FabricOnly db st.db) Declared.fabricOnly h (.refl db)
  cases h
  case nothing          => exact .refl db
  case segments hs _ _  => exact (start hs).bumpRevision
  case policy hs _ hp   =>
    have ⟨_, _, hd⟩ := applyPolicy_ok hp
    refine ((start hs).trans ?_).bumpRevision
    cases hd
    case inl hd => exact hd.2.1 ▸ .refl _
    case inr hd => exact hd.2 ▸ ⟨_, _, _, _, rfl⟩

end Segments

end Controller.Db
