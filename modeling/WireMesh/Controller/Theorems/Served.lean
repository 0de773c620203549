import WireMesh.Policy.Theorems.Table
import WireMesh.Controller.StandIn
import WireMesh.Controller.Theorems.Segments

-- Whether the policy that gateways are served is what its source means for the segments as they are.
namespace Controller

open Policy Checked

def Tx.deletes : Tx → Option Nat
  | deleteSegment s => some s
  | _               => none

def namesSegment [PolicyText] (yaml name : String) : Bool :=
  match PolicyText.fromYaml yaml with
  | .ok doc  => doc.policy.any fun block => block.fromName = name ∨ block.toName = name
  | .error _ => false

-- A segment is deleted that the latest source does not name.
def SparesPolicy [PolicyText] (x : Db × Tx) : Prop :=
  ∀ s ∈ x.2.deletes, ∀ seg ∈ x.1.segments, seg.id = s →
    ∀ row ∈ x.1.latestPolicyRow, ¬ namesSegment row.sourceYaml seg.name

instance [PolicyText] (x : Db × Tx) : Decidable (SparesPolicy x) :=
  inferInstanceAs (Decidable (∀ s ∈ x.2.deletes, _))

namespace Db

section Lookup

variable {db db' : Db}

-- The CIDRs of the segment of a name, as they are stored.
def lookup (db : Db) (name : String) : Option (List String) :=
  (db.segments.find? (·.name = name)).map fun s => db.cidrsForSegment s.id

theorem cidrsForSegment_sorted : (db.cidrsForSegment s).Pairwise (· ≤ ·) :=
  List.pairwise_insertionSort _ _

theorem lookup_founded [Ipnet] (hf : Founded s name nets db db') (hl : db.lookup n = some texts) :
    db'.lookup n = some texts := by
  have ⟨seg, hs, ht⟩ := Option.map_eq_some_iff.mp hl
  have hne : s ≠ seg.id := by
    have hm : seg.id ∈ db.segments.map (·.id) := List.mem_map_of_mem (List.mem_of_find?_eq_some hs)
    exact fun he => nextId_not_mem _ (hf.id ▸ he ▸ hm)
  have none : (nets.map (cidrRow s)).filter (·.segmentId = seg.id) = [] := by simp [cidrRow, hne]
  have hc : db'.cidrsForSegment seg.id = db.cidrsForSegment seg.id := by
    simp only [cidrsForSegment, hf.inserted.eq, List.filter_append, none, List.append_nil]
  have hs' : db'.segments.find? (·.name = n) = some seg := by
    rw [hf.inserted.eq, List.find?_append, hs]
    rfl
  rw [lookup, hs', ← ht, ← hc]
  rfl

theorem find?_filter_of_imp {p q : α → Bool} {l : List α} (h : ∀ a ∈ l, q a → p a) :
    (l.filter p).find? q = l.find? q := by
  induction l
  case nil => rfl
  case cons a l ih =>
    have ⟨ha, hl⟩ := List.forall_mem_cons.mp h
    rw [List.filter_cons]
    split
    case isTrue    => rw [List.find?_cons, List.find?_cons, ih hl]
    case isFalse hp => rw [ih hl, List.find?_cons_of_neg (mt ha hp)]

theorem lookup_deleteSegment (hd : db.deleteSegment s = .ok db')
    (hn : ∀ seg ∈ db.segments, seg.id = s → seg.name ≠ n) : db'.lookup n = db.lookup n := by
  have hd := (deleteSegment_ok hd).2
  have hf : db'.segments.find? (·.name = n) = db.segments.find? (·.name = n) := by
    rw [hd]
    refine find?_filter_of_imp fun seg hs he => ?_
    simpa using fun hi => hn seg hs hi (by simpa using he)
  rw [lookup, lookup, hf]
  refine Option.map_congr fun seg hs => ?_
  have hne : seg.id ≠ s := fun he =>
    hn seg (List.mem_of_find?_eq_some hs) he (by simpa using List.find?_some hs)
  rw [cidrsForSegment, hd, List.filter_filter]
  have hc (c : CidrRow) : (decide (c.segmentId = seg.id) && decide (c.segmentId ≠ s)) =
      decide (c.segmentId = seg.id) := by grind
  simp only [hc]
  rfl

end Lookup

section Table

variable [Ipnet] {db db' : Db}

-- A segment of the table that policies are compiled against.
structure Stands (db : Db) (row : SegmentRow) (seg : SegmentDef) : Prop where
  name : seg.name = row.name
  cidrs : seg.cidrs.map Ipv4Net.display = db.cidrsForSegment row.id

theorem CidrsOk.readAllSegmentDefs (h : CidrsOk db) :
    ∃ defs, db.readAllSegmentDefs = .ok defs ∧ List.Forall₂ (Stands db) db.segments defs := by
  refine mapM_exists fun row _ => ?_
  have ⟨nets, hp, hn⟩ := h.stored row.name row.id
  exact ⟨⟨row.name, nets⟩, by rw [hp]; rfl, rfl, hn⟩

omit [Ipnet] in
theorem lookup_findSegment (h : List.Forall₂ (Stands db) rows defs) :
    (findSegment defs n).map (fun seg => (seg.name, seg.cidrs.map Ipv4Net.display)) =
      (rows.find? (·.name = n)).map fun row => (n, db.cidrsForSegment row.id) := by
  induction h
  case nil => rfl
  case cons row seg _ _ hs _ ih =>
    rw [findSegment, List.find?_cons, List.find?_cons, hs.name]
    by_cases hn : row.name = n
    case pos => simp [hn, hs.name, hs.cidrs]
    case neg =>
      rw [beq_false_of_ne hn, decide_eq_false hn]
      exact ih

omit [Ipnet] in
-- Equal CIDRs on file are equal segments for the compiler.
theorem findSegment_congr (h : List.Forall₂ (Stands db) db.segments defs)
    (h' : List.Forall₂ (Stands db') db'.segments defs') (hl : db.lookup n = db'.lookup n) :
    findSegment defs n = findSegment defs' n := by
  have inj : Function.Injective fun seg : SegmentDef => (seg.name, seg.cidrs.map Ipv4Net.display) := by
    rintro ⟨name, nets⟩ ⟨name', nets'⟩ he
    have ⟨hn, hc⟩ := Prod.mk.inj he
    exact congr (congrArg _ hn) (List.map_injective_iff.mpr Ipv4Net.display_injective hc)
  refine Option.map_injective inj ?_
  have hp := congrArg (Option.map (n, ·)) hl
  rw [lookup, lookup, Option.map_map, Option.map_map] at hp
  rw [lookup_findSegment h, lookup_findSegment h']
  exact hp

omit [Ipnet] in
theorem findSegment_sorted (h : List.Forall₂ (Stands db) db.segments defs)
    (hf : findSegment defs n = some seg) :
    seg.name = n ∧ (seg.cidrs.map Ipv4Net.display).Pairwise (· ≤ ·) ∧
      db.lookup n = some (seg.cidrs.map Ipv4Net.display) := by
  have hl := lookup_findSegment (n := n) h
  rw [hf] at hl
  have ⟨row, hr, he⟩ := Option.map_eq_some_iff.mp hl.symm
  have ⟨hn, hc⟩ := Prod.mk.inj he
  exact ⟨hn.symm, hc ▸ cidrsForSegment_sorted, by rw [lookup, hr, ← hc]; rfl⟩

variable [Sha256] [IpnetV6] [PolicyText]

-- The blocks of a source name segments that are there.
theorem Compiled.lookup (hc : Compiled db yaml version ir) (h : CidrsOk db)
    (hy : PolicyText.fromYaml yaml = .ok doc) (hb : block ∈ doc.policy) :
    (∃ texts, db.lookup block.fromName = some texts) ∧ ∃ texts, db.lookup block.toName = some texts := by
  have ⟨defs, src, hd, hp, _⟩ := hc.ok
  have ⟨defs', hd', hs⟩ := h.readAllSegmentDefs
  cases hd.symm.trans hd'
  cases (parsePolicy_ok.mp hp).symm.trans hy
  have ⟨⟨f, hf, _⟩, ⟨t, ht, _⟩, _⟩ := src.valid_blocks block hb
  exact ⟨⟨_, (findSegment_sorted hs hf).2.2⟩, _, (findSegment_sorted hs ht).2.2⟩

-- What a source is compiled to depends on the segments that it names.
theorem Compiled.transfer (hc : Compiled db yaml version ir) (h : CidrsOk db) (h' : CidrsOk db')
    (same : ∀ doc, PolicyText.fromYaml yaml = .ok doc → ∀ block ∈ doc.policy,
      db.lookup block.fromName = db'.lookup block.fromName ∧
      db.lookup block.toName = db'.lookup block.toName) : Compiled db' yaml version ir := by
  have ⟨defs, src, hd, hp, hcomp⟩ := hc.ok
  have ⟨defs₁, hd₁, hs⟩ := h.readAllSegmentDefs
  cases hd.symm.trans hd₁
  have ⟨defs', hd', hs'⟩ := h'.readAllSegmentDefs
  have hy := parsePolicy_ok.mp hp
  have segs : SameSegments src.doc defs defs' := fun block hb =>
    have ⟨hf, ht⟩ := same src.doc hy block hb
    ⟨findSegment_congr hs hs' hf, findSegment_congr hs hs' ht⟩
  have ⟨src', he, hc'⟩ := compile_congr src segs
  exact ⟨defs', src', hd', parsePolicy_ok.mpr (he ▸ hy), (hc' version).trans hcomp⟩

-- A source whose blocks are those of another source at another time means the same then.
theorem Compiled.of_blocks (hc : Compiled db yaml version ir) (h : CidrsOk db) (h' : CidrsOk db')
    (hc' : Compiled db' yaml' version' ir') (hb : ir'.blocks = ir.blocks) :
    Compiled db' yaml version ir := by
  have ⟨defs, src, hd, hp, hcomp⟩ := hc.ok
  have ⟨defs₁, hd₁, hs⟩ := h.readAllSegmentDefs
  cases hd.symm.trans hd₁
  have ⟨defs', src', hd', _, hcomp'⟩ := hc'.ok
  have ⟨defs₁', hd₁', hs'⟩ := h'.readAllSegmentDefs
  cases hd'.symm.trans hd₁'
  have ⟨blocks, hbs, _, he⟩ := compile_ok.mp hcomp
  have ⟨blocks', hbs', _, he'⟩ := compile_ok.mp hcomp'
  have hb : blocks' = blocks := by simpa [he, he'] using hb
  -- Both sort the CIDRs of a segment, and the segment has them sorted by their texts.
  have same {n seg seg'} (hf : findSegment defs n = some seg) (hf' : findSegment defs' n = some seg')
      (hc : sortedCidrStrings seg.cidrs = sortedCidrStrings seg'.cidrs) :
      db.lookup n = db'.lookup n := by
    have ⟨_, sorted, hl⟩ := findSegment_sorted hs hf
    have ⟨_, sorted', hl'⟩ := findSegment_sorted hs' hf'
    rw [hl, hl', ((perm_of_sortedCidrStrings hc).map _).eq_of_pairwise' sorted sorted']
  refine hc.transfer h h' fun doc hy block hm => ?_
  cases (parsePolicy_ok.mp hp).symm.trans hy
  have ⟨b, hbm, hcb⟩ := mapM_mem_left hbs hm
  have ⟨block', _, hcb'⟩ := mapM_mem hbs' (hb ▸ hbm)
  have ⟨⟨f₁, t₁⟩, ⟨f, hf, hsf⟩, ⟨t, ht, hst⟩, _⟩ := compileBlock_ok hcb
  have ⟨⟨f₁', t₁'⟩, ⟨f', hf', hsf'⟩, ⟨t', ht', hst'⟩, _⟩ := compileBlock_ok hcb'
  rw [← f₁', f₁] at hf'
  rw [← t₁', t₁] at ht'
  exact ⟨same hf hf' (hsf.symm.trans hsf'), same ht ht' (hst.symm.trans hst')⟩

-- Every segment is still what it was.
def Extends (db db' : Db) : Prop :=
  ∀ n texts, db.lookup n = some texts → db'.lookup n = some texts

theorem Compiled.extends (hc : Compiled db yaml version ir) (h : CidrsOk db) (h' : CidrsOk db')
    (he : Extends db db') : Compiled db' yaml version ir :=
  hc.transfer h h' fun _ hy _ hb =>
    have ⟨⟨_, hf⟩, _, ht⟩ := hc.lookup h hy hb
    ⟨hf.trans (he _ _ hf).symm, ht.trans (he _ _ ht).symm⟩

-- The latest source, compiled for the segments as they are.
def compileSource (db : Db) (yaml : String) (version : Nat) : Option PolicyIR :=
  match db.readAllSegmentDefs with
  | .error _ => none
  | .ok defs =>
    match parsePolicy PolicyText.fromYaml yaml defs with
    | .error _ => none
    | .ok src  => (compile src version).toOption

theorem Compiled.compileSource (hc : Compiled db yaml version ir) :
    db.compileSource yaml version = some ir := by
  have ⟨defs, src, hd, hp, hc⟩ := hc.ok
  rw [Db.compileSource, hd]
  dsimp only
  rw [hp]
  dsimp only
  rw [hc]
  rfl

-- The blocks that an apply compiles.
def compiledBlocks : Db × Tx → Option (List IrBlock)
  | (db, .applyFabric declared policyYaml) => do
    let st ← (db.applySegments declared).toOption
    let latest := if st.changed = [] then none else st.db.latestPolicyRow.map (·.sourceYaml)
    let ir ← st.db.compileSource (← policyYaml <|> latest) st.db.nextVersion
    return ir.blocks
  | _ => none

theorem Compiled.compiledBlocks (hc : Compiled st.db yaml st.db.nextVersion ir)
    (ho : db.applySegments declared = .ok st)
    (hy : policyYaml = some yaml ∨
      policyYaml = none ∧ st.changed ≠ [] ∧ st.db.latestPolicyRow.map (·.sourceYaml) = some yaml) :
    Db.compiledBlocks (db, .applyFabric declared policyYaml) = some ir.blocks := by
  have source : (policyYaml <|>
      if st.changed = [] then none else st.db.latestPolicyRow.map (·.sourceYaml)) = some yaml := by
    rcases hy with hy | ⟨hy, hn, hl⟩
    case inl => rw [hy]; rfl
    case inr => rw [hy, if_neg hn, hl]; rfl
  simp only [Db.compiledBlocks, ho, Except.toOption, Option.bind_eq_bind, Option.bind_some, source,
    hc.compileSource, Option.pure_def]

-- The latest row serves what its source is compiled to.
structure Serves (db : Db) (row : PolicyRow) (ir : PolicyIR) : Prop where
  compiled : Compiled db row.sourceYaml row.version ir
  json : row.compiledIr = PolicyText.toCanonicalJson ir
  fingerprint : row.fingerprint = blocksFingerprint ir.blocks

def Served (B : Set (List IrBlock)) (db : Db) : Prop :=
  ∀ row ∈ db.latestPolicyRow, ∃ ir, Serves db row ir ∧ ir.blocks ∈ B

variable {B : Set (List IrBlock)}

omit [Ipnet] [Sha256] [IpnetV6] [PolicyText] in
theorem SameFabric.lookup (hf : SameFabric db db') : db'.lookup n = db.lookup n := by
  have ⟨hs, hc, _⟩ := hf
  simp only [Db.lookup, cidrsForSegment, hs, hc]

theorem Served.of_transfer (h : Served B db) (hp : db'.policies = db.policies)
    (ht : ∀ row ∈ db.latestPolicyRow, ∀ ir, Compiled db row.sourceYaml row.version ir →
      Compiled db' row.sourceYaml row.version ir) : Served B db' := by
  intro row hr
  rw [latestPolicyRow, hp] at hr
  obtain ⟨ir, hs, hb⟩ := h row hr
  exact ⟨ir, ⟨ht row hr ir hs.compiled, hs.json, hs.fingerprint⟩, hb⟩

-- Segments that come, without a change to those that are there, leave the policy as it is.
omit [Sha256] [IpnetV6] [PolicyText] in
theorem Declared.extends (hd : Declared name nets st st')
    (h : (st.changed = [] → Extends db st.db) ∧ st.db.policies = db.policies) :
    (st'.changed = [] → Extends db st'.db) ∧ st'.db.policies = db.policies := by
  cases hd
  case same => exact h
  case changed hi => exact ⟨by simp, by rw [hi.eq]; exact h.2⟩
  case created hf =>
    refine ⟨fun hc n texts hl => lookup_founded hf (h.1 hc n texts hl), ?_⟩
    rw [hf.inserted.eq]
    exact h.2

theorem Applied.served (ha : Applied db declared policyYaml out db')
    (hf : B.InjOn blocksFingerprint)
    (hB : ∀ blocks ∈ compiledBlocks (db, .applyFabric declared policyYaml), blocks ∈ B)
    (h : CidrsOk db) (hs : Served B db) : Served B db' := by
  have start : (([] : List (Nat × String × List String)) = [] → Extends db db) ∧
      db.policies = db.policies := ⟨fun _ _ _ hl => hl, rfl⟩
  cases ha
  case nothing => exact hs
  case segments st ho _ hc =>
    have h' := applySegments_induct (P := fun st => CidrsOk st.db) Declared.cidrsOk ho h
    have ⟨he, hp⟩ := applySegments_induct Declared.extends ho start
    cases hc
    case inl hc =>
      exact hs.of_transfer hp fun _ _ _ hc₀ => ⟨(hc₀.extends h h' (he hc)).ok⟩
    case inr hn =>
      intro row hr
      cases hn.symm.trans hr
  case policy st yaml updated got ho hy hp =>
    have h' : CidrsOk st.db :=
      applySegments_induct (P := fun st => CidrsOk st.db) Declared.cidrsOk ho h
    have ⟨_, hpol⟩ := applySegments_induct Declared.extends ho start
    have ⟨ir, hc, hd⟩ := applyPolicy_ok hp
    have hm := hB _ (hc.compiledBlocks ho hy)
    cases hd
    case inl hd =>
      have ⟨_, he, hfp⟩ := hd
      subst he
      -- Nothing new has been stored, so what is stored has the blocks that were compiled just now.
      intro row hr
      obtain ⟨ir₀, hs₀, hm₀⟩ := hs row (by rwa [latestPolicyRow, ← hpol])
      have hfp : row.fingerprint = blocksFingerprint ir.blocks := by
        have hr : st.db.latestPolicyRow = some row := hr
        simpa [hr] using hfp
      have hb : ir.blocks = ir₀.blocks := hf hm hm₀ (hfp.symm.trans hs₀.fingerprint)
      exact ⟨ir₀, ⟨⟨(hs₀.compiled.of_blocks h h' hc hb).ok⟩, hs₀.json, hs₀.fingerprint⟩, hm₀⟩
    case inr hd =>
      have ⟨_, he⟩ := hd
      subst he
      intro row hr
      have hr : row = policyRow yaml st.db.nextVersion ir := by
        simpa [latestPolicyRow, bumpRevision] using hr.symm
      subst hr
      exact ⟨ir, ⟨⟨hc.ok⟩, rfl, rfl⟩, hm⟩

theorem Founded.served (hn : Founded s name nets db db') (h : CidrsOk db) (hs : Served B db) :
    Served B db' := by
  have hp : db'.policies = db.policies := by rw [hn.inserted.eq]
  refine hs.of_transfer hp fun _ _ _ hc => ?_
  exact hc.extends h (hn.cidrsOk h) fun _ _ => lookup_founded hn

theorem served_deleteSegment (ho : db.deleteSegment s = .ok db')
    (hd : SparesPolicy (db, .deleteSegment s)) (h : CidrsOk db) (hs : Served B db) : Served B db' := by
  refine hs.of_transfer (by rw [(deleteSegment_ok ho).2]) fun row hr _ hc => ?_
  refine hc.transfer h (cidrsOk_deleteSegment ho h) fun doc hy block hb => ?_
  have spared {n} (hn : n = block.fromName ∨ n = block.toName) : db.lookup n = db'.lookup n := by
    refine (lookup_deleteSegment ho fun seg hm hi he => ?_).symm
    refine hd s rfl seg hm hi row hr ?_
    rw [namesSegment, hy]
    simp only [List.any_eq_true, decide_eq_true_eq]
    exact ⟨block, hb, hn.imp (fun hn => (he.trans hn).symm) fun hn => (he.trans hn).symm⟩
  exact ⟨spared (.inl rfl), spared (.inr rfl)⟩

theorem served_commit (t : Tx) (hf : B.InjOn blocksFingerprint)
    (hB : ∀ blocks ∈ compiledBlocks (db, t), blocks ∈ B) (hd : SparesPolicy (db, t)) (h : CidrsOk db)
    (hs : Served B db) : Served B (db.commit t).2 := by
  by_cases ht : t.OnFabric
  case neg =>
    have same : SameFabric db _ := sameFabric_commit ht
    refine hs.of_transfer same.2.2 fun row _ ir hc => ?_
    exact hc.extends h (same.cidrsOk h) fun n _ hl => same.lookup.trans hl
  case pos =>
    refine commit_induct (P := Served B) t hs fun {a db'} ho => ?_
    cases t <;> try exact ht.elim
    case createSegment =>
      have ⟨db₁, hn, he⟩ := createSegment_ok ho
      exact he ▸ (hn.served h hs).of_transfer rfl fun _ _ _ hc => ⟨hc.ok⟩
    case deleteSegment =>
      have ⟨_, ho, he⟩ := map_ok.mp ho
      cases he
      exact served_deleteSegment ho hd h hs
    case applyFabric => exact (applyFabric_ok ho).served hf hB h hs

theorem served_run (r : Run Step .empty h db) (hf : B.InjOn blocksFingerprint)
    (hB : ∀ x ∈ h, ∀ blocks ∈ compiledBlocks x, blocks ∈ B) (hd : ∀ x ∈ h, SparesPolicy x) :
    Served B db := by
  induction r
  case start => exact fun row hr => by cases hr
  case step h db t db' r hs ih =>
    have ⟨ht, hd⟩ := List.forall_mem_cons.mp hd
    have ⟨hb, hB⟩ := List.forall_mem_cons.mp hB
    exact hs ▸ served_commit t hf hb ht (cidrsOk_run r) (ih hB hd)

-- The network that a text displays lies in a CIDR of the segment.
def Owns (db : Db) (name text : String) : Prop :=
  ∃ seg ∈ db.segments, seg.name = name ∧ ∃ row ∈ db.cidrs, row.segmentId = seg.id ∧
    ∃ n m : Ipv4Net, text = n.display ∧ row.cidr = m.display ∧ m.contains n

def BlockOwned (db : Db) (block : IrBlock) : Prop :=
  ∀ rule ∈ block.rules, (∀ c ∈ effectiveSrc block rule, db.Owns block.fromName c) ∧
    ∀ c ∈ effectiveDst block rule, db.Owns block.toName c

theorem Compiled.owned (hc : Compiled db yaml version ir) (h : CidrsOk db) (hb : block ∈ ir.blocks) :
    BlockOwned db block := by
  have ⟨defs, src, hd, _, hcomp⟩ := hc.ok
  have ⟨defs₁, hd₁, hs⟩ := h.readAllSegmentDefs
  cases hd.symm.trans hd₁
  have ⟨f, t, hf, ht, hr⟩ := compile_owned hcomp hb
  have owns {n seg text} (hf : findSegment defs n = some seg) (ho : seg.Owns text) :
      db.Owns n text := by
    have ⟨k, hk, m, hm, hc⟩ := ho
    have ⟨_, _, hl⟩ := findSegment_sorted hs hf
    have ⟨row, hrow, he⟩ := Option.map_eq_some_iff.mp hl
    have ⟨c, hcm, hcs, hct⟩ := mem_cidrsForSegment.mp (he ▸ List.mem_map_of_mem hm)
    exact ⟨row, List.mem_of_find?_eq_some hrow, by simpa using List.find?_some hrow, c, hcm, hcs, k, m,
      hk, hct, hc⟩
  exact fun rule hm => ⟨fun c hc => owns hf ((hr rule hm).1 c hc), fun c hc => owns ht ((hr rule hm).2 c hc)⟩

-- Where no segment is deleted that the latest source names, and the blocks that have been compiled are
-- told apart by their fingerprints, what is served is that source for the segments as they are, and
-- every rule is about addresses that the segments of its block own.
theorem served_policy_is_current (r : Run Step .empty h db)
    (hf : Set.InjOn blocksFingerprint {blocks | ∃ x ∈ h, blocks ∈ compiledBlocks x})
    (hd : ∀ x ∈ h, SparesPolicy x) :
    ∀ row ∈ db.latestPolicyRow, ∃ ir, db.compileSource row.sourceYaml row.version = some ir ∧
      row.compiledIr = PolicyText.toCanonicalJson ir ∧ ∀ block ∈ ir.blocks, BlockOwned db block := by
  intro row hr
  obtain ⟨ir, hs, _⟩ := served_run r hf (fun x hx blocks hb => ⟨x, hx, hb⟩) hd row hr
  exact ⟨ir, hs.compiled.compileSource, hs.json, fun _ => hs.compiled.owned (cidrsOk_run r)⟩

end Table

section Example

open StandIn

-- Everything is let through from one segment to the other.
def policyTxs : List Tx :=
  [.applyFabric [] (some "a>b"), .createSegment "b" [.slash8 11], .createSegment "a" [.slash8 10]]

-- A third segment comes and goes.
def sparedTxs : List Tx :=
  .deleteSegment 3 :: .createSegment "c" [.slash8 12] :: policyTxs

def spared : Db :=
  (committed sparedTxs).2

theorem run_spared : Run Step .empty (committed sparedTxs).1 spared :=
  Run.run_trace Db.empty sparedTxs

theorem served_policy_is_current_spared :
    (committed sparedTxs).1.filterMap (·.2.deletes) = [3] ∧
    spared.latestPolicyRow.map (fun row => (row.sourceYaml, row.version)) = some ("a>b", 1) ∧
    ∀ row ∈ spared.latestPolicyRow, ∃ ir, spared.compileSource row.sourceYaml row.version = some ir ∧
      row.compiledIr = PolicyText.toCanonicalJson ir ∧ ∀ block ∈ ir.blocks, BlockOwned spared block := by
  have spares : ∀ x ∈ (committed sparedTxs).1, SparesPolicy x := by decide +kernel
  exact ⟨by decide +kernel, by decide +kernel,
    served_policy_is_current run_spared blocksFingerprint_injective.injOn spares⟩

theorem policies_deleteSegment (db : Db) (s : Nat) :
    (db.commit (.deleteSegment s)).2.policies = db.policies := by
  cases hd : db.deleteSegment s
  case error => simp [Db.commit, Db.transact, hd, Except.map]
  case ok    => simp [Db.commit, Db.transact, hd, Except.map, (deleteSegment_ok hd).2]

-- The texts of the policies need not be evaluated to see that a deletion leaves them alone.
instance : Decidable ((committed (.deleteSegment s :: txs)).2.policies = (committed txs).2.policies) :=
  .isTrue (policies_deleteSegment _ s)

-- The second segment is deleted, and its CIDR is still in the policy.
theorem policy_outlives_segment :
    Run Step .empty (committed (.deleteSegment 2 :: policyTxs)).1
      (committed (.deleteSegment 2 :: policyTxs)).2 ∧
    (committed (.deleteSegment 2 :: policyTxs)).2.segments = [⟨1, "a"⟩] ∧
    (committed (.deleteSegment 2 :: policyTxs)).2.policies = (committed policyTxs).2.policies ∧
    ((committed policyTxs).2.latestPolicyRow.map fun row => (row.sourceYaml, row.version)) =
      some ("a>b", 1) ∧
    ((committed policyTxs).2.compileSource "a>b" 1).map
      (fun ir => ir.blocks.map fun block => (block.toName, block.dstCidrs)) =
      some [("b", ["11.0.0.0/8"])] ∧
    (committed (.deleteSegment 2 :: policyTxs)).2.compileSource "a>b" 1 = none :=
  ⟨Run.run_trace Db.empty _, by decide +kernel, by decide +kernel, by decide +kernel, by decide +kernel,
    by decide +kernel⟩

end Example
end Db
end Controller
