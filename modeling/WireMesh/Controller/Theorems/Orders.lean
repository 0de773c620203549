import WireMesh.Controller.Theorems.Reapply

-- The segments of a fabric document in another order.
namespace Controller.Db

open Policy Checked Holdings

section Names

variable [Ipnet] {db db' : Db}

-- No two segments have the same name.
def NamesApart (db : Db) : Prop :=
  (db.segments.map (·.name)).Nodup

theorem Founded.namesApart (hf : Founded s name nets db db') (h : NamesApart db) :
    NamesApart db' := by
  rw [NamesApart, hf.inserted.eq, List.map_append]
  refine List.nodup_append.mpr ⟨h, by simp, fun a ha b hb => ?_⟩
  have ⟨seg, hs, he⟩ := List.mem_map.mp ha
  have hb : b = name := by simpa using hb
  exact fun hab => hf.fresh seg hs (he.trans (hab.trans hb))

theorem Declared.namesApart (hd : Declared name nets st st') (h : NamesApart st.db) :
    NamesApart st'.db := by
  cases hd
  case same           => exact h
  case changed _ _ hi => exact hi.eq ▸ h
  case created hf     => exact hf.namesApart h

variable [Sha256] [IpnetV6] [PolicyText]

theorem Applied.namesApart (ha : Applied db declared policyYaml out db') (h : NamesApart db) :
    NamesApart db' := by
  have segments {existing} {st : ApplyState}
      (hs : applyAll existing ⟨db, 0, 0, []⟩ declared = .ok st) : NamesApart st.db :=
    applySegments_induct (P := fun st => NamesApart st.db) Declared.namesApart hs h
  cases ha
  case nothing         => exact h
  case segments hs _ _ => exact segments hs
  case policy hs _ hp  =>
    have ⟨_, _, hd⟩ := applyPolicy_ok hp
    cases hd
    case inl hd => exact hd.2.1 ▸ segments hs
    case inr hd => exact hd.2 ▸ segments hs

theorem namesApart_commit (t : Tx) (h : NamesApart db) : NamesApart (db.commit t).2 := by
  by_cases ht : t.OnFabric
  case neg => rwa [NamesApart, (sameFabric_commit ht).1]
  case pos =>
    refine commit_induct t h fun {a db'} hc => ?_
    cases t <;> try exact ht.elim
    case createSegment =>
      have ⟨_, hf, he⟩ := createSegment_ok hc
      exact he ▸ hf.namesApart h
    case deleteSegment =>
      have ⟨_, hd, he⟩ := map_ok.mp hc
      cases he
      exact (deleteSegment_ok hd).2 ▸ h.sublist (List.filter_sublist.map _)
    case applyFabric => exact (applyFabric_ok hc).namesApart h

theorem namesApart_run (r : Run Step .empty h db) : NamesApart db := by
  refine r.invariant (I := fun _ => NamesApart) ?_ ?_
  case refine_1 => exact List.nodup_nil
  case refine_2 => exact fun _ h hs => hs ▸ namesApart_commit _ h

end Names

section Accepted

variable [Ipnet] {db db' : Db}

-- What a segment's CIDRs are checked against.
def OthersClear (db : Db) (s : Nat) (n : Ipv4Net) : Prop :=
  ∀ row ∈ db.othersCidrs s, ∃ m, Ipnet.parse row.1 = .ok m ∧ overlaps n m = false

theorem findConflict_of_clear {rows : List (String × String)}
    (h : ∀ row ∈ rows, ∃ m, Ipnet.parse row.1 = .ok m ∧ overlaps n m = false) :
    findConflict n rows = .ok none := by
  induction rows
  case nil => rfl
  case cons row rows ih =>
    have ⟨⟨m, hm, ho⟩, ht⟩ := List.forall_mem_cons.mp h
    rw [findConflict, hm, ok_bind, ho, if_neg Bool.false_ne_true, ih ht]

-- CIDRs that overlap neither each other nor one of another segment all go in.
theorem insertCidrs_of_clear (ha : nets.Pairwise fun n m => overlaps m n = false)
    (hacc : ∀ n ∈ nets, ∀ m ∈ accepted, overlaps n m = false)
    (ho : ∀ n ∈ nets, OthersClear db s n) :
    ∃ db', insertCidrs s name accepted db nets = .ok db' := by
  induction nets generalizing accepted db
  case nil => exact ⟨db, rfl⟩
  case cons n nets ih =>
    have ⟨hn, ha⟩ := List.pairwise_cons.mp ha
    have ⟨hacc₁, hacc⟩ := List.forall_mem_cons.mp hacc
    have ⟨ho₁, ho⟩ := List.forall_mem_cons.mp ho
    have none : ¬ accepted.any (overlaps n) := by simpa using hacc₁
    rw [insertCidrs, if_neg none, findConflict_of_clear ho₁, ok_bind]
    dsimp only
    refine ih ha (fun m hm k hk => ?_) fun m hm => ?_
    case refine_1 =>
      cases List.mem_append.mp hk
      case inl hk => exact hacc m hm k hk
      case inr hk => exact List.mem_singleton.mp hk ▸ hn m hm
    case refine_2 => exact fun row hr => ho m hm row (othersCidrs_snoc db ▸ hr)

theorem insertCidrs_iff :
    (∃ db', insertCidrs s name [] db nets = .ok db') ↔
      nets.Pairwise (fun n m => overlaps m n = false) ∧ ∀ n ∈ nets, OthersClear db s n := by
  constructor
  case mp  =>
    intro ⟨_, h⟩
    have ⟨_, ha, ho⟩ := (insertCidrs_ok h).1
    exact ⟨ha, ho⟩
  case mpr => exact fun ⟨ha, ho⟩ => insertCidrs_of_clear ha (by simp) ho

omit [Ipnet] in
theorem find_name (h : NamesApart db) (hs : seg ∈ db.segments) :
    db.segments.find? (·.name = seg.name) = some seg := by
  cases hf : db.segments.find? (·.name = seg.name)
  case none =>
    have := List.find?_eq_none.mp hf seg hs
    simp at this
  case some found =>
    have he : found.name = seg.name := by simpa using List.find?_some hf
    rw [List.inj_on_of_nodup_map h (List.mem_of_find?_eq_some hf) hs he]

-- Where the names are unique, the others' CIDRs are the CIDRs of other names.
theorem othersClear_iff (hc : CidrsOk db) (hn : NamesApart db)
    (hs : ∀ seg ∈ db.segments, seg.id = s ↔ seg.name = name) :
    OthersClear db s n ↔
      ∀ k B, k ≠ name → db.table k = some B → ∀ m ∈ B, ¬ Overlap n m := by
  constructor
  case mp =>
    intro h k B hk hB m hm
    obtain ⟨seg, hf, he⟩ := Option.map_eq_some_iff.mp hB
    have hsk : seg.name = k := by simpa using List.find?_some hf
    have hseg := List.mem_of_find?_eq_some hf
    have hne : seg.id ≠ s := fun he => hk (hsk.symm.trans ((hs seg hseg).mp he))
    subst he
    obtain ⟨owner, ho⟩ := mem_othersCidrs hm ⟨seg, hseg, rfl⟩ hne
    obtain ⟨m', hp, ho⟩ := h _ ho
    rw [cidrRow, Ipnet.parse_display] at hp
    cases hp
    simp [Overlap, ho]
  case mpr =>
    intro h row hrow
    obtain ⟨c, hcm, hrow⟩ := List.mem_filterMap.mp hrow
    obtain ⟨seg, hf, he⟩ := Option.map_eq_some_iff.mp hrow
    obtain ⟨hcm, hcs⟩ := List.mem_filter.mp hcm
    obtain ⟨m, hm⟩ := hc.nets c hcm
    have hseg := List.mem_of_find?_eq_some hf
    have hid : seg.id = c.segmentId := by simpa using List.find?_some hf
    have hne : seg.name ≠ name := fun hk => by
      have hsame : c.segmentId = s := hid.symm.trans ((hs seg hseg).mpr hk)
      simp [hsame] at hcs
    have hB : db.table seg.name = some {n | cidrRow seg.id n ∈ db.cidrs} := by
      rw [table, find_name hn hseg]
      rfl
    have hm' : cidrRow seg.id m ∈ db.cidrs := by rwa [cidrRow, hid, ← hm]
    refine ⟨m, ?_, by simpa [Overlap] using h seg.name _ hne hB m hm'⟩
    rw [← he, hm, Ipnet.parse_display]

omit [Ipnet] in
theorem othersCidrs_replaced (db : Db) :
    { db with cidrs := db.cidrs.filter (·.segmentId ≠ s) }.othersCidrs s = db.othersCidrs s := by
  simp [othersCidrs, List.filter_filter]

omit [Ipnet] in
theorem othersCidrs_founded (db : Db) (name : String) :
    { db with segments := db.segments ++ [SegmentRow.mk s name] }.othersCidrs s =
      db.othersCidrs s := by
  refine List.filterMap_congr fun c hc => ?_
  have hs : c.segmentId ≠ s := by simpa using List.of_mem_filter hc
  simp [List.find?_append, hs.symm]

-- The CIDRs go in exactly if they fit, whether the segment has just been founded or cleared.
theorem insertCidrs_fits (hc : CidrsOk db) (hn : NamesApart db)
    (hs : ∀ seg ∈ db.segments, seg.id = s ↔ seg.name = p.1)
    (ho : db'.othersCidrs s = db.othersCidrs s) (he : db.table p.1 = none → p.2 ≠ []) :
    (∃ got, insertCidrs s p.1 [] db' p.2 = .ok got) ↔ Fits Overlap db.table p := by
  have pair : p.2.Pairwise (fun n m => overlaps m n = false) ↔
      p.2.Pairwise fun n m => ¬ Overlap n m := by
    simp [Overlap, overlaps_comm]
  have clear (n : Ipv4Net) : OthersClear db' s n ↔
      ∀ k B, k ≠ p.1 → db.table k = some B → ∀ m ∈ B, ¬ Overlap n m := by
    rw [OthersClear, ho]
    exact othersClear_iff hc hn hs
  rw [insertCidrs_iff, pair]
  constructor
  case mp =>
    intro ⟨ha, h⟩
    exact ⟨he, ha, fun k B hk hB n hm => (clear n).mp (h n hm) k B hk hB⟩
  case mpr =>
    intro h
    exact ⟨h.apart, fun n hm => (clear n).mpr fun k B hk hB => h.others k B hk hB n hm⟩

variable {existing : List String} {st : ApplyState}

theorem insertSegment_fits (hc : CidrsOk db) (hn : NamesApart db) (ht : db.table p.1 = none) :
    (∃ r, db.insertSegment p.1 p.2 = .ok r) ↔ Fits Overlap db.table p := by
  have fresh := table_eq_none.mp ht
  by_cases hne : p.2 = []
  case pos =>
    constructor
    case mp =>
      rintro ⟨_, h⟩
      exact absurd hne (insertSegment_ok h).nonempty
    case mpr => exact fun h => absurd hne (h.nonempty ht)
  case neg =>
    have hid : ∀ seg ∈ db.segments, seg.id = nextId (db.segments.map (·.id)) ↔ seg.name = p.1 :=
      fun seg hs => iff_of_false
        (fun he => nextId_not_mem (db.segments.map (·.id)) (he ▸ List.mem_map_of_mem hs))
        (fresh seg hs)
    rw [← insertCidrs_fits hc hn hid (othersCidrs_founded db p.1) fun _ => hne]
    have hany : ¬ db.segments.any (·.name = p.1) := by simpa using fresh
    rw [insertSegment, if_neg hne, if_neg hany]
    constructor
    case mp =>
      rintro ⟨_, h⟩
      obtain ⟨got, hi, _⟩ := bind_ok.mp h
      exact ⟨got, hi⟩
    case mpr =>
      rintro ⟨_, hi⟩
      exact ⟨_, bind_ok.mpr ⟨_, hi, rfl⟩⟩

omit [Ipnet] in
theorem exists_bind_pure {x : Except String α} {f : α → β} :
    (∃ b, (x >>= fun a => pure (f a)) = .ok b) ↔ ∃ a, x = .ok a := by
  cases x
  case error => simp [bind, Except.bind]
  case ok    => simp [bind, Except.bind, pure, Except.pure]

-- One declared segment is accepted exactly if it is there as declared or fits.
theorem applySegment_iff (hc : CidrsOk st.db) (hn : NamesApart st.db)
    (he : p.1 ∈ existing ↔ (st.db.table p.1).isSome) :
    (∃ st', applySegment existing st p.1 p.2 = .ok st') ↔ Takes Overlap st.db.table p := by
  cases ht : st.db.table p.1
  case none =>
    have hm : p.1 ∉ existing := by simp [he, ht]
    rw [Takes, or_iff_right (by simp [ht]), ← insertSegment_fits hc hn ht, applySegment, if_neg hm]
    exact exists_bind_pure
  case some B =>
    have hm : p.1 ∈ existing := by simp [he, ht]
    by_cases hs : st.db.table p.1 = some {n | n ∈ p.2}
    case pos => exact iff_of_true ⟨st, applySegment_same hc hm hs⟩ (.inl hs)
    case neg =>
      obtain ⟨seg, hf, hB⟩ := Option.map_eq_some_iff.mp ht
      have hseg := List.mem_of_find?_eq_some hf
      have hname : seg.name = p.1 := by simpa using List.find?_some hf
      obtain ⟨stored, hp, hstored⟩ := hc.parseStored p.1 seg.id
      have differ : ¬ (stored ⊆ p.2 ∧ p.2 ⊆ stored) := fun h =>
        hs (ht.trans (congrArg some (hB.symm.trans ((same_iff hstored).mp h))))
      have hid : ∀ seg' ∈ st.db.segments, seg'.id = seg.id ↔ seg'.name = p.1 := fun seg' hm' =>
        ⟨fun h => eq_of_id hc hm' hseg h ▸ hname,
          fun h => List.inj_on_of_nodup_map hn hm' hseg (h.trans hname.symm) ▸ rfl⟩
      rw [Takes, or_iff_right hs, ← insertCidrs_fits hc hn hid (othersCidrs_replaced st.db)
        (by simp [ht])]
      simp only [applySegment, hm, hf, hp, ok_bind, differ, if_true, if_false]
      exact exists_bind_pure

-- The declared segments are accepted exactly if each is when its turn has come.
theorem applyAll_iff (hk : (declared.map Prod.fst).Nodup) (hc : CidrsOk st.db)
    (hn : NamesApart st.db) (he : ∀ p ∈ declared, p.1 ∈ existing ↔ (st.db.table p.1).isSome) :
    (∃ st', applyAll existing st declared = .ok st') ↔ TakesAll Overlap st.db.table declared := by
  induction declared generalizing st
  case nil => exact iff_of_true ⟨st, rfl⟩ trivial
  case cons p declared ih =>
    have ⟨hp, hk⟩ := List.nodup_cons.mp hk
    have ⟨he₁, he⟩ := List.forall_mem_cons.mp he
    have next {st₁} (hs : applySegment existing st p.1 p.2 = .ok st₁) :
        (∃ st', applyAll existing st₁ declared = .ok st') ↔
          TakesAll Overlap (st.db.table.put p) declared := by
      have ht := (applySegment_took hc hs).table
      have hd := applySegment_ok hs
      have he : ∀ q ∈ declared, q.1 ∈ existing ↔ (st₁.db.table q.1).isSome := fun q hq => by
        have hne : q.1 ≠ p.1 := fun h => hp (h ▸ List.mem_map_of_mem hq)
        rw [ht, put_of_ne hne]
        exact he q hq
      rw [← ht]
      exact ih hk (hd.cidrsOk hc) (hd.namesApart hn) he
    rw [TakesAll, ← applySegment_iff hc hn he₁]
    constructor
    case mp =>
      intro ⟨st', h⟩
      have ⟨st₁, hs, h⟩ := applyAll_cons h
      exact ⟨⟨st₁, hs⟩, (next hs).mp ⟨st', h⟩⟩
    case mpr =>
      intro ⟨⟨st₁, hs⟩, h⟩
      have ⟨st', h⟩ := (next hs).mpr h
      exact ⟨st', bind_ok.mpr ⟨st₁, hs, h⟩⟩

-- No two CIDRs on file overlap.
theorem CidrsOk.clear (h : CidrsOk db) : Clear Overlap db.table := by
  intro k k' A B hA hB n hn m hm hne ho
  have ⟨seg, hf, he⟩ := Option.map_eq_some_iff.mp hA
  have ⟨seg', hf', he'⟩ := Option.map_eq_some_iff.mp hB
  subst he he'
  have rows : cidrRow seg.id n ≠ cidrRow seg'.id m := fun hr => hne <| by
    have ⟨hid, hnm⟩ := cidrRow_inj hr
    have hs := eq_of_id h (List.mem_of_find?_eq_some hf) (List.mem_of_find?_eq_some hf') hid
    have hk : seg.name = k := by simpa using List.find?_some hf
    have hk' : seg'.name = k' := by simpa using List.find?_some hf'
    rw [← hk, ← hk', hs, hnm]
  have : Std.Symm fun c d : CidrRow => Apart c.cidr d.cidr := ⟨fun _ _ h => h.symm⟩
  have hn : cidrRow seg.id n ∈ db.cidrs := hn
  have hm : cidrRow seg'.id m ∈ db.cidrs := hm
  have apart := h.apart.forall hn hm rows
  -- The first address of one of them is in both.
  cases Bool.or_eq_true_iff.mp ho
  case inl ha =>
    exact apart m.network
      ⟨textContains_display.mpr ha, textContains_display.mpr Ipv4Net.containsAddr_network⟩
  case inr ha =>
    exact apart n.network
      ⟨textContains_display.mpr Ipv4Net.containsAddr_network, textContains_display.mpr ha⟩

end Accepted

section Orders

variable [Ipnet] [Sha256] [IpnetV6] [PolicyText] {db : Db}

-- The segments of a document are accepted in every order as if their CIDRs were replaced all at
-- once, and leave what that would leave, exactly if none that is new overlaps what another segment
-- had before. A segment is checked against those that come later as they were.
theorem segments_any_order_iff (r : Run Step .empty h db) (hk : (declared.map Prod.fst).Nodup) :
    (∀ order, order.Perm declared →
      ((∃ st, db.applySegments order = .ok st) ↔ Clear Overlap (db.table.putAll declared)) ∧
      ∀ st, db.applySegments order = .ok st → st.db.table = db.table.putAll declared) ↔
    (Clear Overlap (db.table.putAll declared) →
      ∀ p ∈ declared, db.table p.1 ≠ some {n | n ∈ p.2} → Fits Overlap db.table p) := by
  have hc := cidrsOk_run r
  have hn := namesApart_run r
  rw [← every_order_iff Overlap.symm hc.clear hk]
  refine forall₂_congr fun order hp => ?_
  have hko : (order.map Prod.fst).Nodup := (hp.map Prod.fst).nodup_iff.mpr hk
  have accepted : (∃ st, db.applySegments order = .ok st) ↔ TakesAll Overlap db.table order :=
    applyAll_iff hko hc hn fun p _ => isSome_table.symm
  rw [← putAll_perm hk hp, accepted]
  exact and_iff_left fun st hs => applyAll_table hs hc

end Orders

section Examples

open StandIn

-- Segments a and b have one CIDR each.
def pairTxs : List Tx :=
  [.createSegment "b" [.slash8 11], .createSegment "a" [.slash8 10]]

def pair : Db :=
  (committed pairTxs).2

theorem run_pair : Run Step .empty (committed pairTxs).1 pair :=
  Run.run_trace Db.empty pairTxs

-- Segment a moves on, and b takes its place.
theorem segments_order_matters :
    ApplyState.updated <$> pair.applySegments [("a", [.slash8 12]), ("b", [.slash8 10])] = .ok 2 ∧
    ApplyState.updated <$> pair.applySegments [("b", [.slash8 10]), ("a", [.slash8 12])] =
      .error (overlapError "a") := by
  decide +kernel

theorem fits_pair (hn : ∀ seg ∈ pair.segments, seg.name ≠ p.1)
    (h : (pair.insertSegment p.1 p.2).toBool) : Fits Overlap pair.table p := by
  refine (insertSegment_fits (cidrsOk_run run_pair) (namesApart_run run_pair) ?_).mp ?_
  case refine_1 => exact table_eq_none.mpr hn
  case refine_2 =>
    cases hi : pair.insertSegment p.1 p.2
    case ok r    => exact ⟨r, rfl⟩
    case error e =>
      rw [hi] at h
      cases h

theorem segments_any_order_pair :
    (∃ st, pair.applySegments [("d", [.slash8 13]), ("c", [.slash8 12])] = .ok st) ↔
      Clear Overlap (pair.table.putAll [("c", [.slash8 12]), ("d", [.slash8 13])]) := by
  have fits : ∀ p ∈ [("c", [.slash8 12]), ("d", [.slash8 13])], Fits Overlap pair.table p :=
    List.forall_mem_cons.mpr ⟨fits_pair (by decide +kernel) (by decide +kernel),
      List.forall_mem_singleton.mpr (fits_pair (by decide +kernel) (by decide +kernel))⟩
  have every := (segments_any_order_iff run_pair (by decide)).mpr fun _ p hp _ => fits p hp
  exact (every _ (.swap ..)).1

end Examples

end Controller.Db
