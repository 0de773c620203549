import Mathlib
import WireMesh.Lib.Run
import WireMesh.Policy.Semantics
import WireMesh.Controller.StandIn
import WireMesh.Controller.Theorems.Alone
import WireMesh.Controller.Theorems.Commit

-- Who owns which addresses: the CIDRs of the segments and the gateways that serve them.
namespace Controller.Db

open Policy Checked

section Nets

variable {n m : Ipv4Net}

theorem overlaps_comm : overlaps n m = overlaps m n :=
  Bool.or_comm ..

-- Networks that share an address have one that contains the other's first.
theorem overlaps_of_common (hn : n.containsAddr a) (hm : m.containsAddr a) : overlaps n m := by
  have first {n m : Ipv4Net} (hl : n.prefixLen ≤ m.prefixLen) (hn : n.containsAddr a)
      (hm : m.containsAddr a) : overlaps n m := by
    have hc := Ipv4Net.contains_of_common hl hn hm
    simp [overlaps, Ipv4Net.containsAddr_of_contains hc Ipv4Net.containsAddr_network]
  cases Nat.le_total n.prefixLen m.prefixLen
  case inl hl => exact first hl hn hm
  case inr hl => exact overlaps_comm ▸ first hl hm hn

variable [Ipnet]

-- No address is in both of two CIDRs.
def Apart (x y : String) : Prop :=
  ∀ a, ¬ (textContains a x ∧ textContains a y)

theorem Apart.symm (h : Apart x y) : Apart y x :=
  fun a ⟨hy, hx⟩ => h a ⟨hx, hy⟩

theorem textContains_display : textContains a n.display ↔ n.containsAddr a := by
  simp [textContains, Ipnet.parse_display]

theorem apart_display (h : overlaps n m = false) : Apart n.display m.display := by
  intro a ⟨hn, hm⟩
  have := overlaps_of_common (textContains_display.mp hn) (textContains_display.mp hm)
  simp_all

end Nets

section Fabric

variable [Ipnet] {db db' : Db}

-- Every CIDR is a network that belongs to a segment on file, and shares no address with another.
structure CidrsOk (db : Db) : Prop where
  ids : (db.segments.map (·.id)).Nodup
  owned : ∀ c ∈ db.cidrs, ∃ s ∈ db.segments, s.id = c.segmentId
  nets : ∀ c ∈ db.cidrs, ∃ n : Ipv4Net, c.cidr = n.display
  apart : db.cidrs.Pairwise fun c d => Apart c.cidr d.cidr

omit [Ipnet] in
theorem mem_othersCidrs (hc : c ∈ db.cidrs) (ho : ∃ s ∈ db.segments, s.id = c.segmentId)
    (hs : c.segmentId ≠ s) : ∃ name, (c.cidr, name) ∈ db.othersCidrs s := by
  have ⟨seg, hm, he⟩ := ho
  have hf : (db.segments.find? (·.id = c.segmentId)).isSome := by
    simpa using ⟨seg, hm, he⟩
  have ⟨found, hf⟩ := Option.isSome_iff_exists.mp hf
  refine ⟨found.name, List.mem_filterMap.mpr ⟨c, List.mem_filter.mpr ⟨hc, by simpa using hs⟩, ?_⟩⟩
  rw [hf]
  rfl

-- CIDRs that go in for a segment that has none.
theorem Inserted.cidrsOk (hi : Inserted s nets db db') (h : CidrsOk db)
    (hs : ∃ seg ∈ db.segments, seg.id = s) (hn : ∀ c ∈ db.cidrs, c.segmentId ≠ s) :
    CidrsOk db' := by
  rw [hi.eq]
  refine ⟨h.ids, fun c hc => ?_, fun c hc => ?_, ?_⟩
  case refine_1 =>
    cases List.mem_append.mp hc
    case inl hc => exact h.owned c hc
    case inr hc =>
      have ⟨n, _, he⟩ := List.mem_map.mp hc
      exact he ▸ hs
  case refine_2 =>
    cases List.mem_append.mp hc
    case inl hc => exact h.nets c hc
    case inr hc =>
      have ⟨n, _, he⟩ := List.mem_map.mp hc
      exact ⟨n, he ▸ rfl⟩
  case refine_3 =>
    refine List.pairwise_append.mpr ⟨h.apart, ?_, fun c hc d hd => ?_⟩
    case refine_1 =>
      exact List.pairwise_map.mpr <| hi.apart.imp fun ho => (apart_display ho).symm
    case refine_2 =>
      have ⟨n, hm, he⟩ := List.mem_map.mp hd
      have ⟨k, hk⟩ := h.nets c hc
      have ⟨name, ho⟩ := mem_othersCidrs hc (h.owned c hc) (hn c hc)
      have ⟨m, hp, ho⟩ := hi.others n hm _ ho
      rw [hk, Ipnet.parse_display] at hp
      cases hp
      rw [hk, ← he]
      exact (apart_display ho).symm

theorem CidrsOk.fresh (h : CidrsOk db) (hc : c ∈ db.cidrs) :
    c.segmentId ≠ nextId (db.segments.map (·.id)) := by
  have ⟨seg, hs, he⟩ := h.owned c hc
  have hm : seg.id ∈ db.segments.map (·.id) := List.mem_map_of_mem hs
  intro hn
  exact nextId_not_mem _ (hn ▸ he ▸ hm)

theorem Founded.cidrsOk (hf : Founded s name nets db db') (h : CidrsOk db) : CidrsOk db' := by
  refine hf.inserted.cidrsOk ⟨?_, fun c hc => ?_, h.nets, h.apart⟩ ⟨⟨s, name⟩, by simp, rfl⟩
    fun c hc => ?_
  case refine_1 =>
    have hn : s ∉ db.segments.map (·.id) := hf.id ▸ nextId_not_mem _
    simpa [List.nodup_append] using ⟨h.ids, by simpa using hn⟩
  case refine_2 =>
    have ⟨seg, hs, he⟩ := h.owned c hc
    exact ⟨seg, by simp [hs], he⟩
  case refine_3 => exact hf.id ▸ h.fresh hc

theorem Declared.cidrsOk (hd : Declared name nets st st') (h : CidrsOk st.db) : CidrsOk st'.db := by
  cases hd
  case same => exact h
  case changed seg _ hs _ hi =>
    refine hi.cidrsOk ⟨h.ids, fun c hc => ?_, fun c hc => ?_, ?_⟩ ⟨seg, hs, rfl⟩ fun c hc => ?_
    case refine_1 => exact h.owned c (List.mem_of_mem_filter hc)
    case refine_2 => exact h.nets c (List.mem_of_mem_filter hc)
    case refine_3 => exact h.apart.sublist List.filter_sublist
    case refine_4 => simpa using List.of_mem_filter hc
  case created hf => exact hf.cidrsOk h

-- The tables of the fabric.
def SameFabric (db db' : Db) : Prop :=
  db'.segments = db.segments ∧ db'.cidrs = db.cidrs ∧ db'.policies = db.policies

omit [Ipnet] in
theorem KeysOnly.sameFabric (h : KeysOnly db db') : SameFabric db db' := by
  cases h
  exact ⟨rfl, rfl, rfl⟩

omit [Ipnet] in
theorem Withdrew.sameFabric (h : Withdrew gs serials db db') : SameFabric db db' := by
  have ⟨_, _, e⟩ := h.eq
  exact e ▸ ⟨rfl, rfl, rfl⟩

theorem Enrolled.sameFabric (h : Enrolled db args out db') : SameFabric db db' := by
  cases h
  case intro hc ha =>
    have ⟨h₁, h₂, h₃⟩ := (claimSegment_ok hc).2.sameFabric
    rw [ha.eq]
    exact ⟨h₁, h₂, h₃⟩

theorem SameFabric.cidrsOk (hf : SameFabric db db') (h : CidrsOk db) : CidrsOk db' where
  ids   := hf.1 ▸ h.ids
  owned := hf.1 ▸ hf.2.1 ▸ h.owned
  nets  := hf.2.1 ▸ h.nets
  apart := hf.2.1 ▸ h.apart

theorem cidrsOk_deleteSegment (hd : db.deleteSegment s = .ok db') (h : CidrsOk db) :
    CidrsOk db' := by
  rw [(deleteSegment_ok hd).2]
  refine ⟨?_, fun c hc => ?_, fun c hc => ?_, ?_⟩
  case refine_1 => exact h.ids.sublist (List.filter_sublist.map _)
  case refine_2 =>
    have ⟨seg, hs, he⟩ := h.owned c (List.mem_of_mem_filter hc)
    refine ⟨seg, List.mem_filter.mpr ⟨hs, ?_⟩, he⟩
    simpa [he] using List.of_mem_filter (p := fun c : CidrRow => decide (c.segmentId ≠ s)) hc
  case refine_3 => exact h.nets c (List.mem_of_mem_filter hc)
  case refine_4 => exact h.apart.sublist List.filter_sublist

section Commit

variable [Sha256] [IpnetV6] [PolicyText]

theorem Applied.cidrsOk (ha : Applied db declared policyYaml out db') (h : CidrsOk db) :
    CidrsOk db' := by
  cases ha
  case nothing => exact h
  case segments hs _ _ =>
    have h := applySegments_induct (P := fun st => CidrsOk st.db) Declared.cidrsOk hs h
    exact ⟨h.ids, h.owned, h.nets, h.apart⟩
  case policy st _ _ _ hs _ hp =>
    have h : CidrsOk st.db :=
      applySegments_induct (P := fun st => CidrsOk st.db) Declared.cidrsOk hs h
    have ⟨_, _, hd⟩ := applyPolicy_ok hp
    cases hd
    case inl hd => exact hd.2.1 ▸ ⟨h.ids, h.owned, h.nets, h.apart⟩
    case inr hd => exact hd.2 ▸ ⟨h.ids, h.owned, h.nets, h.apart⟩

omit [Sha256] [IpnetV6] [PolicyText] in
theorem Wrote.sameFabric (h : Wrote db t out db') (ht : ¬ t.OnFabric) : SameFabric db db' := by
  cases h
  case fabric ho _ => exact absurd ho ht
  case enrolled he => exact he.sameFabric
  case keys hk     => exact hk.sameFabric
  all_goals exact ⟨rfl, rfl, rfl⟩

-- All but three transactions leave the fabric alone.
theorem sameFabric_commit (ht : ¬ t.OnFabric) : SameFabric db (db.commit t).2 :=
  commit_induct (P := SameFabric db) t ⟨rfl, rfl, rfl⟩ fun h => (wrote_of_ok h).sameFabric ht

theorem cidrsOk_commit (t : Tx) (h : CidrsOk db) : CidrsOk (db.commit t).2 := by
  by_cases ht : t.OnFabric
  case neg => exact (sameFabric_commit ht).cidrsOk h
  case pos =>
    refine commit_induct t h fun {a db'} hc => ?_
    cases t <;> try exact ht.elim
    case createSegment =>
      have ⟨_, hf, he⟩ := createSegment_ok hc
      have h := hf.cidrsOk h
      exact he ▸ ⟨h.ids, h.owned, h.nets, h.apart⟩
    case deleteSegment =>
      have ⟨_, hd, he⟩ := map_ok.mp hc
      cases he
      exact cidrsOk_deleteSegment hd h
    case applyFabric => exact (applyFabric_ok hc).cidrsOk h

-- Of the gateways of a segment at most one is active.
def OneActive (db : Db) : Prop :=
  db.gateways.Pairwise fun g g' =>
    g.segmentId = g'.segmentId → g.status = .active → g'.status ≠ .active

omit [Ipnet] [Sha256] [IpnetV6] [PolicyText] in
theorem GatewayMove.oneActive (hm : GatewayMove db t rows) (h : OneActive db)
    (hd : db'.gateways = rows) : OneActive db' := by
  have kept {f} (hf : Keeps f) : (db.gateways.map f).Pairwise fun g g' =>
      g.segmentId = g'.segmentId → g.status = .active → g'.status ≠ .active := by
    refine List.pairwise_map.mpr <| h.imp fun {g g'} ho hs ha ha' => ?_
    rw [hf.segmentId, hf.segmentId] at hs
    exact ho hs (hf.active g ha) (hf.active g' ha')
  rw [OneActive, hd]
  cases hm
  case kept f hf => exact kept hf
  case enrolled f s args hf hs =>
    refine List.pairwise_append.mpr ⟨kept hf, by simp, fun g hg g' hg' he ha => ?_⟩
    have ⟨row, hr, hg⟩ := List.mem_map.mp hg
    rw [List.mem_singleton.mp hg', ← hg, hf.segmentId] at he
    exact absurd (hg ▸ ha) (hs row hr he)

theorem cidrsOk_run (r : Run Step .empty h db) : CidrsOk db := by
  refine r.invariant (I := fun _ => CidrsOk) ⟨?_, ?_, ?_, .nil⟩ ?_
  case refine_4 => exact fun _ h hs => hs ▸ cidrsOk_commit _ h
  all_goals simp [empty]

theorem oneActive_run (r : Run Step .empty h db) : OneActive db := by
  refine r.invariant (I := fun _ => OneActive) ?_ ?_
  case refine_1 => exact List.Pairwise.nil
  case refine_2 => exact fun _ h hs => hs ▸ (gatewayMove_commit _).oneActive h rfl

end Commit

omit [Ipnet] in
theorem mem_cidrsForSegment :
    x ∈ db.cidrsForSegment s ↔ ∃ c ∈ db.cidrs, c.segmentId = s ∧ c.cidr = x := by
  simp [cidrsForSegment, and_assoc]

-- What is on file for a segment can always be read.
theorem CidrsOk.stored (h : CidrsOk db) (name : String) (s : Nat) :
    ∃ nets, parseStored name (db.cidrsForSegment s) = .ok nets ∧
      nets.map Ipv4Net.display = db.cidrsForSegment s := by
  have displays : db.cidrsForSegment s ∈ Set.range (List.map Ipv4Net.display) := by
    rw [Set.range_list_map]
    intro x hx
    have ⟨c, hc, _, he⟩ := mem_cidrsForSegment.mp hx
    have ⟨n, hn⟩ := h.nets c hc
    exact ⟨n, hn ▸ he⟩
  have ⟨nets, hd⟩ := displays
  refine ⟨nets, hd ▸ mapM_ok.mpr ?_, hd⟩
  refine List.forall₂_map_left_iff.mpr <| List.forall₂_same.mpr fun n _ => ?_
  rw [Ipnet.parse_display]

theorem CidrsOk.apart_of_ne (h : CidrsOk db) (hs : s ≠ s') (hx : x ∈ db.cidrsForSegment s)
    (hy : y ∈ db.cidrsForSegment s') : Apart x y := by
  have ⟨c, hc, hcs, hcx⟩ := mem_cidrsForSegment.mp hx
  have ⟨d, hd, hds, hdy⟩ := mem_cidrsForSegment.mp hy
  have hne : c ≠ d := fun he => hs (hcs ▸ hds ▸ he ▸ rfl)
  have : Std.Symm fun c d : CidrRow => Apart c.cidr d.cidr := ⟨fun _ _ h => h.symm⟩
  exact hcx ▸ hdy ▸ h.apart.forall hc hd hne

omit [Ipnet] in
theorem identity_segmentId (h : db.identity g = some gw) : gw.segmentId = g.segmentId := by
  have ⟨_, _, he⟩ := Option.map_eq_some_iff.mp h
  exact he ▸ rfl

-- The gateways that a snapshot tells of have segments of their own.
omit [Ipnet] in
theorem OneActive.listOtherGateways (h : OneActive db) :
    (db.listOtherGateways g).Pairwise fun gw gw' => gw.segmentId ≠ gw'.segmentId := by
  refine List.Pairwise.filterMap _ (R := fun g g' => g.segmentId ≠ g'.segmentId) ?_ ?_
  case refine_1 =>
    intro row row' hs gw hg gw' hg'
    rw [identity_segmentId hg, identity_segmentId hg']
    exact hs
  case refine_2 =>
    refine List.pairwise_filter.mpr <| h.imp fun {row row'} ho ha ha' hs => ?_
    simp only [decide_eq_true_eq] at ha ha'
    exact ho hs ha.2 ha'.2

variable [Sha256] [IpnetV6] [PolicyText]

-- Whatever has been committed, an address belongs to one segment at most, a segment to one gateway at
-- most, and so what a gateway is told about its peers names each address for one of them at most.
theorem addresses_have_one_gateway {c : Ctl} (r : Run Step .empty h c.db) :
    (∀ row ∈ c.db.cidrs, ∃ n : Ipv4Net, row.cidr = n.display) ∧
    c.db.cidrs.Pairwise (fun row row' => Apart row.cidr row'.cidr) ∧
    OneActive c.db ∧
    ∀ gatewayId selfCertPem, ∃ snapshot,
      (alone (Sync.buildSnapshot gatewayId selfCertPem).run c).1 = .ok snapshot ∧
      snapshot.peers.Pairwise fun p q => ∀ x ∈ p.allowedIps, ∀ y ∈ q.allowedIps, Apart x y := by
  have cidrs := cidrsOk_run r
  have active := oneActive_run r
  refine ⟨cidrs.nets, cidrs.apart, active, fun gatewayId selfCertPem => ?_⟩
  refine ⟨_, congrArg Prod.fst (Sync.alone_buildSnapshot ..), List.pairwise_map.mpr ?_⟩
  exact active.listOtherGateways.imp fun hs x hx y hy => cidrs.apart_of_ne hs hx hy

end Fabric

section Example

open StandIn

def rebound : Ctl :=
  { Ctl.start with db := (committed reboundTxs).2 }

theorem run_rebound : Run Step .empty (committed reboundTxs).1 rebound.db :=
  Run.run_trace Db.empty reboundTxs

theorem peers_rebound : (fun s => s.peers.map (·.allowedIps)) <$>
    (alone (Sync.buildSnapshot 4 "").run rebound).1 = .ok [["11.0.0.0/8"], ["12.0.0.0/8"]] := by
  decide +kernel

theorem addresses_have_one_gateway_rebound :
    rebound.db.cidrs = [⟨2, "11.0.0.0/8"⟩, ⟨1, "12.0.0.0/8"⟩, ⟨3, "10.0.0.0/8"⟩] ∧
    rebound.db.activeGatewayIds = [2, 3, 4] ∧ OneActive rebound.db ∧
    ∃ snapshot, (alone (Sync.buildSnapshot 4 "").run rebound).1 = .ok snapshot ∧
      snapshot.peers.map (·.allowedIps) = [["11.0.0.0/8"], ["12.0.0.0/8"]] ∧
      snapshot.peers.Pairwise fun p q => ∀ x ∈ p.allowedIps, ∀ y ∈ q.allowedIps, Apart x y := by
  obtain ⟨_, _, active, told⟩ := addresses_have_one_gateway run_rebound
  obtain ⟨snapshot, hs, hp⟩ := told 4 ""
  have peers := peers_rebound
  rw [hs] at peers
  exact ⟨by decide +kernel, by decide +kernel, active, snapshot, hs, Except.ok.inj peers, hp⟩

end Example
end Controller.Db
