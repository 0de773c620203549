import WireMesh.Lib.Holdings
import WireMesh.Controller.Theorems.Segments

-- The segments of a database by their names, and what declaring one does to them.
namespace Controller.Db

open Policy Checked

section Table

variable {db db' : Db}

-- The segments, each with its CIDRs.
def table (db : Db) : Holdings String Ipv4Net := fun name =>
  (db.segments.find? (·.name = name)).map fun seg => {n | cidrRow seg.id n ∈ db.cidrs}

-- The CIDRs of two segments, or two of one, may not overlap.
def Overlap (n m : Ipv4Net) : Prop :=
  overlaps n m = true

theorem Overlap.symm (n m : Ipv4Net) (h : Overlap n m) : Overlap m n :=
  overlaps_comm.symm.trans h

theorem table_eq_none : db.table name = none ↔ ∀ seg ∈ db.segments, seg.name ≠ name := by
  simp [table]

theorem table_congr (hs : db'.segments = db.segments) (hc : db'.cidrs = db.cidrs) :
    db'.table = db.table := by
  unfold table
  rw [hs, hc]

theorem isSome_table : (db.table name).isSome ↔ name ∈ db.segments.map (·.name) := by
  simp [table]

@[simp]
theorem cidrRow_segmentId (s : Nat) (n : Ipv4Net) : (cidrRow s n).segmentId = s :=
  rfl

theorem cidrRow_inj (h : cidrRow s n = cidrRow s' n') [Ipnet] : s = s' ∧ n = n' := by
  have ⟨hs, hn⟩ := CidrRow.mk.inj h
  exact ⟨hs, Ipv4Net.display_injective hn⟩

theorem mem_cidrRows [Ipnet] {nets : List Ipv4Net} :
    cidrRow s n ∈ nets.map (cidrRow s') ↔ s = s' ∧ n ∈ nets := by
  constructor
  case mp =>
    intro h
    have ⟨m, hm, he⟩ := List.mem_map.mp h
    have ⟨hs, hn⟩ := cidrRow_inj he
    exact ⟨hs.symm, hn ▸ hm⟩
  case mpr => exact fun ⟨hs, hn⟩ => hs ▸ List.mem_map_of_mem hn

end Table

section Stored

variable [Ipnet] {db : Db}

theorem CidrsOk.parseStored (h : CidrsOk db) (name : String) (s : Nat) :
    ∃ stored, parseStored name (db.cidrsForSegment s) = .ok stored ∧
      ∀ n, n ∈ stored ↔ cidrRow s n ∈ db.cidrs := by
  have ⟨stored, hp, hd⟩ := h.stored name s
  refine ⟨stored, hp, fun n => ?_⟩
  have hm : n ∈ stored ↔ n.display ∈ db.cidrsForSegment s :=
    hd ▸ (List.mem_map_of_injective Ipv4Net.display_injective).symm
  rw [hm, mem_cidrsForSegment]
  exact ⟨fun ⟨c, hc, hs, he⟩ => by rwa [cidrRow, ← hs, ← he], fun hr => ⟨_, hr, rfl, rfl⟩⟩

-- The declared CIDRs of a segment are compared with the stored ones as sets.
omit [Ipnet] in
theorem same_iff {stored nets : List Ipv4Net} (h : ∀ n, n ∈ stored ↔ cidrRow s n ∈ db.cidrs) :
    stored ⊆ nets ∧ nets ⊆ stored ↔ {n | cidrRow s n ∈ db.cidrs} = {n | n ∈ nets} := by
  rw [Set.Subset.antisymm_iff]
  refine and_congr ?_ ?_
  case refine_1 => exact forall_congr' fun n => imp_congr_left (h n)
  case refine_2 => exact forall_congr' fun n => imp_congr_right fun _ => h n

end Stored

section Put

variable [Ipnet] {db db' : Db}

theorem eq_of_id (h : CidrsOk db) (ha : a ∈ db.segments) (hb : b ∈ db.segments)
    (he : a.id = b.id) : a = b :=
  List.inj_on_of_nodup_map h.ids ha hb he

-- A segment that gets other CIDRs.
theorem Inserted.table_replaced (h : CidrsOk db) (hf : db.segments.find? (·.name = name) = some seg)
    (hi : Inserted seg.id nets { db with cidrs := db.cidrs.filter (·.segmentId ≠ seg.id) } db') :
    db'.table = db.table.put (name, nets) := by
  have hn : seg.name = name := by simpa using List.find?_some hf
  funext k
  rw [hi.eq]
  by_cases hk : k = name
  case pos =>
    subst hk
    rw [Holdings.put_self]
    simp only [table, hf, Option.map_some, Option.some.injEq]
    ext n
    simp [mem_cidrRows]
  case neg =>
    rw [Holdings.put_of_ne hk]
    simp only [table]
    cases hfk : db.segments.find? (·.name = k)
    case none => rfl
    case some seg' =>
      have hne : seg'.id ≠ seg.id := fun he => hk <| by
        have := eq_of_id h (List.mem_of_find?_eq_some hfk) (List.mem_of_find?_eq_some hf) he
        have hn' : seg'.name = k := by simpa using List.find?_some hfk
        rw [← hn', this, hn]
      simp only [Option.map_some, Option.some.injEq]
      ext n
      simp [mem_cidrRows, hne]

-- A segment that is new.
theorem Founded.table (h : CidrsOk db) (hf : Founded s name nets db db') :
    db'.table = db.table.put (name, nets) := by
  have hnone : db.segments.find? (·.name = name) = none := by simpa using hf.fresh
  funext k
  rw [hf.inserted.eq]
  by_cases hk : k = name
  case pos =>
    subst hk
    rw [Holdings.put_self]
    simp only [Db.table, List.find?_append, hnone, List.find?_singleton, Option.none_or,
      decide_true, if_true, Option.map_some, Option.some.injEq]
    ext n
    have hrow : cidrRow s n ∉ db.cidrs := fun hm => h.fresh hm hf.id
    simp [mem_cidrRows, hrow]
  case neg =>
    rw [Holdings.put_of_ne hk]
    simp only [Db.table, List.find?_append, List.find?_singleton, Ne.symm hk, decide_false,
      Bool.false_eq_true, if_false, Option.or_none]
    cases hfk : db.segments.find? (·.name = k)
    case none => rfl
    case some seg =>
      have hne : seg.id ≠ s := fun he => nextId_not_mem (db.segments.map (·.id)) <|
        hf.id ▸ he ▸ List.mem_map_of_mem (List.mem_of_find?_eq_some hfk)
      simp only [Option.map_some, Option.some.injEq]
      ext n
      simp [mem_cidrRows, hne]

end Put

section Steps

-- What a declared segment has come to: it was there as declared, or something has been written for it.
inductive Took (existing : List String) (p : String × List Ipv4Net) (st : ApplyState) :
    ApplyState → Prop
  | same : p.1 ∈ existing → st.db.table p.1 = some {n | n ∈ p.2} → Took existing p st st
  | wrote : st'.db.table = st.db.table.put p →
      st'.created + st'.updated = st.created + st.updated + 1 → Took existing p st st'

variable {existing : List String} {st st' : ApplyState}

theorem Took.table (h : Took existing p st st') : st'.db.table = st.db.table.put p := by
  cases h
  case same hs    => exact (Holdings.put_eq_self hs).symm
  case wrote hw _ => exact hw

variable [Ipnet]

theorem applySegment_took (hc : CidrsOk st.db)
    (h : applySegment existing st name nets = .ok st') : Took existing (name, nets) st st' := by
  rw [applySegment] at h
  split at h
  case isTrue he =>
    dsimp only at h
    split at h
    case h_2 => cases h
    case h_1 seg hf =>
      obtain ⟨stored, hp, hm⟩ := hc.parseStored name seg.id
      rw [hp, ok_bind] at h
      split at h
      case isTrue hs =>
        cases h
        refine .same he ?_
        rw [Db.table, hf, Option.map_some, (same_iff hm).mp hs]
      case isFalse =>
        obtain ⟨got, hi, h⟩ := bind_ok.mp h
        cases h
        exact .wrote ((insertCidrs_ok hi).1.table_replaced hc hf) (Nat.add_assoc ..).symm
  case isFalse =>
    obtain ⟨_, hi, h⟩ := bind_ok.mp h
    cases h
    exact .wrote ((insertSegment_ok hi).table hc) (Nat.add_right_comm ..)

theorem applySegment_same (hc : CidrsOk st.db) (he : name ∈ existing)
    (ht : st.db.table name = some {n | n ∈ nets}) :
    applySegment existing st name nets = .ok st := by
  have ⟨seg, hf, hs⟩ := Option.map_eq_some_iff.mp ht
  have ⟨stored, hp, hm⟩ := hc.parseStored name seg.id
  simp only [applySegment, he, hf, hp, (same_iff hm).mpr hs, if_true, ok_bind]
  rfl

end Steps

end Controller.Db
