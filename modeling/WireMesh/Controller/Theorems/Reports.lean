import Mathlib
import WireMesh.Controller.Theorems.Broker

-- What is on file of a peer after a report that names it.
namespace Controller

variable {entry : HashMap Int String} {path : PeerPath} {paths : List PeerPath} {peer : Int}

def lastState (paths : List PeerPath) (peer : Int) : Option String :=
  (paths.reverse.find? (·.peer = peer)).map (·.state)

-- The different ids that a report names before it comes to a peer.
def idsBefore (paths : List PeerPath) (peer : Int) : List Int :=
  ((paths.takeWhile (·.peer ≠ peer)).map PeerPath.peer).dedup

theorem lastState_cons : lastState (path :: paths) peer =
    (lastState paths peer).or (if path.peer = peer then some path.state else none) := by
  rw [lastState, lastState, List.reverse_cons, List.find?_append, Option.map_or]
  by_cases h : path.peer = peer <;> simp [h]

section Store

theorem mem_storePath (h : peer ∈ entry) : peer ∈ storePath entry path := by
  rw [storePath]
  split
  case isTrue  => exact h
  case isFalse => exact AList.mem_insert entry |>.mpr <| .inr h

-- A peer that is known gets every state that is given for it.
theorem lookup_storePath_tracked (h : peer ∈ entry) : (storePath entry path).lookup peer =
    (if path.peer = peer then some path.state else none).or (entry.lookup peer) := by
  by_cases hp : path.peer = peer
  case pos =>
    subst hp
    rw [storePath, if_neg (fun hn => hn.2 h), AList.lookup_insert]
    simp
  case neg => simp [lookup_storePath path (Ne.symm hp), hp]

theorem lookup_storePaths_tracked (h : peer ∈ entry) :
    (paths.foldl storePath entry).lookup peer = (lastState paths peer).or (entry.lookup peer) := by
  induction paths generalizing entry
  case nil => rfl
  case cons path paths ih =>
    rw [List.foldl_cons, ih (mem_storePath h), lookup_storePath_tracked h, lastState_cons,
      Option.or_assoc]

-- At the cap a peer that is not known stays unknown.
theorem storePaths_full (hf : entry.keys.length ≥ MAX_PEER_PATHS_PER_REPORTER) (h : peer ∉ entry) :
    peer ∉ paths.foldl storePath entry := by
  induction paths generalizing entry
  case nil => exact h
  case cons path paths ih =>
    rw [List.foldl_cons, storePath]
    split
    case isTrue => exact ih hf h
    case isFalse hn =>
      have hm : path.peer ∈ entry := by_contra fun hm => hn ⟨hf, hm⟩
      have hl : (entry.insert path.peer path.state).keys.length = entry.keys.length := by
        have := List.perm_cons_erase (AList.mem_keys.mpr hm) |>.length_eq
        rw [AList.keys_insert, ← this]
      refine ih (hl ▸ hf) fun hi => ?_
      cases AList.mem_insert entry |>.mp hi
      case inl he => exact h (he ▸ hm)
      case inr hi => exact h hi

-- What has been stored of a report is what it has named so far, or has reached the cap.
theorem keys_storePaths (paths : List PeerPath) :
    let stored : HashMap Int String := paths.foldl storePath ∅
    (∀ k ∈ stored, k ∈ paths.map PeerPath.peer) ∧
    (stored.keys.length < MAX_PEER_PATHS_PER_REPORTER →
      ∀ k ∈ paths.map PeerPath.peer, k ∈ stored) := by
  induction paths using List.reverseRecOn
  case nil => exact ⟨fun k hk => absurd hk (AList.notMem_empty k), fun _ _ => nofun⟩
  case append_singleton paths path ih =>
    have ⟨sub, all⟩ := ih
    simp only [List.foldl_append, List.foldl_cons, List.foldl_nil, List.map_append, List.map_cons,
      List.map_nil, List.mem_append, List.mem_singleton]
    rw [storePath]
    split
    case isTrue hn => exact ⟨fun k hk => .inl (sub k hk), fun hl => absurd hl (Nat.not_lt.mpr hn.1)⟩
    case isFalse =>
      refine ⟨fun k hk => ?_, fun hl k hk => AList.mem_insert _ |>.mpr ?_⟩
      case refine_1 => exact (AList.mem_insert _ |>.mp hk).symm.imp (sub k) id
      case refine_2 =>
        refine hk.symm.imp id (all ?_ k)
        refine Nat.lt_of_le_of_lt ?_ hl
        rw [AList.keys_insert, List.length_cons, List.length_erase]
        split <;> omega

theorem storePaths_below_iff :
    (paths.foldl storePath ∅).keys.length < MAX_PEER_PATHS_PER_REPORTER ↔
      (paths.map PeerPath.peer).dedup.length < MAX_PEER_PATHS_PER_REPORTER := by
  have ⟨sub, all⟩ := keys_storePaths paths
  have le : (paths.foldl storePath ∅).keys.length ≤ (paths.map PeerPath.peer).dedup.length :=
    (AList.keys_nodup _).subperm (fun k hk => List.mem_dedup.mpr (sub k hk)) |>.length_le
  refine ⟨fun h => Nat.lt_of_le_of_lt ?_ h, fun h => Nat.lt_of_le_of_lt le h⟩
  exact (List.nodup_dedup _).subperm (fun k hk => all h k (List.mem_dedup.mp hk)) |>.length_le

-- The report up to the peer, and the rest with the peer in front.
theorem split_at (h : peer ∈ paths.map PeerPath.peer) :
    ∃ pre path post, paths = pre ++ path :: post ∧ path.peer = peer ∧
      peer ∉ pre.map PeerPath.peer ∧ idsBefore paths peer = (pre.map PeerPath.peer).dedup := by
  have hs := List.takeWhile_append_dropWhile (p := (·.peer ≠ peer)) (l := paths)
  have other : peer ∉ (paths.takeWhile (·.peer ≠ peer)).map PeerPath.peer := by
    intro hm
    have ⟨path, hp, he⟩ := List.mem_map.mp hm
    simpa [he] using List.mem_takeWhile_imp hp
  cases hd : paths.dropWhile (·.peer ≠ peer)
  case nil =>
    rw [hd, List.append_nil] at hs
    rw [hs] at other
    exact absurd h other
  case cons path post =>
    have hp := List.head?_dropWhile_not (·.peer ≠ peer) paths
    rw [hd] at hp
    exact ⟨_, path, post, hd ▸ hs.symm, by simpa using hp, other, rfl⟩

theorem lastState_append (h : peer ∉ pre.map PeerPath.peer) (post : List PeerPath) :
    lastState (pre ++ post) peer = lastState post peer := by
  induction pre
  case nil => rfl
  case cons path pre ih =>
    have ⟨hp, hn⟩ := not_or.mp (List.mem_cons.not.mp h)
    rw [List.cons_append, lastState_cons, ih hn, if_neg (Ne.symm hp), Option.or_none]

-- In a report that replaces all, a peer is stored if it comes early enough.
theorem lookup_storePaths_empty (h : peer ∈ paths.map PeerPath.peer) :
    (paths.foldl storePath ∅).lookup peer =
      if (idsBefore paths peer).length < MAX_PEER_PATHS_PER_REPORTER then lastState paths peer
      else none := by
  have ⟨pre, path, post, hs, hp, hn, hb⟩ := split_at h
  have fresh : peer ∉ (pre.foldl storePath ∅ : HashMap Int String) :=
    fun hm => hn ((keys_storePaths pre).1 peer hm)
  rw [hb, hs, List.foldl_append, List.foldl_cons, lastState_append hn]
  by_cases hl : (pre.foldl storePath ∅).keys.length < MAX_PEER_PATHS_PER_REPORTER
  case pos =>
    rw [if_pos (storePaths_below_iff.mp hl), storePath,
      if_neg (fun hn => absurd hl (Nat.not_lt.mpr hn.1)), hp,
      lookup_storePaths_tracked (AList.mem_insert _ |>.mpr <| .inl rfl), AList.lookup_insert,
      lastState_cons, if_pos hp]
  case neg =>
    have hf := Nat.not_lt.mp hl
    rw [if_neg (storePaths_below_iff.not.mp hl), storePath, if_pos ⟨hf, hp ▸ fresh⟩]
    exact AList.lookup_eq_none.mpr (storePaths_full hf fresh)

end Store

namespace Broker

def stored (broker : Broker) (reporter peer : Int) : Option String :=
  broker.peerPathStates.lookup reporter >>= AList.lookup peer

theorem stored_onReport (broker : Broker) (report : Report)
    (h : peer ∈ report.peerPaths.map PeerPath.peer) :
    (broker.onReport report).1.stored report.reporter peer =
      (report.peerPaths.foldl storePath (if report.snapshot then ∅ else
        (broker.peerPathStates.lookup report.reporter).getD ∅)).lookup peer := by
  have some_path : ¬ report.peerPaths.isEmpty := fun he => by
    rw [List.isEmpty_iff.mp he] at h
    cases h
  rw [stored, onReport, if_neg (fun hn => some_path hn.2)]
  simp only [storeReport, if_neg (fun hn : _ ∧ _ => some_path hn.2), AList.lookup_insert]
  rfl

-- A peer that is on file gets the last state that a report gives for it, exactly if the report only
-- adds to what is stored, or fewer ids come before the peer than are kept of one reporter. A report
-- that replaces all makes the peer as unknown as the rest.
theorem tracked_gets_last_iff (broker : Broker) (report : Report)
    (ht : (broker.stored report.reporter peer).isSome)
    (hr : peer ∈ report.peerPaths.map PeerPath.peer) :
    (broker.onReport report).1.stored report.reporter peer = lastState report.peerPaths peer ↔
      (report.snapshot →
        (idsBefore report.peerPaths peer).length < MAX_PEER_PATHS_PER_REPORTER) := by
  have given : (lastState report.peerPaths peer).isSome := by
    simpa [lastState] using List.mem_map.mp hr
  rw [stored_onReport broker report hr]
  by_cases hs : report.snapshot
  case pos =>
    rw [if_pos hs, lookup_storePaths_empty hr, imp_iff_right hs]
    split
    case isTrue hl  => exact iff_of_true rfl hl
    case isFalse hl => exact iff_of_false (fun he => by simp [← he] at given) hl
  case neg =>
    refine iff_of_true ?_ fun h => absurd h hs
    have ⟨state, ht⟩ := Option.isSome_iff_exists.mp ht
    have ⟨entry, he, hl⟩ := Option.bind_eq_some_iff.mp ht
    have ⟨last, hg⟩ := Option.isSome_iff_exists.mp given
    rw [if_neg hs, he, Option.getD_some,
      lookup_storePaths_tracked (AList.lookup_isSome.mp (hl ▸ rfl)), hg, Option.some_or]

-- Ids of which none is 7.
def crowd (n : Nat) : List PeerPath :=
  (List.range n).map fun i => ⟨.ofNat (i + 8), "connecting"⟩

theorem peers_crowd (h : n < 2 ^ 32) :
    (crowd n).map PeerPath.peer = (List.range n).map fun i : Nat => (i : Int) + 8 := by
  rw [crowd, List.map_map]
  refine List.map_congr_left fun i hi => ?_
  have hi := List.mem_range.mp hi
  have hn : (UInt64.ofNat (i + 8)).toBitVec.toNat = i + 8 := by simp; omega
  change (UInt64.ofNat (i + 8)).toBitVec.toInt = _
  rw [BitVec.toInt_eq_toNat_of_lt (by omega), hn]
  rfl

theorem length_idsBefore_crowd (h : n < 2 ^ 32) :
    (idsBefore (crowd n ++ [⟨7, state⟩]) 7).length = n := by
  have others : ∀ path ∈ crowd n, path.peer ≠ 7 := by
    intro path hp he
    have hm := List.mem_map_of_mem (f := PeerPath.peer) hp
    rw [peers_crowd h, he] at hm
    have ⟨i, _, hi⟩ := List.mem_map.mp hm
    omega
  have last : [(⟨7, state⟩ : PeerPath)].takeWhile (·.peer ≠ 7) = [] := by
    rw [List.takeWhile_cons]
    rfl
  rw [idsBefore, List.takeWhile_append_of_pos (by simpa using others), last, List.append_nil,
    peers_crowd h, List.Nodup.dedup, List.length_map, List.length_range]
  exact List.nodup_range.map fun i j h => by omega

-- A gateway that reports more peers than are kept loses one that was known of it.
theorem tracked_peer_starved :
    let broker : Broker := ⟨AList.singleton 1 (AList.singleton 7 "direct"), ∅⟩
    let report : Report := ⟨1, crowd MAX_PEER_PATHS_PER_REPORTER ++ [⟨7, "relayed"⟩], true⟩
    broker.stored 1 7 = some "direct" ∧ lastState report.peerPaths 7 = some "relayed" ∧
      (broker.onReport report).1.stored 1 7 = none := by
  intro broker report
  have named : 7 ∈ report.peerPaths.map PeerPath.peer := by
    rw [List.map_append]
    exact List.mem_append_right _ (List.mem_singleton.mpr rfl)
  refine ⟨by decide +kernel, ?_, ?_⟩
  case refine_1 =>
    simp only [lastState, report, List.reverse_append]
    rfl
  case refine_2 =>
    rw [stored_onReport broker report named, if_pos rfl, lookup_storePaths_empty named,
      length_idsBefore_crowd (by decide), if_neg (Nat.lt_irrefl _)]

-- A known peer behind one that is not known.
theorem tracked_gets_last_pair :
    let broker : Broker := ⟨AList.singleton 1 (AList.singleton 7 "direct"), ∅⟩
    (broker.onReport ⟨1, [⟨8, "direct"⟩, ⟨7, "relayed"⟩], true⟩).1.stored 1 7 = some "relayed" := by
  have named : (7 : Int) ∈ [8, 7] := by decide
  exact (tracked_gets_last_iff ⟨AList.singleton 1 (AList.singleton 7 "direct"), ∅⟩
    ⟨1, [⟨8, "direct"⟩, ⟨7, "relayed"⟩], true⟩ (by decide +kernel) named).mpr (by decide +kernel)

end Broker
end Controller
