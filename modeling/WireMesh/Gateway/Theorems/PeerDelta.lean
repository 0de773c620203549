import WireMesh.Gateway.Theorems.Headers

-- When a device is written to in part, and that this comes to the same as writing all of it.
namespace Gateway

open Uapi

abbrev Texts (peers : List PeerConfig) : List String :=
  peers.map (·.publicKeyB64)

section Classify

variable {prev next added : List PeerConfig}

def deltaOf : List PeerConfig → PeerSetDelta
  | []    => .unchanged
  | added => .pureAdditions added

def isNew (prev : List PeerConfig) (p : PeerConfig) : Bool :=
  (prev.reverse.find? (·.publicKeyB64 = p.publicKeyB64)).isNone

theorem isNew_iff : isNew prev p ↔ p.publicKeyB64 ∉ Texts prev := by
  simp [isNew, Option.isNone_iff_eq_none, List.find?_eq_none]

section Perm

variable (hn : (Texts next).Nodup) (hs : added.Sublist next) (hp : (prev ++ added).Perm next)
include hn hs hp

theorem filter_isNew : next.filter (isNew prev) = added := by
  have texts := (hp.map (·.publicKeyB64)).nodup_iff.mpr hn
  rw [List.map_append, List.nodup_append'] at texts
  have old : prev.filter (isNew prev) = [] :=
    List.filter_eq_nil_iff.mpr fun p h h' => isNew_iff.mp h' (List.mem_map_of_mem h)
  have new : added.filter (isNew prev) = added :=
    List.filter_eq_self.mpr fun p h => isNew_iff.mpr fun h' =>
      texts.2.2 h' (List.mem_map_of_mem h)
  have perm := hp.filter (isNew prev)
  rw [List.filter_append, old, new] at perm
  have sub := hs.filter (isNew prev)
  rw [new] at sub
  exact (sub.eq_of_length perm.length_eq).symm

-- Peers that are all there are compared with themselves.
theorem classify_of_perm : classifyPeerDelta prev next = deltaOf added := by
  have hall : ∀ p ∈ prev, p ∈ next := fun p h => hp.subset (List.mem_append_left _ h)
  have hnone : ¬ prev.any fun p => next.all (·.publicKeyB64 ≠ p.publicKeyB64) := by
    simp only [List.any_eq_true, List.all_eq_true, not_exists, not_and]
    exact fun p h h' => by simpa using h' p (hall p h)
  have hsame : ¬ next.any fun p =>
      (prev.reverse.find? (·.publicKeyB64 = p.publicKeyB64)).any (· ≠ p) := by
    simp only [List.any_eq_true, not_exists, not_and]
    intro p h h'
    have ⟨q, hq, hne⟩ := (Option.any_eq_true _ _).mp h'
    have hq' := hall q (List.mem_reverse.mp (List.mem_of_find?_eq_some hq))
    exact of_decide_eq_true hne (eq_of_text hn hq' h (by simpa using List.find?_some hq))
  rw [classifyPeerDelta, if_neg hnone, if_neg hsame, ← filter_isNew hn hs hp]
  rfl

end Perm

theorem Grows.perm (hp : (Texts prev).Nodup) (hn : (Texts next).Nodup) (h : Grows prev next added) :
    (prev ++ added).Perm next := by
  have texts : (Texts (prev ++ added)).Nodup := by
    rw [Texts, List.map_append, List.nodup_append']
    refine ⟨hp, hn.sublist (h.sublist.map _), fun t ht ht' => ?_⟩
    have ⟨p, hm, he⟩ := List.mem_map.mp ht'
    exact (h.new p hm).2 (he ▸ ht)
  refine (List.perm_ext_iff_of_nodup texts.of_map hn.of_map).mpr fun p => ?_
  rw [List.mem_append]
  exact ⟨fun hm => hm.elim (fun hm => h.kept hm) fun hm => (h.new p hm).1, h.rest p⟩

theorem deltaOf_eq_additions : deltaOf peers = .pureAdditions added ↔ peers = added ∧ added ≠ [] := by
  cases peers
  case nil  => exact iff_of_false nofun fun ⟨he, hne⟩ => hne he.symm
  case cons => exact ⟨fun h => by cases h; exact ⟨rfl, nofun⟩, fun ⟨he, _⟩ => by rw [← he]; rfl⟩

section Spec

variable (hp : (Texts prev).Nodup) (hn : (Texts next).Nodup)
include hp hn

theorem unchanged_iff : classifyPeerDelta prev next = .unchanged ↔ prev.Perm next := by
  refine ⟨fun h => ?_, fun h => ?_⟩
  case refine_1 => simpa using (grows_of_unchanged hp h).perm hp hn
  case refine_2 => exact classify_of_perm hn (List.nil_sublist _) (by simpa using h)

theorem additions_iff : classifyPeerDelta prev next = .pureAdditions added ↔
    added ≠ [] ∧ added.Sublist next ∧ (prev ++ added).Perm next := by
  refine ⟨fun h => ?_, fun ⟨h₀, hs, h⟩ => ?_⟩
  case refine_1 =>
    have hg := grows_of_additions hp h
    have hperm := hg.perm hp hn
    have hd := (classify_of_perm hn hg.sublist hperm).symm.trans h
    exact ⟨(deltaOf_eq_additions.mp hd).2, hg.sublist, hperm⟩
  case refine_2 => exact (classify_of_perm hn hs h).trans (deltaOf_eq_additions.mpr ⟨rfl, h₀⟩)

theorem needsFullApply_iff : classifyPeerDelta prev next = .needsFullApply ↔
    ¬ ∃ added, (prev ++ added).Perm next := by
  refine ⟨fun h ⟨added, ha⟩ => ?_, fun h => ?_⟩
  case refine_1 =>
    have ⟨added', he, hs⟩ := (List.sublist_append_right prev added).subperm.trans ha.subperm
    have := classify_of_perm hn hs ((he.append_left prev).trans ha)
    cases added' <;> cases h.symm.trans this
  case refine_2 =>
    cases hc : classifyPeerDelta prev next
    case unchanged           => exact absurd ⟨[], (by simpa using (unchanged_iff hp hn).mp hc)⟩ h
    case pureAdditions added => exact absurd ⟨added, ((additions_iff hp hn).mp hc).2.2⟩ h
    case needsFullApply      => rfl

end Spec
end Classify

section Write

variable {prev next added : List PeerConfig} {d d₀ : Device} {cfg cfg₀ : DeviceConfig}

theorem set_of_header (d : Device) (h : encodeSet cfg = .ok body)
    (hh : (deviceHeader body).1 = headerLines key port) :
    d.set body = Device.addAll ⟨key, port, []⟩ (peersOf cfg.peers) := by
  have ⟨key', blocks, hk, hb, he⟩ := encodeSet_ok.mp h
  have ⟨key'', hk', hd⟩ := deviceHeader_encodeSet h
  cases hk.symm.trans hk'
  rw [hd] at hh
  cases hh
  exact he ▸ hb.apiSet

-- To write the new peers comes to the same as to write all: either both make the device panic, or the
-- device is the same, up to the order of its peers, and those that were on it are left alone.
def SameAsFull (d : Device) (added : List PeerConfig) (full : Body) : Prop :=
  ∃ body, encodeAddPeers added = .ok body ∧
    match d.set body, d.set full with
    | some d₁, some d₂ =>
      d₁.peers = d.peers ++ peersOf added ∧ d₁.peers.Perm d₂.peers ∧
        d₁.privateKey = d₂.privateKey ∧ d₁.listenPort = d₂.listenPort
    | none, none => True
    | _, _       => False

theorem exists_block (hb : Blocks peers blocks) : ∀ p ∈ peers, ∃ block, peerBlock p = .ok block := by
  induction hb
  case nil => nofun
  case cons hp _ ih => exact List.forall_mem_cons.mpr ⟨⟨_, hp⟩, ih⟩

theorem encodeAddPeers_of_subset (h : encodeSet cfg = .ok body) (hs : added ⊆ cfg.peers) :
    ∃ body, encodeAddPeers added = .ok body := by
  have ⟨_, _, _, hb, _⟩ := encodeSet_ok.mp h
  have ⟨blocks, hm⟩ := mapM_ok fun p hp => exists_block hb p (hs hp)
  exact ⟨_, Checked.bind_ok.mpr ⟨blocks, hm, rfl⟩⟩

-- To take peers together is to take some of them and then the others.
theorem addAll_append (d : Device) (ps qs : List Device.Peer) :
    d.addAll (ps ++ qs) = (d.addAll ps).bind (·.addAll qs) := by
  induction ps generalizing d
  case nil => rfl
  case cons p ps ih =>
    rw [List.cons_append, Device.addAll, Device.addAll, Option.bind_assoc]
    exact Option.bind_congr fun d _ => ih d

theorem addAll_perm (hp : ps.Perm qs) (h : d.addAll ps = some d₁) :
    d.addAll qs = some { d with peers := d.peers ++ qs } := by
  have ⟨_, hk, hn⟩ := Device.addAll_eq_some.mp h
  exact Device.addAll_eq_some.mpr
    ⟨rfl, (hp.map _).nodup_iff.mp hk, fun p hm => hn p (hp.mem_iff.mpr hm)⟩

theorem sameAsFull_of_perm (h₀ : encodeSet cfg₀ = .ok e₀) (h₁ : encodeSet cfg = .ok e₁)
    (hh : deviceHeader e₀ = deviceHeader e₁) (hd : d₀.set e₀ = some d)
    (hs : added.Sublist cfg.peers) (hp : (cfg₀.peers ++ added).Perm cfg.peers) :
    SameAsFull d added e₁ := by
  have ⟨body, hb⟩ := encodeAddPeers_of_subset h₁ hs.subset
  have ⟨key, hk, hh₀⟩ := deviceHeader_encodeSet h₀
  rw [set_of_header d₀ h₀ (congrArg Prod.fst hh₀)] at hd
  have hperm := hp.filterMap PeerConfig.peer
  rw [List.filterMap_append] at hperm
  have hadd : d.addAll (peersOf added) =
      Device.addAll ⟨key, cfg₀.listenPort, []⟩ (peersOf cfg₀.peers ++ peersOf added) := by
    rw [addAll_append, hd, Option.bind_some]
  refine ⟨body, hb, ?_⟩
  rw [set_encodeAddPeers hb, set_of_header d h₁ (congrArg Prod.fst (hh.symm.trans hh₀))]
  cases h : d.addAll (peersOf added)
  case none =>
    cases h' : Device.addAll ⟨key, cfg₀.listenPort, []⟩ (peersOf cfg.peers)
    case none => trivial
    case some => cases h.symm.trans (hadd.trans (addAll_perm hperm.symm h'))
  case some d₁ =>
    have ⟨he, _, _⟩ := Device.addAll_eq_some.mp hd
    have ⟨he₁, _, _⟩ := Device.addAll_eq_some.mp h
    rw [addAll_perm hperm (hadd.symm.trans h)]
    subst he he₁
    exact ⟨rfl, hperm, rfl, rfl⟩

end Write

variable {prev next : List PeerConfig}

-- What is asked of the device follows from which peers there are, and not from their order, and a write
-- in part comes to the same as a full one.
theorem classify_exact (hp : (Texts prev).Nodup) (hn : (Texts next).Nodup) :
    (classifyPeerDelta prev next = .unchanged ↔ prev.Perm next) ∧
    (∀ added, classifyPeerDelta prev next = .pureAdditions added ↔
      added ≠ [] ∧ added.Sublist next ∧ (prev ++ added).Perm next) ∧
    (classifyPeerDelta prev next = .needsFullApply ↔ ¬ ∃ added, (prev ++ added).Perm next) ∧
    ∀ key₀ key₁ port₀ port₁ e₀ e₁ d₀ d, encodeSet ⟨key₀, port₀, prev⟩ = .ok e₀ →
      encodeSet ⟨key₁, port₁, next⟩ = .ok e₁ → deviceHeader e₀ = deviceHeader e₁ →
      Device.set d₀ e₀ = some d →
        (classifyPeerDelta prev next = .unchanged → SameAsFull d [] e₁) ∧
        ∀ added, classifyPeerDelta prev next = .pureAdditions added → SameAsFull d added e₁ := by
  refine ⟨unchanged_iff hp hn, fun _ => additions_iff hp hn, needsFullApply_iff hp hn, ?_⟩
  intro key₀ key₁ port₀ port₁ e₀ e₁ d₀ d h₀ h₁ hh hd
  refine ⟨fun hc => ?_, fun added hc => ?_⟩
  case refine_1 =>
    refine sameAsFull_of_perm h₀ h₁ hh hd (List.nil_sublist _) ?_
    simpa using (unchanged_iff hp hn).mp hc
  case refine_2 =>
    have ⟨_, hs, hperm⟩ := (additions_iff hp hn).mp hc
    exact sameAsFull_of_perm h₀ h₁ hh hd hs hperm

section Example

def peerOf (publicKeyB64 : String) : PeerConfig :=
  ⟨publicKeyB64, none, [], 25⟩

-- New peers are written in the order that they are asked for in, and not in another one.
theorem classify_keeps_order :
    [peerOf "b", peerOf "a"] ≠ [] ∧ ([] ++ [peerOf "b", peerOf "a"]).Perm [peerOf "a", peerOf "b"] ∧
      classifyPeerDelta [] [peerOf "a", peerOf "b"] ≠ .pureAdditions [peerOf "b", peerOf "a"] := by
  refine ⟨nofun, List.Perm.swap .., fun h => ?_⟩
  simp [classifyPeerDelta, peerOf] at h

theorem classify_exact_newcomer :
    classifyPeerDelta [peerOf "a", peerOf "b"] [peerOf "b", peerOf "c", peerOf "a"] =
      .pureAdditions [peerOf "c"] := by
  have prev : (Texts [peerOf "a", peerOf "b"]).Nodup := by decide
  have next : (Texts [peerOf "b", peerOf "c", peerOf "a"]).Nodup := by decide
  exact ((classify_exact prev next).2.1 [peerOf "c"]).mpr ⟨nofun, by decide, by decide⟩

end Example
end Gateway
