import WireMesh.Lib.Checked
import WireMesh.Gateway.Main

-- What a device holds, against what is recorded to have been applied to it.
namespace Gateway

open Uapi

namespace Uapi

-- What a peer comes to on a device.
def PeerConfig.peer (p : PeerConfig) : Option Device.Peer :=
  (keyOfB64 p.publicKeyB64).toOption.map fun key => ⟨key, p.endpoint, p.allowedIps, p.keepaliveSecs⟩

abbrev peersOf (peers : List PeerConfig) : List Device.Peer :=
  peers.filterMap PeerConfig.peer

-- The keys that a request names.
def keysOf (body : Body) : List Key :=
  body.filterMap fun | .publicKey key => some key | _ => none

-- A request that neither replaces the peers nor removes one.
def AddOnly (body : Body) : Prop :=
  .replacePeers ∉ body ∧ .remove ∉ body

instance : Decidable (AddOnly body) := by
  unfold AddOnly
  infer_instance

end Uapi

namespace Device

variable {d d' : Device} {ps : List Peer}

abbrev keys (d : Device) : List Key :=
  d.peers.map (·.key)

def addAll (d : Device) : List Peer → Option Device
  | []      => some d
  | p :: ps => (d.updatePeer ⟨p, false⟩).bind (·.addAll ps)

-- Peers are added as long as they are new.
theorem addAll_eq_some : d.addAll ps = some d' ↔
    d' = { d with peers := d.peers ++ ps } ∧ (ps.map (·.key)).Nodup ∧ ∀ p ∈ ps, p.key ∉ d.keys := by
  induction ps generalizing d
  case nil => simp [addAll, eq_comm]
  case cons p ps ih =>
    simp only [addAll, updatePeer]
    by_cases hp : p.key ∈ d.keys
    case pos =>
      have ha : d.peers.any (·.key = p.key) := by simpa using hp
      simp only [ha, Bool.false_eq_true, if_false, if_true, Option.bind_none, reduceCtorEq, false_iff]
      exact fun h => h.2.2 p List.mem_cons_self hp
    case neg =>
      have ha : ¬ d.peers.any (·.key = p.key) := by simpa using hp
      simp only [ha, Bool.false_eq_true, if_false, Option.bind_some, ih, keys, List.map_append,
        List.map_cons, List.map_nil, List.mem_append, List.mem_singleton, List.append_assoc,
        List.singleton_append, List.nodup_cons, List.forall_mem_cons]
      have hk : p.key ∉ ps.map (·.key) ↔ ∀ q ∈ ps, q.key ≠ p.key := by simp
      grind

variable {u : Update}

theorem apiSet_endpoint (ep : Option String) :
    d.apiSet (some u) (ep.toList.map .endpoint ++ rest) =
      d.apiSet (some { u with peer.endpoint := ep.or u.peer.endpoint }) rest := by
  cases ep <;> rfl

theorem apiSet_allowedIps (cidrs : List String) :
    d.apiSet (some u) (cidrs.map .allowedIp ++ rest) =
      d.apiSet (some { u with peer.allowedIps := u.peer.allowedIps ++ cidrs }) rest := by
  induction cidrs generalizing u
  case nil => simp
  case cons ih =>
    rw [List.map_cons, List.cons_append, apiSet]
    case _ => exact ih.trans (by simp [Update.line])
    all_goals nofun

end Device

namespace Uapi

variable {p : PeerConfig} {peers : List PeerConfig} {body : Body}

-- What a peer is written by.
theorem peerBlock_ok (hb : peerBlock p = .ok body) : ∃ key, keyOfB64 p.publicKeyB64 = .ok key ∧
    body = .publicKey key :: p.endpoint.toList.map .endpoint ++
      .replaceAllowedIps :: p.allowedIps.map .allowedIp ++
      [.persistentKeepaliveInterval p.keepaliveSecs] := by
  simp only [peerBlock, Checked.bind_ok, Checked.pure_ok] at hb
  have ⟨_, _, _, _, key, hk, he⟩ := hb
  exact ⟨key, hk, he.symm⟩

theorem peer_of_key (hk : keyOfB64 p.publicKeyB64 = .ok key) :
    p.peer = some ⟨key, p.endpoint, p.allowedIps, p.keepaliveSecs⟩ := by
  simp [PeerConfig.peer, hk, Except.toOption]

theorem peersOf_cons (hp : p.peer = some b) : peersOf (p :: peers) = b :: peersOf peers :=
  List.filterMap_cons_some hp

theorem key_of_peer (hp : p.peer = some b) : keyOfB64 p.publicKeyB64 = .ok b.key := by
  simp only [PeerConfig.peer, Option.map_eq_some_iff] at hp
  have ⟨key, hk, he⟩ := hp
  cases hd : keyOfB64 p.publicKeyB64
  case error => simp [hd, Except.toOption] at hk
  case ok =>
    cases he
    simpa [hd, Except.toOption] using hk

-- The device reads the lines of a peer for the peer.
theorem apiSet_peerBlock {d : Device} (hb : peerBlock p = .ok body) (hp : p.peer = some b) :
    d.apiSet u (body ++ rest) = (d.finish u).bind (·.apiSet (some ⟨b, false⟩) rest) := by
  have ⟨key, hk, he⟩ := peerBlock_ok hb
  cases hp.symm.trans (peer_of_key hk)
  rw [he]
  simp only [List.cons_append, List.append_assoc, Device.apiSet, Device.apiSet_endpoint,
    Device.apiSet_allowedIps, List.nil_append, Option.map_some, Device.Update.line]
  simp

abbrev Blocks : List PeerConfig → List Body → Prop :=
  List.Forall₂ fun p block => peerBlock p = .ok block

theorem encodeAddPeers_ok :
    encodeAddPeers peers = .ok body ↔ ∃ blocks, Blocks peers blocks ∧ blocks.flatten = body := by
  simp only [encodeAddPeers, Checked.bind_ok, Checked.mapM_ok, Checked.pure_ok]

theorem Blocks.peer (hb : Blocks peers blocks) : ∀ p ∈ peers, ∃ b, p.peer = some b := by
  induction hb
  case nil => nofun
  case cons hp _ ih =>
    have ⟨_, hk, _⟩ := peerBlock_ok hp
    exact List.forall_mem_cons.mpr ⟨⟨_, peer_of_key hk⟩, ih⟩

-- The device takes the peers one after the other.
theorem Blocks.apiSet {d : Device} (hb : Blocks peers blocks) :
    d.apiSet u blocks.flatten = (d.finish u).bind (·.addAll (peersOf peers)) := by
  induction hb generalizing u d
  case nil => cases hd : d.finish u <;> simp [Device.apiSet, Device.addAll, hd]
  case cons hp _ ih =>
    have ⟨_, hk, _⟩ := peerBlock_ok hp
    rw [List.flatten_cons, apiSet_peerBlock hp (peer_of_key hk), peersOf_cons (peer_of_key hk)]
    exact Option.bind_congr fun d _ => ih

theorem Blocks.keysOf (hb : Blocks peers blocks) :
    keysOf blocks.flatten = (peersOf peers).map (·.key) := by
  induction hb
  case nil => rfl
  case cons hp _ ih =>
    have ⟨_, hk, he⟩ := peerBlock_ok hp
    rw [List.flatten_cons, peersOf_cons (peer_of_key hk), List.map_cons, ← ih, he]
    simp [Uapi.keysOf]

theorem Blocks.addOnly (hb : Blocks peers blocks) : AddOnly blocks.flatten := by
  induction hb
  case nil => exact ⟨nofun, nofun⟩
  case cons hp _ ih =>
    have ⟨_, _, he⟩ := peerBlock_ok hp
    simp_all [AddOnly]

theorem set_encodeAddPeers {d : Device} (hb : encodeAddPeers peers = .ok body) :
    d.set body = d.addAll (peersOf peers) := by
  have ⟨_, hs, he⟩ := encodeAddPeers_ok.mp hb
  exact he ▸ hs.apiSet

theorem encodeSet_ok : encodeSet c = .ok body ↔ ∃ key blocks,
    keyOfB64 c.privateKeyB64 = .ok key ∧ Blocks c.peers blocks ∧
      [.privateKey key, .listenPort c.listenPort, .replacePeers] ++ blocks.flatten = body := by
  simp only [encodeSet, Checked.bind_ok, encodeAddPeers_ok, Checked.pure_ok]
  grind

-- A whole configuration takes the place of the peers.
theorem set_encodeSet {d : Device} (hb : encodeSet cfg = .ok body) : ∃ key,
    d.set body = Device.addAll ⟨key, cfg.listenPort, []⟩ (peersOf cfg.peers) := by
  have ⟨key, _, _, hs, he⟩ := encodeSet_ok.mp hb
  exact ⟨key, he ▸ hs.apiSet⟩

theorem keysOf_encodeSet (hb : encodeSet cfg = .ok body) :
    keysOf body = (peersOf cfg.peers).map (·.key) := by
  have ⟨_, _, _, hs, he⟩ := encodeSet_ok.mp hb
  rw [← hs.keysOf, ← he]
  rfl

theorem not_addOnly_encodeSet (hb : encodeSet cfg = .ok body) : ¬ AddOnly body := by
  have ⟨_, _, _, _, he⟩ := encodeSet_ok.mp hb
  exact fun h => h.1 (by simp [← he])

theorem encodeRemovePeer_ok (hb : encodeRemovePeer text = .ok body) :
    ∃ key, keyOfB64 text = .ok key ∧ body = [.publicKey key, .remove] := by
  simp only [encodeRemovePeer, Checked.bind_ok, Checked.pure_ok] at hb
  have ⟨key, hk, he⟩ := hb
  exact ⟨key, hk, he.symm⟩

end Uapi

open Uapi

-- Peers whose keys can be told apart by a device.
def Distinct (peers : List PeerConfig) : Prop :=
  ((peersOf peers).map (·.key)).Nodup

instance : Decidable (Distinct peers) := by
  unfold Distinct
  infer_instance

-- What is recorded covers what is on the device: each peer of it is one that has been recorded, and a
-- configuration that has been recorded is that of the recorded peers.
structure Covers (a : ActiveTunInfo) (d : Device) : Prop where
  peers : d.peers ⊆ peersOf a.appliedPeers
  keys : d.keys.Nodup
  texts : (a.appliedPeers.map (·.publicKeyB64)).Nodup
  config : ∀ body ∈ a.appliedConfig, encodeSet ⟨a.privKey, a.wgPort, a.appliedPeers⟩ = .ok body

-- The device has the peers and no others.
def Device.Holds (d : Device) (peers : List PeerConfig) : Prop :=
  ∀ b, b ∈ d.peers ↔ b ∈ peersOf peers

instance : Decidable (Device.Holds d peers) :=
  decidable_of_iff (d.peers ⊆ peersOf peers ∧ peersOf peers ⊆ d.peers)
    ⟨fun h _ => ⟨fun hb => h.1 hb, fun hb => h.2 hb⟩, fun h => ⟨fun b => (h b).mp, fun b => (h b).mpr⟩⟩

-- Nothing of what is asked for is recorded as it is asked for and yet off the device.
def Untorn (a : ActiveTunInfo) (d : Device) (peers : List PeerConfig) : Prop :=
  ∀ b ∈ peersOf a.appliedPeers, b.key ∉ d.keys → b ∉ peersOf peers

instance lawfulBEqKey : @LawfulBEq (List (BitVec 8)) List.instBEq :=
  List.instLawfulBEq

instance : Decidable (Untorn a d peers) := by
  unfold Untorn
  infer_instance

section Texts

variable {peers : List PeerConfig} {p q : PeerConfig} {b b' : Device.Peer}

theorem mem_peersOf : b ∈ peersOf peers ↔ ∃ p ∈ peers, p.peer = some b :=
  List.mem_filterMap

theorem peersOf_subset (h : peers ⊆ others) : peersOf peers ⊆ peersOf others := by
  intro b hb
  have ⟨p, hp, he⟩ := mem_peersOf.mp hb
  exact mem_peersOf.mpr ⟨p, h hp, he⟩

theorem eq_of_key (hd : Distinct peers) (hb : b ∈ peersOf peers) (hb' : b' ∈ peersOf peers)
    (hk : b.key = b'.key) : b = b' :=
  List.inj_on_of_nodup_map hd hb hb' hk

-- Keys that differ are spelled differently.
theorem Distinct.texts (hd : Distinct peers) (hb : Blocks peers blocks) :
    (peers.map (·.publicKeyB64)).Nodup := by
  induction hb
  case nil => exact .nil
  case cons p _ peers _ hp hs ih =>
    have ⟨key, hk, _⟩ := peerBlock_ok hp
    rw [Distinct, peersOf_cons (peer_of_key hk), List.map_cons, List.nodup_cons] at hd
    refine List.nodup_cons.mpr ⟨fun hm => hd.1 ?_, ih hd.2⟩
    have ⟨q, hq, ht⟩ := List.mem_map.mp hm
    have hq' := peer_of_key (p := q) ((congrArg keyOfB64 ht).trans hk)
    exact List.mem_map.mpr ⟨_, mem_peersOf.mpr ⟨q, hq, hq'⟩, rfl⟩

theorem eq_of_text (hn : (peers.map (·.publicKeyB64)).Nodup) (hp : p ∈ peers) (hq : q ∈ peers)
    (ht : p.publicKeyB64 = q.publicKeyB64) : p = q :=
  List.inj_on_of_nodup_map hn hp hq ht

end Texts

section Classify

variable {prev next added : List PeerConfig}

-- Nothing that was applied is given up, and what comes in addition is new by its text.
structure Grows (prev next added : List PeerConfig) : Prop where
  kept : prev ⊆ next
  new : ∀ p ∈ added, p ∈ next ∧ p.publicKeyB64 ∉ prev.map (·.publicKeyB64)
  rest : ∀ p ∈ next, p ∈ prev ∨ p ∈ added
  sublist : added.Sublist next

theorem grows_of_filter (hn : (prev.map (·.publicKeyB64)).Nodup)
    (hg : ¬ prev.any fun p => next.all (·.publicKeyB64 ≠ p.publicKeyB64))
    (hd : ¬ next.any fun p =>
      (prev.reverse.find? (·.publicKeyB64 = p.publicKeyB64)).any (· ≠ p)) :
    Grows prev next
      (next.filter fun p => (prev.reverse.find? (·.publicKeyB64 = p.publicKeyB64)).isNone) := by
  have same : ∀ p ∈ next, ∀ q ∈ prev, q.publicKeyB64 = p.publicKeyB64 → q = p := by
    intro p hp q hq ht
    have hs : (prev.reverse.find? (·.publicKeyB64 = p.publicKeyB64)).isSome :=
      List.find?_isSome.mpr ⟨q, List.mem_reverse.mpr hq, by simpa using ht⟩
    have ⟨q', hf⟩ := Option.isSome_iff_exists.mp hs
    have hq' : q' ∈ prev := List.mem_reverse.mp (List.mem_of_find?_eq_some hf)
    have ht' : q'.publicKeyB64 = p.publicKeyB64 := by simpa using List.find?_some hf
    have he : q' = p := by
      simp only [List.any_eq_true, not_exists, not_and] at hd
      simpa [hf] using hd p hp
    exact (eq_of_text hn hq hq' (ht.trans ht'.symm)).trans he
  refine ⟨fun q hq => ?_, fun p hp => ?_, fun p hp => ?_, List.filter_sublist⟩
  case refine_1 =>
    simp only [List.any_eq_true, List.all_eq_true, not_exists, not_and, not_forall] at hg
    have ⟨p, hp, ht⟩ := hg q hq
    have ht : p.publicKeyB64 = q.publicKeyB64 := by simpa using ht
    exact same p hp q hq ht.symm ▸ hp
  case refine_2 =>
    have ⟨hm, hf⟩ := List.mem_filter.mp hp
    refine ⟨hm, fun ht => ?_⟩
    have ⟨q, hq, ht⟩ := List.mem_map.mp ht
    have hf := List.find?_eq_none.mp (Option.isNone_iff_eq_none.mp hf) q (List.mem_reverse.mpr hq)
    exact hf (by simpa using ht)
  case refine_3 =>
    cases hf : prev.reverse.find? (·.publicKeyB64 = p.publicKeyB64)
    case none => exact .inr (List.mem_filter.mpr ⟨hp, by simp [hf]⟩)
    case some q =>
      have hq : q ∈ prev := List.mem_reverse.mp (List.mem_of_find?_eq_some hf)
      have ht : q.publicKeyB64 = p.publicKeyB64 := by simpa using List.find?_some hf
      exact .inl (same p hp q hq ht ▸ hq)

theorem grows_of_additions (hn : (prev.map (·.publicKeyB64)).Nodup)
    (hc : classifyPeerDelta prev next = .pureAdditions added) : Grows prev next added := by
  simp only [classifyPeerDelta] at hc
  (repeat' split at hc)
  all_goals cases hc
  case _ hg hd _ _ => exact grows_of_filter hn hg hd

theorem grows_of_unchanged (hn : (prev.map (·.publicKeyB64)).Nodup)
    (hc : classifyPeerDelta prev next = .unchanged) : Grows prev next [] := by
  simp only [classifyPeerDelta] at hc
  (repeat' split at hc)
  all_goals cases hc
  case _ hg hd _ he => exact he ▸ grows_of_filter hn hg hd

end Classify

namespace Covers

variable {a : ActiveTunInfo} {d d' : Device} {dev : DeviceConfig} {body : Body}

-- A device that is filled anew.
theorem whole (hb : encodeSet dev = .ok body) (hs : d.set body = some d')
    (hk : dev.privateKeyB64 = a.privKey) (hp : dev.listenPort = a.wgPort) :
    Covers { a with appliedConfig := some body, appliedPeers := dev.peers } d' ∧
      d'.Holds dev.peers := by
  have ⟨_, he⟩ := set_encodeSet (d := d) hb
  have ⟨hd, hn, _⟩ := Device.addAll_eq_some.mp (he ▸ hs)
  have ⟨_, _, _, hw, _⟩ := encodeSet_ok.mp hb
  have hd : d'.peers = peersOf dev.peers := by simp [hd]
  have hn : Distinct dev.peers := hn
  refine ⟨⟨hd ▸ List.Subset.refl _, by rw [Device.keys, hd]; exact hn, hn.texts hw, ?_⟩, fun b => by rw [hd]⟩
  intro _ he
  cases he
  rw [← hk, ← hp]
  exact hb

-- Where all that is recorded is asked for, it is on the device.
theorem holds_recorded (hc : Covers a d) (hn : Distinct dev.peers) (hu : Untorn a d dev.peers)
    (hs : peersOf a.appliedPeers ⊆ peersOf dev.peers) : d.Holds a.appliedPeers := by
  refine fun b => ⟨fun hb => hc.peers hb, fun hb => ?_⟩
  have hk : b.key ∈ d.keys := by
    by_contra hk
    exact hu b hb hk (hs hb)
  have ⟨b', hb', he⟩ := List.mem_map.mp hk
  exact eq_of_key hn (hs (hc.peers hb')) (hs hb) he ▸ hb'

theorem unchanged_holds (hc : Covers a d) (hn : Distinct dev.peers) (hu : Untorn a d dev.peers)
    (hd : classifyPeerDelta a.appliedPeers dev.peers = .unchanged) : d.Holds dev.peers := by
  have hg := grows_of_unchanged hc.texts hd
  have hr := hc.holds_recorded hn hu (peersOf_subset hg.kept)
  intro b
  refine (hr b).trans ⟨fun hb => peersOf_subset hg.kept hb, fun hb => peersOf_subset ?_ hb⟩
  exact fun p hp => (hg.rest p hp).resolve_right nofun

-- A configuration that is recorded to the letter is on the device.
theorem recorded_holds (hc : Covers a d) (hn : Distinct dev.peers) (hu : Untorn a d dev.peers)
    (hb : encodeSet dev = .ok body) (ha : a.appliedConfig = some body) : d.Holds dev.peers := by
  have ⟨_, hd⟩ := set_encodeSet (d := d) hb
  have ⟨_, hr⟩ := set_encodeSet (d := d) (hc.config body ha)
  have hs := (hr.symm.trans hd).trans (Device.addAll_eq_some.mpr ⟨rfl, hn, by simp⟩)
  have ⟨he, _⟩ := Device.addAll_eq_some.mp hs
  have he : peersOf dev.peers = peersOf a.appliedPeers := by simpa using congrArg Device.peers he
  have hr := hc.holds_recorded hn hu (he ▸ List.Subset.refl _)
  exact fun b => (hr b).trans (by rw [he])

theorem additions (hc : Covers a d) (hn : Distinct dev.peers) (he : encodeSet dev = .ok encoded)
    (hk : dev.privateKeyB64 = a.privKey) (hp : dev.listenPort = a.wgPort)
    (hd : classifyPeerDelta a.appliedPeers dev.peers = .pureAdditions added)
    (hb : encodeAddPeers added = .ok body) (hs : d.set body = some d') :
    Covers { a with appliedConfig := some encoded, appliedPeers := dev.peers } d' ∧
      (Untorn a d dev.peers → d'.Holds dev.peers) := by
  have hg := grows_of_additions hc.texts hd
  have ⟨_, _, _, hw, _⟩ := encodeSet_ok.mp he
  rw [set_encodeAddPeers hb] at hs
  have ⟨hd, hna, hnew⟩ := Device.addAll_eq_some.mp hs
  have hd : d'.peers = d.peers ++ peersOf added := by simp [hd]
  have hsub : peersOf added ⊆ peersOf dev.peers := peersOf_subset fun p hp => (hg.new p hp).1
  refine ⟨⟨?_, ?_, hn.texts hw, ?_⟩, fun hu b => ?_⟩
  case refine_1 =>
    rw [hd]
    exact List.append_subset.mpr ⟨fun b hb => peersOf_subset hg.kept (hc.peers hb), hsub⟩
  case refine_2 =>
    rw [Device.keys, hd, List.map_append]
    refine List.nodup_append.mpr ⟨hc.keys, hna, fun k hk k' hk' hkk => ?_⟩
    have ⟨b, hb, he⟩ := List.mem_map.mp hk'
    exact hnew b hb (he ▸ hkk ▸ hk)
  case refine_3 =>
    intro _ he
    cases he
    rw [← hk, ← hp]
    exact he
  case refine_4 =>
    rw [hd, List.mem_append, hc.holds_recorded hn hu (peersOf_subset hg.kept) b]
    constructor
    case mp => exact fun hb => hb.elim (fun hb => peersOf_subset hg.kept hb) (fun hb => hsub hb)
    case mpr =>
      intro hb
      have ⟨p, hp, he⟩ := mem_peersOf.mp hb
      exact (hg.rest p hp).imp (fun hm => mem_peersOf.mpr ⟨p, hm, he⟩)
        (fun hm => mem_peersOf.mpr ⟨p, hm, he⟩)

theorem remove (hc : Covers a d) (hb : encodeRemovePeer text = .ok body) (hs : d.set body = some d') :
    Covers a d' ∧ ∀ key, keyOfB64 text = .ok key → key ∉ d'.keys := by
  have ⟨key, hk, he⟩ := encodeRemovePeer_ok hb
  subst he
  have hd : d' = { d with peers := d.peers.filter (·.key ≠ key) } := by
    simpa [Device.set, Device.apiSet, Device.finish, Device.updatePeer, Device.Update.line, eq_comm]
      using hs
  subst hd
  refine ⟨⟨fun b hb => hc.peers (List.mem_of_mem_filter hb), ?_, hc.texts, hc.config⟩, ?_⟩
  case refine_1 => exact hc.keys.sublist (List.filter_sublist.map _)
  case refine_2 =>
    intro key' hk'
    cases hk.symm.trans hk'
    simp

end Covers

section Record

variable {peer : PeerConfig} {peers : List PeerConfig}

theorem recordPeer_texts (hn : (peers.map (·.publicKeyB64)).Nodup) :
    ((Gw.recordPeer peer peers).map (·.publicKeyB64)).Nodup := by
  rw [Gw.recordPeer]
  split
  case h_1 i hi =>
    have ⟨hl, ht, _⟩ := List.findIdx?_eq_some_iff_getElem.mp hi
    have ht : peers[i].publicKeyB64 = peer.publicKeyB64 := by simpa using ht
    rw [List.map_set, ← ht]
    have he : (peers.map (·.publicKeyB64)).set i peers[i].publicKeyB64 =
        peers.map (·.publicKeyB64) := by
      rw [← List.map_set, List.set_getElem_self]
    exact he.symm ▸ hn
  case h_2 hi =>
    rw [List.map_append]
    refine List.nodup_append.mpr ⟨hn, by simp, fun t ht t' ht' he => ?_⟩
    have ⟨q, hq, hqt⟩ := List.mem_map.mp ht
    have := List.findIdx?_eq_none_iff.mp hi q hq
    simp_all

theorem mem_recordPeer_self : peer ∈ Gw.recordPeer peer peers := by
  rw [Gw.recordPeer]
  split
  case h_1 i hi =>
    have ⟨hl, _⟩ := List.findIdx?_eq_some_iff_getElem.mp hi
    exact List.mem_set hl peer
  case h_2 => simp

theorem mem_recordPeer_of_ne (hq : q ∈ peers) (ht : q.publicKeyB64 ≠ peer.publicKeyB64) :
    q ∈ Gw.recordPeer peer peers := by
  rw [Gw.recordPeer]
  split
  case h_1 i hi =>
    have ⟨hl, hi, _⟩ := List.findIdx?_eq_some_iff_getElem.mp hi
    have ⟨j, hj, he⟩ := List.getElem_of_mem hq
    have hij : i ≠ j := by
      rintro rfl
      exact ht (by simpa [he] using hi)
    exact List.mem_iff_getElem.mpr ⟨j, by simpa using hj, by rw [List.getElem_set_ne hij, he]⟩
  case h_2 => exact List.mem_append_left _ hq

theorem mem_of_mem_recordPeer (hq : q ∈ Gw.recordPeer peer peers) : q ∈ peers ∨ q = peer := by
  rw [Gw.recordPeer] at hq
  split at hq
  case h_1 => exact List.mem_or_eq_of_mem_set hq
  case h_2 => simpa using hq

end Record

-- The peer has been put back on the device and is yet to be recorded.
structure Returned (a : ActiveTunInfo) (peer : PeerConfig) (d : Device) : Prop where
  peers : d.peers ⊆ peersOf (Gw.recordPeer peer a.appliedPeers)
  keys : d.keys.Nodup
  texts : (a.appliedPeers.map (·.publicKeyB64)).Nodup
  config : ∀ body ∈ a.appliedConfig, encodeSet ⟨a.privKey, a.wgPort, a.appliedPeers⟩ = .ok body
  encodes : ∃ block, Blocks [peer] block

section Returned

variable {a : ActiveTunInfo} {d d' : Device} {peer : PeerConfig} {body : Body}

theorem Covers.readd (hc : Covers a d) (hb : encodeAddPeers [peer] = .ok body)
    (hs : d.set body = some d') : Returned a peer d' := by
  have ⟨_, hw, _⟩ := encodeAddPeers_ok.mp hb
  have ⟨b, hp⟩ := hw.peer peer List.mem_cons_self
  rw [set_encodeAddPeers hb, peersOf_cons hp] at hs
  have ⟨hd, _, hnew⟩ := Device.addAll_eq_some.mp hs
  have hnew : b.key ∉ d.keys := hnew b List.mem_cons_self
  have hd : d'.peers = d.peers ++ [b] := by simp [hd]
  refine ⟨?_, ?_, hc.texts, hc.config, _, hw⟩
  case refine_1 =>
    rw [hd]
    refine List.append_subset.mpr ⟨fun c hm => ?_, fun c hm => ?_⟩
    case refine_1 =>
      have ⟨q, hq, he⟩ := mem_peersOf.mp (hc.peers hm)
      refine mem_peersOf.mpr ⟨q, mem_recordPeer_of_ne hq fun ht => hnew ?_, he⟩
      have hk : b.key = c.key := Except.ok.inj <| by
        rw [← key_of_peer hp, ← key_of_peer he, ht]
      exact hk ▸ List.mem_map_of_mem hm
    case refine_2 =>
      cases List.mem_singleton.mp hm
      exact mem_peersOf.mpr ⟨peer, mem_recordPeer_self, hp⟩
  case refine_2 =>
    rw [Device.keys, hd, List.map_append]
    refine List.nodup_append.mpr ⟨hc.keys, by simp, fun k hk k' hk' he => hnew ?_⟩
    have hb : k = b.key := he.trans (List.mem_singleton.mp hk')
    exact hb ▸ hk

theorem Returned.recorded (hr : Returned a peer d)
    (he : encodeSet ⟨a.privKey, a.wgPort, Gw.recordPeer peer a.appliedPeers⟩ = .ok encoded) :
    Covers { a with
      appliedConfig := some encoded
      appliedPeers  := Gw.recordPeer peer a.appliedPeers } d := by
  refine ⟨hr.peers, hr.keys, recordPeer_texts hr.texts, fun _ hc => ?_⟩
  cases hc
  exact he

-- What was recorded can be written with the peer in it, so nothing was.
theorem Returned.unrecorded (hr : Returned a peer d)
    (he : encodeSet ⟨a.privKey, a.wgPort, Gw.recordPeer peer a.appliedPeers⟩ = .error err) :
    Covers { a with appliedPeers := Gw.recordPeer peer a.appliedPeers } d := by
  refine ⟨hr.peers, hr.keys, recordPeer_texts hr.texts, fun body hc => ?_⟩
  have ⟨key, _, hk, hw, _⟩ := encodeSet_ok.mp (hr.config body hc)
  have ⟨_, hp⟩ := hr.encodes
  have writes : ∀ q ∈ Gw.recordPeer peer a.appliedPeers, ∃ b, peerBlock q = .ok b ∧ True := by
    intro q hq
    cases mem_of_mem_recordPeer hq
    case inl hq =>
      have ⟨b, _, hb⟩ := Checked.mapM_mem_left (Checked.mapM_ok.mpr hw) hq
      exact ⟨b, hb, trivial⟩
    case inr he =>
      have ⟨b, _, hb⟩ := Checked.mapM_mem_left (Checked.mapM_ok.mpr hp) List.mem_cons_self
      exact ⟨b, he ▸ hb, trivial⟩
  have ⟨blocks, hm, _⟩ := Checked.mapM_exists writes
  have ho := (encodeSet_ok (c := ⟨a.privKey, a.wgPort, Gw.recordPeer peer a.appliedPeers⟩)).mpr
    ⟨key, blocks, hk, Checked.mapM_ok.mp hm, rfl⟩
  cases he.symm.trans ho

end Returned
end Gateway
