import WireMesh.Gateway.KeyStore
import WireMesh.Gateway.Persist

-- A state that has been ingested or loaded comes back from its file as it is.
namespace Gateway.Persist

open Json

section Filters

variable {cs : List String}

theorem kept_foldl_candidates (f : CandidateFilter) (h : f.kept.length ≤ MAX_PEER_CANDIDATES) :
    (cs.foldl CandidateFilter.take f).kept =
      f.kept ++ (cs.filter Uapi.isDialableEndpoint).take (MAX_PEER_CANDIDATES - f.kept.length) := by
  induction cs generalizing f
  case nil => simp
  case cons c cs ih =>
    rw [List.foldl_cons]
    by_cases hc : Uapi.isDialableEndpoint c
    case neg =>
      rw [CandidateFilter.take, if_pos (by simpa using hc), ih { f with dropped := f.dropped + 1 } h,
        List.filter_cons_of_neg hc]
    case pos =>
      rw [CandidateFilter.take, if_neg (by simpa using hc), List.filter_cons_of_pos hc]
      split
      case isTrue hl =>
        rw [ih { f with overCap := f.overCap + 1 } h]
        simp [hl]
      case isFalse hl =>
        have hlt : f.kept.length < MAX_PEER_CANDIDATES := by omega
        rw [ih { f with kept := _ } (by simpa using Nat.succ_le_of_lt hlt)]
        simp only [List.length_append, List.length_singleton, List.append_assoc,
          List.singleton_append]
        rw [← Nat.succ_pred_eq_of_pos (Nat.sub_pos_of_lt hlt), List.take_succ_cons,
          Nat.pred_eq_sub_one, Nat.sub_sub]

-- The cap is put on what is left after the others are dropped.
theorem kept_partitionDialable : (partitionDialable cs).kept = retainDialable cs := by
  rw [partitionDialable, kept_foldl_candidates {} (Nat.zero_le _)]
  rfl

theorem kept_foldl_cidrs (f : CidrFilter) : (cs.foldl CidrFilter.take f).kept =
    f.kept ++ cs.filter Uapi.isValidIpv4Cidr := by
  induction cs generalizing f
  case nil => simp
  case cons c cs ih =>
    rw [List.foldl_cons, ih, CidrFilter.take]
    by_cases hc : Uapi.isValidIpv4Cidr c <;> simp [hc]

theorem kept_partitionValidCidrs : (partitionValidCidrs cs).kept = retainValidCidrs cs := by
  rw [partitionValidCidrs, kept_foldl_cidrs]
  rfl

end Filters

section Peers

variable {p : PeerState}

-- What passes the filters: dialable candidates, not too many of them, valid ranges, and a key that can be
-- written to a device if there is one.
structure PeerState.Filtered (p : PeerState) : Prop where
  candidates : (∀ c ∈ p.candidates, Uapi.isDialableEndpoint c) ∧
    p.candidates.length ≤ MAX_PEER_CANDIDATES
  allowedIps : ∀ c ∈ p.allowedIps, Uapi.isValidIpv4Cidr c
  activePubkeyB64 : ∀ k ∈ p.activePubkeyB64, Uapi.pubkeyDecodes k

theorem retainDialable_of_filtered
    (h : (∀ c ∈ cs, Uapi.isDialableEndpoint c) ∧ cs.length ≤ MAX_PEER_CANDIDATES) :
    retainDialable cs = cs := by
  rw [retainDialable, List.filter_eq_self.mpr h.1, List.take_of_length_le h.2]

theorem filtered_retainDialable (cs : List String) :
    (∀ c ∈ retainDialable cs, Uapi.isDialableEndpoint c) ∧
      (retainDialable cs).length ≤ MAX_PEER_CANDIDATES :=
  ⟨fun _ hc => (List.mem_filter.mp (List.mem_of_mem_take hc)).2, List.length_take_le ..⟩

theorem filter_of_forall {o : Option String} (h : ∀ k ∈ o, Uapi.pubkeyDecodes k) :
    o.filter Uapi.pubkeyDecodes = o := by
  cases o
  case none   => rfl
  case some k => simp [Option.filter, h k rfl]

theorem filtered_fromProto (q : Peer) : (PeerState.fromProto q).Filtered := by
  refine ⟨?_, ?_, fun k hk => (Option.filter_eq_some_iff.mp hk).2⟩
  case refine_1 =>
    rw [PeerState.fromProto, kept_partitionDialable]
    exact filtered_retainDialable _
  case refine_2 =>
    rw [PeerState.fromProto, kept_partitionValidCidrs]
    exact fun c hc => (List.mem_filter.mp hc).2

end Peers

section Read

variable {p : PeerState}

theorem fromJson_peerKeyInfo (k : PeerKeyInfo) : PeerKeyInfo.fromJson k.toJson = .ok k := by
  have hf : readFields ["epoch", "pubkey_b64", "state"] k.toJson = .ok
    [some (writeUInt k.epoch), some (.str k.pubkeyB64), some (.str k.state)] :=
    readFields_obj (by simp)
  rw [PeerKeyInfo.fromJson, hf]
  simp [required, Checked.ok_bind, pure, Except.pure]

theorem fromJson_relayInfo (r : RelayInfo) : RelayInfo.fromJson r.toJson = .ok r := by
  have hf : readFields ["relay_id", "endpoint"] r.toJson = .ok
    [some (writeUInt r.relayId), some (.str r.endpoint)] :=
    readFields_obj (by simp)
  rw [RelayInfo.fromJson, hf]
  simp [required, Checked.ok_bind, pure, Except.pure]

-- What the second door lets through.
def PeerState.refiltered (p : PeerState) : PeerState :=
  { p with
    activePubkeyB64 := p.activePubkeyB64.filter Uapi.pubkeyDecodes
    candidates := retainDialable p.candidates
    allowedIps := retainValidCidrs p.allowedIps }

theorem refiltered_of_filtered (h : p.Filtered) : p.refiltered = p := by
  rw [PeerState.refiltered, filter_of_forall h.activePubkeyB64,
    retainDialable_of_filtered h.candidates, retainValidCidrs, List.filter_eq_self.mpr h.allowedIps]

theorem fromJson_peerState (p : PeerState) : PeerState.fromJson p.toJson = .ok p.refiltered := by
  have hf : readFields
      ["gateway_id", "segment_name", "active_pubkey_b64", "keys", "candidates", "allowed_ips"]
      p.toJson = .ok [
    some (writeUInt p.gatewayId), some (.str p.segmentName),
    some (writeOption .str p.activePubkeyB64), some (writeVec PeerKeyInfo.toJson p.keys),
    some (writeVec .str p.candidates), some (writeVec .str p.allowedIps)] :=
    readFields_obj (by simp)
  rw [PeerState.fromJson, hf]
  simp [required, orDefault, deserializeValidActivePubkey, deserializeDialableCandidates,
    deserializeValidCidrs, Checked.ok_bind, readVec_writeVec fromJson_peerKeyInfo,
    readVec_writeVec readString_str, kept_partitionDialable, kept_partitionValidCidrs, pure,
    Except.pure, PeerState.refiltered]

theorem fromJson_desiredState (s : DesiredState) : DesiredState.fromJson s.toJson =
    .ok { s with peers := s.peers.map PeerState.refiltered } := by
  have hf : readFields
      ["revision", "peers", "policy_ir", "policy_version", "relays", "revoked_serials"]
      s.toJson = .ok [
    some (writeUInt s.revision), some (writeVec PeerState.toJson s.peers),
    some (writeVec writeUInt s.policyIr), some (writeUInt s.policyVersion),
    some (writeVec RelayInfo.toJson s.relays), some (writeVec .str s.revokedSerials)] :=
    readFields_obj (by simp)
  rw [DesiredState.fromJson, hf]
  simp [required, orDefault, Checked.ok_bind, readVec_writeVec_map fromJson_peerState,
    readVec_writeVec fromJson_relayInfo, readVec_writeVec readUInt_writeUInt,
    readVec_writeVec readString_str, pure, Except.pure]

theorem filtered_deserializeDialableCandidates
    (h : orDefault [] deserializeDialableCandidates o = .ok cs) :
    (∀ c ∈ cs, Uapi.isDialableEndpoint c) ∧ cs.length ≤ MAX_PEER_CANDIDATES := by
  cases o
  case none => cases h; simp
  case some j =>
    have ⟨raw, _, hr⟩ := Checked.bind_ok.mp h
    rw [kept_partitionDialable, Checked.pure_ok] at hr
    exact hr ▸ filtered_retainDialable raw

theorem filtered_deserializeValidCidrs
    (h : required "allowed_ips" deserializeValidCidrs o = .ok cs) :
    ∀ c ∈ cs, Uapi.isValidIpv4Cidr c := by
  have ⟨_, h⟩ := required_ok h
  have ⟨raw, _, hr⟩ := Checked.bind_ok.mp h
  rw [kept_partitionValidCidrs, Checked.pure_ok] at hr
  exact hr ▸ fun c hc => (List.mem_filter.mp hc).2

theorem filtered_deserializeValidActivePubkey
    (h : orDefault none deserializeValidActivePubkey o = .ok active) :
    ∀ k ∈ active, Uapi.pubkeyDecodes k := by
  cases o
  case none => cases h; simp
  case some j =>
    have ⟨raw, _, hr⟩ := Checked.bind_ok.mp h
    exact Checked.pure_ok.mp hr ▸ fun k hk => (Option.filter_eq_some_iff.mp hk).2

-- A peer that is read from any text at all has passed the filters.
theorem filtered_of_fromJson (h : PeerState.fromJson j = .ok p) : p.Filtered := by
  have ⟨fs, _, h⟩ := Checked.bind_ok.mp h
  split at h
  case h_2 => cases h
  case h_1 =>
    simp only [Checked.bind_ok, Checked.pure_ok] at h
    have ⟨_, _, _, _, _, hk, _, _, _, hc, _, ha, he⟩ := h
    exact he ▸ {
      candidates      := filtered_deserializeDialableCandidates hc
      allowedIps      := filtered_deserializeValidCidrs ha
      activePubkeyB64 := filtered_deserializeValidActivePubkey hk
    }

end Read

-- Every peer of the state has passed the filters.
def DesiredState.Filtered (s : DesiredState) : Prop :=
  ∀ p ∈ s.peers, p.Filtered

section State

variable {s : DesiredState}

theorem filtered_fromSnapshot (snapshot : StateSnapshot) :
    (DesiredState.fromSnapshot snapshot).Filtered := by
  intro p hp
  have ⟨q, _, hq⟩ := List.mem_map.mp hp
  exact hq ▸ filtered_fromProto q

theorem filtered_foldl_upsert {peers : List PeerState} (h : ∀ p ∈ peers, p.Filtered)
    (upserted : List Peer) : ∀ p ∈ upserted.foldl (fun peers p =>
      Keyed.upsert PeerState.gatewayId (.fromProto p) peers) peers, p.Filtered := by
  induction upserted generalizing peers
  case nil => exact h
  case cons q upserted ih =>
    refine ih fun p hp => ?_
    cases Keyed.mem_upsert hp
    case inl he => exact he ▸ filtered_fromProto q
    case inr hp => exact h p hp

theorem DesiredState.Filtered.applyDelta (h : s.Filtered) (d : Delta) :
    (s.applyDelta d).Filtered :=
  fun p hp => filtered_foldl_upsert h d.upsertedPeers p (List.mem_filter.mp hp).1

theorem DesiredState.Filtered.foldl (h : s.Filtered) (deltas : List Delta) :
    (deltas.foldl DesiredState.applyDelta s).Filtered := by
  induction deltas generalizing s
  case nil            => exact h
  case cons d deltas ih => exact ih (h.applyDelta d)

theorem filtered_of_fromJson_state (h : DesiredState.fromJson j = .ok s) : s.Filtered := by
  have ⟨fs, _, h⟩ := Checked.bind_ok.mp h
  split at h
  case h_2 => cases h
  case h_1 =>
    simp only [Checked.bind_ok, Checked.pure_ok] at h
    have ⟨_, _, peers, hp, _, _, _, _, _, _, _, _, he⟩ := h
    have ⟨_, hr⟩ := required_ok hp
    subst he
    intro p hm
    have ⟨_, hj⟩ := exists_of_mem_readVec hr hm
    exact filtered_of_fromJson hj

variable {Text : Type} [Codec Text]

theorem load_save (s : DesiredState) : DesiredState.load (some (s.save : Text)) =
    .ok (some { s with peers := s.peers.map PeerState.refiltered }) := by
  rw [DesiredState.load, DesiredState.save, Codec.parse_write, Checked.ok_bind,
    fromJson_desiredState]
  rfl

theorem DesiredState.Filtered.load_save (h : s.Filtered) :
    DesiredState.load (some (s.save : Text)) = .ok (some s) := by
  rw [Persist.load_save, List.map_congr_left fun p hp => refiltered_of_filtered (h p hp),
    List.map_id']

theorem filtered_of_load {text : Text} (h : DesiredState.load (some text) = .ok (some s)) :
    s.Filtered := by
  have ⟨_, _, h⟩ := Checked.bind_ok.mp h
  have ⟨_, hs, he⟩ := Checked.bind_ok.mp h
  cases Checked.pure_ok.mp he
  exact filtered_of_fromJson_state hs

end State

-- The states of the gateway in the words of the wire and of the file.
section Words

def wirePeer (p : Controller.Peer) : Peer where
  gatewayId          := .ofNat 64 p.gatewayId
  segmentName        := p.segmentName
  keys               := p.keys.map fun k => ⟨.ofNat 32 k.epoch, k.pubkey, keyStateText k.state⟩
  candidateEndpoints := p.candidateEndpoints
  allowedIps         := p.allowedIps

def wireRelay (r : Controller.RelayInfo) : RelayInfo :=
  ⟨.ofNat 64 r.relayId, r.endpoint⟩

def wireSnapshot (s : Controller.StateSnapshot) : StateSnapshot where
  revision       := .ofNat 64 s.revision
  peers          := s.peers.map wirePeer
  relayInfos     := s.relayInfos.map wireRelay
  policyIr       := s.policyIr
  policyVersion  := .ofNat 64 s.policyVersion
  revokedSerials := s.revokedSerials

def wireDelta (d : Controller.Delta) : Delta where
  revision       := .ofNat 64 d.revision
  upsertedPeers  := d.upsertedPeers.map wirePeer
  removedPeerIds := d.removedPeerIds.map (.ofNat 64)
  relayInfos     := d.relayInfos.map wireRelay
  relaysUpdated  := d.relaysUpdated
  policyIr       := d.policyIr
  policyVersion  := .ofNat 64 d.policyVersion
  revokedSerials := d.revokedSerials

def storedPeer (p : Gateway.PeerState) : PeerState where
  gatewayId       := .ofNat 64 p.gatewayId
  segmentName     := p.segmentName
  activePubkeyB64 := p.activePubkeyB64
  keys            := p.keys.map fun k => ⟨.ofNat 32 k.epoch, k.pubkeyB64, keyStateText k.state⟩
  candidates      := p.candidates
  allowedIps      := p.allowedIps

def storedState (s : Gateway.DesiredState) : DesiredState where
  revision       := .ofNat 64 s.revision
  peers          := s.peers.map storedPeer
  policyIr       := s.policyIr
  policyVersion  := .ofNat 64 s.policyVersion
  relays         := s.relays.map wireRelay
  revokedSerials := s.revokedSerials

theorem keyStateText_eq_active : keyStateText state = "active" ↔ state = .active := by
  cases state <;> decide

theorem fromProto_wirePeer (p : Controller.Peer) :
    PeerState.fromProto (wirePeer p) = storedPeer (.fromProto p) := by
  simp [PeerState.fromProto, wirePeer, storedPeer, Gateway.PeerState.fromProto,
    kept_partitionDialable, kept_partitionValidCidrs, List.find?_map, Function.comp_def,
    keyStateText_eq_active]

theorem fromSnapshot_wireSnapshot (s : Controller.StateSnapshot) :
    DesiredState.fromSnapshot (wireSnapshot s) = storedState (.fromSnapshot s) := by
  simp [DesiredState.fromSnapshot, wireSnapshot, storedState, Gateway.DesiredState.fromSnapshot,
    fromProto_wirePeer]

theorem load_save_storedState {Text : Type} [Codec Text] (s : Gateway.DesiredState) :
    DesiredState.load (some ((storedState s).save : Text)) = .ok (some (storedState s.load)) := by
  rw [load_save]
  simp [storedState, Gateway.DesiredState.load, PeerState.refiltered, storedPeer,
    Gateway.PeerState.deserialize]

-- Identities and versions are told apart by their words.
structure Fits (s : Gateway.DesiredState) (d : Controller.Delta) : Prop where
  peers         : ∀ p ∈ s.peers, p.gatewayId < 2 ^ 64
  upsertedPeers : ∀ p ∈ d.upsertedPeers, p.gatewayId < 2 ^ 64
  removedPeers  : ∀ id ∈ d.removedPeerIds, id < 2 ^ 64
  policyVersion : d.policyVersion < 2 ^ 64

theorem word_eq_iff (hm : m < 2 ^ 64) (hn : n < 2 ^ 64) :
    BitVec.ofNat 64 m = BitVec.ofNat 64 n ↔ m = n := by
  rw [← BitVec.toNat_inj, BitVec.toNat_ofNat, BitVec.toNat_ofNat, Nat.mod_eq_of_lt hm,
    Nat.mod_eq_of_lt hn]

theorem foldl_upsert_wirePeer {peers : List Gateway.PeerState} {upserted : List Controller.Peer}
    (h : ∀ p ∈ peers, p.gatewayId < 2 ^ 64) (hu : ∀ p ∈ upserted, p.gatewayId < 2 ^ 64) :
    (upserted.map wirePeer).foldl (fun peers p =>
        Keyed.upsert PeerState.gatewayId (.fromProto p) peers) (peers.map storedPeer) =
      (upserted.foldl (fun peers p =>
        Keyed.upsert Gateway.PeerState.gatewayId (.fromProto p) peers) peers).map storedPeer ∧
    ∀ p ∈ upserted.foldl (fun peers p =>
        Keyed.upsert Gateway.PeerState.gatewayId (.fromProto p) peers) peers,
      p.gatewayId < 2 ^ 64 := by
  induction upserted generalizing peers
  case nil => exact ⟨rfl, h⟩
  case cons q upserted ih =>
    have ⟨hq, hr⟩ := List.forall_mem_cons.mp hu
    have hm : (Keyed.upsert Gateway.PeerState.gatewayId (.fromProto q) peers).map storedPeer =
        Keyed.upsert PeerState.gatewayId (storedPeer (.fromProto q)) (peers.map storedPeer) :=
      Keyed.map_upsert fun p hp => word_eq_iff (h p hp) hq
    rw [List.map_cons, List.foldl_cons, List.foldl_cons, fromProto_wirePeer, ← hm]
    refine ih (fun p hp => ?_) hr
    cases Keyed.mem_upsert hp
    case inl he => exact he ▸ hq
    case inr hp => exact h p hp

theorem applyDelta_wireDelta (h : Fits s d) :
    (storedState s).applyDelta (wireDelta d) = storedState (s.applyDelta d) := by
  have ⟨hu, hb⟩ := foldl_upsert_wirePeer h.peers h.upsertedPeers
  have hv : BitVec.ofNat 64 d.policyVersion = 0 ↔ d.policyVersion = 0 :=
    word_eq_iff h.policyVersion (by decide)
  have hr : ∀ id < 2 ^ 64, BitVec.ofNat 64 id ∈ d.removedPeerIds.map (.ofNat 64) ↔
      id ∈ d.removedPeerIds := by
    intro id hid
    rw [List.mem_map]
    refine ⟨fun ⟨id', hm, he⟩ => ?_, fun hm => ⟨id, hm, rfl⟩⟩
    exact (word_eq_iff (h.removedPeers id' hm) hid).mp he ▸ hm
  have hp : ((storedState s).applyDelta (wireDelta d)).peers =
      (s.applyDelta d).peers.map storedPeer := by
    refine (congrArg _ hu).trans ?_
    rw [List.filter_map]
    refine congrArg _ (List.filter_congr fun p hp => ?_)
    exact decide_eq_decide.mpr (not_congr (hr p.gatewayId (hb p hp)))
  refine DesiredState.ext rfl hp ?policyIr ?policyVersion ?relays rfl
  case policyIr      => exact if_congr (not_congr hv) rfl rfl
  case policyVersion =>
    exact (if_congr (not_congr hv) rfl rfl).trans (apply_ite (BitVec.ofNat 64) ..).symm
  case relays        => exact (apply_ite (List.map wireRelay) ..).symm

end Words

-- A state that came over the wire is found again after it is saved, whatever texts it came with. One
-- that is found in any file is as if it had come over the wire, so it is found again too.
theorem saved_state_is_loaded {Text : Type} [Codec Text] :
    (∀ snapshot (deltas : List Delta),
      let s := deltas.foldl DesiredState.applyDelta (DesiredState.fromSnapshot snapshot)
      (∀ p ∈ s.peers, p.Filtered) ∧ DesiredState.load (some (s.save : Text)) = .ok (some s)) ∧
    ∀ (text : Text) s, DesiredState.load (some text) = .ok (some s) →
      (∀ p ∈ s.peers, p.Filtered) ∧ DesiredState.load (some (s.save : Text)) = .ok (some s) := by
  refine ⟨fun snapshot deltas => ?_, fun text s h => ?_⟩
  case refine_1 =>
    have h := (filtered_fromSnapshot snapshot).foldl deltas
    exact ⟨h, h.load_save⟩
  case refine_2 =>
    have h := filtered_of_load h
    exact ⟨h, h.load_save⟩

-- Values for their own texts.
scoped instance plainCodec : Codec Json where
  write j     := j
  parse j     := .ok j
  parse_write _ := rfl

-- A file in which somebody has put a name where an address belongs.
def editedFile : Json :=
  .obj [
    ("revision", .nat 3),
    ("peers", .arr [.obj [
      ("gateway_id", .nat 7), ("segment_name", .str "a"), ("note", .null),
      ("candidates", .arr [.str "gw.example:51820", .str "10.0.0.7:51820"]),
      ("allowed_ips", .arr [.str "10.7.0.0/16", .str "10.8.0.0/99"])]]),
    ("policy_ir", .arr []), ("policy_version", .nat 0), ("revoked_serials", .arr [])]

def editedState : DesiredState where
  revision       := 3
  peers          := [⟨7, "a", none, [], ["10.0.0.7:51820"], ["10.7.0.0/16"]⟩]
  policyIr       := []
  policyVersion  := 0
  relays         := []
  revokedSerials := []

theorem saved_state_is_loaded_edited :
    DesiredState.load (some editedFile) = .ok (some editedState) ∧
      DesiredState.load (some (editedState.save : Json)) = .ok (some editedState) := by
  have h : DesiredState.load (some editedFile) = .ok (some editedState) := by decide +kernel
  exact ⟨h, (saved_state_is_loaded.2 editedFile editedState h).2⟩

end Gateway.Persist
