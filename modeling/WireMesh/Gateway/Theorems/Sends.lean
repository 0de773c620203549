import WireMesh.Gateway.StandIn
import WireMesh.Gateway.Theorems.Steady

-- No request makes the active device panic, as long as states and endpoints are written one at a time
-- and keys can be told apart by their text as well as by their bytes.
namespace Gateway
namespace Steady

open Uapi

variable {h : History} {s : System}

-- A key that has been recorded is spelled as it has been recorded.
def Spelled (a : ActiveTunInfo) (peers : List PeerConfig) : Prop :=
  ∀ p ∈ peers, ∀ b ∈ p.peer, b.key ∈ (peersOf a.appliedPeers).map (·.key) →
    p.publicKeyB64 ∈ a.appliedPeers.map (·.publicKeyB64)

instance : Decidable (Spelled a peers) := by
  unfold Spelled
  infer_instance

def ToldApart (_ : History) (s : System) : SystemEvent → Prop
  | .op _ (.lock _) _                    => s.shared.held = []
  | .op _ (.deviceConfig ds key port) _ =>
    let peers := (s.shared.pinnedConfig ds key port).peers
    Distinct peers ∧ Spelled s.shared.active peers
  | _                                    => True

instance : Decidable (ToldApart h s e) := by
  unfold ToldApart
  split <;> infer_instance

-- No key is named twice, and where peers are only added none is named that is on the device.
def NamesNew (_ : History) (s : System) : SystemEvent → Prop
  | .op _ (.send ifname body) _ => (keysOf body).Nodup ∧
    (AddOnly body → ∀ d ∈ s.shared.devices.lookup ifname, ∀ key ∈ keysOf body, key ∉ d.keys)
  | _                           => True

instance : Decidable (NamesNew h s e) := by
  unfold NamesNew
  split <;> infer_instance

-- What is on the device has been recorded, so its keys are spelled that way as well.
theorem Spelled.of_covers (hs : Spelled a peers) (hc : Covers a d) (hp : p ∈ peers) (hb : b ∈ p.peer)
    (hk : b.key ∈ d.keys) : p.publicKeyB64 ∈ a.appliedPeers.map (·.publicKeyB64) := by
  obtain ⟨b', hm, he⟩ := List.mem_map.mp hk
  exact hs p hp b hb (he ▸ List.mem_map_of_mem (hc.peers hm))

abbrev spelling (a : ActiveTunInfo) (_ : Device) (peers : List PeerConfig) : Prop :=
  Spelled a peers

theorem Sends.namesNew {g : Gw} (hs : Sends spelling g body) : (keysOf body).Nodup ∧
    (AddOnly body → ∀ d ∈ g.devices.lookup g.active.ifname, ∀ key ∈ keysOf body, key ∉ d.keys) := by
  cases hs
  case whole dev hb hn =>
    exact ⟨keysOf_encodeSet hb ▸ hn, fun ha => absurd ha (not_addOnly_encodeSet hb)⟩
  case remove hb =>
    obtain ⟨key, _, he⟩ := encodeRemovePeer_ok hb
    exact ⟨by simp [he, keysOf], fun ha => absurd ha.2 (by simp [he])⟩
  case readd d key peer hl hk hn hb =>
    obtain ⟨_, hw, he⟩ := encodeAddPeers_ok.mp hb
    have hkeys : keysOf body = [key] := by
      rw [← he, hw.keysOf, peersOf_cons (peer_of_key hk)]
      rfl
    rw [hkeys]
    refine ⟨by simp, fun _ d' hd' k hm => ?_⟩
    cases hl.symm.trans hd'
    exact List.mem_singleton.mp hm ▸ hn
  case additions d peers added hl hc hk hn hd hb =>
    obtain ⟨_, hw, he⟩ := encodeAddPeers_ok.mp hb
    have hg := grows_of_additions hc.texts hd
    have hkeys : keysOf body = (peersOf added).map (·.key) := he ▸ hw.keysOf
    rw [hkeys]
    refine ⟨hn.sublist ((hg.sublist.filterMap _).map _), fun _ d' hd' k hm hon => ?_⟩
    cases hl.symm.trans hd'
    obtain ⟨b, hb, hbk⟩ := List.mem_map.mp hm
    obtain ⟨p, hp, hpb⟩ := mem_peersOf.mp hb
    exact (hg.new p hp).2 (hk.of_covers hc (hg.new p hp).1 hpb (hbk ▸ hon))

theorem valid_toldApart :
    (session (fun _ => ()) spelling).Valid rules fun p e => ToldApart [] p e := by
  refine valid (fun _ _ _ _ hk => hk) (fun p i o x t hk ha => ?_) (fun p i gid after x t _ ha _ => ?_)
    fun p v t _ hv _ => ?_
  case refine_1 =>
    cases o
    case deviceConfig =>
      have ⟨hx, _⟩ := answers_deviceConfig ha
      subst hx
      exact ⟨hk.1, fun _ _ => hk.2⟩
    all_goals trivial
  case refine_2 => exact alike_of_writes ha (by simp [Op.writes]) (by simp [Op.writes])
  case refine_3 => cases hv <;> exact ⟨rfl, rfl, rfl⟩

theorem requests_name_new_keys (run : Runs config stateJson storedKeys h s)
    (hk : Run.Along ToldApart h) : Run.Along NamesNew h := by
  suffices hs : (∃ who, (session (fun _ => ()) spelling).Sound rules who s) ∧ Run.Along NamesNew h from
    hs.2
  induction run
  case start => exact ⟨⟨none, .start (rest_up _)⟩, trivial⟩
  case step h s e t run hs ih =>
    have ⟨⟨who, sound⟩, before⟩ := ih hk.2
    refine ⟨sound.step valid_toldApart hs hk.1, ?_, before⟩
    unfold NamesNew
    split
    case h_2 => trivial
    case h_1 i name body x =>
      have ⟨hi, hm⟩ := sound.pre valid_toldApart hs id id id
      exact hi ▸ hm.namesNew

-- Two peers that have one key between them.
namespace Shared

open StandIn

def peer (gatewayId : Nat) (pubkeyB64 : String) (allowedIps : List String) : PeerState where
  gatewayId       := gatewayId
  segmentName     := ""
  activePubkeyB64 := some pubkeyB64
  keys            := [⟨0, pubkeyB64, .active⟩]
  candidates      := []
  allowedIps      := allowedIps

def applies (pubkeyB64 : String) : List (Pool.Move Request Outside) :=
  [.spawn (.applyState (state [peer 2 peerKey ["10.2.0.0/16"]])), .run 0 20,
    .spawn (.applyState (state [peer 2 peerKey ["10.2.0.0/16"], peer 3 pubkeyB64 ["10.3.0.0/16"]])),
    .run 1 20]

def playedMoves (moves : List (Pool.Move Request Outside)) : History × System :=
  Pool.play (player fun _ => {}) ⟨up (.start config none none), []⟩ moves

def played (pubkeyB64 : String) : History × System :=
  playedMoves (applies pubkeyB64)

theorem runs_played (pubkeyB64 : String) :
    Runs config none none (played pubkeyB64).1 (played pubkeyB64).2 :=
  Pool.play_run _ _ _

-- The second peer's key is that of the first, spelled without its padding.
set_option maxRecDepth 10000 in
theorem requests_name_new_keys_respelled :
    Runs config none none (played (peerKey.dropEnd 1).toString).1
        (played (peerKey.dropEnd 1).toString).2 ∧
      ¬ Run.Along NamesNew (played (peerKey.dropEnd 1).toString).1 :=
  ⟨runs_played _, by decide +kernel⟩

-- The two have keys of their own, and the second is put on a relay after that.
def endpointed : History × System :=
  playedMoves (applies otherKey ++ [.spawn (.setPeerEndpoint 3 "203.0.113.7:51820" true), .run 2 40])

set_option maxRecDepth 10000 in
theorem requests_name_new_keys_different :
    (∃ e ∈ endpointed.1, e.2 matches .op 1 (.send _ _) true) ∧
      (endpointed.1.filterMap fun e => match e.2 with
        | .op 2 (.send _ body) _ => some (decide (AddOnly body))
        | _                      => none) = [true, false] ∧
      Run.Along NamesNew endpointed.1 :=
  ⟨by decide +kernel, by decide +kernel,
    requests_name_new_keys (Pool.play_run _ _ _) (by decide +kernel)⟩

end Shared
end Steady
end Gateway
