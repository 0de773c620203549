import Mathlib
import WireMesh.Gateway.Watch

-- The watches of a rotation against the device that they are about.
namespace Gateway

open Uapi Reconcile

variable {ds : DesiredState} {pins live : HashMap Nat String} {gid : Nat} {peer : PeerState}

-- What a gateway has on a device: the part of the configuration that comes from its peers.
def deviceEntries (ds : DesiredState) (pins live : HashMap Nat String) (gid : Nat) :
    List PeerConfig :=
  let own := { ds with peers := ds.peers.filter (·.gatewayId = gid) }
  (deviceConfigPinned own "" 0 pins live).peers

def deviceEntry (pins live : HashMap Nat String) (p : PeerState) : Option PeerConfig :=
  (selectedKey pins p).map fun publicKeyB64 =>
    { publicKeyB64
      endpoint      := (live.lookup p.gatewayId).or p.primaryEndpoint
      allowedIps    := p.allowedIps
      keepaliveSecs := PERSISTENT_KEEPALIVE_SECS }

theorem peers_deviceConfigPinned : (deviceConfigPinned ds priv port pins live).peers =
    ds.peers.filterMap (deviceEntry pins live) := by
  refine List.filterMap_congr fun p _ => ?_
  rw [deviceEntry]
  cases selectedKey pins p <;> rfl

section Distinct

variable (hd : (ds.peers.map PeerState.gatewayId).Nodup)
include hd

theorem deviceEntries_eq (gid : Nat) : deviceEntries ds pins live gid =
    ((Keyed.lookup PeerState.gatewayId gid ds.peers).bind (deviceEntry pins live)).toList := by
  rw [deviceEntries, peers_deviceConfigPinned]
  dsimp only
  rw [Keyed.filter_eq_lookup hd]
  cases Keyed.lookup PeerState.gatewayId gid ds.peers
  case none   => rfl
  case some p => cases hp : deviceEntry pins live p <;> simp [hp]

-- The device has the entries of its gateways, and no others.
theorem peers_eq_flatMap : (deviceConfigPinned ds priv port pins live).peers =
    ds.peers.flatMap fun p => deviceEntries ds pins live p.gatewayId := by
  rw [peers_deviceConfigPinned, List.filterMap_eq_flatMap_toList]
  refine List.flatMap_congr fun p hp => ?_
  rw [deviceEntries_eq hd, Keyed.lookup_of_mem hd hp]
  rfl

end Distinct

def watchOf (pins : HashMap Nat String) (snapshotHex : String) (peer : Option PeerState) :
    EpochWatch String :=
  match peer.bind (selectedKey pins) with
  | none          => .gone
  | some selected => .key ((pubkeyB64ToHex selected).getD snapshotHex)

-- The watches select as the configuration does.
theorem newEpochWatches_cutOver : newEpochWatches snapshot true (some ds) pins =
    snapshot.map fun (gid, snapshotHex) =>
      (gid, watchOf pins snapshotHex (Keyed.lookup PeerState.gatewayId gid ds.peers)) := by
  refine List.map_congr_left fun (gid, snapshotHex) _ => ?_
  simp only [Bool.not_true, Bool.false_eq_true, ↓reduceIte, Keyed.lookup, watchOf]
  cases hp : ds.peers.find? (·.gatewayId = gid)
  case none => rfl
  case some peer =>
    have hg : peer.gatewayId = gid := by simpa using List.find?_some hp
    rw [Option.bind_some, selectedKey, hg]
    dsimp only
    cases pins.lookup gid
    case none   => cases peer.activePubkeyB64 <;> rfl
    case some _ => rfl

-- A watch of a gateway is for the key that it has on the device.
def Watches (ds : DesiredState) (pins live : HashMap Nat String) (taken : Nat × String)
    (watch : Nat × EpochWatch String) : Prop :=
  watch.1 = taken.1 ∧
  (watch.2 = .gone ↔ deviceEntries ds pins live taken.1 = []) ∧
  ∀ entry ∈ deviceEntries ds pins live taken.1, ∀ hex,
    pubkeyB64ToHex entry.publicKeyB64 = some hex → watch.2 = .key hex

theorem watches_of_lookup (hd : (ds.peers.map PeerState.gatewayId).Nodup) :
    Watches ds pins live (gid, snapshotHex)
      (gid, watchOf pins snapshotHex (Keyed.lookup PeerState.gatewayId gid ds.peers)) := by
  have he : deviceEntries ds pins live gid = _ := deviceEntries_eq hd gid
  rw [Watches, he, watchOf]
  cases Keyed.lookup PeerState.gatewayId gid ds.peers
  case none => exact ⟨rfl, iff_of_true rfl rfl, nofun⟩
  case some peer =>
    rw [Option.bind_some, Option.bind_some, deviceEntry]
    cases selectedKey pins peer
    case none     => exact ⟨rfl, iff_of_true rfl rfl, nofun⟩
    case some key =>
      refine ⟨rfl, iff_of_false nofun nofun, fun entry hm hex hx => ?_⟩
      cases List.mem_singleton.mp hm
      exact congrArg (fun o : Option String => EpochWatch.key (o.getD snapshotHex)) hx

theorem watches_match_device (hd : (ds.peers.map PeerState.gatewayId).Nodup)
    (priv : String) (port : Nat) (snapshot : List (Nat × String)) (pins live : HashMap Nat String) :
    (deviceConfigPinned ds priv port pins live).peers =
      (ds.peers.flatMap fun p => deviceEntries ds pins live p.gatewayId) ∧
    List.Forall₂ (Watches ds pins live) snapshot (newEpochWatches snapshot true (some ds) pins) := by
  refine ⟨peers_eq_flatMap hd, ?_⟩
  rw [newEpochWatches_cutOver, List.forall₂_map_right_iff]
  exact List.forall₂_same.mpr fun _ _ => watches_of_lookup hd

section Example

def keyed (gatewayId : Nat) (activePubkeyB64 : Option String) : PeerState where
  gatewayId       := gatewayId
  activePubkeyB64 := activePubkeyB64
  segmentName     := ""
  keys            := []
  candidates      := []
  allowedIps      := []

def fourKeyed : DesiredState where
  peers          := [keyed 1 (some "new"), keyed 3 none, keyed 4 (some "new")]
  revision       := 0
  policyIr       := []
  policyVersion  := 0
  relays         := []
  revokedSerials := []

def zeroKey : String :=
  "AAAAAAAAAAAAAAAAAAAAAAAAAAAAAAAAAAAAAAAAAAA="

-- The first peer has rotated as well and is pinned to the key of zeros, the second has gone, the third
-- has no key, and that of the fourth cannot be read.
theorem watches_match_pinned :
    Uapi.pubkeyB64ToHex zeroKey = some (String.ofList (List.replicate 64 '0')) ∧
    List.Forall₂ (Watches fourKeyed (AList.singleton 1 zeroKey) ∅)
      [(1, "a"), (2, "b"), (3, "c"), (4, "d")]
      [(1, .key (String.ofList (List.replicate 64 '0'))), (2, .gone), (3, .gone), (4, .key "d")] := by
  have distinct : (fourKeyed.peers.map PeerState.gatewayId).Nodup := by decide
  have watches : newEpochWatches [(1, "a"), (2, "b"), (3, "c"), (4, "d")] true (some fourKeyed)
      (AList.singleton 1 zeroKey) =
        [(1, .key (String.ofList (List.replicate 64 '0'))), (2, .gone), (3, .gone), (4, .key "d")] := by
    decide +kernel
  rw [← watches]
  exact ⟨by decide +kernel, (watches_match_device distinct "" 0 _ _ _).2⟩

end Example
end Gateway
