import Mathlib
import WireMesh.Controller.Db

-- The keys of one gateway, and what can happen to them.
namespace Controller

-- In the order of epochs.
abbrev KeyRing := List GatewayKeyRow

namespace KeyRing

def Has (ring : KeyRing) (epoch : Nat) (state : KeyState) : Prop :=
  ∃ k ∈ ring, k.1 = epoch ∧ k.2.2 = state

-- A pending epoch that has no key yet, and one whose key has been submitted.
def Awaits (ring : KeyRing) (epoch : Nat) : Prop :=
  (epoch, AWAITING_SUBMISSION_SENTINEL, .pending) ∈ ring

def Submitted (ring : KeyRing) (epoch : Nat) : Prop :=
  ∃ k ∈ ring, k.1 = epoch ∧ k.2.2 = .pending ∧ k.2.1 ≠ AWAITING_SUBMISSION_SENTINEL

instance (ring : KeyRing) (epoch : Nat) (state : KeyState) : Decidable (ring.Has epoch state) :=
  inferInstanceAs (Decidable (∃ k ∈ ring, _))

instance (ring : KeyRing) (epoch : Nat) : Decidable (ring.Awaits epoch) :=
  inferInstanceAs (Decidable (_ ∈ ring))

instance (ring : KeyRing) (epoch : Nat) : Decidable (ring.Submitted epoch) :=
  inferInstanceAs (Decidable (∃ k ∈ ring, _))

def nextEpoch (ring : KeyRing) : Nat :=
  ((ring.map (·.1)).max?.map (· + 1)).getD 0

def rotate (ring : KeyRing) : KeyRing :=
  ring ++ [(ring.nextEpoch, AWAITING_SUBMISSION_SENTINEL, .pending)]

def submitRow (epoch : Nat) (pubkey : String) (k : GatewayKeyRow) : GatewayKeyRow :=
  if k.1 = epoch ∧ k.2.2 = .pending ∧ k.2.1 = AWAITING_SUBMISSION_SENTINEL
  then (k.1, pubkey, k.2.2) else k

def submit (ring : KeyRing) (epoch : Nat) (pubkey : String) : KeyRing :=
  ring.map (submitRow epoch pubkey)

def promoteRow (epoch : Nat) (k : GatewayKeyRow) : GatewayKeyRow :=
  if k.1 = epoch then (k.1, k.2.1, .active)
  else if k.2.2 = .active then (k.1, k.2.1, .retiring) else k

def promote (ring : KeyRing) (epoch : Nat) : KeyRing :=
  ring.map (promoteRow epoch)

-- The row of an epoch goes if it is in the given state.
def delete (ring : KeyRing) (epoch : Nat) (state : KeyState) : KeyRing :=
  ring.filter fun k => ¬ (k.1 = epoch ∧ k.2.2 = state)

variable {ring : KeyRing}

-- Epochs ascend, one is active, and whoever is or was active has a key.
structure Ok (ring : KeyRing) : Prop where
  epochs : ring.Pairwise fun k k' => k.1 < k'.1
  active : ring.countP (·.2.2 = .active) = 1
  keys : ∀ k ∈ ring, k.2.2 ≠ .pending → k.2.1 ≠ AWAITING_SUBMISSION_SENTINEL

theorem lt_nextEpoch (hk : k ∈ ring) : k.1 < ring.nextEpoch := by
  have hm : k.1 ∈ ring.map (·.1) := List.mem_map_of_mem hk
  have ⟨m, hx⟩ : ∃ m, (ring.map (·.1)).max? = some m :=
    Option.isSome_iff_exists.mp <| List.isSome_max?_of_mem hm
  have hl : k.1 ≤ m := (List.max?_eq_some_iff.mp hx).2 _ hm
  simp only [nextEpoch, hx, Option.map_some, Option.getD_some]
  omega

theorem Ok.first (hk : pubkey ≠ AWAITING_SUBMISSION_SENTINEL) : Ok [(0, pubkey, .active)] where
  epochs := by simp
  active := by simp
  keys   := by simpa using hk

theorem Ok.rotate (h : Ok ring) : Ok ring.rotate where
  epochs := by
    refine List.pairwise_append.mpr ⟨h.epochs, by simp, fun k hk k' hk' => ?_⟩
    rw [List.mem_singleton.mp hk']
    exact lt_nextEpoch hk
  active := by simp [KeyRing.rotate, h.active]
  keys k hk hs := by
    cases List.mem_append.mp hk
    case inl hk => exact h.keys k hk hs
    case inr hk =>
      rw [List.mem_singleton.mp hk] at hs
      exact absurd rfl hs

theorem submitRow_epoch (k : GatewayKeyRow) : (submitRow e pubkey k).1 = k.1 := by
  rw [submitRow]
  split <;> rfl

theorem submitRow_state (k : GatewayKeyRow) : (submitRow e pubkey k).2.2 = k.2.2 := by
  rw [submitRow]
  split <;> rfl

theorem promoteRow_epoch (k : GatewayKeyRow) : (promoteRow e k).1 = k.1 := by
  rw [promoteRow]
  split
  case isTrue  => rfl
  case isFalse => split <;> rfl

theorem promoteRow_active {k : GatewayKeyRow} : (promoteRow e k).2.2 = .active ↔ k.1 = e := by
  rw [promoteRow]
  split
  case isTrue he  => simp [he]
  case isFalse he => split <;> simp_all

theorem Ok.submit (h : Ok ring) : Ok (ring.submit e pubkey) where
  epochs := by
    refine List.pairwise_map.mpr <| h.epochs.imp fun {k k'} hl => ?_
    rwa [submitRow_epoch, submitRow_epoch]
  active := by
    rw [KeyRing.submit, List.countP_map, ← h.active]
    exact List.countP_congr fun k _ => by simp [submitRow_state]
  keys k hk hs := by
    have ⟨k₀, hk₀, he⟩ := List.mem_map.mp hk
    rw [submitRow] at he
    split at he
    case isTrue ha => exact absurd (he ▸ ha.2.1) hs
    case isFalse   => exact he ▸ h.keys k₀ hk₀ (he ▸ hs)

theorem Ok.delete (h : Ok ring) (hs : state ≠ .active) : Ok (ring.delete e state) where
  epochs := h.epochs.filter _
  active := by
    rw [KeyRing.delete, List.countP_filter, ← h.active]
    refine List.countP_congr fun k _ => ?_
    have stays (ha : k.2.2 = .active) : ¬ k.1 = e ∨ ¬ k.2.2 = state := .inr fun he => hs (he ▸ ha)
    simpa using stays
  keys k hk := h.keys k (List.mem_of_mem_filter hk)

theorem Ok.nodup (h : Ok ring) : (ring.map (·.1)).Nodup :=
  List.pairwise_map.mpr <| h.epochs.imp Nat.ne_of_lt

-- No two rows of a ring have the same epoch.
theorem Ok.eq_of_epoch (h : Ok ring) (hk : k ∈ ring) (hk' : k' ∈ ring) (he : k.1 = k'.1) : k = k' :=
  List.inj_on_of_nodup_map h.nodup hk hk' he

theorem Ok.promote (h : Ok ring) (hp : ring.Submitted e) : Ok (ring.promote e) where
  epochs := by
    refine List.pairwise_map.mpr <| h.epochs.imp fun {k k'} hl => ?_
    rwa [promoteRow_epoch, promoteRow_epoch]
  active := by
    have ⟨k, hk, he, _, _⟩ := hp
    have hc : (ring.map (·.1)).count e = 1 :=
      List.count_eq_one_of_mem h.nodup (he ▸ List.mem_map_of_mem hk)
    rw [KeyRing.promote, List.countP_map, ← hc, List.count, List.countP_map]
    exact List.countP_congr fun k _ => by simp [promoteRow_active]
  keys k hk hs := by
    have ⟨k₀, hk₀, he⟩ := List.mem_map.mp hk
    have ⟨k₁, hk₁, he₁, _, hr⟩ := hp
    rw [promoteRow] at he
    split at he
    case isTrue h₀ => exact he ▸ h.eq_of_epoch hk₁ hk₀ (he₁.trans h₀.symm) ▸ hr
    case isFalse =>
      split at he
      case isTrue ha => exact he ▸ h.keys k₀ hk₀ (by simp [ha])
      case isFalse   => exact he ▸ h.keys k₀ hk₀ (he ▸ hs)

section Pending

def Resting (ring : KeyRing) : Prop :=
  ∀ k ∈ ring, k.2.2 ≠ .pending

instance (ring : KeyRing) : Decidable ring.Resting :=
  inferInstanceAs (Decidable (∀ k ∈ ring, _))

-- A pending epoch comes after all others.
def PendingLast (ring : KeyRing) : Prop :=
  ∀ k ∈ ring, k.2.2 = .pending → ∀ k' ∈ ring, k'.1 ≤ k.1

theorem PendingLast.rotate (h : Resting ring) : PendingLast ring.rotate := by
  intro k hk hp k' hk'
  cases List.mem_append.mp hk
  case inl hk => exact absurd hp (h k hk)
  case inr hk =>
    rw [List.mem_singleton.mp hk]
    cases List.mem_append.mp hk'
    case inl hk' => exact Nat.le_of_lt (lt_nextEpoch hk')
    case inr hk' => rw [List.mem_singleton.mp hk']

-- Rows that keep their epochs and do not become pending.
theorem PendingLast.map (h : PendingLast ring) (he : ∀ k, (f k).1 = k.1)
    (hs : ∀ k : GatewayKeyRow, (f k).2.2 = .pending → k.2.2 = .pending) :
    PendingLast (ring.map f) := by
  intro k hk hp k' hk'
  have ⟨k₀, hk₀, e⟩ := List.mem_map.mp hk
  have ⟨k₁, hk₁, e'⟩ := List.mem_map.mp hk'
  rw [← e, ← e', he, he]
  exact h k₀ hk₀ (hs k₀ (e ▸ hp)) k₁ hk₁

theorem PendingLast.submit (h : PendingLast ring) : PendingLast (ring.submit e pubkey) :=
  h.map submitRow_epoch fun k hp => submitRow_state k ▸ hp

theorem PendingLast.promote (h : PendingLast ring) : PendingLast (ring.promote e) := by
  refine h.map promoteRow_epoch fun k hp => ?_
  rw [promoteRow] at hp
  split at hp
  case isTrue  => cases hp
  case isFalse =>
    split at hp
    case isTrue  => cases hp
    case isFalse => exact hp

theorem PendingLast.delete (h : PendingLast ring) : PendingLast (ring.delete e state) :=
  fun k hk hp k' hk' => h k (List.mem_of_mem_filter hk) hp k' (List.mem_of_mem_filter hk')

-- Only a pending row is later than the active one.
theorem PendingLast.active_lt (h : PendingLast ring) (ok : Ok ring) (hp : ring.Submitted e)
    (hk : k ∈ ring) (ha : k.2.2 = .active) : k.1 < e := by
  have ⟨p, hm, he, hs, _⟩ := hp
  have hl : k.1 ≤ e := he ▸ h p hm hs k hk
  have hn : k.1 ≠ e := fun hke => by
    have hkp : k = p := ok.eq_of_epoch hk hm (hke.trans he.symm)
    rw [hkp, hs] at ha
    cases ha
  omega

def activeEpoch (ring : KeyRing) : Option Nat :=
  (ring.find? (·.2.2 = .active)).map (·.1)

theorem Ok.exists_active (ok : Ok ring) : ∃ k ∈ ring, k.2.2 = .active := by
  have hc : 0 < ring.countP (·.2.2 = .active) := by simp [ok.active]
  have ⟨k, hk, ha⟩ := List.countP_pos_iff.mp hc
  exact ⟨k, hk, by simpa using ha⟩

theorem Ok.active_unique (ok : Ok ring) (hk : k ∈ ring) (ha : k.2.2 = .active) (hk' : k' ∈ ring)
    (ha' : k'.2.2 = .active) : k = k' := by
  have hl : (ring.filter (·.2.2 = .active)).length = 1 := by
    rw [← List.countP_eq_length_filter]
    exact ok.active
  have ⟨x, hx⟩ := List.length_eq_one_iff.mp hl
  have mem {k} (hk : k ∈ ring) (ha : k.2.2 = .active) : k = x := by
    have hm : k ∈ ring.filter (·.2.2 = .active) := List.mem_filter.mpr ⟨hk, by simpa using ha⟩
    simpa [hx] using hm
  rw [mem hk ha, mem hk' ha']

theorem Ok.activeEpoch_eq (ok : Ok ring) (hk : k ∈ ring) (ha : k.2.2 = .active) :
    ring.activeEpoch = some k.1 := by
  have hf : (ring.find? (·.2.2 = .active)).isSome := by simpa using ⟨k.1, k.2.1, ha ▸ hk⟩
  have ⟨x, hx⟩ := Option.isSome_iff_exists.mp hf
  have he : k = x :=
    ok.active_unique hk ha (List.mem_of_find?_eq_some hx) (by simpa using List.find?_some hx)
  rw [activeEpoch, hx, he]
  rfl

-- A ring whose active row is still there has the same epoch active.
theorem Ok.activeEpoch_congr (ok : Ok ring) (ok' : Ok ring')
    (hm : ∀ k ∈ ring, k.2.2 = .active → ∃ k' ∈ ring', k'.1 = k.1 ∧ k'.2.2 = .active) :
    ring'.activeEpoch = ring.activeEpoch := by
  have ⟨k, hk, ha⟩ := ok.exists_active
  have ⟨k', hk', he, ha'⟩ := hm k hk ha
  rw [ok.activeEpoch_eq hk ha, ok'.activeEpoch_eq hk' ha', he]

theorem Ok.activeEpoch_rotate (ok : Ok ring) : ring.rotate.activeEpoch = ring.activeEpoch :=
  ok.activeEpoch_congr ok.rotate fun k hk ha => ⟨k, List.mem_append_left _ hk, rfl, ha⟩

theorem Ok.activeEpoch_submit (ok : Ok ring) :
    (ring.submit e pubkey).activeEpoch = ring.activeEpoch :=
  ok.activeEpoch_congr ok.submit fun k hk ha =>
    ⟨_, List.mem_map_of_mem hk, submitRow_epoch k, submitRow_state k ▸ ha⟩

theorem Ok.activeEpoch_delete (ok : Ok ring) (hs : state ≠ .active) :
    (ring.delete e state).activeEpoch = ring.activeEpoch :=
  ok.activeEpoch_congr (ok.delete hs) fun k hk ha =>
    ⟨k, List.mem_filter.mpr ⟨hk, by simpa using .inr fun he : k.2.2 = state => hs (he ▸ ha)⟩,
      rfl, ha⟩

-- The active epoch only goes up where every pending epoch comes last.
theorem PendingLast.activeEpoch_promote (h : PendingLast ring) (ok : Ok ring)
    (hp : ring.Submitted e) : (ring.promote e).activeEpoch = some e ∧ ∀ a ∈ ring.activeEpoch, a < e := by
  have ⟨p, hm, he, _⟩ := hp
  have ⟨k, hk, ha⟩ := ok.exists_active
  refine ⟨?_, fun a hx => ?_⟩
  case refine_1 =>
    have hm' : promoteRow e p ∈ ring.promote e := List.mem_map_of_mem hm
    rw [(ok.promote hp).activeEpoch_eq hm' (promoteRow_active.mpr he), promoteRow_epoch, he]
  case refine_2 =>
    rw [ok.activeEpoch_eq hk ha] at hx
    exact Option.some.inj hx ▸ h.active_lt ok hp hk ha

end Pending

end KeyRing
end Controller
