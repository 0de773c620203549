import WireMesh.Controller.StandIn
import WireMesh.Controller.Theorems.History

-- Which epoch of a gateway is active, in the course of a run.
namespace Controller

open Policy

-- The gateway that a transaction starts a rotation for, and the epoch that it promotes.
def Tx.rotates : Tx → Option Nat
  | rotateKey g => some g
  | _           => none

def Tx.promotes : Tx → Option (Nat × Nat)
  | promoteEpoch g e => some (g, e)
  | _                => none

-- A rotation is started where none is underway.
def RotatesAtRest (x : Db × Tx) : Prop :=
  ∀ g ∈ x.2.rotates, (x.1.ring g).Resting

-- A promotion goes to a later epoch than the one that was active.
def PromotesUp (x : Db × Tx) : Prop :=
  ∀ p ∈ x.2.promotes, (x.1.ring p.1).Submitted p.2 → ∀ a ∈ (x.1.ring p.1).activeEpoch, a < p.2

instance (x : Db × Tx) : Decidable (RotatesAtRest x) :=
  inferInstanceAs (Decidable (∀ g ∈ x.2.rotates, (x.1.ring g).Resting))

instance (x : Db × Tx) : Decidable (PromotesUp x) :=
  inferInstanceAs (Decidable (∀ p ∈ x.2.promotes, _))

-- The active epochs of a gateway in all states of a run, the latest first.
def activeEpochs (g : Nat) (h : History) (s : System) : List Nat :=
  (s :: h.map (·.1)).filterMap fun t => (t.shared.db.ring g).activeEpoch

namespace Db

variable {db db' : Db} {g : Nat}

theorem RingMove.pendingLast (hm : RingMove db g t r) (hr : RotatesAtRest (db, t)) (keys : KeysOk db)
    (h : (db.ring g).PendingLast) : r.PendingLast := by
  cases hm
  case same      => exact h
  case rotated   => exact .rotate (hr g rfl)
  case submitted => exact h.submit
  case promoted  => exact h.promote
  case retired   => exact h.delete
  case dropped   => exact h.delete
  case enrolled hg =>
    have none : db.ring g = [] := not_not.mp fun hr => nextId_not_mem _ (hg ▸ keys.owned g hr)
    intro k hk hp
    rw [none, List.nil_append, List.mem_singleton] at hk
    rw [hk] at hp
    cases hp

theorem KeysOk.ok_of_activeEpoch (keys : KeysOk db) (ha : a ∈ (db.ring g).activeEpoch) :
    (db.ring g).Ok :=
  keys.rings g <| keys.owned g fun he => by
    rw [he] at ha
    cases ha

theorem RingMove.activeEpoch (hm : RingMove db g t r) (keys : KeysOk db)
    (h : (db.ring g).PendingLast) (ha : a ∈ (db.ring g).activeEpoch) :
    ∃ b ∈ r.activeEpoch, a ≤ b := by
  have ok := keys.ok_of_activeEpoch ha
  have hd {e state} (hs : state ≠ .active) : a ∈ ((db.ring g).delete e state).activeEpoch :=
    ok.activeEpoch_delete hs ▸ ha
  cases hm
  case same      => exact ⟨a, ha, le_refl a⟩
  case rotated   => exact ⟨a, ok.activeEpoch_rotate ▸ ha, le_refl a⟩
  case submitted => exact ⟨a, ok.activeEpoch_submit ▸ ha, le_refl a⟩
  case retired   => exact ⟨a, hd nofun, le_refl a⟩
  case dropped   => exact ⟨a, hd nofun, le_refl a⟩
  case promoted hp =>
    have ⟨he, hl⟩ := h.activeEpoch_promote ok hp
    exact ⟨_, he, Nat.le_of_lt (hl a ha)⟩
  case enrolled hg =>
    have hm := keys.owned g fun he => by
      rw [he] at ha
      cases ha
    exact absurd (hg ▸ hm) (nextId_not_mem _)

variable [Ipnet] [Sha256] [IpnetV6] [PolicyText] [Base64]

theorem pendingLast_run (r : Run Step .empty h db) (hc : ∀ x ∈ h, x.2.KeyChecked)
    (hr : ∀ x ∈ h, RotatesAtRest x) : ∀ g, (db.ring g).PendingLast := by
  induction r
  case start => exact fun g k hk => absurd hk (by simp [ring, allKeysForGateway, empty])
  case step h db t db' r hs ih =>
    obtain ⟨ht, hr⟩ := List.forall_mem_cons.mp hr
    obtain ⟨_, hc⟩ := List.forall_mem_cons.mp hc
    intro g
    exact hs ▸ (ringMove_commit t).pendingLast ht (keysOk_run r hc) (ih hc hr g)

end Db

section Run

variable [Ipnet] [Sha256] [IpnetV6] [PolicyText] [Base64]

omit [Ipnet] [Sha256] [IpnetV6] [PolicyText] [Base64] in
theorem mem_activeEpochs_step {h : History} :
    a ∈ activeEpochs g ((s, e) :: h) t ↔
      a ∈ (t.shared.db.ring g).activeEpoch ∨ a ∈ activeEpochs g h s := by
  simp [activeEpochs]

-- A step either commits a transaction or leaves all epochs as they are.
theorem activeEpoch_step (r : Runs h s) (hs : Pool.Step rules s e t)
    (hr : ∀ x ∈ txHistory h, RotatesAtRest x) (ha : a ∈ (s.shared.db.ring g).activeEpoch) :
    ∃ b ∈ (t.shared.db.ring g).activeEpoch, a ≤ b := by
  have last := Db.pendingLast_run (db_run r) (keyChecked_run r) hr
  cases db_step h hs
  case inl hd => exact ⟨a, hd.2 ▸ ha, le_refl a⟩
  case inr hd =>
    have ⟨_, tx, _, _, hc⟩ := hd
    have ⟨b, hb, hl⟩ := (Db.ringMove_commit tx).activeEpoch (keysOk_runs r) (last g) ha
    exact ⟨b, by rwa [hc] at hb, hl⟩

theorem activeEpochs_le (r : Runs h s) (hr : ∀ x ∈ txHistory h, RotatesAtRest x) :
    ∀ a ∈ activeEpochs g h s, ∃ b ∈ (s.shared.db.ring g).activeEpoch, a ≤ b := by
  induction r
  case start =>
    intro a ha
    cases ha
  case step h s e t r hs ih =>
    have hr : ∀ x ∈ txHistory h, RotatesAtRest x := fun x hx =>
      hr x ((txHistory_suffix _ h).subset hx)
    intro a ha
    cases mem_activeEpochs_step.mp ha
    case inl ha => exact ⟨a, ha, le_refl a⟩
    case inr ha =>
      have ⟨b, hb, hl⟩ := ih hr a ha
      have ⟨c, hc, hl'⟩ := activeEpoch_step r hs hr hb
      exact ⟨c, hc, hl.trans hl'⟩

theorem activeEpochs_pairwise (r : Runs h s) (hr : ∀ x ∈ txHistory h, RotatesAtRest x) :
    (activeEpochs g h s).Pairwise (· ≥ ·) := by
  induction r
  case start => simp [activeEpochs, List.pairwise_filterMap]
  case step h s e t r hs ih =>
    have hr : ∀ x ∈ txHistory h, RotatesAtRest x := fun x hx =>
      hr x ((txHistory_suffix _ h).subset hx)
    simp only [activeEpochs, List.filterMap_cons, List.map_cons] at ih ⊢
    split
    case h_1 => exact ih hr
    case h_2 b hb =>
      refine List.pairwise_cons.mpr ⟨fun a ha => ?_, ih hr⟩
      have ⟨c, hc, hl⟩ := activeEpochs_le r hr a ha
      have ⟨d, hd, hl'⟩ := activeEpoch_step r hs hr hc
      have he : d = b := Option.some.inj (hd.symm.trans hb)
      exact he ▸ hl.trans hl'

theorem promotesUp_run (r : Runs h s) (hr : ∀ x ∈ txHistory h, RotatesAtRest x) :
    ∀ x ∈ txHistory h, PromotesUp x := by
  intro x hx p hp hs a ha
  have ⟨h₁, h₂, _, he, r', _⟩ := (db_run r).mem hx
  have mem {y} (hy : y ∈ h₁) : y ∈ txHistory h := by
    rw [he]
    exact List.mem_append_right _ (List.mem_cons_of_mem _ hy)
  have hc y (hy : y ∈ h₁) : y.2.KeyChecked := keyChecked_run r y (mem hy)
  have last := Db.pendingLast_run r' hc fun y hy => hr y (mem hy)
  have ok := (Db.keysOk_run r' hc).ok_of_activeEpoch ha
  exact ((last p.1).activeEpoch_promote ok hs).2 a ha

-- In a run that starts a rotation only where none is underway, the active epoch never goes down.
theorem activeEpoch_never_decreases (r : Runs h s) (hr : ∀ x ∈ txHistory h, RotatesAtRest x) :
    (∀ g, (activeEpochs g h s).Pairwise (· ≥ ·)) ∧ ∀ x ∈ txHistory h, PromotesUp x :=
  ⟨fun _ => activeEpochs_pairwise r hr, promotesUp_run r hr⟩

end Run

section Example

open StandIn

def oneRotation : Moves :=
  opening ++ calls 3 [.rotateKey 1, .submitEpochKey "gw-aa" 1 "one" 0] ++ tick GRACE_PROMOTE ++
  calls 5 [.sweepRotations]

set_option maxRecDepth 10000 in
theorem activeEpoch_oneRotation :
    (played oneRotation).2.shared.db.ring 1 =
      [(0, "placeholder-pubkey-gw1-epoch0", .retiring), (1, "one", .active)] ∧
    (activeEpochs 1 (played oneRotation).1 (played oneRotation).2).Pairwise (· ≥ ·) :=
  have never := activeEpoch_never_decreases (runs_played oneRotation) (by decide +kernel)
  ⟨by decide +kernel, never.1 1⟩

-- Two epochs get their keys. The later one is promoted first, and the tracker then goes on with the
-- earlier one.
def twoRotations : Moves :=
  opening ++ calls 3 [.rotateKey 1, .rotateKey 1, .submitEpochKey "gw-aa" 1 "one" 0,
    .submitEpochKey "gw-aa" 2 "two" 0] ++
  tick GRACE_PROMOTE ++ calls 7 [.sweepRotations, .sweepRotations] ++
  tick (2 * GRACE_PROMOTE) ++ calls 9 [.sweepRotations]

set_option maxRecDepth 10000 in
theorem activeEpoch_decreases :
    Runs (played twoRotations).1 (played twoRotations).2 ∧
    (activeEpochs 1 (played twoRotations).1 (played twoRotations).2).dedup = [1, 2, 0] ∧
    ¬ ∀ x ∈ txHistory (played twoRotations).1, PromotesUp x :=
  ⟨runs_played twoRotations, by decide +kernel, by decide +kernel⟩

end Example
end Controller
