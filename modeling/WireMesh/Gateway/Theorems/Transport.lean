import WireMesh.Lib.Run
import WireMesh.Gateway.Transport

-- Whether a transport that is healthy carries what comes to it.
namespace Gateway.RelayTransport

variable {t t' : RelayTransport} {e : Event} {h : List (RelayTransport × Event)}

abbrev Step (t : RelayTransport) (e : Event) (t' : RelayTransport) : Prop :=
  t.Possible e ∧ t' = (t.next e).1

abbrev Running (t : RelayTransport) : Prop :=
  t.isHealthy → t.uplink ∧ t.downlink

-- A whole datagram from the local socket goes to the relay, and one from the relay, without the key in
-- front of it, to the address that was last seen.
def Carries (t : RelayTransport) (e : Event) : Prop :=
  t.isHealthy → match e with
    | .localRecv data _ _ => data.length ≤ UPLINK_BUFFER → (t.next e).2 = some (.toRelay data)
    | .relayRecv dgram _  => 8 ≤ dgram.length →
      ∀ peer ∈ t.lastSeen, (t.next e).2 = some (.toLocal (dgram.drop 8) peer)
    | _                   => True

-- What ends a pump though the connection is open.
def EndsPump : Event → Prop
  | .localRecvFails    => True
  | .relayRecv dgram _ => dgram.length < 8
  | _                  => False

theorem carries_of_running (hr : Running t) (e : Event) : Carries t e := by
  intro hh
  have ⟨hu, hd⟩ := hr hh
  cases e
  case localRecv data src sent =>
    intro hl
    simp [next, hu, pumpUp, List.take_of_length_le hl]
  case relayRecv dgram _ =>
    intro hl peer hp
    simp [next, hd, pumpDown, Nat.not_lt.mpr hl, Option.mem_def.mp hp]
  all_goals trivial

def Event.closes : Event → Option ConnectionError
  | .close e => some e
  | _        => none

theorem closeReason_next : (t.next e).1.closeReason = t.closeReason.or e.closes := by
  cases e
  all_goals simp only [next, pumpUp, pumpDown, recordDeath, Event.closes, Option.or_none]
  all_goals (repeat' split) <;> rfl

theorem uplink_next : (t.next e).1.uplink = true ↔ t.uplink ∧ e ≠ .localRecvFails := by
  cases e
  all_goals simp only [next, pumpUp, pumpDown, recordDeath]
  all_goals (repeat' split) <;> simp_all

theorem downlink_next : (t.next e).1.downlink = true ↔
    t.downlink ∧ (∀ dgram sent, e = .relayRecv dgram sent → 8 ≤ dgram.length) ∧
      ∀ r, e ≠ .relayRecvFails r := by
  cases e
  all_goals simp only [next, pumpUp, pumpDown, recordDeath]
  all_goals (repeat' split) <;> simp_all

theorem isHealthy_iff : t.isHealthy ↔ t.closeReason = none := by
  simp [isHealthy]

theorem isHealthy_next : (t.next e).1.isHealthy ↔ t.isHealthy ∧ e.closes = none := by
  simp only [isHealthy_iff, closeReason_next, Option.or_eq_none_iff]

-- As long as the connection is open, nothing else ends a pump.
theorem running_next (hp : t.Possible e) (hr : Running t) (he : t.isHealthy → ¬EndsPump e) :
    Running (t.next e).1 := by
  intro hh
  have ⟨ht, _⟩ := isHealthy_next.mp hh
  have ⟨hu, hd⟩ := hr ht
  have he := he ht
  refine ⟨uplink_next.mpr ⟨hu, ?_⟩, downlink_next.mpr ⟨hd, ?_, ?_⟩⟩
  case refine_1 =>
    rintro rfl
    exact he trivial
  case refine_2 =>
    rintro dgram sent rfl
    exact Nat.not_lt.mp he
  case refine_3 =>
    rintro r rfl
    cases (isHealthy_iff.mp ht).symm.trans hp

theorem not_running_next (hh : t.isHealthy) (he : EndsPump e) : ¬Running (t.next e).1 := by
  intro hr
  cases e
  case localRecvFails =>
    have ⟨hu, _⟩ := hr (isHealthy_next.mpr ⟨hh, rfl⟩)
    exact (uplink_next.mp hu).2 rfl
  case relayRecv dgram sent =>
    have ⟨_, hd⟩ := hr (isHealthy_next.mpr ⟨hh, rfl⟩)
    exact Nat.not_lt.mpr ((downlink_next.mp hd).2.1 dgram sent rfl) he
  all_goals exact he

section Death

-- A death is only recorded of a connection that is closed.
theorem firstDeath_next (hp : t.Possible e) (hd : t.firstDeath.isSome → ¬t.isHealthy)
    (hs : (t.next e).1.firstDeath.isSome) : ¬(t.next e).1.isHealthy := by
  intro hh
  have hh := (isHealthy_next.mp hh).1
  have hn : t.firstDeath = none := Option.not_isSome_iff_eq_none.mp fun hf => hd hf hh
  have hc := isHealthy_iff.mp hh
  cases e
  case localRecv data src sent =>
    have hp : ∀ r, sent ≠ .error (.connectionLost r) := by
      rintro r rfl
      cases hc.symm.trans hp
    simp only [next, pumpUp] at hs
    (repeat' split at hs) <;> simp_all
  case relayRecvFails r => cases hc.symm.trans hp
  all_goals
    simp only [next, pumpDown] at hs
    (repeat' split at hs) <;> simp_all

-- A transport is healthy as long as it has not died, which is how the driver sees it.
theorem deathReason_eq_none_iff (r : Run Step (start hint) h t) :
    t.deathReason = none ↔ t.isHealthy := by
  have hd : t.firstDeath.isSome → ¬t.isHealthy := by
    induction r
    case start => nofun
    case step hs ih =>
      obtain ⟨hp, rfl⟩ := hs
      exact firstDeath_next hp ih
  rw [deathReason, Option.or_eq_none_iff, Option.map_eq_none_iff, isHealthy_iff]
  refine ⟨And.right, fun hc => ⟨?_, hc⟩⟩
  exact Option.not_isSome_iff_eq_none.mp fun hf => hd hf (isHealthy_iff.mpr hc)

end Death

-- A transport that says that it is healthy has both its pumps and carries what comes to it in those
-- runs, and only in those, in which neither socket ends a pump while the connection is open.
theorem healthy_carries_iff (r : Run Step (start hint) h t) :
    ((Run.Along (fun _ t e => Running t ∧ Carries t e) h) ∧ Running t) ↔
      Run.Along (fun _ t e => t.isHealthy → ¬EndsPump e) h := by
  induction r
  case start => exact iff_of_true ⟨trivial, fun _ => ⟨rfl, rfl⟩⟩ trivial
  case step t e t' r hs ih =>
    obtain ⟨hp, rfl⟩ := hs
    constructor
    case mp =>
      intro ⟨⟨⟨hr, _⟩, ha⟩, hr'⟩
      exact ⟨fun hh he => not_running_next hh he hr', ih.mp ⟨ha, hr⟩⟩
    case mpr =>
      intro ⟨he, ha⟩
      have ⟨ha, hr⟩ := ih.mpr ha
      exact ⟨⟨⟨hr, carries_of_running hr e⟩, ha⟩, running_next hp hr he⟩

section Example

def loopback : SocketAddr :=
  .localhost 51820

-- After one short datagram nothing comes through any more, and the transport is still healthy.
def shortThenWhole : List Event :=
  [.relayRecv (List.replicate 9 1) true, .relayRecv [1] true]

theorem healthy_but_silent :
    let run := Run.trace (fun t e => (next t e).1) (start (some loopback)) shortThenWhole
    Run Step (start (some loopback)) run.1 run.2 ∧ run.2.isHealthy = true ∧ run.2.downlink = false ∧
      (run.1.head?.map fun (t, e) => (t.next e).2) = some none := by
  refine ⟨?_, rfl, rfl, rfl⟩
  exact (Run.start.step ⟨trivial, rfl⟩).step ⟨trivial, rfl⟩

-- Both directions are in use until the connection is closed, and what comes after that is of no
-- account.
def untilClosed : List Event :=
  [.relayRecv [1] true, .relayRecvFails .timedOut, .close .timedOut, .relayRecv (List.replicate 9 1) true,
    .localRecv [2] loopback (.ok ())]

theorem healthy_carries_untilClosed :
    let run := Run.trace (fun t e => (next t e).1) (start none) untilClosed
    run.1.map (fun x => (x.1.next x.2).2) =
      [none, none, none, some (.toLocal [1] loopback), some (.toRelay [2])] ∧
    Run.Along (fun _ t e => Running t ∧ Carries t e) run.1 ∧ Running run.2 := by
  intro run
  have r : Run Step (start none) run.1 run.2 :=
    ((((Run.start.step ⟨trivial, rfl⟩).step ⟨trivial, rfl⟩).step ⟨trivial, rfl⟩).step
      ⟨rfl, rfl⟩).step ⟨trivial, rfl⟩
  have whole : ¬ EndsPump (.relayRecv (List.replicate 9 1) true) := by
    change ¬ 9 < 8
    decide
  refine ⟨by decide, (healthy_carries_iff r).mpr ⟨?_, ?_, ?_, ?_, ?_, trivial⟩⟩
  case refine_1 => exact fun hh => absurd hh (by decide)
  case refine_2 => exact fun hh => absurd hh (by decide)
  case refine_3 => exact fun _ => id
  case refine_4 => exact fun _ => whole
  case refine_5 => exact fun _ => id

end Example
end Gateway.RelayTransport
