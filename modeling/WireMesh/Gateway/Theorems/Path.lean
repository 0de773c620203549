import WireMesh.Lib.Run
import WireMesh.Gateway.Path

-- The spells of a path: how a path gets into a state and out of it, and how long it stays.
namespace Gateway.Path

inductive Event
  | handshake (now : Nat) (rxCorroborated : Bool)
  | inbound (now : Nat)
  | tick (now : Nat) (relayAvailable : Bool)
deriving DecidableEq

def Event.now : Event → Nat
  | handshake now _ => now
  | inbound now     => now
  | tick now _      => now

def Event.corroborated : Event → Bool
  | handshake _ rxCorroborated => rxCorroborated
  | _                          => false

def on (p : Path) : Event → Path × Option PathAction
  | .handshake now rxCorroborated => (p.onHandshake now rxCorroborated, none)
  | .inbound now                  => (p.onAuthenticatedInbound now, none)
  | .tick now relayAvailable      => p.tick now relayAvailable

abbrev Step (p : Path) (e : Event) (p' : Path) : Prop :=
  p' = (p.on e).1

-- The part of a path that tells its spells.
structure Same (p p' : Path) : Prop where
  state             : p'.state = p.state
  backoff           : p'.backoff = p.backoff
  disconnectedSince : p'.disconnectedSince = p.disconnectedSince
  relayedProbeLast  : p'.relayedProbeLast = p.relayedProbeLast

-- What may come of an event.
inductive Goes (p : Path) : Event → Path × Option PathAction → Prop
  | phantom : Goes p (.handshake now false) (p, none)
  | recovered : Goes p (.handshake now true) (p.onHandshake now true, none)
  | stays : (∀ now rx, e ≠ .handshake now rx) → a = none ∨ a = some .retry → Same p p' →
      Goes p e (p', a)
  | degraded : p.state = .direct → Goes p (.tick now relay)
      ({ p with state := .degraded, degradedSince := some now }, some .retry)
  | gaveUp : p.state = .connecting ∨ p.state = .degraded →
      Goes p (.tick now relay) (p.giveUp now relay, some .markRelayNeeded)
  | probed : p.state = .relayed →
      (∀ last, p.relayedProbeLast = some last → last + PROBE_DIRECT_INTERVAL ≤ now) →
      Goes p (.tick now true) ({ p with relayedProbeLast := some now }, some .probeDirect)
  | died : p.state = .relayed → Goes p (.tick now false)
      ({ p with state := .disconnected, disconnectedSince := some now, relayedProbeLast := none },
        some .relayDied)
  | retried : p.state = .disconnected → p.disconnectedSince.getD now + p.backoff ≤ now →
      Goes p (.tick now relay)
        ({ p with
            state             := .connecting
            connectingSince   := now
            disconnectedSince := none
            backoff           := min (p.backoff * 2) BACKOFF_MAX },
          some .startPunch)

section Goes

variable {p p' : Path} {now since d : Nat} {relay : Bool}

theorem not_corroborated {e : Event} (h : ∀ now rx, e ≠ .handshake now rx) : e.corroborated = false := by
  cases e
  case handshake now rx => exact absurd rfl (h now rx)
  all_goals rfl

theorem Same.refl (p : Path) : Same p p :=
  ⟨rfl, rfl, rfl, rfl⟩

theorem add_le_of_le_sub (hd : 0 < d) (h : now - since ≥ d) : since + d ≤ now := by
  omega

theorem goes_tick_stays (ha : a = none ∨ a = some .retry) : Goes p (.tick now relay) (p, a) :=
  .stays nofun ha (.refl p)

theorem goes_tick (hb : 0 < p.backoff) : Goes p (.tick now relay) (p.tick now relay) := by
  rw [tick]
  split
  case h_1 hs =>
    split
    case isTrue  => exact .gaveUp (.inl hs)
    case isFalse => exact goes_tick_stays (.inl rfl)
  case h_2 hs =>
    split
    case h_1 =>
      split
      case isTrue  => exact .degraded hs
      case isFalse => exact goes_tick_stays (.inl rfl)
    case h_2 => exact goes_tick_stays (.inl rfl)
  case h_3 hs =>
    split
    case isTrue  => exact .gaveUp (.inr hs)
    case isFalse => exact goes_tick_stays (.inr rfl)
  case h_4 hs =>
    cases relay
    case false => exact .died hs
    case true =>
      rw [if_pos rfl]
      split
      case isTrue hd =>
        refine .probed hs fun last hl => add_le_of_le_sub (by decide) ?_
        simpa [hl] using hd
      case isFalse => exact goes_tick_stays (.inl rfl)
  case h_5 hs =>
    split
    case isTrue hd => exact .retried hs (add_le_of_le_sub hb hd)
    case isFalse   => exact goes_tick_stays (.inl rfl)

theorem goes_on (hb : 0 < p.backoff) (e : Event) : Goes p e (p.on e) := by
  match e with
  | .handshake now false => exact .phantom
  | .handshake now true  => exact .recovered
  | .inbound now         => exact .stays nofun (.inl rfl) ⟨rfl, rfl, rfl, rfl⟩
  | .tick now relay      => exact goes_tick hb

end Goes

section Spells

-- The disconnections since the last handshake that was corroborated.
def spells : List (Path × Event) → Path → Nat
  | [], _           => 0
  | (p, e) :: h, p' =>
    if e.corroborated then 0
    else if p.state ≠ .disconnected ∧ p'.state = .disconnected then spells h p + 1
    else spells h p

-- When the path got into the state that it is in.
def entered : List (Path × Event) → Path → Option Nat
  | [], _           => none
  | (p, e) :: h, p' => if p'.state = p.state then entered h p else some e.now

-- When a relayed path became so and has asked for probes since, the latest first.
def probes : List (Path × Event) → Path → List Nat
  | [], _           => []
  | (p, e) :: h, p' =>
    if p'.state ≠ .relayed then []
    else if p.state ≠ .relayed then [e.now]
    else if (p.on e).2 = some .probeDirect then e.now :: probes h p
    else probes h p

-- How long the spell lasts that `n` spells have gone before.
def backoffAfter (n : Nat) : Nat :=
  min (seconds (2 * 2 ^ n)) (seconds 30)

theorem min_backoffAfter : min (backoffAfter n * 2) BACKOFF_MAX = backoffAfter (n + 1) := by
  simp only [backoffAfter, BACKOFF_MAX, seconds, Nat.pow_succ]
  omega

theorem backoffAfter_pos : 0 < backoffAfter n := by
  have := Nat.two_pow_pos n
  simp only [backoffAfter, seconds]
  omega

abbrev Apart (times : List Nat) : Prop :=
  times.Pairwise fun later earlier => earlier + PROBE_DIRECT_INTERVAL ≤ later

end Spells

section Timed

variable {p p' : Path} {e : Event} {h : List (Path × Event)}

-- What the fields of a path have to do with its history.
structure Timed (h : List (Path × Event)) (p : Path) : Prop where
  backoff : ∃ n, spells h p = n + (if p.state = .disconnected then 1 else 0) ∧
    p.backoff = backoffAfter n
  disconnected : p.state = .disconnected →
    ∃ since, entered h p = some since ∧ p.disconnectedSince = some since
  relayed : p.state = .relayed → ∃ last, (probes h p).head? = some last ∧
    p.relayedProbeLast = some last
  apart : Apart (probes h p)

theorem Timed.backoff_pos (ht : Timed h p) : 0 < p.backoff :=
  have ⟨_, _, hb⟩ := ht.backoff
  hb ▸ backoffAfter_pos

theorem timed_new : Timed [] (new now) :=
  ⟨⟨0, rfl, rfl⟩, nofun, nofun, .nil⟩

theorem Timed.same (ht : Timed h p) (hs : Same p p') (he : e.corroborated = false)
    (ha : (p.on e).2 ≠ some .probeDirect) : Timed ((p, e) :: h) p' := by
  have hn : spells ((p, e) :: h) p' = spells h p := by
    simp only [spells, he, hs.state]
    grind
  have hi : entered ((p, e) :: h) p' = entered h p := by
    rw [entered, if_pos hs.state]
  refine ⟨?_, ?_, fun hr => ?_, ?_⟩
  case refine_1 => rw [hn, hs.state, hs.backoff]; exact ht.backoff
  case refine_2 => rw [hi, hs.state, hs.disconnectedSince]; exact ht.disconnected
  case refine_3 =>
    rw [hs.state] at hr
    rw [probes, hs.state, if_neg (not_not_intro hr), if_neg (not_not_intro hr), if_neg ha,
      hs.relayedProbeLast]
    exact ht.relayed hr
  case refine_4 =>
    rw [probes, if_neg ha]
    split
    case isTrue  => exact .nil
    case isFalse =>
      split
      case isTrue  => exact List.pairwise_singleton ..
      case isFalse => exact ht.apart

theorem Timed.recovered (p : Path) (h : List (Path × Event)) (now : Nat) :
    Timed ((p, .handshake now true) :: h) (p.onHandshake now true) :=
  ⟨⟨0, rfl, rfl⟩, nofun, nofun, .nil⟩

theorem Timed.degraded (ht : Timed h p) (hs : p.state = .direct) : Timed ((p, .tick now relay) :: h)
    { p with state := .degraded, degradedSince := some now } := by
  have ⟨n, hn, hb⟩ := ht.backoff
  refine ⟨⟨n, ?_, hb⟩, nofun, nofun, .nil⟩
  simp [spells, Event.corroborated, hs, hn]

theorem Timed.gaveUp (ht : Timed h p) (hs : p.state = .connecting ∨ p.state = .degraded) :
    Timed ((p, .tick now relay) :: h) (p.giveUp now relay) := by
  have ⟨n, hn, hb⟩ := ht.backoff
  have hd : p.state ≠ .disconnected := by
    cases hs <;> simp [*]
  have hr : p.state ≠ .relayed := by
    cases hs <;> simp [*]
  rw [if_neg hd] at hn
  cases relay
  case false =>
    refine ⟨⟨n, ?_, hb⟩, fun _ => ⟨now, ?_, rfl⟩, nofun, .nil⟩
    case refine_1 => simp [spells, giveUp, Event.corroborated, hd, hn]
    case refine_2 => simp [entered, giveUp, Ne.symm hd, Event.now]
  case true =>
    have hp : probes ((p, .tick now true) :: h) (p.giveUp now true) = [now] := by
      simp [probes, giveUp, hr, Event.now]
    refine ⟨⟨n, ?_, hb⟩, nofun, fun _ => ⟨now, ?_, rfl⟩, ?_⟩
    case refine_1 => simp [spells, giveUp, Event.corroborated, hn]
    case refine_2 => rw [hp]; rfl
    case refine_3 => rw [hp]; exact List.pairwise_singleton ..

theorem Apart.cons (h : Apart times) (hl : times.head? = some last)
    (hn : last + PROBE_DIRECT_INTERVAL ≤ now) : Apart (now :: times) := by
  match times, h, hl with
  | _ :: times, h, rfl =>
    refine List.pairwise_cons.mpr ⟨fun t ht => ?_, h⟩
    cases List.mem_cons.mp ht
    case inl ht => exact ht ▸ hn
    case inr ht =>
      have := (List.pairwise_cons.mp h).1 t ht
      omega

theorem Timed.probed (ht : Timed h p) (hs : p.state = .relayed)
    (hd : ∀ last, p.relayedProbeLast = some last → last + PROBE_DIRECT_INTERVAL ≤ now)
    (ha : (p.on (.tick now true)).2 = some .probeDirect) :
    Timed ((p, .tick now true) :: h) { p with relayedProbeLast := some now } := by
  have ⟨n, hn, hb⟩ := ht.backoff
  have ⟨last, hl, hp⟩ := ht.relayed hs
  have hc : probes ((p, .tick now true) :: h) { p with relayedProbeLast := some now } =
      now :: probes h p := by
    simp [probes, hs, ha, Event.now]
  refine ⟨⟨n, ?_, hb⟩, fun hd => ?_, fun _ => ⟨now, ?_, rfl⟩, ?_⟩
  case refine_1 => simp [spells, Event.corroborated, hs, hn]
  case refine_2 => simp [hs] at hd
  case refine_3 => rw [hc]; rfl
  case refine_4 => exact hc ▸ Apart.cons ht.apart hl (hd last hp)

theorem Timed.died (ht : Timed h p) (hs : p.state = .relayed) : Timed ((p, .tick now false) :: h)
    { p with state := .disconnected, disconnectedSince := some now, relayedProbeLast := none } := by
  have ⟨n, hn, hb⟩ := ht.backoff
  refine ⟨⟨n, ?_, hb⟩, fun _ => ⟨now, ?_, rfl⟩, nofun, .nil⟩
  case refine_1 => simp [spells, Event.corroborated, hs, hn]
  case refine_2 => simp [entered, hs, Event.now]

theorem Timed.retried (ht : Timed h p) (hs : p.state = .disconnected) :
    Timed ((p, .tick now relay) :: h)
      { p with
          state             := .connecting
          connectingSince   := now
          disconnectedSince := none
          backoff           := min (p.backoff * 2) BACKOFF_MAX } := by
  have ⟨n, hn, hb⟩ := ht.backoff
  refine ⟨⟨n + 1, ?_, ?_⟩, nofun, nofun, .nil⟩
  case refine_1 => simp [spells, Event.corroborated, hs, hn]
  case refine_2 => rw [hb, min_backoffAfter]

theorem Timed.goes (ht : Timed h p) (hs : Step p e p') : Goes p e (p', (p.on e).2) :=
  hs ▸ goes_on ht.backoff_pos e

theorem Timed.goes_step (ht : Timed h p) (hg : Goes p e (p', a)) (ha : (p.on e).2 = a) :
    Timed ((p, e) :: h) p' := by
  cases hg
  case phantom        => exact ht.same (.refl p) rfl nofun
  case recovered      => exact .recovered ..
  case stays he hs hn =>
    refine ht.same hs (not_corroborated he) (ha ▸ ?_)
    cases hn <;> simp [*]
  case degraded hs    => exact ht.degraded hs
  case gaveUp hs      => exact ht.gaveUp hs
  case probed hs hd   => exact ht.probed hs hd ha
  case died hs        => exact ht.died hs
  case retried hs _   => exact ht.retried hs

theorem timed_run (r : Run Step (new t₀) h p) : Timed h p :=
  r.invariant timed_new fun _ ht hs => ht.goes_step (ht.goes hs) rfl

end Timed

section Lawful

variable {p p' : Path} {e : Event} {h : List (Path × Event)}

-- How a path may change: into the direct state only by evidence, out of the relayed state only by
-- evidence or with its relay, and out of a disconnection only by evidence or when its time is over.
structure Lawful (h : List (Path × Event)) (p : Path) (e : Event) (p' : Path) : Prop where
  direct : p'.state = .direct → p.state ≠ .direct → e.corroborated
  phantom : ∀ {now}, e = .handshake now false → p' = p
  relayed : p.state = .relayed → p'.state ≠ .relayed →
    e.corroborated ∨
      (∃ now, e = .tick now false) ∧ p'.state = .disconnected ∧ (p.on e).2 = some .relayDied
  died : (p.on e).2 = some .relayDied → p.state = .relayed ∧ p'.state = .disconnected
  disconnected : p.state = .disconnected → p'.state ≠ .disconnected →
    e.corroborated ∨ ∃ n since, spells h p = n + 1 ∧ entered h p = some since ∧
      since + min (seconds (2 * 2 ^ n)) (seconds 30) ≤ e.now
  probe : (p.on e).2 = some .probeDirect → p.state = .relayed ∧ p'.state = .relayed

theorem lawful_of_same (hs : p'.state = p.state) (hp : ∀ {now}, e = .handshake now false → p' = p)
    (ha : (p.on e).2 = none ∨ (p.on e).2 = some .retry) : Lawful h p e p' where
  direct hd hn       := absurd (hs ▸ hd) hn
  phantom            := hp
  relayed hr hn      := absurd (hs ▸ hr) hn
  died ha'           := by simp [ha'] at ha
  disconnected hd hn := absurd (hs ▸ hd) hn
  probe ha'          := by simp [ha'] at ha

theorem Timed.lawful (ht : Timed h p) (hg : Goes p e (p', a)) (ha : (p.on e).2 = a) :
    Lawful h p e p' := by
  cases hg
  case phantom        => exact lawful_of_same rfl (fun _ => rfl) (.inl ha)
  case stays he hs hn => exact lawful_of_same hs.state (fun h => absurd h (he _ _)) (ha ▸ hn)
  case recovered =>
    exact ⟨fun _ _ => rfl, nofun, fun _ _ => .inl rfl, nofun, fun _ _ => .inl rfl, nofun⟩
  case degraded hs =>
    refine ⟨nofun, nofun, fun hr => ?_, fun h => ?_, fun hd => ?_, fun h => ?_⟩
    all_goals simp_all
  case gaveUp now relay hs =>
    have hp : (p.giveUp now relay).state ≠ .direct := by
      cases relay <;> nofun
    refine ⟨fun hd => absurd hd hp, nofun, fun hr => ?_, fun h => ?_, fun hd => ?_, fun h => ?_⟩
    all_goals simp_all
  case probed hs _ =>
    refine ⟨fun hd => ?_, nofun, fun hr => ?_, fun h => ?_, fun hd => ?_, fun _ => ⟨hs, hs⟩⟩
    all_goals simp_all
  case died now hs =>
    refine ⟨nofun, nofun, fun _ _ => .inr ⟨⟨now, rfl⟩, rfl, ha⟩, fun _ => ⟨hs, rfl⟩, ?_, ?_⟩
    all_goals simp_all
  case retried now relay hs hb =>
    have ⟨n, hn, hb'⟩ := ht.backoff
    have ⟨since, hi, hd⟩ := ht.disconnected hs
    rw [hs, if_pos rfl] at hn
    rw [hd, hb'] at hb
    refine ⟨nofun, nofun, ?_, ?_, fun _ _ => .inr ⟨n, since, hn, hi, hb⟩, ?_⟩
    all_goals simp_all

-- This holds of any times. That they do not decrease is not needed, since a spell only ends, and a
-- probe is only asked for, at a time that is late enough after the one that was taken down.
theorem changes_lawful (r : Run Step (new t₀) h p) : Run.Each Lawful h p ∧ Apart (probes h p) := by
  refine ⟨?_, (timed_run r).apart⟩
  refine r.invariant (I := Run.Each Lawful) trivial fun r ih hs => ⟨?_, ih⟩
  have ht := timed_run r
  exact ht.lawful (ht.goes hs) rfl

end Lawful

-- The second disconnection lasts four seconds.
theorem changes_lawful_second :
    let events : List Event :=
      [.tick (seconds 26) false, .tick (seconds 22) false, .tick (seconds 12) false,
        .tick (seconds 10) false]
    Run.Each Lawful (Run.trace (fun p e => (on p e).1) (new 0) events).1
      (Run.trace (fun p e => (on p e).1) (new 0) events).2 := by
  intro events
  exact (changes_lawful (Run.run_trace (new 0) events)).1

end Gateway.Path
