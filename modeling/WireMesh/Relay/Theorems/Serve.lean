import WireMesh.Relay.Serve

-- What one step of a relay can do, and what holds of its connections after any number of steps.
namespace Relay

open Policy (Sha256)

section

variable [Sha256]

-- The registration of a task that has a slot.
def Task.admitted : Task → Option Registration
  | acking r | serving r | lookingUp r _ | sending r _ _ | leaving r => some r
  | _                                                                => none

-- The certificate's name that a task goes by.
def Task.identity : Task → Option String
  | reading certIdentity => some certIdentity
  | registering r        => some r.certIdentity
  | task                 => task.admitted.map (·.certIdentity)

-- How far a task has come.
def Task.phase : Task → Nat
  | reading _     => 0
  | registering _ => 1
  | ended         => 3
  | _             => 2

namespace State

-- All that a step can do.
inductive Moves (s : State) : Event → State → Prop
  | accept {stableId : Nat} {identity : PeerIdentity} {task : Task} : s.fresh stableId →
      (∀ certIdentity, task = .reading certIdentity →
        identityFromClientCert identity = some certIdentity) →
      (task = .ended ∨ ∃ certIdentity, task = .reading certIdentity) →
      Moves s (.accept stableId identity) { s with conns := s.conns ++ [⟨stableId, identity, task⟩] }
  | read {payload : Option Bytes} : s.conns[i]? = some c → c.task = .reading certIdentity →
      Moves s (.readRegistration i payload) (s.goTo i (Relay.readRegistration certIdentity payload))
  | reject {r : Registration} : s.conns[i]? = some c → c.task = .registering r →
      s.registry.lookup r.key = some old → (old.owner, old.peer) ≠ (r.certIdentity, r.peerIdentity) →
      Moves s (.register i) (s.goTo i .ended)
  | register {r : Registration} : s.conns[i]? = some c → c.task = .registering r →
      (∀ old, s.registry.lookup r.key = some old →
        (old.owner, old.peer) = (r.certIdentity, r.peerIdentity)) →
      Moves s (.register i) { s.goTo i (.acking r) with
        registry := s.registry.insert r.key ⟨i, r.certIdentity, r.peerIdentity⟩ }
  | ack {r : Registration} {ok : Bool} {task : Task} : s.conns[i]? = some c → c.task = .acking r →
      task = .serving r ∨ task = .leaving r → Moves s (.ackRegistration i ok) (s.goTo i task)
  | datagram {r : Registration} {dgram : Option Bytes} : s.conns[i]? = some c →
      c.task = .serving r → Moves s (.readDatagram i dgram) (s.goTo i (Relay.readDatagram r dgram))
  | lookup {r : Registration} {dgram : Bytes} : s.conns[i]? = some c →
      c.task = .lookingUp r dgram → s.registry.lookup (dgram.take 8) = some entry →
      Moves s (.lookup i) (s.goTo i (.sending r dgram entry.conn))
  | unknown {r : Registration} {dgram : Bytes} : s.conns[i]? = some c →
      c.task = .lookingUp r dgram → s.registry.lookup (dgram.take 8) = none →
      Moves s (.lookup i) (s.goTo i (.serving r))
  | send {r : Registration} {dgram : Bytes} {peer : ConnId} {ok : Bool} : s.conns[i]? = some c →
      c.task = .sending r dgram peer → Moves s (.sendDatagram i ok) (s.goTo i (.serving r))
  | remove {r : Registration} : s.conns[i]? = some c → c.task = .leaving r →
      s.registry.lookup r.key = some entry → s.conns[entry.conn]? = some d →
      d.stableId = c.stableId →
      Moves s (.removeIfOwner i) { s.goTo i .ended with registry := s.registry.erase r.key }
  | leave {r : Registration} : s.conns[i]? = some c → c.task = .leaving r →
      (∀ entry d, s.registry.lookup r.key = some entry → s.conns[entry.conn]? = some d →
        d.stableId ≠ c.stableId) →
      Moves s (.removeIfOwner i) (s.goTo i .ended)

variable {s t : State} {e : Event} {i j : ConnId} {c d : Connection}

omit [Sha256] in
theorem conns_goTo (task : Task) : (s.goTo i task).conns[j]? =
    if i = j then s.conns[j]?.map fun c => { c with task := task } else s.conns[j]? := by
  rw [goTo, List.getElem?_modify]
  split
  case isTrue  => rfl
  case isFalse => simp

-- Only the connection that a step is about goes on.
omit [Sha256] in
theorem conns_goTo_eq_some {task : Task} (hd : (s.goTo i task).conns[j]? = some d) :
    s.conns[j]? = some d ∧ j ≠ i ∨
      j = i ∧ ∃ c, s.conns[i]? = some c ∧ d = { c with task := task } := by
  rw [conns_goTo] at hd
  split at hd
  case isTrue he =>
    subst he
    have ⟨c, hc, he⟩ := Option.map_eq_some_iff.mp hd
    exact .inr ⟨rfl, c, hc, he.symm⟩
  case isFalse hn => exact .inl ⟨hd, Ne.symm hn⟩

theorem moves_register {r : Registration} (hc : s.conns[i]? = some c)
    (ht : c.task = .registering r) : Moves s (.register i) (s.register i r) := by
  simp only [register, registerDecision]
  cases hl : s.registry.lookup r.key
  case none => exact .register hc ht fun old ho => by cases hl.symm.trans ho
  case some old =>
    by_cases he : (old.owner, old.peer) = (r.certIdentity, r.peerIdentity)
    case pos =>
      have ⟨ho, hp⟩ := Prod.mk.inj he
      simp only [Option.map_some, ho, hp, ne_eq, not_true_eq_false, if_false, if_true]
      refine .register hc ht fun old' hl' => ?_
      cases hl.symm.trans hl'
      exact he
    case neg =>
      have rejected : Moves s (.register i) (s.goTo i .ended) := .reject hc ht hl he
      by_cases ho : old.owner = r.certIdentity
      case neg => simpa [ho] using rejected
      case pos =>
        have hp : old.peer ≠ r.peerIdentity := fun hp => he (by rw [ho, hp])
        simpa [ho, hp] using rejected

theorem moves_removeIfOwner {r : Registration} (hc : s.conns[i]? = some c)
    (ht : c.task = .leaving r) :
    Moves s (.removeIfOwner i) ((s.removeIfOwner r.key c.stableId).goTo i .ended) := by
  rw [removeIfOwner]
  split
  case isTrue hr =>
    have ⟨entry, hl, hr⟩ := (Option.any_eq_true ..).mp hr
    have ⟨d, hd, hs⟩ := (Option.any_eq_true ..).mp hr
    exact .remove hc ht hl hd (by simpa using hs)
  case isFalse hr =>
    refine .leave hc ht fun entry d hl hd hs => hr ?_
    simp [hl, hd, hs]

-- Every step is one of these.
theorem moves_of_step (hs : s.step e = some t) : Moves s e t := by
  cases e
  case accept stableId identity =>
    simp only [step] at hs
    split at hs
    case isFalse => cases hs
    case isTrue hf =>
      cases hs
      refine .accept hf (fun certIdentity ht => ?_) ?_
      all_goals cases hi : identityFromClientCert identity <;> simp_all
  all_goals
    simp only [step, Option.bind_eq_bind, Option.bind_eq_some_iff, Option.pure_def] at hs
    have ⟨c, hc, hs⟩ := hs
    split at hs
    case h_2 => cases hs
  -- Each of these waits in its own state, and goes on from there.
  case h_1 ht =>
    cases hs
    exact .read hc ht
  case h_1 ht =>
    cases hs
    exact moves_register hc ht
  case h_1 ok _ _ _ _ ht =>
    cases hs
    exact .ack hc ht (by cases ok <;> simp)
  case h_1 ht =>
    cases hs
    exact .datagram hc ht
  case h_1 r dgram ht =>
    cases hs
    cases hl : s.registry.lookup (dgram.take 8)
    case none => exact .unknown hc ht hl
    case some => exact .lookup hc ht hl
  case h_1 ht =>
    cases hs
    exact .send hc ht
  case h_1 ht =>
    cases hs
    exact moves_removeIfOwner hc ht

-- What all steps have in common that are not the first one of a connection.
structure Advances (s t : State) (i : ConnId) (c : Connection) (task : Task) : Prop where
  conn : s.conns[i]? = some c
  live : c.task ≠ .ended
  conns : t.conns = (s.goTo i task).conns
  forward : c.task.phase ≤ task.phase
  identity : ∀ x, task.identity = some x → c.task.identity = some x
  sends : ∀ r dgram peer, task = .sending r dgram peer →
    ∃ key entry, s.registry.lookup key = some entry ∧ entry.conn = peer
  slots : ∀ key entry, t.registry.lookup key = some entry →
    s.registry.lookup key = some entry ∨ entry.conn = i

omit [Sha256] in
theorem identity_readRegistration {payload : Option Bytes}
    (hx : (Relay.readRegistration certIdentity payload).identity = some x) : x = certIdentity := by
  unfold Relay.readRegistration at hx
  repeat' split at hx
  all_goals simp_all [Task.identity, Task.admitted]

theorem admitted_readDatagram (r : Registration) (dgram : Option Bytes) :
    (Relay.readDatagram r dgram).admitted = some r := by
  unfold Relay.readDatagram
  repeat' split
  all_goals rfl

omit [Sha256] in
theorem identity_of_admitted {task : Task} (ha : task.admitted = some r) :
    task.identity = some r.certIdentity := by
  cases task
  case reading | registering | ended => cases ha
  all_goals simp [Task.identity, ha]

omit [Sha256] in
theorem ne_ended_of_identity {task : Task} (hi : task.identity = some x) : task ≠ .ended := by
  rintro rfl
  cases hi

omit [Sha256] in
theorem phase_of_admitted {task : Task} (ha : task.admitted = some r) : task.phase = 2 := by
  cases task
  case reading | registering | ended => cases ha
  all_goals rfl

-- A task that has its slot keeps its registration up to its end.
omit [Sha256] in
theorem advances_admitted {r : Registration} {task : Task} (hc : s.conns[i]? = some c)
    (ha : c.task.admitted = some r) (ht : task.admitted = some r ∨ task = .ended)
    (hs : ∀ r dgram peer, task = .sending r dgram peer →
      ∃ key entry, s.registry.lookup key = some entry ∧ entry.conn = peer) :
    Advances s (s.goTo i task) i c task where
  conn       := hc
  live       := ne_ended_of_identity (identity_of_admitted ha)
  conns      := rfl
  forward    := by
    rw [phase_of_admitted ha]
    cases ht
    case inl ht => rw [phase_of_admitted ht]
    case inr ht => rw [ht]; decide
  identity x := by
    intro hx
    cases ht
    case inl ht => rwa [identity_of_admitted ha, ← identity_of_admitted ht]
    case inr ht => cases ht ▸ hx
  sends      := hs
  slots _ _  := .inl

theorem Moves.advances (m : Moves s e t) :
    (∃ stableId identity, e = .accept stableId identity) ∨ ∃ i c task, Advances s t i c task := by
  cases m
  case accept => exact .inl ⟨_, _, rfl⟩
  all_goals right
  case read i c certIdentity payload hc ht =>
    refine ⟨_, _, _, hc, by simp [ht], rfl, by simp [ht, Task.phase], fun x hx => ?_,
      fun r dgram peer hs => ?_, fun _ _ => .inl⟩
    case refine_1 => rw [ht, identity_readRegistration hx]; rfl
    case refine_2 =>
      unfold Relay.readRegistration at hs
      repeat' split at hs
      all_goals cases hs
  case reject hc ht hl hn =>
    exact ⟨_, _, _, hc, by simp [ht], rfl, by simp [ht, Task.phase], nofun, nofun, fun _ _ => .inl⟩
  case register r hc ht hn =>
    refine ⟨_, _, _, hc, by simp [ht], rfl, by simp [ht, Task.phase], fun x hx => ht ▸ hx, nofun,
      fun key entry hl => ?_⟩
    rw [HashMap.lookup_insert] at hl
    split at hl
    case isTrue  => exact .inr (Option.some.inj hl ▸ rfl)
    case isFalse => exact .inl hl
  case ack i c r ok task hc ht hk =>
    refine ⟨i, c, task, advances_admitted (r := r) hc (by rw [ht]; rfl) (.inl ?_) fun _ _ _ hs => ?_⟩
    case refine_1 => cases hk <;> simp [*, Task.admitted]
    case refine_2 => cases hk <;> simp_all
  case datagram i c r dgram hc ht =>
    refine ⟨i, c, _, advances_admitted hc (by rw [ht]; rfl) (.inl (admitted_readDatagram r dgram))
      fun _ _ _ hs => ?_⟩
    unfold Relay.readDatagram at hs
    repeat' split at hs
    all_goals cases hs
  case lookup i c entry r dgram hc ht hl =>
    refine ⟨i, c, .sending r dgram entry.conn, advances_admitted (r := r) hc (by rw [ht]; rfl)
      (.inl rfl) fun _ _ _ hs => ?_⟩
    cases hs
    exact ⟨_, _, hl, rfl⟩
  case unknown r dgram hc ht hl =>
    exact ⟨_, _, _, advances_admitted (r := r) hc (by rw [ht]; rfl) (.inl rfl) nofun⟩
  case send r dgram peer ok hc ht =>
    exact ⟨_, _, _, advances_admitted (r := r) hc (by rw [ht]; rfl) (.inl rfl) nofun⟩
  case remove r hc ht hl hd hs =>
    refine ⟨_, _, _, hc, by simp [ht], rfl, by simp [ht, Task.phase], nofun, nofun,
      fun key entry hl => ?_⟩
    rw [HashMap.lookup_erase] at hl
    split at hl
    case isTrue  => cases hl
    case isFalse => exact .inl hl
  case leave r hc ht hn =>
    exact ⟨_, _, _, advances_admitted (r := r) hc (by rw [ht]; rfl) (.inr rfl) nofun⟩

section Held

-- Why a connection is held.
inductive Held (s : State) (i : ConnId) : Prop
  | task {c : Connection} : s.conns[i]? = some c → c.task ≠ .ended → Held s i
  | slot : s.registry.lookup key = some entry → entry.conn = i → Held s i
  | send {k : ConnId} {c : Connection} : s.conns[k]? = some c → c.task = .sending r dgram i → Held s i

omit [Sha256] in
theorem held_iff : s.held i ↔ Held s i := by
  simp only [held, Bool.or_eq_true, Option.any_eq_true, List.any_eq_true]
  constructor
  case mp =>
    rintro ((⟨c, hc, ht⟩ | ⟨⟨key, entry⟩, he, hi⟩) | ⟨c, hc, ht⟩)
    case inl.inl => exact .task hc (by simpa using ht)
    case inl.inr => exact .slot (AList.mem_lookup_iff.mpr he) (by simpa using hi)
    case inr =>
      have ⟨j, hj⟩ := List.getElem?_of_mem hc
      split at ht
      case h_1 hs => exact .send hj (hs.trans (by rw [of_decide_eq_true ht]))
      case h_2    => cases ht
  case mpr =>
    intro h
    cases h
    case task c hc ht   => exact .inl (.inl ⟨c, hc, by simpa using ht⟩)
    case slot hl he     => exact .inl (.inr ⟨_, AList.mem_lookup_iff.mp hl, by simpa using he⟩)
    case send c hc ht   => exact .inr ⟨c, List.mem_of_getElem? hc, by simp [ht]⟩

omit [Sha256] in
theorem Advances.old (a : Advances s t i c task) (hd : t.conns[j]? = some d) :
    ∃ b, s.conns[j]? = some b ∧ b.stableId = d.stableId ∧ b.identity = d.identity ∧
      (d = b ∧ j ≠ i ∨ j = i ∧ b = c ∧ d.task = task) := by
  cases conns_goTo_eq_some (a.conns ▸ hd)
  case inl h => exact ⟨d, h.1, rfl, rfl, .inl ⟨rfl, h.2⟩⟩
  case inr h =>
    have ⟨hj, b, hb, he⟩ := h
    cases a.conn.symm.trans hb
    exact ⟨c, hj ▸ hb, by rw [he], by rw [he], .inr ⟨hj, rfl, by rw [he]⟩⟩

omit [Sha256] in
theorem Advances.goesOn (a : Advances s t i c task) (hd : s.conns[j]? = some d) :
    ∃ d', t.conns[j]? = some d' ∧ d'.identity = d.identity ∧ d.task.phase ≤ d'.task.phase := by
  rw [a.conns, conns_goTo, hd]
  split
  case isTrue he =>
    cases a.conn.symm.trans (he ▸ hd)
    exact ⟨_, rfl, rfl, a.forward⟩
  case isFalse => exact ⟨d, rfl, rfl, Nat.le_refl _⟩

-- A connection stays what it is, and its task never goes back.
theorem Moves.goesOn (m : Moves s e t) (hd : s.conns[j]? = some d) :
    ∃ d', t.conns[j]? = some d' ∧ d'.identity = d.identity ∧ d.task.phase ≤ d'.task.phase := by
  cases m.advances
  case inr h =>
    have ⟨_, _, _, a⟩ := h
    exact a.goesOn hd
  case inl h =>
    have ⟨_, _, he⟩ := h
    subst he
    cases m
    case accept =>
      have hj := (List.getElem?_eq_some_iff.mp hd).1
      exact ⟨d, (List.getElem?_append_left hj).trans hd, rfl, Nat.le_refl _⟩

-- Nothing is held that was not held before.
omit [Sha256] in
theorem Advances.held (a : Advances s t i c task) (hh : Held t j) : Held s j := by
  cases hh
  case task d hd ht =>
    have ⟨b, hb, _, _, h⟩ := a.old hd
    cases h
    case inl h => exact .task hb (h.1 ▸ ht)
    case inr h => exact .task (h.1 ▸ a.conn) a.live
  case slot hl he =>
    cases a.slots _ _ hl
    case inl hl => exact .slot hl he
    case inr hi => exact .task (he ▸ hi ▸ a.conn) a.live
  case send r dgram k d hd ht =>
    have ⟨b, hb, _, _, h⟩ := a.old hd
    cases h
    case inl h => exact .send hb (h.1 ▸ ht)
    case inr h =>
      have ⟨key, entry, hl, he⟩ := a.sends r dgram j (h.2.2 ▸ ht)
      exact .slot hl he

omit [Sha256] in
theorem fresh_iff : s.fresh stableId ↔
    ∀ i c, s.conns[i]? = some c → Held s i → c.stableId ≠ stableId := by
  simp only [fresh, List.all_eq_true, Prod.forall, List.mem_zipIdx_iff_getElem?, Bool.or_eq_true,
    Bool.not_eq_true', decide_eq_true_eq, ← held_iff]
  constructor
  case mp  => exact fun h i c hc hh => (h c i hc).resolve_right (by simp [hh])
  case mpr => exact fun h c i hc => or_iff_not_imp_right.mpr fun hh => h i c hc (by simpa using hh)

-- Connections that are held can be told apart by their stable ids.
def Apart (s : State) : Prop :=
  ∀ i j c d, s.conns[i]? = some c → s.conns[j]? = some d → Held s i → Held s j →
    c.stableId = d.stableId → i = j

omit [Sha256] in
theorem held_of_accept {new : Connection} (hn : new.task = .ended ∨ ∃ x, new.task = .reading x)
    (hh : Held { s with conns := s.conns ++ [new] } j) (hj : j < s.conns.length) : Held s j := by
  cases hh
  case task c hc ht => exact .task (List.getElem?_append_left hj ▸ hc) ht
  case slot hl he   => exact .slot hl he
  case send k c hc ht =>
    by_cases hk : k < s.conns.length
    case pos => exact .send (List.getElem?_append_left hk ▸ hc) ht
    case neg =>
      simp only [List.getElem?_append_right (Nat.le_of_not_lt hk), List.getElem?_singleton] at hc
      split at hc
      case isTrue =>
        cases hc
        rcases hn with hn | ⟨_, hn⟩ <;> cases ht.symm.trans hn
      case isFalse => cases hc

omit [Sha256] in
theorem getElem?_accept {new : Connection} (hc : (s.conns ++ [new])[i]? = some c) :
    s.conns[i]? = some c ∧ i < s.conns.length ∨ i = s.conns.length ∧ c = new := by
  by_cases hi : i < s.conns.length
  case pos => exact .inl ⟨List.getElem?_append_left hi ▸ hc, hi⟩
  case neg =>
    rw [List.getElem?_append_right (Nat.le_of_not_lt hi), List.getElem?_singleton] at hc
    split at hc
    case isTrue hz =>
      have he := Nat.le_antisymm (Nat.sub_eq_zero_iff_le.mp hz) (Nat.le_of_not_lt hi)
      exact .inr ⟨he, (Option.some.inj hc).symm⟩
    case isFalse => cases hc

theorem Apart.moves (ha : Apart s) (m : Moves s e t) : Apart t := by
  intro i j c d hc hd hi hj hs
  cases m.advances
  case inr h =>
    have ⟨_, _, _, a⟩ := h
    have ⟨b, hb, hbs, _⟩ := a.old hc
    have ⟨b', hb', hbs', _⟩ := a.old hd
    exact ha i j b b' hb hb' (a.held hi) (a.held hj) (by rw [hbs, hs, hbs'])
  case inl h =>
    have ⟨_, _, he⟩ := h
    subst he
    cases m
    case accept hn hf _ =>
      have hf := fresh_iff.mp hf
      cases getElem?_accept hc <;> cases getElem?_accept hd
      case inl.inl hc hd =>
        exact ha i j c d hc.1 hd.1 (held_of_accept hn hi hc.2) (held_of_accept hn hj hd.2) hs
      case inl.inr hc hd =>
        rw [hd.2] at hs
        exact absurd hs (hf i c hc.1 (held_of_accept hn hi hc.2))
      case inr.inl hc hd =>
        rw [hc.2] at hs
        exact absurd hs.symm (hf j d hd.1 (held_of_accept hn hj hd.2))
      case inr.inr hc hd => rw [hc.1, hd.1]

end Held

variable {h : History}

theorem apart_run (run : Runs h s) : Apart s := by
  induction run
  case start        => exact fun i j c d hc => by simp at hc
  case step hs ih => exact ih.moves (moves_of_step hs)

-- Tasks go by the names in the certificates.
theorem identity_run (run : Runs h s) (hc : s.conns[i]? = some c)
    (hx : c.task.identity = some x) : identityFromClientCert c.identity = some x := by
  induction run generalizing i c x
  case start => simp at hc
  case step hs ih =>
    have m := moves_of_step hs
    cases m.advances
    case inr h =>
      have ⟨_, _, _, a⟩ := h
      have ⟨b, hb, _, hi, h⟩ := a.old hc
      rw [← hi]
      cases h
      case inl h => exact ih hb (h.1 ▸ hx)
      case inr h => exact ih hb (h.2.1 ▸ a.identity x (h.2.2 ▸ hx))
    case inl h =>
      have ⟨_, _, he⟩ := h
      subst he
      cases m
      case accept hn _ hr =>
        cases getElem?_accept hc
        case inl hc => exact ih hc.1 hx
        case inr hc =>
          have hc := hc.2
          subst hc
          rcases hn with rfl | ⟨y, rfl⟩
          case inl => cases hx
          case inr => exact hr x (congrArg _ (Option.some.inj hx))

-- A slot belongs to a connection whose task will give it back.
structure Slot (s : State) (k : Bytes) (entry : RegEntry) (c : Connection) (r : Registration) :
    Prop where
  conn : s.conns[entry.conn]? = some c
  admitted : c.task.admitted = some r
  key : r.key = k
  owner : r.certIdentity = entry.owner
  peer : r.peerIdentity = entry.peer

variable {k : Bytes} {entry : RegEntry}

theorem Slot.stays {task : Task} (sl : Slot s k entry c r)
    (ht : t.conns = (s.goTo i task).conns) (hi : entry.conn = i → task.admitted = some r) :
    ∃ c r, Slot t k entry c r := by
  by_cases he : entry.conn = i
  case neg =>
    refine ⟨c, r, { sl with conn := ?_ }⟩
    rw [ht, conns_goTo, if_neg (Ne.symm he)]
    exact sl.conn
  case pos =>
    refine ⟨{ c with task := task }, r, { sl with conn := ?_, admitted := hi he }⟩
    rw [ht, conns_goTo, if_pos he.symm, sl.conn]
    rfl

theorem Slot.admitted_of_conn {b : Connection} {task : Task} (sl : Slot s k entry c r)
    (hb : s.conns[i]? = some b) (ht : b.task = task) (he : entry.conn = i) :
    task.admitted = some r := by
  cases (he ▸ sl.conn).symm.trans hb
  exact ht ▸ sl.admitted

theorem slot_run (run : Runs h s) (hl : s.registry.lookup k = some entry) :
    ∃ c r, Slot s k entry c r := by
  induction run generalizing k entry
  case start => cases hl
  case step h s e t run hs ih =>
    cases moves_of_step hs
    case accept =>
      have ⟨c, r, sl⟩ := ih hl
      have hi := (List.getElem?_eq_some_iff.mp sl.conn).1
      exact ⟨c, r, { sl with conn := (List.getElem?_append_left hi).trans sl.conn }⟩
    -- A connection that is not admitted yet has no slot.
    case read hc ht | reject hc ht _ _ =>
      have ⟨c, r, sl⟩ := ih hl
      exact sl.stays rfl fun he => by cases sl.admitted_of_conn hc ht he
    case register c q hc ht _ =>
      rw [HashMap.lookup_insert] at hl
      split at hl
      case isTrue hk =>
        cases hl
        refine ⟨{ c with task := .acking q }, q, ?_, rfl, hk.symm, rfl, rfl⟩
        exact (conns_goTo _).trans (by rw [if_pos rfl, hc]; rfl)
      case isFalse =>
        have ⟨c, r, sl⟩ := ih hl
        exact sl.stays rfl fun he => by cases sl.admitted_of_conn hc ht he
    -- While it has one, it stays admitted.
    case ack task hc ht hk =>
      have ⟨c, r, sl⟩ := ih hl
      refine sl.stays rfl fun he => ?_
      cases sl.admitted_of_conn hc ht he
      rcases hk with rfl | rfl <;> rfl
    case datagram hc ht =>
      have ⟨c, r, sl⟩ := ih hl
      refine sl.stays rfl fun he => ?_
      rw [admitted_readDatagram]
      exact sl.admitted_of_conn hc ht he
    case lookup hc ht _ | unknown hc ht _ | send hc ht =>
      have ⟨c, r, sl⟩ := ih hl
      refine sl.stays rfl fun he => ?_
      cases sl.admitted_of_conn hc ht he
      rfl
    -- The slot goes with the task.
    case remove q hc ht _ _ _ =>
      rw [HashMap.lookup_erase] at hl
      split at hl
      case isTrue => cases hl
      case isFalse hk =>
        have ⟨c, r, sl⟩ := ih hl
        refine sl.stays rfl fun he => absurd ?_ hk
        cases sl.admitted_of_conn hc ht he
        exact sl.key.symm
    case leave q hc ht hn =>
      have ⟨c, r, sl⟩ := ih hl
      refine sl.stays rfl fun he => ?_
      cases sl.admitted_of_conn hc ht he
      exact absurd rfl (hn entry _ (sl.key ▸ hl) (he ▸ hc))

end State

-- How the slots of a relay change by one step.
structure Kept (s : State) (e : Event) (t : State) : Prop where
  filled : ∀ k entry, t.registry.lookup k = some entry → s.registry.lookup k ≠ some entry →
    e = .register entry.conn ∧ k = registrationKey entry.owner entry.peer ∧
      (∃ c, s.conns[entry.conn]? = some c ∧
        identityFromClientCert c.identity = some entry.owner) ∧
      ∀ old, s.registry.lookup k = some old → old.owner = entry.owner ∧ old.peer = entry.peer
  removed : ∀ k old, s.registry.lookup k = some old → t.registry.lookup k = none →
    e = .removeIfOwner old.conn

variable {s t : State} {e : Event} {h : History}

theorem kept (run : Runs h s) (hs : s.step e = some t) : Kept s e t := by
  constructor
  case filled =>
    intro k entry ht hn
    cases State.moves_of_step hs
    case register c r hc hr ho =>
      rw [HashMap.lookup_insert] at ht
      split at ht
      case isFalse => exact absurd ht hn
      case isTrue hk =>
        cases ht
        have hi : c.task.identity = some r.certIdentity := by rw [hr]; rfl
        refine ⟨rfl, ?_, ⟨c, hc, State.identity_run run hc hi⟩, fun old hl => ?_⟩
        case refine_1 => rw [hk, Registration.key, r.bound]
        case refine_2 => exact Prod.mk.inj (ho old (hk ▸ hl))
    case remove =>
      rw [HashMap.lookup_erase] at ht
      split at ht
      case isTrue  => cases ht
      case isFalse => exact absurd ht hn
    all_goals exact absurd ht hn
  case removed =>
    intro k old hl ht
    cases State.moves_of_step hs
    case register =>
      rw [HashMap.lookup_insert] at ht
      split at ht
      case isTrue  => cases ht
      case isFalse => cases hl.symm.trans ht
    case remove i c entry d r hc hr he hd hi =>
      rw [HashMap.lookup_erase] at ht
      split at ht
      case isFalse => cases hl.symm.trans ht
      case isTrue hk =>
        cases (hk ▸ hl).symm.trans he
        -- Both connections are held, so that one with the stable id of the other is the other.
        have own : State.Held s i := .task hc (by simp [hr])
        have its : State.Held s old.conn := .slot he rfl
        rw [State.apart_run run i old.conn c d hc hd own its hi.symm]
    all_goals cases hl.symm.trans ht

-- A slot is filled and replaced by its owner for one peer only, a connection takes no slot away but
-- its own, and the slots of an owner go with the last of its connections.
theorem slots_kept (run : Runs h s) :
    (∀ e t, s.step e = some t → Kept s e t) ∧
      ∀ owner, (∀ c ∈ s.conns, identityFromClientCert c.identity = some owner → c.task = .ended) →
        ∀ k entry, s.registry.lookup k = some entry → entry.owner ≠ owner := by
  refine ⟨fun e t hs => kept run hs, fun owner he k entry hl ho => ?_⟩
  have ⟨c, r, sl⟩ := State.slot_run run hl
  have hi := State.identity_of_admitted sl.admitted
  have hx := State.identity_run run sl.conn hi
  refine State.ne_ended_of_identity hi (he c (List.mem_of_getElem? sl.conn) ?_)
  rw [hx, sl.owner, ho]

end

-- A gateway that comes back before its first connection is gone.
namespace Reconnect

scoped instance : Sha256 where
  digest := List.drop 8

def gateway (name : String) : PeerIdentity :=
  .chain [.names [.dnsName name]]

-- The latest event is the first one.
def events : List Event :=
  [.readDatagram 0 none, .ackRegistration 1 true, .register 1,
    .readRegistration 1 (some (encodeRegistration "gw-1" "gw-2")), .accept 7 (gateway "gw-1"),
    .ackRegistration 0 true, .register 0,
    .readRegistration 0 (some (encodeRegistration "gw-1" "gw-2")), .accept 5 (gateway "gw-1")]

def replayed : History × State :=
  Run.replayed State.step {} events

theorem runs_replayed : Runs replayed.1 replayed.2 :=
  Run.run_replayed _ _

theorem slots_kept_reconnect : ∃ t, replayed.2.step (.removeIfOwner 0) = some t ∧
    Kept replayed.2 (.removeIfOwner 0) t ∧
    t.registry.lookup (registrationKey "gw-1" "gw-2") = some ⟨1, "gw-1", "gw-2"⟩ := by
  have hs : (replayed.2.step (.removeIfOwner 0)).isSome := by decide +kernel
  have ⟨t, ht⟩ := Option.isSome_iff_exists.mp hs
  refine ⟨t, ht, (slots_kept runs_replayed).1 _ _ ht, ?_⟩
  have hl : (replayed.2.step (.removeIfOwner 0)).any fun t =>
      t.registry.lookup (registrationKey "gw-1" "gw-2") = some ⟨1, "gw-1", "gw-2"⟩ := by
    decide +kernel
  simpa [ht] using hl

end Reconnect
end Relay
