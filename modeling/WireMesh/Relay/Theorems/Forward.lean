import WireMesh.Relay.Theorems.Serve

-- Datagrams go between the two ends of a pair only.
namespace Relay

open Text Wire
open Policy (Sha256)

section

variable [Sha256]

-- What has come from connections: the first stream, and datagrams.
def asked (h : History) : List (ConnId × Bytes) :=
  h.filterMap fun
    | (_, .readRegistration i (some payload)) => some (i, payload)
    | _                                       => none

def arrived (h : History) : List (ConnId × Bytes) :=
  h.filterMap fun
    | (_, .readDatagram i (some dgram)) => some (i, dgram)
    | _                                 => none

-- A registration that is let in.
def State.registers (s : State) : Event → Option (ConnId × Registration)
  | .register i => do
    let .registering r := (← s.conns[i]?).task | none
    let existing := (s.registry.lookup r.key).map fun e => (e.owner, e.peer)
    match registerDecision existing r.certIdentity r.peerIdentity with
    | .accept | .replaceOwnSlot => some (i, r)
    | _                         => none
  | _           => none

def registered (h : History) : List (ConnId × Registration) :=
  h.filterMap fun (s, e) => s.registers e

def deliveries (h : History) : List State.Delivery :=
  h.filterMap fun (s, e) => s.delivery e

-- The name in the certificate of a connection.
def State.authenticated (s : State) (i : ConnId) : Option String :=
  s.conns[i]?.bind fun c => identityFromClientCert c.identity

-- Both ends of all pairs that have been registered.
def pairs (h : History) : List (String × String) :=
  (registered h).flatMap fun (_, r) =>
    [(r.myIdentity, r.peerIdentity), (r.peerIdentity, r.myIdentity)]

def CollisionFree (h : History) : Prop :=
  ∀ p ∈ pairs h, ∀ q ∈ pairs h, registrationKey p.1 p.2 = registrationKey q.1 q.2 → p = q

instance {h : History} : Decidable (CollisionFree h) := by
  unfold CollisionFree
  infer_instance

section Registrations

-- What a client has written is read as it was meant.
omit [Sha256] in
theorem decode_encode {my peer : String} (hm : (bytesOf my).length < 2 ^ 16)
    (hd : decodeRegistration (encodeRegistration my peer) = .ok (my', peer')) :
    my' = my ∧ peer' = peer := by
  have hl : (encodeRegistration my peer).length =
      2 + (bytesOf my).length + (bytesOf peer).length := by
    simp [encodeRegistration, Nat.add_assoc]
  have len : ofBeBytes ((encodeRegistration my peer).take 2) = (bytesOf my).length := by
    rw [encodeRegistration, List.append_assoc, List.take_left' (length_beBytes ..),
      ofBeBytes_beBytes_two hm]
  have own : ((encodeRegistration my peer).drop 2).take (bytesOf my).length = bytesOf my := by
    rw [encodeRegistration, List.append_assoc, List.drop_left' (length_beBytes ..), List.take_left]
  have other : (encodeRegistration my peer).drop (2 + (bytesOf my).length) = bytesOf peer := by
    rw [encodeRegistration]
    exact List.drop_left' (by simp)
  simp only [decodeRegistration, len, own, other, fromUtf8_bytesOf, hl] at hd
  rw [if_neg (by omega), if_neg (by omega)] at hd
  split at hd
  case isTrue  => cases hd
  case isFalse =>
    cases hd
    exact ⟨rfl, rfl⟩

variable {s t : State} {e : Event} {h : History} {i j : ConnId} {c d : Connection}
  {r q : Registration}

theorem registers_register (hc : s.conns[i]? = some c) (ht : c.task = .registering r)
    (ho : ∀ old, s.registry.lookup r.key = some old →
      (old.owner, old.peer) = (r.certIdentity, r.peerIdentity)) :
    s.registers (.register i) = some (i, r) := by
  simp only [State.registers, hc, Option.bind_eq_bind, Option.bind_some, ht, registerDecision]
  cases hl : s.registry.lookup r.key
  case none => rfl
  case some old =>
    obtain ⟨ho, hp⟩ := Prod.mk.inj (ho old hl)
    simp [ho, hp]

theorem registers_eq_some (hr : s.registers e = some (i, r)) :
    e = .register i ∧ ∃ c, s.conns[i]? = some c ∧ c.task = .registering r := by
  cases e
  case register j =>
    simp only [State.registers, Option.bind_eq_bind, Option.bind_eq_some_iff] at hr
    have ⟨c, hc, hr⟩ := hr
    split at hr
    case h_1 ht =>
      split at hr
      case h_1 | h_2 =>
        cases hr
        exact ⟨rfl, c, hc, ht⟩
      case h_3 => cases hr
    case h_2 => cases hr
  all_goals cases hr

-- Only a registration that is let in gives a task its slot.
theorem State.Moves.admitted (m : Moves s e t) (hd : t.conns[j]? = some d)
    (ha : d.task.admitted = some r) :
    (∃ c, s.conns[j]? = some c ∧ c.task.admitted = some r) ∨ s.registers e = some (j, r) := by
  have goTo {i : ConnId} {c : Connection} {task : Task} (hc : s.conns[i]? = some c)
      (hd : (s.goTo i task).conns[j]? = some d)
      (hi : task.admitted = some r → c.task.admitted = some r ∨ s.registers e = some (i, r)) :
      (∃ c, s.conns[j]? = some c ∧ c.task.admitted = some r) ∨ s.registers e = some (j, r) := by
    cases conns_goTo_eq_some hd
    case inl h => exact .inl ⟨d, h.1, ha⟩
    case inr h =>
      obtain ⟨hj, b, hb, he⟩ := h
      cases hc.symm.trans hb
      subst hj
      exact (hi (by rw [he] at ha; exact ha)).imp_left fun h => ⟨c, hc, h⟩
  cases m
  case accept _ _ hn =>
    cases getElem?_accept hd
    case inl h => exact .inl ⟨d, h.1, ha⟩
    case inr h =>
      rw [h.2] at ha
      rcases hn with rfl | ⟨_, rfl⟩ <;> cases ha
  case read hc ht =>
    refine goTo hc hd fun h => ?_
    unfold Relay.readRegistration at h
    repeat' split at h
    all_goals cases h
  case reject hc ht _ _       => exact goTo hc hd fun h => by cases h
  case register hc ht ho      =>
    refine goTo hc hd fun h => .inr ?_
    cases h
    exact registers_register hc ht ho
  case ack hc ht hk           =>
    refine goTo hc hd fun h => .inl (ht ▸ ?_)
    rcases hk with rfl | rfl <;> exact h
  case datagram hc ht         =>
    refine goTo hc hd fun h => .inl (ht ▸ ?_)
    rwa [admitted_readDatagram] at h
  case lookup hc ht _         => exact goTo hc hd fun h => .inl (ht ▸ h)
  case unknown hc ht _        => exact goTo hc hd fun h => .inl (ht ▸ h)
  case send hc ht             => exact goTo hc hd fun h => .inl (ht ▸ h)
  case remove hc ht _ _ _     => exact goTo hc hd fun h => by cases h
  case leave hc ht _          => exact goTo hc hd fun h => by cases h

theorem registered_cons : registered ((s, e) :: h) = (s.registers e).toList ++ registered h := by
  cases hr : s.registers e <;> simp [registered, hr]

theorem mem_registered_cons :
    (i, r) ∈ registered ((s, e) :: h) ↔ s.registers e = some (i, r) ∨ (i, r) ∈ registered h := by
  simp [registered_cons]

theorem registered_of_admitted (run : Runs h s) (hc : s.conns[i]? = some c)
    (ha : c.task.admitted = some r) : (i, r) ∈ registered h := by
  induction run generalizing c
  case start => simp at hc
  case step h s e t run hs ih =>
    rw [mem_registered_cons]
    cases (State.moves_of_step hs).admitted hc ha
    case inl h' =>
      have ⟨c, hc, ha⟩ := h'
      exact .inr (ih hc ha)
    case inr hr => exact .inl hr

theorem State.Moves.registered (m : Moves s (.register i) t) (hd : t.conns[i]? = some d) :
    2 ≤ d.task.phase := by
  cases m
  all_goals
    cases conns_goTo_eq_some hd
    case inl h => exact absurd rfl h.2
    case inr h =>
      obtain ⟨_, _, _, he⟩ := h
      simp [he, Task.phase]

-- A registration is that of the certificate, and comes once in the time of a connection.
theorem conn_of_registered (run : Runs h s) (hr : (i, r) ∈ registered h) : ∃ c,
    s.conns[i]? = some c ∧ identityFromClientCert c.identity = some r.certIdentity ∧
      2 ≤ c.task.phase := by
  induction run
  case start => cases hr
  case step h s e t run hs ih =>
    have m := State.moves_of_step hs
    cases mem_registered_cons.mp hr
    case inr hr =>
      have ⟨c, hc, hi, hp⟩ := ih hr
      have ⟨d, hd, he, hle⟩ := m.goesOn hc
      exact ⟨d, hd, he ▸ hi, Nat.le_trans hp hle⟩
    case inl hn =>
      have ⟨he, c, hc, ht⟩ := registers_eq_some hn
      have ⟨d, hd, hi, _⟩ := m.goesOn hc
      have id : c.task.identity = some r.certIdentity := by rw [ht]; rfl
      exact ⟨d, hd, hi ▸ State.identity_run run hc id, (he ▸ m).registered hd⟩

theorem registered_once (run : Runs h s) (hr : (i, r) ∈ registered h) (hq : (i, q) ∈ registered h) :
    r = q := by
  induction run
  case start => cases hr
  case step h s e t run hs ih =>
    have old {r : Registration} (hr : (i, r) ∈ registered h) {q : Registration} :
        s.registers e ≠ some (i, q) := fun hq => by
      have ⟨c, hc, _, hp⟩ := conn_of_registered run hr
      have ⟨_, b, hb, ht⟩ := registers_eq_some hq
      cases hc.symm.trans hb
      simp [ht, Task.phase] at hp
    cases mem_registered_cons.mp hr <;> cases mem_registered_cons.mp hq
    case inl.inl hr hq => exact (Prod.mk.inj (Option.some.inj (hr.symm.trans hq))).2
    case inl.inr hr hq => exact absurd hr (old hq)
    case inr.inl hr hq => exact absurd hq (old hr)
    case inr.inr hr hq => exact ih hr hq

end Registrations

section Datagrams

variable {s t : State} {e : Event} {h : History} {i j : ConnId} {c d : Connection}
  {r q : Registration} {dgram payload : Bytes}

omit [Sha256] in
theorem mem_arrived_cons : (i, dgram) ∈ arrived ((s, e) :: h) ↔
    e = .readDatagram i (some dgram) ∨ (i, dgram) ∈ arrived h := by
  cases e
  case readDatagram j d => cases d <;> simp [arrived, eq_comm]
  all_goals simp [arrived]

omit [Sha256] in
theorem mem_asked_cons : (i, payload) ∈ asked ((s, e) :: h) ↔
    e = .readRegistration i (some payload) ∨ (i, payload) ∈ asked h := by
  cases e
  case readRegistration j d => cases d <;> simp [asked, eq_comm]
  all_goals simp [asked]

-- What is being forwarded came from the connection, and is for the other end of its pair.
def Task.Backed (h : History) (i : ConnId) : Task → Prop
  | lookingUp r dgram    => dgram.take 8 = r.allowedDest ∧ (i, dgram) ∈ arrived h
  | sending r dgram peer => (dgram.take 8 = r.allowedDest ∧ (i, dgram) ∈ arrived h) ∧
    ∃ q, (peer, q) ∈ registered h ∧ q.key = dgram.take 8
  | _                    => True

theorem Task.Backed.mono {task : Task} (hb : task.Backed h i) : task.Backed ((s, e) :: h) i := by
  cases task
  case lookingUp => exact ⟨hb.1, mem_arrived_cons.mpr (.inr hb.2)⟩
  case sending   =>
    have ⟨⟨hd, ha⟩, q, hq, hk⟩ := hb
    exact ⟨⟨hd, mem_arrived_cons.mpr (.inr ha)⟩, q, mem_registered_cons.mpr (.inr hq), hk⟩
  all_goals trivial

theorem State.Moves.backed (run : Runs h s) (m : Moves s e t) (hd : t.conns[j]? = some d)
    (ih : ∀ (i : ConnId) c, s.conns[i]? = some c → c.task.Backed h i) : d.task.Backed ((s, e) :: h) j := by
  have goTo {i : ConnId} {task : Task} (hd : (s.goTo i task).conns[j]? = some d)
      (ht : task.Backed ((s, e) :: h) i) : d.task.Backed ((s, e) :: h) j := by
    cases conns_goTo_eq_some hd
    case inl hd => exact (ih j d hd.1).mono
    case inr hd =>
      obtain ⟨hj, _, _, he⟩ := hd
      rw [he, hj]
      exact ht
  cases m
  case accept hn =>
    cases getElem?_accept hd
    case inl hd => exact (ih j d hd.1).mono
    case inr hd =>
      rw [hd.2]
      rcases hn with rfl | ⟨_, rfl⟩ <;> trivial
  case read =>
    refine goTo hd ?_
    unfold Relay.readRegistration
    repeat' split
    all_goals trivial
  case ack hk => exact goTo hd (by rcases hk with rfl | rfl <;> trivial)
  case datagram r dgram _ _ =>
    refine goTo hd ?_
    cases dgram
    case none => trivial
    case some dgram =>
      rw [Relay.readDatagram]
      split
      case isTrue => trivial
      case isFalse =>
        split
        case isTrue     => trivial
        case isFalse ha => exact ⟨of_not_not ha, mem_arrived_cons.mpr (.inl rfl)⟩
  case lookup i c entry r dgram hc ht hl =>
    refine goTo hd ?_
    have hb := ih i c hc
    rw [ht] at hb
    obtain ⟨b, q, sl⟩ := slot_run run hl
    have hq := registered_of_admitted run sl.conn sl.admitted
    exact ⟨⟨hb.1, mem_arrived_cons.mpr (.inr hb.2)⟩, q, mem_registered_cons.mpr (.inr hq), sl.key⟩
  case reject | register | unknown | send | remove | leave => exact goTo hd trivial

theorem backed_run (run : Runs h s) (hc : s.conns[i]? = some c) : c.task.Backed h i := by
  induction run generalizing i c
  case start => simp at hc
  case step run hs ih => exact (State.moves_of_step hs).backed run hc fun _ _ => ih

omit [Sha256] in
theorem certIdentity_readRegistration {payload : Option Bytes}
    (ht : readRegistration certIdentity payload = .registering r) : r.certIdentity = certIdentity :=
  State.identity_readRegistration (by rw [ht]; rfl)

omit [Sha256] in
theorem phase_readRegistration (certIdentity : String) (payload : Option Bytes) :
    0 < (readRegistration certIdentity payload).phase := by
  unfold readRegistration
  repeat' split
  all_goals simp [Task.phase]

-- What a task registers was in the first stream.
theorem State.Moves.registering (m : Moves s e t) (hd : t.conns[j]? = some d)
    (ht : d.task = .registering r) :
    (∃ c, s.conns[j]? = some c ∧ c.task = .registering r) ∨
      ∃ c payload, s.conns[j]? = some c ∧ c.task.phase = 0 ∧ e = .readRegistration j payload ∧
        Relay.readRegistration r.certIdentity payload = .registering r := by
  have goTo {i : ConnId} {task : Task} (hd : (s.goTo i task).conns[j]? = some d)
      (hn : task ≠ .registering r) : ∃ c, s.conns[j]? = some c ∧ c.task = .registering r := by
    cases conns_goTo_eq_some hd
    case inl h => exact ⟨d, h.1, ht⟩
    case inr h =>
      have ⟨_, _, _, he⟩ := h
      exact absurd (by rw [he] at ht; exact ht) hn
  cases m
  case accept hn =>
    cases getElem?_accept hd
    case inl h => exact .inl ⟨d, h.1, ht⟩
    case inr h =>
      rw [h.2] at ht
      rcases hn with rfl | ⟨_, rfl⟩ <;> cases ht
  case read i c certIdentity payload hc hr =>
    cases conns_goTo_eq_some hd
    case inl h => exact .inl ⟨d, h.1, ht⟩
    case inr h =>
      have ⟨hj, b, hb, he⟩ := h
      have ht : Relay.readRegistration certIdentity payload = .registering r := by
        rw [he] at ht
        exact ht
      have hi := certIdentity_readRegistration ht
      exact .inr ⟨c, payload, hj ▸ hc, by rw [hr]; rfl, by rw [hj], hi ▸ ht⟩
  case ack hk => exact .inl (goTo hd (by rcases hk with rfl | rfl <;> nofun))
  case datagram q dgram _ _ =>
    refine .inl (goTo hd fun he => ?_)
    have ha := State.admitted_readDatagram q dgram
    rw [he] at ha
    cases ha
  case reject | register | lookup | unknown | send | remove | leave => exact .inl (goTo hd nofun)

-- A task that has not read its first stream has nothing to go by, and the others go by what was there.
theorem asked_run (run : Runs h s) (ha : (i, payload) ∈ asked h) :
    ∃ c, s.conns[i]? = some c ∧ 0 < c.task.phase ∧ ∀ r, c.task = .registering r →
      readRegistration r.certIdentity (some payload) = .registering r := by
  induction run
  case start => cases ha
  case step h s e t run hs ih =>
    have m := State.moves_of_step hs
    cases mem_asked_cons.mp ha
    case inr ha =>
      have ⟨c, hc, hp, hr⟩ := ih ha
      have ⟨d, hd, _, hle⟩ := m.goesOn hc
      refine ⟨d, hd, Nat.lt_of_lt_of_le hp hle, fun r ht => ?_⟩
      cases m.registering hd ht
      case inl h =>
        have ⟨b, hb, hbt⟩ := h
        cases hc.symm.trans hb
        exact hr r hbt
      case inr h =>
        have ⟨b, _, hb, hz, _⟩ := h
        cases hc.symm.trans hb
        omega
    case inl he =>
      subst he
      cases m
      case read c certIdentity ht hc =>
        refine ⟨{ c with task := readRegistration certIdentity (some payload) }, ?_,
          phase_readRegistration certIdentity (some payload), fun r hr => ?_⟩
        case refine_1 => rw [State.conns_goTo, if_pos rfl, hc]; rfl
        case refine_2 =>
          have hr : readRegistration certIdentity (some payload) = .registering r := hr
          exact certIdentity_readRegistration hr ▸ hr

-- What is let in was asked for.
theorem registered_of_asked (run : Runs h s) (hr : (i, r) ∈ registered h)
    (ha : (i, payload) ∈ asked h) :
    readRegistration r.certIdentity (some payload) = .registering r := by
  induction run
  case start => cases hr
  case step h s e t run hs ih =>
    cases mem_asked_cons.mp ha <;> cases mem_registered_cons.mp hr
    case inr.inr ha hr => exact ih hr ha
    case inr.inl ha hr =>
      have ⟨_, c, hc, ht⟩ := registers_eq_some hr
      have ⟨b, hb, _, hr⟩ := asked_run run ha
      cases hc.symm.trans hb
      exact hr r ht
    case inl.inl he hr =>
      have ⟨hn, _⟩ := registers_eq_some hr
      cases he.symm.trans hn
    case inl.inr he hr =>
      subst he
      have ⟨c, hc, _, hp⟩ := conn_of_registered run hr
      cases State.moves_of_step hs
      case read b _ ht hb =>
        cases hc.symm.trans hb
        simp [ht, Task.phase] at hp

omit [Sha256] in
theorem decode_of_readRegistration (hr : readRegistration certIdentity (some payload) = .registering r) :
    payload.length ≤ MAX_REGISTRATION_BYTES ∧
      decodeRegistration payload = .ok (r.myIdentity, r.peerIdentity) := by
  simp only [readRegistration] at hr
  split at hr
  case isTrue     => cases hr
  case isFalse hl =>
    split at hr
    case h_1 => cases hr
    case h_2 hd =>
      split at hr
      case isTrue =>
        cases hr
        exact ⟨Nat.le_of_not_lt hl, hd⟩
      case isFalse => cases hr

end Datagrams

section Deliveries

variable {s t : State} {e : Event} {h : History} {i j : ConnId} {c d : Connection}
  {r q : Registration}

-- A datagram that has been put on a connection, with the registrations of both ends.
structure Delivered (h : History) (s : State) (d : State.Delivery) (r q : Registration) : Prop where
  sender : (d.sender, r) ∈ registered h ∧ s.authenticated d.sender = some r.myIdentity
  receiver : (d.receiver, q) ∈ registered h ∧ s.authenticated d.receiver = some q.myIdentity
  paired : r.myIdentity = q.peerIdentity ∧ r.peerIdentity = q.myIdentity
  content : ∃ payload, (d.sender, r.allowedDest ++ payload) ∈ arrived h ∧ d.dgram = r.key ++ payload

theorem authenticated_of_registered (run : Runs h s) (hr : (i, r) ∈ registered h) :
    s.authenticated i = some r.myIdentity := by
  have ⟨c, hc, hi, _⟩ := conn_of_registered run hr
  rw [State.authenticated, hc, Option.bind_some, hi, r.bound]

theorem mem_pairs (hr : (i, r) ∈ registered h) :
    (r.myIdentity, r.peerIdentity) ∈ pairs h ∧ (r.peerIdentity, r.myIdentity) ∈ pairs h := by
  constructor
  all_goals exact List.mem_flatMap.mpr ⟨_, hr, by simp⟩

theorem mem_deliveries_cons {d : State.Delivery} :
    d ∈ deliveries ((s, e) :: h) ↔ s.delivery e = some d ∨ d ∈ deliveries h := by
  cases hd : s.delivery e <;> simp [deliveries, hd, eq_comm]

theorem delivery_eq_some {d : State.Delivery} (hd : s.delivery e = some d) : ∃ c r dgram,
    s.conns[d.sender]? = some c ∧ c.task = .sending r dgram d.receiver ∧
      d.dgram = r.key ++ dgram.drop 8 := by
  cases e
  case sendDatagram i ok =>
    cases ok
    case false => cases hd
    case true =>
      simp only [State.delivery, Option.bind_eq_bind, Option.bind_eq_some_iff] at hd
      have ⟨c, hc, hd⟩ := hd
      split at hd
      case h_1 r dgram peer ht =>
        cases hd
        exact ⟨c, r, dgram, hc, ht, rfl⟩
      case h_2 => cases hd
  all_goals cases hd

theorem Delivered.mono (run : Runs ((s, e) :: h) t) {d : State.Delivery} (hd : Delivered h s d r q) :
    Delivered ((s, e) :: h) t d r q := by
  have hr : (d.sender, r) ∈ registered ((s, e) :: h) := mem_registered_cons.mpr (.inr hd.sender.1)
  have hq : (d.receiver, q) ∈ registered ((s, e) :: h) :=
    mem_registered_cons.mpr (.inr hd.receiver.1)
  have ⟨payload, ha, he⟩ := hd.content
  exact ⟨⟨hr, authenticated_of_registered run hr⟩, ⟨hq, authenticated_of_registered run hq⟩,
    hd.paired, payload, mem_arrived_cons.mpr (.inr ha), he⟩

theorem pairs_subset : pairs h ⊆ pairs ((s, e) :: h) := by
  intro p hp
  have ⟨⟨i, r⟩, hr, hp⟩ := List.mem_flatMap.mp hp
  exact List.mem_flatMap.mpr ⟨(i, r), mem_registered_cons.mpr (.inr hr), hp⟩

theorem CollisionFree.tail (hf : CollisionFree ((s, e) :: h)) : CollisionFree h :=
  fun p hp q hq => hf p (pairs_subset hp) q (pairs_subset hq)

theorem delivered_run (run : Runs h s) (hf : CollisionFree h) {d : State.Delivery}
    (hd : d ∈ deliveries h) : ∃ r q, Delivered h s d r q := by
  have whole := run
  induction run
  case start => cases hd
  case step h s e t run hs ih =>
    cases mem_deliveries_cons.mp hd
    case inr hd =>
      have ⟨r, q, hd⟩ := ih hf.tail hd run
      exact ⟨r, q, hd.mono whole⟩
    case inl hd =>
      have ⟨c, r, dgram, hc, ht, he⟩ := delivery_eq_some hd
      have hb := backed_run run hc
      rw [ht] at hb
      have ⟨⟨hdest, ha⟩, q, hq, hk⟩ := hb
      have hr := registered_of_admitted run hc (by rw [ht]; rfl)
      -- The slot of the receiver is the one that the sender may address.
      have hp := hf.tail _ (mem_pairs hq).1 _ (mem_pairs hr).2 (hk.trans hdest)
      have ⟨hmy, hpeer⟩ := Prod.mk.inj hp
      refine ⟨r, q, Delivered.mono whole ⟨⟨hr, authenticated_of_registered run hr⟩,
        ⟨hq, authenticated_of_registered run hq⟩, ⟨hpeer.symm, hmy.symm⟩, dgram.drop 8, ?_, he⟩⟩
      rwa [← hdest, List.take_append_drop]

-- A client computes the destination that the relay allows.
theorem destKey_allowed (run : Runs h s) (hr : (i, r) ∈ registered h)
    (ha : (i, encodeRegistration my peer) ∈ asked h) :
    (Client.finishConnect my peer).destKey = r.allowedDest := by
  have ⟨hl, hd⟩ := decode_of_readRegistration (registered_of_asked run hr ha)
  have hm : (bytesOf my).length < 2 ^ 16 := by
    simp only [encodeRegistration, List.length_append, length_beBytes, MAX_REGISTRATION_BYTES] at hl
    omega
  have ⟨hm, hp⟩ := decode_encode hm hd
  rw [Client.finishConnect, Registration.allowedDest, hm, hp]

end Deliveries

variable {h : History} {s : State}

-- What is delivered was sent by the peer that the receiver registered for, to the one that it registered
-- itself, and nobody else takes part.
theorem delivered_within_pairs (run : Runs h s) (hf : CollisionFree h) :
    (∀ d ∈ deliveries h, ∃ r q, Delivered h s d r q) ∧
    (∀ i r q, (i, r) ∈ registered h → (i, q) ∈ registered h → r = q) ∧
    ∀ i r my peer, (i, r) ∈ registered h → (i, encodeRegistration my peer) ∈ asked h →
      (Client.finishConnect my peer).destKey = r.allowedDest :=
  ⟨fun _ => delivered_run run hf, fun _ _ _ => registered_once run,
    fun _ _ _ _ => destKey_allowed run⟩

end

-- Two gateways, and one of them sends to the other.
namespace Bridge

open Reconnect

def dgram : Bytes :=
  (Client.finishConnect "gw-1" "gw-2").send [0x2a#8]

def events : List Event :=
  [.sendDatagram 0 true, .lookup 0, .readDatagram 0 (some dgram),
    .ackRegistration 1 true, .register 1,
    .readRegistration 1 (some (encodeRegistration "gw-2" "gw-1")), .accept 7 (gateway "gw-2"),
    .ackRegistration 0 true, .register 0,
    .readRegistration 0 (some (encodeRegistration "gw-1" "gw-2")), .accept 5 (gateway "gw-1")]

def replayed : History × State :=
  Run.replayed State.step {} events

theorem delivered_within_pairs_bridge : ∃ r q,
    Delivered replayed.1 replayed.2 ⟨0, 1, registrationKey "gw-1" "gw-2" ++ [0x2a#8]⟩ r q :=
  (delivered_within_pairs (Run.run_replayed _ _) (by decide +kernel)).1 _ (by decide +kernel)

end Bridge
end Relay
