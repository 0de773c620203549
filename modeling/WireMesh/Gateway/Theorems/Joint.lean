import WireMesh.Controller.StandIn
import WireMesh.Controller.Theorems.Keys
import WireMesh.Gateway.Joint
import WireMesh.Gateway.StandIn
import WireMesh.Gateway.Theorems.Rotating

-- The keys that the controller has of a gateway are those that the gateway has, as long as the gateway
-- hears of every call that is carried out.
namespace Gateway

open Controller (Db Tx PolicyText KeyRing KeyState AWAITING_SUBMISSION_SENTINEL)
open Policy

namespace EpochKeys

variable {ks ks' : EpochKeys}

-- The key pair of a public key.
def Holds (ks : EpochKeys) (epoch : Nat) (pubkeyB64 : String) : Prop :=
  ∃ k ∈ ks, k.epoch = epoch ∧ k.pubkeyB64 = pubkeyB64

instance (ks : EpochKeys) : Decidable (ks.Holds n p) :=
  inferInstanceAs (Decidable (∃ k ∈ ks, _))

theorem Holds.filter (h : ks.Holds n p) (hn : n ≠ e) : Holds (ks.filter (·.epoch ≠ e)) n p := by
  have ⟨k, hk, he, hp⟩ := h
  exact ⟨k, List.mem_filter.mpr ⟨hk, by simpa [he] using hn⟩, he, hp⟩

theorem Holds.mint (h : ks.Holds n p) (hm : ks.generateNextAt e priv pub = some (key, ks'))
    (hn : n ≠ e) : ks'.Holds n p := by
  rw [generateNextAt] at hm
  split at hm
  all_goals cases hm
  have ⟨k, hk, hkey⟩ := h.filter hn
  exact ⟨k, List.mem_append_left _ hk, hkey⟩

theorem holds_mint (hm : ks.generateNextAt e priv pub = some (key, ks')) :
    key.epoch = e ∧ ks'.Holds e key.pubkeyB64 := by
  rw [generateNextAt] at hm
  split at hm
  all_goals cases hm
  exact ⟨rfl, _, List.mem_append_right _ (.head _), rfl, rfl⟩

theorem Holds.map {f : EpochKey → EpochKey} (h : ks.Holds n p)
    (hf : ∀ k, (f k).epoch = k.epoch ∧ (f k).pubkeyB64 = k.pubkeyB64) : Holds (ks.map f) n p := by
  have ⟨k, hk, he, hp⟩ := h
  exact ⟨f k, List.mem_map_of_mem hk, (hf k).1.trans he, (hf k).2.trans hp⟩

theorem Holds.modify {f : EpochKey → EpochKey} (h : ks.Holds n p)
    (hf : ∀ k, (f k).epoch = k.epoch ∧ (f k).pubkeyB64 = k.pubkeyB64) : Holds (ks.modify i f) n p := by
  have ⟨k, hk, he, hp⟩ := h
  have ⟨j, hj⟩ := List.mem_iff_getElem?.mp hk
  by_cases hi : i = j
  case pos =>
    have hm : (ks.modify i f)[j]? = some (f k) := by simp [hi, hj]
    exact ⟨f k, List.mem_of_getElem? hm, (hf k).1.trans he, (hf k).2.trans hp⟩
  case neg =>
    have hm : (ks.modify i f)[j]? = some k := by simp [hi, hj]
    exact ⟨k, List.mem_of_getElem? hm, he, hp⟩

theorem Holds.promote (h : ks.Holds n p) (hm : ks.promote e = some ks') : ks'.Holds n p := by
  simp only [EpochKeys.promote] at hm
  (repeat' split at hm)
  all_goals cases hm
  refine Holds.modify (h.map fun k => ?_) fun k => ⟨rfl, rfl⟩
  split <;> exact ⟨rfl, rfl⟩

theorem Holds.retire (h : ks.Holds n p) (hm : ks.retire e = some ks') (hn : n ≠ e) : ks'.Holds n p := by
  rw [EpochKeys.retire] at hm
  split at hm
  all_goals cases hm
  exact h.filter hn

theorem Holds.discard (h : ks.Holds n p) (hm : ks.discardPending e = some ks') (hn : n ≠ e) :
    ks'.Holds n p := by
  rw [discardPending] at hm
  split at hm
  all_goals cases hm
  exact h.filter hn

end EpochKeys

namespace Joint

variable [Ipnet] [Sha256] [IpnetV6] [PolicyText] {g : Nat} {h : History} {s t : System}
  {config : Config} {db : Db}

section Projection

-- What the gateway sees of a run.
def gateway (s : System) : Gateway.System :=
  ⟨s.shared.gw, s.tasks⟩

def seen : SystemEvent → Gateway.SystemEvent
  | .spawn r            => .spawn r
  | .op i o x           => .op i o x
  | .env (.elapse ns) => .env ns
  | .env _              => .env 0
  | .halt               => .halt

def project (h : History) : Gateway.History :=
  h.map fun e => (gateway e.1, seen e.2)

omit [Ipnet] [Sha256] [IpnetV6] [PolicyText] in
theorem Answers.gw {s t : Joint} (ha : Answers g s o x t) : s.gw.Answers o x t.gw := by
  cases ha
  all_goals assumption

theorem step_gateway (hs : Pool.Step (rules g port) s e t) :
    Pool.Step (Gateway.rules port) (gateway s) (seen e) (gateway t) := by
  cases hs
  case spawn => exact .spawn
  case op ht ha => exact .op ht ha.gw
  case env hv =>
    cases hv
    case elapse hv    => exact .env hv
    case tx           => exact .env .elapse
    case comesThrough => exact .env .elapse
  case halt => exact .halt

theorem runs_gateway (run : Runs g config stateJson storedKeys db h s) :
    Gateway.Runs config stateJson storedKeys (project h) (gateway s) := by
  induction run
  case start       => exact .start
  case step hs ih  => exact ih.step (step_gateway hs)

end Projection

section Rings

variable {ring r : KeyRing}

-- The controller has got a key for an epoch.
def Committed (ring : KeyRing) (epoch : Nat) : Prop :=
  ∃ k ∈ ring, k.1 = epoch ∧ k.2.1 ≠ AWAITING_SUBMISSION_SENTINEL

-- The controller may make this key the active one.
def Promotable (ring : KeyRing) (epoch : Nat) (pubkey : String) : Prop :=
  (epoch, pubkey, .pending) ∈ ring ∧ pubkey ≠ AWAITING_SUBMISSION_SENTINEL

instance : Decidable (Committed ring n) :=
  inferInstanceAs (Decidable (∃ k ∈ ring, _))

omit [Ipnet] [Sha256] [IpnetV6] [PolicyText] in
theorem Promotable.committed (h : Promotable ring n p) : Committed ring n :=
  ⟨_, h.1, rfl, h.2⟩

omit [Ipnet] [Sha256] [IpnetV6] [PolicyText] in
theorem promoteRow_pubkey (k : Controller.GatewayKeyRow) : (KeyRing.promoteRow e k).2.1 = k.2.1 := by
  rw [KeyRing.promoteRow]
  (repeat' split) <;> rfl

-- A row that is still pending has not been touched.
omit [Ipnet] [Sha256] [IpnetV6] [PolicyText] in
theorem promoteRow_pending (h : KeyRing.promoteRow e k = (n, p, .pending)) : k = (n, p, .pending) := by
  rw [KeyRing.promoteRow] at h
  (repeat' split at h) <;> first | exact h | cases h

-- What the controller does by itself brings it no keys of the gateway.
omit [Ipnet] [Sha256] [IpnetV6] [PolicyText] in
theorem ringMove_committed {tx : Tx} (hm : Db.RingMove db g tx r) (ht : submits tx ≠ some g)
    (hg : g ∈ db.gateways.map (·.id)) :
    (∀ n, Committed r n → Committed (db.ring g) n) ∧
    ∀ n p, Promotable r n p → Promotable (db.ring g) n p := by
  cases hm
  case same => exact ⟨fun _ => id, fun _ _ => id⟩
  case enrolled he => exact absurd (he ▸ hg) (Db.nextId_not_mem _)
  case rotated =>
    refine ⟨fun n ⟨k, hk, he, hp⟩ => ?_, fun n p ⟨hk, hp⟩ => ?_⟩
    case refine_1 =>
      cases List.mem_append.mp hk
      case inl hk => exact ⟨k, hk, he, hp⟩
      case inr hk => exact absurd (by rw [List.mem_singleton.mp hk]) hp
    case refine_2 =>
      cases List.mem_append.mp hk
      case inl hk => exact ⟨hk, hp⟩
      case inr hk => exact absurd (congrArg (·.2.1) (List.mem_singleton.mp hk)) hp
  case submitted => exact absurd rfl ht
  case promoted e _ =>
    refine ⟨fun n ⟨k, hk, he, hp⟩ => ?_, fun n p ⟨hk, hp⟩ => ?_⟩
    case refine_1 =>
      have ⟨k₀, hk₀, hx⟩ := List.mem_map.mp hk
      exact ⟨k₀, hk₀, by rw [← he, ← hx, KeyRing.promoteRow_epoch], by rwa [← hx, promoteRow_pubkey] at hp⟩
    case refine_2 =>
      have ⟨k₀, hk₀, hx⟩ := List.mem_map.mp hk
      exact ⟨promoteRow_pending hx ▸ hk₀, hp⟩
  case retired =>
    exact ⟨fun n ⟨k, hk, hn⟩ => ⟨k, List.mem_of_mem_filter hk, hn⟩,
      fun n p ⟨hk, hp⟩ => ⟨List.mem_of_mem_filter hk, hp⟩⟩
  case dropped =>
    exact ⟨fun n ⟨k, hk, hn⟩ => ⟨k, List.mem_of_mem_filter hk, hn⟩,
      fun n p ⟨hk, hp⟩ => ⟨List.mem_of_mem_filter hk, hp⟩⟩

omit [Ipnet] [Sha256] [IpnetV6] [PolicyText] in
theorem submit_noMatch (h : (db.setEpochPubkey g n p).1 ≠ .applied) :
    (db.setEpochPubkey g n p).2 = db := by
  by_cases ha : (db.ring g).Awaits n
  case pos => exact absurd (Db.setEpochPubkey_of_awaits ha).1 h
  case neg => rw [Db.setEpochPubkey_of_not_awaits ha]

omit [Ipnet] [Sha256] [IpnetV6] [PolicyText] in
theorem gateways_submit : (db.setEpochPubkey g n p).2.gateways = db.gateways := by
  rw [Db.setEpochPubkey]
  split <;> rfl

-- A call brings the controller the key that it is about, and no other.
omit [Ipnet] [Sha256] [IpnetV6] [PolicyText] in
theorem promotable_submit (h : Promotable ((db.setEpochPubkey g n p).2.ring g) n' p') :
    Promotable (db.ring g) n' p' ∨ n = n' ∧ p = p' := by
  by_cases ha : (db.ring g).Awaits n
  case neg =>
    rw [Db.setEpochPubkey_of_not_awaits ha] at h
    exact .inl h
  case pos =>
    have ⟨hk, hp⟩ := h
    rw [(Db.setEpochPubkey_of_awaits ha).2.ring] at hk
    have ⟨k, hk, he⟩ := List.mem_map.mp hk
    rw [KeyRing.submitRow] at he
    split at he
    case isTrue hn  => exact .inr ⟨hn.1 ▸ congrArg (·.1) he, congrArg (·.2.1) he⟩
    case isFalse    => exact .inl ⟨he ▸ hk, hp⟩

-- The row of a gateway stays for good.
theorem gateway_stays (tx : Tx) (hg : g ∈ db.gateways.map (·.id)) :
    g ∈ (db.commit tx).2.gateways.map (·.id) := by
  have hm : Db.GatewayMove db tx _ := Db.gatewayMove_commit tx
  generalize (db.commit tx).2.gateways = rows at hm
  cases hm
  case kept hf     => simpa [Function.comp_def, hf.id] using hg
  case enrolled hf _ =>
    refine List.map_append ▸ List.mem_append_left _ ?_
    simpa [Function.comp_def, hf.id] using hg

end Rings

section Keys

-- What the gateway starts over with.
def onDisk (s : Gw) : EpochKeys :=
  s.storedKeys.getD [⟨0, s.config.legacyPrivB64, s.config.legacyPubB64, .active⟩]

-- The epoch whose keys an operation may throw away.
def scraps : Op → Option Nat
  | .mint n           => some n
  | .discardPending n => some n
  | .retireKey n      => some n
  | _                 => none

-- The key pair is in memory and on the disk.
structure Has (s : Gw) (n : Nat) (p : String) : Prop where
  memory : s.epochKeys.Holds n p
  disk : (onDisk s).Holds n p

omit [Ipnet] [Sha256] [IpnetV6] [PolicyText] in
theorem Has.elapse {s : Gw} (h : Has s n p) : Has { s with clock := now } n p :=
  ⟨h.memory, h.disk⟩

omit [Ipnet] [Sha256] [IpnetV6] [PolicyText] in
theorem Has.persist {s : Gw} (h : Has s n p) (hk : EpochKeys.Holds ks n p) :
    Has (s.persist c ks) n p := by
  refine ⟨hk, ?_⟩
  simp only [onDisk, Gw.persist]
  split
  case isTrue  => exact hk
  case isFalse => exact h.disk

omit [Ipnet] [Sha256] [IpnetV6] [PolicyText] in
theorem has_step {s t : Gw} {o : Op} {x : o.Resp} (hc : s.step c o = some (x, t))
    (ho : scraps o ≠ some n) (h : Has s n p) : Has t n p := by
  by_cases hw : Part.keys ∈ o.writes
  case neg =>
    have ⟨hm, hd⟩ : t.epochKeys = s.epochKeys ∧ t.storedKeys = s.storedKeys := Gw.step_same hc hw
    have hcfg : t.config = s.config := Gw.step_same hc (p := .config) (by cases o <;> simp [Op.writes])
    exact ⟨hm ▸ h.memory, by rw [onDisk, hd, hcfg]; exact h.disk⟩
  case pos =>
    have hn (e : Nat) (he : scraps o = some e) : n ≠ e := fun hne => ho (hne ▸ he)
    cases o
    case mint =>
      simp only [Gw.step, Gw.exec] at hc
      (repeat' split at hc)
      all_goals cases hc
      case h_1 => exact h
      all_goals exact h.persist (h.memory.mint ‹_› (hn _ rfl))
    case discardPending =>
      simp only [Gw.step, Gw.exec] at hc
      (repeat' split at hc)
      all_goals cases hc
      case h_1 hk => exact h.persist (h.memory.discard hk (hn _ rfl))
      case h_2    => exact h
    case promote =>
      simp only [Gw.step, Gw.exec] at hc
      (repeat' split at hc)
      all_goals cases hc
      case h_1 hk => exact h.persist (h.memory.promote hk)
      case h_2    => exact h
    case retireKey =>
      simp only [Gw.step, Gw.exec] at hc
      (repeat' split at hc)
      all_goals cases hc
      case h_1 hk => exact h.persist (h.memory.retire hk (hn _ rfl))
      case h_2    => exact h
    all_goals simp [Op.writes] at hw

end Keys

section Fresh

variable {ring ring' : KeyRing} {s t : Gw}

-- The controller has no key yet for an epoch that is being rotated to, or that a rotation has failed for,
-- and a key that may be submitted is one that the gateway has.
def Fresh (ring : KeyRing) (s : Gw) : Main → Prop
  | .rotating _ n m _ =>
    ¬ Committed ring n ∧ ∀ k ∈ m, k.key.epoch = n ∧ (k.stored → Has s n k.key.pubkeyB64)
  | .unwinding _ m    => ∀ k ∈ m, ¬ Committed ring k.key.epoch
  | .out | .took      => True

omit [Ipnet] [Sha256] [IpnetV6] [PolicyText] in
theorem Fresh.mono (h : Fresh ring s m) (hr : ∀ n, Committed ring' n → Committed ring n)
    (hs : ∀ n p, Has s n p → Has t n p) : Fresh ring' t m := by
  cases m
  case rotating =>
    have ⟨hn, hm⟩ := h
    exact ⟨mt (hr _) hn, fun k hk => ⟨(hm k hk).1, fun hd => hs _ _ ((hm k hk).2 hd)⟩⟩
  case unwinding => exact fun k hk => mt (hr _) (h k hk)
  all_goals trivial

-- What a task does itself leaves it with fresh epochs, where directives come for fresh epochs.
omit [Ipnet] [Sha256] [IpnetV6] [PolicyText] in
theorem Fresh.own {o : Op} {x : o.Resp} {r : Doing} (h : Fresh ring s r.main)
    (hc : s.step c o = some (x, t)) (may : o.May r)
    (hd : ∀ n, o = .onDirective n → s.rotation = .idle → ¬ Committed ring n) :
    Fresh ring t (o.mainAfter r.main x) := by
  have same (ho : scraps o = none) : Fresh ring t r.main :=
    h.mono (fun _ => id) fun n p => has_step hc (by simp [ho])
  cases o
  case takeRetireReady =>
    simp only [Op.mainAfter]
    split
    case isTrue  => trivial
    case isFalse => exact same rfl
  case onEpochRetired | onFailed => trivial
  case onDirective n =>
    simp only [Gw.step, Gw.exec] at hc
    split at hc
    all_goals cases hc
    cases hs : s.rotation
    case idle => exact ⟨hd n rfl hs, by simp⟩
    all_goals
      change Fresh ring _ r.main
      rw [may.2]
      trivial
  case mint n =>
    obtain ⟨_, d, hm⟩ := may
    rw [hm] at h ⊢
    simp only [Gw.step, Gw.exec] at hc
    (repeat' split at hc)
    all_goals cases hc
    case h_1 => exact h
    case h_2.isTrue.refl hm hp =>
      obtain ⟨he, hk⟩ := EpochKeys.holds_mint hm
      refine ⟨h.1, fun k hm => ?_⟩
      cases hm
      exact ⟨he, fun _ => ⟨hk, by simpa [onDisk, Gw.persist, hp] using hk⟩⟩
    case h_2.isFalse.refl hm _ =>
      refine ⟨h.1, fun k hk => ?_⟩
      cases hk
      exact ⟨(EpochKeys.holds_mint hm).1, by simp⟩
  case setRoleA new =>
    have h := same rfl
    simp only [Op.mainAfter]
    cases hm : r.main
    case rotating =>
      rw [hm] at h
      cases new
      case some => exact h
      case none =>
        exact fun k hk => (h.2 k hk).1 ▸ h.1
    case unwinding =>
      rw [hm] at h
      exact h
    all_goals trivial
  case submitEpochKey =>
    simp only [Op.mainAfter]
    split
    case isTrue  => trivial
    case isFalse => exact same rfl
  case unlock l =>
    cases l
    case mainLoop => trivial
    all_goals exact same rfl
  case discardPending =>
    obtain ⟨_, d, m, hm, _⟩ := may
    simp only [Op.mainAfter]
    rw [hm] at h ⊢
    exact h
  case retireKey =>
    simp only [Op.mainAfter]
    rw [may.2]
    trivial
  all_goals exact same rfl

end Fresh

section Runs

abbrev ring (g : Nat) (s : System) : KeyRing :=
  s.shared.db.ring g

-- The gateway hears of every call that is carried out, takes up no directive for an epoch that the
-- controller has a key of, and retires no epoch that the controller has pending.
def Heard (g : Nat) (s : System) (e : SystemEvent) : Prop :=
  s.shared.unheard = [] ∧
  match e with
  | .op _ (.onDirective n) _ => s.shared.gw.rotation = .idle → ¬ Committed (ring g s) n
  | .op _ (.retireKey n) _   => ∀ k ∈ ring g s, k.1 = n → k.2.2 ≠ .pending
  | _                        => True

-- The gateway has every key that the controller may promote, and discards none that the controller has
-- for that epoch.
def KeepsKeys (g : Nat) (s : System) (e : SystemEvent) : Prop :=
  (∀ k ∈ ring g s, k.2.2 = .pending → k.2.1 ≠ AWAITING_SUBMISSION_SENTINEL →
    s.shared.gw.epochKeys.Holds k.1 k.2.1) ∧
  match e with
  | .op _ (.discardPending n) _ =>
    ∀ key ∈ s.shared.gw.epochKeys, key.epoch = n →
      ∀ k ∈ ring g s, k.1 = n → k.2.1 ≠ AWAITING_SUBMISSION_SENTINEL → k.2.1 ≠ key.pubkeyB64
  | _ => True

instance : Decidable (Heard g s e) := by
  unfold Heard
  refine @instDecidableAnd _ _ inferInstance ?_
  split <;> infer_instance

instance : Decidable (KeepsKeys g s e) := by
  unfold KeepsKeys
  refine @instDecidableAnd _ _ inferInstance ?_
  split <;> infer_instance

structure Agree (g : Nat) (h : History) (s : System) : Prop where
  enrolled : g ∈ s.shared.db.gateways.map (·.id)
  held : ∀ n p, Promotable (ring g s) n p → Has s.shared.gw n p
  fresh : ∀ i, (gateway s).live i → Fresh (ring g s) s.shared.gw (doing i (project h)).main

-- A task that is in the middle of a rotation holds the main loop.
theorem mainLoop_of_fresh (run : Runs g config stateJson storedKeys db h s)
    (hm : (doing i (project h)).main ≠ .out) : .mainLoop ∈ (doing i (project h)).holds := by
  by_contra hl
  have out : .mainLoop ∉ (doing i (project h)).holds → (doing i (project h)).main = .out :=
    Pool.view_keeps (I := fun r : Doing => .mainLoop ∉ r.holds → r.main = .out) keeps_prog
      (runs_gateway run) (fun _ => rfl) fun o r x may hr => main_out may hr
  exact hm (out hl)

-- Whoever throws keys away holds the main loop.
omit [Ipnet] [Sha256] [IpnetV6] [PolicyText] in
theorem mainLoop_of_scraps {o : Op} {r : Doing} (may : o.May r) (ho : scraps o = some n) :
    .mainLoop ∈ r.holds := by
  cases o
  case mint | discardPending | retireKey => exact may.1
  all_goals cases ho

-- The controller cannot promote a key that is thrown away.
omit [Ipnet] [Sha256] [IpnetV6] [PolicyText] in
theorem not_promotable_of_scraps {o : Op} {r : Doing} {x : o.Resp} (may : o.May r)
    (ho : scraps o = some n) (fresh : Fresh (ring g s) s.shared.gw r.main)
    (sound : Heard g s (.op i o x)) : ¬ Promotable (ring g s) n p := by
  intro hp
  cases o
  case mint =>
    cases ho
    have ⟨_, d, hm⟩ := may
    rw [hm] at fresh
    exact fresh.1 hp.committed
  case discardPending =>
    cases ho
    have ⟨_, d, m, hm, he⟩ := may
    rw [hm] at fresh
    exact fresh m rfl (he ▸ hp.committed)
  case retireKey =>
    cases ho
    exact sound.2 _ hp.1 rfl rfl
  all_goals cases ho

theorem fresh_op {o : Op} {x : o.Resp} (inv : Agree g h s)
    (run : Runs g config stateJson storedKeys db h s)
    (hs : Pool.Step (rules g config.wgListenPort) s (.op i o x) t)
    (own : Fresh (ring g t) t.shared.gw (doing i (project ((s, .op i o x) :: h))).main)
    (rest : .mainLoop ∉ (doing i (project h)).holds → ∀ m, Fresh (ring g s) s.shared.gw m →
      Fresh (ring g t) t.shared.gw m) :
    ∀ j, (gateway t).live j →
      Fresh (ring g t) t.shared.gw (doing j (project ((s, .op i o x) :: h))).main := by
  have hi : (gateway s).live i := by
    cases hs
    case op ht _ => exact Pool.live_of_getElem? ht
  intro j hj
  by_cases hij : i = j
  case pos => exact hij ▸ own
  case neg =>
    have hv : doing j (project ((s, .op i o x) :: h)) = doing j (project h) := Pool.view_op_ne hij
    have hj : (gateway s).live j := Pool.live_op_ne (step_gateway hs) hij ▸ hj
    rw [hv]
    by_cases hm : (doing j (project h)).main = .out
    case pos => exact hm ▸ trivial
    case neg =>
      refine rest (fun hl => hij ?_) _ (inv.fresh j hj)
      exact (Pool.exclusive_run holding (runs_gateway run)).alone i j _ hi hj hl (mainLoop_of_fresh run hm)

theorem Agree.op_own {o : Op} {x : o.Resp} (inv : Agree g h s)
    (run : Runs g config stateJson storedKeys db h s)
    (hs : Pool.Step (rules g config.wgListenPort) s (.op i o x) t)
    (sound : Heard g s (.op i o x)) (hc : s.shared.gw.step c o = some (x, t.shared.gw))
    (hdb : t.shared.db = s.shared.db) : Agree g ((s, .op i o x) :: h) t := by
  have hi : (gateway s).live i := by
    cases hs
    case op ht _ => exact Pool.live_of_getElem? ht
  have may : o.May (doing i (project h)) :=
    Pool.pre_view keeps_prog ((runs_gateway run).step (step_gateway hs))
  have hr : ring g t = ring g s := by rw [ring, hdb]
  refine ⟨hdb ▸ inv.enrolled, fun n p hp => ?_, fresh_op inv run hs ?_ fun hl m hm => ?_⟩
  case refine_1 =>
    rw [hr] at hp
    refine has_step hc (fun ho => ?_) (inv.held n p hp)
    exact not_promotable_of_scraps may ho (inv.fresh i hi) sound hp
  case refine_2 =>
    have hv : doing i (project ((s, .op i o x) :: h)) = (doing i (project h)).track o x :=
      Pool.view_op_self
    rw [hv, hr]
    refine (inv.fresh i hi).own hc may fun n ho => ?_
    subst ho
    exact sound.2
  case refine_3 =>
    rw [hr]
    refine hm.mono (fun _ => id) fun n p => has_step hc fun ho => hl ?_
    exact mainLoop_of_scraps may ho

-- A key that is submitted is one that the gateway has.
theorem Agree.op_submit (inv : Agree g h s)
    (run : Runs g config stateJson storedKeys db h s)
    (hs : Pool.Step (rules g config.wgListenPort) s (.op i (.submitEpochKey n p) true) t)
    (hgw : s.shared.gw = t.shared.gw)
    (hdb : t.shared.db = (s.shared.db.setEpochPubkey g n p).2) :
    Agree g ((s, .op i (.submitEpochKey n p) true) :: h) t := by
  have hi : (gateway s).live i := by
    cases hs
    case op ht _ => exact Pool.live_of_getElem? ht
  have ⟨hl, d, key, hm, he, hp⟩ : (Op.submitEpochKey n p).May (doing i (project h)) :=
    Pool.pre_view keeps_prog ((runs_gateway run).step (step_gateway hs))
  have has : Has s.shared.gw n p := by
    have fresh := inv.fresh i hi
    rw [hm] at fresh
    exact hp ▸ (fresh.2 _ rfl).2 rfl
  refine ⟨?_, fun n' p' hp' => ?_, fresh_op inv run hs ?_ fun hn => absurd hl hn⟩
  case refine_1 =>
    rw [hdb, gateways_submit]
    exact inv.enrolled
  case refine_2 =>
    rw [ring, hdb] at hp'
    rw [← hgw]
    cases promotable_submit hp'
    case inl hp' => exact inv.held n' p' hp'
    case inr he  => exact he.1 ▸ he.2 ▸ has
  case refine_3 =>
    have hv : doing i (project ((s, .op i (.submitEpochKey n p) true) :: h)) =
        (doing i (project h)).track (.submitEpochKey n p) true := Pool.view_op_self
    rw [hv]
    trivial

omit [Ipnet] [Sha256] [IpnetV6] [PolicyText] in
theorem gw_submit {s t : Gw} (h : s.Answers (.submitEpochKey n p) x t) : s = t := by
  have ⟨c, hc⟩ := h
  simp only [Gw.step, Gw.exec] at hc
  split at hc
  all_goals cases hc
  rfl

theorem Agree.op {o : Op} {x : o.Resp} (inv : Agree g h s)
    (run : Runs g config stateJson storedKeys db h s)
    (hs : Pool.Step (rules g config.wgListenPort) s (.op i o x) t)
    (sound : Heard g s (.op i o x)) (hu : t.shared.unheard = []) :
    Agree g ((s, .op i o x) :: h) t := by
  cases hs
  case op next u ht ha =>
    have hs := Pool.Step.op ht ha
    cases ha
    case own hn hc =>
      have ⟨c, hc⟩ := hc
      exact inv.op_own run hs sound hc rfl
    case failed hc =>
      have ⟨c, hc⟩ := hc
      exact inv.op_own run hs sound hc rfl
    case unheard => cases hu
    case heard n p u hc =>
      have hgw := gw_submit hc
      by_cases ha : (s.shared.db.setEpochPubkey g n p).1 = .applied
      case pos =>
        simp only [ha, decide_true] at hs ⊢
        exact inv.op_submit run hs hgw rfl
      case neg =>
        have ⟨c, hc⟩ := hc
        exact inv.op_own run hs sound hc (submit_noMatch ha)

theorem agree_run (run : Runs g config stateJson storedKeys db h s)
    (enrolled : g ∈ db.gateways.map (·.id))
    (held : ∀ n p, Promotable (db.ring g) n p →
      Has (.start config stateJson storedKeys) n p)
    (sound : Run.Along (fun _ s e => Heard g s e) h) (hu : s.shared.unheard = []) : Agree g h s := by
  induction run
  case start => exact ⟨enrolled, held, nofun⟩
  case step h s e t run hs ih =>
    have ⟨now, rest⟩ := sound
    have inv := ih rest now.1
    cases hs
    case spawn q =>
      refine ⟨inv.enrolled, inv.held, fun j hj => ?_⟩
      have goes : Pool.Goes Doing.track {} (project h) (gateway s) (.spawn q) j
          (doing j (project ((s, .spawn q) :: h))) :=
        Pool.goes_step (runs_gateway run) (step_gateway (g := g) .spawn) hj
      cases goes
      case start hv     =>
        rw [hv]
        trivial
      case own he _ _   => cases he
      case rest hj _ hv =>
        rw [hv]
        exact inv.fresh j hj
    case op ht ha => exact inv.op run (.op ht ha) now hu
    case env hv =>
      cases hv
      case elapse hv =>
        cases hv
        exact ⟨inv.enrolled, fun n p hp => (inv.held n p hp).elapse,
          fun j hj => (inv.fresh j hj).mono (fun _ => id) fun _ _ => .elapse⟩
      case tx tx ht =>
        have ⟨hc, hp⟩ := ringMove_committed (Db.ringMove_commit tx) ht inv.enrolled
        exact ⟨gateway_stays tx inv.enrolled, fun n p h => inv.held n p (hp n p h),
          fun j hj => (inv.fresh j hj).mono hc fun _ _ => id⟩
      case comesThrough => cases hu
    case halt =>
      exact ⟨inv.enrolled, fun n p hp => ⟨(inv.held n p hp).disk, (inv.held n p hp).disk⟩,
        fun j hj => (Pool.not_live_halt (s := gateway s) j hj).elim⟩

theorem submitted_keys_held (run : Runs g config stateJson storedKeys db h s)
    (enrolled : g ∈ db.gateways.map (·.id))
    (held : ∀ n p, Promotable (db.ring g) n p → Has (.start config stateJson storedKeys) n p)
    (heard : Run.Along (fun _ s e => Heard g s e) h) : Run.Along (fun _ s e => KeepsKeys g s e) h := by
  induction run
  case start => trivial
  case step h s e t run hs ih =>
    have ⟨now, rest⟩ := heard
    have inv := agree_run run enrolled held rest now.1
    refine ⟨⟨fun k hk hs hp => ?_, ?_⟩, ih rest⟩
    case refine_1 =>
      have hk : (k.1, k.2.1, .pending) ∈ ring g s := hs ▸ hk
      exact (inv.held k.1 k.2.1 ⟨hk, hp⟩).memory
    case refine_2 =>
      cases hs
      case op i o x u next ht ha =>
        have may : o.May (doing i (project h)) :=
          Pool.pre_view keeps_prog ((runs_gateway run).step (step_gateway (.op ht ha)))
        cases o
        case discardPending n =>
          have ⟨_, d, m, hm, he⟩ := may
          have fresh := inv.fresh i (Pool.live_of_getElem? ht)
          rw [hm] at fresh
          exact fun _ _ _ k hk hn hp => absurd ⟨k, hk, hn, hp⟩ (he ▸ fresh m rfl)
        all_goals trivial
      all_goals trivial

end Runs

end Joint

-- A gateway is told to rotate to epoch 1 and submits its key, which the controller takes.
namespace Answered

open Controller.StandIn StandIn Joint

def choose (answered : Bool) : Op → Choice
  | .submitEpochKey _ _ => { succeeds := answered }
  | _                   => { privateKeyB64 := otherKey, pubkeyB64 := otherKey }

def moves : List (Pool.Move Request Joint.Outside) :=
  [.spawn .boot, .run 0 9, .spawn (.message (.snapshot alone)), .run 1 50, .env (.tx (.rotateKey 1)),
    .spawn (.rotate 1), .run 2 50, .env (.tx (.promoteEpoch 1 1))]

def enrolled : Db := (committed openingTxs).2

def played (answered : Bool) : Joint.History × Joint.System :=
  Pool.play (Joint.player 1 config.wgListenPort (choose answered))
    ⟨⟨.start config none none, enrolled, [], []⟩, []⟩ moves

theorem runs_played (answered : Bool) :
    Joint.Runs 1 config none none enrolled (played answered).1 (played answered).2 :=
  Pool.play_run _ _ _

theorem held (n : Nat) (p : String) (h : Promotable (enrolled.ring 1) n p) :
    Has (.start config none none) n p := by
  have none : ∀ k ∈ enrolled.ring 1, k.2.2 ≠ .pending := by decide +kernel
  exact absurd rfl (none _ h.1)

-- The answer is lost, and the gateway throws away the key that the controller goes on to promote.
set_option maxRecDepth 10000 in
theorem submitted_keys_held_unanswered :
    Joint.Runs 1 config none none enrolled (played false).1 (played false).2 ∧
      ¬ Run.Along (fun _ s e => KeepsKeys 1 s e) (played false).1 ∧
      (1, otherKey, .active) ∈ (played false).2.shared.db.ring 1 ∧
      ¬ (played false).2.shared.gw.epochKeys.Holds 1 otherKey :=
  ⟨runs_played false, by decide +kernel, by decide +kernel, by decide +kernel⟩

set_option maxRecDepth 10000 in
theorem submitted_keys_held_answered :
    (1, otherKey, .active) ∈ (played true).2.shared.db.ring 1 ∧
      Run.Along (fun _ s e => KeepsKeys 1 s e) (played true).1 :=
  ⟨by decide +kernel,
    submitted_keys_held (runs_played true) (by decide +kernel) held (by decide +kernel)⟩

end Answered
end Gateway
