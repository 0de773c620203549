import WireMesh.Lib.Run
import WireMesh.Controller.Enrollment
import WireMesh.Controller.KeyRing
import WireMesh.Controller.StandIn
import WireMesh.Controller.Theorems.Commit

-- What the transactions do to the keys of each gateway.
namespace Controller

-- What the enrollment service asks of a gateway's key.
def Tx.KeyChecked [Base64] : Tx → Prop
  | enrollGateway args =>
    args.wgPubkey.isEmpty ∨ (Base64.decode args.wgPubkey).map (·.length) = some 32
  | _ => True

namespace Db

open Policy Checked

variable {db db' : Db} {g : Nat}

abbrev ring (db : Db) (g : Nat) : KeyRing :=
  db.allKeysForGateway g

def keyOf (k : KeyRow) : GatewayKeyRow :=
  (k.epoch, k.pubkey, k.state)

theorem mem_ring : x ∈ db.ring g ↔ ∃ k ∈ db.keys, k.gatewayId = g ∧ keyOf k = x := by
  simp [ring, allKeysForGateway, keyOf, and_assoc]

theorem ring_of_keys_eq (h : db'.keys = db.keys) : db'.ring g = db.ring g := by
  simp [ring, allKeysForGateway, h]

theorem ring_append_self (hk : k.gatewayId = g) (he : db'.keys = db.keys ++ [k]) :
    db'.ring g = db.ring g ++ [keyOf k] := by
  simp [ring, allKeysForGateway, he, hk, keyOf]

theorem ring_append_ne (hk : k.gatewayId ≠ g) (he : db'.keys = db.keys ++ [k]) :
    db'.ring g = db.ring g := by
  simp [ring, allKeysForGateway, he, hk]

theorem filter_filterMap_comm {P : α → Bool} {f : α → Option α} (hf : ∀ a, ∀ b ∈ f a, P b = P a)
    (as : List α) : (as.filterMap f).filter P = (as.filter P).filterMap f := by
  induction as
  case nil => rfl
  case cons a as ih =>
    rw [List.filterMap_cons]
    split
    case h_1 hn => by_cases hP : P a <;> simp [hP, hn, ih]
    case h_2 b hb =>
      have hP := hf a b hb
      by_cases ha : P a <;> simp_all

section Update

variable {f : KeyRow → Option KeyRow} (hf : ∀ k, ∀ k' ∈ f k, k'.gatewayId = k.gatewayId)
include hf

theorem filter_updateKeys : (db.updateKeys g f).keys.filter (·.gatewayId = g') =
    (db.keys.filter (·.gatewayId = g')).filterMap
      fun k => if k.gatewayId = g then f k else some k := by
  refine filter_filterMap_comm (fun k k' hk' => ?_) db.keys
  split at hk'
  case isTrue  => rw [hf k k' hk']
  case isFalse => rw [Option.some.inj hk']

-- An update of one gateway's rows, as its ring sees it.
theorem ring_updateKeys_self {F : GatewayKeyRow → Option GatewayKeyRow}
    (hF : ∀ k, (f k).map keyOf = F (keyOf k)) :
    (db.updateKeys g f).ring g = (db.ring g).filterMap F := by
  rw [ring, allKeysForGateway, filter_updateKeys hf, ring, allKeysForGateway, List.map_filterMap,
    List.filterMap_map]
  refine List.filterMap_congr fun k hk => ?_
  rw [if_pos (by simpa using List.of_mem_filter hk)]
  exact hF k

theorem ring_updateKeys_ne (hg : g ≠ g') : (db.updateKeys g f).ring g' = db.ring g' := by
  rw [ring, allKeysForGateway, filter_updateKeys hf, ring, allKeysForGateway]
  refine congrArg (List.map _) ?_
  conv_rhs => rw [← List.filterMap_some (l := List.filter _ _)]
  refine List.filterMap_congr fun k hk => ?_
  have hk : k.gatewayId = g' := by simpa using List.of_mem_filter hk
  rw [if_neg fun he : k.gatewayId = g => hg (he ▸ hk)]

end Update

-- The ring of one gateway has become `r`, and nothing else has changed but the revision.
structure Rerung (g : Nat) (r : KeyRing) (db db' : Db) : Prop where
  ring : db'.ring g = r
  others : ∀ g', g ≠ g' → db'.ring g' = db.ring g'
  keysOnly : KeysOnly db db'

theorem rerung_map {u : KeyRow → KeyRow} {U : GatewayKeyRow → GatewayKeyRow}
    (hg : ∀ k, (u k).gatewayId = k.gatewayId) (hU : ∀ k, keyOf (u k) = U (keyOf k)) :
    Rerung g ((db.ring g).map U) db (db.updateKeys g fun k => some (u k)).bumpRevision where
  ring := by
    rw [← List.filterMap_eq_map]
    exact ring_updateKeys_self (by simpa using hg) fun k => congrArg some (hU k)
  others g' hne := ring_updateKeys_ne (by simpa using hg) hne
  keysOnly := .intro ..

theorem rerung_delete {P : KeyRow → Prop} [DecidablePred P]
    (hP : ∀ k, P k ↔ k.epoch = e ∧ k.state = state) :
    Rerung g ((db.ring g).delete e state) db
      (db.updateKeys g fun k => if P k then none else some k).bumpRevision where
  ring := by
    have hf (k) : ∀ k' ∈ (if P k then none else some k), k'.gatewayId = k.gatewayId := by
      split <;> simp
    have hF (k) : (if P k then none else some k).map keyOf =
        Option.guard (fun k => ¬ (k.1 = e ∧ k.2.2 = state)) (keyOf k) := by
      simp only [hP, Option.guard, keyOf]
      split <;> simp_all [keyOf]
    rw [KeyRing.delete, ← List.filterMap_eq_filter]
    exact ring_updateKeys_self hf hF
  others g' hne := ring_updateKeys_ne (fun k => by split <;> simp) hne
  keysOnly := .intro ..

theorem exists_ring {P : GatewayKeyRow → Prop} :
    (∃ k ∈ db.keys, k.gatewayId = g ∧ P (keyOf k)) ↔ ∃ k ∈ db.ring g, P k := by
  constructor
  case mp =>
    rintro ⟨k, hk, hg, hP⟩
    exact ⟨_, mem_ring.mpr ⟨k, hk, hg, rfl⟩, hP⟩
  case mpr =>
    rintro ⟨_, hk, hP⟩
    have ⟨k, hk, hg, he⟩ := mem_ring.mp hk
    exact ⟨k, hk, hg, he ▸ hP⟩

section Rows

theorem awaits_iff : (∃ k ∈ db.keys, k.gatewayId = g ∧ k.epoch = e ∧ k.state = .pending ∧
    k.pubkey = AWAITING_SUBMISSION_SENTINEL) ↔ (db.ring g).Awaits e := by
  refine (exists_ring (P := fun k => k.1 = e ∧ k.2.2 = .pending ∧
    k.2.1 = AWAITING_SUBMISSION_SENTINEL)).trans ⟨?_, fun h => ⟨_, h, rfl, rfl, rfl⟩⟩
  rintro ⟨⟨_, _, _⟩, hk, rfl, rfl, rfl⟩
  exact hk

theorem submitted_iff : (∃ k ∈ db.keys, k.gatewayId = g ∧ k.epoch = e ∧ k.state = .pending ∧
    k.pubkey ≠ AWAITING_SUBMISSION_SENTINEL) ↔ (db.ring g).Submitted e :=
  exists_ring (P := fun k => k.1 = e ∧ k.2.2 = .pending ∧ k.2.1 ≠ AWAITING_SUBMISSION_SENTINEL)

theorem has_iff : (∃ k ∈ db.keys, k.gatewayId = g ∧ k.epoch = e ∧ k.state = state) ↔
    (db.ring g).Has e state :=
  exists_ring (P := fun k => k.1 = e ∧ k.2.2 = state)

theorem setEpochPubkey_of_awaits (h : (db.ring g).Awaits e) :
    (db.setEpochPubkey g e p).1 = .applied ∧
    Rerung g ((db.ring g).submit e p) db (db.setEpochPubkey g e p).2 := by
  rw [setEpochPubkey, if_pos (awaits_iff.mpr h)]
  refine ⟨rfl, rerung_map (fun k => ?_) fun k => ?_⟩
  case refine_1 => split <;> rfl
  case refine_2 =>
    by_cases hk : k.epoch = e ∧ k.state = .pending ∧ k.pubkey = AWAITING_SUBMISSION_SENTINEL
    all_goals simp [keyOf, KeyRing.submitRow, hk]

theorem setEpochPubkey_of_not_awaits (h : ¬ (db.ring g).Awaits e) :
    db.setEpochPubkey g e p = (.noMatch, db) := by
  rw [setEpochPubkey, if_neg (mt awaits_iff.mp h)]

theorem promoteEpoch_of_submitted (h : (db.ring g).Submitted e) :
    (db.promoteEpoch g e).1 = .applied ∧
    Rerung g ((db.ring g).promote e) db (db.promoteEpoch g e).2 := by
  rw [promoteEpoch, if_pos (submitted_iff.mpr h)]
  refine ⟨rfl, rerung_map (fun k => ?_) fun k => ?_⟩
  case refine_1 =>
    split
    case isTrue  => rfl
    case isFalse => split <;> rfl
  case refine_2 =>
    by_cases he : k.epoch = e <;> by_cases ha : k.state = .active
    all_goals simp [keyOf, KeyRing.promoteRow, he, ha]

theorem promoteEpoch_of_not_submitted (h : ¬ (db.ring g).Submitted e) :
    db.promoteEpoch g e = (.noMatch, db) := by
  rw [promoteEpoch, if_neg (mt submitted_iff.mp h)]

theorem retireEpoch_of_has (h : (db.ring g).Has e .retiring) :
    (db.retireEpoch g e).1 = .applied ∧
    Rerung g ((db.ring g).delete e .retiring) db (db.retireEpoch g e).2 := by
  rw [retireEpoch, if_pos (has_iff.mpr h)]
  exact ⟨rfl, rerung_delete fun k => Iff.rfl⟩

theorem retireEpoch_of_not_has (h : ¬ (db.ring g).Has e .retiring) :
    db.retireEpoch g e = (.noMatch, db) := by
  rw [retireEpoch, if_neg (mt has_iff.mp h)]

theorem dropPendingEpoch_of_has (h : (db.ring g).Has e .pending) :
    (db.dropPendingEpoch g e).1 = .dropped ∧
    Rerung g ((db.ring g).delete e .pending) db (db.dropPendingEpoch g e).2 := by
  rw [dropPendingEpoch, if_pos (has_iff.mpr h)]
  exact ⟨rfl, rerung_delete fun k => Iff.rfl⟩

theorem dropPendingEpoch_of_not_has (h : ¬ (db.ring g).Has e .pending) :
    (db.dropPendingEpoch g e).1 ≠ .dropped ∧ (db.dropPendingEpoch g e).2 = db := by
  rw [dropPendingEpoch, if_neg (mt has_iff.mp h)]
  split <;> simp

end Rows

-- What a commit may do to the keys of the gateway `g`.
inductive RingMove (db : Db) (g : Nat) : Tx → KeyRing → Prop
  | same : RingMove db g t (db.ring g)
  | enrolled : g = nextId (db.gateways.map (·.id)) →
      RingMove db g (.enrollGateway args) (db.ring g ++ [keyOf (newKey g args)])
  | rotated : db.gatewayIsActive g → RingMove db g (.rotateKey g) (db.ring g).rotate
  | submitted : (db.ring g).Awaits epoch →
      RingMove db g (.setEpochPubkey g epoch pubkey) ((db.ring g).submit epoch pubkey)
  | promoted : (db.ring g).Submitted epoch →
      RingMove db g (.promoteEpoch g epoch) ((db.ring g).promote epoch)
  | retired : (db.ring g).Has epoch .retiring →
      RingMove db g (.retireEpoch g epoch) ((db.ring g).delete epoch .retiring)
  | dropped : (db.ring g).Has epoch .pending →
      RingMove db g (.dropPendingEpoch g epoch) ((db.ring g).delete epoch .pending)

-- An answer by which a transaction tells that it has changed the keys of the gateway `g`.
def Rings (g : Nat) : (t : Tx) → t.Out → Prop
  | .rotateKey g', _                 => g' = g
  | .setEpochPubkey g' _ _, .applied => g' = g
  | .promoteEpoch g' _, .applied     => g' = g
  | .retireEpoch g' _, .applied      => g' = g
  | .dropPendingEpoch g' _, .dropped => g' = g
  | _, _                             => False

-- What a commit has done to the keys of the gateway `g`, by its answer.
inductive RingTurn (db : Db) (g : Nat) : (t : Tx) → t.Out → KeyRing → Prop
  | same : ¬ Rings g t out → RingTurn db g t out (db.ring g)
  | enrolled : g = nextId (db.gateways.map (·.id)) →
      RingTurn db g (.enrollGateway args) out (db.ring g ++ [keyOf (newKey g args)])
  | rotated : db.gatewayIsActive g → RingTurn db g (.rotateKey g) epoch (db.ring g).rotate
  | submitted : (db.ring g).Awaits epoch →
      RingTurn db g (.setEpochPubkey g epoch pubkey) .applied ((db.ring g).submit epoch pubkey)
  | promoted : (db.ring g).Submitted epoch →
      RingTurn db g (.promoteEpoch g epoch) .applied ((db.ring g).promote epoch)
  | retired : (db.ring g).Has epoch .retiring →
      RingTurn db g (.retireEpoch g epoch) .applied ((db.ring g).delete epoch .retiring)
  | dropped : (db.ring g).Has epoch .pending →
      RingTurn db g (.dropPendingEpoch g epoch) .dropped ((db.ring g).delete epoch .pending)

theorem RingTurn.of_eq (h : RingTurn db g t out r) (he : r' = r) : RingTurn db g t out r' :=
  he ▸ h

theorem RingTurn.move (h : RingTurn db g t out r) : RingMove db g t r := by
  cases h
  case same         => exact .same
  case enrolled hg  => exact .enrolled hg
  case rotated ha   => exact .rotated ha
  case submitted hm => exact .submitted hm
  case promoted hm  => exact .promoted hm
  case retired hm   => exact .retired hm
  case dropped hm   => exact .dropped hm

theorem maxEpoch_eq : db.maxEpoch g = ((db.ring g).map (·.1)).max? := by
  simp [maxEpoch, ring, allKeysForGateway, Function.comp_def]

theorem ringTurn_rotateKey (h : db.rotateKey g' = .ok (epoch, db')) :
    RingTurn db g (.rotateKey g') epoch (db'.ring g) := by
  have ⟨ha, he, hd⟩ := rotateKey_ok h
  by_cases hg : g' = g
  case neg => exact ring_append_ne hg (congrArg keys hd) ▸ .same hg
  case pos =>
    subst hg
    have hn : epoch = (db.ring g').nextEpoch := by rw [he, maxEpoch_eq, KeyRing.nextEpoch]
    refine (RingTurn.rotated ha).of_eq ?_
    rw [ring_append_self rfl (congrArg keys hd), hn]
    rfl

theorem Enrolled.rows [Ipnet] (h : Enrolled db args out db') :
    out.gatewayId = nextId (db.gateways.map (·.id)) ∧
    db'.keys = db.keys ++ [newKey out.gatewayId args] ∧
    db'.gateways.map (·.id) = db.gateways.map (·.id) ++ [out.gatewayId] := by
  cases h
  case intro token s certs db₁ g db₂ _ _ _ _ hc ha =>
    have hw := (claimSegment_ok hc).2
    have ⟨f, hf, he, _⟩ := hw.gateways
    have ⟨_, _, hk⟩ := hw.eq
    have ids : db₁.gateways.map (·.id) = db.gateways.map (·.id) := by
      simp [he, Function.comp_def, hf.id]
    refine ⟨ha.id.trans (ids ▸ rfl), ?_, ?_⟩
    case refine_1 =>
      rw [ha.eq, hk]
      rfl
    case refine_2 =>
      rw [← ids, ha.eq]
      simp [spendToken, bumpRevision, newGateway]

theorem ringTurn_enrolled [Ipnet] (h : Enrolled db args out db') :
    RingTurn db g (.enrollGateway args) out (db'.ring g) := by
  have ⟨hn, hk, _⟩ := h.rows
  by_cases hg : out.gatewayId = g
  case pos =>
    subst hg
    exact (RingTurn.enrolled hn).of_eq (ring_append_self rfl hk)
  case neg => exact (RingTurn.same (by exact nofun)).of_eq (ring_append_ne hg hk)

-- A change to one ring is told by the answer `out`, which tells nothing of other rings.
theorem Rerung.ringTurn (h : Rerung g r db db') (hm : RingTurn db g t out r)
    (ho : ∀ g', g ≠ g' → ¬ Rings g' t out) : RingTurn db g' t out (db'.ring g') := by
  by_cases hg : g = g'
  case pos => exact hg ▸ h.ring ▸ hm
  case neg => exact h.others g' hg ▸ .same (ho g' hg)

section Commit

variable [Ipnet] [Sha256] [IpnetV6] [PolicyText]

omit [Sha256] [IpnetV6] [PolicyText] in
theorem Wrote.keys_eq (h : Wrote db t out db') (ht : ¬ t.OnKeys) (he : ∀ args, t ≠ .enrollGateway args) :
    db'.keys = db.keys := by
  cases h
  case fabric hf =>
    have ⟨_, _, _, _, e⟩ := hf
    rw [e]
  case enrolled  => exact absurd rfl (he _)
  case keys ho _ => exact absurd ho ht
  all_goals rfl

theorem ringTurn_of_ok (h : db.transact t = .ok (out, db')) : RingTurn db g t out (db'.ring g) := by
  cases t
  case enrollGateway => exact ringTurn_enrolled (enrollGateway_ok h)
  case rotateKey     => exact ringTurn_rotateKey h
  case setEpochPubkey g' e p =>
    have ho : db.setEpochPubkey g' e p = (out, db') := Except.ok.inj h
    by_cases hm : (db.ring g').Awaits e
    case pos =>
      have ⟨hx, hr⟩ := setEpochPubkey_of_awaits (p := p) hm
      rw [ho] at hx hr
      cases hx
      exact hr.ringTurn (.submitted hm) fun _ hg => hg
    case neg =>
      cases (setEpochPubkey_of_not_awaits hm).symm.trans ho
      exact .same nofun
  case promoteEpoch g' e =>
    have ho : db.promoteEpoch g' e = (out, db') := Except.ok.inj h
    by_cases hm : (db.ring g').Submitted e
    case pos =>
      have ⟨hx, hr⟩ := promoteEpoch_of_submitted hm
      rw [ho] at hx hr
      cases hx
      exact hr.ringTurn (.promoted hm) fun _ hg => hg
    case neg =>
      cases (promoteEpoch_of_not_submitted hm).symm.trans ho
      exact .same nofun
  case retireEpoch g' e =>
    have ho : db.retireEpoch g' e = (out, db') := Except.ok.inj h
    by_cases hm : (db.ring g').Has e .retiring
    case pos =>
      have ⟨hx, hr⟩ := retireEpoch_of_has hm
      rw [ho] at hx hr
      cases hx
      exact hr.ringTurn (.retired hm) fun _ hg => hg
    case neg =>
      cases (retireEpoch_of_not_has hm).symm.trans ho
      exact .same nofun
  case dropPendingEpoch g' e =>
    have ho : db.dropPendingEpoch g' e = (out, db') := Except.ok.inj h
    by_cases hm : (db.ring g').Has e .pending
    case pos =>
      have ⟨hx, hr⟩ := dropPendingEpoch_of_has hm
      rw [ho] at hx hr
      cases hx
      exact hr.ringTurn (.dropped hm) fun _ hg => hg
    case neg =>
      have ⟨hx, hd⟩ := dropPendingEpoch_of_not_has hm
      rw [ho] at hx hd
      rw [show db' = db from hd]
      refine .same ?_
      cases out
      case dropped => exact absurd rfl hx
      all_goals exact nofun
  all_goals
    exact (RingTurn.same (by exact nofun)).of_eq (ring_of_keys_eq ((wrote_of_ok h).keys_eq nofun nofun))

theorem ringMove_commit (t : Tx) : RingMove db g t ((db.commit t).2.ring g) :=
  commit_induct (P := fun db' => RingMove db g t (db'.ring g)) t .same fun h =>
    (ringTurn_of_ok h).move

end Commit

-- A key that the enrollment service lets through, or the stand-in for one that was not given.
theorem newKey_pubkey_ne [Base64] (h : (Tx.enrollGateway args).KeyChecked) :
    (newKey g args).pubkey ≠ AWAITING_SUBMISSION_SENTINEL := by
  rw [newKey, AWAITING_SUBMISSION_SENTINEL]
  dsimp only
  split
  case isTrue =>
    intro he
    have hl := congrArg (·.toList.head?) he
    have hp : (toString "placeholder-pubkey-gw").toList.head? = some 'p' := by decide
    simp only [String.toList_append, List.head?_append, hp, Option.some_or] at hl
    revert hl
    decide
  case isFalse hn =>
    intro he
    have hd : (Base64.decode args.wgPubkey).isSome := by
      have := h.resolve_left hn
      cases hd : Base64.decode args.wgPubkey <;> simp_all
    have := Base64.alphabet hd '-' (by rw [he]; decide)
    revert this
    decide

-- Every gateway on file has a proper ring, and nobody else has any keys.
structure KeysOk (db : Db) : Prop where
  owned : ∀ g, db.ring g ≠ [] → g ∈ db.gateways.map (·.id)
  rings : ∀ g ∈ db.gateways.map (·.id), (db.ring g).Ok

theorem keysOk_empty : KeysOk .empty :=
  ⟨fun _ h => absurd rfl h, by simp [empty]⟩

theorem RingMove.ok (hm : RingMove db g t r) (ht : ∀ args, t ≠ .enrollGateway args)
    (h : (db.ring g).Ok) : r.Ok := by
  cases hm
  case same          => exact h
  case enrolled      => exact absurd rfl (ht _)
  case rotated       => exact h.rotate
  case submitted     => exact h.submit
  case promoted hp   => exact h.promote hp
  case retired       => exact h.delete (by simp)
  case dropped       => exact h.delete (by simp)

-- Keys come to a gateway that has none only by its enrollment.
theorem RingMove.nonempty (hm : RingMove db g t r) (ht : ∀ args, t ≠ .enrollGateway args)
    (hr : r ≠ []) : db.ring g ≠ [] ∨ db.gatewayIsActive g := by
  cases hm
  case same       => exact .inl hr
  case enrolled   => exact absurd rfl (ht _)
  case rotated ha => exact .inr ha
  case submitted  => exact .inl fun he => hr (by simp [he, KeyRing.submit])
  case promoted   => exact .inl fun he => hr (by simp [he, KeyRing.promote])
  case retired    => exact .inl fun he => hr (by simp [he, KeyRing.delete])
  case dropped    => exact .inl fun he => hr (by simp [he, KeyRing.delete])

theorem mem_ids_of_active (h : db.gatewayIsActive g) : g ∈ db.gateways.map (·.id) := by
  have ⟨row, hr, ha⟩ := List.any_eq_true.mp h
  simp only [decide_eq_true_eq] at ha
  exact ha.1 ▸ List.mem_map_of_mem hr

theorem GatewayMove.ids (hm : GatewayMove db t rows) (ht : ∀ args, t ≠ .enrollGateway args) :
    rows.map (·.id) = db.gateways.map (·.id) := by
  cases hm
  case kept hf  => simp [Function.comp_def, hf.id]
  case enrolled => exact absurd rfl (ht _)

section Commit

variable [Ipnet] [Sha256] [IpnetV6] [PolicyText] [Base64]

omit [Sha256] [IpnetV6] [PolicyText] in
theorem Enrolled.keysOk (he : Enrolled db args out db') (hc : (Tx.enrollGateway args).KeyChecked)
    (h : KeysOk db) : KeysOk db' := by
  have ⟨hn, hk, ids⟩ := he.rows
  -- The id is new, so nobody has left keys behind for it.
  have none : db.ring out.gatewayId = [] :=
    not_not.mp fun hr => nextId_not_mem _ (hn ▸ h.owned _ hr)
  refine ⟨fun g hr => ?_, fun g hg => ?_⟩
  case refine_1 =>
    rw [ids]
    by_cases hg : out.gatewayId = g
    case pos => simp [hg]
    case neg => exact List.mem_append_left _ (h.owned g (ring_append_ne hg hk ▸ hr))
  case refine_2 =>
    rw [ids] at hg
    by_cases he : out.gatewayId = g
    case pos =>
      subst he
      rw [ring_append_self (g := out.gatewayId) rfl hk, none]
      exact .first (newKey_pubkey_ne hc)
    case neg =>
      rw [ring_append_ne he hk]
      exact h.rings g ((List.mem_append.mp hg).resolve_right (by simpa using Ne.symm he))

theorem keysOk_commit (t : Tx) (ht : t.KeyChecked) (h : KeysOk db) : KeysOk (db.commit t).2 := by
  by_cases he : ∃ args, t = .enrollGateway args
  case pos =>
    have ⟨args, he⟩ := he
    subst he
    exact commit_induct (P := KeysOk) _ h fun ho => (enrollGateway_ok ho).keysOk ht h
  case neg =>
    have ht : ∀ args, t ≠ .enrollGateway args := fun args he' => he ⟨args, he'⟩
    have ids : _ = db.gateways.map (·.id) := (gatewayMove_commit t).ids ht
    refine ⟨fun g hr => ?_, fun g hg => ?_⟩
    case refine_1 =>
      rw [ids]
      cases (ringMove_commit t).nonempty ht hr
      case inl hr => exact h.owned g hr
      case inr ha => exact mem_ids_of_active ha
    case refine_2 => exact (ringMove_commit t).ok ht (h.rings g (ids ▸ hg))

theorem keysOk_run (r : Run Step .empty h db) (hc : ∀ x ∈ h, x.2.KeyChecked) : KeysOk db := by
  induction r
  case start => exact keysOk_empty
  case step t db' _ hs ih =>
    have ⟨ht, hc⟩ := List.forall_mem_cons.mp hc
    exact hs ▸ keysOk_commit t ht (ih hc)

omit [Ipnet] [Sha256] [IpnetV6] [PolicyText] [Base64] in
theorem countP_ring : (db.ring g).countP (·.2.2 = .active) =
    (db.keys.filter fun k => k.gatewayId = g ∧ k.state = .active).length := by
  rw [ring, allKeysForGateway, List.countP_map, List.countP_filter, List.countP_eq_length_filter]
  refine congrArg List.length (List.filter_congr fun k _ => ?_)
  simp [Bool.and_comm]

-- Whatever calls on keys come one after the other, a gateway has one active key, a key that is or was
-- in use is a real one, and a call that finds no row to change changes nothing.
theorem one_active_key (r : Run Step .empty h db) (hc : ∀ x ∈ h, x.2.KeyChecked) :
    (∀ row ∈ db.gateways,
      (db.keys.filter fun k => k.gatewayId = row.id ∧ k.state = .active).length = 1) ∧
    (∀ k ∈ db.keys, k.state ≠ .pending → k.pubkey ≠ AWAITING_SUBMISSION_SENTINEL) ∧
    ∀ g e,
      (∀ p, (db.setEpochPubkey g e p).1 = .noMatch → (db.setEpochPubkey g e p).2 = db) ∧
      ((db.promoteEpoch g e).1 = .noMatch → (db.promoteEpoch g e).2 = db) ∧
      ((db.retireEpoch g e).1 = .noMatch → (db.retireEpoch g e).2 = db) ∧
      ((db.dropPendingEpoch g e).1 ≠ .dropped → (db.dropPendingEpoch g e).2 = db) := by
  have keys := keysOk_run r hc
  refine ⟨fun row hr => ?_, fun k hk hs => ?_, fun g e => ⟨fun p ho => ?_, fun ho => ?_, fun ho => ?_,
    fun ho => ?_⟩⟩
  case refine_1 =>
    rw [← countP_ring]
    exact (keys.rings row.id (List.mem_map_of_mem hr)).active
  case refine_2 =>
    have hm : keyOf k ∈ db.ring k.gatewayId := mem_ring.mpr ⟨k, hk, rfl, rfl⟩
    exact (keys.rings _ (keys.owned _ (List.ne_nil_of_mem hm))).keys _ hm hs
  case refine_3 =>
    by_cases hm : (db.ring g).Awaits e
    case pos => simp [(setEpochPubkey_of_awaits hm).1] at ho
    case neg => rw [setEpochPubkey_of_not_awaits hm]
  case refine_4 =>
    by_cases hm : (db.ring g).Submitted e
    case pos => simp [(promoteEpoch_of_submitted hm).1] at ho
    case neg => rw [promoteEpoch_of_not_submitted hm]
  case refine_5 =>
    by_cases hm : (db.ring g).Has e .retiring
    case pos => simp [(retireEpoch_of_has hm).1] at ho
    case neg => rw [retireEpoch_of_not_has hm]
  case refine_6 =>
    by_cases hm : (db.ring g).Has e .pending
    case pos => exact absurd (dropPendingEpoch_of_has hm).1 ho
    case neg => exact (dropPendingEpoch_of_not_has hm).2

end Commit

open StandIn in
theorem one_active_key_rotating :
    (committed (.rotateKey 1 :: openingTxs)).2.ring 1 =
      [(0, "placeholder-pubkey-gw1-epoch0", .active), (1, AWAITING_SUBMISSION_SENTINEL, .pending)] ∧
    ∀ row ∈ (committed (.rotateKey 1 :: openingTxs)).2.gateways,
      ((committed (.rotateKey 1 :: openingTxs)).2.keys.filter fun k =>
        k.gatewayId = row.id ∧ k.state = .active).length = 1 :=
  have one := one_active_key (Run.run_trace Db.empty (.rotateKey 1 :: openingTxs))
    (by simp [openingTxs, Run.trace, Tx.KeyChecked, enrollArgs])
  ⟨by decide +kernel, one.1⟩

end Db
end Controller
