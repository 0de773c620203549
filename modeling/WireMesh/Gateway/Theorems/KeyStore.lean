import Mathlib
import WireMesh.Lib.Run
import WireMesh.Gateway.KeyStore

-- The keys of a gateway over any calls on their store.
namespace Gateway.KeyStore

open Controller (KeyState)

section Exec

variable {ks ks' : EpochKeys} {k : EpochKey} {epoch : Nat} {state : KeyState}

theorem exec_ok_bind {x : KeyStore α} {f : α → KeyStore β} (h : exec x ks = (.ok a, ks')) :
    exec (x >>= f) ks = exec (f a) ks' := by
  rw [exec] at h
  rw [exec, ExceptT.run_bind, StateT.run_bind, h]
  rfl

theorem exec_error_bind {x : KeyStore α} {f : α → KeyStore β} (h : exec x ks = (.error e, ks')) :
    exec (x >>= f) ks = (.error e, ks') := by
  rw [exec] at h
  rw [exec, ExceptT.run_bind, StateT.run_bind, h]
  rfl

theorem exec_get_bind {f : EpochKeys → KeyStore β} : exec (get >>= f) ks = exec (f ks) ks :=
  exec_ok_bind rfl

theorem exec_modify_bind {x : KeyStore β} : exec (do modify g; x) ks = exec x (g ks) :=
  exec_ok_bind rfl

theorem exec_require_ok (h : ∃ k ∈ ks, k.epoch = epoch ∧ k.state = state) :
    exec (require epoch state error) ks = (.ok (), ks) := by
  have h' : (ks.any fun k => k.epoch = epoch ∧ k.state = state) = true :=
    have ⟨k, hk, he, hs⟩ := h
    List.any_eq_true.mpr ⟨k, hk, by simp [he, hs]⟩
  rw [require, exec_get_bind, h']
  rfl

theorem exec_require_error (h : ¬∃ k ∈ ks, k.epoch = epoch ∧ k.state = state) :
    exec (require epoch state error) ks = (.error error, ks) := by
  have h' : (ks.any fun k => k.epoch = epoch ∧ k.state = state) = false :=
    List.any_eq_false.mpr fun k hk hd => h ⟨k, hk, by simpa using hd⟩
  rw [require, exec_get_bind, h']
  rfl

theorem exec_refuseOccupied_ok (h : ∀ k, ks.byEpoch epoch = some k → k.state = .pending) :
    exec (refuseOccupied epoch) ks = (.ok (), ks) := by
  rw [refuseOccupied, exec_get_bind]
  cases ho : ks.byEpoch epoch
  case none   => rfl
  case some o =>
    dsimp only
    rw [if_neg (not_not_intro (h o ho))]
    rfl

theorem exec_refuseOccupied_error (ho : ks.byEpoch epoch = some k) (hs : k.state ≠ .pending) :
    ∃ e, exec (refuseOccupied epoch) ks = (.error e, ks) := by
  rw [refuseOccupied, exec_get_bind, ho]
  dsimp only
  rw [if_pos hs]
  exact ⟨_, rfl⟩

end Exec

section Switch

variable {ks : EpochKeys} {k : EpochKey} {epoch : Nat}

abbrev EpochsDiffer (ks : EpochKeys) : Prop :=
  (ks.map EpochKey.epoch).Nodup

theorem EpochsDiffer.eq (h : EpochsDiffer ks) (hj : j ∈ ks) (hk : k ∈ ks)
    (he : j.epoch = k.epoch) : j = k :=
  List.inj_on_of_nodup_map h hj hk he

def demote (k : EpochKey) : EpochKey :=
  if k.state = .active then { k with state := .retiring } else k

-- The key of an epoch takes over from the one that was active.
def switch (epoch : Nat) (k : EpochKey) : EpochKey :=
  if k.epoch = epoch then { k with state := .active } else demote k

theorem epoch_demote : (demote k).epoch = k.epoch := by
  rw [demote]
  split <;> rfl

@[simp]
theorem epoch_switch : (switch e k).epoch = k.epoch := by
  rw [switch]
  split
  case isTrue  => rfl
  case isFalse => exact epoch_demote

@[simp]
theorem privateKeyB64_switch : (switch e k).privateKeyB64 = k.privateKeyB64 := by
  rw [switch, demote]
  (repeat' split) <;> rfl

theorem state_switch_active :
    (switch epoch k).state = .active ↔ k.epoch = epoch := by
  rw [switch, demote]
  (repeat' split) <;> simp_all

theorem demote_activate (h : k.epoch = epoch) :
    { demote k with state := .active } = switch epoch k := by
  rw [switch, if_pos h, demote]
  split <;> rfl

-- Below the first key of the epoch there is no other, so that the rest is only demoted.
theorem map_switch_of_not_mem (h : epoch ∉ ks.map EpochKey.epoch) :
    ks.map (switch epoch) = ks.map demote := by
  refine List.map_congr_left fun k hk => ?_
  exact if_neg fun he => h (List.mem_map.mpr ⟨k, hk, he⟩)

theorem modify_first (hd : EpochsDiffer ks) (h : epoch ∈ ks.map EpochKey.epoch) :
    ∃ i, (ks.map demote).findIdx? (·.epoch = epoch) = some i ∧
      (ks.map demote).modify i (fun k => { k with state := .active }) = ks.map (switch epoch) := by
  induction ks
  case nil => cases h
  case cons k ks ih =>
    have ⟨hk, hd⟩ := List.nodup_cons.mp hd
    by_cases he : k.epoch = epoch
    case pos =>
      refine ⟨0, by simp [List.findIdx?_cons, epoch_demote, he], ?_⟩
      rw [List.map_cons, List.map_cons, List.modify_zero_cons, demote_activate he,
        map_switch_of_not_mem (he ▸ hk)]
    case neg =>
      have hm := (List.mem_cons.mp h).resolve_left (Ne.symm he)
      have ⟨i, hi, hs⟩ := ih hd hm
      refine ⟨i + 1, ?_, ?_⟩
      case refine_1 => simp [List.findIdx?_cons, epoch_demote, he, hi]
      case refine_2 =>
        rw [List.map_cons, List.map_cons, List.modify_succ_cons, hs, switch, if_neg he]

end Switch

-- What may come of a call.
inductive Outcome (ks : EpochKeys) : Call → Except String Unit × EpochKeys → Prop
  | failed (error : String) : Outcome ks c (.error error, ks)
  | minted : (∀ k ∈ ks, k.epoch = epoch → k.state = .pending) →
      Outcome ks (.generateNextAt epoch ⟨priv, some pub⟩)
        (.ok (), ks.filter (·.epoch ≠ epoch) ++ [⟨epoch, priv, pub, .pending⟩])
  | promoted : k ∈ ks → k.epoch = epoch → k.state = .pending →
      Outcome ks (.promote epoch) (.ok (), ks.map (switch epoch))
  | retired : k ∈ ks → k.epoch = epoch → k.state = .retiring →
      Outcome ks (.retire epoch) (.ok (), ks.filter (·.epoch ≠ epoch))
  | discarded : k ∈ ks → k.epoch = epoch → k.state = .pending →
      Outcome ks (.discardPending epoch) (.ok (), ks.filter (·.epoch ≠ epoch))

section Outcome

variable {ks : EpochKeys}

theorem outcome_generateNextAt (hd : EpochsDiffer ks) (epoch : Nat) (draw : KeyDraw) :
    Outcome ks (.generateNextAt epoch draw) (exec (generateNextAt epoch draw) ks) := by
  rw [generateNextAt]
  by_cases h : ∀ k, ks.byEpoch epoch = some k → k.state = .pending
  case pos =>
    rw [exec_ok_bind (exec_refuseOccupied_ok h)]
    match draw with
    | ⟨priv, some pub⟩ =>
      refine .minted fun k hk he => ?_
      have ⟨o, ho⟩ := Option.isSome_iff_exists.mp
        (List.find?_isSome (p := (·.epoch = epoch)) |>.mpr ⟨k, hk, by simpa using he⟩)
      have := hd.eq (List.mem_of_find?_eq_some ho) hk
        (by rw [he]; simpa using List.find?_some ho)
      exact this ▸ h o ho
    | ⟨priv, none⟩ =>
      rw [exec_error_bind (show exec (derive ⟨priv, none⟩) ks = (.error _, ks) from rfl)]
      exact .failed _
  case neg =>
    have ⟨k, ho, hs⟩ : ∃ k, ks.byEpoch epoch = some k ∧ k.state ≠ .pending := by
      simpa using h
    have ⟨e, he⟩ := exec_refuseOccupied_error ho hs
    rw [exec_error_bind he]
    exact .failed _

theorem outcome_promote (hd : EpochsDiffer ks) (epoch : Nat) :
    Outcome ks (.promote epoch) (exec (promote epoch) ks) := by
  rw [promote]
  by_cases h : ∃ k ∈ ks, k.epoch = epoch ∧ k.state = .pending
  case pos =>
    obtain ⟨k, hk, he, hs⟩ := id h
    obtain ⟨i, hi, hm⟩ := modify_first hd (List.mem_map.mpr ⟨k, hk, he⟩)
    rw [exec_ok_bind (exec_require_ok h), exec_modify_bind, exec_get_bind]
    replace hi : (ks.map fun k => if k.state = .active then { k with state := .retiring } else k).findIdx?
        (·.epoch = epoch) = some i := hi
    rw [hi]
    change Outcome ks _ (.ok (), (ks.map demote).modify i _)
    rw [hm]
    exact .promoted hk he hs
  case neg =>
    rw [exec_error_bind (exec_require_error h)]
    exact .failed _

theorem outcome_retire (epoch : Nat) : Outcome ks (.retire epoch) (exec (retire epoch) ks) := by
  rw [retire]
  by_cases h : ∃ k ∈ ks, k.epoch = epoch ∧ k.state = .retiring
  case pos =>
    have ⟨_, hk, he, hs⟩ := h
    rw [exec_ok_bind (exec_require_ok h)]
    exact .retired hk he hs
  case neg =>
    rw [exec_error_bind (exec_require_error h)]
    exact .failed _

theorem outcome_discardPending (epoch : Nat) :
    Outcome ks (.discardPending epoch) (exec (discardPending epoch) ks) := by
  rw [discardPending]
  by_cases h : ∃ k ∈ ks, k.epoch = epoch ∧ k.state = .pending
  case pos =>
    have ⟨_, hk, he, hs⟩ := h
    rw [exec_ok_bind (exec_require_ok h)]
    exact .discarded hk he hs
  case neg =>
    rw [exec_error_bind (exec_require_error h)]
    exact .failed _

theorem outcome (hd : EpochsDiffer ks) (c : Call) : Outcome ks c (c.run ks) := by
  cases c
  case generateNextAt epoch draw => exact outcome_generateNextAt hd epoch draw
  case promote epoch             => exact outcome_promote hd epoch
  case retire epoch              => exact outcome_retire epoch
  case discardPending epoch      => exact outcome_discardPending epoch

end Outcome

section Agreement

variable {ks : EpochKeys}

-- The store that a call leaves if it succeeds.
def done : Except String Unit × EpochKeys → Option EpochKeys
  | (.ok _, ks)    => some ks
  | (.error _, _)  => none

theorem done_require {x : KeyStore Unit} : done (exec (do require epoch state error; x) ks) =
    if ks.any fun k => k.epoch = epoch ∧ k.state = state then done (exec x ks) else none := by
  by_cases h : ∃ k ∈ ks, k.epoch = epoch ∧ k.state = state
  case pos =>
    rw [exec_ok_bind (exec_require_ok h), if_pos (by simpa using h)]
  case neg =>
    rw [exec_error_bind (exec_require_error h), if_neg (by simpa using h)]
    rfl

theorem done_promote : done ((Call.promote epoch).run ks) = ks.promote epoch := by
  change done (exec (promote epoch) ks) = _
  rw [promote, done_require, exec_modify_bind, exec_get_bind, EpochKeys.promote]
  congr 1
  dsimp only
  generalize List.findIdx? _ _ = i
  cases i <;> rfl

theorem done_retire : done ((Call.retire epoch).run ks) = ks.retire epoch :=
  done_require

theorem done_discardPending : done ((Call.discardPending epoch).run ks) = ks.discardPending epoch :=
  done_require

theorem done_generateNextAt : done ((Call.generateNextAt epoch ⟨priv, some pub⟩).run ks) =
    (ks.generateNextAt epoch priv pub).map Prod.snd := by
  change done (exec (generateNextAt epoch _) ks) = _
  rw [generateNextAt, EpochKeys.generateNextAt]
  by_cases h : ∀ k, ks.byEpoch epoch = some k → k.state = .pending
  case pos =>
    rw [exec_ok_bind (exec_refuseOccupied_ok h), if_neg (by simpa [Option.any_eq_true] using h)]
    rfl
  case neg =>
    have ⟨k, ho, hs⟩ : ∃ k, ks.byEpoch epoch = some k ∧ k.state ≠ .pending := by
      simpa using h
    have ⟨e, he⟩ := exec_refuseOccupied_error ho hs
    rw [exec_error_bind he, if_pos (by simp [ho, hs])]
    rfl

end Agreement

section Runs

variable {ks ks' : EpochKeys} {k : EpochKey} {epoch : Nat} {c : Call}

abbrev Does (ks : EpochKeys) (c : Call) (ks' : EpochKeys) : Prop :=
  ks' = (c.run ks).2

structure Sound (ks : EpochKeys) : Prop where
  epochs : EpochsDiffer ks
  active : ks.countP (·.state = .active) = 1

theorem sound_fromLegacy (h : fromLegacy draw = .ok ks) : Sound ks := by
  rw [fromLegacy] at h
  split at h
  case h_1 =>
    cases h
    exact ⟨List.nodup_singleton _, rfl⟩
  case h_2 => cases h

-- Only the key of the epoch counts as active after the switch, and its epoch occurs once.
theorem countP_switch (hd : EpochsDiffer ks) (hk : k ∈ ks) (he : k.epoch = epoch) :
    (ks.map (switch epoch)).countP (·.state = .active) = 1 := by
  have hc := List.count_eq_one_of_mem hd (List.mem_map.mpr ⟨k, hk, he⟩)
  rw [List.count, List.countP_map] at hc
  rw [List.countP_map, ← hc]
  refine List.countP_congr fun j _ => ?_
  simp [state_switch_active]

theorem countP_filter_epoch (h : ∀ k ∈ ks, k.epoch = epoch → k.state ≠ .active) :
    (ks.filter (·.epoch ≠ epoch)).countP (·.state = .active) =
      ks.countP (·.state = .active) := by
  rw [List.countP_filter]
  refine List.countP_congr fun k hk => ?_
  have := h k hk
  grind

theorem Sound.filter (hs : Sound ks) (h : ∀ k ∈ ks, k.epoch = epoch → k.state ≠ .active) :
    Sound (ks.filter (·.epoch ≠ epoch)) :=
  ⟨hs.epochs.sublist (List.filter_sublist.map _), countP_filter_epoch h ▸ hs.active⟩

theorem Sound.does (hs : Sound ks) (h : Does ks c ks') : Outcome ks c ((c.run ks).1, ks') :=
  h ▸ outcome hs.epochs c

theorem Sound.step (hs : Sound ks) (h : Outcome ks c (a, ks')) : Sound ks' := by
  cases h
  case failed => exact hs
  case minted epoch priv pub h =>
    have hf := hs.filter (fun k hk (he : k.epoch = epoch) => by simp [h k hk he])
    refine ⟨?_, ?_⟩
    case refine_1 =>
      rw [EpochsDiffer, List.map_append, List.nodup_append']
      exact ⟨hf.epochs, List.nodup_singleton _, by simp⟩
    case refine_2 => simpa using hf.active
  case promoted k epoch hk he _ =>
    refine ⟨?_, countP_switch hs.epochs hk he⟩
    simpa [EpochsDiffer, Function.comp_def] using hs.epochs
  case retired k epoch hk he hr =>
    exact hs.filter fun j hj hje => by
      rw [hs.epochs.eq hj hk (hje.trans he.symm), hr]
      nofun
  case discarded k epoch hk he hr =>
    exact hs.filter fun j hj hje => by
      rw [hs.epochs.eq hj hk (hje.trans he.symm), hr]
      nofun

theorem sound_run (h₀ : Sound init) (r : Run Does init h ks) : Sound ks :=
  r.invariant (I := fun _ => Sound) h₀ fun _ hs h => hs.step (hs.does h)

-- A call that fails changes nothing. The active key stays what it is, unless a promotion makes it
-- the retiring one.
def Leaves (ks : EpochKeys) (c : Call) (ks' : EpochKeys) : Prop :=
  (∀ e, (c.run ks).1 = .error e → ks' = ks) ∧
  ∀ k ∈ ks, k.state = .active → k ∈ ks' ∨
    ∃ epoch, c = .promote epoch ∧ (c.run ks).1 = .ok () ∧ { k with state := .retiring } ∈ ks'

theorem active_stays (hs : Sound ks) (hk : k ∈ ks) (ha : k.state = .active)
    (hj : j ∈ ks) (he : j.epoch = epoch) (hn : j.state ≠ .active) :
    k ∈ ks.filter (·.epoch ≠ epoch) := by
  refine List.mem_filter.mpr ⟨hk, decide_eq_true fun hke => hn ?_⟩
  rw [hs.epochs.eq hj hk (he.trans hke.symm), ha]

theorem Outcome.leaves (hs : Sound ks) (h : Outcome ks c (a, ks')) :
    (∀ e, a = .error e → ks' = ks) ∧ ∀ k ∈ ks, k.state = .active → k ∈ ks' ∨
      ∃ epoch, c = .promote epoch ∧ a = .ok () ∧ { k with state := .retiring } ∈ ks' := by
  cases h
  case failed => exact ⟨fun _ _ => rfl, fun k hk _ => .inl hk⟩
  case minted epoch _ _ h =>
    refine ⟨nofun, fun k hk ha => .inl <| List.mem_append_left _ ?_⟩
    refine List.mem_filter.mpr ⟨hk, decide_eq_true fun he => ?_⟩
    cases ha.symm.trans (h k hk he)
  case promoted j epoch hj he hp =>
    refine ⟨nofun, fun k hk ha => .inr ⟨epoch, rfl, rfl, List.mem_map.mpr ⟨k, hk, ?_⟩⟩⟩
    have hne : k.epoch ≠ epoch := fun hke => by
      cases hs.epochs.eq hj hk (he.trans hke.symm)
      cases ha.symm.trans hp
    rw [switch, if_neg hne, demote, if_pos ha]
  case retired j epoch hj he hr =>
    exact ⟨nofun, fun k hk ha => .inl <| active_stays hs hk ha hj he (by simp [hr])⟩
  case discarded j epoch hj he hr =>
    exact ⟨nofun, fun k hk ha => .inl <| active_stays hs hk ha hj he (by simp [hr])⟩

theorem leaves_run (h₀ : Sound init) (r : Run Does init h ks) :
    Run.Each (fun _ => Leaves) h ks := by
  refine r.invariant (I := Run.Each (fun _ => Leaves)) trivial fun r ih h => ⟨?_, ih⟩
  have hs := sound_run h₀ r
  exact Outcome.leaves hs (hs.does h)

end Runs

section Scrub

variable {ks ks' : EpochKeys} {k : EpochKey} {epoch : Nat} {c : Call}

def privateKeys (ks : EpochKeys) : List String :=
  ks.map EpochKey.privateKeyB64

-- The keys that a call adds to the store if it succeeds, and those that it takes out.
def Call.draws : Call → List String
  | generateNextAt _ draw => [draw.privateKeyB64]
  | _                     => []

def Call.takes (ks : EpochKeys) : Call → EpochKeys
  | generateNextAt epoch _ => ks.filter (·.epoch = epoch)
  | promote _              => []
  | retire epoch           => ks.filter (·.epoch = epoch)
  | discardPending epoch   => ks.filter (·.epoch = epoch)

def succeeded (h : List (EpochKeys × Call)) : List (EpochKeys × Call) :=
  h.filter fun x => (x.2.run x.1).1.isOk

def drawn (h : List (EpochKeys × Call)) : List String :=
  (succeeded h).flatMap fun x => x.2.draws

def scrubbed (h : List (EpochKeys × Call)) : List String :=
  (succeeded h).flatMap fun x => privateKeys (x.2.takes x.1)

theorem succeeded_cons_ok (h' : (c.run ks).1 = .ok ()) :
    succeeded ((ks, c) :: h) = (ks, c) :: succeeded h :=
  List.filter_cons_of_pos (by rw [h']; rfl)

theorem succeeded_cons_error (h' : (c.run ks).1 = .error e) :
    succeeded ((ks, c) :: h) = succeeded h :=
  List.filter_cons_of_neg (by rw [h']; nofun)

theorem perm_filter_epoch (ks : EpochKeys) (epoch : Nat) :
    (privateKeys (ks.filter (·.epoch ≠ epoch)) ++
      privateKeys (ks.filter (·.epoch = epoch))).Perm (privateKeys ks) := by
  rw [privateKeys, privateKeys, ← List.map_append]
  refine List.Perm.map _ ?_
  simpa using List.perm_append_comm.trans (List.filter_append_perm (·.epoch = epoch) ks)

-- A call that succeeds takes out of the store what leaves it, and adds what it has drawn.
theorem Outcome.perm (h : Outcome ks c (.ok (), ks')) :
    (privateKeys ks' ++ privateKeys (c.takes ks)).Perm (c.draws ++ privateKeys ks) := by
  cases h
  case minted epoch priv pub _ =>
    have := (perm_filter_epoch ks epoch).append_left [priv]
    refine .trans ?_ this
    rw [privateKeys, List.map_append]
    exact List.perm_append_comm.append_right _
  case promoted =>
    simp [privateKeys, Call.takes, Call.draws, Function.comp_def]
  case retired   => exact perm_filter_epoch ..
  case discarded => exact perm_filter_epoch ..

theorem perm_run (h₀ : Sound init) (r : Run Does init h ks) :
    (privateKeys ks ++ scrubbed h).Perm (privateKeys init ++ drawn h) := by
  induction r
  case start => rfl
  case step h ks c ks' r hd ih =>
    have hs := sound_run h₀ r
    have hd := hs.does hd
    cases ho : (c.run ks).1
    case error e =>
      rw [scrubbed, drawn, succeeded_cons_error ho, (Outcome.leaves hs hd).1 e ho]
      exact ih
    case ok =>
      rw [scrubbed, drawn, succeeded_cons_ok ho, List.flatMap_cons, List.flatMap_cons]
      have hp := (Outcome.perm (ho ▸ hd)).append_right (scrubbed h)
      rw [List.append_assoc, List.append_assoc] at hp
      exact hp.trans <| (ih.append_left c.draws).trans <| List.perm_append_comm_assoc ..

-- A key that was drawn once is nowhere in the store after it was taken out.
theorem not_mem_of_scrubbed (h₀ : Sound init) (r : Run Does init h ks) (hp : p ∈ scrubbed h)
    (hc : (privateKeys init ++ drawn h).count p = 1) : p ∉ privateKeys ks := by
  have hn := (perm_run h₀ r).count_eq p
  have hs := List.count_pos_iff.mpr hp
  rw [List.count_append, hc] at hn
  exact List.count_eq_zero.mp (by omega)

end Scrub

section Boot

variable {ks ks' : EpochKeys} {k : EpochKey} {epoch : Nat} {c : Call}

def promotion : EpochKeys × Call → Option EpochKey
  | (ks, .promote epoch) => (ks.byEpoch epoch).map fun k => { k with state := .active }
  | _                    => none

-- The key of the last promotion that has succeeded.
def lastPromoted (legacy : EpochKey) (h : List (EpochKeys × Call)) : EpochKey :=
  ((succeeded h).findSome? promotion).getD legacy

theorem lastPromoted_of_ok (ho : (c.run ks).1 = .ok ()) :
    lastPromoted legacy ((ks, c) :: h) = (promotion (ks, c)).getD (lastPromoted legacy h) := by
  rw [lastPromoted, succeeded_cons_ok ho, List.findSome?_cons]
  cases promotion (ks, c) <;> rfl

theorem lastPromoted_of_error (ho : (c.run ks).1 = .error e) :
    lastPromoted legacy ((ks, c) :: h) = lastPromoted legacy h := by
  rw [lastPromoted, succeeded_cons_error ho, lastPromoted]

theorem Sound.byEpoch (hs : Sound ks) (hk : k ∈ ks) : ks.byEpoch k.epoch = some k := by
  have ⟨j, hj⟩ := Option.isSome_iff_exists.mp
    (List.find?_isSome (p := (·.epoch = k.epoch)) |>.mpr ⟨k, hk, by simp⟩)
  have := hs.epochs.eq (List.mem_of_find?_eq_some hj) hk (by simpa using List.find?_some hj)
  exact this ▸ hj

theorem Sound.active_eq (hs : Sound ks) (hk : k ∈ ks) (ha : k.state = .active) :
    EpochKeys.active ks = some k := by
  have hl : ks.filter (·.state = .active) = [k] := by
    have ⟨j, hj⟩ := List.length_eq_one_iff.mp (List.countP_eq_length_filter ▸ hs.active)
    have hm : k ∈ ks.filter (·.state = .active) := List.mem_filter.mpr ⟨hk, by simpa using ha⟩
    rw [hj, List.mem_singleton] at hm
    rw [hj, hm]
  rw [EpochKeys.active, ← List.head?_filter, hl]
  rfl

theorem Outcome.active_mem (hs : Sound ks) (h : Outcome ks c (.ok (), ks')) (hk : k ∈ ks)
    (ha : k.state = .active) :
    (promotion (ks, c)).getD k ∈ ks' ∧ ((promotion (ks, c)).getD k).state = .active := by
  have hl := (Outcome.leaves hs h).2 k hk ha
  cases h
  case promoted j epoch hj he _ =>
    have hb : promotion (ks, .promote epoch) = some (switch epoch j) := by
      rw [promotion, ← he, hs.byEpoch hj, switch, if_pos rfl]
      rfl
    rw [hb]
    exact ⟨List.mem_map_of_mem hj, state_switch_active.mpr he⟩
  all_goals exact ⟨hl.resolve_right (by rintro ⟨_, hc, _⟩; cases hc), ha⟩

theorem active_run (h₀ : Sound [legacy]) (r : Run Does [legacy] h ks) :
    lastPromoted legacy h ∈ ks ∧ (lastPromoted legacy h).state = .active := by
  induction r
  case start =>
    have ha : legacy.state = .active := by simpa using h₀.active
    exact ⟨List.mem_singleton_self _, ha⟩
  case step h ks c ks' r hd ih =>
    have hs := sound_run h₀ r
    have hd := hs.does hd
    cases ho : (c.run ks).1
    case error e =>
      rw [lastPromoted_of_error ho, (Outcome.leaves hs hd).1 e ho]
      exact ih
    case ok =>
      rw [lastPromoted_of_ok ho]
      exact Outcome.active_mem hs (ho ▸ hd) ih.1 ih.2

theorem selectBootKey_run (h₀ : Sound [legacy]) (r : Run Does [legacy] h ks) (draw : KeyDraw) :
    selectBootKey (some ks) draw = .ok (lastPromoted legacy h) := by
  have ⟨hm, ha⟩ := active_run h₀ r
  rw [selectBootKey, Option.bind_some, (sound_run h₀ r).active_eq hm ha]

end Boot

-- Whatever is called, the store has one key for each epoch and one active key. A call that fails
-- leaves it alone, the active key is never taken out of it, a key that was taken out does not stay
-- behind, and the gateway starts on the key that was promoted last.
theorem store_sound (hl : fromLegacy legacy = .ok [first]) (r : Run Does [first] h ks) :
    (EpochsDiffer ks ∧ ks.countP (·.state = .active) = 1) ∧
    Run.Each (fun _ => Leaves) h ks ∧
    (∀ ks₁ epoch, (ks₁, .retire epoch) ∈ succeeded h ∨ (ks₁, .discardPending epoch) ∈ succeeded h →
      ∀ k ∈ ks₁, k.epoch = epoch →
        (legacy.privateKeyB64 :: drawn h).count k.privateKeyB64 = 1 →
        k.privateKeyB64 ∉ privateKeys ks) ∧
    selectBootKey (some ks) legacy = .ok (lastPromoted first h) := by
  have h₀ := sound_fromLegacy hl
  have hs := sound_run h₀ r
  refine ⟨⟨hs.epochs, hs.active⟩, leaves_run h₀ r, ?_, selectBootKey_run h₀ r legacy⟩
  intro ks₁ epoch hm k hk he hc
  refine not_mem_of_scrubbed h₀ r ?_ ?_
  case refine_1 =>
    have ht : k.privateKeyB64 ∈ privateKeys (ks₁.filter (·.epoch = epoch)) :=
      List.mem_map_of_mem (List.mem_filter.mpr ⟨hk, by simpa using he⟩)
    cases hm
    case inl hm => exact List.mem_flatMap.mpr ⟨_, hm, ht⟩
    case inr hm => exact List.mem_flatMap.mpr ⟨_, hm, ht⟩
  case refine_2 =>
    have hp : privateKeys [first] = [legacy.privateKeyB64] := by
      rw [fromLegacy] at hl
      split at hl
      case h_1 => cases hl; rfl
      case h_2 => cases hl
    rw [hp]
    exact hc

-- The enrolled key is rotated out and then scrubbed.
theorem store_sound_rotated :
    "old" ∉ privateKeys [⟨4, "new", "NEW", .active⟩] := by
  let calls : List Call :=
    [.retire 0, .retire 4, .promote 4, .generateNextAt 4 ⟨"new", some "NEW"⟩,
      .generateNextAt 4 ⟨"lost", some "LOST"⟩, .generateNextAt 0 ⟨"refused", some "REFUSED"⟩]
  have r := Run.run_trace (f := fun ks c => (Call.run c ks).2) [⟨0, "old", "OLD", .active⟩] calls
  have h := store_sound (show fromLegacy ⟨"old", some "OLD"⟩ = .ok _ from rfl) r
  have hm : ([⟨0, "old", "OLD", .retiring⟩, ⟨4, "new", "NEW", .active⟩], Call.retire 0) ∈
      succeeded (Run.trace (fun ks c => (Call.run c ks).2) [⟨0, "old", "OLD", .active⟩] calls).1 := by
    decide +kernel
  exact h.2.2.1 _ 0 (.inl hm) ⟨0, "old", "OLD", .retiring⟩ (by decide) rfl (by decide +kernel)

end Gateway.KeyStore
