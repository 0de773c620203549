import WireMesh.Enforcer.Faults
import WireMesh.Enforcer.Theorems.Counters

-- An apply that fails.
namespace Enforcer

open Policy

namespace Attempt

variable {clock : Nat} {fails : KernelOp → Bool} {gen : GenerationState} {m : Maps}

@[simp]
theorem run_pure (a : α) : run clock fails (pure a) gen m = ((.ok a, gen), m) :=
  rfl

@[simp]
theorem run_bind (p : Attempt α) (f : α → Attempt β) :
    run clock fails (p >>= f) gen m =
      match run clock fails p gen m with
      | ((.ok a, gen'), m')    => run clock fails (f a) gen' m'
      | ((.error e, gen'), m') => ((.error e, gen'), m') := by
  simp only [run, ExceptT.run_bind, StateT.run_bind, Prog.run_bind]
  generalize Prog.run (Maps.execFaulty clock fails) (StateT.run (ExceptT.run p) gen) m = r
  obtain ⟨⟨_ | _, _⟩, _⟩ := r <;> rfl

theorem run_bind_of_ok {p : Attempt α} (h : run clock fails p gen m = ((.ok a, gen'), m'))
    (f : α → Attempt β) : run clock fails (p >>= f) gen m = run clock fails (f a) gen' m' := by
  rw [run_bind, h]

theorem run_bind_ok {p : Attempt α} {f : α → Attempt β}
    (h : run clock fails (p >>= f) gen m = ((.ok b, gen'), m')) :
    ∃ a gen₁ m₁, run clock fails p gen m = ((.ok a, gen₁), m₁) ∧
      run clock fails (f a) gen₁ m₁ = ((.ok b, gen'), m') := by
  rw [run_bind] at h
  generalize run clock fails p gen m = r at h ⊢
  obtain ⟨⟨e | a, gen₁⟩, m₁⟩ := r
  case error => cases h
  case ok    => exact ⟨a, gen₁, m₁, rfl, h⟩

-- A step that either has its result or ends the attempt.
theorem run_bind_orFail {p : Attempt α} {a : Option α}
    (h : run clock fails p gen m = run clock fails (orFail context a) gen m) (f : α → Attempt β) :
    run clock fails (p >>= f) gen m =
      a.elim ((.error context, gen), m) fun a => run clock fails (f a) gen m := by
  rw [run_bind, h]
  cases a <;> rfl

@[simp]
theorem run_update (f : GenerationState → GenerationState) :
    run clock fails (update f) gen m = ((.ok (), f gen), m) :=
  rfl

@[simp]
theorem run_state : run clock fails state gen m = ((.ok gen, gen), m) :=
  rfl

@[simp]
theorem run_now : run clock fails now gen m = ((.ok clock, gen), m) :=
  rfl

theorem run_perform (o : KernelOp) :
    run clock fails (perform o) gen m =
      ((.ok (m.execFaulty clock fails o).1, gen), (m.execFaulty clock fails o).2) :=
  rfl

theorem run_access (o : LoaderOp) :
    run clock fails (access o) gen m =
      if fails (.access o) then ((.error "syscall failed", gen), m)
      else ((.ok (m.execLoader clock o).1, gen), (m.execLoader clock o).2) := by
  rw [access, run_bind, run_perform]
  cases h : fails (.access o)
  case true  => simp only [Maps.execFaulty, h, if_true]; rfl
  case false => simp only [Maps.execFaulty, h, if_false, Bool.false_eq_true]; rfl

theorem run_create (context : String) (map : InnerMap) :
    run clock fails (create context map) gen m =
      ((if fails (.create map) then .error context else .ok (), gen), m) := by
  rw [create, run_bind, run_perform, Maps.execFaulty]
  cases fails (.create map) <;> rfl

theorem run_fill (context : String) (map : InnerMap) (i : Nat) :
    run clock fails (fill context map i) gen m =
      ((if fails (.fill map i) then .error context else .ok (), gen), m) := by
  rw [fill, run_bind, run_perform, Maps.execFaulty]
  cases fails (.fill map i) <;> rfl

theorem run_counterOrZero {idx : Nat} :
    run clock fails (counterOrZero idx) gen m =
      ((.ok (if fails (.access (.counterGet idx)) then 0 else m.counter idx), gen), m) := by
  rw [counterOrZero, run_bind, run_perform]
  cases h : fails (.access (.counterGet idx))
  case true  => simp only [Maps.execFaulty, h, if_true]; rfl
  case false => simp only [Maps.execFaulty, h, if_false, Bool.false_eq_true]; rfl

theorem run_access_bind (o : LoaderOp) (f : o.Resp → Attempt α) :
    run clock fails (access o >>= f) gen m =
      if fails (.access o) then ((.error "syscall failed", gen), m)
      else run clock fails (f (m.execLoader clock o).1) gen (m.execLoader clock o).2 := by
  rw [run_bind, run_access]
  cases fails (.access o) <;> rfl

-- What holds before an attempt holds after it, whether it has got to its end or not.
def Keeps (clock : Nat) (fails : KernelOp → Bool) (I : GenerationState → Maps → Prop)
    (p : Attempt α) : Prop :=
  ∀ gen m, I gen m → I (run clock fails p gen m).1.2 (run clock fails p gen m).2

section Keeps

variable {I : GenerationState → Maps → Prop}

theorem keeps_pure {a : α} : Keeps clock fails I (pure a) :=
  fun _ _ => id

theorem keeps_bind {p : Attempt α} {f : α → Attempt β} (hp : Keeps clock fails I p)
    (hf : ∀ a, Keeps clock fails I (f a)) : Keeps clock fails I (p >>= f) := by
  intro gen m h
  have h := hp gen m h
  rw [run_bind]
  generalize run clock fails p gen m = r at h
  obtain ⟨⟨e | a, gen'⟩, m'⟩ := r
  case error => exact h
  case ok    => exact hf a gen' m' h

theorem keeps_orFail {context : String} {a : Option α} : Keeps clock fails I (orFail context a) := by
  cases a <;> exact fun _ _ => id

theorem keeps_create {context : String} {map : InnerMap} :
    Keeps clock fails I (create context map) :=
  fun _ _ h => by rwa [run_create]

theorem keeps_fill {context : String} {map : InnerMap} {i : Nat} :
    Keeps clock fails I (fill context map i) :=
  fun _ _ h => by rwa [run_fill]

theorem keeps_access {o : LoaderOp} (h : ∀ gen m, I gen m → I gen (m.execLoader clock o).2) :
    Keeps clock fails I (access o) := by
  intro gen m hi
  rw [run_access]
  split
  case isTrue  => exact hi
  case isFalse => exact h gen m hi

end Keeps

end Attempt

section Reported

variable {gen gen' : GenerationState} {m m' : Maps} {q : String}

def liveHits (gen : GenerationState) (m : Maps) (q : String) : Nat :=
  slotHits gen.idxToRuleId m (List.range gen.idxToRuleId.length) q

-- A rule is reported once there is something to report.
def reported (gen : GenerationState) (m : Maps) (q : String) : Option Nat :=
  if gen.counterAccum q = none ∧ liveHits gen m q = 0 then none
  else some ((gen.counterAccum q).getD 0 + liveHits gen m q)

theorem sumCounters_eq_none (clock : Nat) (m : Maps) (q : String) (byRule : String → Option Nat)
    (l : List (String × Nat)) :
    (Loader.run clock (sumCounters byRule l) m).1 q = none ↔
      byRule q = none ∧ ((l.filter (·.1 = q)).map fun p => m.counter p.2).sum = 0 := by
  induction l generalizing byRule
  case nil => simp [sumCounters]
  case cons p l ih =>
    rw [sumCounters, Loader.run_bind, Loader.run_counterGet, Loader.run_ite]
    by_cases hp : p.1 = q <;> by_cases hc : m.counter p.2 > 0
    all_goals simp [hp, hc, ih, addCount, Function.update_apply]
    all_goals grind

theorem run_counters_reported (clock : Nat) (gen : GenerationState) (m : Maps) :
    (Loader.run clock (counters gen) m).1 =
      ⟨reported gen m, gen.defaultDenyAccum + m.counter CTR_DEFAULT_DENY⟩ := by
  have ⟨byRule, hr, hs, _⟩ := run_sumCounters clock m gen.counterAccum gen.idxToRuleId.zipIdx
  have hb : byRule = reported gen m := by
    funext q
    have hn := sumCounters_eq_none clock m q gen.counterAccum gen.idxToRuleId.zipIdx
    have hq := hs q
    rw [hr, sum_zipIdx] at hn
    rw [sum_zipIdx] at hq
    rw [reported, liveHits]
    split
    case isTrue h => exact hn.mpr h
    case isFalse h =>
      have ⟨v, hv⟩ : ∃ v, byRule q = some v := Option.ne_none_iff_exists'.mp (mt hn.mp h)
      rw [hv] at hq ⊢
      exact congrArg some hq
  simp only [counters, Loader.run_bind, Loader.run_counterGet, hr, Loader.run_pure, hb]

theorem slotHits_zeroed (ids : List String) (m : Maps) (q : String) {is : List Nat}
    (hn : is.Nodup) (hi : i ∈ is) :
    slotHits ids m is q =
      slotHits ids (m.setCounter i 0) is q + if ids[i]? = some q then m.counter i else 0 := by
  induction is
  case nil => cases hi
  case cons j is ih =>
    have ⟨hj, hn⟩ := List.nodup_cons.mp hn
    rw [slotHits_cons, slotHits_cons, Maps.counter_setCounter_zero]
    cases List.mem_cons.mp hi
    case inl he =>
      subst he
      rw [slotHits_setCounter hj]
      grind
    case inr hi =>
      have hne : j ≠ i := fun he => hj (he ▸ hi)
      rw [ih hn hi, if_neg hne, Nat.add_assoc]

-- There is something to report for a rule.
def HasCount (gen : GenerationState) (m : Maps) (q : String) : Prop :=
  gen.counterAccum q ≠ none ∨ ∃ i, gen.idxToRuleId[i]? = some q ∧ 0 < m.counter i

theorem liveHits_eq_zero :
    liveHits gen m q = 0 ↔ ¬ ∃ i, gen.idxToRuleId[i]? = some q ∧ 0 < m.counter i := by
  constructor
  case mp =>
    intro h ⟨i, hi, hc⟩
    have ⟨hl, _⟩ := List.getElem?_eq_some_iff.mp hi
    rw [liveHits, slotHits_zeroed _ m q List.nodup_range (List.mem_range.mpr hl), if_pos hi] at h
    omega
  case mpr =>
    intro h
    exact slotHits_zero fun i _ hi => Nat.eq_zero_of_not_pos fun hc => h ⟨i, hi, hc⟩

theorem reported_eq_none : reported gen m q = none ↔ ¬ HasCount gen m q := by
  rw [reported, ite_eq_left_iff, HasCount, not_or, not_ne_iff, ← liveHits_eq_zero]
  simp

theorem reported_congr (ha : gen'.counterAccum q = gen.counterAccum q)
    (hh : liveHits gen' m' q = liveHits gen m q) : reported gen' m' q = reported gen m q := by
  rw [reported, reported, ha, hh]

theorem reported_of_counters
    (h : (Loader.run clock (counters gen') m').1 = (Loader.run clock (counters gen) m).1)
    (q : String) : reported gen' m' q = reported gen m q := by
  rw [run_counters_reported, run_counters_reported] at h
  exact congrFun (Counters.mk.inj h).1 q

-- One step of the fold: a hit is taken from its slot and put down under the name of the rule.
def moveHit (gen : GenerationState) (idx val : Nat) : GenerationState :=
  match gen.idxToRuleId[idx]? with
  | some ruleId => { gen with counterAccum := addCount gen.counterAccum ruleId val }
  | none        => gen

theorem idxToRuleId_moveHit : (moveHit gen idx val).idxToRuleId = gen.idxToRuleId := by
  rw [moveHit]
  split <;> rfl

theorem reported_moveHit (h : 0 < m.counter idx) :
    reported (moveHit gen idx (m.counter idx)) (m.setCounter idx 0) q = reported gen m q := by
  have hm : liveHits (moveHit gen idx (m.counter idx)) (m.setCounter idx 0) q =
      slotHits gen.idxToRuleId (m.setCounter idx 0) (List.range gen.idxToRuleId.length) q := by
    rw [liveHits, idxToRuleId_moveHit]
  rw [reported, hm, reported, liveHits, moveHit]
  cases hid : gen.idxToRuleId[idx]?
  case none =>
    have hz : slotHits gen.idxToRuleId (m.setCounter idx 0) (List.range gen.idxToRuleId.length) q =
        slotHits gen.idxToRuleId m (List.range gen.idxToRuleId.length) q :=
      slotHits_setCounter (by simpa using hid)
    rw [hz]
  case some ruleId =>
    have ⟨hl, _⟩ := List.getElem?_eq_some_iff.mp hid
    rw [slotHits_zeroed gen.idxToRuleId m q List.nodup_range (List.mem_range.mpr hl), hid]
    dsimp only
    simp only [addCount, Function.update_apply]
    grind

-- What an attempt has left as it was: the generation that is active and all that is reported.
structure Undisturbed (gen gen' : GenerationState) (m m' : Maps) : Prop where
  active      : m'.activeSlot = m.activeSlot
  slot        : m'.slot m.activeSlot = m.slot m.activeSlot
  flows       : m'.flows = m.flows
  config      : m'.config = m.config
  idxToRuleId : gen'.idxToRuleId = gen.idxToRuleId
  pendingReap : gen'.pendingReap = gen.pendingReap
  byRule      : ∀ q, reported gen' m' q = reported gen m q
  defaultDeny : gen'.defaultDenyAccum + m'.counter CTR_DEFAULT_DENY =
    gen.defaultDenyAccum + m.counter CTR_DEFAULT_DENY

namespace Undisturbed

theorem refl (gen : GenerationState) (m : Maps) : Undisturbed gen gen m m :=
  ⟨rfl, rfl, rfl, rfl, rfl, rfl, fun _ => rfl, rfl⟩

variable {gen₀ : GenerationState} {m₀ : Maps}

theorem counters (h : Undisturbed gen gen' m m') (clock : Nat) :
    (Loader.run clock (counters gen') m').1 = (Loader.run clock (Enforcer.counters gen) m).1 := by
  rw [run_counters_reported, run_counters_reported, funext h.byRule, h.defaultDeny]

-- Something is installed in a slot that is not active.
theorem install (h : Undisturbed gen₀ gen m₀ m) (hm : m'.counters = m.counters)
    (ha : m'.active = m.active) (hf : m'.flows = m.flows) (hc : m'.config = m.config)
    (hs : m'.slot m₀.activeSlot = m.slot m₀.activeSlot) : Undisturbed gen₀ gen m₀ m' where
  active      := by rw [← h.active, Maps.activeSlot, ha, Maps.activeSlot]
  slot        := hs.trans h.slot
  flows       := hf.trans h.flows
  config      := hc.trans h.config
  idxToRuleId := h.idxToRuleId
  pendingReap := h.pendingReap
  byRule q    := by
    rw [← h.byRule q]
    exact reported_congr rfl (slotHits_congr fun i _ => by rw [Maps.counter, hm, Maps.counter])
  defaultDeny := by rw [← h.defaultDeny, Maps.counter, hm, Maps.counter]

-- The hits of a rule are moved.
theorem moveHit (h : Undisturbed gen₀ gen m₀ m) (hi : idx ≠ CTR_DEFAULT_DENY)
    (hc : 0 < m.counter idx) :
    Undisturbed gen₀ (moveHit gen idx (m.counter idx)) m₀ (m.setCounter idx 0) where
  active      := h.active
  slot        := h.slot
  flows       := h.flows
  config      := h.config
  idxToRuleId := idxToRuleId_moveHit.trans h.idxToRuleId
  pendingReap := by
    rw [← h.pendingReap, Enforcer.moveHit]
    split <;> rfl
  byRule q    := (reported_moveHit hc).trans (h.byRule q)
  defaultDeny := by
    rw [← h.defaultDeny, Maps.counter_setCounter_zero, if_neg hi.symm, Enforcer.moveHit]
    split <;> rfl

-- So are the denials.
theorem moveDenied (h : Undisturbed gen₀ gen m₀ m) (hl : gen₀.idxToRuleId.length ≤ MAX_RULES) :
    Undisturbed gen₀
      { gen with defaultDenyAccum := gen.defaultDenyAccum + m.counter CTR_DEFAULT_DENY } m₀
      (m.setCounter CTR_DEFAULT_DENY 0) where
  active      := h.active
  slot        := h.slot
  flows       := h.flows
  config      := h.config
  idxToRuleId := h.idxToRuleId
  pendingReap := h.pendingReap
  byRule q    := by
    rw [← h.byRule q]
    have hn : CTR_DEFAULT_DENY ∉ List.range gen.idxToRuleId.length := by
      rw [h.idxToRuleId, List.mem_range, CTR_DEFAULT_DENY]
      omega
    exact reported_congr rfl (slotHits_setCounter hn)
  defaultDeny := by
    rw [← h.defaultDeny, Maps.counter_setCounter_zero, if_pos rfl, Nat.add_zero]

-- A rule is not missed if there was nothing to report for it.
theorem prune (h : Undisturbed gen₀ gen m₀ m) (hall : ∀ q, HasCount gen₀ m₀ q → q ∈ ids) :
    Undisturbed gen₀ (pruneRetiredCounters gen ids) m₀ m where
  active      := h.active
  slot        := h.slot
  flows       := h.flows
  config      := h.config
  idxToRuleId := h.idxToRuleId
  pendingReap := h.pendingReap
  defaultDeny := h.defaultDeny
  byRule q    := by
    rw [← h.byRule q]
    by_cases hq : q ∈ ids
    case pos => exact reported_congr (if_pos hq) rfl
    case neg =>
      have hn : reported gen m q = none :=
        (h.byRule q).trans (reported_eq_none.mpr (mt (hall q) hq))
      have ⟨_, hc⟩ := not_or.mp (reported_eq_none.mp hn)
      rw [hn]
      exact reported_eq_none.mpr (not_or.mpr ⟨not_not.mpr (if_neg hq), hc⟩)

end Undisturbed

end Reported

namespace Faulty

open Attempt

section Unfinished

variable {clock : Nat} {fails : KernelOp → Bool} {gen gen' : GenerationState} {m m' : Maps}

theorem foldCounters_cons (idx : Nat) (is : List Nat) :
    foldCounters (idx :: is) = (do
      let val ← counterOrZero idx
      if val > 0 then
        access (.counterSet idx 0)
        update (moveHit · idx val)
      foldCounters is) :=
  rfl

theorem undisturbed_foldCounters (h : Undisturbed gen gen' m m')
    (hi : ∀ i ∈ is, i ≠ CTR_DEFAULT_DENY) :
    Undisturbed gen (run clock fails (foldCounters is) gen' m').1.2 m
      (run clock fails (foldCounters is) gen' m').2 := by
  induction is generalizing gen' m'
  case nil => exact h
  case cons idx is ih =>
    have ⟨hi, his⟩ := List.forall_mem_cons.mp hi
    rw [foldCounters_cons, run_bind, run_counterOrZero]
    dsimp only
    by_cases hf : fails (.access (.counterGet idx))
    case pos =>
      rw [if_pos hf]
      exact ih h his
    case neg =>
      rw [if_neg hf]
      split
      case isFalse   => exact ih h his
      case isTrue hv =>
        rw [run_access_bind]
        cases fails (.access (.counterSet idx 0))
        case true  => exact h
        case false => exact ih (h.moveHit hi hv) his

theorem undisturbed_foldAndResetCounters (hl : gen.idxToRuleId.length ≤ MAX_RULES)
    (h : Undisturbed gen gen' m m') (newLen : Nat) :
    Undisturbed gen (run clock fails (foldAndResetCounters newLen) gen' m').1.2 m
      (run clock fails (foldAndResetCounters newLen) gen' m').2 := by
  rw [foldAndResetCounters, run_bind, run_state]
  dsimp only
  rw [run_bind]
  have hi : ∀ i ∈ List.range (min (max gen'.idxToRuleId.length newLen) MAX_RULES),
      i ≠ CTR_DEFAULT_DENY := fun i hi => by
    have := List.mem_range.mp hi
    rw [CTR_DEFAULT_DENY]
    omega
  have h : Undisturbed gen (run clock fails (foldCounters _) gen' m').1.2 m _ :=
    undisturbed_foldCounters h hi
  generalize run clock fails (foldCounters _) gen' m' = r at h
  obtain ⟨⟨e | a, gen₁⟩, m₁⟩ := r
  case error => exact h
  case ok =>
    dsimp only at h ⊢
    rw [run_bind, run_counterOrZero]
    dsimp only
    by_cases hf : fails (.access (.counterGet CTR_DEFAULT_DENY))
    case pos =>
      rw [if_pos hf]
      exact h
    case neg =>
      rw [if_neg hf]
      split
      case isFalse => exact h
      case isTrue =>
        rw [run_access_bind]
        cases fails (.access (.counterSet CTR_DEFAULT_DENY 0))
        case true  => exact h
        case false => exact h.moveDenied hl

section Install

variable {I : GenerationState → Maps → Prop}

theorem keeps_insertEntries {context : String} {map : InnerMap} {trie : Trie}
    {es : List ((Ipv4Net × RuleBits) × Nat)} :
    Keeps clock fails I (insertEntries context map trie es) := by
  induction es generalizing trie
  case nil => exact keeps_pure
  case cons e es ih =>
    exact keeps_bind keeps_orFail fun _ => keeps_bind keeps_fill fun _ => ih

theorem keeps_buildTrie {context : String} {map : InnerMap} {entries : List (Ipv4Net × RuleBits)} :
    Keeps clock fails I (buildTrie context map entries) :=
  keeps_bind keeps_create fun _ => keeps_insertEntries

theorem keeps_setRules {arr : RulesArr} {es : List (RuleMeta × Nat)} :
    Keeps clock fails I (setRules arr es) := by
  induction es generalizing arr
  case nil => exact keeps_pure
  case cons e es ih =>
    exact keeps_bind keeps_orFail fun _ => keeps_bind keeps_fill fun _ => ih

end Install

-- A generation goes into the slot that is not active.
theorem keeps_installGeneration (ht : target ≠ m.activeSlot)
    (src dst : List (Ipv4Net × RuleBits)) (rules : List RuleMeta) :
    Keeps clock fails (fun gen' m' => Undisturbed gen gen' m m')
      (installGeneration target src dst rules) := by
  have hne := ht.symm
  refine keeps_bind keeps_buildTrie fun _ => keeps_bind keeps_buildTrie fun _ => ?_
  refine keeps_bind keeps_create fun _ => keeps_bind keeps_setRules fun _ => ?_
  refine keeps_bind keeps_create fun _ => keeps_bind keeps_fill fun _ => ?_
  refine keeps_bind ?src fun _ => keeps_bind ?dst fun _ => keeps_bind ?rules fun _ => ?metaArr
  all_goals
    refine keeps_access fun gen' m' h => h.install rfl rfl rfl rfl ?_
    simp [Maps.slot, Maps.slotSrc, Maps.slotDst, Maps.slotRules, Maps.slotMeta, Maps.execLoader,
      ArrayMap.get_set_ne _ _ hne]

theorem keeps_foldAndResetCounters (hl : gen.idxToRuleId.length ≤ MAX_RULES) (newLen : Nat) :
    Keeps clock fails (fun gen' m' => Undisturbed gen gen' m m') (foldAndResetCounters newLen) :=
  fun _ _ h => undisturbed_foldAndResetCounters hl h newLen

-- Nothing has been disturbed before the flip, wherever the apply has got to.
theorem undisturbed_prepareFlip (hl : gen.idxToRuleId.length ≤ MAX_RULES)
    (h : run clock fails (prepareFlip flat) gen m = ((r, gen'), m')) :
    Undisturbed gen gen' m m' ∧ ∀ a, r = .ok a → a = m.activeSlot := by
  rw [prepareFlip, run_access_bind] at h
  split at h
  case isTrue =>
    cases h
    exact ⟨.refl gen m, nofun⟩
  case isFalse =>
    have keeps : Keeps clock fails (fun gen' m' => Undisturbed gen gen' m m') (do
        installGeneration (1 - m.activeSlot) (buildLpmEntries flat .src) (buildLpmEntries flat .dst)
          (buildRules flat).1
        foldAndResetCounters flat.length
        return m.activeSlot) :=
      keeps_bind (keeps_installGeneration (by omega) _ _ _) fun _ =>
        keeps_bind (keeps_foldAndResetCounters hl _) fun _ => keeps_pure
    have hk := keeps gen m (.refl gen m)
    dsimp only [Maps.execLoader] at h
    constructor
    case left => rwa [h] at hk
    case right =>
      intro a ha
      subst ha
      have ⟨_, _, _, _, h⟩ := run_bind_ok h
      have ⟨_, _, _, _, h⟩ := run_bind_ok h
      cases h
      rfl

-- An apply fails before the flip, or in it.
theorem applyGeneration_error (hl : gen.idxToRuleId.length ≤ MAX_RULES)
    (h : run clock fails (applyGeneration flat) gen m = ((.error e, gen'), m')) :
    Undisturbed gen gen' m m' ∨
      fails (.access (.activeSet (1 - m.activeSlot))) ∧ ∃ gen₁, Undisturbed gen gen₁ m m' ∧
        gen' = pruneRetiredCounters gen₁ (flat.map (·.ruleId)) := by
  rw [applyGeneration, run_bind] at h
  generalize hp : run clock fails (prepareFlip flat) gen m = r at h
  obtain ⟨⟨e | a, gen₁⟩, m₁⟩ := r
  case error =>
    cases h
    exact .inl (undisturbed_prepareFlip hl hp).1
  case ok =>
    have ⟨hu, ha⟩ := undisturbed_prepareFlip hl hp
    cases ha a rfl
    dsimp only at h
    rw [run_bind, run_update] at h
    dsimp only at h
    rw [run_access_bind] at h
    split at h
    case isFalse => cases h
    case isTrue hf =>
      cases h
      exact .inr ⟨hf, gen₁, hu, rfl⟩

end Unfinished

section Faultless

variable {clock : Nat} {fails : KernelOp → Bool} {gen : GenerationState} {m : Maps}

-- No call fails but, at most, the flip.
def OnlyFlip (fails : KernelOp → Bool) : Prop :=
  ∀ o, (∀ s, o ≠ .access (.activeSet s)) → fails o = false

variable (hf : OnlyFlip fails)
include hf

theorem run_create_ok (context : String) (map : InnerMap) :
    run clock fails (create context map) gen m = ((.ok (), gen), m) := by
  rw [run_create, hf (.create map) (by simp)]
  rfl

theorem run_fill_ok (context : String) (map : InnerMap) (i : Nat) :
    run clock fails (fill context map i) gen m = ((.ok (), gen), m) := by
  rw [run_fill, hf (.fill map i) (by simp)]
  rfl

theorem run_access_ok {o : LoaderOp} (ho : ∀ s, o ≠ .activeSet s) (f : o.Resp → Attempt α) :
    run clock fails (access o >>= f) gen m =
      run clock fails (f (m.execLoader clock o).1) gen (m.execLoader clock o).2 := by
  rw [run_access_bind, hf _ fun s h => ho s (KernelOp.access.inj h)]
  rfl

theorem run_insertEntries (context : String) (map : InnerMap) (trie : Trie)
    (entries : List (Ipv4Net × RuleBits)) (k : Nat) :
    run clock fails (insertEntries context map trie (entries.zipIdx k)) gen m =
      run clock fails (orFail context
        (entries.foldlM (fun trie e => trieInsert trie (lpmKey e.1) e.2) trie)) gen m := by
  induction entries generalizing trie k
  case nil => rfl
  case cons e entries ih =>
    rw [List.zipIdx_cons, insertEntries, List.foldlM_cons, run_bind_orFail rfl]
    cases trieInsert trie (lpmKey e.1) e.2
    case none => rfl
    case some trie' => exact (run_bind_of_ok (run_fill_ok hf ..) _).trans (ih trie' (k + 1))

theorem run_setRules (arr : RulesArr) (es : List (RuleMeta × Nat)) :
    run clock fails (setRules arr es) gen m =
      run clock fails (orFail "the index is 256 but `max_entries` is 256" (es.foldlM setRule arr))
        gen m := by
  induction es generalizing arr
  case nil => rfl
  case cons e es ih =>
    rw [setRules, List.foldlM_cons, run_bind_orFail rfl]
    cases setRule arr e
    case none => rfl
    case some arr' => exact (run_bind_of_ok (run_fill_ok hf ..) _).trans (ih arr')

theorem run_buildTrie (context : String) (map : InnerMap) (entries : List (Ipv4Net × RuleBits)) :
    run clock fails (buildTrie context map entries) gen m =
      run clock fails (orFail context (Enforcer.buildTrie entries)) gen m :=
  (run_bind_of_ok (run_create_ok hf ..) _).trans (run_insertEntries hf context map [] entries 0)

theorem run_installGeneration (target : Nat) (src dst : List (Ipv4Net × RuleBits))
    (rules : List RuleMeta) :
    run clock fails (installGeneration target src dst rules) gen m =
      match buildGeneration src dst rules with
      | .ok g    => ((.ok (), gen), m.install target g)
      | .error e => ((.error e, gen), m) := by
  rw [installGeneration, buildGeneration, run_bind_orFail (run_buildTrie hf ..)]
  cases Enforcer.buildTrie src
  case none => rfl
  case some srcTrie =>
    rw [Option.elim_some, run_bind_orFail (run_buildTrie hf ..)]
    cases Enforcer.buildTrie dst
    case none => rfl
    case some dstTrie =>
      rw [Option.elim_some, run_bind_of_ok (run_create_ok hf ..), run_bind_orFail (run_setRules hf ..), fillRules]
      cases rules.zipIdx.foldlM setRule (.zeroed MAX_RULES .zero)
      case none => rfl
      case some rulesArr =>
        rw [Option.elim_some, run_bind_of_ok (run_create_ok hf ..), run_bind_of_ok (run_fill_ok hf ..),
          run_access_ok hf (by simp), run_access_ok hf (by simp), run_access_ok hf (by simp),
          run_access, hf _ (by simp)]
        rfl

theorem run_foldCounters (is : List Nat) :
    run clock fails (foldCounters is) gen m =
      ((.ok (), (Loader.run clock (Enforcer.foldCounters gen is) m).1),
        (Loader.run clock (Enforcer.foldCounters gen is) m).2) := by
  induction is generalizing gen m
  case nil => rfl
  case cons idx is ih =>
    rw [foldCounters_cons, run_bind_of_ok run_counterOrZero, hf _ (by simp), Enforcer.foldCounters,
      Loader.run_bind, Loader.run_counterGet, Loader.run_ite, if_neg Bool.false_ne_true]
    split
    case isFalse => exact ih
    case isTrue =>
      rw [run_access_ok hf (by simp), run_bind_of_ok (run_update _), ih, Loader.run_bind,
        Loader.run_counterSet, moveHit]
      cases gen.idxToRuleId[idx]? <;> rfl

theorem run_foldAndResetCounters (newLen : Nat) :
    run clock fails (foldAndResetCounters newLen) gen m =
      ((.ok (), (Loader.run clock (Enforcer.foldAndResetCounters gen newLen) m).1),
        (Loader.run clock (Enforcer.foldAndResetCounters gen newLen) m).2) := by
  rw [foldAndResetCounters, run_bind_of_ok run_state, run_bind_of_ok (run_foldCounters hf _),
    run_bind_of_ok run_counterOrZero, hf _ (by simp), Enforcer.foldAndResetCounters, Loader.run_bind,
    Loader.run_bind, Loader.run_counterGet, Loader.run_ite, if_neg Bool.false_ne_true]
  split
  case isFalse => rfl
  case isTrue =>
    rw [run_access_ok hf (by simp)]
    rfl

theorem run_prepareFlip (flat : List FlatRule) :
    run clock fails (prepareFlip flat) gen m =
      match Loader.run clock (prepareGeneration flat) m with
      | (.error e, m')      => ((.error e, gen), m')
      | (.ok activeNow, m') =>
        ((.ok activeNow, (Loader.run clock (Enforcer.foldAndResetCounters gen flat.length) m').1),
          (Loader.run clock (Enforcer.foldAndResetCounters gen flat.length) m').2) := by
  rw [prepareFlip, run_access_ok hf (by simp), prepareGeneration, Loader.run_bind,
    Loader.run_activeGet, run_bind, run_installGeneration hf]
  dsimp only [Maps.execLoader]
  cases buildGeneration (buildLpmEntries flat .src) (buildLpmEntries flat .dst) (buildRules flat).1
  case error => rfl
  case ok g =>
    dsimp only
    rw [run_bind_of_ok (run_foldAndResetCounters hf _)]
    rfl

omit hf

-- Without a failure this is the apply of the loader.
theorem run_applyGeneration (clock : Nat) (flat : List FlatRule) (gen : GenerationState) (m : Maps) :
    run clock (fun _ => false) (applyGeneration flat) gen m =
      match Loader.run clock (Enforcer.applyGeneration flat gen) m with
      | (.error e, m')   => ((.error e, gen), m')
      | (.ok gen', m') => ((.ok (), gen'), m') := by
  have hf : OnlyFlip fun _ => false := fun _ _ => rfl
  rw [applyGeneration, Enforcer.applyGeneration, run_bind, run_prepareFlip hf, Loader.run_bind]
  cases Loader.run clock (prepareGeneration flat) m with
  | mk r m' =>
  cases r
  case error => rfl
  case ok activeNow =>
    dsimp only
    rw [run_bind_of_ok (run_update _), run_access_bind, Loader.run_bind, commitGeneration, Loader.run_bind]
    rfl

end Faultless

section Failed

variable {clock : Nat} {gen gen' : GenerationState} {m m' : Maps} {flat : List FlatRule}

-- The same generation is active, and the counters are reported as before.
structure AsBefore (clock : Nat) (gen gen' : GenerationState) (m m' : Maps) : Prop where
  active   : m'.activeSlot = m.activeSlot
  slot     : m'.slot m.activeSlot = m.slot m.activeSlot
  counters : (Loader.run clock (counters gen') m').1 = (Loader.run clock (counters gen) m).1

theorem asBefore_of_undisturbed (h : Undisturbed gen gen' m m') : AsBefore clock gen gen' m m' :=
  ⟨h.active, h.slot, h.counters clock⟩

-- Only the flip fails.
def flipFails : KernelOp → Bool
  | .access (.activeSet _) => true
  | _                      => false

theorem onlyFlip_flipFails : OnlyFlip flipFails := by
  intro o ho
  unfold flipFails
  split
  case h_1 s => exact absurd rfl (ho s)
  case h_2   => rfl

-- By the time of the flip all hits have been folded, and those of other rules dropped.
theorem run_flipFails [Ipnet] (clock : Nat) (m : Maps) (hl : gen.idxToRuleId.length ≤ MAX_RULES)
    (hp : flatten ir = .ok flat) :
    ∃ e gen' m', run clock flipFails (applyGeneration flat) gen m = ((.error e, gen'), m') ∧
      ∀ q, q ∉ flat.map (·.ruleId) → reported gen' m' q = none := by
  have ⟨g, _, hg⟩ := run_prepareGeneration clock m (flatten_numbered hp) (flatten_checkLpmCapacity hp)
  have ⟨accum, hr, _⟩ := Enforcer.run_foldAndResetCounters clock gen flat.length
    (m.install (1 - m.activeSlot) g)
  set folded := Loader.run clock (Enforcer.foldAndResetCounters gen flat.length)
    (m.install (1 - m.activeSlot) g)
  have hrun : run clock flipFails (applyGeneration flat) gen m =
      ((.error "syscall failed", pruneRetiredCounters folded.1 (flat.map (·.ruleId))), folded.2) := by
    rw [applyGeneration, run_bind, run_prepareFlip onlyFlip_flipFails, hg]
    dsimp only
    rw [run_bind_of_ok (run_update _), run_access_bind]
    rfl
  refine ⟨_, _, _, hrun, fun q hq => ?_⟩
  refine reported_eq_none.mpr (not_or.mpr ⟨not_not.mpr (if_neg hq), fun ⟨i, hi, hc⟩ => ?_⟩)
  rw [hr] at hi hc
  have ⟨hlt, _⟩ := List.getElem?_eq_some_iff.mp hi
  have hi : i < resetLen gen flat.length := by
    have hlt : i < gen.idxToRuleId.length := hlt
    rw [resetLen]
    omega
  rw [Maps.counter_setCounter_zero, Maps.counter_zeroCounters, if_pos (List.mem_range.mpr hi),
    ite_self] at hc
  exact Nat.lt_irrefl _ hc

-- An apply in which some call fails leaves everything as it was unless that call is the flip. For a
-- flip that fails it does so exactly if the new policy has every rule with something to report: the
-- counts of the others have been dropped by then.
theorem failed_apply_iff [Ipnet] (hl : gen.idxToRuleId.length ≤ MAX_RULES)
    (hp : flatten ir = .ok flat) :
    (∀ fails e gen' m', fails (.access (.activeSet (1 - m.activeSlot))) = false →
      run clock fails (applyGeneration flat) gen m = ((.error e, gen'), m') →
      AsBefore clock gen gen' m m') ∧
    ((∀ fails e gen' m', run clock fails (applyGeneration flat) gen m = ((.error e, gen'), m') →
        AsBefore clock gen gen' m m') ↔
      ∀ q, HasCount gen m q → q ∈ flat.map (·.ruleId)) := by
  refine ⟨fun fails e gen' m' hflip h => ?_, fun h q hq => ?_, fun hall fails e gen' m' h => ?_⟩
  case refine_1 =>
    cases applyGeneration_error hl h
    case inl hu => exact asBefore_of_undisturbed hu
    case inr hu => simp [hflip] at hu
  case refine_2 =>
    by_contra hn
    have ⟨e, gen', m', hr, hnone⟩ := run_flipFails clock m hl hp
    have same := reported_of_counters (h flipFails e gen' m' hr).counters q
    exact reported_eq_none.mp (same.symm.trans (hnone q hn)) hq
  case refine_3 =>
    cases applyGeneration_error hl h
    case inl hu => exact asBefore_of_undisturbed hu
    case inr hp =>
      have ⟨_, gen₁, hu, he⟩ := hp
      subst he
      exact asBefore_of_undisturbed (hu.prune hall)

end Failed

section Examples

open Gateway

-- The rule of the only policy has been hit once.
def oneHit : Maps :=
  (Kernel.run (aethIngress onePacket 2) oneCommitted.maps).2

-- It is to be replaced by a policy without rules, and stays active.
def unflipped : (Except String Unit × GenerationState) × Maps :=
  run 3 flipFails (applyGeneration []) oneCommitted.gen oneHit

theorem failed_flip_drops_counts :
    flatten { schema := 1, version := 2, blocks := [] } = .ok [] ∧
    unflipped.1.1.toBool = false ∧ unflipped.2.activeSlot = oneHit.activeSlot ∧
    (Loader.run 3 (counters oneCommitted.gen) oneHit).1.byRule "r" = some 1 ∧
    (Loader.run 3 (counters unflipped.1.2) unflipped.2).1.byRule "r" = none := by
  decide +kernel

-- The same policy once more.
theorem failed_apply_iff_one :
    ∃ e gen' m', run 3 flipFails (applyGeneration oneFlat) oneCommitted.gen oneHit =
      ((.error e, gen'), m') ∧ AsBefore 3 oneCommitted.gen gen' oneHit m' := by
  have hl : oneCommitted.gen.idxToRuleId.length ≤ MAX_RULES := by decide +kernel
  have hp : flatten onePolicy = .ok oneFlat := by rfl
  have ⟨e, gen', m', hr, _⟩ := run_flipFails 3 oneHit hl hp
  refine ⟨e, gen', m', hr, (failed_apply_iff hl hp).2.mpr (fun q hq => ?_) flipFails e gen' m' hr⟩
  have hc := run_commitGeneration 1 oneFlat 0 onePrepared.gen onePrepared.maps
  cases hq
  case inl ha => exact by_contra fun hn => ha (hc.pruned q hn)
  case inr hi =>
    have ⟨i, hi, _⟩ := hi
    exact List.mem_of_getElem? (hc.idxToRuleId ▸ hi)

end Examples

end Faulty

end Enforcer
