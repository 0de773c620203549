import WireMesh.Enforcer.Theorems.Ebpf

-- An apply that runs alone.
namespace Enforcer

open Policy Loader

variable {flat : List FlatRule} {gen : GenerationState} {m : Maps} {clock : Nat}

theorem renumber_flatMap (flat : List FlatRule) (side : Side) :
    (renumber flat).flatMap (sideCidrs · side) = flat.flatMap (sideCidrs · side) := by
  have h (f : Nat → FlatRule → FlatRule) (hf : ∀ i r, sideCidrs (f i r) side = sideCidrs r side) :
      (flat.mapIdx f).flatMap (sideCidrs · side) = flat.flatMap (sideCidrs · side) := by
    induction flat generalizing f
    case nil => rfl
    case cons r flat ih => simp [hf, ih _ fun i r => hf (i + 1) r]
  exact h _ fun i r => by cases side <;> rfl

theorem flatten_numbered [Ipnet] (h : flatten ir = .ok flat) : Numbered flat := by
  obtain ⟨hl, rows, hr, _, _, he⟩ := flatten_ok.mp h
  subst he
  constructor
  case idx =>
    intro i f hf
    simp only [renumber, List.getElem?_mapIdx, Option.map_eq_some_iff] at hf
    obtain ⟨_, _, hf⟩ := hf
    rw [← hf]
  case length => simpa [renumber, ← expanded_eq hr] using hl

-- An exploded rule brings the same two lists once per port range, so counting over the flattened
-- list is counting over the rules.
theorem accumulateSide_rows (rows : List Row) (side : Side) (sel : Row → List Ipv4Net)
    (hs : ∀ r, ∀ f ∈ Row.flat r, sideCidrs f side = sel r) (d : DistinctSideCidrs) :
    d.observe ((rows.flatMap Row.flat).flatMap (sideCidrs · side)) = d.observe (rows.flatMap sel) := by
  have same (l : List FlatRule) (x : List Ipv4Net) (hx : ∀ f ∈ l, sideCidrs f side = x)
      (hl : l ≠ []) (d : DistinctSideCidrs) :
      d.observe (l.flatMap (sideCidrs · side)) = d.observe x := by
    cases l
    case nil => contradiction
    case cons f l =>
      have ⟨hf, ht⟩ := List.forall_mem_cons.mp hx
      rw [List.flatMap_cons, DistinctSideCidrs.observe_append, hf,
        DistinctSideCidrs.observe_of_subset]
      intro n hn
      have ⟨f, hf, hn⟩ := List.mem_flatMap.mp hn
      exact DistinctSideCidrs.mem_observe.mpr <| .inr (ht f hf ▸ hn)
  induction rows generalizing d
  case nil => rfl
  case cons r rows ih =>
    rw [List.flatMap_cons, List.flatMap_append, DistinctSideCidrs.observe_append, ih,
      same _ _ (hs r) r.flat_ne_nil, List.flatMap_cons, DistinctSideCidrs.observe_append]

theorem accumulateSide_flat (rows : List Row) :
    accumulateSide (renumber (rows.flatMap Row.flat)) .src =
      (FlattenState.init.addAll rows).srcDistinct ∧
    accumulateSide (renumber (rows.flatMap Row.flat)) .dst =
      (FlattenState.init.addAll rows).dstDistinct := by
  simp only [accumulateSide_eq, renumber_flatMap, FlattenState.addAll_eq]
  constructor
  case left  => exact accumulateSide_rows rows .src Row.src (fun _ _ h => (Row.mem_flat h).2.2.2.1) _
  case right => exact accumulateSide_rows rows .dst Row.dst (fun _ _ h => (Row.mem_flat h).2.2.2.2) _

theorem checkLpmCapacity_flat {rows : List Row} :
    checkLpmCapacity (renumber (rows.flatMap Row.flat)) = .ok () ↔
      (FlattenState.init.addAll rows).Fits := by
  simp only [checkLpmCapacity, Checked.bind_ok, DistinctSideCidrs.check_ok, exists_const,
    accumulateSide_flat, FlattenState.Fits]

-- The check before the tables are built never fails on what `flatten` accepts.
theorem flatten_checkLpmCapacity [Ipnet] (h : flatten ir = .ok flat) : checkLpmCapacity flat = .ok () := by
  have ⟨_, rows, _, _, hf, he⟩ := flatten_ok.mp h
  exact he ▸ checkLpmCapacity_flat.mpr hf

-- The hits that the slots `is` hold for a rule.
def slotHits (ids : List String) (m : Maps) (is : List Nat) (ruleId : String) : Nat :=
  (is.filter fun i => decide (ids[i]? = some ruleId)).map m.counter |>.sum

namespace Maps

def zeroCounters (m : Maps) (is : List Nat) : Maps :=
  { m with counters := fun j => if j.val ∈ is then 0 else m.counters j }

theorem counter_zeroCounters (m : Maps) (is : List Nat) (i : Nat) :
    (m.zeroCounters is).counter i = if i ∈ is then 0 else m.counter i := by
  simp only [counter, zeroCounters, ArrayMap.get]
  grind

theorem counter_setCounter_zero (i j : Nat) :
    (m.setCounter i 0).counter j = if j = i then 0 else m.counter j := by
  simp only [counter, setCounter, ArrayMap.get, ArrayMap.set]
  grind

theorem zeroCounters_cons (m : Maps) (i : Nat) (is : List Nat) :
    (m.zeroCounters (i :: is)) = ((m.setCounter i 0).zeroCounters is) := by
  simp only [zeroCounters, setCounter, ArrayMap.set]
  congr 1
  funext j
  simp only [List.mem_cons]
  grind

theorem setCounter_zero (h : m.counter i = 0) : m.setCounter i 0 = m := by
  have hc : m.counters.set i 0 = m.counters := by
    funext j
    simp only [ArrayMap.set]
    split
    case isFalse => rfl
    case isTrue hj =>
      subst hj
      simpa [counter, ArrayMap.get, eq_comm] using h
  rw [setCounter, hc]

end Maps

theorem addCount_getD (accum : String → Option Nat) (ruleId : String) (val : Nat) (q : String) :
    (addCount accum ruleId val q).getD 0 = (accum q).getD 0 + if ruleId = q then val else 0 := by
  simp only [addCount, Function.update_apply]
  grind

theorem slotHits_cons (ids : List String) (m : Maps) (i : Nat) (is : List Nat) (q : String) :
    slotHits ids m (i :: is) q = (if ids[i]? = some q then m.counter i else 0) + slotHits ids m is q := by
  simp only [slotHits, List.filter_cons]
  grind

theorem slotHits_setCounter (h : i ∉ is) : slotHits ids (m.setCounter i v) is q = slotHits ids m is q := by
  induction is
  case nil => rfl
  case cons j is ih =>
    have hj : (m.setCounter i v).counter j = m.counter j := by
      simp only [Maps.counter, Maps.setCounter]
      rw [ArrayMap.get_set_ne]
      grind
    rw [slotHits_cons, slotHits_cons, ih (by grind), hj]

-- The loop moves the hits of each slot to the rule that the slot belonged to and zeroes the slot.
theorem run_foldCounters (clock : Nat) (gen : GenerationState) (m : Maps) (hn : is.Nodup) :
    ∃ accum, run clock (foldCounters gen is) m = ({ gen with counterAccum := accum }, m.zeroCounters is) ∧
      ∀ q, (accum q).getD 0 = (gen.counterAccum q).getD 0 + slotHits gen.idxToRuleId m is q := by
  induction is generalizing gen m
  case nil =>
    refine ⟨gen.counterAccum, ?_, fun q => by simp [slotHits]⟩
    simp [foldCounters, Maps.zeroCounters]
  case cons i is ih =>
    have ⟨hi, hn⟩ := List.nodup_cons.mp hn
    rw [foldCounters, run_bind, run_counterGet, run_ite]
    split
    case isFalse hv =>
      have hv : m.counter i = 0 := by omega
      have ⟨accum, hr, ha⟩ := ih gen m hn
      refine ⟨accum, ?_, fun q => ?_⟩
      case refine_1 => rw [hr, Maps.zeroCounters_cons, Maps.setCounter_zero hv]
      case refine_2 => rw [ha, slotHits_cons, hv, ite_self, Nat.zero_add]
    case isTrue hv =>
      rw [run_bind, run_counterSet]
      cases hid : gen.idxToRuleId[i]?
      case none =>
        have ⟨accum, hr, ha⟩ := ih gen (m.setCounter i 0) hn
        refine ⟨accum, ?_, fun q => ?_⟩
        case refine_1 => rw [hr, Maps.zeroCounters_cons]
        case refine_2 => rw [ha, slotHits_setCounter hi, slotHits_cons, hid]; simp
      case some ruleId =>
        have ⟨accum, hr, ha⟩ := ih { gen with counterAccum := addCount gen.counterAccum ruleId (m.counter i) }
          (m.setCounter i 0) hn
        refine ⟨accum, ?_, fun q => ?_⟩
        case refine_1 => rw [hr, Maps.zeroCounters_cons]
        case refine_2 => rw [ha, addCount_getD, slotHits_setCounter hi, slotHits_cons, hid]; grind

def resetLen (gen : GenerationState) (newLen : Nat) : Nat :=
  min (max gen.idxToRuleId.length newLen) MAX_RULES

theorem run_foldAndResetCounters (clock : Nat) (gen : GenerationState) (newLen : Nat) (m : Maps) :
    ∃ accum,
      run clock (foldAndResetCounters gen newLen) m =
        ({ gen with
            counterAccum     := accum
            defaultDenyAccum := gen.defaultDenyAccum + m.counter CTR_DEFAULT_DENY },
          (m.zeroCounters (List.range (resetLen gen newLen))).setCounter CTR_DEFAULT_DENY 0) ∧
      ∀ q, (accum q).getD 0 = (gen.counterAccum q).getD 0 +
        slotHits gen.idxToRuleId m (List.range (resetLen gen newLen)) q := by
  have ⟨accum, hr, ha⟩ := run_foldCounters clock gen m
    (List.nodup_range (n := resetLen gen newLen))
  refine ⟨accum, ?_, ha⟩
  set m' := m.zeroCounters (List.range (resetLen gen newLen)) with hm
  have hd : m'.counter CTR_DEFAULT_DENY = m.counter CTR_DEFAULT_DENY := by
    rw [hm, Maps.counter_zeroCounters, if_neg]
    simp [resetLen, CTR_DEFAULT_DENY]
  unfold foldAndResetCounters
  rw [run_bind, ← resetLen, hr, run_bind, run_counterGet, run_ite, hd]
  split
  case isTrue  => rfl
  case isFalse h =>
    have h : m.counter CTR_DEFAULT_DENY = 0 := by omega
    rw [Maps.setCounter_zero (hd.trans h), h]
    rfl

namespace Maps

def install (m : Maps) (target : Nat) (g : Generation) : Maps :=
  { m with
    genSrc   := m.genSrc.set target g.src
    genDst   := m.genDst.set target g.dst
    genRules := m.genRules.set target g.rules
    genMeta  := m.genMeta.set target g.metaArr }

theorem slot_install_self (m : Maps) (g : Generation) (h : t < GENERATIONS) :
    (m.install t g).slot t = .ofGeneration g := by
  simp [slot, install, slotSrc, slotDst, slotRules, slotMeta, ArrayMap.get_set_self _ _ h,
    Slot.ofGeneration]

theorem slot_install_ne (m : Maps) (g : Generation) (h : s ≠ t) :
    (m.install t g).slot s = m.slot s := by
  simp [slot, install, slotSrc, slotDst, slotRules, slotMeta, ArrayMap.get_set_ne _ _ h]

end Maps

theorem run_installGeneration (t : Nat) (g : Generation) (m : Maps) :
    run clock (installGeneration t g) m = ((), m.install t g) :=
  rfl

theorem run_prepareGeneration (clock : Nat) (m : Maps) (n : Numbered flat)
    (hc : checkLpmCapacity flat = .ok ()) :
    ∃ g, g.Holds flat ∧ run clock (prepareGeneration flat) m =
      (.ok m.activeSlot, m.install (1 - m.activeSlot) g) := by
  have ⟨g, hg, hh⟩ := buildGeneration_holds n hc
  refine ⟨g, hh, ?_⟩
  rw [prepareGeneration, run_bind, run_activeGet]
  simp only [hg, run_bind, run_installGeneration, run_pure]

-- What the second half of an apply has done: the other slot is active, and the hits of the old rules
-- have moved from their positions to their names.
structure Committed (clock : Nat) (flat : List FlatRule) (activeNow : Nat) (gen gen' : GenerationState)
    (m m' : Maps) : Prop where
  slot        : ∀ s, m'.slot s = m.slot s
  active      : m'.activeSlot = 1 - activeNow
  flows       : m'.flows = m.flows
  config      : m'.config = m.config
  counter     : ∀ i, m'.counter i =
    if i < resetLen gen flat.length ∨ i = CTR_DEFAULT_DENY then 0 else m.counter i
  idxToRuleId : gen'.idxToRuleId = flat.map (·.ruleId)
  pendingReap : gen'.pendingReap = some ⟨activeNow, clock⟩
  pruned      : ∀ q, q ∉ flat.map (·.ruleId) → gen'.counterAccum q = none
  accum       : ∀ q ∈ flat.map (·.ruleId), (gen'.counterAccum q).getD 0 =
    (gen.counterAccum q).getD 0 +
      slotHits gen.idxToRuleId m (List.range (resetLen gen flat.length)) q
  defaultDeny : gen'.defaultDenyAccum = gen.defaultDenyAccum + m.counter CTR_DEFAULT_DENY

theorem run_commitGeneration (clock : Nat) (flat : List FlatRule) (activeNow : Nat)
    (gen : GenerationState) (m : Maps) :
    Committed clock flat activeNow gen (run clock (commitGeneration flat activeNow gen) m).1 m
      (run clock (commitGeneration flat activeNow gen) m).2 := by
  have ⟨accum, hr, ha⟩ := run_foldAndResetCounters clock gen flat.length m
  have hrun : run clock (commitGeneration flat activeNow gen) m =
      ({ pruneRetiredCounters (run clock (foldAndResetCounters gen flat.length) m).1
            (flat.map (·.ruleId)) with
          pendingReap := some ⟨activeNow, clock⟩, idxToRuleId := flat.map (·.ruleId) },
        (run clock (foldAndResetCounters gen flat.length) m).2.setActive (1 - activeNow)) := by
    rw [commitGeneration, run_bind]
    rfl
  rw [hrun, hr]
  constructor
  case slot        => exact fun _ => rfl
  case active      => rfl
  case flows       => rfl
  case config      => rfl
  case idxToRuleId => rfl
  case pendingReap => rfl
  case defaultDeny => rfl
  case pruned      => exact fun q hq => if_neg hq
  case accum =>
    intro q hq
    simp only [pruneRetiredCounters, if_pos hq]
    exact ha q
  case counter =>
    intro i
    have h := Maps.counter_setCounter_zero CTR_DEFAULT_DENY i
      (m := m.zeroCounters (List.range (resetLen gen flat.length)))
    simp only [Maps.counter_zeroCounters, List.mem_range] at h
    refine h.trans ?_
    grind

-- What a whole apply that runs alone has done to the generations.
structure Applied (flat : List FlatRule) (m m' : Maps) : Prop where
  installed : ∃ g, g.Holds flat ∧ m'.slot m'.activeSlot = .ofGeneration g
  flipped   : m'.activeSlot = 1 - m.activeSlot
  kept      : m'.slot m.activeSlot = m.slot m.activeSlot

theorem run_applyGeneration (clock : Nat) (gen : GenerationState) (m : Maps) (n : Numbered flat)
    (hc : checkLpmCapacity flat = .ok ()) :
    ∃ gen' m', run clock (applyGeneration flat gen) m = (.ok gen', m') ∧ Applied flat m m' := by
  have ⟨g, hg, hp⟩ := run_prepareGeneration clock m n hc
  have h := run_commitGeneration clock flat m.activeSlot gen (m.install (1 - m.activeSlot) g)
  set r := run clock (commitGeneration flat m.activeSlot gen) (m.install (1 - m.activeSlot) g) with hr
  refine ⟨r.1, r.2, ?_, ⟨g, hg, ?_⟩, h.active, ?_⟩
  case refine_1 => simp only [applyGeneration, run_bind, hp, run_pure, hr]
  case refine_2 =>
    rw [h.slot, h.active]
    exact m.slot_install_self g (by simp only [GENERATIONS]; omega)
  case refine_3 =>
    rw [h.slot]
    exact m.slot_install_ne g (by omega)

-- An apply goes through exactly if `flatten` accepts the policy.
theorem run_applyPolicy [Ipnet] (clock : Nat) (gen : GenerationState) (m : Maps)
    (h : flatten ir = .ok flat) :
    ∃ gen' m', run clock (applyPolicy ir gen) m = (.ok gen', m') ∧ Applied flat m m' := by
  have hc := flatten_checkLpmCapacity h
  simp only [applyPolicy, h, hc]
  exact run_applyGeneration clock gen m (flatten_numbered h) hc

end Enforcer
