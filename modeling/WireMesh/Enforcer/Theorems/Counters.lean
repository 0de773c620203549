import WireMesh.Enforcer.Theorems.System

-- The counters that a gateway reports, over a whole run.
namespace Enforcer

open Policy

-- What a step means for the counters.
inductive Mark
  | hit (ruleId : String)
  | defaultDeny
  | applied (ruleIds : List String)
deriving DecidableEq

def Mark.lacks (ruleId : String) : Mark → Bool
  | applied ruleIds => decide (ruleId ∉ ruleIds)
  | _               => false

-- The hits of a rule, back to the last policy that did not have it. The latest mark comes first.
def hitsSince (ruleId : String) (marks : List Mark) : Nat :=
  (marks.takeWhile (!·.lacks ruleId)).count (.hit ruleId)

-- A packet that gets as far as the rules is charged to the rule of the policy that takes it.
def ruleMark (policy : List FlatRule) (fwd : FlowKey) : Mark :=
  match policy.find? (·.ebpfSelects (packetOf fwd)) with
  | some f => .hit f.ruleId
  | none   => .defaultDeny

namespace Gateway

def mark (g : Gateway) : Event → Option Mark
  | .ingress ctx now =>
    match ingressPath g.maps ctx now with
    | .rules fwd => some (ruleMark g.policy fwd)
    | _          => none
  | .commit _ => g.pending.map fun p => .applied (p.1.map (·.ruleId))
  | _         => none

end Gateway

def marks (h : List (Gateway × Gateway.Event)) : List Mark :=
  h.filterMap fun p => p.1.mark p.2

section HitsSince

variable {ms : List Mark} {q : String}

theorem hitsSince_hit : hitsSince q (.hit r :: ms) = hitsSince q ms + if r = q then 1 else 0 := by
  simp only [hitsSince, Mark.lacks, Bool.not_false, List.takeWhile_cons_of_pos, List.count_cons]
  simp

theorem hitsSince_defaultDeny : hitsSince q (.defaultDeny :: ms) = hitsSince q ms := by
  simp [hitsSince, Mark.lacks]

theorem hitsSince_applied_mem (h : q ∈ ids) : hitsSince q (.applied ids :: ms) = hitsSince q ms := by
  simp [hitsSince, Mark.lacks, h]

theorem hitsSince_applied_not_mem (h : q ∉ ids) : hitsSince q (.applied ids :: ms) = 0 := by
  simp [hitsSince, Mark.lacks, h]

end HitsSince

theorem counter_bump (m : Maps) (i j : Nat) (h : j < COUNTERS_LEN) :
    (m.bump j).counter i = m.counter i + if i = j then 1 else 0 := by
  simp only [Maps.counter, Maps.bump]
  by_cases hi : i = j
  case pos => simp [hi, ArrayMap.get_set_self _ _ h]
  case neg => simp [hi, ArrayMap.get_set_ne _ _ hi]

theorem slotHits_congr {ids : List String} {m m' : Maps} {is : List Nat}
    (h : ∀ i ∈ is, m'.counter i = m.counter i) : slotHits ids m' is q = slotHits ids m is q := by
  simp only [slotHits]
  congr 1
  exact List.map_congr_left fun i hi => h i (List.mem_filter.mp hi).1

theorem slotHits_zero {ids : List String} {m : Maps} {is : List Nat}
    (h : ∀ i ∈ is, ids[i]? = some q → m.counter i = 0) : slotHits ids m is q = 0 := by
  induction is
  case nil => rfl
  case cons i is ih =>
    have ⟨hi, his⟩ := List.forall_mem_cons.mp h
    rw [slotHits_cons, ih his]
    grind

theorem slotHits_bump {ids : List String} {m : Maps} {is : List Nat} (hn : is.Nodup) (hj : j ∈ is)
    (hl : j < COUNTERS_LEN) :
    slotHits ids (m.bump j) is q = slotHits ids m is q + if ids[j]? = some q then 1 else 0 := by
  induction is
  case nil => cases hj
  case cons i is ih =>
    have ⟨hi, hn⟩ := List.nodup_cons.mp hn
    rw [slotHits_cons, slotHits_cons, counter_bump _ _ _ hl]
    cases List.mem_cons.mp hj
    case inl h =>
      subst h
      have same : slotHits ids (m.bump j) is q = slotHits ids m is q :=
        slotHits_congr fun k hk => by rw [counter_bump _ _ _ hl, if_neg (by grind), Nat.add_zero]
      rw [same]
      grind
    case inr h =>
      have hne : i ≠ j := fun he => hi (he ▸ h)
      rw [ih hn h, if_neg hne, Nat.add_zero]
      omega

theorem slotHits_append (ids : List String) (m : Maps) (is js : List Nat) :
    slotHits ids m (is ++ js) q = slotHits ids m is q + slotHits ids m js q := by
  simp [slotHits]

-- Positions beyond the mapping belong to no rule.
theorem slotHits_range (ids : List String) (m : Maps) (h : ids.length ≤ n) :
    slotHits ids m (List.range n) q = slotHits ids m (List.range ids.length) q := by
  obtain ⟨k, rfl⟩ := Nat.exists_eq_add_of_le h
  have beyond : slotHits ids m ((List.range k).map (ids.length + ·)) q = 0 := by
    refine slotHits_zero fun i hi hid => ?_
    have ⟨j, _, hj⟩ := List.mem_map.mp hi
    have ⟨hl, _⟩ := List.getElem?_eq_some_iff.mp hid
    omega
  rw [List.range_add, slotHits_append, beyond, Nat.add_zero]

-- Reading the counters adds what stands at the position of a rule to what has been folded.
theorem run_sumCounters (clock : Nat) (m : Maps) (byRule : String → Option Nat)
    (l : List (String × Nat)) :
    ∃ byRule', Loader.run clock (sumCounters byRule l) m = (byRule', m) ∧
      (∀ q, (byRule' q).getD 0 =
        (byRule q).getD 0 + ((l.filter (·.1 = q)).map fun p => m.counter p.2).sum) ∧
      ∀ q, q ∉ l.map (·.1) → byRule' q = byRule q := by
  induction l generalizing byRule
  case nil => exact ⟨byRule, rfl, by simp, by simp⟩
  case cons p l ih =>
    rw [sumCounters, Loader.run_bind, Loader.run_counterGet, Loader.run_ite]
    split
    case isTrue hc =>
      obtain ⟨byRule', hr, hs, hn⟩ := ih (addCount byRule p.1 (m.counter p.2))
      refine ⟨byRule', hr, fun q => ?_, fun q hq => ?_⟩
      case refine_1 =>
        rw [hs, addCount_getD, List.filter_cons]
        by_cases hp : p.1 = q
        case pos => simp only [hp, decide_true, if_true, List.map_cons, List.sum_cons]; omega
        case neg => simp [hp]
      case refine_2 =>
        rw [hn q (by simp_all), addCount, Function.update_of_ne (by simp_all)]
    case isFalse hc =>
      obtain ⟨byRule', hr, hs, hn⟩ := ih byRule
      refine ⟨byRule', hr, fun q => ?_, fun q hq => hn q (by simp_all)⟩
      rw [hs, List.filter_cons]
      split_ifs <;> simp_all

theorem sum_zipIdx (ids : List String) (m : Maps) (q : String) :
    ((ids.zipIdx.filter (·.1 = q)).map fun p => m.counter p.2).sum =
      slotHits ids m (List.range ids.length) q := by
  have h (l : List String) (k : Nat) (hl : ∀ j, l[j]? = ids[k + j]?) :
      (((l.zipIdx k).filter (·.1 = q)).map fun p => m.counter p.2).sum =
        slotHits ids m (List.range' k l.length) q := by
    induction l generalizing k
    case nil => rfl
    case cons a l ih =>
      have head : ids[k]? = some a := (hl 0).symm
      have tail (j : Nat) : l[j]? = ids[k + 1 + j]? := by
        have := hl (j + 1)
        rwa [List.getElem?_cons_succ, ← Nat.add_assoc, Nat.add_right_comm] at this
      rw [List.zipIdx_cons, List.length_cons, List.range'_succ, slotHits_cons, head, ← ih _ tail,
        List.filter_cons]
      split_ifs <;> simp_all
  rw [List.range_eq_range']
  exact h ids 0 fun j => by rw [Nat.zero_add]

theorem run_counters (clock : Nat) (gen : GenerationState) (m : Maps) :
    ∃ byRule, Loader.run clock (counters gen) m =
        (⟨byRule, gen.defaultDenyAccum + m.counter CTR_DEFAULT_DENY⟩, m) ∧
      (∀ q, (byRule q).getD 0 = (gen.counterAccum q).getD 0 +
        slotHits gen.idxToRuleId m (List.range gen.idxToRuleId.length) q) ∧
      ∀ q, q ∉ gen.idxToRuleId → byRule q = gen.counterAccum q := by
  have ⟨byRule, hr, hs, hn⟩ := run_sumCounters clock m gen.counterAccum gen.idxToRuleId.zipIdx
  refine ⟨byRule, ?_, fun q => ?_, fun q hq => ?_⟩
  case refine_1 => simp only [counters, Loader.run_bind, Loader.run_counterGet, hr, Loader.run_pure]
  case refine_2 => rw [hs, sum_zipIdx]
  case refine_3 => exact hn q (by simpa using hq)

namespace Gateway

-- Every hit is either still at the position of its rule or has been folded under its name.
structure Counted (ms : List Mark) (g : Gateway) : Prop where
  hits   : ∀ q, (g.gen.counterAccum q).getD 0 +
    slotHits g.gen.idxToRuleId g.maps (List.range g.policy.length) q = hitsSince q ms
  pruned : ∀ q, q ∉ g.policy.map (·.ruleId) → g.gen.counterAccum q = none
  denied : g.gen.defaultDenyAccum + g.maps.counter CTR_DEFAULT_DENY = ms.count .defaultDeny
  unused : ∀ i, g.policy.length ≤ i → i < MAX_RULES → g.maps.counter i = 0

variable {g g' : Gateway} {ms : List Mark}

theorem Counted.start (config : ArrayMap CONFIG_LEN Nat) : Counted [] (Gateway.start config) where
  hits _        := rfl
  pruned _ _    := rfl
  denied        := rfl
  unused _ _ hi := by
    simp only [MAX_RULES] at hi
    simp only [Gateway.start, Maps.loaded, Maps.counter]
    rw [ArrayMap.get_zeroed (by simp only [COUNTERS_LEN, MAX_RULES]; omega)]
    rfl

-- A step that leaves the counters of rules and of denials alone.
theorem Counted.sameCounters (h : Counted ms g)
    (hc : ∀ i ≤ CTR_DEFAULT_DENY, m.counter i = g.maps.counter i) (n : Numbered g.policy) :
    Counted ms { g with maps := m, pending := p, clock := c } where
  hits q   := by
    rw [← h.hits q]
    congr 1
    refine slotHits_congr fun i hi => hc i ?_
    have := n.length
    have := List.mem_range.mp hi
    simp only [CTR_DEFAULT_DENY, MAX_RULES] at *
    omega
  pruned   := h.pruned
  denied   := by rw [← h.denied, hc _ (Nat.le_refl _)]
  unused i hi hm := by
    rw [← h.unused i hi hm]
    exact hc i (Nat.le_of_lt hm)

theorem Coherent.picks (h : g.Coherent) (fwd : FlowKey) :
    g.maps.picks fwd =
      (g.policy.find? (·.ebpfSelects (packetOf fwd))).map fun f => (f.idx, ruleMeta f) :=
  h.serves fwd

-- A packet that is decided by the rules adds one to the counter of whatever decides it.
theorem Counted.charge (h : Counted ms g) (hco : g.Coherent) (fwd : FlowKey)
    (hc : ∀ i ≤ CTR_DEFAULT_DENY, m.counter i =
      (g.maps.bump (charged (g.maps.picks fwd))).counter i) :
    Counted (ruleMark g.policy fwd :: ms) { g with maps := m, clock := c } := by
  have len : g.policy.length ≤ CTR_DEFAULT_DENY := hco.numbered.length
  rw [hco.picks] at hc
  rw [ruleMark]
  cases hf : g.policy.find? (·.ebpfSelects (packetOf fwd))
  case none =>
    rw [hf] at hc
    have hc (i) (hi : i ≤ CTR_DEFAULT_DENY) := (hc i hi).trans (counter_bump _ _ CTR_DEFAULT_DENY (by decide))
    have other (i) (hi : i < CTR_DEFAULT_DENY) : m.counter i = g.maps.counter i := by
      rw [hc i (Nat.le_of_lt hi), if_neg (Nat.ne_of_lt hi), Nat.add_zero]
    constructor
    case hits =>
      intro q
      rw [hitsSince_defaultDeny, ← h.hits q]
      congr 1
      exact slotHits_congr fun i hi => other i (Nat.lt_of_lt_of_le (List.mem_range.mp hi) len)
    case pruned => exact h.pruned
    case denied =>
      show g.gen.defaultDenyAccum + m.counter CTR_DEFAULT_DENY = _
      rw [hc _ (Nat.le_refl _), if_pos rfl, List.count_cons_self, ← h.denied, Nat.add_assoc]
    case unused => exact fun i hi hm => (other i hm).trans (h.unused i hi hm)
  case some f =>
    have hm := List.mem_of_find?_eq_some hf
    have pos := hco.numbered.getElem? hm
    have ⟨hlt, _⟩ := List.getElem?_eq_some_iff.mp pos
    have hid : g.gen.idxToRuleId[f.idx]? = some f.ruleId := by rw [hco.mapping, List.getElem?_map, pos]; rfl
    have hl : f.idx < COUNTERS_LEN := by simp only [COUNTERS_LEN, CTR_DEFAULT_DENY] at *; omega
    rw [hf] at hc
    have other (i) (hi : i ≤ CTR_DEFAULT_DENY) (hne : i ≠ f.idx) : m.counter i = g.maps.counter i := by
      rw [hc i hi]
      exact (counter_bump _ _ _ hl).trans (by rw [if_neg hne, Nat.add_zero])
    constructor
    case hits =>
      intro q
      have same : slotHits g.gen.idxToRuleId m (List.range g.policy.length) q =
          slotHits g.gen.idxToRuleId (g.maps.bump f.idx) (List.range g.policy.length) q :=
        slotHits_congr fun i hi => hc i (by have := List.mem_range.mp hi; omega)
      rw [hitsSince_hit, ← h.hits q, same,
        slotHits_bump List.nodup_range (List.mem_range.mpr hlt) hl, hid]
      simp only [Option.some.injEq]
      omega
    case pruned => exact h.pruned
    case denied =>
      rw [other _ (Nat.le_refl _) (by omega), List.count_cons_of_ne (by simp), h.denied]
    case unused =>
      intro i hi hm
      rw [other i (Nat.le_of_lt hm) (by show i ≠ f.idx; have : g.policy.length ≤ i := hi; omega)]
      exact h.unused i hi hm

-- A flip moves all hits under the names of their rules and drops those of the rules that are gone.
theorem Counted.commit (h : Counted ms g) (hco : g.Coherent) (n : Numbered flat)
    (hc : Committed now flat a g.gen gen' g.maps m) :
    Counted (.applied (flat.map (·.ruleId)) :: ms)
      { maps := m, gen := gen', policy := flat, pending := none, clock := now } := by
  have len : g.gen.idxToRuleId.length = g.policy.length := by rw [hco.mapping, List.length_map]
  have reset : resetLen g.gen flat.length = max g.policy.length flat.length := by
    have := hco.numbered.length
    have := n.length
    rw [resetLen, len]
    omega
  have zero (i) (hi : i < flat.length) : m.counter i = 0 := by
    rw [hc.counter, if_pos (.inl (by omega))]
  constructor
  case hits =>
    intro q
    have none_left : slotHits gen'.idxToRuleId m (List.range flat.length) q = 0 :=
      slotHits_zero fun i hi _ => zero i (List.mem_range.mp hi)
    show (gen'.counterAccum q).getD 0 + slotHits gen'.idxToRuleId m (List.range flat.length) q = _
    rw [none_left, Nat.add_zero]
    by_cases hq : q ∈ flat.map (·.ruleId)
    case pos =>
      rw [hc.accum q hq, hitsSince_applied_mem hq, ← h.hits q, reset, slotHits_range _ _ (by omega), len]
    case neg => rw [hc.pruned q hq, hitsSince_applied_not_mem hq]; rfl
  case pruned => exact hc.pruned
  case denied =>
    show gen'.defaultDenyAccum + m.counter CTR_DEFAULT_DENY = _
    rw [hc.counter, if_pos (.inr rfl), hc.defaultDeny, List.count_cons_of_ne (by simp), ← h.denied,
      Nat.add_zero]
  case unused =>
    intro i hi hm
    show m.counter i = 0
    rw [hc.counter]
    split
    case isTrue => rfl
    case isFalse hn => exact h.unused i (by rw [reset] at hn; omega) hm

theorem Counted.ingress (h : Counted ms g) (hco : g.Coherent) (ctx : TcContext) (now : Nat) :
    Counted ((g.mark (.ingress ctx now)).toList ++ ms)
      { g with maps := (Kernel.run (aethIngress ctx now) g.maps).2, clock := now } := by
  have ⟨m₁, ⟨flows, _, hm₁⟩, hl⟩ := run_aethIngress g.maps ctx now
  have hc := hl.counters
  generalize Kernel.run (aethIngress ctx now) g.maps = out at hc ⊢
  simp only [mark]
  have counter (i : Nat) {m : Maps} (hm : out.2.counters = m.counters) :
      out.2.counter i = m.counter i := by rw [Maps.counter, hm]; rfl
  cases hp : ingressPath g.maps ctx now <;> rw [hp, hm₁] at hc
  case malformed => exact h.sameCounters (fun i _ => counter i hc) hco.numbered
  case flow =>
    refine h.sameCounters (fun i hi => ?_) hco.numbered
    have hne : i ≠ CTR_FLOW_HIT := by simp only [CTR_DEFAULT_DENY, CTR_FLOW_HIT] at *; omega
    refine (counter i hc).trans <| (counter_bump _ _ _ (by decide)).trans ?_
    rw [if_neg hne]
    rfl
  case rules fwd => exact h.charge hco fwd fun i _ => counter i hc

section

variable [Ipnet]

theorem Counted.step (h : Counted ms g) (hco : g.Coherent) (hs : Step g e g') :
    Counted ((g.mark e).toList ++ ms) g' := by
  cases hs
  case ingress ctx _ => exact h.ingress hco ctx _
  case egress now ctx _ =>
    have ⟨_, _, _, hm, _⟩ := run_aethEgress g.maps ctx now
    rw [hm]
    exact h.sameCounters (fun _ _ => rfl) hco.numbered
  case flush => exact h.sameCounters (c := g.clock) (fun _ _ => rfl) hco.numbered
  case evict => exact h.sameCounters (c := g.clock) (fun _ _ => rfl) hco.numbered
  case prepare c a m hf hc hr =>
    have ⟨_, _, hp⟩ := run_prepareGeneration c g.maps (flatten_numbered hf) hc
    cases hp.symm.trans hr
    exact h.sameCounters (c := g.clock) (fun _ _ => rfl) hco.numbered
  case commit now flat a gen' m _ hp hr =>
    have hc := run_commitGeneration now flat a g.gen g.maps
    rw [hr] at hc
    simp only [mark, hp]
    exact h.commit hco (hco.pending flat a hp).2.1 hc

theorem Counted.run (r : Run Step (Gateway.start config) h g) : Counted (marks h) g := by
  refine r.invariant (I := fun h g => Counted (marks h) g) (.start config) fun {h g e _} r hc hs => ?_
  have hm : marks ((g, e) :: h) = (g.mark e).toList ++ marks h := by
    rw [marks, List.filterMap_cons]
    cases g.mark e <;> rfl
  exact hm ▸ hc.step (.run r) hs

-- What `counters` reports after any run of packets and applies: for every rule of the policy the hits
-- since the policies have had it, nothing for any other rule, and every packet that no rule took.
theorem counters_run (r : Run Step (Gateway.start config) h g) (clock : Nat) :
    (∀ q ∈ g.policy.map (·.ruleId),
      ((Loader.run clock (counters g.gen) g.maps).1.byRule q).getD 0 = hitsSince q (marks h)) ∧
    (∀ q, q ∉ g.policy.map (·.ruleId) →
      (Loader.run clock (counters g.gen) g.maps).1.byRule q = none) ∧
    (Loader.run clock (counters g.gen) g.maps).1.defaultDeny = (marks h).count .defaultDeny ∧
    ∀ i, g.policy.length ≤ i → i < MAX_RULES → g.maps.counter i = 0 := by
  have hc := Counted.run r
  have hm := (Coherent.run r).mapping
  have ⟨byRule, hr, hs, hn⟩ := run_counters clock g.gen g.maps
  rw [hr]
  refine ⟨fun q _ => ?_, fun q hq => ?_, hc.denied, hc.unused⟩
  case refine_1 =>
    rw [← hc.hits q]
    simpa only [hm, List.length_map] using hs q
  case refine_2 => exact (hn q (hm ▸ hq)).trans (hc.pruned q hq)

end

-- A packet to port 443 that the one rule lets in.
def onePacket : TcContext :=
  [0x45, 0, 0, 40, 0, 0, 0, 0, 64, 6, 0, 0, 10, 0, 0, 1, 192, 168, 0, 1, 0x30, 0x39, 1, 0xbb]

def onePrepared : Gateway :=
  let g := start (.zeroed _ 0)
  { g with
    maps    := (Loader.run 0 (prepareGeneration oneFlat) g.maps).2
    pending := some (oneFlat, 0) }

def oneCommitted : Gateway :=
  let r := Loader.run 1 (commitGeneration oneFlat 0 onePrepared.gen) onePrepared.maps
  { maps := r.2, gen := r.1, policy := oneFlat, pending := none, clock := 1 }

theorem step_of_next [Ipnet] (h : g.next e = some g') : Step g e g' := by
  cases e
  case evict => cases h
  case flush =>
    cases h
    exact .flush
  case ingress | egress =>
    simp only [next, Option.ite_none_right_eq_some] at h
    obtain ⟨hn, he⟩ := h
    cases he
    constructor
    exact hn
  case prepare =>
    simp only [next, Option.bind_eq_bind, Option.bind_eq_some_iff, Checked.toOption_some,
      Option.pure_def, Option.some.injEq] at h
    obtain ⟨flat, hf, _, hc, activeNow, hr, he⟩ := h
    cases he
    exact .prepare hf hc (Prod.ext hr rfl)
  case commit =>
    simp only [next, Option.bind_eq_bind, Option.bind_eq_some_iff, Option.ite_none_right_eq_some,
      Option.some.injEq] at h
    obtain ⟨p, hp, hn, he⟩ := h
    cases he
    exact .commit hn hp rfl

-- The same packet from a host that the rule does not let in.
def strayPacket : TcContext :=
  [0x45, 0, 0, 40, 0, 0, 0, 0, 64, 6, 0, 0, 11, 0, 0, 1, 192, 168, 0, 1, 0x30, 0x39, 1, 0xbb]

-- The policy is applied again after both packets have come, and then the first one comes anew.
def appliedTwice : List Event :=
  [.ingress onePacket 5, .flush, .commit 4, .prepare onePolicy, .ingress strayPacket 3,
    .ingress onePacket 2, .commit 1, .prepare onePolicy]

def appliedTwiceRun : List (Gateway × Event) × Gateway :=
  Run.replayed next (start (.zeroed _ 0)) appliedTwice

theorem run_appliedTwiceRun :
    Run Step (Gateway.start (.zeroed _ 0)) appliedTwiceRun.1 appliedTwiceRun.2 :=
  (Run.run_replayed _ _).mono step_of_next

theorem marks_appliedTwiceRun : marks appliedTwiceRun.1 =
    [.hit "r", .applied ["r"], .defaultDeny, .hit "r", .applied ["r"]] := by
  decide +kernel

theorem counters_run_appliedTwice :
    ((Loader.run 6 (counters appliedTwiceRun.2.gen) appliedTwiceRun.2.maps).1.byRule "r").getD 0 = 2 ∧
    (Loader.run 6 (counters appliedTwiceRun.2.gen) appliedTwiceRun.2.maps).1.defaultDeny = 1 := by
  obtain ⟨hits, _, denied, _⟩ := counters_run run_appliedTwiceRun 6
  rw [hits "r" (by decide), denied, marks_appliedTwiceRun]
  decide

end Gateway
end Enforcer
