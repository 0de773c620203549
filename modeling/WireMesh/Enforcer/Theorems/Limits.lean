import WireMesh.Enforcer.Config
import WireMesh.Enforcer.Theorems.Ingress
import WireMesh.Lib.Window

-- The caps on new flows and on the events that tell of denials.
namespace Enforcer

open Policy Kernel

namespace RateVal

variable {v : RateVal} {cap now : Nat}

def window (v : RateVal) : Window :=
  ⟨v.windowStartNs, v.count⟩

-- There is room for one more, and what it is counted as.
def Admits (v : RateVal) (cap now : Nat) : Prop :=
  now - v.windowStartNs > RATE_WINDOW_NS ∨ v.count < cap

def commit (v : RateVal) (now : Nat) : RateVal :=
  if now - v.windowStartNs > RATE_WINDOW_NS then ⟨now, 1⟩
  else { v with count := saturatingSucc v.count }

theorem log_cons (h : v.Admits cap now) (hc : cap < 2 ^ 32)
    (hl : Window.Log RATE_WINDOW_NS cap (some (v.commit now).window) log) :
    Window.Log RATE_WINDOW_NS cap (some v.window) ((now, (v.commit now).windowStartNs) :: log) := by
  by_cases hn : now - v.windowStartNs > RATE_WINDOW_NS
  case pos =>
    simp only [commit, if_pos hn] at hl ⊢
    exact .opened (fun w hw => by cases hw; exact hn) hl
  case neg =>
    have hlt := h.resolve_left hn
    simp only [commit, if_neg hn, saturatingSucc] at hl ⊢
    rw [Nat.min_eq_left (by omega)] at hl
    exact .counted hlt (Nat.le_of_not_lt hn) hl

end RateVal

namespace Maps

def cap (m : Maps) (idx default : Nat) : Nat := (run (cfgOrDefault idx default) m).1 % 2 ^ 32

variable (m : Maps)

theorem cap_setRate : (m.setRate src v).cap idx d = m.cap idx d := rfl

theorem cap_setBudget (b : Budget) : (m.setBudget i v b).cap idx d = m.cap idx d := by
  cases b <;> rfl

theorem rate_setRate (src s : BitVec 32) (v : RateVal) :
    (m.setRate src v).rate s = if s = src then some v else m.rate s := by
  simp [setRate, Function.update_apply]

-- What the budgets are once an event has been charged to both.
theorem budget_charged (hv : m.budget .rule rule = some v) (u w : RateVal) :
    let m' := (m.setBudget rule u .rule).setBudget 0 w .aggregate
    m'.budget .aggregate 0 = some w ∧
      ∀ r, m'.budget .rule r = if r = rule then some u else m.budget .rule r := by
  refine ⟨ArrayMap.get_set_self m.logAggBudget w (by decide), fun r => ?_⟩
  have hlt : rule < MAX_RULES + 1 := by
    by_contra hn
    cases (ArrayMap.get_eq_none (Nat.le_of_not_lt hn)).symm.trans hv
  split
  case isTrue hr  => rw [hr]; exact ArrayMap.get_set_self m.logRuleBudget u hlt
  case isFalse hr => exact ArrayMap.get_set_ne m.logRuleBudget u hr

end Maps

section Steps

variable (m : Maps)

theorem run_rateCap : run rateCap m = (m.cap CFG_RATE_CAP DEFAULT_RATE_CAP, m) := by
  simp only [rateCap, run_bind, run_cfgOrDefault, run_pure]
  rfl

theorem run_rateGet : run (rateGet src) m = (m.rate src, m) := rfl

theorem run_rateInsert : run (rateInsert src v) m = ((), m.setRate src v) := rfl

theorem run_budgetGet (b : Budget) : run (budgetGet b idx) m = (m.budget b idx, m) := rfl

theorem run_budgetWrite (b : Budget) :
    run (budgetWrite b idx v) m = ((), m.setBudget idx v b) := rfl

theorem run_rateWrite (h : m.rate src = some v) : run (rateWrite src w) m = ((), m.setRate src w) := by
  simp [run, rateWrite, Maps.exec, h]

theorem run_rateAllows_cases (src : BitVec 32) (now : Nat) :
    (m.rate src = none ∧ run (rateAllows src now) m = (true, m.setRate src ⟨now, 1⟩)) ∨
    ∃ v, m.rate src = some v ∧
      (v.Admits (m.cap CFG_RATE_CAP DEFAULT_RATE_CAP) now ∧
          run (rateAllows src now) m = (true, m.setRate src (v.commit now)) ∨
        run (rateAllows src now) m = (false, m)) := by
  cases hv : m.rate src
  case none =>
    refine .inl ⟨rfl, ?_⟩
    simp only [rateAllows, run_bind, run_rateCap, run_rateGet, hv, run_rateInsert, run_pure]
  case some v =>
    refine .inr ⟨v, rfl, ?_⟩
    simp only [rateAllows, run_bind, run_rateCap, run_rateGet, hv, run_ite, run_rateWrite m hv, run_pure]
    by_cases hn : now - v.windowStartNs > RATE_WINDOW_NS
    case pos =>
      rw [if_pos hn]
      exact .inl ⟨.inl hn, by rw [RateVal.commit, if_pos hn]⟩
    case neg =>
      rw [if_neg hn]
      split
      case isTrue h  => exact .inl ⟨.inr h, by rw [RateVal.commit, if_neg hn]⟩
      case isFalse h => exact .inr rfl

theorem run_budgetWouldAllow_eq (b : Budget) :
    (run (budgetWouldAllow b idx cap now) m).1 = true ↔
      ∃ v, m.budget b idx = some v ∧ v.Admits cap now := by
  simp only [budgetWouldAllow, run_bind, run_budgetGet]
  cases m.budget b idx
  case none   => simp
  case some v =>
    simp only [run_pure, Option.some.injEq, exists_eq_left', RateVal.Admits]
    split <;> simp_all

theorem run_budgetCommit_eq (b : Budget) (h : m.budget b idx = some v) :
    run (budgetCommit b idx now) m = ((), m.setBudget idx (v.commit now) b) := by
  simp only [budgetCommit, run_bind, run_budgetGet, h, run_ite, run_budgetWrite, RateVal.commit]
  split <;> rfl

-- Both budgets are charged, or neither is.
theorem run_logAllows_cases (rule now : Nat) :
    run (logAllows rule now) m = (false, m) ∨
    ∃ v w, m.budget .rule rule = some v ∧ m.budget .aggregate 0 = some w ∧
      v.Admits (m.cap CFG_LOG_PER_RULE DEFAULT_LOG_PER_RULE) now ∧
      w.Admits (m.cap CFG_LOG_AGGREGATE DEFAULT_LOG_AGGREGATE) now ∧
      run (logAllows rule now) m =
        (true, (m.setBudget rule (v.commit now) .rule).setBudget 0 (w.commit now) .aggregate) := by
  have hr : (run (budgetWouldAllow .rule rule
      (m.cap CFG_LOG_PER_RULE DEFAULT_LOG_PER_RULE) now) m).1 = true ↔ _ :=
    run_budgetWouldAllow_eq m .rule
  have ha : (run (budgetWouldAllow .aggregate 0
      (m.cap CFG_LOG_AGGREGATE DEFAULT_LOG_AGGREGATE) now) m).1 = true ↔ _ :=
    run_budgetWouldAllow_eq m .aggregate
  rw [Maps.cap] at hr ha
  simp only [logAllows, run_bind, run_cfgOrDefault, run_ite, run_budgetWouldAllow, run_pure]
  split
  case isTrue => exact .inl rfl
  case isFalse hr' =>
    split
    case isTrue => exact .inl rfl
    case isFalse ha' =>
      obtain ⟨v, hv, hva⟩ := hr.mp (by simpa using hr')
      obtain ⟨w, hw, hwa⟩ := ha.mp (by simpa using ha')
      refine .inr ⟨v, w, hv, hw, hva, hwa, ?_⟩
      rw [run_budgetCommit_eq m .rule hv]
      dsimp only
      rw [run_budgetCommit_eq (m.setBudget rule (v.commit now) .rule) .aggregate hw]

end Steps

section Runs

-- The new flows of a source that are let through, with their times and the starts of their windows.
-- The map keeps the source throughout: one that it evicts between two flows, which it may where more
-- sources come than it holds, starts a window anew.
def admitted (src : BitVec 32) : List (BitVec 32 × Nat) → Maps → List (Nat × Nat)
  | [],                _ => []
  | (s, now) :: flows, m =>
    let (allowed, m') := run (rateAllows s now) m
    let rest := admitted src flows m'
    if s = src ∧ allowed then (now, (m'.rate src).elim 0 (·.windowStartNs)) :: rest else rest

-- An event that is sent, with the starts of the windows in which it counts.
structure Emission where
  rule : Nat
  now : Nat
  ruleStart : Nat
  aggStart : Nat

def emitted : List (Nat × Nat) → Maps → List Emission
  | [],                   _ => []
  | (rule, now) :: rest, m =>
    let (allowed, m') := run (logAllows rule now) m
    let start (b : Budget) (idx : Nat) := (m'.budget b idx).elim 0 (·.windowStartNs)
    if allowed then ⟨rule, now, start .rule rule, start .aggregate 0⟩ :: emitted rest m'
    else emitted rest m'

variable {src : BitVec 32}

theorem log_admitted (flows : List (BitVec 32 × Nat)) (m : Maps) :
    Window.Log RATE_WINDOW_NS (m.cap CFG_RATE_CAP DEFAULT_RATE_CAP)
      ((m.rate src).map RateVal.window) (admitted src flows m) := by
  induction flows generalizing m
  case nil => exact .nil
  case cons flow flows ih =>
    obtain ⟨s, now⟩ := flow
    have hcap : m.cap CFG_RATE_CAP DEFAULT_RATE_CAP < 2 ^ 32 := Nat.mod_lt _ (by decide)
    rw [admitted]
    obtain ⟨hv, hr⟩ | ⟨v, hv, ⟨ha, hr⟩ | hr⟩ := run_rateAllows_cases m s now
    all_goals
      rw [hr]
      dsimp only
    case inr.inr => simpa using ih m
    case inl =>
      have ih := ih (m.setRate s ⟨now, 1⟩)
      rw [Maps.cap_setRate, Maps.rate_setRate] at ih
      by_cases hs : s = src
      case pos =>
        subst hs
        rw [if_pos rfl] at ih
        rw [if_pos ⟨rfl, rfl⟩, Maps.rate_setRate, if_pos rfl, hv]
        exact .opened nofun ih
      case neg =>
        rw [if_neg (Ne.symm hs)] at ih
        rwa [if_neg (fun h => hs h.1)]
    case inr.inl =>
      have ih := ih (m.setRate s (v.commit now))
      rw [Maps.cap_setRate, Maps.rate_setRate] at ih
      by_cases hs : s = src
      case pos =>
        subst hs
        rw [if_pos rfl] at ih
        rw [if_pos ⟨rfl, rfl⟩, Maps.rate_setRate, if_pos rfl, hv]
        exact RateVal.log_cons ha hcap ih
      case neg =>
        rw [if_neg (Ne.symm hs)] at ih
        rwa [if_neg (fun h => hs h.1)]

theorem sublist_admitted (flows : List (BitVec 32 × Nat)) (m : Maps) :
    ((admitted src flows m).map (·.1)).Sublist (flows.map (·.2)) := by
  induction flows generalizing m
  case nil => exact .slnil
  case cons flow flows ih =>
    rw [admitted, List.map_cons]
    dsimp only
    split
    case isTrue  => exact (ih _).cons_cons _
    case isFalse => exact (ih _).cons _

theorem log_emitted_rule (denials : List (Nat × Nat)) (m : Maps) (rule : Nat) :
    Window.Log RATE_WINDOW_NS (m.cap CFG_LOG_PER_RULE DEFAULT_LOG_PER_RULE)
      ((m.budget .rule rule).map RateVal.window)
      (((emitted denials m).filter (·.rule = rule)).map fun e => (e.now, e.ruleStart)) := by
  induction denials generalizing m
  case nil => exact .nil
  case cons denial denials ih =>
    obtain ⟨r, now⟩ := denial
    have hcap : m.cap CFG_LOG_PER_RULE DEFAULT_LOG_PER_RULE < 2 ^ 32 := Nat.mod_lt _ (by decide)
    rw [emitted]
    obtain hr | ⟨v, w, hv, hw, hva, hwa, hr⟩ := run_logAllows_cases m r now
    case inl =>
      rw [hr]
      exact ih m
    case inr =>
      have ⟨ha, hb⟩ := m.budget_charged hv (v.commit now) (w.commit now)
      rw [hr]
      have ih := ih ((m.setBudget r (v.commit now) .rule).setBudget 0 (w.commit now) .aggregate)
      dsimp only
      rw [if_pos rfl, List.filter_cons]
      rw [Maps.cap_setBudget, Maps.cap_setBudget, hb] at ih
      by_cases hs : r = rule
      case pos =>
        subst hs
        rw [if_pos rfl] at ih
        simp only [hb, hv, decide_true, if_true, List.map_cons, Option.elim_some]
        exact RateVal.log_cons hva hcap ih
      case neg =>
        rw [if_neg (Ne.symm hs)] at ih
        simpa [hs] using ih

theorem log_emitted (denials : List (Nat × Nat)) (m : Maps) :
    Window.Log RATE_WINDOW_NS (m.cap CFG_LOG_AGGREGATE DEFAULT_LOG_AGGREGATE)
      ((m.budget .aggregate 0).map RateVal.window)
      ((emitted denials m).map fun e => (e.now, e.aggStart)) := by
  induction denials generalizing m
  case nil => exact .nil
  case cons denial denials ih =>
    obtain ⟨r, now⟩ := denial
    have hcap : m.cap CFG_LOG_AGGREGATE DEFAULT_LOG_AGGREGATE < 2 ^ 32 := Nat.mod_lt _ (by decide)
    rw [emitted]
    obtain hr | ⟨v, w, hv, hw, hva, hwa, hr⟩ := run_logAllows_cases m r now
    case inl =>
      rw [hr]
      exact ih m
    case inr =>
      have ⟨ha, hb⟩ := m.budget_charged hv (v.commit now) (w.commit now)
      rw [hr]
      have ih := ih ((m.setBudget r (v.commit now) .rule).setBudget 0 (w.commit now) .aggregate)
      rw [Maps.cap_setBudget, Maps.cap_setBudget, ha] at ih
      simp only [if_true, ha, hw, List.map_cons, Option.elim_some]
      exact RateVal.log_cons hwa hcap ih

end Runs

section Caps

variable (m : Maps) (cfg : EnforcerConfig)

theorem get_configured :
    (m.configured cfg).config.get CFG_RATE_CAP = some cfg.rateCapPerSrc.toNat ∧
    (m.configured cfg).config.get CFG_LOG_PER_RULE = some cfg.logPerRule.toNat ∧
    (m.configured cfg).config.get CFG_LOG_AGGREGATE = some cfg.logAggregate.toNat :=
  ⟨rfl, rfl, rfl⟩

theorem cap_of_get {limit : BitVec 32} (h : m.config.get idx = some limit.toNat) (hd : d < 2 ^ 32) :
    m.cap idx d = EnforcerConfig.orDefault limit d := by
  have hz : limit.toNat = 0 ↔ limit = 0 := ⟨fun h => BitVec.eq_of_toNat_eq h, fun h => h ▸ rfl⟩
  simp only [Maps.cap, cfgOrDefault, run_bind, run_config, h, run_pure, Option.getD_some, hz,
    EnforcerConfig.orDefault]
  split
  case isTrue  => exact Nat.mod_eq_of_lt hd
  case isFalse => exact Nat.mod_eq_of_lt limit.isLt

theorem orDefault_pos (limit : BitVec 32) (hd : 0 < d) : 0 < EnforcerConfig.orDefault limit d := by
  rw [EnforcerConfig.orDefault]
  split
  case isTrue     => exact hd
  case isFalse hl => exact Nat.pos_of_ne_zero fun h => hl (BitVec.eq_of_toNat_eq h)

end Caps

-- A source gets no more new flows than its cap in a window, and no more than twice the cap in any
-- second, as long as the map does not evict it. The events of a rule and of all rules stay within
-- their caps, and an event that is not sent is charged to no budget.
theorem limits_kept (cfg : EnforcerConfig) (m : Maps) (flows : List (BitVec 32 × Nat))
    (sorted : (flows.map (·.2)).Pairwise (· ≤ ·)) (denials : List (Nat × Nat)) :
    (∀ src start, (admitted src flows (m.configured cfg)).countP (·.2 = start) ≤ cfg.rateCap) ∧
    (∀ src t, (admitted src flows (m.configured cfg)).countP
      (fun e => t ≤ e.1 ∧ e.1 ≤ t + RATE_WINDOW_NS) ≤ 2 * cfg.rateCap) ∧
    (∀ rule start, (emitted denials (m.configured cfg)).countP
      (fun e => e.rule = rule ∧ e.ruleStart = start) ≤ cfg.perRuleCap) ∧
    (∀ start, (emitted denials (m.configured cfg)).countP (·.aggStart = start) ≤ cfg.aggCap) ∧
    ∀ (m : Maps) (rule now : Nat), (run (logAllows rule now) m).1 = false →
      (run (logAllows rule now) m).2 = m := by
  have ⟨hrate, hrule, hagg⟩ := get_configured m cfg
  have crate := cap_of_get _ (d := DEFAULT_RATE_CAP) hrate (by decide)
  have crule := cap_of_get _ (d := DEFAULT_LOG_PER_RULE) hrule (by decide)
  have cagg := cap_of_get _ (d := DEFAULT_LOG_AGGREGATE) hagg (by decide)
  have hlog (src : BitVec 32) := crate ▸ @log_admitted src flows (m.configured cfg)
  have hpos := orDefault_pos cfg.rateCapPerSrc (d := DEFAULT_RATE_CAP) (by decide)
  refine ⟨fun src start => (hlog src).count_le hpos start, fun src t => ?_, fun rule start => ?_,
    fun start => ?_, fun m rule now hf => ?_⟩
  case refine_1 =>
    exact (hlog src).count_le_two_mul hpos (sorted.sublist (sublist_admitted flows _)) t
  case refine_2 =>
    have h := (crule ▸ log_emitted_rule denials (m.configured cfg) rule).count_le
      (orDefault_pos cfg.logPerRule (by decide)) start
    rw [← EnforcerConfig.perRuleCap] at h
    simpa [List.countP_map, List.countP_filter, Function.comp_def, Bool.and_comm] using h
  case refine_3 =>
    have h := (cagg ▸ log_emitted denials (m.configured cfg)).count_le
      (orDefault_pos cfg.logAggregate (by decide)) start
    rw [← EnforcerConfig.aggCap] at h
    simpa [List.countP_map, Function.comp_def] using h
  case refine_4 =>
    obtain hr | ⟨v, w, _, _, _, _, hr⟩ := run_logAllows_cases m rule now
    case inl => rw [hr]
    case inr => rw [hr] at hf; cases hf

-- A cap of one, and a source that asks four times within two seconds.
theorem limits_kept_burst :
    let cfg : EnforcerConfig := ⟨0, 0, 0, 1, 0, 0⟩
    let flows : List (BitVec 32 × Nat) := [(7, 5), (7, 5), (7, 1000000006), (7, 1000000006)]
    let log := admitted 7 flows ((Maps.loaded (.zeroed _ 0)).configured cfg)
    log = [(5, 5), (1000000006, 1000000006)] ∧ (flows.map (·.2)).Pairwise (· ≤ ·) ∧
      log.countP (fun e => 5 ≤ e.1 ∧ e.1 ≤ 5 + RATE_WINDOW_NS) ≤ 2 * cfg.rateCap :=
  ⟨by decide +kernel, by decide, (limits_kept _ _ _ (by decide) []).2.1 7 5⟩

end Enforcer
