import WireMesh.Enforcer.Theorems.Program

-- What the two classifiers do to the maps.
namespace Enforcer

open Policy Kernel

namespace Maps

def timeout (m : Maps) (proto : BitVec 8) : Nat :=
  (run (timeoutNs proto) m).1

-- The flow has been seen within its timeout.
def fresh (m : Maps) (k : FlowKey) (now : Nat) : Bool :=
  (m.flows k).any fun v => decide (now - v.lastSeenNs ≤ m.timeout k.proto)

-- Some stale flows may be gone, everything else is the same.
def Fades (now : Nat) (m m' : Maps) : Prop :=
  ∃ flows, (∀ k, flows k = m.flows k ∨ flows k = none ∧ m.fresh k now = false) ∧ m' = { m with flows }

-- Nothing has happened but logging.
def Logs (m m' : Maps) : Prop :=
  ∃ denyRb logRuleBudget logAggBudget, m' = { m with denyRb, logRuleBudget, logAggBudget }

-- Nothing has happened but rate accounting.
def Rates (m m' : Maps) : Prop :=
  ∃ rate, m' = { m with rate }

variable {m m' m'' : Maps}

theorem timeout_congr (h : m'.config = m.config) : m'.timeout proto = m.timeout proto := by
  have cfg {i d} : (run (cfgOrDefault i d) m').1 = (run (cfgOrDefault i d) m).1 := by
    show (if (m'.config.get i).getD 0 = 0 then d else (m'.config.get i).getD 0) =
      if (m.config.get i).getD 0 = 0 then d else (m.config.get i).getD 0
    rw [h]
  simp only [timeout, timeoutNs, run_ite]
  split_ifs <;> exact cfg

theorem Fades.refl (now : Nat) (m : Maps) : Fades now m m :=
  ⟨m.flows, fun _ => .inl rfl, rfl⟩

theorem Fades.fresh (h : Fades now m m') (k : FlowKey) : m'.fresh k now = m.fresh k now := by
  have ⟨f, hf, he⟩ := h
  subst he
  have ht : timeout { m with flows := f } k.proto = m.timeout k.proto := timeout_congr rfl
  simp only [Maps.fresh, ht] at hf ⊢
  cases hf k
  case inl h => rw [h]
  case inr h => rw [h.1, h.2]; rfl

theorem Fades.trans (h : Fades now m m') (h' : Fades now m' m'') : Fades now m m'' := by
  have hfresh := h.fresh
  have ⟨f, hf, he⟩ := h
  have ⟨f', hf', he'⟩ := h'
  subst he he'
  refine ⟨f', fun k => ?_, rfl⟩
  have := hf k
  have := hf' k
  have := hfresh k
  grind

theorem Fades.remove (h : m.fresh k now = false) : Fades now m (m.setFlow k none) := by
  refine ⟨Function.update m.flows k none, fun q => ?_, rfl⟩
  simp only [Function.update_apply]
  grind

theorem Logs.refl (m : Maps) : Logs m m :=
  ⟨m.denyRb, m.logRuleBudget, m.logAggBudget, rfl⟩

theorem Logs.trans (h : Logs m m') (h' : Logs m' m'') : Logs m m'' := by
  have ⟨a, b, c, he⟩ := h
  have ⟨a', b', c', he'⟩ := h'
  subst he he'
  exact ⟨a', b', c', rfl⟩

theorem Logs.setBudget (m : Maps) (i : Nat) (v : RateVal) (b : Budget) : Logs m (m.setBudget i v b) := by
  cases b
  case rule      => exact ⟨m.denyRb, _, m.logAggBudget, rfl⟩
  case aggregate => exact ⟨m.denyRb, m.logRuleBudget, _, rfl⟩

theorem Rates.setRate (m : Maps) (s : BitVec 32) (v : RateVal) : Rates m (m.setRate s v) :=
  ⟨_, rfl⟩

end Maps

open Maps

theorem run_cfgOrDefault (m : Maps) : (run (cfgOrDefault idx d) m).2 = m := by
  simp only [cfgOrDefault, run_bind, run_config, run_pure]

theorem run_timeoutNs (m : Maps) : run (timeoutNs proto) m = (m.timeout proto, m) := by
  have h : (run (timeoutNs proto) m).2 = m := by
    simp only [timeoutNs, run_ite]
    split_ifs <;> exact run_cfgOrDefault m
  exact Prod.ext rfl h

-- A hit is a fresh flow, and a miss removes what is stale.
theorem run_flowHit (m : Maps) (k : FlowKey) (now : Nat) (refresh : Bool) :
    (m.fresh k now = true ∧ run (flowHit k k.proto now refresh) m =
      (true, if refresh then m.setFlow k (some ⟨now⟩) else m)) ∨
    (m.fresh k now = false ∧ (run (flowHit k k.proto now refresh) m).1 = false ∧
      Fades now m (run (flowHit k k.proto now refresh) m).2) := by
  cases hk : m.flows k
  case none =>
    refine .inr ⟨by simp [fresh, hk], ?_, ?_⟩
    all_goals simp only [flowHit, run_bind, run_flowGet, hk, run_pure]
    exact .refl now m
  case some v =>
    have hrun : run (flowHit k k.proto now refresh) m =
        if now - v.lastSeenNs > m.timeout k.proto then (false, m.setFlow k none)
        else (true, if refresh then m.setFlow k (some ⟨now⟩) else m) := by
      simp only [flowHit, run_bind, run_flowGet, hk, run_timeoutNs, run_ite, run_flowRemove, run_pure]
      cases refresh
      case false => rfl
      case true  => simp only [if_true, run_flowWrite m hk]
    rw [hrun]
    split
    case isTrue h =>
      have hf : m.fresh k now = false := by
        simp only [fresh, hk, Option.any_some, decide_eq_false_iff_not]
        omega
      exact .inr ⟨hf, rfl, .remove hf⟩
    case isFalse h =>
      refine .inl ⟨?_, rfl⟩
      simp only [fresh, hk, Option.any_some, decide_eq_true_eq]
      omega

theorem run_budgetWouldAllow (m : Maps) : (run (budgetWouldAllow b idx cap now) m).2 = m := by
  rw [budgetWouldAllow, run_bind]
  split <;> rfl

theorem run_budgetCommit (m : Maps) : Logs m (run (budgetCommit b idx now) m).2 := by
  rw [budgetCommit, run_bind]
  split
  case h_1 => exact .refl m
  case h_2 =>
    rw [run_ite]
    split <;> exact .setBudget ..

theorem run_maybeEmitDeny (ev : DenyEventRaw) (now : Nat) (m : Maps) :
    Logs m (run (maybeEmitDeny ev now) m).2 := by
  have out (m : Maps) : Logs m (run (output ev) m).2 := ⟨_, m.logRuleBudget, m.logAggBudget, rfl⟩
  have allows : Logs m (run (logAllows ev.ruleIdx now) m).2 := by
    simp only [logAllows, run_bind, run_cfgOrDefault, run_ite, run_budgetWouldAllow, run_pure]
    split
    case isTrue => exact .refl m
    case isFalse =>
      split
      case isTrue  => exact .refl m
      case isFalse => exact (run_budgetCommit m).trans (run_budgetCommit _)
  rw [maybeEmitDeny, run_bind, run_ite]
  split
  case isTrue  => exact allows.trans (out _)
  case isFalse => exact allows

-- The rule that the active generation picks for a packet.
def Maps.picks (m : Maps) (fwd : FlowKey) : Option (Nat × RuleMeta) :=
  (m.slot m.activeSlot).scan fwd.src fwd.dst fwd.proto fwd.dport

def charged (pick : Option (Nat × RuleMeta)) : Nat :=
  (pick.map (·.1)).getD CTR_DEFAULT_DENY

def allowed (pick : Option (Nat × RuleMeta)) : Bool :=
  pick.any fun p => decide (p.2.action = ACT_ALLOW)

theorem run_scanGeneration (m : Maps) (fwd : FlowKey) (now : Nat) :
    (run (scanGeneration fwd.src fwd.dst fwd.proto fwd.dport now) m).1 =
      ((m.picks fwd).map (·.2.action)).getD ACT_DENY ∧
    Logs (m.bump (charged (m.picks fwd)))
      (run (scanGeneration fwd.src fwd.dst fwd.proto fwd.dport now) m).2 := by
  rw [scanGeneration, run_bind, run_scanRules, ← Maps.picks]
  cases m.picks fwd
  case none =>
    simp only [run_bind, run_bump, run_pure]
    exact ⟨rfl, run_maybeEmitDeny ..⟩
  case some p =>
    simp only [run_bind, run_bump, run_ite, run_pure]
    split
    case isTrue  => exact ⟨rfl, run_maybeEmitDeny ..⟩
    case isFalse => exact ⟨rfl, .refl _⟩

theorem run_ingressRules (m : Maps) (fwd : FlowKey) (now : Nat) :
    ∃ m', Logs (m.bump (charged (m.picks fwd))) m' ∧
      run (ingressRules fwd now) m =
        if allowed (m.picks fwd) then (some .pipe, m'.setFlow fwd (some ⟨now⟩)) else (some .shot, m') := by
  have ⟨ha, hl⟩ := run_scanGeneration m fwd now
  refine ⟨_, hl, ?_⟩
  rw [ingressRules, run_bind, ha, run_ite]
  cases m.picks fwd
  case none => rfl
  case some p =>
    simp only [allowed, Option.map_some, Option.getD_some, Option.any_some, decide_eq_true_eq]
    rfl

-- Which way a packet takes on ingress.
inductive Path
  | malformed
  | flow (key : FlowKey) (refresh : Bool)
  | rules (fwd : FlowKey)

def ingressPath (m : Maps) (ctx : TcContext) (now : Nat) : Path :=
  match ipv4At ctx with
  | none   => .malformed
  | some h =>
    if m.fresh (reverseKey ctx h) now then .flow (reverseKey ctx h) true
    else if m.fresh (forwardKey ctx h) now then .flow (forwardKey ctx h) true
    else match embeddedKey ctx h with
      | none             => .malformed
      | some none        => .rules (forwardKey ctx h)
      | some (some ekey) =>
        if m.fresh ekey now then .flow ekey false else .rules (forwardKey ctx h)

-- Where a path leads: the verdict, and the maps that are left once stale flows are gone.
inductive Leads (now : Nat) : Path → Maps → TcAction → Maps → Prop
  | malformed : Leads now .malformed m .shot m
  | flow : m.fresh k now → Leads now (.flow k refresh) m .pipe
      ((if refresh then m.setFlow k (some ⟨now⟩) else m).bump CTR_FLOW_HIT)
  | allow : allowed (m.picks fwd) → Logs (m.bump (charged (m.picks fwd))) m' →
      Leads now (.rules fwd) m .pipe (m'.setFlow fwd (some ⟨now⟩))
  | deny : allowed (m.picks fwd) = false → Logs (m.bump (charged (m.picks fwd))) m' →
      Leads now (.rules fwd) m .shot m'

-- What a path adds to the counters.
def Path.bumps (m : Maps) : Path → Option Nat
  | malformed => none
  | flow _ _  => some CTR_FLOW_HIT
  | rules fwd => some (charged (m.picks fwd))

theorem Leads.counters (h : Leads now path m a m') :
    m'.counters = ((path.bumps m).elim m m.bump).counters := by
  cases h
  case malformed  => rfl
  case flow r _   => cases r <;> rfl
  case allow _ hl => have ⟨_, _, _, he⟩ := hl; subst he; rfl
  case deny hl    => have ⟨_, _, _, he⟩ := hl; subst he; rfl

-- A flow is written where it is refreshed or where the rules have let its packet in.
theorem Leads.flows (h : Leads now path m a m') (k : FlowKey) :
    m'.flows k = m.flows k ∨ m'.flows k = some ⟨now⟩ ∧
      (path = .flow k true ∨ path = .rules k ∧ allowed (m.picks k)) := by
  have set (f : FlowKey → Option FlowVal) (j : FlowKey) :
      Function.update f j (some ⟨now⟩) k = f k ∨
        Function.update f j (some ⟨now⟩) k = some ⟨now⟩ ∧ k = j := by
    by_cases hk : k = j
    case pos => exact .inr ⟨by simp [hk], hk⟩
    case neg => exact .inl (Function.update_of_ne hk ..)
  cases h
  case malformed => exact .inl rfl
  case flow j r _ =>
    cases r
    case false => exact .inl rfl
    case true  => exact (set m.flows j).imp_right fun ⟨h, hk⟩ => ⟨h, .inl (by rw [hk])⟩
  case allow _ j ha hl =>
    have ⟨_, _, _, he⟩ := hl
    subst he
    exact (set m.flows j).imp_right fun ⟨h, hk⟩ => ⟨h, .inr ⟨by rw [hk], hk ▸ ha⟩⟩
  case deny hl =>
    have ⟨_, _, _, he⟩ := hl
    subst he
    exact .inl rfl

theorem Leads.pipe (h : Leads now path m a m') (ha : a = .pipe) :
    path ≠ .malformed ∧ ∀ fwd, path = .rules fwd → allowed (m.picks fwd) := by
  cases h
  case malformed => cases ha
  case flow      => exact ⟨nofun, nofun⟩
  case allow h _ => exact ⟨nofun, fun _ hp => Path.rules.inj hp ▸ h⟩
  case deny      => cases ha

theorem ingressPath_flow (h : ingressPath m ctx now = .flow k refresh) :
    m.fresh k now ∧ ∃ hd, ipv4At ctx = some hd ∧
      (k = forwardKey ctx hd ∨ k = reverseKey ctx hd ∨
        refresh = false ∧ embeddedKey ctx hd = some (some k)) := by
  unfold ingressPath at h
  split at h
  case h_1 => cases h
  case h_2 hd hp =>
    split_ifs at h with hr hf
    case pos => cases h; exact ⟨hr, hd, hp, .inr (.inl rfl)⟩
    case pos => cases h; exact ⟨hf, hd, hp, .inl rfl⟩
    case neg =>
      split at h
      case h_1 => cases h
      case h_2 => cases h
      case h_3 ekey he =>
        split_ifs at h with hf
        cases h
        exact ⟨hf, hd, hp, .inr (.inr ⟨rfl, he⟩)⟩

theorem ingressPath_rules (h : ingressPath m ctx now = .rules fwd) :
    ∃ hd, ipv4At ctx = some hd ∧ fwd = forwardKey ctx hd := by
  unfold ingressPath at h
  split at h
  case h_1 => cases h
  case h_2 hd hp =>
    split_ifs at h
    split at h
    case h_1 => cases h
    case h_2 => cases h; exact ⟨hd, hp, rfl⟩
    case h_3 =>
      split_ifs at h
      cases h
      exact ⟨hd, hp, rfl⟩

theorem leads_rules (m : Maps) (fwd : FlowKey) (now : Nat) :
    ∃ a, (run (ingressRules fwd now) m).1 = some a ∧
      Leads now (.rules fwd) m a (run (ingressRules fwd now) m).2 := by
  have ⟨m', hl, hr⟩ := run_ingressRules m fwd now
  rw [hr]
  split
  case isTrue h  => exact ⟨.pipe, rfl, .allow h hl⟩
  case isFalse h => exact ⟨.shot, rfl, .deny (Bool.eq_false_iff.mpr h) hl⟩

theorem forwardKey_proto (ctx : TcContext) (h : Ipv4Header) : (forwardKey ctx h).proto = h.proto :=
  rfl

theorem reverseKey_proto (ctx : TcContext) (h : Ipv4Header) : (reverseKey ctx h).proto = h.proto := by
  simp only [reverseKey]
  split <;> rfl

theorem run_tryIngress (m : Maps) (ctx : TcContext) (now : Nat) :
    ∃ m₁, Fades now m m₁ ∧ Leads now (ingressPath m ctx now) m₁
      ((run (tryIngress ctx now) m).1.getD .shot) (run (tryIngress ctx now) m).2 := by
  unfold tryIngress ingressPath
  cases ipv4At ctx
  case none => exact ⟨m, .refl now m, .malformed⟩
  case some h =>
    simp only [run_bind, run_ite]
    -- Each lookup either is a hit, and then the rest is not looked at, or leaves the next one with maps
    -- from which only stale flows have gone.
    have rev := run_flowHit m (reverseKey ctx h) now true
    rw [reverseKey_proto] at rev
    obtain ⟨hf, hr⟩ | ⟨hf, hr, f₁⟩ := rev
    case inl =>
      simp only [hf, hr, if_true]
      exact ⟨m, .refl now m, .flow hf⟩
    case inr =>
      simp only [hf, hr, Bool.false_eq_true, if_false]
      generalize (run (flowHit (reverseKey ctx h) h.proto now true) m).2 = m₁ at f₁
      have fwd := run_flowHit m₁ (forwardKey ctx h) now true
      rw [forwardKey_proto, f₁.fresh] at fwd
      obtain ⟨hf, hr⟩ | ⟨hf, hr, f₂⟩ := fwd
      case inl =>
        simp only [hf, hr, if_true]
        exact ⟨m₁, f₁, .flow (f₁.fresh _ ▸ hf)⟩
      case inr =>
        simp only [hf, hr, Bool.false_eq_true, if_false]
        generalize (run (flowHit (forwardKey ctx h) h.proto now true) m₁).2 = m₂ at f₂
        replace f₂ := f₁.trans f₂
        have rules (m₃ : Maps) : Leads now (.rules (forwardKey ctx h)) m₃
            ((run (ingressRules (forwardKey ctx h) now) m₃).1.getD .shot)
            (run (ingressRules (forwardKey ctx h) now) m₃).2 := by
          obtain ⟨a, ha, hl⟩ := leads_rules m₃ (forwardKey ctx h) now
          rw [ha]
          exact hl
        rcases embeddedKey ctx h with _ | _ | ekey
        case none      => exact ⟨m₂, f₂, .malformed⟩
        case some.none => exact ⟨m₂, f₂, rules m₂⟩
        case some.some =>
          simp only [run_bind, run_ite]
          obtain ⟨hf, hr⟩ | ⟨hf, hr, f₃⟩ := run_flowHit m₂ ekey now false
          case inl =>
            simp only [f₂.fresh ekey ▸ hf, hr, if_true]
            exact ⟨m₂, f₂, .flow hf⟩
          case inr =>
            simp only [f₂.fresh ekey ▸ hf, hr, Bool.false_eq_true, if_false]
            exact ⟨_, f₂.trans f₃, rules _⟩

theorem run_aethIngress (m : Maps) (ctx : TcContext) (now : Nat) :
    ∃ m₁, Fades now m m₁ ∧ Leads now (ingressPath m ctx now) m₁ (run (aethIngress ctx now) m).1
      (run (aethIngress ctx now) m).2 := by
  have h := run_tryIngress m ctx now
  rw [aethIngress, run_bind]
  cases hr : (run (tryIngress ctx now) m).1 <;> rw [hr] at h <;> exact h

theorem run_rateAllows (m : Maps) (src : BitVec 32) (now : Nat) : Rates m (run (rateAllows src now) m).2 := by
  have write (s : BitVec 32) (v : RateVal) : Rates m (run (rateWrite s v) m).2 := by
    simp only [run, rateWrite, Prog.run_perform, Maps.exec]
    split
    case isTrue  => exact .setRate m s v
    case isFalse => exact ⟨m.rate, rfl⟩
  have cap : (run rateCap m).2 = m := by simp only [rateCap, run_bind, run_cfgOrDefault, run_pure]
  rw [rateAllows, run_bind, run_bind, cap]
  split
  case h_1 => exact .setRate m src _
  case h_2 =>
    simp only [run_ite, run_bind, run_pure]
    split_ifs
    case pos => exact write ..
    case pos => exact write ..
    case neg => exact ⟨m.rate, rfl⟩

-- On egress the flow of the packet is recorded, or left out if there are too many new ones.
def Records (ctx : TcContext) (now : Nat) (m m' : Maps) : Prop :=
  ∃ flows rate, m' = { m with flows, rate } ∧
    ∀ k, flows k = m.flows k ∨ flows k = none ∨
      ∃ h, ipv4At ctx = some h ∧ k = forwardKey ctx h ∧ flows k = some ⟨now⟩

theorem run_aethEgress (m : Maps) (ctx : TcContext) (now : Nat) :
    (run (aethEgress ctx now) m).1 = .pipe ∧ Records ctx now m (run (aethEgress ctx now) m).2 := by
  rw [aethEgress, run_bind]
  refine ⟨rfl, ?_⟩
  rw [run_pure]
  cases hp : ipv4At ctx
  case none =>
    simp only [tryEgress, hp, run_pure]
    exact ⟨m.flows, m.rate, rfl, fun _ => .inl rfl⟩
  case some h =>
    have set (f : FlowKey → Option FlowVal) (k : FlowKey)
        (hf : f k = m.flows k ∨ f k = none) :
        Function.update f (forwardKey ctx h) (some ⟨now⟩) k = m.flows k ∨
        Function.update f (forwardKey ctx h) (some ⟨now⟩) k = none ∨
        ∃ h', some h = some h' ∧ k = forwardKey ctx h' ∧
          Function.update f (forwardKey ctx h) (some ⟨now⟩) k = some ⟨now⟩ := by
      by_cases hk : k = forwardKey ctx h
      case pos => exact .inr <| .inr ⟨h, rfl, hk, by simp [hk]⟩
      case neg => simp only [Function.update_of_ne hk]; tauto
    -- The flow is inserted only where the source is within its rate.
    have insert (m₁ : Maps) (flows : FlowKey → Option FlowVal) (hm : m₁ = { m with flows })
        (hf : ∀ k, flows k = m.flows k ∨ flows k = none) :
        Records ctx now m (if (run (rateAllows h.src now) m₁).1 = true
          then (run (flowInsert (forwardKey ctx h) ⟨now⟩) (run (rateAllows h.src now) m₁).2).2
          else (run (rateAllows h.src now) m₁).2) := by
      have ⟨rate, hr⟩ := run_rateAllows m₁ h.src now
      subst hm
      rw [hr]
      simp only [Records, hp]
      split
      case isTrue  => exact ⟨_, rate, rfl, fun k => set flows k (hf k)⟩
      case isFalse => exact ⟨flows, rate, rfl, fun k => by have := hf k; tauto⟩
    rw [tryEgress, hp]
    simp only [run_bind, run_flowGet]
    cases hk : m.flows (forwardKey ctx h)
    case none =>
      simp only [run_bind, run_ite, run_pure, apply_ite Prod.snd]
      exact insert m m.flows rfl fun _ => .inl rfl
    case some v =>
      simp only [run_bind, run_timeoutNs, run_ite, run_flowRemove, run_pure, apply_ite Prod.snd]
      split
      case isTrue =>
        refine insert (m.setFlow (forwardKey ctx h) none) _ rfl fun k => ?_
        simp only [Function.update_apply]
        split <;> simp
      case isFalse =>
        rw [run_flowWrite m hk]
        exact ⟨_, m.rate, rfl, fun k => hp ▸ set m.flows k (.inl rfl)⟩

end Enforcer
