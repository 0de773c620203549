import WireMesh.Lib.Prog
import WireMesh.Enforcer.Common

-- The maps that the kernel program and its loader share.
namespace Enforcer

abbrev RulesArr := ArrayMap MAX_RULES RuleMeta

abbrev MetaArr := ArrayMap 1 Nat

-- An inner map is filled before it is put into a slot of an outer array and never written to again,
-- so a slot holds the contents themselves. Evictions from the two maps with least-recently-used
-- replacement are not an effect of the programs, they are events of their own.
structure Maps where
  counters : ArrayMap COUNTERS_LEN Nat
  active : ArrayMap 1 Nat
  flows : FlowKey → Option FlowVal
  rate : BitVec 32 → Option RateVal
  config : ArrayMap CONFIG_LEN Nat
  denyRb : List DenyEventRaw
  logRuleBudget : ArrayMap (MAX_RULES + 1) RateVal
  logAggBudget : ArrayMap 1 RateVal
  genSrc : ArrayMap GENERATIONS (Option Trie)
  genDst : ArrayMap GENERATIONS (Option Trie)
  genRules : ArrayMap GENERATIONS (Option RulesArr)
  genMeta : ArrayMap GENERATIONS (Option MetaArr)

-- The maps right after the program is loaded and configured.
def Maps.loaded (config : ArrayMap CONFIG_LEN Nat) : Maps where
  counters      := .zeroed _ 0
  active        := .zeroed _ 0
  flows         := fun _ => none
  rate          := fun _ => none
  config        := config
  denyRb        := []
  logRuleBudget := .zeroed _ ⟨0, 0⟩
  logAggBudget  := .zeroed _ ⟨0, 0⟩
  genSrc        := .zeroed _ none
  genDst        := .zeroed _ none
  genRules      := .zeroed _ none
  genMeta       := .zeroed _ none

inductive Budget
  | rule
  | aggregate

-- The accesses to maps that the kernel program makes, each of them atomic. A write goes through a
-- pointer into an entry that is there, an insert may create the entry.
inductive MapOp
  | active
  | genSrc (slot : Nat)
  | genDst (slot : Nat)
  | genRules (slot : Nat)
  | genMeta (slot : Nat)
  | config (idx : Nat)
  | bump (idx : Nat)
  | flowGet (key : FlowKey)
  | flowWrite (key : FlowKey) (val : FlowVal)
  | flowInsert (key : FlowKey) (val : FlowVal)
  | flowRemove (key : FlowKey)
  | rateGet (src : BitVec 32)
  | rateWrite (src : BitVec 32) (val : RateVal)
  | rateInsert (src : BitVec 32) (val : RateVal)
  | budgetGet (budget : Budget) (idx : Nat)
  | budgetWrite (budget : Budget) (idx : Nat) (val : RateVal)
  | output (ev : DenyEventRaw)

abbrev MapOp.Resp : MapOp → Type
  | active          => Option Nat
  | genSrc _        => Option Trie
  | genDst _        => Option Trie
  | genRules _      => Option RulesArr
  | genMeta _       => Option MetaArr
  | config _        => Option Nat
  | flowGet _       => Option FlowVal
  | rateGet _       => Option RateVal
  | budgetGet _ _   => Option RateVal
  | _               => Unit

namespace Maps

def slotSrc (m : Maps) (slot : Nat) : Option Trie :=
  (m.genSrc.get slot).join

def slotDst (m : Maps) (slot : Nat) : Option Trie :=
  (m.genDst.get slot).join

def slotRules (m : Maps) (slot : Nat) : Option RulesArr :=
  (m.genRules.get slot).join

def slotMeta (m : Maps) (slot : Nat) : Option MetaArr :=
  (m.genMeta.get slot).join

def budget (m : Maps) : Budget → Nat → Option RateVal
  | .rule      => m.logRuleBudget.get
  | .aggregate => m.logAggBudget.get

def setBudget (m : Maps) (i : Nat) (v : RateVal) : Budget → Maps
  | .rule      => { m with logRuleBudget := m.logRuleBudget.set i v }
  | .aggregate => { m with logAggBudget := m.logAggBudget.set i v }

-- The kernel's counters are 64 bits wide. At a packet per nanosecond one wraps after five hundred
-- years, so they are natural numbers here.
def bump (m : Maps) (i : Nat) : Maps :=
  { m with counters := m.counters.set i ((m.counters.get i).getD 0 + 1) }

def setFlow (m : Maps) (k : FlowKey) (v : Option FlowVal) : Maps :=
  { m with flows := Function.update m.flows k v }

def setRate (m : Maps) (s : BitVec 32) (v : RateVal) : Maps :=
  { m with rate := Function.update m.rate s (some v) }

def exec : (o : MapOp) → Maps → o.Resp × Maps
  | .active,            m => (m.active.get 0, m)
  | .genSrc s,          m => (m.slotSrc s, m)
  | .genDst s,          m => (m.slotDst s, m)
  | .genRules s,        m => (m.slotRules s, m)
  | .genMeta s,         m => (m.slotMeta s, m)
  | .config i,          m => (m.config.get i, m)
  | .bump i,            m => ((), m.bump i)
  | .flowGet k,         m => (m.flows k, m)
  | .flowWrite k v,     m => ((), if (m.flows k).isSome then m.setFlow k v else m)
  | .flowInsert k v,    m => ((), m.setFlow k v)
  | .flowRemove k,      m => ((), m.setFlow k none)
  | .rateGet s,         m => (m.rate s, m)
  | .rateWrite s v,     m => ((), if (m.rate s).isSome then m.setRate s v else m)
  | .rateInsert s v,    m => ((), m.setRate s v)
  | .budgetGet b i,     m => (m.budget b i, m)
  | .budgetWrite b i v, m => ((), m.setBudget i v b)
  | .output ev,         m => ((), { m with denyRb := m.denyRb ++ [ev] })

end Maps

abbrev Kernel := Prog MapOp.Resp

namespace Kernel

def run (p : Kernel α) (m : Maps) : α × Maps :=
  Prog.run Maps.exec p m

@[simp]
theorem run_pure (a : α) (m : Maps) : run (pure a) m = (a, m) :=
  rfl

@[simp]
theorem run_bind (p : Kernel α) (f : α → Kernel β) (m : Maps) :
    run (p >>= f) m = run (f (run p m).1) (run p m).2 :=
  Prog.run_bind ..

@[simp]
theorem run_ite (c : Prop) [Decidable c] (p q : Kernel α) (m : Maps) :
    run (if c then p else q) m = if c then run p m else run q m := by
  split <;> rfl

def active : Kernel (Option Nat) := Prog.perform MapOp.active
def genSrc (slot : Nat) : Kernel (Option Trie) := Prog.perform <| MapOp.genSrc slot
def genDst (slot : Nat) : Kernel (Option Trie) := Prog.perform <| MapOp.genDst slot
def genRules (slot : Nat) : Kernel (Option RulesArr) := Prog.perform <| MapOp.genRules slot
def genMeta (slot : Nat) : Kernel (Option MetaArr) := Prog.perform <| MapOp.genMeta slot
def config (idx : Nat) : Kernel (Option Nat) := Prog.perform <| MapOp.config idx
def bump (idx : Nat) : Kernel Unit := Prog.perform <| MapOp.bump idx
def flowGet (k : FlowKey) : Kernel (Option FlowVal) := Prog.perform <| MapOp.flowGet k
def flowWrite (k : FlowKey) (v : FlowVal) : Kernel Unit := Prog.perform <| MapOp.flowWrite k v
def flowInsert (k : FlowKey) (v : FlowVal) : Kernel Unit := Prog.perform <| MapOp.flowInsert k v
def flowRemove (k : FlowKey) : Kernel Unit := Prog.perform <| MapOp.flowRemove k
def rateGet (s : BitVec 32) : Kernel (Option RateVal) := Prog.perform <| MapOp.rateGet s
def rateWrite (s : BitVec 32) (v : RateVal) : Kernel Unit := Prog.perform <| MapOp.rateWrite s v
def rateInsert (s : BitVec 32) (v : RateVal) : Kernel Unit := Prog.perform <| MapOp.rateInsert s v
def budgetGet (b : Budget) (i : Nat) : Kernel (Option RateVal) := Prog.perform <| MapOp.budgetGet b i
def budgetWrite (b : Budget) (i : Nat) (v : RateVal) : Kernel Unit :=
  Prog.perform <| MapOp.budgetWrite b i v
def output (ev : DenyEventRaw) : Kernel Unit := Prog.perform <| MapOp.output ev

variable (m : Maps)

@[simp] theorem run_active : run active m = (m.active.get 0, m) := rfl
@[simp] theorem run_genSrc : run (genSrc s) m = (m.slotSrc s, m) := rfl
@[simp] theorem run_genDst : run (genDst s) m = (m.slotDst s, m) := rfl
@[simp] theorem run_genRules : run (genRules s) m = (m.slotRules s, m) := rfl
@[simp] theorem run_genMeta : run (genMeta s) m = (m.slotMeta s, m) := rfl
@[simp] theorem run_config : run (config i) m = (m.config.get i, m) := rfl
@[simp] theorem run_bump : run (bump i) m = ((), m.bump i) := rfl
@[simp] theorem run_flowGet : run (flowGet k) m = (m.flows k, m) := rfl
@[simp] theorem run_flowInsert : run (flowInsert k v) m = ((), m.setFlow k v) := rfl
@[simp] theorem run_flowRemove : run (flowRemove k) m = ((), m.setFlow k none) := rfl

theorem run_flowWrite (h : m.flows k = some u) : run (flowWrite k v) m = ((), m.setFlow k v) := by
  simp [run, flowWrite, Maps.exec, h]

end Kernel
end Enforcer
