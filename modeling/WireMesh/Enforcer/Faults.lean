import WireMesh.Enforcer.Ebpf

-- An apply whose system calls may fail.
namespace Enforcer

open Policy

-- The maps of a generation, which are created and filled before the kernel program can see them. Those
-- of an apply that fails are dropped.
inductive InnerMap
  | src
  | dst
  | rules
  | metaArr

-- The calls that an apply makes. Each is made at most once, so a call is known by what it does.
inductive KernelOp
  | create (map : InnerMap)
  | fill (map : InnerMap) (i : Nat)
  | access (o : LoaderOp)
  | now

-- A call that fails has no result. The clock never fails.
abbrev KernelOp.Resp : KernelOp → Type
  | create _ => Option Unit
  | fill _ _ => Option Unit
  | access o => Option o.Resp
  | now      => Nat

-- A call that fails leaves the maps alone.
def Maps.execFaulty (clock : Nat) (fails : KernelOp → Bool) : (o : KernelOp) → Maps → o.Resp × Maps
  | .create map, m => (if fails (.create map) then none else some (), m)
  | .fill map i, m => (if fails (.fill map i) then none else some (), m)
  | .access o,   m =>
    if fails (.access o) then (none, m)
    else (some (m.execLoader clock o).1, (m.execLoader clock o).2)
  | .now,        m => (clock, m)

-- An apply works on the state of the loader in place: what it has done to it before it fails stays.
abbrev Attempt := ExceptT String (StateT GenerationState (Prog KernelOp.Resp))

namespace Attempt

def run (clock : Nat) (fails : KernelOp → Bool) (p : Attempt α) (gen : GenerationState) (m : Maps) :
    (Except String α × GenerationState) × Maps :=
  Prog.run (Maps.execFaulty clock fails) (StateT.run (ExceptT.run p) gen) m

def perform (o : KernelOp) : Attempt o.Resp :=
  liftM (Prog.perform o : Prog KernelOp.Resp o.Resp)

def orFail (context : String) : Option α → Attempt α
  | some a => pure a
  | none   => throw context

def create (context : String) (map : InnerMap) : Attempt Unit := do
  orFail context (← perform (.create map))

def fill (context : String) (map : InnerMap) (i : Nat) : Attempt Unit := do
  orFail context (← perform (.fill map i))

def access (o : LoaderOp) : Attempt o.Resp := do
  orFail "syscall failed" (← perform (.access o))

-- A counter that cannot be read counts as zero.
def counterOrZero (idx : Nat) : Attempt Nat := do
  let val : Option Nat ← perform (.access (.counterGet idx))
  return val.getD 0

def now : Attempt Nat :=
  perform .now

def state : Attempt GenerationState :=
  get

def update (f : GenerationState → GenerationState) : Attempt Unit :=
  modify f

end Attempt

namespace Faulty

open Attempt

def insertEntries (context : String) (map : InnerMap) (trie : Trie) :
    List ((Ipv4Net × RuleBits) × Nat) → Attempt Trie
  | []           => return trie
  | (e, i) :: es => do
    let trie ← orFail context (trieInsert trie (lpmKey e.1) e.2)
    fill context map i
    insertEntries context map trie es

def buildTrie (context : String) (map : InnerMap) (entries : List (Ipv4Net × RuleBits)) :
    Attempt Trie := do
  create context map
  insertEntries context map [] entries.zipIdx

def setRules (arr : RulesArr) : List (RuleMeta × Nat) → Attempt RulesArr
  | []      => return arr
  | e :: es => do
    let arr ← orFail "the index is 256 but `max_entries` is 256" (setRule arr e)
    fill "syscall failed" .rules e.2
    setRules arr es

def installGeneration (target : Nat) (srcEntries dstEntries : List (Ipv4Net × RuleBits))
    (rules : List RuleMeta) : Attempt Unit := do
  let src ← buildTrie "building fresh SRC LPM trie" .src srcEntries
  let dst ← buildTrie "building fresh DST LPM trie" .dst dstEntries
  create "creating fresh RULES array" .rules
  let rulesArr ← setRules (.zeroed MAX_RULES .zero) rules.zipIdx
  create "creating fresh META array" .metaArr
  fill "syscall failed" .metaArr 0
  access (.setSrc target src)
  access (.setDst target dst)
  access (.setRules target rulesArr)
  access (.setMeta target ((ArrayMap.zeroed 1 0).set 0 rules.length))

-- A hit is folded once its slot has been zeroed.
def foldCounters : List Nat → Attempt Unit
  | []        => return
  | idx :: is => do
    let val ← counterOrZero idx
    if val > 0 then
      access (.counterSet idx 0)
      update fun gen =>
        match gen.idxToRuleId[idx]? with
        | some ruleId => { gen with counterAccum := addCount gen.counterAccum ruleId val }
        | none        => gen
    foldCounters is

def foldAndResetCounters (newLen : Nat) : Attempt Unit := do
  let gen ← state
  foldCounters (List.range (min (max gen.idxToRuleId.length newLen) MAX_RULES))
  let dd ← counterOrZero CTR_DEFAULT_DENY
  if dd > 0 then
    access (.counterSet CTR_DEFAULT_DENY 0)
    update fun gen => { gen with defaultDenyAccum := gen.defaultDenyAccum + dd }

-- An apply up to the flip. The result is the slot that is still active.
def prepareFlip (flat : List FlatRule) : Attempt Nat := do
  let activeNow : Nat ← access .activeGet
  installGeneration (1 - activeNow) (buildLpmEntries flat .src) (buildLpmEntries flat .dst)
    (buildRules flat).1
  foldAndResetCounters flat.length
  return activeNow

def applyGeneration (flat : List FlatRule) : Attempt Unit := do
  let activeNow ← prepareFlip flat
  let idxToRuleId := (buildRules flat).2
  update (pruneRetiredCounters · idxToRuleId)
  access (.activeSet (1 - activeNow))
  let flippedAt ← now
  update ({ · with pendingReap := some ⟨activeNow, flippedAt⟩, idxToRuleId })

end Faulty
end Enforcer
