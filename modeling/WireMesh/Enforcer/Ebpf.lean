import WireMesh.Enforcer.Flatten
import WireMesh.Enforcer.Kernel

-- The loader: it builds a generation from a flattened policy, installs it next to the active one
-- and flips.
namespace Enforcer

open Policy

def protoNum : IrProto → BitVec 32
  | .tcp  => 6
  | .udp  => 17
  | .icmp => 1
  | .any  => 0

def actionNum : IrAction → BitVec 32
  | .allow => ACT_ALLOW
  | .deny  => ACT_DENY

def ruleMeta (f : FlatRule) : RuleMeta where
  action := actionNum f.action
  proto  := protoNum f.proto
  portLo := f.portLo
  portHi := f.portHi

def buildRules (flat : List FlatRule) : List RuleMeta × List String :=
  (flat.map ruleMeta, flat.map (·.ruleId))

inductive Side
  | src
  | dst

def sideCidrs (f : FlatRule) : Side → List Ipv4Net
  | .src => f.srcCidrs
  | .dst => f.dstCidrs

def accumulateSide (flat : List FlatRule) (side : Side) : DistinctSideCidrs :=
  flat.foldl (fun acc f => acc.observe (sideCidrs f side)) .empty

def distinctSideCidrs (flat : List FlatRule) (side : Side) : List Ipv4Net :=
  (accumulateSide flat side).order

def checkLpmCapacity (flat : List FlatRule) : Except String Unit := do
  (accumulateSide flat .src).check "src"
  (accumulateSide flat .dst).check "dst"

-- The bits of every rule with a CIDR on the side that contains `p`.
def coveringBits (flat : List FlatRule) (side : Side) (p : Ipv4Net) : RuleBits :=
  flat.foldl
    (fun bits f => if (sideCidrs f side).any (·.contains p) then bitSet bits f.idx else bits) .zero

def buildLpmEntries (flat : List FlatRule) (side : Side) : List (Ipv4Net × RuleBits) :=
  (distinctSideCidrs flat side).map fun p => (p, coveringBits flat side p)

def lpmKey (net : Ipv4Net) : LpmKey where
  prefixLen := net.prefixLen
  data      := (toBe32 net.network).setWidth 64

-- The kernel refuses a new key once the trie is full.
def trieInsert (trie : Trie) (key : LpmKey) (bits : RuleBits) : Option Trie :=
  let trie' := trie.insert keyBit key bits
  if trie'.length ≤ LPM_MAX_ENTRIES then some trie' else none

def buildTrie (entries : List (Ipv4Net × RuleBits)) : Option Trie :=
  entries.foldlM (fun trie e => trieInsert trie (lpmKey e.1) e.2) []

def setRule (arr : RulesArr) (e : RuleMeta × Nat) : Option RulesArr :=
  if e.2 < MAX_RULES then some (arr.set e.2 e.1) else none

def fillRules (rules : List RuleMeta) : Option RulesArr :=
  rules.zipIdx.foldlM setRule (.zeroed MAX_RULES .zero)

-- The inner maps of one generation.
structure Generation where
  src : Trie
  dst : Trie
  rules : RulesArr
  metaArr : MetaArr

def buildGeneration (srcEntries dstEntries : List (Ipv4Net × RuleBits)) (rules : List RuleMeta) :
    Except String Generation :=
  match buildTrie srcEntries, buildTrie dstEntries, fillRules rules with
  | none, _, _ => .error "building fresh SRC LPM trie"
  | _, none, _ => .error "building fresh DST LPM trie"
  | _, _, none => .error "the index is 256 but `max_entries` is 256"
  | some src, some dst, some rulesArr =>
    .ok { src, dst, rules := rulesArr, metaArr := (ArrayMap.zeroed 1 0).set 0 rules.length }

-- The accesses to maps that the loader makes, each of them one system call, and its clock.
inductive LoaderOp
  | activeGet
  | activeSet (slot : Nat)
  | setSrc (slot : Nat) (trie : Trie)
  | setDst (slot : Nat) (trie : Trie)
  | setRules (slot : Nat) (rules : RulesArr)
  | setMeta (slot : Nat) (arr : MetaArr)
  | counterGet (idx : Nat)
  | counterSet (idx val : Nat)
  | now

abbrev LoaderOp.Resp : LoaderOp → Type
  | activeGet    => Nat
  | counterGet _ => Nat
  | now          => Nat
  | _            => Unit

namespace Maps

def setCounter (m : Maps) (idx val : Nat) : Maps :=
  { m with counters := m.counters.set idx val }

def counter (m : Maps) (idx : Nat) : Nat :=
  (m.counters.get idx).getD 0

def activeSlot (m : Maps) : Nat :=
  (m.active.get 0).getD 0

def setActive (m : Maps) (slot : Nat) : Maps :=
  { m with active := m.active.set 0 slot }

def execLoader (clock : Nat) : (o : LoaderOp) → Maps → o.Resp × Maps
  | .activeGet,      m => (m.activeSlot, m)
  | .activeSet s,    m => ((), m.setActive s)
  | .setSrc s t,     m => ((), { m with genSrc := m.genSrc.set s t })
  | .setDst s t,     m => ((), { m with genDst := m.genDst.set s t })
  | .setRules s r,   m => ((), { m with genRules := m.genRules.set s r })
  | .setMeta s a,    m => ((), { m with genMeta := m.genMeta.set s a })
  | .counterGet i,   m => (m.counter i, m)
  | .counterSet i v, m => ((), m.setCounter i v)
  | .now,            m => (clock, m)

end Maps

abbrev Loader := Prog LoaderOp.Resp

namespace Loader

def run (clock : Nat) (p : Loader α) (m : Maps) : α × Maps :=
  Prog.run (Maps.execLoader clock) p m

def activeGet : Loader Nat := Prog.perform LoaderOp.activeGet
def activeSet (slot : Nat) : Loader Unit := Prog.perform <| LoaderOp.activeSet slot
def setSrc (slot : Nat) (trie : Trie) : Loader Unit := Prog.perform <| LoaderOp.setSrc slot trie
def setDst (slot : Nat) (trie : Trie) : Loader Unit := Prog.perform <| LoaderOp.setDst slot trie
def setRules (slot : Nat) (r : RulesArr) : Loader Unit := Prog.perform <| LoaderOp.setRules slot r
def setMeta (slot : Nat) (a : MetaArr) : Loader Unit := Prog.perform <| LoaderOp.setMeta slot a
def counterGet (idx : Nat) : Loader Nat := Prog.perform <| LoaderOp.counterGet idx
def counterSet (idx val : Nat) : Loader Unit := Prog.perform <| LoaderOp.counterSet idx val
def now : Loader Nat := Prog.perform LoaderOp.now

variable (c : Nat) (m : Maps)

@[simp]
theorem run_pure (a : α) : run c (pure a) m = (a, m) :=
  rfl

@[simp]
theorem run_bind (p : Loader α) (f : α → Loader β) :
    run c (p >>= f) m = run c (f (run c p m).1) (run c p m).2 :=
  Prog.run_bind ..

@[simp]
theorem run_ite (b : Prop) [Decidable b] (p q : Loader α) :
    run c (if b then p else q) m = if b then run c p m else run c q m := by
  split <;> rfl

@[simp] theorem run_activeGet : run c activeGet m = (m.activeSlot, m) := rfl
@[simp] theorem run_activeSet : run c (activeSet s) m = ((), m.setActive s) := rfl
@[simp] theorem run_counterGet : run c (counterGet i) m = (m.counter i, m) := rfl
@[simp] theorem run_counterSet : run c (counterSet i v) m = ((), m.setCounter i v) := rfl
@[simp] theorem run_now : run c now m = (c, m) := rfl

end Loader

open Loader

def installGeneration (target : Nat) (g : Generation) : Loader Unit := do
  setSrc target g.src
  setDst target g.dst
  setRules target g.rules
  setMeta target g.metaArr

-- The slot that a flip has vacated, and when.
structure PendingReap where
  slot : Nat
  flippedAt : Nat
deriving DecidableEq

structure GenerationState where
  idxToRuleId : List String
  pendingReap : Option PendingReap
  counterAccum : String → Option Nat
  defaultDenyAccum : Nat

def GenerationState.default : GenerationState where
  idxToRuleId      := []
  pendingReap      := none
  counterAccum     := fun _ => none
  defaultDenyAccum := 0

-- An entry is created on its first hit.
def addCount (accum : String → Option Nat) (ruleId : String) (val : Nat) : String → Option Nat :=
  Function.update accum ruleId (some ((accum ruleId).getD 0 + val))

-- A value at an index without a rule in the old mapping is zeroed and dropped.
def foldCounters (gen : GenerationState) : List Nat → Loader GenerationState
  | []        => return gen
  | idx :: is => do
    let val ← counterGet idx
    if val > 0 then
      counterSet idx 0
      match gen.idxToRuleId[idx]? with
      | some ruleId =>
        foldCounters { gen with counterAccum := addCount gen.counterAccum ruleId val } is
      | none => foldCounters gen is
    else
      foldCounters gen is

def foldAndResetCounters (gen : GenerationState) (newLen : Nat) : Loader GenerationState := do
  let resetLen := min (max gen.idxToRuleId.length newLen) MAX_RULES
  let gen ← foldCounters gen (List.range resetLen)
  let dd ← counterGet CTR_DEFAULT_DENY
  if dd > 0 then
    counterSet CTR_DEFAULT_DENY 0
    return { gen with defaultDenyAccum := gen.defaultDenyAccum + dd }
  else
    return gen

def pruneRetiredCounters (gen : GenerationState) (newIdxToRuleId : List String) : GenerationState :=
  { gen with
    counterAccum := fun ruleId =>
      if ruleId ∈ newIdxToRuleId then gen.counterAccum ruleId else none }

-- An apply up to the fold: the new generation stands in the slot that is not active. The result is the
-- slot that is.
def prepareGeneration (flat : List FlatRule) : Loader (Except String Nat) := do
  let activeNow ← activeGet
  match buildGeneration (buildLpmEntries flat .src) (buildLpmEntries flat .dst) (buildRules flat).1 with
  | .error e => return .error e
  | .ok g =>
    installGeneration (1 - activeNow) g
    return .ok activeNow

-- The rest of it, from the fold over the flip to the new mapping.
def commitGeneration (flat : List FlatRule) (activeNow : Nat) (gen : GenerationState) :
    Loader GenerationState := do
  let idxToRuleId := (buildRules flat).2
  let gen ← foldAndResetCounters gen flat.length
  let gen := pruneRetiredCounters gen idxToRuleId
  activeSet (1 - activeNow)
  let flippedAt ← now
  return { gen with pendingReap := some ⟨activeNow, flippedAt⟩, idxToRuleId }

def applyGeneration (flat : List FlatRule) (gen : GenerationState) :
    Loader (Except String GenerationState) := do
  match ← prepareGeneration flat with
  | .error e      => return .error e
  | .ok activeNow => return .ok (← commitGeneration flat activeNow gen)

def applyPolicy [Ipnet] (ir : PolicyIR) (gen : GenerationState) :
    Loader (Except String GenerationState) :=
  match flatten ir with
  | .error e => return .error e
  | .ok flat =>
    match checkLpmCapacity flat with
    | .error e => return .error e
    | .ok ()   => applyGeneration flat gen

def applyReadyAt (gen : GenerationState) (reapGrace : Nat) : Option Nat :=
  gen.pendingReap.map (·.flippedAt + reapGrace)

structure Counters where
  byRule : String → Option Nat
  defaultDeny : Nat

def sumCounters (byRule : String → Option Nat) : List (String × Nat) → Loader (String → Option Nat)
  | []                  => return byRule
  | (ruleId, idx) :: is => do
    let c ← counterGet idx
    if c > 0 then sumCounters (addCount byRule ruleId c) is else sumCounters byRule is

def counters (gen : GenerationState) : Loader Counters := do
  let live ← counterGet CTR_DEFAULT_DENY
  let byRule ← sumCounters gen.counterAccum gen.idxToRuleId.zipIdx
  return { byRule, defaultDeny := gen.defaultDenyAccum + live }

structure DenyEvent where
  src : Ipv4Addr
  dst : Ipv4Addr
  proto : BitVec 8
  dport : Port
  ruleId : Option String
deriving DecidableEq

-- A rule index is resolved against the mapping of the moment of the drain.
def denyEvent (gen : GenerationState) (raw : DenyEventRaw) : DenyEvent where
  src    := fromBe32 raw.src
  dst    := fromBe32 raw.dst
  proto  := raw.proto
  dport  := fromBe16 raw.dport
  ruleId := if raw.ruleIdx = CTR_DEFAULT_DENY then none else gen.idxToRuleId[raw.ruleIdx]?

def denyEvents (gen : GenerationState) (m : Maps) : List DenyEvent × Maps :=
  (m.denyRb.map (denyEvent gen), { m with denyRb := [] })

def flushFlows (m : Maps) : Maps :=
  { m with flows := fun _ => none }

end Enforcer
