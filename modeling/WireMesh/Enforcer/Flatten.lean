import Mathlib
import WireMesh.Enforcer.Common

-- The front half that both backends share: a policy becomes the list of its rules in scan order.
namespace Enforcer

open Policy

-- The distinct CIDRs of one side in order of first appearance.
structure DistinctSideCidrs where
  order : List Ipv4Net
  nodup : order.Nodup

namespace DistinctSideCidrs

def empty : DistinctSideCidrs :=
  ⟨[], .nil⟩

def push (d : DistinctSideCidrs) (c : Ipv4Net) : DistinctSideCidrs :=
  if h : c ∈ d.order then d else ⟨d.order ++ [c], List.nodup_append.mpr (by simp [d.nodup]; grind)⟩

def observe (d : DistinctSideCidrs) (cidrs : List Ipv4Net) : DistinctSideCidrs :=
  cidrs.foldl push d

def check (d : DistinctSideCidrs) (side : String) : Except String Unit :=
  let count := d.order.length
  if count > LPM_MAX_ENTRIES then
    .error (s!"policy's {side} side carries {count} distinct CIDRs, exceeding the " ++
      s!"{LPM_MAX_ENTRIES}-entry per-side eBPF LPM trie capacity " ++
      "(wiremesh_enforcer_common::LPM_MAX_ENTRIES)")
  else
    .ok ()

def Fits (d : DistinctSideCidrs) : Prop :=
  d.order.length ≤ LPM_MAX_ENTRIES

variable {d : DistinctSideCidrs} {l₁ l₂ : List Ipv4Net} {c : Ipv4Net}

theorem mem_push : n ∈ (d.push c).order ↔ n ∈ d.order ∨ n = c := by
  unfold push
  split
  case isTrue h => grind
  case isFalse  => simp

theorem push_of_mem (h : c ∈ d.order) : d.push c = d :=
  dif_pos h

theorem length_push_le : d.order.length ≤ (d.push c).order.length := by
  unfold push
  split
  case isTrue  => rfl
  case isFalse => simp

@[simp]
theorem observe_nil : d.observe [] = d :=
  rfl

@[simp]
theorem observe_append : d.observe (l₁ ++ l₂) = (d.observe l₁).observe l₂ :=
  List.foldl_append

@[simp]
theorem mem_observe : n ∈ (d.observe l).order ↔ n ∈ d.order ∨ n ∈ l := by
  induction l generalizing d
  case nil => simp
  case cons c l ih =>
    rw [observe, List.foldl_cons, ← observe, ih, mem_push, List.mem_cons]
    grind

-- A list that brings nothing new is not noticed.
theorem observe_of_subset (h : ∀ n ∈ l, n ∈ d.order) : d.observe l = d := by
  induction l
  case nil => rfl
  case cons c l ih =>
    rw [observe, List.foldl_cons, ← observe, push_of_mem <| h c List.mem_cons_self]
    exact ih fun n hn => h n <| List.mem_cons_of_mem _ hn

theorem Fits.of_observe (h : (d.observe l).Fits) : d.Fits := by
  induction l generalizing d
  case nil => exact h
  case cons c l ih => exact Nat.le_trans length_push_le (ih h)

theorem check_ok {u : Unit} : d.check side = .ok u ↔ d.Fits := by
  simp only [check, Fits]
  split
  case isTrue h  => simp; omega
  case isFalse h => simp; omega

theorem length_observe_empty (l : List Ipv4Net) : (empty.observe l).order.length = l.dedup.length := by
  apply List.Perm.length_eq
  rw [List.perm_ext_iff_of_nodup (empty.observe l).nodup (List.nodup_dedup l)]
  simp [empty]

theorem fits_empty : empty.Fits :=
  Nat.zero_le _

end DistinctSideCidrs

structure FlatRule where
  idx : Nat
  ruleId : String
  action : IrAction
  proto : IrProto
  srcCidrs : List Ipv4Net
  dstCidrs : List Ipv4Net
  portLo : Port
  portHi : Port
deriving DecidableEq

variable [Ipnet]

def parseCidrs (raw : List String) : Except String (List Ipv4Net) :=
  raw.mapM fun s =>
    match Ipnet.parse s with
    | .ok n    => .ok n
    | .error e => .error s!"wiremesh-policy handed flatten an invalid CIDR '{s}': {e}"

-- A rule with no list of its own on a side takes the one of its block.
def ruleCidrs (own : List String) (ofBlock : List Ipv4Net) : Except String (List Ipv4Net) :=
  if own.isEmpty then .ok ofBlock else parseCidrs own

def checkSide (block : IrBlock) (rule : IrRule) (side : String) (cidrs : List Ipv4Net) :
    Except String Unit :=
  if cidrs.isEmpty then
    .error ("block '" ++ block.fromName ++ "' → '" ++ block.toName ++ "' rule " ++ rule.ruleId ++
      s!": {side} side has no CIDRs (the rule declares no {side} of its own and the block's " ++
      s!"{side} CIDR list is empty) — such a rule could never match")
  else
    .ok ()

-- One entry per port range, or a single one for any port. Indices are given once the whole list is
-- known.
def explode (rule : IrRule) (srcCidrs dstCidrs : List Ipv4Net) : List FlatRule :=
  let entry (portLo portHi : Port) : FlatRule :=
    { idx := 0, ruleId := rule.ruleId, action := rule.action, proto := rule.proto,
      srcCidrs, dstCidrs, portLo, portHi }
  if rule.ports.isEmpty then [entry 0 0] else rule.ports.map fun (lo, hi) => entry lo hi

structure FlattenState where
  flat : List FlatRule
  srcDistinct : DistinctSideCidrs
  dstDistinct : DistinctSideCidrs

def FlattenState.init : FlattenState :=
  { flat := [], srcDistinct := .empty, dstDistinct := .empty }

def flattenRule (block : IrBlock) (blockSrc blockDst : List Ipv4Net) (st : FlattenState)
    (rule : IrRule) : Except String FlattenState := do
  let srcCidrs ← ruleCidrs rule.src blockSrc
  let dstCidrs ← ruleCidrs rule.dst blockDst
  checkSide block rule "src" srcCidrs
  checkSide block rule "dst" dstCidrs
  let srcDistinct := st.srcDistinct.observe srcCidrs
  srcDistinct.check "src"
  let dstDistinct := st.dstDistinct.observe dstCidrs
  dstDistinct.check "dst"
  return { flat := st.flat ++ explode rule srcCidrs dstCidrs, srcDistinct, dstDistinct }

def flattenBlock (st : FlattenState) (block : IrBlock) : Except String FlattenState := do
  let blockSrc ← parseCidrs block.srcCidrs
  let blockDst ← parseCidrs block.dstCidrs
  block.rules.foldlM (flattenRule block blockSrc blockDst) st

def expanded (ir : PolicyIR) : Nat :=
  (ir.blocks.flatMap (·.rules)).map (fun r => max r.ports.length 1) |>.sum

def renumber (flat : List FlatRule) : List FlatRule :=
  flat.mapIdx fun i f => { f with idx := i }

def flatten (ir : PolicyIR) : Except String (List FlatRule) :=
  let count := expanded ir
  if count > MAX_RULES then
    .error s!"policy flattens to {count} rules, exceeding the {MAX_RULES}-rule limit (MAX_RULES)"
  else do
    let st ← ir.blocks.foldlM flattenBlock .init
    return renumber st.flat

end Enforcer
