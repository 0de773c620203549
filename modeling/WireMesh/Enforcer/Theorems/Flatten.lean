import WireMesh.Lib.Checked
import WireMesh.Enforcer.Flatten

namespace Enforcer

open Policy

-- A rule with the CIDRs it is about on either side.
structure Row where
  rule : IrRule
  src : List Ipv4Net
  dst : List Ipv4Net

namespace Row

def flat (r : Row) : List FlatRule :=
  explode r.rule r.src r.dst

def Nonempty (r : Row) : Prop :=
  r.src ≠ [] ∧ r.dst ≠ []

theorem flat_ne_nil (r : Row) : r.flat ≠ [] := by
  simp only [flat, explode]
  split
  case isTrue    => simp
  case isFalse h => simpa using h

theorem length_flat (r : Row) : r.flat.length = max r.rule.ports.length 1 := by
  simp only [flat, explode]
  split
  case isTrue h  => simp [List.isEmpty_iff.mp h]
  case isFalse h =>
    have := List.length_pos_iff.mpr (by simpa using h)
    simp only [List.length_map]
    omega

theorem mem_flat {r : Row} (h : f ∈ r.flat) :
    f.ruleId = r.rule.ruleId ∧ f.action = r.rule.action ∧ f.proto = r.rule.proto ∧
    f.srcCidrs = r.src ∧ f.dstCidrs = r.dst := by
  simp only [flat, explode] at h
  split at h
  case isTrue  => simp only [List.mem_singleton] at h; simp [h]
  case isFalse => have ⟨_, _, h⟩ := List.mem_map.mp h; simp [← h]

end Row

namespace FlattenState

def add (st : FlattenState) (r : Row) : FlattenState where
  flat        := st.flat ++ r.flat
  srcDistinct := st.srcDistinct.observe r.src
  dstDistinct := st.dstDistinct.observe r.dst

def addAll (st : FlattenState) (rows : List Row) : FlattenState :=
  rows.foldl add st

def Fits (st : FlattenState) : Prop :=
  st.srcDistinct.Fits ∧ st.dstDistinct.Fits

theorem Fits.of_add {st : FlattenState} (h : (st.add r).Fits) : st.Fits :=
  ⟨.of_observe h.1, .of_observe h.2⟩

theorem addAll_eq (st : FlattenState) (rows : List Row) :
    st.addAll rows = {
      flat        := st.flat ++ rows.flatMap Row.flat
      srcDistinct := st.srcDistinct.observe (rows.flatMap Row.src)
      dstDistinct := st.dstDistinct.observe (rows.flatMap Row.dst)
    } := by
  induction rows generalizing st
  case nil => simp [addAll]
  case cons r rows ih =>
    rw [addAll, List.foldl_cons, ← addAll, ih]
    simp [add]

theorem Fits.of_addAll {st : FlattenState} (h : (st.addAll rows).Fits) : st.Fits := by
  rw [addAll_eq] at h
  exact ⟨.of_observe h.1, .of_observe h.2⟩

end FlattenState

theorem checkSide_ok {u : Unit} : checkSide block rule side cidrs = .ok u ↔ cidrs ≠ [] := by
  simp only [checkSide]
  split
  case isTrue h  => simpa using h
  case isFalse h => simpa using h

variable [Ipnet]

-- Name resolution alone: parsing and the fallback to the lists of a block, without any limit.
def resolveRule (blockSrc blockDst : List Ipv4Net) (rule : IrRule) : Except String Row := do
  let src ← ruleCidrs rule.src blockSrc
  let dst ← ruleCidrs rule.dst blockDst
  return { rule, src, dst }

def resolveBlock (block : IrBlock) : Except String (List Row) := do
  let blockSrc ← parseCidrs block.srcCidrs
  let blockDst ← parseCidrs block.dstCidrs
  block.rules.mapM (resolveRule blockSrc blockDst)

def resolve (ir : PolicyIR) : Except String (List Row) :=
  List.flatten <$> ir.blocks.mapM resolveBlock

variable {ir : PolicyIR} {flat : List FlatRule}

theorem flattenRule_ok (block : IrBlock) (blockSrc blockDst : List Ipv4Net) (st : FlattenState)
    (rule : IrRule) (st' : FlattenState) :
    flattenRule block blockSrc blockDst st rule = .ok st' ↔
      ∃ row, resolveRule blockSrc blockDst rule = .ok row ∧ row.Nonempty ∧ st' = st.add row ∧
        st'.Fits := by
  simp only [flattenRule, resolveRule, Checked.bind_ok, Checked.pure_ok, checkSide_ok,
    DistinctSideCidrs.check_ok, exists_const]
  constructor
  case mp =>
    rintro ⟨src, hs, dst, hd, hs', hd', hf₁, hf₂, rfl⟩
    exact ⟨⟨rule, src, dst⟩, ⟨src, hs, dst, hd, rfl⟩, ⟨hs', hd'⟩, rfl, hf₁, hf₂⟩
  case mpr =>
    rintro ⟨_, ⟨src, hs, dst, hd, rfl⟩, ⟨hs', hd'⟩, rfl, hf₁, hf₂⟩
    exact ⟨src, hs, dst, hd, hs', hd', hf₁, hf₂, rfl⟩

theorem flattenBlock_ok (st : FlattenState) (block : IrBlock) (st' : FlattenState) (hf : st.Fits) :
    flattenBlock st block = .ok st' ↔
      ∃ rows, resolveBlock block = .ok rows ∧ (∀ r ∈ rows, r.Nonempty) ∧ st' = st.addAll rows ∧
        st'.Fits := by
  simp only [flattenBlock, resolveBlock, Checked.bind_ok]
  have h bs bd := Checked.foldlM_ok (l := block.rules) (t := st')
    (fun st rule st' _ => flattenRule_ok block bs bd st rule st')
    (fun _ _ => FlattenState.Fits.of_add) hf
  simp only [h]
  constructor
  case mp =>
    intro ⟨bs, hs, bd, hd, rows, hm, h⟩
    exact ⟨rows, ⟨bs, hs, bd, hd, hm⟩, h⟩
  case mpr =>
    intro ⟨rows, ⟨bs, hs, bd, hd, hm⟩, h⟩
    exact ⟨bs, hs, bd, hd, rows, hm, h⟩

-- `flatten` accepts a policy exactly if it resolves, no resolved side is empty and the totals stay
-- within the limits. The checks it makes rule by rule on the way amount to those on the totals.
theorem flatten_ok :
    flatten ir = .ok flat ↔
      expanded ir ≤ MAX_RULES ∧ ∃ rows, resolve ir = .ok rows ∧ (∀ r ∈ rows, r.Nonempty) ∧
        (FlattenState.init.addAll rows).Fits ∧ flat = renumber (rows.flatMap Row.flat) := by
  have fits : FlattenState.init.Fits := ⟨DistinctSideCidrs.fits_empty, DistinctSideCidrs.fits_empty⟩
  have blocks (st' : FlattenState) := Checked.foldlM_ok (l := ir.blocks) (t := st')
    flattenBlock_ok (fun _ _ => FlattenState.Fits.of_addAll) fits
  have join (rss : List (List Row)) :
      rss.foldl FlattenState.addAll .init = FlattenState.init.addAll rss.flatten :=
    List.foldl_flatten.symm
  have flat_eq (rows : List Row) : (FlattenState.init.addAll rows).flat = rows.flatMap Row.flat := by
    simp [FlattenState.addAll_eq, FlattenState.init]
  simp only [flatten, resolve]
  split
  case isTrue hc => simp [Nat.not_le.mpr hc]
  case isFalse hc =>
    simp only [Nat.le_of_not_lt hc, true_and, Checked.bind_ok, Checked.pure_ok, Checked.map_ok,
      blocks, join]
    constructor
    case mp =>
      rintro ⟨_, ⟨rss, hm, hn, rfl, hf⟩, rfl⟩
      refine ⟨rss.flatten, ⟨rss, hm, rfl⟩, fun r hr => ?_, hf, by rw [flat_eq]⟩
      have ⟨rows, hrs, hr⟩ := List.mem_flatten.mp hr
      exact hn rows hrs r hr
    case mpr =>
      rintro ⟨_, ⟨rss, hm, rfl⟩, hn, hf, rfl⟩
      refine ⟨_, ⟨rss, hm, fun rows hrs r hr => ?_, rfl, hf⟩, by rw [flat_eq]⟩
      exact hn r <| List.mem_flatten.mpr ⟨rows, hrs, hr⟩

theorem resolveRule_rule (h : resolveRule blockSrc blockDst rule = .ok row) : row.rule = rule := by
  simp only [resolveRule, Checked.bind_ok, Checked.pure_ok] at h
  have ⟨_, _, _, _, h⟩ := h
  rw [← h]

theorem resolveBlock_rules (h : resolveBlock block = .ok rows) : rows.map Row.rule = block.rules := by
  simp only [resolveBlock, Checked.bind_ok] at h
  have ⟨bs, _, bd, _, h⟩ := h
  simpa using Checked.mapM_map (k := id) (fun _ _ => resolveRule_rule) h

theorem resolve_rules (h : resolve ir = .ok rows) :
    rows.map Row.rule = ir.blocks.flatMap (·.rules) := by
  have ⟨rss, hm, he⟩ := Checked.map_ok.mp h
  rw [← he, List.map_flatten, Checked.mapM_map (fun _ _ => resolveBlock_rules) hm, List.flatMap_def]

theorem expanded_eq (h : resolve ir = .ok rows) : expanded ir = (rows.flatMap Row.flat).length := by
  simp [expanded, ← resolve_rules h, List.length_flatMap, Row.length_flat, Function.comp_def]

-- Every entry comes from a resolved rule, and takes all but its ports and its index from it.
theorem flatten_row (h : flatten ir = .ok flat) (hf : f ∈ flat) :
    ∃ rows row, resolve ir = .ok rows ∧ row ∈ rows ∧ row.Nonempty ∧ f.ruleId = row.rule.ruleId ∧
      f.srcCidrs = row.src ∧ f.dstCidrs = row.dst := by
  have ⟨_, rows, hr, hn, _, he⟩ := flatten_ok.mp h
  subst he
  simp only [renumber, List.mem_mapIdx] at hf
  have ⟨i, hi, hf⟩ := hf
  have ⟨row, hrow, hm⟩ := List.mem_flatMap.mp <| List.getElem_mem hi
  have ⟨hid, _, _, hs, hd⟩ := Row.mem_flat hm
  rw [← hf]
  exact ⟨rows, row, hr, hrow, hn row hrow, hid, hs, hd⟩

theorem flatten_sides (h : flatten ir = .ok flat) (hf : f ∈ flat) :
    f.srcCidrs ≠ [] ∧ f.dstCidrs ≠ [] := by
  have ⟨_, row, _, _, ⟨hs, hd⟩, _, hsrc, hdst⟩ := flatten_row h hf
  exact ⟨hsrc ▸ hs, hdst ▸ hd⟩

theorem flatten_rule (h : flatten ir = .ok flat) (hf : f ∈ flat) :
    ∃ b ∈ ir.blocks, ∃ r ∈ b.rules, f.ruleId = r.ruleId := by
  have ⟨rows, row, hr, hrow, _, hid, _⟩ := flatten_row h hf
  have hm : row.rule ∈ ir.blocks.flatMap (·.rules) :=
    resolve_rules hr ▸ List.mem_map_of_mem hrow
  have ⟨b, hb, hm⟩ := List.mem_flatMap.mp hm
  exact ⟨b, hb, row.rule, hm, hid⟩

end Enforcer
