import WireMesh.Lib.Checked
import WireMesh.Policy.Theorems.Validate

-- What a document takes from the segment table: the segments that its blocks name.
namespace Policy

open Checked

-- Two tables have the same segments under the names of a document.
def SameSegments (doc : PolicyDoc) (segments segments' : List SegmentDef) : Prop :=
  ∀ block ∈ doc.policy,
    findSegment segments block.fromName = findSegment segments' block.fromName ∧
    findSegment segments block.toName = findSegment segments' block.toName

variable [Ipnet] [IpnetV6] {segments segments' : List SegmentDef}

theorem validate_go_congr {blocks : List BlockSrc}
    (h : SameSegments ⟨blocks⟩ segments segments') :
    validate.go segments i seen blocks = validate.go segments' i seen blocks := by
  induction blocks generalizing i seen
  case nil => rfl
  case cons block blocks ih =>
    have ⟨hb, hbs⟩ := List.forall_mem_cons.mp h
    have he : validateBlock segments i seen block = validateBlock segments' i seen block := by
      simp only [validateBlock, hb]
    simp only [validate.go, he, ih hbs]

theorem parsePolicy_ok {fromYaml : String → Except String PolicyDoc} {src : PolicySource segments} :
    parsePolicy fromYaml yaml segments = .ok src ↔ fromYaml yaml = .ok src.doc := by
  rw [parsePolicy]
  cases fromYaml yaml
  case error => simp
  case ok doc =>
    dsimp only
    split
    case h_1 hv =>
      have ⟨doc', hv'⟩ := src
      simp
    case h_2 hv hn =>
      refine ⟨nofun, fun he => ?_⟩
      cases he
      exact absurd src.valid (by simpa using hn)

variable [Sha256]

omit [IpnetV6] in
theorem compileBlock_congr
    (h : findSegment segments block.fromName = findSegment segments' block.fromName ∧
      findSegment segments block.toName = findSegment segments' block.toName) :
    compileBlock segments block = compileBlock segments' block := by
  simp only [compileBlock, h]

-- A document that has been accepted with one table is accepted with the other, and compiles to the
-- same.
theorem compile_congr (src : PolicySource segments) (h : SameSegments src.doc segments segments') :
    ∃ src' : PolicySource segments', src'.doc = src.doc ∧
      ∀ version, compile src' version = compile src version := by
  have hv : validate src.doc segments' = [] := (validate_go_congr h).symm.trans src.valid
  have hb : compileBlocks ⟨src.doc, hv⟩ = compileBlocks src :=
    (mapM_congr fun block hm => compileBlock_congr (h block hm)).symm
  exact ⟨⟨src.doc, hv⟩, rfl, fun version => by rw [compile, hb, compile]⟩

theorem compile_ok {src : PolicySource segments} :
    compile src version = .ok ir ↔
      ∃ blocks, compileBlocks src = .ok blocks ∧ limitErrors blocks = [] ∧
        ir = { schema := 1, version, blocks } := by
  simp only [compile, bind_ok]
  refine exists_congr fun blocks => and_congr_right fun _ => ?_
  cases limitErrors blocks
  case nil  => simp only [pure_ok, true_and]; exact eq_comm
  case cons => simp [throw, throwThe, MonadExceptOf.throw]

-- What a block takes over from the table and from the document.
structure BlockSrc.Resolved (segments : List SegmentDef) (block : BlockSrc) (ir : IrBlock) :
    Prop where
  names : ir.fromName = block.fromName ∧ ir.toName = block.toName
  src : ∃ seg, findSegment segments block.fromName = some seg ∧
    ir.srcCidrs = sortedCidrStrings seg.cidrs
  dst : ∃ seg, findSegment segments block.toName = some seg ∧
    ir.dstCidrs = sortedCidrStrings seg.cidrs
  rules : block.rules.mapM (compileRule block) = .ok ir.rules

omit [IpnetV6] in
theorem compileBlock_ok (h : compileBlock segments block = .ok ir) : block.Resolved segments ir := by
  rw [compileBlock] at h
  split at h
  case h_1 => cases h
  case h_2 => cases h
  case h_3 f t hf ht =>
    have ⟨rules, hr, h⟩ := bind_ok.mp h
    cases h
    exact ⟨⟨rfl, rfl⟩, ⟨f, hf, rfl⟩, ⟨t, ht, rfl⟩, hr⟩

omit [Ipnet] [IpnetV6] [Sha256] in
theorem perm_of_sortedCidrStrings {nets nets' : List Ipv4Net}
    (h : sortedCidrStrings nets = sortedCidrStrings nets') : nets.Perm nets' := by
  have h := List.map_injective_iff.mpr Ipv4Net.display_injective h
  have hp := List.mergeSort_perm nets cidrLe
  rw [h] at hp
  exact hp.symm.trans (List.mergeSort_perm nets' cidrLe)

section Within

-- The network that a text displays lies in one of the segment's CIDRs.
def SegmentDef.Owns (seg : SegmentDef) (text : String) : Prop :=
  ∃ n : Ipv4Net, text = n.display ∧ ∃ m ∈ seg.cidrs, m.contains n

omit [Sha256] in
theorem validateCidrs_owned {field : String} (h : validateCidrs b r ctx field texts (some seg) = [])
    (hn : normalizedCidrStrings texts = .ok normal) (hc : c ∈ normal) : seg.Owns c := by
  obtain ⟨raw, hr, hp⟩ := mapM_mem hn hc
  have hv := List.flatMap_eq_nil_iff.mp h raw hr
  split at hp
  case h_2 => cases hp
  case h_1 n hn =>
    cases hp
    simp only [validateCidr, hn] at hv
    split at hv
    case isFalse => cases hv
    case isTrue ho =>
      obtain ⟨m, hm, ho⟩ := List.any_eq_true.mp ho
      exact ⟨n, rfl, m, hm, ho⟩

omit [Ipnet] [IpnetV6] [Sha256] in
theorem SegmentDef.owns_sorted {seg : SegmentDef} (hc : c ∈ sortedCidrStrings seg.cidrs) :
    seg.Owns c := by
  have ⟨n, hn, he⟩ := List.mem_map.mp hc
  exact ⟨n, he.symm, n, List.mem_mergeSort.mp hn, by simp [Ipv4Net.contains]⟩

theorem compileRule_owned (hr : compileRule block rule = .ok r)
    (hv : validateRule b i ctx (some fromSeg) (some toSeg) rule = []) :
    (∀ c ∈ r.src, fromSeg.Owns c) ∧ ∀ c ∈ r.dst, toSeg.Owns c := by
  simp only [compileRule, bind_ok, pure_ok] at hr
  have ⟨⟨action, body⟩, ha, _, _, src, hsrc, dst, hdst, _, _, he⟩ := hr
  have owned (hv : validateCidrs b i ctx "src" body.src (some fromSeg) ++
      validateCidrs b i ctx "dst" body.dst (some toSeg) ++ validatePorts b i ctx body = []) :
      (∀ c ∈ src, fromSeg.Owns c) ∧ ∀ c ∈ dst, toSeg.Owns c := by
    simp only [List.append_eq_nil_iff] at hv
    exact ⟨fun _ => validateCidrs_owned hv.1.1 hsrc, fun _ => validateCidrs_owned hv.1.2 hdst⟩
  subst he
  simp only [ruleAction] at ha
  simp only [validateRule] at hv
  split at ha
  case h_1 h₁ h₂ =>
    cases ha
    exact owned (by simpa [h₁, h₂] using hv)
  case h_2 h₁ h₂ =>
    cases ha
    exact owned (by simpa [h₁, h₂] using hv)
  case h_3 => cases ha

omit [Sha256] in
theorem validate_go_block (h : validate.go segments i seen blocks = []) (hb : block ∈ blocks) :
    ∃ i seen, (validateBlock segments i seen block).1 = [] := by
  induction blocks generalizing i seen
  case nil => cases hb
  case cons block blocks ih =>
    simp only [validate.go, List.append_eq_nil_iff] at h
    cases List.mem_cons.mp hb
    case inl hb => exact ⟨i, seen, hb ▸ h.1⟩
    case inr hb => exact ih h.2 hb

-- All that a compiled rule is about belongs to the segments that its block names.
theorem compile_owned {src : PolicySource segments} (h : compile src version = .ok ir)
    (hb : block ∈ ir.blocks) :
    ∃ fromSeg toSeg, findSegment segments block.fromName = some fromSeg ∧
      findSegment segments block.toName = some toSeg ∧
      ∀ rule ∈ block.rules, (∀ c ∈ effectiveSrc block rule, fromSeg.Owns c) ∧
        ∀ c ∈ effectiveDst block rule, toSeg.Owns c := by
  obtain ⟨blocks, hbs, _, he⟩ := compile_ok.mp h
  subst he
  obtain ⟨written, hw, hc⟩ := mapM_mem hbs hb
  obtain ⟨⟨hf, ht⟩, ⟨f, hfs, hsrc⟩, ⟨t, hts, hdst⟩, hrules⟩ := compileBlock_ok hc
  obtain ⟨i, seen, hv⟩ := validate_go_block src.valid hw
  simp only [validateBlock, List.append_eq_nil_iff, List.flatMap_eq_nil_iff, hfs, hts] at hv
  refine ⟨f, t, hf ▸ hfs, ht ▸ hts, fun rule hr => ?_⟩
  obtain ⟨raw, hm, hcr⟩ := mapM_mem hrules hr
  obtain ⟨k, hk⟩ := List.mem_iff_getElem?.mp hm
  have own := compileRule_owned hcr (hv.2 (raw, k) (List.mk_mem_zipIdx_iff_getElem?.mpr hk))
  refine ⟨fun c hc => ?_, fun c hc => ?_⟩
  case refine_1 =>
    rw [effectiveSrc] at hc
    split at hc
    case isTrue  => exact SegmentDef.owns_sorted (hsrc ▸ hc)
    case isFalse => exact own.1 c hc
  case refine_2 =>
    rw [effectiveDst] at hc
    split at hc
    case isTrue  => exact SegmentDef.owns_sorted (hdst ▸ hc)
    case isFalse => exact own.2 c hc

end Within

end Policy
