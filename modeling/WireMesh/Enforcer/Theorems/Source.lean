import WireMesh.Enforcer.Semantics
import WireMesh.Enforcer.Theorems.Flatten
import WireMesh.Policy.Theorems.Compile

-- From a policy document to the flattened list: compiled rules resolve to rows that say what the
-- written rules say.
namespace Enforcer

open Policy

-- The port ranges a rule explodes into.
def ranges (rule : IrRule) : List (Port × Port) :=
  if rule.ports.isEmpty then [(0, 0)] else rule.ports

def Row.entry (row : Row) (r : Port × Port) : FlatRule where
  idx      := 0
  ruleId   := row.rule.ruleId
  action   := row.rule.action
  proto    := row.rule.proto
  srcCidrs := row.src
  dstCidrs := row.dst
  portLo   := r.1
  portHi   := r.2

theorem Row.flat_eq (row : Row) : row.flat = (ranges row.rule).map row.entry := by
  simp only [flat, explode, ranges]
  split <;> rfl

def Row.selects (row : Row) (pkt : Packet) : Bool :=
  row.src.any (·.containsAddr pkt.src) && row.dst.any (·.containsAddr pkt.dst) &&
  protoSelects row.rule.proto pkt.proto &&
  (ranges row.rule).any fun r => portSelects r.1 r.2 pkt.dport

theorem Row.findSome_flat (row : Row) (pkt : Packet) :
    row.flat.findSome? (·.verdict pkt) = if row.selects pkt then some row.rule.action else none := by
  rw [flat_eq, selects]
  induction ranges row.rule
  case nil => simp
  case cons r rs ih =>
    rw [List.map_cons, List.findSome?_cons, ih, List.any_cons, FlatRule.verdict]
    have hs : (row.entry r).selects pkt =
      (row.src.any (·.containsAddr pkt.src) && row.dst.any (·.containsAddr pkt.dst) &&
        protoSelects row.rule.proto pkt.proto && portSelects r.1 r.2 pkt.dport) := rfl
    have ha : (row.entry r).action = row.rule.action := rfl
    simp only [hs, ha, Bool.and_eq_true, Bool.or_eq_true]
    grind

theorem any_ranges {ports : List PortSpec} {rs : List (Port × Port)}
    (h : List.Forall₂ (fun p (r : Port × Port) => r.1 ≠ 0 ∧
      ∀ q : Port, (decide (r.1 ≤ q) && decide (q ≤ r.2)) = p.contains q) ports rs) (q : Port) :
    (if rs.isEmpty then [(0, 0)] else rs).any (fun r => portSelects r.1 r.2 q) =
      (ports.isEmpty || ports.any (·.contains q)) := by
  have any : rs.any (fun r => portSelects r.1 r.2 q) = ports.any (·.contains q) := by
    induction h
    case nil => rfl
    case cons hr _ ih =>
      rw [List.any_cons, List.any_cons, ih]
      simp only [portSelects, hr.1, false_and, decide_false, Bool.false_or, hr.2]
  cases h
  case nil  => simp [portSelects]
  case cons => simpa using any

theorem limitErrors_nil {blocks : List IrBlock} :
    limitErrors blocks = [] ↔ flattenedCount blocks ≤ Policy.MAX_RULES ∧
      distinctCount effectiveSrc blocks ≤ MAX_LPM_CIDRS_PER_SIDE ∧
      distinctCount effectiveDst blocks ≤ MAX_LPM_CIDRS_PER_SIDE := by
  have guard {c n : Nat} {e : CompileError} : (if c > n then [e] else []) = [] ↔ c ≤ n := by
    split
    case isTrue h  => simp; omega
    case isFalse h => simp; omega
  simp only [limitErrors, maxRulesErrors, lpmErrors, List.append_eq_nil_iff, guard, and_assoc]

theorem findSome_renumber (flat : List FlatRule) (pkt : Packet) :
    (renumber flat).findSome? (·.verdict pkt) = flat.findSome? (·.verdict pkt) := by
  have h (g : Nat → FlatRule → FlatRule) (hg : ∀ i f, (g i f).verdict pkt = f.verdict pkt) :
      (flat.mapIdx g).findSome? (·.verdict pkt) = flat.findSome? (·.verdict pkt) := by
    induction flat generalizing g
    case nil => rfl
    case cons f flat ih =>
      rw [List.mapIdx_cons, List.findSome?_cons, List.findSome?_cons, hg, ih _ fun i => hg (i + 1)]
  exact h _ fun _ _ => rfl

-- Blocks of a policy and the rows they resolve to: together they keep the texts of either side and
-- the verdicts of `say`.
structure Resolved (blocks : List IrBlock) (rows : List Row) (say : Packet → Option IrAction) :
    Prop where
  nonempty : ∀ row ∈ rows, row.Nonempty
  src      : blocks.flatMap (fun b => b.rules.flatMap (effectiveSrc b)) =
    (rows.flatMap Row.src).map Ipv4Net.display
  dst      : blocks.flatMap (fun b => b.rules.flatMap (effectiveDst b)) =
    (rows.flatMap Row.dst).map Ipv4Net.display
  verdict  : ∀ pkt, (rows.flatMap Row.flat).findSome? (·.verdict pkt) = say pkt

variable [Ipnet]

theorem parseCidrs_display (nets : List Ipv4Net) :
    parseCidrs (nets.map Ipv4Net.display) = .ok nets := by
  induction nets
  case nil => rfl
  case cons n nets ih =>
    rw [parseCidrs] at ih ⊢
    rw [List.map_cons, List.mapM_cons, ih, Ipnet.parse_display]
    rfl

theorem compileProto_ok {body : RuleBody} (h : body.Valid) :
    ∃ q, compileProto body.proto = .ok q ∧ ∀ n, protoSelects q n = protoTextSelects body.proto n := by
  obtain h | h | h | h := h.proto
  all_goals rw [h]
  case inl             => exact ⟨.any, rfl, fun _ => rfl⟩
  case inr.inl         => exact ⟨.tcp, rfl, fun _ => rfl⟩
  case inr.inr.inl     => exact ⟨.udp, rfl, fun _ => rfl⟩
  case inr.inr.inr     => exact ⟨.icmp, rfl, fun _ => rfl⟩

-- The addresses that a written side selects, and those of the networks it resolves to.
theorem sideSelects_eq {written : List String} {segment : SegmentDef} {nets : List Ipv4Net}
    (h : List.Forall₂ (fun s n => Ipnet.parse s = .ok n) written nets) (a : Ipv4Addr) :
    (if nets.isEmpty then segment.cidrs.mergeSort cidrLe else nets).any (·.containsAddr a) =
      sideSelects written segment a := by
  rw [sideSelects, any_textContains h]
  cases h
  case cons => rfl
  case nil =>
    rw [Bool.eq_iff_iff]
    simp [List.any_eq_true, List.mem_mergeSort]

theorem ruleCidrs_display (nets ofBlock : List Ipv4Net) :
    ruleCidrs (nets.map Ipv4Net.display) ofBlock = .ok (if nets.isEmpty then ofBlock else nets) := by
  cases nets
  case nil  => rfl
  case cons => exact parseCidrs_display _

-- Counting the displayed texts of a side is counting its networks.
theorem distinctCount_eq {blocks : List IrBlock} {side : IrBlock → IrRule → List String}
    {nets : List Ipv4Net}
    (h : blocks.flatMap (fun b => b.rules.flatMap (side b)) = nets.map Ipv4Net.display) :
    distinctCount side blocks = (DistinctSideCidrs.empty.observe nets).order.length := by
  rw [distinctCount, h, List.dedup_map_of_injective Ipv4Net.display_injective, List.length_map,
    DistinctSideCidrs.length_observe_empty]

-- The limits that the compiler checks are those that `flatten` enforces.
theorem flatten_iff_limitErrors {ir : PolicyIR} (hr : resolve ir = .ok rows)
    (h : Resolved ir.blocks rows say) :
    (∃ flat, flatten ir = .ok flat) ↔ limitErrors ir.blocks = [] := by
  have hf : (FlattenState.init.addAll rows).Fits ↔
      distinctCount effectiveSrc ir.blocks ≤ MAX_LPM_CIDRS_PER_SIDE ∧
      distinctCount effectiveDst ir.blocks ≤ MAX_LPM_CIDRS_PER_SIDE := by
    rw [distinctCount_eq h.src, distinctCount_eq h.dst, FlattenState.addAll_eq]
    rfl
  rw [limitErrors_nil, ← hf]
  constructor
  case mp =>
    intro ⟨flat, hok⟩
    have ⟨hl, rows', hr', _, hfits, _⟩ := flatten_ok.mp hok
    cases hr.symm.trans hr'
    exact ⟨hl, hfits⟩
  case mpr =>
    intro ⟨hl, hfits⟩
    exact ⟨_, flatten_ok.mpr ⟨hl, rows, hr, h.nonempty, hfits, rfl⟩⟩

theorem verdict_flatten {ir : PolicyIR} (hr : resolve ir = .ok rows) (h : Resolved ir.blocks rows say)
    (hf : flatten ir = .ok flat) (pkt : Packet) : verdict flat pkt = (say pkt).getD .deny := by
  have ⟨_, rows', hr', _, _, he⟩ := flatten_ok.mp hf
  cases hr.symm.trans hr'
  rw [he, verdict_eq, findSome_renumber, h.verdict]

variable [Sha256]

-- A compiled rule resolves to a row that says what the written rule says. The texts it carries are
-- the networks of the row as they are displayed.
theorem compileRule_row (hv : rule.Valid) (block : BlockSrc) {fromSeg toSeg : SegmentDef}
    (hf : fromSeg.cidrs ≠ []) (ht : toSeg.cidrs ≠ []) :
    ∃ r row, compileRule block rule = .ok r ∧
      resolveRule (fromSeg.cidrs.mergeSort cidrLe) (toSeg.cidrs.mergeSort cidrLe) r = .ok row ∧
      row.Nonempty ∧
      (if r.src.isEmpty then sortedCidrStrings fromSeg.cidrs else r.src) =
        row.src.map Ipv4Net.display ∧
      (if r.dst.isEmpty then sortedCidrStrings toSeg.cidrs else r.dst) =
        row.dst.map Ipv4Net.display ∧
      ∀ pkt, row.flat.findSome? (·.verdict pkt) = rule.verdict fromSeg toSeg pkt := by
  have ⟨action, body, ha, hb⟩ := hv
  have ⟨q, hq, hproto⟩ := compileProto_ok hb
  have ⟨src, hsrc, hs⟩ := normalizedCidrStrings_ok hb.src
  have ⟨dst, hdst, hd⟩ := normalizedCidrStrings_ok hb.dst
  have ⟨ports, hports, hp⟩ := Checked.mapM_exists (l := body.ports) (f := normalizePort)
    (R := fun p (r : Port × Port) => r.1 ≠ 0 ∧
      ∀ q : Port, (decide (r.1 ≤ q) && decide (q ≤ r.2)) = p.contains q)
    (fun p h => have ⟨lo, hi, hn, hr⟩ := normalizePort_ok (hb.ports p h); ⟨(lo, hi), hn, hr⟩)
  have hne {nets own : List Ipv4Net} (h : own ≠ []) :
      (if nets.isEmpty then own.mergeSort cidrLe else nets) ≠ [] := by
    split
    case isTrue    => simpa [← List.length_eq_zero_iff] using h
    case isFalse h => simpa using h
  have texts (nets own : List Ipv4Net) :
      (if (nets.map Ipv4Net.display).isEmpty then sortedCidrStrings own else nets.map Ipv4Net.display) =
        (if nets.isEmpty then own.mergeSort cidrLe else nets).map Ipv4Net.display := by
    cases nets <;> rfl
  let r : IrRule :=
    { ruleId := "", action, proto := q, src := src.map Ipv4Net.display,
      dst := dst.map Ipv4Net.display, ports }
  let row : Row := {
    rule := { r with ruleId := ruleId block.fromName block.toName r }
    src  := if src.isEmpty then fromSeg.cidrs.mergeSort cidrLe else src
    dst  := if dst.isEmpty then toSeg.cidrs.mergeSort cidrLe else dst
  }
  refine ⟨row.rule, row, ?_, ?_, ⟨hne hf, hne ht⟩, texts _ _, texts _ _, fun pkt => ?_⟩
  case refine_1 =>
    simp only [compileRule, ha, hq, hsrc, hdst, hports, Checked.ok_bind]
    rfl
  case refine_2 =>
    simp only [resolveRule, row, r, ruleCidrs_display, Checked.ok_bind]
    rfl
  case refine_3 =>
    have hsel : row.selects pkt = body.selects fromSeg toSeg pkt := by
      simp only [Row.selects, RuleBody.selects, row, r, sideSelects_eq hs, sideSelects_eq hd, hproto,
        ranges, any_ranges hp]
    rw [Row.findSome_flat, hsel]
    simp only [ruleAction] at ha
    split at ha
    all_goals simp_all [RuleSrc.verdict, row, r]

theorem compileRules_rows (block : BlockSrc) {fromSeg toSeg : SegmentDef}
    (hf : fromSeg.cidrs ≠ []) (ht : toSeg.cidrs ≠ []) {rules : List RuleSrc}
    (hv : ∀ rule ∈ rules, rule.Valid) :
    ∃ rs rows, rules.mapM (compileRule block) = .ok rs ∧
      rs.mapM (resolveRule (fromSeg.cidrs.mergeSort cidrLe) (toSeg.cidrs.mergeSort cidrLe)) =
        .ok rows ∧
      (∀ row ∈ rows, row.Nonempty) ∧
      rs.flatMap (fun r => if r.src.isEmpty then sortedCidrStrings fromSeg.cidrs else r.src) =
        (rows.flatMap Row.src).map Ipv4Net.display ∧
      rs.flatMap (fun r => if r.dst.isEmpty then sortedCidrStrings toSeg.cidrs else r.dst) =
        (rows.flatMap Row.dst).map Ipv4Net.display ∧
      ∀ pkt, (rows.flatMap Row.flat).findSome? (·.verdict pkt) =
        rules.findSome? (·.verdict fromSeg toSeg pkt) := by
  induction rules
  case nil => exact ⟨[], [], rfl, rfl, by simp, rfl, rfl, fun _ => rfl⟩
  case cons rule rules ih =>
    have ⟨hr, hrs⟩ := List.forall_mem_cons.mp hv
    have ⟨r, row, hc, hr, hn, hsrc, hdst, hsay⟩ := compileRule_row hr block hf ht
    have ⟨rs, rows, hcs, hrs, hns, hsrcs, hdsts, hsays⟩ := ih hrs
    refine ⟨r :: rs, row :: rows, ?_, ?_, ?_, ?_, ?_, fun pkt => ?_⟩
    case refine_1 => rw [List.mapM_cons, hc, hcs]; rfl
    case refine_2 => rw [List.mapM_cons, hr, hrs]; rfl
    case refine_3 => exact List.forall_mem_cons.mpr ⟨hn, hns⟩
    case refine_4 => rw [List.flatMap_cons, hsrc, hsrcs, List.flatMap_cons, List.map_append]
    case refine_5 => rw [List.flatMap_cons, hdst, hdsts, List.flatMap_cons, List.map_append]
    case refine_6 =>
      rw [List.flatMap_cons, List.findSome?_append, hsay, hsays, List.findSome?_cons]
      cases rule.verdict fromSeg toSeg pkt <;> rfl

theorem compileBlock_rows (hv : block.Valid segments) :
    ∃ b rows, compileBlock segments block = .ok b ∧ resolveBlock b = .ok rows ∧
      Resolved [b] rows (block.verdict segments) := by
  have ⟨fromSeg, hff, hf⟩ := hv.fromSeg
  have ⟨toSeg, htf, ht⟩ := hv.toSeg
  have ⟨rs, rows, hc, hr, hn, hs, hd, hsay⟩ := compileRules_rows block hf ht hv.rules
  let b : IrBlock := {
    fromName := block.fromName, toName := block.toName, rules := rs
    srcCidrs := sortedCidrStrings fromSeg.cidrs, dstCidrs := sortedCidrStrings toSeg.cidrs
  }
  refine ⟨b, rows, ?_, ?_, hn, ?_, ?_, fun pkt => ?_⟩
  case refine_1 => simp only [compileBlock, hff, htf, hc, Checked.ok_bind]; rfl
  case refine_2 =>
    simp only [resolveBlock, b, sortedCidrStrings, parseCidrs_display, Checked.ok_bind, hr]
  case refine_3 => rw [List.flatMap_singleton]; exact hs
  case refine_4 => rw [List.flatMap_singleton]; exact hd
  case refine_5 => simp only [hsay, BlockSrc.verdict, hff, htf]

theorem compileBlocks_rows [IpnetV6] (src : PolicySource segments) (version : Nat) :
    ∃ blocks rows, compileBlocks src = .ok blocks ∧
      resolve { schema := 1, version, blocks } = .ok rows ∧
      Resolved blocks rows (fun pkt => src.doc.policy.findSome? (·.verdict segments pkt)) := by
  have hv := src.valid_blocks
  simp only [compileBlocks, resolve, Checked.map_ok]
  generalize src.doc.policy = policy at hv
  induction policy
  case nil => exact ⟨[], [], rfl, ⟨[], rfl, rfl⟩, by simp, rfl, rfl, fun _ => rfl⟩
  case cons block policy ih =>
    obtain ⟨hb, hbs⟩ := List.forall_mem_cons.mp hv
    obtain ⟨b, rows, hc, hr, h⟩ := compileBlock_rows hb
    obtain ⟨blocks, rows', hcs, ⟨rss, hrs, he⟩, h'⟩ := ih hbs
    refine ⟨b :: blocks, rows ++ rows', ?_, ⟨rows :: rss, ?_, by rw [List.flatten_cons, he]⟩, ?_⟩
    case refine_1 => rw [List.mapM_cons, hc, hcs]; rfl
    case refine_2 => rw [List.mapM_cons, hr, hrs]; rfl
    case refine_3 =>
      constructor
      case nonempty => exact List.forall_mem_append.mpr ⟨h.nonempty, h'.nonempty⟩
      case src =>
        have := h.src
        rw [List.flatMap_singleton] at this
        rw [List.flatMap_cons, this, h'.src, List.flatMap_append, List.map_append]
      case dst =>
        have := h.dst
        rw [List.flatMap_singleton] at this
        rw [List.flatMap_cons, this, h'.dst, List.flatMap_append, List.map_append]
      case verdict =>
        intro pkt
        rw [List.flatMap_append, List.findSome?_append, h.verdict, h'.verdict, List.findSome?_cons]
        cases block.verdict segments pkt <;> rfl

variable [IpnetV6]

-- A validated document compiles unless it is over a limit, and then the first match of the flattened
-- policy is the verdict of the document on every packet.
theorem flatten_compile_verdict (src : PolicySource segments) (version : Nat) :
    ∃ blocks, compileBlocks src = .ok blocks ∧
      (limitErrors blocks ≠ [] → compile src version = .error (.errors (limitErrors blocks))) ∧
      (limitErrors blocks = [] →
        ∃ ir flat, compile src version = .ok ir ∧ flatten ir = .ok flat ∧
          ∀ pkt, verdict flat pkt = src.doc.verdict segments pkt) := by
  have ⟨blocks, rows, hc, hr, h⟩ := compileBlocks_rows src version
  refine ⟨blocks, hc, fun hl => ?_, fun hl => ?_⟩
  case refine_1 =>
    simp only [compile, hc, Checked.ok_bind]
    rfl
  case refine_2 =>
    have ⟨flat, hf⟩ := (flatten_iff_limitErrors hr h).mpr hl
    refine ⟨_, flat, ?_, hf, verdict_flatten hr h hf⟩
    simp only [compile, hc, Checked.ok_bind, hl]
    rfl

end Enforcer
