import Mathlib
import WireMesh.Policy.Theorems.Compile

-- What the identifier of a rule says about the rule.
namespace Policy

theorem not_mem_display {c : Char} (hd : c.isDigit = false) (hs : c ≠ '/') (hp : c ≠ '.')
    (n : Ipv4Net) : c ∉ n.display.toList := by
  simp [Ipv4Net.toList_display, Text.ipv4Chars, Text.not_mem_toDigits hd, hs, hp]

theorem display_ne_nil (n : Ipv4Net) : n.display.toList ≠ [] := by
  simp [Ipv4Net.toList_display]

theorem toList_portRangeText (p : Port × Port) :
    (portRangeText p).toList = Nat.toDigits 10 p.1.toNat ++ '-' :: Nat.toDigits 10 p.2.toNat := by
  simp [portRangeText, toString]

theorem portRangeText_injective : Function.Injective portRangeText := by
  intro p q h
  have h := congrArg String.toList h
  rw [toList_portRangeText, toList_portRangeText] at h
  have hd {n} : '-' ∉ Nat.toDigits 10 n := Text.not_mem_toDigits rfl
  have ⟨hl, hr⟩ := Text.append_sep_inj hd hd h
  have digits {n m : Nat} (h : Nat.toDigits 10 n = Nat.toDigits 10 m) : n = m := by
    have hp := congrArg Text.parseDigits h
    simpa only [Text.parseDigits_toDigits, Option.some.injEq] using hp
  exact Prod.ext (BitVec.eq_of_toNat_eq <| digits hl) (BitVec.eq_of_toNat_eq <| digits hr)

-- A list of parts of a rule as it stands in the text that is hashed. The text has neither the bar
-- that divides the fields nor, within a part, the comma that divides the parts.
structure Joins (text : α → String) : Prop where
  ne_nil : ∀ a, (text a).toList ≠ []
  comma  : ∀ a, ',' ∉ (text a).toList
  bar    : ∀ a, '|' ∉ (text a).toList
  inj    : Function.Injective text

theorem Joins.display [Ipnet] : Joins Ipv4Net.display where
  ne_nil := display_ne_nil
  comma  := not_mem_display rfl (by decide) (by decide)
  bar    := not_mem_display rfl (by decide) (by decide)
  inj    := Ipv4Net.display_injective

theorem Joins.portRangeText : Joins portRangeText where
  ne_nil p := by simp [toList_portRangeText]
  comma p  := by simp [toList_portRangeText, Text.not_mem_toDigits (c := ',') rfl]
  bar p    := by simp [toList_portRangeText, Text.not_mem_toDigits (c := '|') rfl]
  inj      := portRangeText_injective

theorem Joins.bar_joined {text : α → String} (h : Joins text) (l : List α) :
    '|' ∉ (",".intercalate (l.map text)).toList := by
  rw [String.toList_intercalate]
  refine Text.not_mem_intercalate (by decide) fun w hw => ?_
  simp only [List.mem_map, exists_exists_and_eq_and] at hw
  have ⟨a, _, hw⟩ := hw
  exact hw ▸ h.bar a

theorem Joins.joined_inj {text : α → String} (h : Joins text) {l l' : List α}
    (he : ",".intercalate (l.map text) = ",".intercalate (l'.map text)) : l = l' := by
  have words (l : List α) : ∀ w ∈ (l.map text).map String.toList, w ≠ [] ∧ ',' ∉ w := by
    simp only [List.map_map, List.forall_mem_map]
    exact fun a _ => ⟨h.ne_nil a, h.comma a⟩
  have he := congrArg String.toList he
  rw [String.toList_intercalate, String.toList_intercalate] at he
  have he := Text.intercalate_inj (words l) (words l') he
  rw [List.map_map, List.map_map] at he
  have inj : Function.Injective (String.toList ∘ text) :=
    fun a b h' => h.inj <| String.toList_inj.mp h'
  exact List.map_injective_iff.mpr inj he

-- The fields of a rule that its identifier is made from, with networks as the texts that display
-- them.
structure IrRule.Normal (rule : IrRule) : Prop where
  src : ∃ nets : List Ipv4Net, rule.src = nets.map Ipv4Net.display
  dst : ∃ nets : List Ipv4Net, rule.dst = nets.map Ipv4Net.display

structure IrRule.SameFields (rule rule' : IrRule) : Prop where
  action : rule.action = rule'.action
  proto  : rule.proto = rule'.proto
  src    : rule.src = rule'.src
  dst    : rule.dst = rule'.dst
  ports  : rule.ports = rule'.ports

-- One pair of names comes from the other when a part that a bar ends moves from the one name to the
-- other.
def Shifts (fromName toName fromName' toName' : String) : Prop :=
  ∃ part, fromName = fromName' ++ "|" ++ part ∧ toName' = part ++ "|" ++ toName

def Ambiguous (fromName toName fromName' toName' : String) : Prop :=
  Shifts fromName toName fromName' toName' ∨ Shifts fromName' toName' fromName toName

theorem Shifts.text_eq (h : Shifts f t f' t') : f ++ "|" ++ t = f' ++ "|" ++ t' := by
  have ⟨part, hf, ht⟩ := h
  simp only [hf, ht, String.append_assoc]

theorem Shifts.from_ne (h : Shifts f t f' t') : f ≠ f' := by
  have ⟨part, hf, _⟩ := h
  intro he
  have hl := congrArg String.length (he ▸ hf)
  simp only [String.length_append] at hl
  have : "|".length = 1 := rfl
  omega

theorem Ambiguous.text_eq (h : Ambiguous f t f' t') : f ++ "|" ++ t = f' ++ "|" ++ t' :=
  h.elim Shifts.text_eq (Shifts.text_eq · |>.symm)

theorem Ambiguous.from_ne (h : Ambiguous f t f' t') : f ≠ f' :=
  h.elim Shifts.from_ne (Shifts.from_ne · |>.symm)

theorem shifts_of_extends {f t f' t' : String} (hf : f.toList = f'.toList ++ e)
    (ht : '|' :: t'.toList = e ++ '|' :: t.toList) : f = f' ∧ t = t' ∨ Shifts f t f' t' := by
  cases e
  case nil =>
    rw [List.append_nil, String.toList_inj] at hf
    rw [List.nil_append, List.cons.injEq, String.toList_inj] at ht
    exact .inl ⟨hf, ht.2.symm⟩
  case cons c part =>
    simp only [List.cons_append, List.cons.injEq] at ht
    obtain ⟨rfl, ht⟩ := ht
    refine .inr ⟨String.ofList part, ?_, ?_⟩
    all_goals
      rw [← String.toList_inj]
      simp [hf, ht]

theorem names_eq_or_ambiguous (h : f ++ "|" ++ t = f' ++ "|" ++ t') :
    f = f' ∧ t = t' ∨ Ambiguous f t f' t' := by
  have h := congrArg String.toList h
  simp only [String.toList_append, List.append_assoc] at h
  obtain ⟨e, hf, ht⟩ | ⟨e, hf, ht⟩ := List.append_eq_append_iff.mp h
  case inl =>
    obtain ⟨hf, ht⟩ | hs := shifts_of_extends hf ht
    case inl => exact .inl ⟨hf.symm, ht.symm⟩
    case inr => exact .inr <| .inr hs
  case inr => exact (shifts_of_extends hf ht).imp_right .inl

theorem bar_inj {a b a' b' : String} (hb : '|' ∉ b.toList) (hb' : '|' ∉ b'.toList)
    (h : a ++ "|" ++ b = a' ++ "|" ++ b') : a = a' ∧ b = b' := by
  have h := congrArg String.toList h
  simp only [String.toList_append, List.append_assoc] at h
  have ⟨ha, hb⟩ := Text.append_sep_inj hb hb' h
  exact ⟨String.toList_inj.mp ha, String.toList_inj.mp hb⟩

theorem IrAction.bar_name (a : IrAction) : '|' ∉ a.name.toList := by
  cases a <;> decide

theorem IrProto.bar_name (p : IrProto) : '|' ∉ p.name.toList := by
  cases p <;> decide

theorem IrAction.name_injective : Function.Injective IrAction.name := by
  intro a b; cases a <;> cases b <;> decide

theorem IrProto.name_injective : Function.Injective IrProto.name := by
  intro a b; cases a <;> cases b <;> decide

theorem ruleIdPreimage_eq (f t : String) (r : IrRule) :
    ruleIdPreimage f t r = f ++ "|" ++ t ++ "|" ++ r.action.name ++ "|" ++ r.proto.name ++
      "|" ++ ("src=" ++ ",".intercalate r.src) ++ "|" ++ ("dst=" ++ ",".intercalate r.dst) ++
      "|" ++ ("ports=" ++ ",".intercalate (r.ports.map portRangeText)) := by
  have src : "|src=" = "|" ++ "src=" := rfl
  have dst : "|dst=" = "|" ++ "dst=" := rfl
  have ports : "|ports=" = "|" ++ "ports=" := rfl
  simp only [ruleIdPreimage, src, dst, ports, String.append_assoc]

theorem labelled_bar {label : String} (hl : '|' ∉ label.toList) (hs : '|' ∉ s.toList) :
    '|' ∉ (label ++ s).toList := by
  simp [hl, hs]

-- The fields are read from the right, where none of them has a bar, until only the names are left.
theorem ruleIdPreimage_inj [Ipnet] (hr : r.Normal) (hr' : r'.Normal)
    (h : ruleIdPreimage f t r = ruleIdPreimage f' t' r') :
    f ++ "|" ++ t = f' ++ "|" ++ t' ∧ r.SameFields r' := by
  have ⟨⟨src, hs⟩, ⟨dst, hd⟩⟩ := hr
  have ⟨⟨src', hs'⟩, ⟨dst', hd'⟩⟩ := hr'
  rw [ruleIdPreimage_eq, ruleIdPreimage_eq, hs, hd, hs', hd'] at h
  have bar {label : String} (hl : '|' ∉ label.toList) (l : List Ipv4Net) :=
    labelled_bar hl (Joins.display.bar_joined l)
  have bar' {label : String} (hl : '|' ∉ label.toList) (l : List (Port × Port)) :=
    labelled_bar hl (Joins.portRangeText.bar_joined l)
  have ⟨h, hports⟩ := bar_inj (bar' (by decide) _) (bar' (by decide) _) h
  have ⟨h, hdst⟩ := bar_inj (bar (by decide) _) (bar (by decide) _) h
  have ⟨h, hsrc⟩ := bar_inj (bar (by decide) _) (bar (by decide) _) h
  have ⟨h, hproto⟩ := bar_inj (IrProto.bar_name _) (IrProto.bar_name _) h
  have ⟨h, haction⟩ := bar_inj (IrAction.bar_name _) (IrAction.bar_name _) h
  refine ⟨h, IrAction.name_injective haction, IrProto.name_injective hproto, ?_, ?_, ?_⟩
  case refine_1 => rw [hs, hs', Joins.display.joined_inj <| (String.append_right_inj _).mp hsrc]
  case refine_2 => rw [hd, hd', Joins.display.joined_inj <| (String.append_right_inj _).mp hdst]
  case refine_3 => exact Joins.portRangeText.joined_inj <| (String.append_right_inj _).mp hports

-- The digest has no collision on the texts of these two rules.
def Apart [Sha256] (f t : String) (r : IrRule) (f' t' : String) (r' : IrRule) : Prop :=
  ruleId f t r = ruleId f' t' r' → ruleIdPreimage f t r = ruleIdPreimage f' t' r'

theorem Ambiguous.preimage_eq (h : Ambiguous f t f' t') (r : IrRule) :
    ruleIdPreimage f t r = ruleIdPreimage f' t' r := by
  rw [ruleIdPreimage_eq, ruleIdPreimage_eq, h.text_eq]

theorem ruleId_congr [Sha256] (h : ruleIdPreimage f t r = ruleIdPreimage f' t' r') :
    ruleId f t r = ruleId f' t' r' := by
  rw [ruleId, ruleId, h]

theorem normalizedCidrStrings_range [Ipnet] (h : normalizedCidrStrings raw = .ok texts) :
    ∃ nets : List Ipv4Net, texts = nets.map Ipv4Net.display := by
  have hr : texts ∈ Set.range (List.map Ipv4Net.display) := by
    rw [Set.range_list_map]
    intro c hc
    have ⟨s, _, hs⟩ := Checked.mapM_mem h hc
    split at hs
    case h_1 n _ => cases hs; exact ⟨n, rfl⟩
    case h_2     => cases hs
  have ⟨nets, hn⟩ := hr
  exact ⟨nets, hn.symm⟩

-- Every rule that goes into a policy is a normal one.
theorem compileRule_normal [Ipnet] [Sha256] (h : compileRule block rule = .ok r) : r.Normal := by
  have ⟨(action, body), _, h⟩ := Checked.bind_ok.mp h
  have ⟨proto, _, h⟩ := Checked.bind_ok.mp h
  have ⟨src, hs, h⟩ := Checked.bind_ok.mp h
  have ⟨dst, hd, h⟩ := Checked.bind_ok.mp h
  have ⟨ports, _, h⟩ := Checked.bind_ok.mp h
  cases h
  exact ⟨normalizedCidrStrings_range hs, normalizedCidrStrings_range hd⟩

-- Rules with the same identifier have the same names and fields, except for pairs of names that are
-- joined to one text.
theorem ruleId_determines_iff [Ipnet] [Sha256] (f t f' t' : String) :
    (∀ r r' : IrRule, r.Normal → r'.Normal → Apart f t r f' t' r' →
      ruleId f t r = ruleId f' t' r' → f = f' ∧ t = t' ∧ r.SameFields r') ↔
    ¬Ambiguous f t f' t' := by
  refine ⟨fun h ha => ?_, fun hn r r' hr hr' apart he => ?_⟩
  case refine_1 =>
    let r : IrRule := ⟨"", .allow, .any, [], [], []⟩
    have hr : r.Normal := ⟨⟨[], rfl⟩, ⟨[], rfl⟩⟩
    have hp := ha.preimage_eq r
    exact ha.from_ne (h r r hr hr (fun _ => hp) (ruleId_congr hp)).1
  case refine_2 =>
    have ⟨hn', hf⟩ := ruleIdPreimage_inj hr hr' (apart he)
    obtain ⟨hf', ht'⟩ | ha := names_eq_or_ambiguous hn'
    case inl => exact ⟨hf', ht', hf⟩
    case inr => exact absurd ha hn

-- A bar in the name of a segment: the rules for traffic from `a|b` to `c` and from `a` to `b|c` have
-- the same identifier, whatever the digest is.
theorem ruleId_same_for_shifted_names :
    ∃ r : IrRule, r.Normal ∧ ∀ [Sha256], Apart "a|b" "c" r "a" "b|c" r ∧
      ruleId "a|b" "c" r = ruleId "a" "b|c" r ∧ "a|b" ≠ "a" ∧ "c" ≠ "b|c" := by
  have ha : Ambiguous "a|b" "c" "a" "b|c" := .inl ⟨"b", rfl, rfl⟩
  let r : IrRule := ⟨"", .allow, .any, [], [], []⟩
  have hp := ha.preimage_eq r
  exact ⟨r, ⟨⟨[], rfl⟩, ⟨[], rfl⟩⟩, fun _ => hp, ruleId_congr hp, by decide, by decide⟩

end Policy
