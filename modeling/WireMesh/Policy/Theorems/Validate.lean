import WireMesh.Policy.Compile

-- What an empty list of validation errors says about a document.
namespace Policy

def PortSpec.Valid : PortSpec → Prop
  | single n => 1 ≤ n ∧ n ≤ 65535
  | range s  => ∃ lo hi, parseRange s = some (lo, hi) ∧ 1 ≤ lo ∧ lo ≤ hi ∧ hi ≤ 65535

theorem checkPortValue_nil : checkPortValue b r ctx n = [] ↔ 1 ≤ n ∧ n ≤ 65535 := by
  simp only [checkPortValue]
  split
  case isTrue h  => simp; omega
  case isFalse h => split <;> simp <;> omega

theorem validatePort_valid (h : validatePort b r ctx p = []) : p.Valid := by
  cases p
  case single n => exact checkPortValue_nil.mp h
  case range s =>
    simp only [validatePort] at h
    split at h
    case h_1 => simp at h
    case h_2 lo hi hp =>
      split at h
      case h_1 hlo hhi =>
        have ⟨h₁, _⟩ := checkPortValue_nil.mp hlo
        have ⟨_, h₂⟩ := checkPortValue_nil.mp hhi
        split at h
        case isTrue    => simp at h
        case isFalse h => exact ⟨lo, hi, hp, h₁, by omega, h₂⟩
      case h_2 _ hn => exact absurd h hn
      case h_3 hn _ => exact absurd h hn

theorem validatePorts_valid {body : RuleBody} (h : validatePorts b r ctx body = []) :
    (body.proto = none ∨ body.proto = some "tcp" ∨ body.proto = some "udp" ∨
      body.proto = some "icmp") ∧ ∀ p ∈ body.ports, p.Valid := by
  have ports {errors : List CompileError} (hv : errors = [] → ∀ p ∈ body.ports, p.Valid)
      (h : (if body.ports.isEmpty then [] else errors) = []) : ∀ p ∈ body.ports, p.Valid := by
    split at h
    case isTrue he => simp [List.isEmpty_iff.mp he]
    case isFalse   => exact hv h
  simp only [validatePorts] at h
  split at h
  case h_5 => simp at h
  all_goals
    refine ⟨by simp_all, ports (fun h => ?_) h⟩
    split at h
    case h_3 => simp at h
    all_goals exact fun p hp => validatePort_valid <| List.flatMap_eq_nil_iff.mp h p hp

theorem validateSegment_nonempty (h : validateSegment b ctx side name seg = []) :
    ∃ s, seg = some s ∧ s.cidrs ≠ [] := by
  cases seg
  case none   => simp [validateSegment] at h
  case some s =>
    refine ⟨s, rfl, fun he => ?_⟩
    simp [validateSegment, he] at h

variable [Ipnet]

structure RuleBody.Valid (body : RuleBody) : Prop where
  src   : ∀ s ∈ body.src, ∃ n, Ipnet.parse s = .ok n
  dst   : ∀ s ∈ body.dst, ∃ n, Ipnet.parse s = .ok n
  proto : body.proto = none ∨ body.proto = some "tcp" ∨ body.proto = some "udp" ∨
    body.proto = some "icmp"
  ports : ∀ p ∈ body.ports, p.Valid

def RuleSrc.Valid (rule : RuleSrc) : Prop :=
  ∃ action body, ruleAction rule = .ok (action, body) ∧ body.Valid

structure BlockSrc.Valid (segments : List SegmentDef) (block : BlockSrc) : Prop where
  fromSeg : ∃ seg, findSegment segments block.fromName = some seg ∧ seg.cidrs ≠ []
  toSeg   : ∃ seg, findSegment segments block.toName = some seg ∧ seg.cidrs ≠ []
  rules   : ∀ rule ∈ block.rules, rule.Valid

variable [IpnetV6]

theorem validateCidr_parses (h : validateCidr b r ctx field seg raw = []) :
    ∃ n, Ipnet.parse raw = .ok n := by
  simp only [validateCidr] at h
  cases hp : Ipnet.parse raw
  case ok n    => exact ⟨n, rfl⟩
  case error e =>
    simp only [hp] at h
    split at h <;> simp at h

theorem validateCidrs_parse (h : validateCidrs b r ctx field values seg = []) :
    ∀ s ∈ values, ∃ n, Ipnet.parse s = .ok n :=
  fun s hs => validateCidr_parses <| List.flatMap_eq_nil_iff.mp h s hs

theorem validateRule_valid (h : validateRule b r ctx fromSeg toSeg rule = []) : rule.Valid := by
  have body {body} (h : validateCidrs b r ctx "src" body.src fromSeg ++
      validateCidrs b r ctx "dst" body.dst toSeg ++ validatePorts b r ctx body = []) : body.Valid := by
    simp only [List.append_eq_nil_iff] at h
    have ⟨hp, hv⟩ := validatePorts_valid h.2
    exact ⟨validateCidrs_parse h.1.1, validateCidrs_parse h.1.2, hp, hv⟩
  simp only [validateRule] at h
  split at h
  case h_1 ha hd => exact ⟨.allow, _, by simp [ruleAction, ha, hd], body h⟩
  case h_2 ha hd => exact ⟨.deny, _, by simp [ruleAction, ha, hd], body h⟩
  case h_3 => simp at h
  case h_4 => simp at h

theorem validateBlock_valid (h : (validateBlock segments b seen block).1 = []) :
    block.Valid segments := by
  simp only [validateBlock, List.append_eq_nil_iff, List.flatMap_eq_nil_iff] at h
  have ⟨⟨⟨hf, ht⟩, _⟩, hr⟩ := h
  refine ⟨validateSegment_nonempty hf, validateSegment_nonempty ht, fun rule hm => ?_⟩
  have ⟨i, hi⟩ := List.mem_iff_getElem?.mp hm
  have hz : (rule, i) ∈ block.rules.zipIdx := List.mk_mem_zipIdx_iff_getElem?.mpr hi
  exact validateRule_valid <| hr _ hz

theorem validate_go_valid (h : validate.go segments i seen blocks = []) :
    ∀ block ∈ blocks, block.Valid segments := by
  induction blocks generalizing i seen
  case nil => simp
  case cons block blocks ih =>
    simp only [validate.go, List.append_eq_nil_iff] at h
    exact List.forall_mem_cons.mpr ⟨validateBlock_valid h.1, ih h.2⟩

theorem PolicySource.valid_blocks (src : PolicySource segments) :
    ∀ block ∈ src.doc.policy, block.Valid segments :=
  validate_go_valid src.valid

end Policy
