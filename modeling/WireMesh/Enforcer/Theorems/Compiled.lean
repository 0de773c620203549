import WireMesh.Policy.Theorems.Table
import WireMesh.Enforcer.Theorems.Apply
import WireMesh.Enforcer.Theorems.Nft
import WireMesh.Enforcer.Theorems.Source

-- What a gateway does with a policy that the controller has compiled.
namespace Enforcer

open Policy Script

theorem hexEncode_word (bytes : List (BitVec 8)) : (hexEncode bytes).toList.all isWordChar := by
  have digits : ∀ d < 16, isWordChar (Nat.digitChar d) := by decide
  simp only [hexEncode, String.toList_ofList, List.all_eq_true]
  intro c hc
  obtain ⟨d, hd, he⟩ := Text.digit_of_mem_writeHex hc
  exact he ▸ digits d hd

variable [Ipnet] [Sha256]

theorem compileRule_word (h : compileRule block rule = .ok r) : r.ruleId.toList.all isWordChar := by
  simp only [compileRule, Checked.bind_ok, Checked.pure_ok] at h
  obtain ⟨_, _, _, _, _, _, _, _, _, _, h⟩ := h
  exact h ▸ hexEncode_word _

theorem compileBlock_word (h : compileBlock segments block = .ok b) (hr : r ∈ b.rules) :
    r.ruleId.toList.all isWordChar := by
  simp only [compileBlock] at h
  split at h
  case h_1 => cases h
  case h_2 => cases h
  case h_3 =>
    simp only [Checked.bind_ok, Checked.pure_ok] at h
    obtain ⟨_, hm, h⟩ := h
    subst h
    obtain ⟨_, _, hr⟩ := Checked.mapM_mem hm hr
    exact compileRule_word hr

variable [IpnetV6] {segments : List SegmentDef}

-- The identifiers that the compiler gives are words of the script, so a compiled policy is printed as
-- the statements it is meant to be.
theorem parse_ruleset_compile {src : PolicySource segments} (h : compile src version = .ok ir)
    (hf : flatten ir = .ok flat) (hi : validateIface iface = .ok ()) :
    ∃ text, ruleset ir iface = .ok text ∧ parse text.toList = some (rulesetScript flat iface) := by
  have ⟨blocks, hb, _, he⟩ := compile_ok.mp h
  have hw (f : FlatRule) (hm : f ∈ flat) : f.ruleId.toList.all isWordChar := by
    have ⟨b, hmb, r, hr, hid⟩ := flatten_rule hf hm
    have ⟨_, _, hc⟩ := Checked.mapM_mem hb (he ▸ hmb)
    exact hid ▸ compileBlock_word hc hr
  exact ⟨_, ruleset_ok.mpr ⟨hi, flat, hf, rfl⟩, (reads_of_words hi (fun _ => flatten_sides hf) hw).parse⟩

-- The compiler refuses a validated document exactly if it is over a limit, and then `flatten` refuses
-- what it has built. What it returns is accepted by everything on the gateway.
theorem compile_iff_accepted (src : PolicySource segments) (version : Nat) :
    ∃ blocks, compileBlocks src = .ok blocks ∧
      (∀ ir, compile src version = .ok ir →
        ∃ flat, flatten ir = .ok flat ∧ checkLpmCapacity flat = .ok () ∧
          ∀ iface, validateIface iface = .ok () → ∃ text, ruleset ir iface = .ok text) ∧
      (∀ e, compile src version = .error e →
        e = .errors (limitErrors blocks) ∧
          ∃ msg, flatten { schema := 1, version, blocks } = .error msg) := by
  have ⟨blocks, rows, hc, hr, h⟩ := compileBlocks_rows src version
  have hiff := flatten_iff_limitErrors hr h
  refine ⟨blocks, hc, fun ir hok => ?_, fun e he => ?_⟩
  case refine_1 =>
    have ⟨blocks', hc', hl, hir⟩ := compile_ok.mp hok
    cases hc.symm.trans hc'
    have ⟨flat, hf⟩ := hiff.mpr hl
    subst hir
    exact ⟨flat, hf, flatten_checkLpmCapacity hf,
      fun iface hi => ⟨_, ruleset_ok.mpr ⟨hi, flat, hf, rfl⟩⟩⟩
  case refine_2 =>
    have hl : limitErrors blocks ≠ [] := by
      intro hl
      rw [compile_ok.mpr ⟨blocks, hc, hl, rfl⟩] at he
      cases he
    constructor
    case left =>
      simp only [compile, hc, Checked.ok_bind] at he
      exact (Except.error.inj he).symm
    case right =>
      cases hf : flatten { schema := 1, version, blocks }
      case error msg => exact ⟨msg, rfl⟩
      case ok flat   => exact absurd (hiff.mp ⟨flat, hf⟩) hl

end Enforcer
