import Mathlib
import WireMesh.Controller.Theorems.Tokens
import WireMesh.Lib.Timestamp

-- Until when an enrollment token can be redeemed.
namespace Controller

open Timestamp

-- A day, in nanoseconds.
def TOKEN_TTL : Int := 24 * 60 * 60 * 10 ^ 9

def tokenExpiry (mint : Int) : Option String :=
  rfc3339 (mint + TOKEN_TTL)

namespace Db

-- An unused token that was minted at the given instant, the only one with its secret.
structure Minted (db : Db) (token : TokenRow) (kinds : List TokenKind) (mint : Int) : Prop where
  stored  : token ∈ db.tokens
  only    : ∀ t ∈ db.tokens, t.secretHash = token.secretHash → t = token
  unused  : token.usedAt = none
  kind    : token.kind ∈ kinds
  expires : tokenExpiry mint = some token.expiresAt

-- The token is found by an enrollment at the given instant.
def Accepts (db : Db) (token : TokenRow) (kinds : List TokenKind) (redemption : Int) : Prop :=
  ∃ now, rfc3339 redemption = some now ∧ db.redeemable token.secretHash now kinds = some token

theorem Minted.redeemable_iff (h : Minted db token kinds mint) :
    db.redeemable token.secretHash now kinds = some token ↔ now < token.expiresAt := by
  refine ⟨fun hr => (redeemable_some hr).2.2.2.1, fun hlt => ?_⟩
  cases hr : db.redeemable token.secretHash now kinds
  case none =>
    have hn := List.find?_eq_none.mp hr token h.stored
    simp [h.unused, h.kind, hlt] at hn
  case some t =>
    have ⟨hm, hs, _⟩ := redeemable_some hr
    rw [h.only t hm hs]

def loneToken (text : String) : TokenRow :=
  ⟨"", "", .gateway, "", none, text, none⟩

theorem minted_lone (h : tokenExpiry mint = some text) :
    Minted { empty with tokens := [loneToken text] } (loneToken text) [.gateway] mint :=
  ⟨List.mem_singleton_self _, fun _ ht _ => List.mem_singleton.mp ht, rfl,
    List.mem_singleton_self _, h⟩

end Db

-- Neither instant is the other one with some of its last nine decimal places set to zero.
def Distinguished (a b : Int) : Prop :=
  ∀ k ≤ 9, a = b / 10 ^ k * 10 ^ k ∨ b = a / 10 ^ k * 10 ^ k → a = b

theorem distinguished_iff {a b : Nat} (h : a < b) : Distinguished a b ↔ ¬Cut 9 a b := by
  refine ⟨fun hd ⟨k, hk, hc⟩ => ?_, fun hn k hk hc => ?_⟩
  case refine_1 =>
    have he := hd k hk <| .inl (by exact_mod_cast hc)
    omega
  case refine_2 =>
    obtain hc | hc := hc
    case inl => exact absurd ⟨k, hk, by exact_mod_cast hc⟩ hn
    case inr =>
      have hc : b = a / 10 ^ k * 10 ^ k := by exact_mod_cast hc
      have hle := Nat.div_mul_le_self a (10 ^ k)
      omega

theorem Distinguished.symm (h : Distinguished a b) : Distinguished b a :=
  fun k hk hc => (h k hk hc.symm).symm

-- The order of the texts is that of the instants unless one of them is cut from the other.
theorem text_lt_iff {a b : Nat} (ha : a < seconds * 10 ^ 9) (hb : b < seconds * 10 ^ 9) :
    (String.ofList (chars a) < String.ofList (chars b) ↔ a < b) ↔ Distinguished a b := by
  rw [String.lt_iff, String.toList_ofList, String.toList_ofList]
  obtain hlt | rfl | hlt := Nat.lt_trichotomy a b
  case inl =>
    have ⟨hc, hn⟩ := chars_lt hlt hb
    rw [distinguished_iff hlt]
    refine ⟨fun h hcut => ?_, fun h => ⟨fun _ => hlt, fun _ => hn h⟩⟩
    exact List.lt_irrefl _ <| List.lt_trans (hc hcut) (h.mpr hlt)
  case inr.inl => exact ⟨fun _ _ _ _ => rfl, fun _ => by simp⟩
  case inr.inr =>
    have ⟨hc, hn⟩ := chars_lt hlt ha
    refine ⟨fun h => Distinguished.symm ?_, fun h => ?_⟩
    case refine_1 =>
      rw [distinguished_iff hlt]
      exact fun hcut => absurd (h.mp (hc hcut)) (by omega)
    case refine_2 =>
      have hba := hn <| (distinguished_iff hlt).mp h.symm
      exact ⟨fun hab => absurd (List.lt_trans hab hba) (List.lt_irrefl _), fun hab => by omega⟩

theorem distinguished_of_le {bound a b : Int} (hb : b < bound * 10 ^ 9) (ha : bound * 10 ^ 9 ≤ a) :
    Distinguished a b := by
  intro k hk hc
  obtain hc | hc := hc
  case inl =>
    have hle := Int.ediv_mul_le b (b := 10 ^ k) (by positivity)
    omega
  case inr =>
    have hle : bound * 10 ^ 9 ≤ a / 10 ^ k * 10 ^ k :=
      calc bound * 10 ^ 9 = bound * 10 ^ 9 / 10 ^ k * 10 ^ k :=
            (Int.ediv_mul_cancel <| (pow_dvd_pow 10 hk).mul_left bound).symm
        _ ≤ a / 10 ^ k * 10 ^ k :=
            Int.mul_le_mul_of_nonneg_right (Int.ediv_le_ediv (by positivity) ha) (by positivity)
    omega

-- What the comparison of the texts says about the instants.
theorem earlier_text_iff (h : rfc3339 expiry = some text) :
    ((∃ now, rfc3339 t = some now ∧ now < text) ↔ t < expiry) ↔ 0 ≤ t ∧ Distinguished t expiry := by
  obtain ⟨⟨h₀, h₁⟩, rfl⟩ := rfc3339_eq_some.mp h
  simp only [rfc3339_eq_some, and_assoc, exists_and_left, exists_eq_left']
  by_cases hneg : t < 0
  case pos =>
    refine ⟨fun hp => absurd (hp.mpr (by omega)).1 (by omega), fun hp => by omega⟩
  case neg =>
    have ht : 0 ≤ t := by omega
    by_cases hin : t < seconds * 10 ^ 9
    case pos =>
      lift t to Nat using ht
      lift expiry to Nat using h₀
      have hlt := text_lt_iff (a := t) (b := expiry) (by exact_mod_cast hin) (by exact_mod_cast h₁)
      simpa only [Int.natCast_nonneg, hin, true_and, Int.toNat_natCast, Nat.cast_lt] using hlt
    case neg =>
      have hd := distinguished_of_le h₁ (not_lt.mp hin)
      exact ⟨fun _ => ⟨ht, hd⟩, fun _ => ⟨fun hp => absurd hp.2.1 hin, fun hp => by omega⟩⟩

-- A token is accepted until it expires if the two instants have a text and neither is cut from the
-- other.
theorem accepted_until_expiry_iff (mint redemption : Int) :
    (∀ db token kinds, Db.Minted db token kinds mint →
      (db.Accepts token kinds redemption ↔ redemption < mint + TOKEN_TTL)) ↔
    (0 ≤ mint + TOKEN_TTL → mint + TOKEN_TTL < seconds * 10 ^ 9 →
      0 ≤ redemption ∧ Distinguished redemption (mint + TOKEN_TTL)) := by
  refine ⟨fun h h₀ h₁ => ?_, fun h db token kinds hm => ?_⟩
  case refine_1 =>
    have ⟨text, he⟩ : ∃ text, tokenExpiry mint = some text :=
      ⟨_, rfc3339_eq_some.mpr ⟨⟨h₀, h₁⟩, rfl⟩⟩
    have hm := Db.minted_lone he
    have ha := h _ _ _ hm
    simp only [Db.Accepts, hm.redeemable_iff] at ha
    exact (earlier_text_iff he).mp ha
  case refine_2 =>
    have ⟨⟨h₀, h₁⟩, _⟩ := rfc3339_eq_some.mp hm.expires
    simp only [Db.Accepts, hm.redeemable_iff]
    exact (earlier_text_iff hm.expires).mpr (h h₀ h₁)

-- A token that was minted on 1 January 2025 on the stroke of ten is accepted half a second after it
-- has expired, because the full stop before a fraction comes before the letter that ends a text.
theorem accepted_after_expiry :
    ∃ (db : Db) (token : TokenRow) (mint redemption : Int),
      db.Minted token [.gateway] mint ∧ db.Accepts token [.gateway] redemption ∧
      redemption = mint + TOKEN_TTL + 500000000 := by
  have he : tokenExpiry 63902944800000000000 = some "2025-01-02T10:00:00Z" := by decide +kernel
  have hm := Db.minted_lone he
  refine ⟨_, _, _, 63903031200500000000, hm, ⟨"2025-01-02T10:00:00.5Z", by decide +kernel, ?_⟩, rfl⟩
  exact hm.redeemable_iff.mpr (by decide)

end Controller
