import Mathlib

-- Instants and the RFC 3339 text that shows them in UTC. The text leaves out a fraction that is zero,
-- and the zeros at the end of one that is not.
namespace Timestamp

-- A decimal number with its leading zeros.
def fixed : (width n : Nat) → List Char
  | 0,         _ => []
  | width + 1, n => Nat.digitChar (n / 10 ^ width) :: fixed width (n % 10 ^ width)

-- A decimal fraction without the zeros at its end.
def fraction : (width n : Nat) → List Char
  | 0,         _ => []
  | width + 1, n =>
    if n = 0 then [] else Nat.digitChar (n / 10 ^ width) :: fraction width (n % 10 ^ width)

-- The last of the periods `0` to `last` that has begun on day `d`.
def locate (start : Nat → Nat) (last d : Nat) : Nat :=
  Nat.findGreatest (start · ≤ d) last

def isLeap (year : Nat) : Bool :=
  year % 4 = 0 ∧ (year % 100 ≠ 0 ∨ year % 400 = 0)

def daysBeforeYear (year : Nat) : Nat :=
  365 * year + (year + 3) / 4 - (year + 99) / 100 + (year + 399) / 400

-- Months are counted from zero.
def daysBeforeMonth (leap : Bool) (month : Nat) : Nat :=
  [0, 31, 59, 90, 120, 151, 181, 212, 243, 273, 304, 334].getD month 0 +
    if leap && 2 ≤ month then 1 else 0

def monthDay (leap : Bool) (day : Nat) : List Char :=
  let month := locate (daysBeforeMonth leap) 11 day
  fixed 2 (month + 1) ++ '-' :: fixed 2 (day - daysBeforeMonth leap month + 1)

def date (day : Nat) : List Char :=
  let year := locate daysBeforeYear 9999 day
  fixed 4 year ++ '-' :: monthDay (isLeap year) (day - daysBeforeYear year)

def minutes (second : Nat) : List Char :=
  fixed 2 (second / 60) ++ ':' :: fixed 2 (second % 60)

def time (second : Nat) : List Char :=
  fixed 2 (second / 3600) ++ ':' :: minutes (second % 3600)

def whole (second : Nat) : List Char :=
  date (second / 86400) ++ 'T' :: time (second % 86400)

-- The rest of the text after the whole seconds.
def rest (nanos : Nat) : List Char :=
  if nanos = 0 then ['Z'] else '.' :: (fraction 9 nanos ++ ['Z'])

def chars (instant : Nat) : List Char :=
  whole (instant / 10 ^ 9) ++ rest (instant % 10 ^ 9)

-- The number of seconds before year 10000.
def seconds : Nat :=
  daysBeforeYear 10000 * 86400

-- An instant is the number of nanoseconds since the start of year 0. Only years of four digits have a
-- text.
def rfc3339 (instant : Int) : Option String :=
  if 0 ≤ instant ∧ instant < seconds * 10 ^ 9 then
    some (String.ofList (chars instant.toNat))
  else
    none

example : rfc3339 63902945130500000000 = some "2025-01-01T10:05:30.5Z" := by decide +kernel

theorem rfc3339_eq_some : rfc3339 t = some text ↔
    (0 ≤ t ∧ t < seconds * 10 ^ 9) ∧ String.ofList (chars t.toNat) = text := by
  rw [rfc3339]
  split
  all_goals simp_all

-- Texts of one length whose order is that of the numbers below `bound`.
structure Ordered (bound width : Nat) (f : Nat → List Char) : Prop where
  length : ∀ {n}, n < bound → (f n).length = width
  lt     : ∀ {m n}, m < n → n < bound → f m < f n

theorem append_lt_append {a a' : List Char} (h : a.length = a'.length) :
    a ++ b < a' ++ b' ↔ a < a' ∨ a = a' ∧ b < b' := by
  induction a generalizing a'
  case nil =>
    cases List.eq_nil_of_length_eq_zero h.symm
    simp
  case cons c a ih =>
    cases a'
    case nil => cases h
    case cons c' a' =>
      simp only [List.cons_append, List.cons_lt_cons_iff, ih (Nat.succ.inj h), List.cons.injEq]
      tauto

theorem div_lt_or_mod_lt {k : Nat} (h : m < n) : m / k < n / k ∨ m / k = n / k ∧ m % k < n % k := by
  obtain hq | hq := (Nat.div_le_div_right (c := k) h.le).lt_or_eq
  case inl => exact .inl hq
  case inr =>
    have hm := Nat.div_add_mod m k
    have hn := Nat.div_add_mod n k
    rw [hq] at hm
    exact .inr ⟨hq, by omega⟩

theorem digitChar_lt (hd : d < e) (he : e < 10) : Nat.digitChar d < Nat.digitChar e := by
  have h : ∀ e < 10, ∀ d < e, Nat.digitChar d < Nat.digitChar e := by decide
  exact h e he d hd

theorem Ordered.fixed (width : Nat) : Ordered (10 ^ width) width (fixed width) where
  length {n} hn := by
    induction width generalizing n
    case zero          => rfl
    case succ width ih => simpa [Timestamp.fixed] using ih (Nat.mod_lt _ (by positivity))
  lt {m n} hm hn := by
    induction width generalizing m n
    case zero => omega
    case succ width ih =>
      have hd : n / 10 ^ width < 10 := Nat.div_lt_of_lt_mul (by rwa [← pow_succ])
      rw [Timestamp.fixed, Timestamp.fixed, List.cons_lt_cons_iff]
      obtain hq | ⟨hq, hr⟩ := div_lt_or_mod_lt (k := 10 ^ width) hm
      case inl => exact .inl <| digitChar_lt hq hd
      case inr => exact .inr ⟨by rw [hq], ih hr (Nat.mod_lt _ (by positivity))⟩

-- A text made of two parts, where numbers are compared by the first and then by the second.
theorem Ordered.join {g : Nat → Nat → List Char} {q r : Nat → Nat} (hf : Ordered a v f)
    (hg : ∀ q, Ordered b w (g q)) (hq : ∀ {n}, n < bound → q n < a)
    (hr : ∀ {n}, n < bound → r n < b)
    (h : ∀ {m n}, m < n → q m < q n ∨ q m = q n ∧ r m < r n) (sep : Char) :
    Ordered bound (v + (w + 1)) fun n => f (q n) ++ sep :: g (q n) (r n) where
  length hn := by simp [hf.length (hq hn), (hg _).length (hr hn)]
  lt {m n} hm hn := by
    have hm' := hm.trans hn
    rw [append_lt_append (by rw [hf.length (hq hm'), hf.length (hq hn)])]
    obtain hlt | ⟨he, hlt⟩ := h hm
    case inl => exact .inl <| hf.lt hlt (hq hn)
    case inr =>
      rw [he]
      exact .inr ⟨rfl, List.cons_lt_cons_iff.mpr <| .inr ⟨rfl, (hg _).lt hlt (hr hn)⟩⟩

theorem Ordered.shift (h : Ordered (bound + 1) w f) : Ordered bound w (f <| · + 1) where
  length hn := h.length (Nat.succ_lt_succ hn)
  lt hm hn  := h.lt (Nat.succ_lt_succ hm) (Nat.succ_lt_succ hn)

section Calendar

variable {start : Nat → Nat}

theorem locate_le : locate start last d ≤ last :=
  Nat.findGreatest_le _

theorem start_locate (h : start 0 = 0) : start (locate start last d) ≤ d :=
  Nat.findGreatest_spec (P := (start · ≤ d)) (Nat.zero_le last) (by omega)

theorem lt_start_locate (h : locate start last d < last) : d < start (locate start last d + 1) :=
  Nat.lt_of_not_le <| Nat.findGreatest_is_greatest (P := (start · ≤ d)) (Nat.lt_succ_self _) h

theorem locate_lt_or (h : start 0 = 0) {d d' : Nat} (hd : d < d') :
    locate start last d < locate start last d' ∨ locate start last d = locate start last d' ∧
      d - start (locate start last d) < d' - start (locate start last d') := by
  have hle : locate start last d ≤ locate start last d' :=
    Nat.findGreatest_mono_left (fun i hi => hi.trans hd.le) last
  obtain hlt | heq := hle.lt_or_eq
  case inl => exact .inl hlt
  case inr =>
    have hs : start (locate start last d) ≤ d := start_locate h
    rw [heq] at hs ⊢
    exact .inr ⟨rfl, by omega⟩

theorem daysBeforeMonth_succ (leap : Bool) :
    ∀ m < 11, daysBeforeMonth leap (m + 1) ≤ daysBeforeMonth leap m + 31 := by
  cases leap <;> decide

theorem Ordered.monthDay (leap : Bool) : Ordered 366 5 (monthDay leap) :=
  have two : Ordered 99 2 (Timestamp.fixed 2 <| · + 1) := (Ordered.fixed 2).shift
  two.join (fun _ => two) (fun _ => Nat.lt_of_le_of_lt locate_le (by decide))
    (fun {day} h => by
      have hle : locate (daysBeforeMonth leap) 11 day ≤ 11 := locate_le
      obtain hm | hm := hle.lt_or_eq
      case inl =>
        have := lt_start_locate hm
        have := daysBeforeMonth_succ leap _ hm
        omega
      case inr =>
        have : 334 ≤ daysBeforeMonth leap 11 := by cases leap <;> decide
        rw [hm]
        omega)
    (locate_lt_or (by cases leap <;> decide)) '-'

theorem daysBeforeYear_succ (year : Nat) : daysBeforeYear (year + 1) ≤ daysBeforeYear year + 366 := by
  simp only [daysBeforeYear]
  omega

theorem Ordered.date : Ordered (daysBeforeYear 10000) 10 date :=
  (Ordered.fixed 4).join (fun year => Ordered.monthDay (isLeap year))
    (fun _ => Nat.lt_of_le_of_lt locate_le (by decide))
    (fun {day} h => by
      have hs := daysBeforeYear_succ (locate daysBeforeYear 9999 day)
      have hle : locate daysBeforeYear 9999 day ≤ 9999 := locate_le
      obtain hy | hy := hle.lt_or_eq
      case inl =>
        have := lt_start_locate hy
        omega
      case inr =>
        have h : day < daysBeforeYear (9999 + 1) := h
        rw [hy] at hs ⊢
        omega)
    (locate_lt_or rfl) '-'

theorem Ordered.minutes : Ordered 3600 5 minutes :=
  (Ordered.fixed 2).join (fun _ => Ordered.fixed 2) (fun h => by omega)
    (fun h => by omega) (div_lt_or_mod_lt ·) ':'

theorem Ordered.time : Ordered 86400 8 time :=
  (Ordered.fixed 2).join (fun _ => Ordered.minutes) (fun h => by omega)
    (fun h => by omega) (div_lt_or_mod_lt ·) ':'

theorem Ordered.whole : Ordered seconds 19 whole :=
  Ordered.date.join (fun _ => Ordered.time) (fun h => Nat.div_lt_of_lt_mul (by rwa [Nat.mul_comm]))
    (fun h => by omega) (div_lt_or_mod_lt ·) 'T'

end Calendar

-- One number is the other with its last decimal places set to zero.
def Cut (width a b : Nat) : Prop :=
  ∃ k ≤ width, a = b / 10 ^ k * 10 ^ k

theorem cut_zero (h : b < 10 ^ width) : Cut width 0 b :=
  ⟨width, le_rfl, by rw [Nat.div_eq_of_lt h, Nat.zero_mul]⟩

theorem cut_at_iff (c m : Nat) :
    a = b / c * c ↔ a / (c * m) = b / (c * m) ∧ a % (c * m) = b % (c * m) / c * c := by
  rw [Nat.mod_mul_right_div_self, ← Nat.div_div_eq_div_mul, ← Nat.div_div_eq_div_mul]
  have hb := Nat.div_add_mod (b / c) m
  refine ⟨fun h => ?_, fun ⟨hq, hr⟩ => ?_⟩
  case refine_1 =>
    obtain rfl | hc := Nat.eq_zero_or_pos c
    case inl => simp [h]
    case inr =>
      rw [h, Nat.mul_div_cancel _ hc, Nat.mul_comm c m, Nat.mul_mod_mul_right]
      exact ⟨rfl, rfl⟩
  case refine_2 =>
    calc a = c * m * (a / (c * m)) + a % (c * m) := (Nat.div_add_mod ..).symm
      _ = c * m * (b / c / m) + b / c % m * c    := by rw [hr, ← Nat.div_div_eq_div_mul, hq]
      _ = (m * (b / c / m) + b / c % m) * c      := by ring
      _ = b / c * c                              := by rw [hb]

theorem cut_iff : Cut width a b ↔
    a / 10 ^ width = b / 10 ^ width ∧ Cut width (a % 10 ^ width) (b % 10 ^ width) := by
  have at_iff {k} (hk : k ≤ width) : a = b / 10 ^ k * 10 ^ k ↔ a / 10 ^ width = b / 10 ^ width ∧
      a % 10 ^ width = b % 10 ^ width / 10 ^ k * 10 ^ k := by
    have h := cut_at_iff (a := a) (b := b) (10 ^ k) (10 ^ (width - k))
    rwa [← pow_add, Nat.add_sub_cancel' hk] at h
  exact ⟨fun ⟨k, hk, h⟩ => ⟨((at_iff hk).mp h).1, k, hk, ((at_iff hk).mp h).2⟩,
    fun ⟨hq, k, hk, hr⟩ => ⟨k, hk, (at_iff hk).mpr ⟨hq, hr⟩⟩⟩

theorem cut_succ_iff (ha : a ≠ 0) (hb : b < 10 ^ (width + 1)) :
    Cut (width + 1) a b ↔ Cut width a b := by
  refine ⟨fun ⟨k, hk, h⟩ => ?_, fun ⟨k, hk, h⟩ => ⟨k, Nat.le_succ_of_le hk, h⟩⟩
  obtain hk | rfl := Nat.le_succ_iff.mp hk
  case inl => exact ⟨k, hk, h⟩
  case inr => rw [Nat.div_eq_of_lt hb, Nat.zero_mul] at h; exact absurd h ha

-- A fraction that has been cut ends where the other one goes on, and its end is the greater text.
theorem fraction_lt (hab : a < b) (hb : b < 10 ^ width) :
    (Cut width a b → fraction width b ++ ['Z'] < fraction width a ++ ['Z']) ∧
    (¬Cut width a b → fraction width a ++ ['Z'] < fraction width b ++ ['Z']) := by
  induction width generalizing a b
  case zero => omega
  case succ width ih =>
    have hd : b / 10 ^ width < 10 := Nat.div_lt_of_lt_mul (by rwa [← pow_succ])
    have hz : Nat.digitChar (b / 10 ^ width) < 'Z' := by
      have h : ∀ d < 10, Nat.digitChar d < 'Z' := by decide
      exact h _ hd
    rw [fraction, fraction, if_neg (show b ≠ 0 by omega)]
    by_cases ha : a = 0
    case pos =>
      rw [ha, if_pos rfl]
      exact ⟨fun _ => List.cons_lt_cons_iff.mpr <| .inl hz, fun h => absurd (cut_zero hb) h⟩
    case neg =>
      rw [if_neg ha, cut_succ_iff ha hb, cut_iff]
      simp only [List.cons_append, List.cons_lt_cons_iff]
      obtain hq | ⟨hq, hr⟩ := div_lt_or_mod_lt (k := 10 ^ width) hab
      case inl => exact ⟨fun h => absurd h.1 hq.ne, fun _ => .inl <| digitChar_lt hq hd⟩
      case inr =>
        have ih := ih hr (Nat.mod_lt _ (by positivity))
        exact ⟨fun h => .inr ⟨by rw [hq], ih.1 h.2⟩,
          fun h => .inr ⟨by rw [hq], ih.2 fun hc => h ⟨hq, hc⟩⟩⟩

theorem rest_lt (hab : a < b) (hb : b < 10 ^ 9) :
    (Cut 9 a b → rest b < rest a) ∧ (¬Cut 9 a b → rest a < rest b) := by
  rw [rest, rest, if_neg (show b ≠ 0 by omega)]
  by_cases ha : a = 0
  case pos =>
    rw [ha, if_pos rfl]
    exact ⟨fun _ => by simp [List.cons_lt_cons_iff], fun h => absurd (cut_zero hb) h⟩
  case neg =>
    rw [if_neg ha]
    simp only [List.cons_lt_cons_iff, true_and]
    exact (fraction_lt hab hb).imp (fun h hc => .inr (h hc)) (fun h hc => .inr (h hc))

theorem chars_lt (hab : a < b) (hb : b < seconds * 10 ^ 9) :
    (Cut 9 a b → chars b < chars a) ∧ (¬Cut 9 a b → chars a < chars b) := by
  have hs : b / 10 ^ 9 < seconds := Nat.div_lt_of_lt_mul (by rwa [Nat.mul_comm])
  have hs' := (Nat.div_le_div_right (c := 10 ^ 9) hab.le).trans_lt hs
  have hl := (Ordered.whole.length hs').trans (Ordered.whole.length hs).symm
  rw [chars, chars, append_lt_append hl, append_lt_append hl.symm, cut_iff]
  obtain hq | ⟨hq, hr⟩ := div_lt_or_mod_lt (k := 10 ^ 9) hab
  case inl => exact ⟨fun h => absurd h.1 hq.ne, fun _ => .inl <| Ordered.whole.lt hq hs⟩
  case inr =>
    have h := rest_lt hr (Nat.mod_lt _ (by decide))
    rw [hq]
    exact ⟨fun hc => .inr ⟨rfl, h.1 hc.2⟩, fun hc => .inr ⟨rfl, h.2 fun hc' => hc ⟨rfl, hc'⟩⟩⟩

end Timestamp
