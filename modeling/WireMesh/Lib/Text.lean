import Mathlib

-- The parts of the standard library's string handling that programs reading text rely on, over the
-- characters of a string.
namespace Text

-- The Unicode `White_Space` property.
def isWhitespace (c : Char) : Bool :=
  (9 ≤ c.toNat && c.toNat ≤ 13) || c.toNat == 0x20 || c.toNat == 0x85 || c.toNat == 0xa0 ||
  c.toNat == 0x1680 || (0x2000 ≤ c.toNat && c.toNat ≤ 0x200a) || c.toNat == 0x2028 ||
  c.toNat == 0x2029 || c.toNat == 0x202f || c.toNat == 0x205f || c.toNat == 0x3000

def trim (s : List Char) : List Char :=
  (s.dropWhile isWhitespace).reverse.dropWhile isWhitespace |>.reverse

-- The parts before and after the first occurrence of `sep`.
def splitOnce (sep : Char) : List Char → Option (List Char × List Char)
  | []      => none
  | c :: cs =>
    if c = sep then some ([], cs)
    else (splitOnce sep cs).map fun (l, r) => (c :: l, r)

-- A non-empty run of decimal digits.
def parseDigits (s : List Char) : Option Nat :=
  if s.isEmpty || !s.all Char.isDigit then none else some (Nat.ofDigitChars 10 s 0)

-- Signed integers take either sign, unsigned ones only a plus; both reject values out of range.
def parseSigned (bits : Nat) (s : List Char) : Option Int :=
  let value : Option Int :=
    match s with
    | '-' :: ds => (parseDigits ds).map fun (n : Nat) => -(n : Int)
    | '+' :: ds => (parseDigits ds).map Int.ofNat
    | ds        => (parseDigits ds).map Int.ofNat
  value.filter fun n => decide (-(2 ^ (bits - 1) : Int) ≤ n ∧ n < (2 ^ (bits - 1) : Int))

def parseUnsigned (bits : Nat) (s : List Char) : Option Nat :=
  let value : Option Nat :=
    match s with
    | '+' :: ds => parseDigits ds
    | ds        => parseDigits ds
  value.filter fun n => decide (n < 2 ^ bits)

def bytesOf (s : String) : List (BitVec 8) :=
  s.toUTF8.data.toList.map (·.toBitVec)

theorem bytesOf_injective : Function.Injective bytesOf := by
  intro s t h
  have bytes : Function.Injective UInt8.toBitVec := fun _ _ => UInt8.toBitVec_inj.mp
  have data := Array.toList_inj.mp (List.map_injective_iff.mpr bytes h)
  exact String.toByteArray_inj.mp (ByteArray.ext data)

-- How a string is shown in an error. Escapes are those of printable text and of ASCII.
def debugChar (c : Char) : String :=
  if c = '\t' then "\\t"
  else if c = '\r' then "\\r"
  else if c = '\n' then "\\n"
  else if c = '"' then "\\\""
  else if c = '\\' then "\\\\"
  else if c.toNat = 0 then "\\0"
  else if c.toNat < 0x20 ∨ c.toNat = 0x7f then
    "\\u\x7b" ++ String.ofList (Nat.toDigits 16 c.toNat) ++ "\x7d"
  else c.toString

def debugStr (s : String) : String :=
  "\"" ++ String.join (s.toList.map debugChar) ++ "\""

theorem parseDigits_toDigits (n : Nat) : parseDigits (Nat.toDigits 10 n) = some n := by
  have hd : (Nat.toDigits 10 n).all Char.isDigit := by
    simp only [List.all_eq_true]
    intro c hc
    exact Nat.isDigit_of_mem_toDigits (by omega) (by omega) hc
  simp [parseDigits, hd, Nat.toDigits_ne_nil, Nat.ofDigitChars_ten_toDigits]

theorem splitOnce_append {l : List Char} (h : sep ∉ l) (r : List Char) :
    splitOnce sep (l ++ sep :: r) = some (l, r) := by
  induction l
  case nil => simp [splitOnce]
  case cons c l ih =>
    simp only [List.mem_cons, not_or] at h
    simp [splitOnce, Ne.symm h.1, ih h.2]

-- What follows the last occurrence of `sep` can be told from what precedes it.
theorem append_sep_inj {a b a' b' : List Char} (hb : sep ∉ b) (hb' : sep ∉ b')
    (h : a ++ sep :: b = a' ++ sep :: b') : a = a' ∧ b = b' := by
  have split {a b : List Char} (hb : sep ∉ b) :
      splitOnce sep (a ++ sep :: b).reverse = some (b.reverse, a.reverse) := by
    simpa using splitOnce_append (l := b.reverse) (by simpa using hb) a.reverse
  have h := (split hb).symm.trans <| (congrArg (splitOnce sep <| List.reverse ·) h).trans (split hb')
  simp only [Option.some.injEq, Prod.mk.injEq, List.reverse_inj] at h
  exact h.symm

theorem not_mem_intercalate {ls : List (List Char)} (hc : c ≠ sep) (h : ∀ w ∈ ls, c ∉ w) :
    c ∉ [sep].intercalate ls := by
  induction ls
  case nil => simp
  case cons w ls ih =>
    simp only [List.forall_mem_cons] at h
    cases ls
    case nil  => simpa using h.1
    case cons => simp [h.1, hc, ih h.2]

-- A list of words can be read back from its joined text if no word is empty or has the separator.
theorem intercalate_inj {ls ls' : List (List Char)} (h : ∀ w ∈ ls, w ≠ [] ∧ sep ∉ w)
    (h' : ∀ w ∈ ls', w ≠ [] ∧ sep ∉ w) (he : [sep].intercalate ls = [sep].intercalate ls') :
    ls = ls' := by
  have nil {ls : List (List Char)} (h : ∀ w ∈ ls, w ≠ [] ∧ sep ∉ w)
      (he : [sep].intercalate ls = []) : ls = [] := by
    cases ls
    case nil => rfl
    case cons w ls => cases ls <;> simp_all
  by_cases hn : ls = []
  case pos => rw [hn] at he ⊢; exact (nil h' he.symm).symm
  case neg =>
    have hn' : ls' ≠ [] := fun hn' => hn <| nil h (by rw [he, hn']; rfl)
    have hs := List.splitOn_intercalate sep (fun w hw => (h w hw).2) hn
    rw [he, List.splitOn_intercalate sep (fun w hw => (h' w hw).2) hn'] at hs
    exact hs.symm

theorem not_mem_toDigits {c : Char} (h : c.isDigit = false) : c ∉ Nat.toDigits 10 n :=
  fun hc => by simp [Nat.isDigit_of_mem_toDigits (by omega) (by omega) hc] at h

-- Words in one text: every letter after a mark, and a full stop after every word.
def packWord : List Char → List Char
  | []     => ['.']
  | c :: w => '-' :: c :: packWord w

def pack (ws : List (List Char)) : List Char :=
  ws.flatMap packWord

theorem packWord_append_inj {w v s t : List Char} (h : packWord w ++ s = packWord v ++ t) :
    w = v ∧ s = t := by
  induction w generalizing v
  case nil =>
    cases v
    case nil  => exact ⟨rfl, by simpa [packWord] using h⟩
    case cons => simp [packWord] at h
  case cons c w ih =>
    cases v
    case nil => simp [packWord] at h
    case cons d v =>
      simp only [packWord, List.cons_append, List.cons.injEq, true_and] at h
      have ⟨hw, hs⟩ := ih h.2
      exact ⟨by rw [h.1, hw], hs⟩

theorem pack_injective : Function.Injective pack := by
  intro ws vs h
  induction ws generalizing vs
  case nil =>
    cases vs
    case nil       => rfl
    case cons v vs => cases v <;> simp [pack, packWord] at h
  case cons w ws ih =>
    cases vs
    case nil => cases w <;> simp [pack, packWord] at h
    case cons v vs =>
      have ⟨hw, hs⟩ := packWord_append_inj h
      rw [hw, ih hs]

theorem parseUnsigned_mono {s : List Char} (hb : b ≤ c) (h : parseUnsigned b s = some n) :
    parseUnsigned c s = some n := by
  simp only [parseUnsigned, Option.filter_eq_some_iff, decide_eq_true_eq] at h ⊢
  exact ⟨h.1, Nat.lt_of_lt_of_le h.2 (Nat.pow_le_pow_right (by decide) hb)⟩

-- Where a signed reading of a text is a value of the unsigned type, the unsigned reading is the same.
theorem parseUnsigned_of_parseSigned {s : List Char} {n : Nat}
    (h : parseSigned b s = some (n : Int)) (hp : 0 < n) (hn : n < 2 ^ c) :
    parseUnsigned c s = some n := by
  simp only [parseSigned, Option.filter_eq_some_iff] at h
  have ⟨hv, _⟩ := h
  unfold parseUnsigned
  split at hv
  case h_1 ds =>
    have ⟨m, _, hm⟩ := Option.map_eq_some_iff.mp hv
    omega
  all_goals
    have ⟨m, hd, hm⟩ := Option.map_eq_some_iff.mp hv
    cases Int.ofNat.inj hm
    simp_all [Option.filter]

end Text
