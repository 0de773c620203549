import WireMesh.Lib.SocketAddr

-- Requests in the form of text: a line for each field, with its name and its value, and an empty line at
-- the end.
namespace Text

abbrev Field := List Char × List Char

def writeField (f : Field) : List Char :=
  f.1 ++ '=' :: f.2 ++ ['\n']

def writeFields (fs : List Field) : List Char :=
  fs.flatMap writeField ++ ['\n']

def splitLines : List Char → List (List Char)
  | []         => []
  | '\n' :: cs => [] :: splitLines cs
  | c :: cs    =>
    match splitLines cs with
    | []      => [[c]]
    | l :: ls => (c :: l) :: ls

-- The fields of a request, and the lines that come after it.
def readFieldLines : List (List Char) → Option (List Field × List (List Char))
  | []       => none
  | [] :: ls => some ([], ls)
  | l :: ls  => do
    let f ← splitOnce '=' l
    let (fs, rest) ← readFieldLines ls
    return (f :: fs, rest)

def readFields (text : List Char) : Option (List Field × List (List Char)) :=
  readFieldLines (splitLines text)

-- A byte is two digits.
def hexDigit (c : Char) : Option Nat :=
  if c.isDigit then some (c.toNat - '0'.toNat)
  else if 'a' ≤ c ∧ c ≤ 'f' then some (c.toNat - 'a'.toNat + 10)
  else none

def writeHex (bytes : List (BitVec 8)) : List Char :=
  bytes.flatMap fun b => [Nat.digitChar (b.toNat / 16), Nat.digitChar (b.toNat % 16)]

def readHex : List Char → Option (List (BitVec 8))
  | []           => some []
  | [_]          => none
  | hi :: lo :: cs => do
    let b := BitVec.ofNat 8 (16 * (← hexDigit hi) + (← hexDigit lo))
    return b :: (← readHex cs)

section Lines

theorem splitLines_line {l : List Char} (h : '\n' ∉ l) (r : List Char) :
    splitLines (l ++ '\n' :: r) = l :: splitLines r := by
  induction l
  case nil => rfl
  case cons c l ih =>
    have ⟨hc, hl⟩ := not_or.mp (h ∘ List.mem_cons.mpr)
    rw [List.cons_append, splitLines, ih hl]
    exact fun he => hc he.symm

-- A name has no break and no sign of equality in it, and a value has no break.
structure Plain (f : Field) : Prop where
  name : '=' ∉ f.1 ∧ '\n' ∉ f.1
  value : '\n' ∉ f.2

theorem Plain.line {f : Field} (h : Plain f) (r : List Char) :
    splitLines (writeField f ++ r) = (f.1 ++ '=' :: f.2) :: splitLines r := by
  rw [writeField, List.append_assoc, List.singleton_append]
  exact splitLines_line (by simp [h.name.2, h.value]) r

theorem readFieldLines_field {f : Field} (h : Plain f) (ls : List (List Char)) :
    readFieldLines ((f.1 ++ '=' :: f.2) :: ls) =
      (readFieldLines ls).map fun r => (f :: r.1, r.2) := by
  have hs := splitOnce_append h.name.1 f.2
  rw [readFieldLines, hs]
  case x_1 => simp
  cases readFieldLines ls <;> rfl

-- What has been written is read, whatever is in it, and nothing is left over.
theorem readFields_writeFields {fs : List Field} (h : ∀ f ∈ fs, Plain f) :
    readFields (writeFields fs) = some (fs, []) := by
  induction fs
  case nil => rfl
  case cons f fs ih =>
    have ⟨hf, hfs⟩ := List.forall_mem_cons.mp h
    have ih := ih hfs
    rw [readFields, writeFields] at ih ⊢
    rw [List.flatMap_cons, List.append_assoc, hf.line, readFieldLines_field hf, ih]
    rfl

end Lines

section Hex

theorem hexDigit_digitChar : ∀ n < 16, hexDigit (Nat.digitChar n) = some n := by
  decide

theorem readHex_writeHex (bytes : List (BitVec 8)) : readHex (writeHex bytes) = some bytes := by
  induction bytes
  case nil => rfl
  case cons b bytes ih =>
    have hi := hexDigit_digitChar (b.toNat / 16) (by omega)
    have lo := hexDigit_digitChar (b.toNat % 16) (by omega)
    have value : 16 * (b.toNat / 16) + b.toNat % 16 = b.toNat := Nat.div_add_mod ..
    rw [writeHex] at ih ⊢
    simp [readHex, hi, lo, ih, value]

theorem writeHex_injective : Function.Injective writeHex := fun a b h =>
  Option.some.inj <| by rw [← readHex_writeHex a, h, readHex_writeHex]

theorem digit_of_mem_writeHex {c : Char} (hc : c ∈ writeHex bytes) : ∃ n < 16, Nat.digitChar n = c := by
  obtain ⟨b, _, hb⟩ := List.mem_flatMap.mp hc
  cases List.mem_cons.mp hb
  case inl he => exact ⟨_, by omega, he.symm⟩
  case inr hb => exact ⟨_, by omega, (List.mem_singleton.mp hb).symm⟩

theorem not_mem_writeHex {c : Char} (h : ∀ n < 16, Nat.digitChar n ≠ c) (bytes : List (BitVec 8)) :
    c ∉ writeHex bytes := by
  intro hc
  obtain ⟨n, hn, he⟩ := digit_of_mem_writeHex hc
  exact h n hn he

end Hex

section Letters

-- What readers take is made of the letters that they know.
theorem splitOnce_eq_some {s : List Char} (h : splitOnce sep s = some (l, r)) :
    s = l ++ sep :: r := by
  induction s generalizing l
  case nil => cases h
  case cons c s ih =>
    rw [splitOnce] at h
    split at h
    case isTrue hc =>
      cases h
      rw [hc, List.nil_append]
    case isFalse =>
      obtain ⟨⟨l', r'⟩, hs, he⟩ := Option.map_eq_some_iff.mp h
      cases he
      rw [ih hs, List.cons_append]

theorem isDigit_of_parseDigits {s : List Char} (h : parseDigits s = some n) :
    ∀ c ∈ s, c.isDigit := by
  rw [parseDigits] at h
  split at h
  case isTrue     => cases h
  case isFalse hs =>
    have hd : s ≠ [] ∧ ∀ c ∈ s, c.isDigit := by simpa using hs
    exact hd.2

theorem isDigit_of_parseOctet {s : List Char} (h : parseOctet s = some n) :
    ∀ c ∈ s, c.isDigit := by
  unfold parseOctet at h
  split at h
  case h_1 => cases h
  case h_2 =>
    split at h
    case isTrue  => exact isDigit_of_parseDigits (Option.filter_eq_some_iff.mp h).1
    case isFalse => cases h

theorem letters_of_parseIpv4Addr {s : List Char} (h : parseIpv4Addr s = some ip) :
    ∀ c ∈ s, c.isDigit ∨ c = '.' := by
  simp only [parseIpv4Addr, Option.bind_eq_bind, Option.bind_eq_some_iff, Prod.exists] at h
  obtain ⟨a, _, ha, b, _, hb, c, d, hc, _, oa, _, ob, _, oc, _, od, _⟩ := h
  have da := isDigit_of_parseOctet oa
  have db := isDigit_of_parseOctet ob
  have dc := isDigit_of_parseOctet oc
  have dd := isDigit_of_parseOctet od
  rw [splitOnce_eq_some ha, splitOnce_eq_some hb, splitOnce_eq_some hc]
  grind

theorem letters_of_parseSocketAddrV4 {s : List Char} (h : parseSocketAddrV4 s = some addr) :
    ∀ c ∈ s, c.isDigit ∨ c = '.' ∨ c = ':' := by
  simp only [parseSocketAddrV4, Option.bind_eq_bind, Option.bind_eq_some_iff, Prod.exists] at h
  obtain ⟨ip, port, hs, _, hi, _, hp, _⟩ := h
  have di := letters_of_parseIpv4Addr hi
  have dp := isDigit_of_parseDigits (Option.filter_eq_some_iff.mp hp).1
  rw [splitOnce_eq_some hs]
  grind

theorem letters_of_parseUnsigned {s : List Char} (h : parseUnsigned bits s = some n) :
    ∀ c ∈ s, c.isDigit ∨ c = '+' := by
  have hv := (Option.filter_eq_some_iff.mp h).1
  split at hv
  all_goals
    have := isDigit_of_parseDigits hv
    grind

end Letters
end Text
