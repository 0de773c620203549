import WireMesh.Lib.Text

-- Numbers and texts as bytes.
abbrev Bytes := List (BitVec 8)

namespace Wire

-- The lowest `width` bytes of a number, the highest of them first.
def beBytes : Nat → Nat → Bytes
  | 0,         _ => []
  | width + 1, n => BitVec.ofNat 8 (n / 256 ^ width) :: beBytes width n

def ofBeBytes (bytes : Bytes) : Nat :=
  bytes.foldl (fun n b => 256 * n + b.toNat) 0

def fromUtf8 (bytes : Bytes) : Option String :=
  String.fromUTF8? ⟨(bytes.map UInt8.ofBitVec).toArray⟩

@[simp]
theorem length_beBytes (width n : Nat) : (beBytes width n).length = width := by
  induction width
  case zero    => rfl
  case succ ih => rw [beBytes, List.length_cons, ih]

theorem ofBeBytes_beBytes_two (h : n < 2 ^ 16) : ofBeBytes (beBytes 2 n) = n := by
  simp only [beBytes, ofBeBytes, List.foldl_cons, List.foldl_nil, BitVec.toNat_ofNat]
  omega

@[simp]
theorem fromUtf8_bytesOf (s : String) : fromUtf8 (Text.bytesOf s) = some s := by
  have hb : (Text.bytesOf s).map UInt8.ofBitVec = s.toUTF8.data.toList := by
    rw [Text.bytesOf, List.map_map]
    exact List.map_id _
  rw [fromUtf8, hb]
  exact (dif_pos s.isValidUTF8).trans rfl

section Ascii

def asciiByte (c : Char) : BitVec 8 :=
  BitVec.ofNat 8 c.toNat

theorem bytesOf_eq_flatMap (s : String) :
    Text.bytesOf s = s.toList.flatMap fun c => (String.utf8EncodeChar c).map (·.toBitVec) := by
  rw [Text.bytesOf, String.toUTF8, ← String.utf8Encode_toList, List.utf8Encode]
  simp [List.map_flatMap]

-- The text of characters below 128 has a byte for each of them.
theorem bytesOf_ascii (h : ∀ c ∈ s.toList, c.toNat < 128) :
    Text.bytesOf s = s.toList.map asciiByte := by
  have hc : ∀ c ∈ s.toList, (String.utf8EncodeChar c).map (·.toBitVec) = [asciiByte c] := by
    intro c hc
    have hle : c.val.toNat ≤ 0x7f := Nat.le_of_lt_succ (h c hc)
    rw [String.utf8EncodeChar, if_pos hle]
    rfl
  rw [bytesOf_eq_flatMap, List.flatMap_congr hc, ← List.map_eq_flatMap]

end Ascii
end Wire
