import Mathlib
import WireMesh.Lib.Chunks
import WireMesh.Lib.Wire
import WireMesh.Gateway.Base64

-- What is printed in base64 is read back as it was.
namespace Gateway.Uapi

open Wire (asciiByte)

section Letters

theorem base64Val_get (i : Fin 64) :
    base64Val (asciiByte (B64.get i)) = some (BitVec.ofNat 32 i) := by
  revert i
  decide +kernel

theorem base64Val_b64Char (n : BitVec 32) :
    base64Val (asciiByte (b64Char n)) = some (n &&& 63) := by
  have h : (n &&& 63).toNat ≤ 63 := by
    rw [BitVec.toNat_and]
    exact Nat.and_le_right
  rw [b64Char, base64Val_get]
  refine congrArg some (BitVec.eq_of_toNat_eq ?_)
  simp only [Fin.ofNat, BitVec.toNat_ofNat]
  omega

theorem b64Char_mem (n : BitVec 32) : b64Char n ∈ B64 :=
  List.get_mem ..

-- The characters that are passed over.
def isSkipped (c : Char) : Bool :=
  c = '=' || c = ' ' || c = '\t' || c = '\n' || c = '\x0c' || c = '\r'

theorem ascii_of_mem_B64 : ∀ c ∈ B64, c.toNat < 128 ∧ isSkipped c = false := by
  have h : (B64.all fun c => decide (c.toNat < 128) && !isSkipped c) = true := by decide +kernel
  intro c hc
  simpa using List.all_eq_true.mp h c hc

end Letters

section Bits

variable (n : BitVec 32)

-- Numbers of six bits, the first of them highest.
def joined (vals : List (BitVec 32)) : BitVec 32 :=
  vals.zipIdx.foldl (fun n (v, i) => n ||| v <<< (18 - 6 * i)) 0

-- A part of a number that is taken out and put back in its place.
theorem shifted_mask (mask : BitVec 32) (k : Nat) : (n >>> k &&& mask) <<< k = n &&& mask <<< k := by
  ext i hi
  by_cases hk : i < k
  case pos => simp [hk]
  case neg =>
    have hi' : k + (i - k) = i := by omega
    simp [hk, hi', BitVec.getLsbD_eq_getElem hi]

theorem joined_two : joined [n >>> 18 &&& 63, n >>> 12 &&& 63] = n &&& 0xfff000 := by
  change 0#32 ||| (n >>> 18 &&& 63) <<< 18 ||| (n >>> 12 &&& 63) <<< 12 = _
  rw [shifted_mask, shifted_mask, BitVec.zero_or, ← BitVec.and_or_distrib_left]
  rfl

theorem joined_three :
    joined [n >>> 18 &&& 63, n >>> 12 &&& 63, n >>> 6 &&& 63] = n &&& 0xffffc0 := by
  change joined [n >>> 18 &&& 63, n >>> 12 &&& 63] ||| (n >>> 6 &&& 63) <<< 6 = _
  rw [joined_two, shifted_mask, ← BitVec.and_or_distrib_left]
  rfl

theorem joined_four :
    joined [n >>> 18 &&& 63, n >>> 12 &&& 63, n >>> 6 &&& 63, n &&& 63] = n &&& 0xffffff := by
  change joined [n >>> 18 &&& 63, n >>> 12 &&& 63, n >>> 6 &&& 63] ||| (n &&& 63) <<< 0 = _
  rw [joined_three, BitVec.shiftLeft_zero, ← BitVec.and_or_distrib_left]
  rfl

-- A byte is read through every mask that leaves it as it is.
theorem masked_byte {mask : BitVec 32} {k : Nat} (h : (mask >>> k).setWidth 8 = 0xff#8) :
    ((n &&& mask) >>> k).setWidth 8 = (n >>> k).setWidth 8 := by
  rw [BitVec.ushiftRight_and_distrib, BitVec.setWidth_and, h]
  exact BitVec.and_allOnes

theorem mapM_base64Val (ns : List (BitVec 32)) :
    ((ns.map b64Char).map asciiByte).mapM base64Val = some (ns.map (· &&& 63)) := by
  induction ns
  case nil => rfl
  case cons n ns ih =>
    rw [List.map_cons, List.map_cons, List.mapM_cons, base64Val_b64Char, ih]
    rfl

theorem base64Chunk_letters (ns : List (BitVec 32)) :
    let n := joined (ns.map (· &&& 63))
    base64Chunk ((ns.map b64Char).map asciiByte) =
      some ([(n >>> 16).setWidth 8, (n >>> 8).setWidth 8, n.setWidth 8].take
        (if ns.length > 3 then 3 else if ns.length > 2 then 2 else 1)) := by
  rw [base64Chunk, mapM_base64Val, List.length_map, List.length_map]
  rfl

theorem base64Chunk_two :
    base64Chunk (([n >>> 18, n >>> 12].map b64Char).map asciiByte) =
      some [(n >>> 16).setWidth 8] := by
  have hb : ((n &&& 0xfff000) >>> 16).setWidth 8 = (n >>> 16).setWidth 8 :=
    masked_byte n (by decide)
  rw [← hb, ← joined_two]
  exact base64Chunk_letters _

theorem base64Chunk_three :
    base64Chunk (([n >>> 18, n >>> 12, n >>> 6].map b64Char).map asciiByte) =
      some [(n >>> 16).setWidth 8, (n >>> 8).setWidth 8] := by
  have hb : ((n &&& 0xffffc0) >>> 16).setWidth 8 = (n >>> 16).setWidth 8 :=
    masked_byte n (by decide)
  have hb' : ((n &&& 0xffffc0) >>> 8).setWidth 8 = (n >>> 8).setWidth 8 :=
    masked_byte n (by decide)
  rw [← hb, ← hb', ← joined_three]
  exact base64Chunk_letters _

theorem base64Chunk_four :
    base64Chunk (([n >>> 18, n >>> 12, n >>> 6, n].map b64Char).map asciiByte) =
      some [(n >>> 16).setWidth 8, (n >>> 8).setWidth 8, n.setWidth 8] := by
  have hb : ((n &&& 0xffffff) >>> 16).setWidth 8 = (n >>> 16).setWidth 8 :=
    masked_byte n (by decide)
  have hb' : ((n &&& 0xffffff) >>> 8).setWidth 8 = (n >>> 8).setWidth 8 :=
    masked_byte n (by decide)
  have hb'' : (n &&& 0xffffff).setWidth 8 = n.setWidth 8 := masked_byte n (k := 0) (by decide)
  rw [← hb, ← hb', ← hb'', ← joined_four]
  exact base64Chunk_letters _

-- Three bytes as one number.
def packed (a b c : BitVec 8) : BitVec 32 :=
  a.setWidth 32 <<< 16 ||| b.setWidth 32 <<< 8 ||| c.setWidth 32

variable (a b c : BitVec 8)

theorem packed_high : (packed a b c >>> 16).setWidth 8 = a := by
  rw [packed]
  ext i hi
  interval_cases i <;> simp

theorem packed_middle : (packed a b c >>> 8).setWidth 8 = b := by
  rw [packed]
  ext i hi
  interval_cases i <;> simp

theorem packed_low : (packed a b c).setWidth 8 = c := by
  rw [packed]
  ext i hi
  interval_cases i <;> simp

end Bits

section RoundTrip

variable (a b c : BitVec 8)

def letters (cs : List Char) : List Char :=
  cs.filter (!isSkipped ·)

theorem letters_append (cs ds : List Char) : letters (cs ++ ds) = letters cs ++ letters ds :=
  List.filter_append ..

theorem letters_skip {d : Char} (hd : isSkipped d) (cs : List Char) :
    letters (d :: cs) = letters cs :=
  List.filter_cons_of_neg (by simpa using hd)

theorem letters_b64Char (ns : List (BitVec 32)) : letters (ns.map b64Char) = ns.map b64Char := by
  refine List.filter_eq_self.mpr fun c hc => ?_
  have ⟨n, _, hn⟩ := List.mem_map.mp hc
  simp [← hn, (ascii_of_mem_B64 _ (b64Char_mem n)).2]

-- The letters of a piece are followed by what it is filled up with.
theorem letters_filled {fill : List Char} (ns : List (BitVec 32)) (hf : letters fill = []) :
    letters (ns.map b64Char ++ fill) = ns.map b64Char := by
  rw [letters_append, letters_b64Char, hf, List.append_nil]

theorem base64Chunk_letters_one :
    base64Chunk ((letters (base64Group [a])).map asciiByte) = some [a] := by
  have hg : base64Group [a] = [packed a 0 0 >>> 18, packed a 0 0 >>> 12].map b64Char ++ ['=', '='] :=
    rfl
  rw [hg, letters_filled _ (by decide), base64Chunk_two, packed_high]

theorem base64Chunk_letters_two :
    base64Chunk ((letters (base64Group [a, b])).map asciiByte) = some [a, b] := by
  have hg : base64Group [a, b] =
    [packed a b 0 >>> 18, packed a b 0 >>> 12, packed a b 0 >>> 6].map b64Char ++ ['='] := rfl
  rw [hg, letters_filled _ (by decide), base64Chunk_three, packed_high, packed_middle]

theorem letters_group_three : letters (base64Group [a, b, c]) =
    [packed a b c >>> 18, packed a b c >>> 12, packed a b c >>> 6, packed a b c].map b64Char := by
  have hg : base64Group [a, b, c] =
    [packed a b c >>> 18, packed a b c >>> 12, packed a b c >>> 6, packed a b c].map b64Char := rfl
  rw [hg, letters_b64Char]

theorem base64Chunk_letters_three :
    base64Chunk ((letters (base64Group [a, b, c])).map asciiByte) = some [a, b, c] := by
  rw [letters_group_three, base64Chunk_four, packed_high, packed_middle, packed_low]

-- The last piece is the only one of its letters.
theorem mapM_last_piece {cs : List Char} (hc : base64Chunk (cs.map asciiByte) = some piece)
    (hne : cs ≠ []) (hl : cs.length ≤ 4) :
    ((cs.map asciiByte).toChunks 4).mapM base64Chunk = some [piece] := by
  rw [Chunks.toChunks_of_length_le (by simpa using hne) (by simpa using hl), List.mapM_cons, hc]
  rfl

theorem length_letters_group (piece : List (BitVec 8)) : (letters (base64Group piece)).length ≤ 4 :=
  List.length_filter_le ..

theorem letters_group_ne (piece : List (BitVec 8)) : letters (base64Group piece) ≠ [] := by
  refine List.ne_nil_of_mem (List.mem_filter.mpr ⟨List.mem_cons_self, ?_⟩)
  simp [(ascii_of_mem_B64 _ (b64Char_mem _)).2]

-- Piece by piece, the letters of any bytes are read as the bytes.
theorem mapM_base64Chunk (x : List (BitVec 8)) :
    (((letters ((x.toChunks 3).flatMap base64Group)).map asciiByte).toChunks 4).mapM base64Chunk =
      some (x.toChunks 3) ∧ (x.toChunks 3).flatten = x := by
  match x with
  | []     => exact ⟨rfl, rfl⟩
  | [a]    =>
    have hx : ([a].toChunks 3).flatMap base64Group = base64Group [a] := rfl
    rw [hx, mapM_last_piece (base64Chunk_letters_one a) (letters_group_ne _) (length_letters_group _)]
    exact ⟨rfl, rfl⟩
  | [a, b] =>
    have hx : ([a, b].toChunks 3).flatMap base64Group = base64Group [a, b] := rfl
    rw [hx, mapM_last_piece (base64Chunk_letters_two a b) (letters_group_ne _)
      (length_letters_group _)]
    exact ⟨rfl, rfl⟩
  | a :: b :: c :: rest =>
    have ⟨ih, hf⟩ := mapM_base64Chunk rest
    have hx : (a :: b :: c :: rest).toChunks 3 = [a, b, c] :: rest.toChunks 3 :=
      Chunks.toChunks_append (show [a, b, c].length = 3 from rfl) (by decide) rest
    have hl : ((letters (base64Group [a, b, c])).map asciiByte).length = 4 := by
      rw [letters_group_three]
      rfl
    rw [hx, List.flatMap_cons, letters_append, List.map_append, Chunks.toChunks_append hl (by decide),
      List.mapM_cons, base64Chunk_letters_three, ih]
    exact ⟨rfl, by rw [List.flatten_cons, hf]; rfl⟩

end RoundTrip

-- The second text comes from the first by putting in and taking out characters that are passed over.
inductive Respaced : List Char → List Char → Prop
  | nil : Respaced [] []
  | keep : Respaced cs ds → Respaced (c :: cs) (c :: ds)
  | insert : isSkipped c → Respaced cs ds → Respaced cs (c :: ds)
  | delete : isSkipped c → Respaced cs ds → Respaced (c :: cs) ds

section Respaced

theorem Respaced.letters_eq (h : Respaced cs ds) : letters ds = letters cs := by
  induction h
  case nil => rfl
  case keep c _ ih =>
    rw [← List.singleton_append, letters_append, ih, ← letters_append, List.singleton_append]
  case insert hc _ ih => rw [letters_skip hc, ih]
  case delete hc _ ih => rw [letters_skip hc, ih]

theorem ascii_of_isSkipped (h : isSkipped c) : c.toNat < 128 := by
  simp only [isSkipped, Bool.or_eq_true, decide_eq_true_eq] at h
  obtain ((((rfl | rfl) | rfl) | rfl) | rfl) | rfl := h <;> decide

theorem ascii_of_mem_base64Encode (x : List (BitVec 8)) :
    ∀ c ∈ (base64Encode x).toList, c.toNat < 128 := by
  intro c hc
  rw [base64Encode, String.toList_ofList] at hc
  have ⟨piece, _, hc⟩ := List.mem_flatMap.mp hc
  have letter (n) : (b64Char n).toNat < 128 := (ascii_of_mem_B64 _ (b64Char_mem n)).1
  have filled (p : Prop) [Decidable p] (n) : (if p then b64Char n else '=').toNat < 128 := by
    split
    case isTrue  => exact letter n
    case isFalse => decide
  simp only [base64Group, List.mem_cons, List.not_mem_nil, or_false] at hc
  obtain rfl | rfl | rfl | rfl := hc
  case inl           => exact letter _
  case inr.inl       => exact letter _
  case inr.inr.inl   => exact filled _ _
  case inr.inr.inr   => exact filled _ _

theorem Respaced.ascii (h : Respaced cs ds) (hc : ∀ c ∈ cs, c.toNat < 128) :
    ∀ c ∈ ds, c.toNat < 128 := by
  induction h
  case nil => exact hc
  case keep ih =>
    have ⟨hh, ht⟩ := List.forall_mem_cons.mp hc
    exact List.forall_mem_cons.mpr ⟨hh, ih ht⟩
  case insert hs _ ih => exact List.forall_mem_cons.mpr ⟨ascii_of_isSkipped hs, ih hc⟩
  case delete ih      => exact ih (List.forall_mem_cons.mp hc).2

theorem asciiByte_eq_iff (hc : c.toNat < 128) (hd : d.toNat < 128) :
    asciiByte c = asciiByte d ↔ c = d := by
  refine ⟨fun h => Char.toNat_inj.mp ?_, congrArg asciiByte⟩
  have h := congrArg BitVec.toNat h
  simp only [asciiByte, BitVec.toNat_ofNat] at h
  omega

-- The decoder passes over the same characters.
theorem decoder_skips (hc : c.toNat < 128) :
    decide (asciiByte c ≠ 0x3d#8 ∧ !isAsciiWhitespace (asciiByte c)) = !isSkipped c := by
  have byte (d : Char) (hd : d.toNat < 128) : asciiByte c = asciiByte d ↔ c = d :=
    asciiByte_eq_iff hc hd
  have hp : asciiByte c = 0x3d#8 ↔ c = '=' := byte '=' (by decide)
  have hw : isAsciiWhitespace (asciiByte c) =
      (c = ' ' || c = '\t' || c = '\n' || c = '\x0c' || c = '\r') := by
    simp only [isAsciiWhitespace, ← byte ' ' (by decide), ← byte '\t' (by decide),
      ← byte '\n' (by decide), ← byte '\x0c' (by decide), ← byte '\r' (by decide)]
    rfl
  simp only [hp, hw, isSkipped, Bool.or_assoc, Bool.not_or, Bool.decide_and, decide_not,
    Bool.decide_eq_true]

theorem base64Decode_of_ascii (h : ∀ c ∈ s.toList, c.toNat < 128) : base64Decode s =
    ((((letters s.toList).map asciiByte).toChunks 4).mapM base64Chunk).map List.flatten := by
  have hs : s.toList.filter ((fun c => decide (c ≠ 0x3d#8 ∧ !isAsciiWhitespace c)) ∘ asciiByte) =
      letters s.toList :=
    List.filter_congr fun c hc => decoder_skips (h c hc)
  rw [base64Decode, Wire.bytesOf_ascii h, List.filter_map, hs, Option.map_eq_bind]
  rfl

theorem Respaced.refl : (cs : List Char) → Respaced cs cs
  | []      => .nil
  | _ :: cs => .keep (refl cs)

theorem Respaced.base64Decode {x : List (BitVec 8)}
    (h : Respaced (base64Encode x).toList s.toList) : base64Decode s = some x := by
  have ⟨hm, hf⟩ := mapM_base64Chunk x
  rw [base64Decode_of_ascii (h.ascii (ascii_of_mem_base64Encode x)), h.letters_eq, base64Encode,
    String.toList_ofList, hm, Option.map_some, hf]

theorem Respaced.keyOfB64 {key : Key} (h : Respaced (base64Encode key).toList s.toList)
    (hl : key.length = 32) : keyOfB64 s = .ok key := by
  rw [Uapi.keyOfB64, h.base64Decode]
  exact if_pos hl

theorem Respaced.base64PubFromPriv [X25519] {key : Key}
    (h : Respaced (base64Encode key).toList s.toList) (hl : key.length = 32) :
    base64PubFromPriv s = .ok (base64Encode (X25519.publicKey key)) := by
  rw [Uapi.base64PubFromPriv, h.base64Decode]
  exact if_neg (not_not.mpr hl)

end Respaced

-- Bytes are read back from their text, whatever is put in or taken out that is passed over. So the
-- two parts of a key that a gateway makes are read back by those that use them.
theorem base64_reads_back [X25519] :
    (∀ (x : List (BitVec 8)) (s : String), Respaced (base64Encode x).toList s.toList →
      base64Decode s = some x) ∧
    ∀ raw : Key, raw.length = 32 →
      (∀ s : String, Respaced (generatedKey raw).privateKeyB64.toList s.toList →
        keyOfB64 s = .ok raw ∧
        base64PubFromPriv s = .ok (base64Encode (X25519.publicKey raw))) ∧
      ∃ pub, (generatedKey raw).pubkeyB64 = some pub ∧
        ∀ s : String, Respaced pub.toList s.toList → keyOfB64 s = .ok (X25519.publicKey raw) := by
  refine ⟨fun x s h => h.base64Decode, fun raw hl => ⟨fun s h => ?_, ?_⟩⟩
  case refine_1 => exact ⟨h.keyOfB64 hl, h.base64PubFromPriv hl⟩
  case refine_2 =>
    have hp := (Respaced.refl (base64Encode raw).toList).base64PubFromPriv hl
    refine ⟨_, congrArg Except.toOption hp, fun s h => ?_⟩
    exact h.keyOfB64 (X25519.length_publicKey raw)

@[reducible]
def standInCurve : X25519 where
  publicKey _          := List.replicate 32 0
  length_publicKey _ := List.length_replicate

-- Two bytes, with a blank in their text and without what it is filled up with.
theorem base64_reads_back_two : base64Encode [0x4d#8, 0x61#8] = "TWE=" ∧
    base64Decode "T WE" = some [0x4d#8, 0x61#8] := by
  have he : base64Encode [0x4d#8, 0x61#8] = "TWE=" := by decide +kernel
  refine ⟨he, (@base64_reads_back standInCurve).1 _ _ ?_⟩
  rw [he]
  exact .keep (.insert rfl (.keep (.keep (.delete rfl .nil))))

end Gateway.Uapi
