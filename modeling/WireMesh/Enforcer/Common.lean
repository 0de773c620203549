import Mathlib
import WireMesh.Lib.ArrayMap
import WireMesh.Lib.Lpm
import WireMesh.Policy.Ir

-- Constants and types shared by the kernel program and its loader.
namespace Enforcer

open Policy

def MAX_RULES : Nat := 256
def BITSET_WORDS : Nat := 4
def LPM_MAX_ENTRIES : Nat := 1024
def GENERATIONS : Nat := 2

def CTR_DEFAULT_DENY : Nat := MAX_RULES
def CTR_FLOW_HIT : Nat := MAX_RULES + 1
def COUNTERS_LEN : Nat := MAX_RULES + 2

def ACT_DENY : BitVec 32 := 0
def ACT_ALLOW : BitVec 32 := 1

-- `proto` is 6 for tcp, 17 for udp, 1 for icmp and 0 for any. The port range is in host order, and
-- (0, 0) means any.
structure RuleMeta where
  action : BitVec 32
  proto : BitVec 32
  portLo : Port
  portHi : Port
deriving DecidableEq

def RuleMeta.zero : RuleMeta :=
  { action := 0, proto := 0, portLo := 0, portHi := 0 }

-- One bit per index of a flattened rule.
abbrev RuleBits := Vector (BitVec 64) BITSET_WORDS

def RuleBits.zero : RuleBits :=
  Vector.replicate BITSET_WORDS 0

def bitGet (bits : RuleBits) (idx : Nat) : Bool :=
  if h : idx / 64 < BITSET_WORDS
  then bits[idx / 64] >>> (idx % 64) &&& 1#64 != 0#64
  else false

def bitSet (bits : RuleBits) (idx : Nat) : RuleBits :=
  if h : idx / 64 < BITSET_WORDS
  then bits.set (idx / 64) (bits[idx / 64] ||| 1#64 <<< (idx % 64))
  else bits

def bitAnd (a b : RuleBits) : RuleBits :=
  Vector.zipWith (· &&& ·) a b

section Bits

variable {a b : RuleBits} {i j : Nat}

private theorem shift_and_one (x : BitVec 64) (n : Nat) :
    (x >>> n &&& 1#64 != 0#64) = x.getLsbD n := by
  rw [BitVec.and_one_eq_setWidth_ofBool_getLsbD, BitVec.getLsbD_ushiftRight, Nat.add_zero]
  cases x.getLsbD n <;> decide

theorem bitGet_eq (h : i / 64 < BITSET_WORDS) : bitGet b i = b[i / 64].getLsbD (i % 64) := by
  simp only [bitGet, h, dite_true, shift_and_one]

theorem bitGet_ge (h : ¬i / 64 < BITSET_WORDS) : bitGet b i = false := by
  simp [bitGet, h]

@[simp]
theorem bitGet_zero (i : Nat) : bitGet .zero i = false := by
  by_cases h : i / 64 < BITSET_WORDS
  case pos => simp [bitGet_eq h, RuleBits.zero]
  case neg => exact bitGet_ge h

@[simp]
theorem bitGet_and (a b : RuleBits) (i : Nat) :
    bitGet (bitAnd a b) i = (bitGet a i && bitGet b i) := by
  by_cases h : i / 64 < BITSET_WORDS
  case pos => simp [bitGet_eq h, bitAnd]
  case neg => simp [bitGet_ge h]

theorem bitGet_bitSet (b : RuleBits) (hi : i < MAX_RULES) :
    bitGet (bitSet b i) j = (decide (j = i) || bitGet b j) := by
  have hw : i / 64 < BITSET_WORDS := by simp only [MAX_RULES, BITSET_WORDS] at hi ⊢; omega
  by_cases hj : j / 64 < BITSET_WORDS
  case neg =>
    have hn : j ≠ i := fun h => hj (h ▸ hw)
    simp [bitGet_ge hj, hn]
  case pos =>
    rw [bitGet_eq hj, bitGet_eq hj]
    simp only [bitSet, hw, dite_true, Vector.getElem_set]
    split
    case isFalse h =>
      have hn : j ≠ i := fun e => h (e ▸ rfl)
      simp [hn]
    case isTrue h =>
      have hm : j % 64 < 64 := Nat.mod_lt _ (by decide)
      have he : j = i ↔ j % 64 - i % 64 = 0 ∧ ¬j % 64 < i % 64 := by omega
      simp only [h, BitVec.getLsbD_or, BitVec.getLsbD_shiftLeft, BitVec.getLsbD_one, hm, he]
      grind

end Bits

-- A 32-bit or 16-bit word of a little-endian host as it stands in network byte order.
def toBe32 (x : BitVec 32) : BitVec 32 :=
  x.extractLsb' 0 8 ++ x.extractLsb' 8 8 ++ x.extractLsb' 16 8 ++ x.extractLsb' 24 8

def fromBe32 (x : BitVec 32) : BitVec 32 :=
  toBe32 x

def toBe16 (x : BitVec 16) : BitVec 16 :=
  x.extractLsb' 0 8 ++ x.extractLsb' 8 8

def fromBe16 (x : BitVec 16) : BitVec 16 :=
  toBe16 x

theorem fromBe16_toBe16 (x : BitVec 16) : fromBe16 (toBe16 x) = x := by
  ext i hi
  simp only [fromBe16, toBe16, ← BitVec.getLsbD_eq_getElem, BitVec.getLsbD_append,
    BitVec.getLsbD_extractLsb']
  split_ifs
  all_goals first
    | omega
    | rw [decide_eq_true (by omega), decide_eq_true (by omega), Bool.true_and, Bool.true_and]
      congr 1
      omega

theorem toBe32_fromBe32 (x : BitVec 32) : toBe32 (fromBe32 x) = x := by
  ext i hi
  simp only [fromBe32, toBe32, ← BitVec.getLsbD_eq_getElem, BitVec.getLsbD_append,
    BitVec.getLsbD_extractLsb']
  split_ifs
  all_goals first
    | omega
    | rw [decide_eq_true (by omega), decide_eq_true (by omega), Bool.true_and, Bool.true_and]
      congr 1
      omega

-- The kernel's trie reads the bytes of a key in memory order and each byte from its highest bit.
def keyBit (d : BitVec 64) (i : Nat) : Bool :=
  d.getLsbD (8 * (i / 8) + (7 - i % 8))

abbrev LpmKey := Lpm.Key (BitVec 64)

abbrev Trie := Lpm.Table (BitVec 64) RuleBits

theorem keyBit_toBe32 (x : BitVec 32) (h : i < 32) :
    keyBit ((toBe32 x).setWidth 64) i = x.getMsbD i := by
  have hb : 8 * (i / 8) + (7 - i % 8) < 64 := by omega
  simp only [keyBit, toBe32, BitVec.getLsbD_setWidth, hb, BitVec.getLsbD_append,
    BitVec.getLsbD_extractLsb', BitVec.getMsbD, h, decide_true, Bool.true_and]
  split_ifs
  all_goals
    rw [decide_eq_true (by omega), Bool.true_and]
    congr 1
    omega

structure FlowKey where
  src : BitVec 32
  dst : BitVec 32
  sport : BitVec 16
  dport : BitVec 16
  proto : BitVec 8
deriving DecidableEq

structure FlowVal where
  lastSeenNs : Nat
deriving DecidableEq

structure RateVal where
  windowStartNs : Nat
  count : Nat
deriving DecidableEq

structure DenyEventRaw where
  src : BitVec 32
  dst : BitVec 32
  proto : BitVec 8
  dport : BitVec 16
  ruleIdx : Nat
deriving DecidableEq

def CFG_TCP_NS : Nat := 0
def CFG_UDP_NS : Nat := 1
def CFG_ICMP_NS : Nat := 2
def CFG_RATE_CAP : Nat := 3
def CFG_LOG_PER_RULE : Nat := 4
def CFG_LOG_AGGREGATE : Nat := 5
def CONFIG_LEN : Nat := 6

def DEFAULT_TCP_NS : Nat := 7200 * 1000000000
def DEFAULT_UDP_NS : Nat := 60 * 1000000000
def DEFAULT_ICMP_NS : Nat := 30 * 1000000000
def DEFAULT_RATE_CAP : Nat := 256
def DEFAULT_LOG_PER_RULE : Nat := 10
def DEFAULT_LOG_AGGREGATE : Nat := 100

def RATE_WINDOW_NS : Nat := 1000000000

end Enforcer
