import WireMesh.Lib.Prefix
import WireMesh.Lib.SocketAddr

abbrev Ipv4Addr := BitVec 32

-- A CIDR as it was written: host bits are kept, and equality is equality of address and length.
structure Ipv4Net where
  addr : Ipv4Addr
  prefixLen : Nat
  prefixLen_le : prefixLen ≤ 32
deriving DecidableEq

namespace Ipv4Net

def network (n : Ipv4Net) : Ipv4Addr :=
  n.addr &&& Prefix.netmask 32 n.prefixLen

def trunc (n : Ipv4Net) : Ipv4Net :=
  { n with addr := n.network }

def broadcast (n : Ipv4Net) : Ipv4Addr :=
  n.addr ||| Prefix.hostmask 32 n.prefixLen

def containsAddr (n : Ipv4Net) (a : Ipv4Addr) : Bool :=
  decide (n.network ≤ a) && decide (a ≤ n.broadcast)

def contains (n m : Ipv4Net) : Bool :=
  decide (n.network ≤ m.network) && decide (m.broadcast ≤ n.broadcast)

-- The nets that examples are about.
def slash8 (a : BitVec 8) : Ipv4Net where
  addr         := a ++ 0#24
  prefixLen    := 8
  prefixLen_le := by decide

def slash16 (a b : BitVec 8) : Ipv4Net where
  addr         := a ++ b ++ 0#16
  prefixLen    := 16
  prefixLen_le := by decide

variable {n m : Ipv4Net} {a : Ipv4Addr}

theorem containsAddr_def : n.containsAddr a ↔ n.network ≤ a ∧ a ≤ n.broadcast :=
  Bool.and_eq_true_iff.trans <| and_congr decide_eq_true_iff decide_eq_true_iff

theorem containsAddr_iff : n.containsAddr a ↔ Prefix.Agree n.prefixLen n.addr a :=
  containsAddr_def.trans <| Prefix.mem_range_iff_agree n.addr a n.prefixLen_le

theorem containsAddr_addr : n.containsAddr n.addr :=
  containsAddr_iff.mpr <| .refl ..

theorem network_le_broadcast : n.network ≤ n.broadcast :=
  have ⟨h₁, h₂⟩ := containsAddr_def.mp (containsAddr_addr (n := n))
  BitVec.le_trans h₁ h₂

theorem containsAddr_network : n.containsAddr n.network :=
  containsAddr_def.mpr ⟨BitVec.le_refl _, network_le_broadcast⟩

theorem containsAddr_broadcast : n.containsAddr n.broadcast :=
  containsAddr_def.mpr ⟨network_le_broadcast, BitVec.le_refl _⟩

theorem agree_network : Prefix.Agree n.prefixLen n.addr n.network :=
  containsAddr_iff.mp containsAddr_network

-- Of two networks with a common address the one with the shorter prefix contains the other.
theorem contains_of_common (hl : n.prefixLen ≤ m.prefixLen)
    (h₁ : n.containsAddr a) (h₂ : m.containsAddr a) : n.contains m := by
  have hnm : Prefix.Agree n.prefixLen n.addr m.addr :=
    .of_common hl (containsAddr_iff.mp h₁) (containsAddr_iff.mp h₂)
  have mem {x} (hx : m.containsAddr x) : n.containsAddr x :=
    containsAddr_iff.mpr <| hnm.trans <| (containsAddr_iff.mp hx).mono hl
  have ⟨hl, _⟩ := containsAddr_def.mp <| mem containsAddr_network
  have ⟨_, hu⟩ := containsAddr_def.mp <| mem containsAddr_broadcast
  simp [contains, hl, hu]

theorem containsAddr_of_contains (h : n.contains m) (ha : m.containsAddr a) : n.containsAddr a := by
  simp only [contains, Bool.and_eq_true, decide_eq_true_eq] at h
  have ⟨hl, hu⟩ := containsAddr_def.mp ha
  exact containsAddr_def.mpr ⟨BitVec.le_trans h.1 hl, BitVec.le_trans hu h.2⟩

def display (n : Ipv4Net) : String :=
  String.ofList (Text.ipv4Chars n.addr) ++ "/" ++ toString n.prefixLen

theorem toList_display (n : Ipv4Net) :
    n.display.toList = Text.ipv4Chars n.addr ++ '/' :: Nat.toDigits 10 n.prefixLen := by
  have slash : "/".toList = ['/'] := by decide
  simp [display, toString, slash]

end Ipv4Net

-- The parser of the network crate. The only fact relied on is that it reads back what the crate
-- displays.
class Ipnet where
  parse : String → Except String Ipv4Net
  parse_display : ∀ n : Ipv4Net, parse n.display = .ok n

namespace Ipv4Net

theorem display_injective [Ipnet] : Function.Injective display := by
  intro n m h
  have hp := congrArg Ipnet.parse h
  simpa [Ipnet.parse_display] using hp

-- A parser of dotted quads that meets the requirement.
def parseChars (s : List Char) : Option Ipv4Net := do
  let (addr, len) ← Text.splitOnce '/' s
  let addr ← Text.parseIpv4Addr addr
  let len ← Text.parseDigits len
  if h : len ≤ 32 then
    return { addr, prefixLen := len, prefixLen_le := h }
  else
    none

theorem parseChars_display (n : Ipv4Net) : parseChars n.display.toList = some n := by
  have digits (n : Nat) : '/' ∉ Nat.toDigits 10 n := Text.not_mem_toDigits (by decide)
  have slash : '/' ∉ Text.ipv4Chars n.addr := by simp [Text.ipv4Chars, digits]
  rw [toList_display, parseChars, Text.splitOnce_append slash]
  simp [Text.parseIpv4Addr_ipv4Chars, Text.parseDigits_toDigits, n.prefixLen_le]

end Ipv4Net

instance (priority := low) Ipnet.dottedQuad : Ipnet where
  parse s := match Ipv4Net.parseChars s.toList with
    | some n => .ok n
    | none   => .error "invalid IP address syntax"
  parse_display n := by simp [Ipv4Net.parseChars_display]
