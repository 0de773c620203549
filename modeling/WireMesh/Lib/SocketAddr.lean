import WireMesh.Lib.Text

-- The standard library's readers of IPv4 addresses and socket addresses.
namespace Text

-- Of at most three digits, with no zero in front of others.
def parseOctet (s : List Char) : Option Nat :=
  match s with
  | '0' :: _ :: _ => none
  | _             => if s.length ≤ 3 then (parseDigits s).filter fun n => decide (n < 256) else none

def parseIpv4Addr (s : List Char) : Option (BitVec 32) := do
  let (a, rest) ← splitOnce '.' s
  let (b, rest) ← splitOnce '.' rest
  let (c, d) ← splitOnce '.' rest
  let a ← parseOctet a
  let b ← parseOctet b
  let c ← parseOctet c
  let d ← parseOctet d
  return BitVec.ofNat 32 (((a * 256 + b) * 256 + c) * 256 + d)

-- The port may have zeros in front.
def parseSocketAddrV4 (s : List Char) : Option (BitVec 32 × BitVec 16) := do
  let (ip, port) ← splitOnce ':' s
  let ip ← parseIpv4Addr ip
  let port ← (parseDigits port).filter fun n => decide (n < 2 ^ 16)
  return (ip, BitVec.ofNat 16 port)

example : parseSocketAddrV4 "203.0.113.7:0051820".toList = some (0xcb007107#32, 51820#16) := by decide

-- How an address and a port are printed.
def ipv4Chars (ip : BitVec 32) : List Char :=
  let octet (n : Nat) := Nat.toDigits 10 (n % 256)
  octet (ip.toNat / 2 ^ 24) ++ '.' :: (octet (ip.toNat / 2 ^ 16) ++ '.' ::
    (octet (ip.toNat / 2 ^ 8) ++ '.' :: octet ip.toNat))

def socketAddrV4Chars (ip : BitVec 32) (port : Nat) : List Char :=
  ipv4Chars ip ++ ':' :: Nat.toDigits 10 port

theorem parseOctet_toDigits : ∀ n < 256, parseOctet (Nat.toDigits 10 n) = some n := by
  decide +kernel

theorem parseIpv4Addr_ipv4Chars (ip : BitVec 32) : parseIpv4Addr (ipv4Chars ip) = some ip := by
  have dot (n : Nat) : '.' ∉ Nat.toDigits 10 n := not_mem_toDigits rfl
  have octet (n : Nat) : parseOctet (Nat.toDigits 10 (n % 256)) = some (n % 256) :=
    parseOctet_toDigits _ (Nat.mod_lt n (by decide))
  have value : ((ip.toNat / 2 ^ 24 % 256 * 256 + ip.toNat / 2 ^ 16 % 256) * 256 +
      ip.toNat / 2 ^ 8 % 256) * 256 + ip.toNat % 256 = ip.toNat := by
    have := ip.isLt
    omega
  simp only [parseIpv4Addr, ipv4Chars, splitOnce_append (dot _), octet, Option.bind_eq_bind,
    Option.bind_some, Option.pure_def, value, BitVec.ofNat_toNat, BitVec.setWidth_eq]

theorem parseSocketAddrV4_chars (ip : BitVec 32) (hp : port < 2 ^ 16) :
    parseSocketAddrV4 (socketAddrV4Chars ip port) = some (ip, BitVec.ofNat 16 port) := by
  have colon : ':' ∉ ipv4Chars ip := by
    have digits (n : Nat) : ':' ∉ Nat.toDigits 10 n := not_mem_toDigits rfl
    simp [ipv4Chars, digits]
  have hp : port < 65536 := hp
  simp [parseSocketAddrV4, socketAddrV4Chars, splitOnce_append colon, parseIpv4Addr_ipv4Chars,
    parseDigits_toDigits, Option.filter, hp]

end Text
