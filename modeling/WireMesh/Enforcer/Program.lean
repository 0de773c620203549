import WireMesh.Enforcer.Kernel

-- The two classifiers that the kernel runs on a packet.
namespace Enforcer

open Policy Kernel

def cfgOrDefault (idx default : Nat) : Kernel Nat := do
  let v := (← config idx).getD 0
  return if v = 0 then default else v

def timeoutNs (proto : BitVec 8) : Kernel Nat :=
  if proto = 6 then cfgOrDefault CFG_TCP_NS DEFAULT_TCP_NS
  else if proto = 1 then cfgOrDefault CFG_ICMP_NS DEFAULT_ICMP_NS
  else cfgOrDefault CFG_UDP_NS DEFAULT_UDP_NS

def rateCap : Kernel Nat := do
  return (← cfgOrDefault CFG_RATE_CAP DEFAULT_RATE_CAP) % 2 ^ 32

-- A fresh entry is a hit. A stale one is removed and missed.
def flowHit (key : FlowKey) (proto : BitVec 8) (now : Nat) (refresh : Bool) : Kernel Bool := do
  match ← flowGet key with
  | none => return false
  | some v =>
    if now - v.lastSeenNs > (← timeoutNs proto) then
      flowRemove key
      return false
    else
      if refresh then flowWrite key ⟨now⟩
      return true

def saturatingSucc (n : Nat) : Nat :=
  min (n + 1) (2 ^ 32 - 1)

-- Whether the source may record one more new flow in its window of a second.
def rateAllows (src : BitVec 32) (now : Nat) : Kernel Bool := do
  let cap ← rateCap
  match ← rateGet src with
  | none =>
    rateInsert src ⟨now, 1⟩
    return true
  | some v =>
    if now - v.windowStartNs > RATE_WINDOW_NS then
      rateWrite src ⟨now, 1⟩
      return true
    else if v.count < cap then
      rateWrite src { v with count := saturatingSucc v.count }
      return true
    else
      return false

def budgetWouldAllow (b : Budget) (idx cap now : Nat) : Kernel Bool := do
  match ← budgetGet b idx with
  | none   => return false
  | some v => return if now - v.windowStartNs > RATE_WINDOW_NS then true else decide (v.count < cap)

def budgetCommit (b : Budget) (idx now : Nat) : Kernel Unit := do
  match ← budgetGet b idx with
  | none   => return ()
  | some v =>
    if now - v.windowStartNs > RATE_WINDOW_NS
    then budgetWrite b idx ⟨now, 1⟩
    else budgetWrite b idx { v with count := saturatingSucc v.count }

-- Both budgets are looked at before either is charged.
def logAllows (ruleIdx now : Nat) : Kernel Bool := do
  let perRuleCap := (← cfgOrDefault CFG_LOG_PER_RULE DEFAULT_LOG_PER_RULE) % 2 ^ 32
  if !(← budgetWouldAllow .rule ruleIdx perRuleCap now) then
    return false
  else
    let aggCap := (← cfgOrDefault CFG_LOG_AGGREGATE DEFAULT_LOG_AGGREGATE) % 2 ^ 32
    if !(← budgetWouldAllow .aggregate 0 aggCap now) then
      return false
    else
      budgetCommit .rule ruleIdx now
      budgetCommit .aggregate 0 now
      return true

def maybeEmitDeny (ev : DenyEventRaw) (now : Nat) : Kernel Unit := do
  if ← logAllows ev.ruleIdx now then output ev

abbrev TcContext := List (BitVec 8)

namespace TcContext

-- Loads keep the order of the bytes in memory, so a multi-byte word comes out little-endian.
def loadU8 (ctx : TcContext) (off : Nat) : Option (BitVec 8) :=
  ctx[off]?

def loadU16 (ctx : TcContext) (off : Nat) : Option (BitVec 16) := do
  let b₀ ← ctx[off]?
  let b₁ ← ctx[off + 1]?
  return b₁ ++ b₀

def loadU32 (ctx : TcContext) (off : Nat) : Option (BitVec 32) := do
  let b₀ ← ctx[off]?
  let b₁ ← ctx[off + 1]?
  let b₂ ← ctx[off + 2]?
  let b₃ ← ctx[off + 3]?
  return b₃ ++ b₂ ++ b₁ ++ b₀

end TcContext

structure Ipv4Header where
  src : BitVec 32
  dst : BitVec 32
  proto : BitVec 8
  ihl : Nat
deriving DecidableEq

def ipv4At (ctx : TcContext) : Option Ipv4Header := do
  let vihl ← ctx.loadU8 0
  if vihl >>> 4 ≠ 4 then none
  let ihl := (vihl &&& 0x0f).toNat * 4
  let proto ← ctx.loadU8 9
  let src ← ctx.loadU32 12
  let dst ← ctx.loadU32 16
  return { src, dst, proto, ihl }

-- Of icmp only the identifier of an echo is taken, in the place of the source port.
def portsAt (ctx : TcContext) (off : Nat) (proto : BitVec 8) : BitVec 16 × BitVec 16 :=
  if proto = 6 ∨ proto = 17 then ((ctx.loadU16 off).getD 0, (ctx.loadU16 (off + 2)).getD 0)
  else if proto = 1 then ((ctx.loadU16 (off + 4)).getD 0, 0)
  else (0, 0)

def metaMatches (m : RuleMeta) (proto : BitVec 8) (dport : BitVec 16) : Bool :=
  let protoMatches :=
    if m.proto = 0 then decide (proto = 1 ∨ proto = 6 ∨ proto = 17)
    else decide (m.proto = proto.setWidth 32)
  let p := fromBe16 dport
  protoMatches && (decide (m.portHi = 0) || (decide (m.portLo ≤ p) && decide (p ≤ m.portHi)))

def trieBits (trie : Option Trie) (key : BitVec 64) : RuleBits :=
  (trie.bind (·.lookup keyBit key)).getD .zero

def scanLoop (slot : Nat) (bits : RuleBits) (len : Nat) (proto : BitVec 8) (dport : BitVec 16) :
    List Nat → Kernel (Option (Nat × RuleMeta))
  | []      => return none
  | i :: is =>
    if i ≥ len then
      return none
    else if !bitGet bits i then
      scanLoop slot bits len proto dport is
    else do
      match (← genRules slot).bind (·.get i) with
      | none   => return none
      | some m => if metaMatches m proto dport then return some (i, m)
                  else scanLoop slot bits len proto dport is

-- The reads of the verdict path. The index of the active generation is read once, and every later
-- read goes to the slot it names.
def scanRules (src dst : BitVec 32) (proto : BitVec 8) (dport : BitVec 16) :
    Kernel (Option (Nat × RuleMeta)) := do
  let slot := (← active).getD 0
  let srcBits := trieBits (← genSrc slot) (src.setWidth 64)
  let dstBits := trieBits (← genDst slot) (dst.setWidth 64)
  let len := min (((← genMeta slot).bind (·.get 0)).getD 0) MAX_RULES
  scanLoop slot (bitAnd srcBits dstBits) len proto dport (List.range MAX_RULES)

def scanGeneration (src dst : BitVec 32) (proto : BitVec 8) (dport : BitVec 16) (now : Nat) :
    Kernel (BitVec 32) := do
  match ← scanRules src dst proto dport with
  | some (i, m) =>
    bump i
    if m.action = ACT_DENY then
      maybeEmitDeny { src, dst, proto, dport, ruleIdx := i } now
    return m.action
  | none =>
    bump CTR_DEFAULT_DENY
    maybeEmitDeny { src, dst, proto, dport, ruleIdx := CTR_DEFAULT_DENY } now
    return ACT_DENY

inductive TcAction
  | pipe
  | shot
deriving DecidableEq

def forwardKey (ctx : TcContext) (h : Ipv4Header) : FlowKey :=
  let (sport, dport) := portsAt ctx h.ihl h.proto
  { src := h.src, dst := h.dst, sport, dport, proto := h.proto }

-- The echo identifier of icmp is the same in both directions, ports change places.
def reverseKey (ctx : TcContext) (h : Ipv4Header) : FlowKey :=
  let (sport, dport) := portsAt ctx h.ihl h.proto
  if h.proto = 1
  then { src := h.dst, dst := h.src, sport, dport, proto := h.proto }
  else { src := h.dst, dst := h.src, sport := dport, dport := sport, proto := h.proto }

-- The key of the packet that an icmp error is about. The outer layer is a failed load.
def embeddedKey (ctx : TcContext) (h : Ipv4Header) : Option (Option FlowKey) :=
  if h.proto = 1 then do
    let itype ← ctx.loadU8 h.ihl
    if itype = 3 ∨ itype = 11 ∨ itype = 12 then
      let eoff := h.ihl + 8
      let evihl ← ctx.loadU8 eoff
      if evihl >>> 4 = 4 then
        let eihl := (evihl &&& 0x0f).toNat * 4
        let proto ← ctx.loadU8 (eoff + 9)
        let src ← ctx.loadU32 (eoff + 12)
        let dst ← ctx.loadU32 (eoff + 16)
        let sport := (ctx.loadU16 (eoff + eihl)).getD 0
        let dport := (ctx.loadU16 (eoff + eihl + 2)).getD 0
        return some { src, dst, sport, dport, proto }
      else
        return none
    else
      return none
  else
    return none

def ingressHit : Kernel (Option TcAction) := do
  bump CTR_FLOW_HIT
  return some .pipe

def ingressRules (fwd : FlowKey) (now : Nat) : Kernel (Option TcAction) := do
  if (← scanGeneration fwd.src fwd.dst fwd.proto fwd.dport now) = ACT_ALLOW then
    flowInsert fwd ⟨now⟩
    return some .pipe
  else
    return some .shot

def tryIngress (ctx : TcContext) (now : Nat) : Kernel (Option TcAction) :=
  match ipv4At ctx with
  | none   => return none
  | some h => do
    if ← flowHit (reverseKey ctx h) h.proto now true then ingressHit
    else if ← flowHit (forwardKey ctx h) h.proto now true then ingressHit
    else match embeddedKey ctx h with
      | none             => return none
      | some none        => ingressRules (forwardKey ctx h) now
      | some (some ekey) =>
        if ← flowHit ekey ekey.proto now false then ingressHit
        else ingressRules (forwardKey ctx h) now

def aethIngress (ctx : TcContext) (now : Nat) : Kernel TcAction := do
  match ← tryIngress ctx now with
  | some verdict => return verdict
  | none         => return .shot

-- Recording only. A packet on its way out is never held back.
def tryEgress (ctx : TcContext) (now : Nat) : Kernel (Option Unit) :=
  match ipv4At ctx with
  | none   => return none
  | some h => do
    let key := forwardKey ctx h
    match ← flowGet key with
    | none =>
      if ← rateAllows h.src now then flowInsert key ⟨now⟩
    | some v =>
      if now - v.lastSeenNs > (← timeoutNs h.proto) then
        flowRemove key
        if ← rateAllows h.src now then flowInsert key ⟨now⟩
      else
        flowWrite key ⟨now⟩
    return some ()

def aethEgress (ctx : TcContext) (now : Nat) : Kernel TcAction := do
  let _ ← tryEgress ctx now
  return .pipe

end Enforcer
