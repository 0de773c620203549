import WireMesh.Enforcer.Theorems.System

-- What becomes of an icmp error about a packet that was let out.
namespace Enforcer

open Policy Kernel

section Bytes

variable {pkt err : TcContext} {hd : Ipv4Header}

-- The bytes that a header has been read from.
structure Ipv4Header.ReadFrom (pkt : TcContext) (hd : Ipv4Header) : Prop where
  version : ∃ vihl, pkt.loadU8 0 = some vihl ∧ vihl >>> 4 = 4 ∧ hd.ihl = (vihl &&& 0x0f).toNat * 4
  proto   : pkt.loadU8 9 = some hd.proto
  src     : pkt.loadU32 12 = some hd.src
  dst     : pkt.loadU32 16 = some hd.dst

theorem ipv4At_eq_some : ipv4At pkt = some hd ↔ hd.ReadFrom pkt := by
  refine ⟨fun h => ?_, fun ⟨⟨vihl, hv, hv4, hihl⟩, hproto, hsrc, hdst⟩ => ?_⟩
  case refine_1 =>
    have ⟨vihl, hv, h⟩ := Option.bind_eq_some_iff.mp h
    split at h
    case isTrue => cases h
    case isFalse hv4 =>
      have ⟨proto, hproto, h⟩ := Option.bind_eq_some_iff.mp h
      have ⟨src, hsrc, h⟩ := Option.bind_eq_some_iff.mp h
      have ⟨dst, hdst, h⟩ := Option.bind_eq_some_iff.mp h
      cases h
      exact ⟨⟨vihl, hv, not_not.mp hv4, rfl⟩, hproto, hsrc, hdst⟩
  case refine_2 =>
    simp only [ipv4At, hv, hproto, hsrc, hdst, Option.bind_eq_bind, Option.bind_some, hv4, ne_eq,
      not_true_eq_false, if_false, ← hihl]
    rfl

-- The copy of a packet in the payload of another one.
theorem getElem?_copied (h : pkt.take n <+: err.drop k) (hn : n ≤ pkt.length) (hi : i < n) :
    err[k + i]? = pkt[i]? := by
  have hl : i < (pkt.take n).length := by simp; omega
  have hp := (List.prefix_iff_getElem?.mp h) i hl
  rw [List.getElem?_drop] at hp
  rw [hp, List.getElem_take, List.getElem?_eq_getElem]

theorem loadU8_copied (h : pkt.take n <+: err.drop k) (hn : n ≤ pkt.length) (hi : i < n) :
    err.loadU8 (k + i) = pkt.loadU8 i :=
  getElem?_copied h hn hi

theorem loadU16_copied (h : pkt.take n <+: err.drop k) (hn : n ≤ pkt.length) (hi : i + 1 < n) :
    err.loadU16 (k + i) = pkt.loadU16 i := by
  simp only [TcContext.loadU16, Nat.add_assoc, getElem?_copied h hn (i := i) (by omega),
    getElem?_copied h hn (i := i + 1) hi]

theorem loadU32_copied (h : pkt.take n <+: err.drop k) (hn : n ≤ pkt.length) (hi : i + 3 < n) :
    err.loadU32 (k + i) = pkt.loadU32 i := by
  have at_ {j} (hj : j ≤ 3) := getElem?_copied h hn (i := i + j) (by omega)
  simp only [TcContext.loadU32, Nat.add_assoc, at_ (show 1 ≤ 3 by decide), at_ (show 2 ≤ 3 by decide),
    at_ (Nat.le_refl 3), getElem?_copied h hn (i := i) (by omega)]

-- A packet with a whole header and at least eight bytes after it.
structure Ipv4Header.Whole (pkt : TcContext) (hd : Ipv4Header) : Prop where
  at_    : ipv4At pkt = some hd
  header : 20 ≤ hd.ihl
  body   : hd.ihl + 8 ≤ pkt.length

-- The payload of an icmp error is the header of the packet and at least eight bytes that follow it.
structure ErrorAbout (pkt : TcContext) (hd : Ipv4Header) (err : TcContext) (outer : Ipv4Header) :
    Prop where
  at_    : ipv4At err = some outer
  icmp   : outer.proto = 1
  type   : ∃ ty, err.loadU8 outer.ihl = some ty ∧ (ty = 3 ∨ ty = 11 ∨ ty = 12)
  copied : pkt.take (hd.ihl + 8) <+: err.drop (outer.ihl + 8)

-- The first four bytes after the header, in the place of ports.
def leadingPorts (pkt : TcContext) (hd : Ipv4Header) : BitVec 16 × BitVec 16 :=
  ((pkt.loadU16 hd.ihl).getD 0, (pkt.loadU16 (hd.ihl + 2)).getD 0)

def leadingKey (pkt : TcContext) (hd : Ipv4Header) : FlowKey :=
  { src := hd.src, dst := hd.dst, sport := (leadingPorts pkt hd).1, dport := (leadingPorts pkt hd).2
    proto := hd.proto }

theorem ErrorAbout.embeddedKey (h : ErrorAbout pkt hd err outer) (hw : hd.Whole pkt) :
    embeddedKey err outer = some (some (leadingKey pkt hd)) := by
  have ⟨⟨vihl, hv, hv4, hihl⟩, hproto, hsrc, hdst⟩ := ipv4At_eq_some.mp hw.at_
  have ⟨ty, hty, ht⟩ := h.type
  have hb := hw.body
  have hh := hw.header
  have e₀ := loadU8_copied h.copied hb (i := 0) (by omega)
  have e₉ := loadU8_copied h.copied hb (i := 9) (by omega)
  have e₁₂ := loadU32_copied h.copied hb (i := 12) (by omega)
  have e₁₆ := loadU32_copied h.copied hb (i := 16) (by omega)
  have es := loadU16_copied h.copied hb (i := hd.ihl) (by omega)
  have ed := loadU16_copied h.copied hb (i := hd.ihl + 2) (by omega)
  rw [Nat.add_zero, hv] at e₀
  rw [hproto] at e₉
  rw [hsrc] at e₁₂
  rw [hdst] at e₁₆
  rw [← Nat.add_assoc] at ed
  simp only [Enforcer.embeddedKey, h.icmp, if_true, hty, Option.bind_eq_bind, Option.bind_some, ht, e₀,
    hv4, e₉, e₁₂, e₁₆, ← hihl, es, ed]
  rfl

end Bytes

section Steps

variable {m : Maps} {k : FlowKey} {now : Nat}

theorem allows_of_rate_none (h : m.rate src = none) : (run (rateAllows src now) m).1 = true := by
  have cap : (run rateCap m).2 = m := by simp only [rateCap, run_bind, run_cfgOrDefault, run_pure]
  rw [rateAllows, run_bind, run_bind, cap, show run (rateGet src) m = (none, m) from h ▸ rfl]
  rfl

-- A packet on its way out touches its own flow only. A flow that is fresh is seen again, and a source
-- without any flow so far gets the new one.
theorem flows_aethEgress (m : Maps) (now : Nat) (hp : ipv4At ctx = some h) :
    ∃ f, (run (aethEgress ctx now) m).2.flows = Function.update m.flows (forwardKey ctx h) f ∧
      (m.fresh (forwardKey ctx h) now ∨ m.rate h.src = none → f = some ⟨now⟩) := by
  have insert (m₁ : Maps) (f : Option FlowVal)
      (hm : m₁.flows = Function.update m.flows (forwardKey ctx h) f) (hr : m₁.rate = m.rate)
      (hn : m.fresh (forwardKey ctx h) now = false) :
      ∃ f, (if (run (rateAllows h.src now) m₁).1 = true
          then (run (flowInsert (forwardKey ctx h) ⟨now⟩) (run (rateAllows h.src now) m₁).2).2
          else (run (rateAllows h.src now) m₁).2).flows =
            Function.update m.flows (forwardKey ctx h) f ∧
        (m.fresh (forwardKey ctx h) now ∨ m.rate h.src = none → f = some ⟨now⟩) := by
    have ⟨rate, he⟩ := run_rateAllows m₁ h.src now
    split
    case isTrue => exact ⟨some ⟨now⟩, by rw [he]; simp [Maps.setFlow, hm], fun _ => rfl⟩
    case isFalse hd =>
      refine ⟨f, by rw [he]; exact hm, fun hc => ?_⟩
      rw [hn] at hc
      exact absurd (allows_of_rate_none (hr ▸ hc.resolve_left nofun)) hd
  rw [aethEgress, run_bind, run_pure, tryEgress, hp]
  simp only [run_bind, run_flowGet]
  cases hk : m.flows (forwardKey ctx h)
  case none =>
    simp only [run_bind, run_ite, run_pure, apply_ite Prod.snd]
    exact insert m none (by rw [← hk, Function.update_eq_self]) rfl (by rw [Maps.fresh, hk]; rfl)
  case some v =>
    simp only [run_bind, run_timeoutNs, run_ite, run_flowRemove, run_pure, apply_ite Prod.snd]
    split
    case isTrue hs =>
      refine insert (m.setFlow (forwardKey ctx h) none) none rfl rfl ?_
      rw [Maps.fresh, hk, Option.any_some, forwardKey_proto]
      exact decide_eq_false (by omega)
    case isFalse =>
      rw [run_flowWrite m hk]
      exact ⟨some ⟨now⟩, rfl, fun _ => rfl⟩

theorem flows_aethEgress_of_fresh (ctx : TcContext) (hf : m.fresh k now) :
    let m' := (run (aethEgress ctx now) m).2
    m'.flows k = m.flows k ∨ m'.flows k = some ⟨now⟩ := by
  cases hp : ipv4At ctx
  case none =>
    rw [aethEgress, run_bind, run_pure, tryEgress, hp]
    exact .inl rfl
  case some h =>
    obtain ⟨f, hm, hfr⟩ := flows_aethEgress m now hp
    dsimp only
    rw [hm]
    by_cases hk : k = forwardKey ctx h
    case pos => exact .inr (by rw [hk, Function.update_self, hfr (.inl (hk ▸ hf))])
    case neg => exact .inl (Function.update_of_ne hk ..)

theorem flows_aethIngress_of_fresh (ctx : TcContext) (hf : m.fresh k now) :
    let m' := (run (aethIngress ctx now) m).2
    m'.flows k = m.flows k ∨ m'.flows k = some ⟨now⟩ := by
  have ⟨m₁, ⟨flows, hflows, hm₁⟩, hl⟩ := run_aethIngress m ctx now
  have h₁ : m₁.flows k = m.flows k := by
    rw [hm₁]
    obtain h | ⟨_, hn⟩ := hflows k
    case inl => exact h
    case inr => rw [hf] at hn; cases hn
  exact (hl.flows k).imp (·.trans h₁) (·.1)

theorem passes_of_fresh (he : embeddedKey ctx hd = some (some k)) (hip : ipv4At ctx = some hd)
    (hf : m.fresh k now) : (run (aethIngress ctx now) m).1 = .pipe := by
  have ⟨m₁, _, hl⟩ := run_aethIngress m ctx now
  have ⟨key, refresh, hpath⟩ : ∃ key refresh, ingressPath m ctx now = .flow key refresh := by
    simp only [ingressPath, hip, he, hf, if_true]
    split_ifs
    all_goals exact ⟨_, _, rfl⟩
  rw [hpath] at hl
  generalize run (aethIngress ctx now) m = r at hl
  obtain ⟨a, m'⟩ := r
  cases hl
  rfl

theorem Leads.config (h : Leads now path m a m') : m'.config = m.config := by
  cases h
  case malformed  => rfl
  case flow r _   => cases r <;> rfl
  case allow _ hl => have ⟨_, _, _, he⟩ := hl; subst he; rfl
  case deny hl    => have ⟨_, _, _, he⟩ := hl; subst he; rfl

end Steps

namespace Gateway

variable {g g' : Gateway} {k : FlowKey} {t now : Nat}

-- A flow that has been seen at `t` or later stays in the map up to `now`, as long as its timeout
-- reaches that far.
structure Kept (k : FlowKey) (t idle now : Nat) (g : Gateway) : Prop where
  clock   : t ≤ g.clock
  timeout : g.maps.timeout k.proto = idle
  seen    : g.clock ≤ now → ∃ v, g.maps.flows k = some v ∧ t ≤ v.lastSeenNs

theorem Kept.fresh (h : Kept k t idle now g) (hc : g.clock ≤ now) (hn : now' ≤ now)
    (ht : now - t ≤ idle) : g.maps.fresh k now' := by
  have ⟨v, hv, hle⟩ := h.seen hc
  simp only [Maps.fresh, hv, Option.any_some, decide_eq_true_eq, h.timeout]
  omega

theorem step_config [Ipnet] (hs : Step g e g') : g'.maps.config = g.maps.config := by
  cases hs
  case flush => rfl
  case evict => rfl
  case ingress now' ctx _ =>
    have ⟨m₁, ⟨_, _, hm₁⟩, hl⟩ := run_aethIngress g.maps ctx now'
    exact hl.config.trans (by rw [hm₁])
  case egress now' ctx _ =>
    have ⟨_, _, _, hm, _⟩ := run_aethEgress g.maps ctx now'
    rw [hm]
  case prepare c a m hfl hcap hr =>
    have ⟨gen, _, hp⟩ := run_prepareGeneration c g.maps (flatten_numbered hfl) hcap
    cases hp.symm.trans hr
    rfl
  case commit now' flat a gen' m hn hp hr =>
    have hc := run_commitGeneration now' flat a g.gen g.maps
    rw [hr] at hc
    exact hc.config

theorem run_config_eq [Ipnet] (r : Run Step g h g') : g'.maps.config = g.maps.config := by
  induction r
  case start      => rfl
  case step hs ih => exact (step_config hs).trans ih

theorem Kept.packet {m : Maps} (h : Kept k t idle now g) (hc : g.clock ≤ now')
    (ht : now - t ≤ idle) (hcfg : m.config = g.maps.config)
    (hflows : g.maps.fresh k now' → m.flows k = g.maps.flows k ∨ m.flows k = some ⟨now'⟩) :
    Kept k t idle now { g with maps := m, clock := now' } := by
  refine ⟨h.clock.trans hc, (Maps.timeout_congr hcfg).trans h.timeout, fun hn => ?_⟩
  obtain hk | hk := hflows (h.fresh (Nat.le_trans hc hn) hn ht)
  case inl =>
    have ⟨v, hv, hle⟩ := h.seen (Nat.le_trans hc hn)
    exact ⟨v, hk.trans hv, hle⟩
  case inr => exact ⟨⟨now'⟩, hk, h.clock.trans hc⟩

theorem Kept.step [Ipnet] (h : Kept k t idle now g) (ht : now - t ≤ idle) (hs : Step g e g')
    (hf : e ≠ .flush) (he : e ≠ .evict) : Kept k t idle now g' := by
  have hcfg := step_config hs
  cases hs
  case flush              => exact absurd rfl hf
  case evict              => exact absurd rfl he
  case ingress now' ctx hc => exact h.packet hc ht hcfg (flows_aethIngress_of_fresh ctx)
  case egress now' ctx hc  => exact h.packet hc ht hcfg (flows_aethEgress_of_fresh ctx)
  case prepare c a m hfl hcap hr =>
    have ⟨gen, _, hp⟩ := run_prepareGeneration c g.maps (flatten_numbered hfl) hcap
    cases hp.symm.trans hr
    exact ⟨h.clock, (Maps.timeout_congr hcfg).trans h.timeout, h.seen⟩
  case commit now' flat a gen' m hn hp hr =>
    have hc := run_commitGeneration now' flat a g.gen g.maps
    rw [hr] at hc
    refine ⟨h.clock.trans hn, (Maps.timeout_congr hcfg).trans h.timeout, fun hle => ?_⟩
    rw [hc.flows]
    exact h.seen (hn.trans hle)

theorem Kept.run [Ipnet] (h : Kept k t idle now g) (ht : now - t ≤ idle)
    (r : Run Step g hist g') (calm : ∀ e ∈ hist, e.2 ≠ .flush ∧ e.2 ≠ .evict) :
    Kept k t idle now g' := by
  induction r
  case start => exact h
  case step hs ih =>
    have ⟨⟨hf, he⟩, calm⟩ := List.forall_mem_cons.mp calm
    exact (ih calm).step ht hs hf he

-- An error about the packet passes, at any time within the timeout after the packet was recorded.
def ErrorsPass [Ipnet] (pkt : TcContext) (hd : Ipv4Header) : Prop :=
  ∀ {config h₀ g t g₁ h₁ g₂ err outer now}, Run Step (start config) h₀ g →
    Step g (.egress pkt t) g₁ → g₁.maps.flows (forwardKey pkt hd) = some ⟨t⟩ →
    Run Step g₁ h₁ g₂ → (∀ e ∈ h₁, e.2 ≠ .flush ∧ e.2 ≠ .evict) → ErrorAbout pkt hd err outer →
    g₂.clock ≤ now → now - t ≤ g₂.maps.timeout hd.proto →
    (Kernel.run (aethIngress err now) g₂.maps).1 = .pipe

theorem errorsPass_of_key_eq [Ipnet] (hw : hd.Whole pkt)
    (hk : forwardKey pkt hd = leadingKey pkt hd) : ErrorsPass pkt hd := by
  intro config h₀ g t g₁ h₁ g₂ err outer now _ sent recorded r calm about hc ht
  have hclock : g₁.clock = t := by cases sent; rfl
  have kept : Kept (forwardKey pkt hd) t (g₁.maps.timeout hd.proto) now g₁ :=
    ⟨hclock.ge, rfl, fun _ => ⟨⟨t⟩, recorded, Nat.le_refl t⟩⟩
  rw [Maps.timeout_congr (run_config_eq r)] at ht
  have fresh := (kept.run ht r calm).fresh hc (Nat.le_refl now) ht
  exact passes_of_fresh (about.embeddedKey hw) about.at_ (hk ▸ fresh)

end Gateway

-- What is recorded as ports stands where an error is read for ports.
def PortsShown (pkt : TcContext) (hd : Ipv4Header) : Prop :=
  hd.proto = 6 ∨ hd.proto = 17 ∨
  (hd.proto = 1 ∧ pkt.loadU16 hd.ihl = pkt.loadU16 (hd.ihl + 4) ∧
    pkt.loadU16 (hd.ihl + 2) = some 0) ∨
  (hd.proto ≠ 1 ∧ pkt.loadU16 hd.ihl = some 0 ∧ pkt.loadU16 (hd.ihl + 2) = some 0)

theorem loadU16_isSome {pkt : TcContext} (h : off + 2 ≤ pkt.length) :
    ∃ w, pkt.loadU16 off = some w := by
  simp only [TcContext.loadU16]
  rw [List.getElem?_eq_getElem (by omega), List.getElem?_eq_getElem (by omega)]
  exact ⟨_, rfl⟩

theorem key_eq_iff (hw : hd.Whole pkt) :
    forwardKey pkt hd = leadingKey pkt hd ↔ PortsShown pkt hd := by
  have hb := hw.body
  have ⟨s, hs⟩ : ∃ w, pkt.loadU16 hd.ihl = some w := loadU16_isSome (by omega)
  have ⟨d, hd'⟩ : ∃ w, pkt.loadU16 (hd.ihl + 2) = some w := loadU16_isSome (by omega)
  have ⟨i, hi⟩ : ∃ w, pkt.loadU16 (hd.ihl + 4) = some w := loadU16_isSome (by omega)
  have hports : forwardKey pkt hd = leadingKey pkt hd ↔
      portsAt pkt hd.ihl hd.proto = leadingPorts pkt hd := by
    simp [forwardKey, leadingKey, Prod.ext_iff]
  rw [hports]
  simp only [portsAt, leadingPorts, PortsShown, hs, hd', hi, Option.getD_some, Option.some.injEq]
  by_cases h₆ : hd.proto = 6 ∨ hd.proto = 17
  case pos => simp only [if_pos h₆, true_iff]; tauto
  case neg =>
    rw [if_neg h₆]
    by_cases h₁ : hd.proto = 1
    case pos =>
      rw [if_pos h₁, Prod.mk.injEq]
      grind
    case neg =>
      rw [if_neg h₁, Prod.mk.injEq]
      grind

-- An error from a router on the way, with the whole packet in its payload.
def unreachableFor (pkt : TcContext) : TcContext :=
  let b (i : Nat) := pkt.getD i 0
  [0x45, 0, 0, 0, 0, 0, 0, 0, 64, 1, 0, 0, ~~~b 16, b 17, b 18, b 19, b 12, b 13, b 14, b 15,
    3, 0, 0, 0, 0, 0, 0, 0] ++ pkt

def routerHeader (pkt : TcContext) : Ipv4Header :=
  let b (i : Nat) := pkt.getD i 0
  { src := b 19 ++ b 18 ++ b 17 ++ ~~~b 16, dst := b 15 ++ b 14 ++ b 13 ++ b 12, proto := 1, ihl := 20 }

theorem ipv4At_unreachableFor (pkt : TcContext) :
    ipv4At (unreachableFor pkt) = some (routerHeader pkt) :=
  rfl

theorem errorAbout_unreachableFor (pkt : TcContext) (hd : Ipv4Header) :
    ErrorAbout pkt hd (unreachableFor pkt) (routerHeader pkt) where
  at_    := ipv4At_unreachableFor pkt
  icmp   := rfl
  type   := ⟨3, rfl, .inl rfl⟩
  copied := List.take_prefix _ pkt

theorem loadU32_eq_getD {pkt : TcContext} (h : pkt.loadU32 i = some w) :
    w = pkt.getD (i + 3) 0 ++ pkt.getD (i + 2) 0 ++ pkt.getD (i + 1) 0 ++ pkt.getD i 0 := by
  simp only [TcContext.loadU32, Option.bind_eq_bind, Option.bind_eq_some_iff] at h
  have ⟨b₀, h₀, b₁, h₁, b₂, h₂, b₃, h₃, hw⟩ := h
  cases hw
  simp [List.getD, h₀, h₁, h₂, h₃]

-- The router is neither end of the flow, so the error is not on the flow itself.
theorem router_keys_ne (hw : hd.Whole pkt) :
    reverseKey (unreachableFor pkt) (routerHeader pkt) ≠ forwardKey pkt hd ∧
    forwardKey (unreachableFor pkt) (routerHeader pkt) ≠ forwardKey pkt hd := by
  have ⟨_, _, hsrc, hdst⟩ := ipv4At_eq_some.mp hw.at_
  have hsrc : hd.src = (routerHeader pkt).dst := loadU32_eq_getD hsrc
  have hdst : hd.dst ≠ (routerHeader pkt).src := by
    rw [loadU32_eq_getD hdst, routerHeader]
    intro he
    have hb := congrArg (BitVec.extractLsb' 0 8) he
    rw [BitVec.extractLsb'_append_eq_right, BitVec.extractLsb'_append_eq_right] at hb
    have hn := congrArg BitVec.toNat hb
    rw [BitVec.toNat_not] at hn
    dsimp only at hn
    omega
  refine ⟨fun he => hdst ?_, fun he => hdst ?_⟩
  case refine_1 => exact (congrArg FlowKey.dst he).symm
  case refine_2 =>
    have hs : (routerHeader pkt).src = hd.src := congrArg FlowKey.src he
    have hd' : (routerHeader pkt).dst = hd.dst := congrArg FlowKey.dst he
    rw [hs, hsrc, hd']

namespace Gateway

section

variable [Ipnet]

-- The gateway right after it has let the packet out as its first one.
def afterFirst (pkt : TcContext) : Gateway :=
  let g := start (.zeroed _ 0)
  { g with maps := (Kernel.run (aethEgress pkt 0) g.maps).2, clock := 0 }

theorem sent_first (pkt : TcContext) :
    Step (start (.zeroed _ 0)) (.egress pkt 0) (afterFirst pkt) :=
  .egress (Nat.le_refl 0)

omit [Ipnet] in
theorem flows_afterFirst (hw : hd.Whole pkt) (k : FlowKey) :
    (afterFirst pkt).maps.flows k = if k = forwardKey pkt hd then some ⟨0⟩ else none := by
  have ⟨f, hf, hn⟩ := flows_aethEgress (start (.zeroed _ 0)).maps 0 hw.at_
  have hm : (afterFirst pkt).maps.flows =
      Function.update (fun _ => none) (forwardKey pkt hd) (some ⟨0⟩) := by
    rw [← hn (.inr rfl)]
    exact hf
  rw [hm, Function.update_apply]

-- Without a rule that lets it in, an error passes only on a flow.
theorem shot_afterFirst (hw : hd.Whole pkt) (hk : forwardKey pkt hd ≠ leadingKey pkt hd) :
    (Kernel.run (aethIngress (unreachableFor pkt) 0) (afterFirst pkt).maps).1 = .shot := by
  obtain ⟨hrev, hfwd⟩ := router_keys_ne hw
  have stale {k} (h : k ≠ forwardKey pkt hd) : (afterFirst pkt).maps.fresh k 0 = false := by
    rw [Maps.fresh, flows_afterFirst hw, if_neg h]
    rfl
  have hpath : ingressPath (afterFirst pkt).maps (unreachableFor pkt) 0 =
      .rules (forwardKey (unreachableFor pkt) (routerHeader pkt)) := by
    simp only [ingressPath, ipv4At_unreachableFor, stale hrev, stale hfwd,
      (errorAbout_unreachableFor pkt hd).embeddedKey hw, stale (Ne.symm hk), Bool.false_eq_true,
      if_false]
  obtain ⟨m₁, ⟨_, _, hm₁⟩, hl⟩ := run_aethIngress (afterFirst pkt).maps (unreachableFor pkt) 0
  have hco : (afterFirst pkt).Coherent := .run (Run.start.step (sent_first pkt))
  have hpick (fwd : FlowKey) : m₁.picks fwd = none := by
    rw [hm₁]
    exact hco.serves fwd
  rw [hpath] at hl
  generalize Kernel.run (aethIngress (unreachableFor pkt) 0) (afterFirst pkt).maps = r at hl
  obtain ⟨a, m'⟩ := r
  cases hl
  case allow ha _ => rw [hpick] at ha; cases ha
  case deny       => rfl

-- An error passes if what was recorded as ports stands in the first four bytes after the header. That
-- is so for tcp and udp, and for other packets only by chance.
theorem errorsPass_iff (hw : hd.Whole pkt) : ErrorsPass pkt hd ↔ PortsShown pkt hd := by
  rw [← key_eq_iff hw]
  refine ⟨fun h => ?_, errorsPass_of_key_eq hw⟩
  by_contra hk
  have recorded : (afterFirst pkt).maps.flows (forwardKey pkt hd) = some ⟨0⟩ := by
    rw [flows_afterFirst hw, if_pos rfl]
  have passes := h .start (sent_first pkt) recorded .start nofun (errorAbout_unreachableFor pkt hd)
    (Nat.le_refl 0) (Nat.zero_le _)
  cases (shot_afterFirst hw hk).symm.trans passes

end

-- An echo request, and the answer of a router that it cannot be delivered.
def echoRequest : TcContext :=
  [0x45, 0, 0, 28, 0, 0, 0, 0, 64, 1, 0, 0, 192, 168, 0, 1, 10, 0, 0, 1, 8, 0, 0xf7, 0xfd, 0, 1, 0, 1]

def echoHeader : Ipv4Header :=
  { src := 0x0100a8c0, dst := 0x0100000a, proto := 1, ihl := 20 }

theorem echoRequest_whole : echoHeader.Whole echoRequest :=
  ⟨by decide, by decide, by decide⟩

theorem errorsPass_iff_echo : echoHeader.Whole echoRequest ∧ ¬ErrorsPass echoRequest echoHeader :=
  ⟨echoRequest_whole, fun h => absurd ((errorsPass_iff echoRequest_whole).mp h) (by
    unfold PortsShown
    decide)⟩

theorem error_about_echo_shot :
    ∃ (g₁ : Gateway) (err : TcContext) (outer : Ipv4Header),
      Step (start (.zeroed _ 0)) (.egress echoRequest 0) g₁ ∧
      g₁.maps.flows (forwardKey echoRequest echoHeader) = some ⟨0⟩ ∧
      ErrorAbout echoRequest echoHeader err outer ∧
      0 ≤ g₁.maps.timeout echoHeader.proto ∧
      (Kernel.run (aethIngress err 0) g₁.maps).1 = .shot :=
  ⟨afterFirst echoRequest, unreachableFor echoRequest, routerHeader echoRequest, sent_first _,
    by rw [flows_afterFirst echoRequest_whole, if_pos rfl], errorAbout_unreachableFor _ _,
    Nat.zero_le _, shot_afterFirst echoRequest_whole (by decide)⟩

end Gateway
end Enforcer
