import WireMesh.Enforcer.Theorems.System

-- Why a packet is let in, over a whole run.
namespace Enforcer.Gateway

open Policy

-- A rule of the active generation lets the packet in.
def AllowsByRule (g : Gateway) (fwd : FlowKey) : Prop :=
  ∃ f, g.policy.find? (·.ebpfSelects (packetOf fwd)) = some f ∧ f.action = .allow

-- A flow last seen at a certain time goes back, over packets each within the timeout of the one
-- before, to a packet on its way out or to one that a rule has let in, and there is no flush on the
-- way. The latest event comes first.
inductive Traces : List (Gateway × Event) → FlowKey → Nat → Prop
  | egress : ipv4At ctx = some hd → Traces ((g, .egress ctx now) :: h) (forwardKey ctx hd) now
  | allowed : ipv4At ctx = some hd → g.AllowsByRule (forwardKey ctx hd) →
      Traces ((g, .ingress ctx now) :: h) (forwardKey ctx hd) now
  | hit : Traces h k t → t ≤ now → now - t ≤ g.maps.timeout k.proto →
      ipv4At ctx = some hd → k = forwardKey ctx hd ∨ k = reverseKey ctx hd →
      Traces ((g, .ingress ctx now) :: h) k now
  | later : Traces h k t → e ≠ .flush → Traces ((g, e) :: h) k t

-- A live flow of the packet itself, of its reverse, or of the packet that an icmp error of type 3, 11
-- or 12 is about.
def FlowOf (ctx : TcContext) (hd : Ipv4Header) (k : FlowKey) : Prop :=
  k = forwardKey ctx hd ∨ k = reverseKey ctx hd ∨
    hd.proto = 1 ∧ (∃ ty, ctx.loadU8 hd.ihl = some ty ∧ (ty = 3 ∨ ty = 11 ∨ ty = 12)) ∧
      embeddedKey ctx hd = some (some k)

def Justified (h : List (Gateway × Event)) (g : Gateway) (ctx : TcContext) (now : Nat) : Prop :=
  ∃ hd, ipv4At ctx = some hd ∧
    (g.AllowsByRule (forwardKey ctx hd) ∨
      ∃ k t, FlowOf ctx hd k ∧ Traces h k t ∧ t ≤ now ∧ now - t ≤ g.maps.timeout k.proto)

theorem embeddedKey_types (h : embeddedKey ctx hd = some (some k)) :
    hd.proto = 1 ∧ ∃ ty, ctx.loadU8 hd.ihl = some ty ∧ (ty = 3 ∨ ty = 11 ∨ ty = 12) := by
  unfold embeddedKey at h
  split at h
  case isFalse => cases h
  case isTrue hp =>
    refine ⟨hp, ?_⟩
    cases ht : ctx.loadU8 hd.ihl
    case none => rw [ht] at h; cases h
    case some ty =>
      rw [ht] at h
      simp only [Option.bind_eq_bind, Option.bind_some] at h
      split at h
      case isTrue ho  => exact ⟨ty, rfl, ho⟩
      case isFalse => cases h

-- Every flow in the map goes back to a packet that was let out or in.
def Traced (h : List (Gateway × Event)) (g : Gateway) : Prop :=
  ∀ k v, g.maps.flows k = some v → Traces h k v.lastSeenNs ∧ v.lastSeenNs ≤ g.clock

variable {h : List (Gateway × Event)} {g g' : Gateway} {ctx : TcContext} {now : Nat}

theorem allowsByRule_of_allowed (hco : g.Coherent) (ha : allowed (g.maps.picks fwd)) :
    g.AllowsByRule fwd := by
  rw [Maps.picks, hco.serves fwd] at ha
  cases hf : g.policy.find? (·.ebpfSelects (packetOf fwd))
  case none => rw [hf] at ha; cases ha
  case some f =>
    rw [hf] at ha
    simp only [allowed, Option.map_some, Option.any_some, decide_eq_true_eq] at ha
    refine ⟨f, hf, ?_⟩
    have code (a : IrAction) : actionNum a = ACT_ALLOW → a = .allow := by
      cases a <;> decide
    exact code f.action ha

theorem Traced.fresh (ht : Traced h g) (hn : g.clock ≤ now) (hf : g.maps.fresh k now) :
    ∃ t, Traces h k t ∧ t ≤ now ∧ now - t ≤ g.maps.timeout k.proto := by
  cases hk : g.maps.flows k
  case none => rw [Maps.fresh, hk] at hf; cases hf
  case some v =>
    simp only [Maps.fresh, hk, Option.any_some, decide_eq_true_eq] at hf
    obtain ⟨tr, hle⟩ := ht k v hk
    exact ⟨v.lastSeenNs, tr, Nat.le_trans hle hn, hf⟩

-- Flows that are kept as they were, by a step that is not a flush.
theorem Traced.kept {flows : FlowKey → Option FlowVal} (ht : Traced h g) (hc : g.clock ≤ c)
    (hk : flows k = g.maps.flows k) (hv : flows k = some v) (he : e ≠ .flush) :
    Traces ((g, e) :: h) k v.lastSeenNs ∧ v.lastSeenNs ≤ c :=
  have ⟨tr, hle⟩ := ht k v (hk ▸ hv)
  ⟨.later tr he, Nat.le_trans hle hc⟩

theorem Traced.ingress (ht : Traced h g) (hco : g.Coherent) (hn : g.clock ≤ now) :
    Traced ((g, .ingress ctx now) :: h)
      { g with maps := (Kernel.run (aethIngress ctx now) g.maps).2, clock := now } := by
  intro k v hv
  have ⟨m₁, hfade, hl⟩ := run_aethIngress g.maps ctx now
  have ⟨flows, hflows, hm₁⟩ := hfade
  cases hl.flows k
  case inl hsame =>
    have hk : m₁.flows k = g.maps.flows k := by
      cases hflows k
      case inl hk => rw [hm₁]; exact hk
      case inr hk => rw [hsame, hm₁] at hv; rw [show flows k = some v from hv] at hk; cases hk.1
    exact ht.kept hn (hsame.trans hk) hv nofun
  case inr hnew =>
    have ⟨hnow, hpath⟩ := hnew
    cases Option.some.inj (hnow.symm.trans hv)
    refine ⟨?_, Nat.le_refl now⟩
    cases hpath
    case inl hp =>
      have ⟨hf, hd, hip, hkey⟩ := ingressPath_flow hp
      have ⟨t, tr, hle, hin⟩ := ht.fresh hn hf
      refine .hit tr hle hin hip ?_
      simpa using hkey
    case inr hp =>
      have ⟨hd, hip, hkey⟩ := ingressPath_rules hp.1
      have ha : allowed (g.maps.picks k) := by rw [hm₁] at hp; exact hp.2
      subst hkey
      exact .allowed hip (allowsByRule_of_allowed hco ha)

theorem Traced.egress (ht : Traced h g) (hn : g.clock ≤ now) :
    Traced ((g, .egress ctx now) :: h)
      { g with maps := (Kernel.run (aethEgress ctx now) g.maps).2, clock := now } := by
  intro k v hv
  have ⟨_, flows, rate, hm, hflows⟩ := run_aethEgress g.maps ctx now
  rw [hm] at hv
  replace hv : flows k = some v := hv
  rcases hflows k with hk | hk | ⟨hd, hip, hkey, hk⟩
  case inl     => exact ht.kept hn hk hv nofun
  case inr.inl => rw [hk] at hv; cases hv
  case inr.inr =>
    cases Option.some.inj (hk.symm.trans hv)
    subst hkey
    exact ⟨.egress hip, Nat.le_refl now⟩

section

variable [Ipnet]

theorem Traced.step (ht : Traced h g) (hco : g.Coherent) (hs : Step g e g') :
    Traced ((g, e) :: h) g' := by
  cases hs
  case ingress hn => exact ht.ingress hco hn
  case egress hn  => exact ht.egress hn
  case flush      => exact nofun
  case evict flows _ hf _ =>
    intro k v hv
    cases hf k
    case inl hk => exact ht.kept (Nat.le_refl _) hk hv nofun
    case inr hk => cases hk.symm.trans hv
  case prepare c a m hf hc hr =>
    have ⟨gen, _, hp⟩ := run_prepareGeneration c g.maps (flatten_numbered hf) hc
    cases hp.symm.trans hr
    exact fun k v hv => ht.kept (Nat.le_refl _) rfl hv nofun
  case commit now flat a gen' m hn hp hr =>
    have hc := run_commitGeneration now flat a g.gen g.maps
    rw [hr] at hc
    exact fun k v hv => ht.kept hn (congrFun hc.flows k) hv nofun

theorem Traced.run (r : Run Step (start config) h g) : Traced h g := by
  refine r.invariant (I := Traced) (fun k v hv => ?_) fun r ht hs => ht.step (.run r) hs
  simp [start, Maps.loaded] at hv

-- Whatever has happened before, a packet is let in only by a rule of the active generation or on a
-- flow that goes back to a packet that was let out or in.
theorem ingress_justified (r : Run Step (start config) h g) (hn : g.clock ≤ now)
    (hp : (Kernel.run (aethIngress ctx now) g.maps).1 = .pipe) : Justified h g ctx now := by
  have hco := Coherent.run r
  have ht := Traced.run r
  have ⟨m₁, ⟨flows, _, hm₁⟩, hl⟩ := run_aethIngress g.maps ctx now
  have ⟨hwell, hrules⟩ := hl.pipe hp
  cases hpath : ingressPath g.maps ctx now
  case malformed => exact absurd hpath hwell
  case flow k refresh =>
    have ⟨hf, hd, hip, hkey⟩ := ingressPath_flow hpath
    have ⟨t, tr, hle, hin⟩ := ht.fresh hn hf
    refine ⟨hd, hip, .inr ⟨k, t, ?_, tr, hle, hin⟩⟩
    rcases hkey with hk | hk | ⟨_, he⟩
    case inl     => exact .inl hk
    case inr.inl => exact .inr (.inl hk)
    case inr.inr =>
      have ⟨hproto, hty⟩ := embeddedKey_types he
      exact .inr (.inr ⟨hproto, hty, he⟩)
  case rules fwd =>
    have ⟨hd, hip, hkey⟩ := ingressPath_rules hpath
    have ha : allowed (g.maps.picks fwd) := by subst hm₁; exact hrules fwd hpath
    exact ⟨hd, hip, .inl (hkey ▸ allowsByRule_of_allowed hco ha)⟩

end

-- A connection to port 443 that is opened from behind the gateway, and the first answer to it. There is
-- no policy yet.
def request : TcContext :=
  [0x45, 0, 0, 40, 0, 0, 0, 0, 64, 6, 0, 0, 192, 168, 0, 1, 10, 0, 0, 1, 0x30, 0x39, 1, 0xbb]

def response : TcContext :=
  [0x45, 0, 0, 40, 0, 0, 0, 0, 64, 6, 0, 0, 10, 0, 0, 1, 192, 168, 0, 1, 1, 0xbb, 0x30, 0x39]

def requested : Gateway :=
  let g := start (.zeroed _ 0)
  { g with maps := (Kernel.run (aethEgress request 1) g.maps).2, clock := 1 }

theorem ingress_justified_response :
    (Kernel.run (aethIngress response 2) requested.maps).1 = .pipe ∧
    Justified [(start (.zeroed _ 0), .egress request 1)] requested response 2 := by
  have passes : (Kernel.run (aethIngress response 2) requested.maps).1 = .pipe := by decide +kernel
  have sent : Step (start (.zeroed _ 0)) (.egress request 1) requested := .egress (Nat.zero_le 1)
  exact ⟨passes, ingress_justified (Run.start.step sent) (Nat.le_succ 1) passes⟩

end Enforcer.Gateway
