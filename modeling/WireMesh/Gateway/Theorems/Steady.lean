import WireMesh.Lib.Session
import WireMesh.Gateway.Steady
import WireMesh.Gateway.Theorems.Guard
import WireMesh.Gateway.Theorems.Lanes
import WireMesh.Gateway.Theorems.Programs

-- States that are applied and endpoints that are written, one at a time. What is recorded covers what
-- is on the active device whenever none of it is under way.
namespace Gateway

open Uapi Reconcile

section Answers

variable {s t : Gw}

theorem answers_active (h : s.Answers .active x t) : x = s.active ∧ t = s := by
  have ⟨c, h⟩ := h
  simp only [Gw.step, Gw.exec] at h
  split at h
  all_goals cases h
  exact ⟨rfl, rfl⟩

theorem answers_deviceConfig (h : s.Answers (.deviceConfig ds key port) x t) :
    x = s.pinnedConfig ds key port ∧ t = s := by
  have ⟨c, h⟩ := h
  simp only [Gw.step, Gw.exec] at h
  split at h
  all_goals cases h
  exact ⟨rfl, rfl⟩

theorem answers_scopedConfig (h : s.Answers (.scopedConfig gid key port) x t) : t = s ∧
    x = s.desired.map fun ds => (s.pinnedConfig ds key port, s.selectedFor ds gid) := by
  have ⟨c, h⟩ := h
  simp only [Gw.step, Gw.exec] at h
  split at h
  all_goals cases h
  exact ⟨rfl, rfl⟩

-- A request is taken, or nothing comes of it.
theorem answers_send {x : Bool} (h : s.Answers (.send ifname body) x t) :
    x = false ∧ t = s ∨ x = true ∧ ∃ d d', s.devices.lookup ifname = some d ∧
      d.set body = some d' ∧ t = { s with devices := s.devices.insert ifname d' } := by
  obtain ⟨c, h⟩ := h
  simp only [Gw.step, Gw.exec] at h
  split at h
  case isFalse => cases h
  case isTrue =>
    split at h
    all_goals cases h
    case h_2 => exact .inl ⟨rfl, rfl⟩
    case h_1 hd _ =>
      obtain ⟨d, hl, hs⟩ := Option.bind_eq_some_iff.mp hd
      exact .inr ⟨rfl, d, _, hl, hs, rfl⟩

theorem answers_recordApplied (h : s.Answers (.recordApplied encoded peers) x t) :
    t = { s with active.appliedConfig := some encoded, active.appliedPeers := peers } := by
  have ⟨c, h⟩ := h
  simp only [Gw.step, Gw.exec] at h
  split at h
  all_goals cases h
  rfl

theorem answers_recordAdded
    (h : s.Answers (.recordAdded s.active.appliedConfig s.active.appliedPeers encoded peers) x t) :
    t = { s with active.appliedConfig := some encoded, active.appliedPeers := peers } := by
  have ⟨c, h⟩ := h
  simp only [Gw.step, Gw.exec] at h
  (repeat' split at h)
  all_goals cases h
  case isTrue.refl     => rfl
  case isFalse.refl hn => simp at hn

theorem answers_recordScoped (h : s.Answers (.recordScoped peer key port) x t) :
    (∃ encoded, encodeSet ⟨key, port, Gw.recordPeer peer s.active.appliedPeers⟩ = .ok encoded ∧
      t = { s with
        active.appliedConfig := some encoded
        active.appliedPeers  := Gw.recordPeer peer s.active.appliedPeers }) ∨
    (∃ e, encodeSet ⟨key, port, Gw.recordPeer peer s.active.appliedPeers⟩ = .error e ∧
      t = { s with active.appliedPeers := Gw.recordPeer peer s.active.appliedPeers }) := by
  have ⟨c, h⟩ := h
  simp only [Gw.step, Gw.exec] at h
  (repeat' split at h)
  all_goals cases h
  case h_1.refl he => exact .inl ⟨_, he, rfl⟩
  case h_2.refl he => exact .inr ⟨_, he, rfl⟩

end Answers

namespace Steady

-- What is recorded covers the active device.
def Rest (s : Gw) : Prop :=
  ∃ d, s.devices.lookup s.active.ifname = some d ∧ Covers s.active d

variable {κ : Type} (pins : HashMap Nat String × HashMap Nat String → κ)
  (checks : ActiveTunInfo → Device → List PeerConfig → Prop)

-- Others do not touch the active device and what is recorded of it, nor what `pins` says of the pins.
structure Same (s t : Gw) : Prop where
  active : t.active = s.active
  devices : t.devices = s.devices
  pins : pins (t.wg0Pins, t.liveEndpoints) = pins (s.wg0Pins, s.liveEndpoints)

-- What a request to the active device is made for.
inductive Sends (s : Gw) (body : Body) : Prop
  | whole : encodeSet dev = .ok body → Distinct dev.peers → Sends s body
  | additions : s.devices.lookup s.active.ifname = some d → Covers s.active d →
      checks s.active d peers → Distinct peers →
      classifyPeerDelta s.active.appliedPeers peers = .pureAdditions added →
      encodeAddPeers added = .ok body → Sends s body
  | remove : encodeRemovePeer text = .ok body → Sends s body
  | readd : s.devices.lookup s.active.ifname = some d → keyOfB64 peer.publicKeyB64 = .ok key →
      key ∉ d.keys → encodeAddPeers [peer] = .ok body → Sends s body

-- A configuration that was made of a state with pins that have not changed since.
def Built (ds : DesiredState) (dev : DeviceConfig) (s : Gw) : Prop :=
  ∃ u : Gw, pins (u.wg0Pins, u.liveEndpoints) = pins (s.wg0Pins, s.liveEndpoints) ∧
    dev = u.pinnedConfig ds s.active.privKey s.active.wgPort

-- The active device holds the peers, if the checks see to it that it does.
def Settled (s : Gw) (peers : List PeerConfig) : Prop :=
  ∃ d, s.devices.lookup s.active.ifname = some d ∧ Covers s.active d ∧
    ((∀ a d peers, checks a d peers → Untorn a d peers) → d.Holds peers)

def Pre : Op → Gw → Prop
  | .send ifname body, s => ifname = s.active.ifname ∧ Sends checks s body
  | .publish ds, s       => ∃ dev, Built pins ds dev s ∧ Settled checks s dev.peers
  | _, _                 => True

def Known (s : Gw) : (o : Op) → o.Resp → Prop
  | .deviceConfig _ _ _, dev => Distinct dev.peers ∧
    ∀ d, s.devices.lookup s.active.ifname = some d → checks s.active d dev.peers
  | _, _                     => True

def session : Pool.Session Op.Resp Gw where
  enter | .lock _   => True
        | _         => False
  leave | .unlock _ => True
        | .exit     => True
        | _         => False
  quiet | .commitGen      => True
        | .transition _ _ => True
        | _               => False
  busy s := s.held ≠ []
  rest   := Rest
  same   := Same pins
  pre    := Pre pins checks
  known  := Known checks

abbrev Keeps (p : P α) (Q : α → Option Gw → Prop) (r : Option Gw) : Prop :=
  p.Always (session pins checks).May ((session pins checks).Goes rules) Q r

variable {pins checks} {s t u : Gw}

theorem Same.refl : Same pins s s :=
  ⟨rfl, rfl, rfl⟩

theorem Same.trans (h : Same pins s t) (h' : Same pins t u) : Same pins s u :=
  ⟨h'.active.trans h.active, h'.devices.trans h.devices, h'.pins.trans h.pins⟩

theorem Same.rest (h : Same pins s t) (hr : Rest s) : Rest t := by
  have ⟨d, hd, hc⟩ := hr
  exact ⟨d, by rw [h.active, h.devices, hd], h.active ▸ hc⟩

theorem Same.built (h : Same pins s t) (hb : Built pins ds dev s) : Built pins ds dev t := by
  have ⟨u, hp, he⟩ := hb
  exact ⟨u, hp.trans h.pins.symm, by rw [h.active]; exact he⟩

theorem Same.settled (h : Same pins s t) (hs : Settled checks s peers) : Settled checks t peers := by
  have ⟨d, hd, hc, hh⟩ := hs
  exact ⟨d, by rw [h.active, h.devices, hd], h.active ▸ hc, hh⟩

theorem Settled.rest (hs : Settled checks s peers) : Rest s := by
  have ⟨d, hd, hc, _⟩ := hs
  exact ⟨d, hd, hc⟩

-- What a task has done to the active device and to what is recorded of it alone.
structure After (pins : HashMap Nat String × HashMap Nat String → κ) (s t : Gw) : Prop where
  ifname : t.active.ifname = s.active.ifname
  privKey : t.active.privKey = s.active.privKey
  wgPort : t.active.wgPort = s.active.wgPort
  pins : pins (t.wg0Pins, t.liveEndpoints) = pins (s.wg0Pins, s.liveEndpoints)

theorem Same.after (h : Same pins s t) : After pins s t :=
  ⟨by rw [h.active], by rw [h.active], by rw [h.active], h.pins⟩

theorem After.trans (h : After pins s t) (h' : After pins t u) : After pins s u :=
  ⟨h'.ifname.trans h.ifname, h'.privKey.trans h.privKey, h'.wgPort.trans h.wgPort,
    h'.pins.trans h.pins⟩

theorem After.built (h : After pins s t) (hb : Built pins ds dev s) : Built pins ds dev t := by
  have ⟨u, hp, he⟩ := hb
  exact ⟨u, hp.trans h.pins.symm, by rw [h.privKey, h.wgPort]; exact he⟩

-- A configuration for the active device.
structure Ready (checks : ActiveTunInfo → Device → List PeerConfig → Prop) (s : Gw)
    (ifname : String) (dev : DeviceConfig) : Prop where
  rest : Rest s
  ifname : ifname = s.active.ifname
  privKey : dev.privateKeyB64 = s.active.privKey
  listenPort : dev.listenPort = s.active.wgPort
  distinct : Distinct dev.peers
  checks : ∀ d, s.devices.lookup s.active.ifname = some d → checks s.active d dev.peers

theorem Ready.same (hr : Ready checks s name dev) (h : Same pins s t) :
    Ready checks t name dev where
  rest       := h.rest hr.rest
  ifname     := h.active ▸ hr.ifname
  privKey    := h.active ▸ hr.privKey
  listenPort := h.active ▸ hr.listenPort
  distinct   := hr.distinct
  checks     := by
    rw [h.active, h.devices]
    exact hr.checks

-- What comes of applying a configuration.
def Applied (checks : ActiveTunInfo → Device → List PeerConfig → Prop)
    (pins : HashMap Nat String × HashMap Nat String → κ) (s : Gw) (peers : List PeerConfig)
    (ok : Bool) (r : Option Gw) : Prop :=
  ∃ t, r = some t ∧ After pins s t ∧ Rest t ∧ (ok → Settled checks t peers)

theorem Applied.after (ha : After pins s t) (h : Applied checks pins t peers ok r) :
    Applied checks pins s peers ok r := by
  have ⟨u, hr, hu, h⟩ := h
  exact ⟨u, hr, ha.trans hu, h⟩

-- A request that fails leaves everything as it was.
theorem keeps_send {f : Bool → P α} {Q : α → Option Gw → Prop} (hi : name = s.active.ifname)
    (hp : Sends checks s body)
    (failed : ∀ u, Same pins s u → Keeps pins checks (f false) Q (some u))
    (sent : ∀ d d' u, s.devices.lookup s.active.ifname = some d → d.set body = some d' →
      Same pins { s with devices := s.devices.insert s.active.ifname d' } u →
      Keeps pins checks (f true) Q (some u)) :
    Keeps pins checks (perform (.send name body) >>= f) Q (some s) := by
  refine Pool.Session.always_inside id id ⟨hi, hp⟩ fun x t u ha _ hs => ?_
  cases answers_send ha
  case inl h =>
    have ⟨hx, ht⟩ := h
    subst hx ht
    exact failed u hs
  case inr h =>
    have ⟨hx, d, d', hl, hd, ht⟩ := h
    subst hx ht hi
    exact sent d d' u hl hd hs

theorem keeps_active {f : ActiveTunInfo → P α} {Q : α → Option Gw → Prop}
    (hf : ∀ u, Same pins s u → Keeps pins checks (f u.active) Q (some u)) :
    Keeps pins checks (perform .active >>= f) Q (some s) := by
  refine Pool.Session.always_inside id id trivial fun x t u ha _ hs => ?_
  have ⟨hx, ht⟩ := answers_active ha
  subst ht
  exact (hx.trans hs.active.symm) ▸ hf u hs

-- What has been written to the device is recorded.
theorem applied_recorded (hi : t.active = s.active) (hp : pins (t.wg0Pins, t.liveEndpoints) =
      pins (s.wg0Pins, s.liveEndpoints)) (hd : t.devices.lookup s.active.ifname = some d)
    (hc : Covers { s.active with appliedConfig := some encoded, appliedPeers := peers } d)
    (hh : (∀ a d peers, checks a d peers → Untorn a d peers) → d.Holds peers)
    (hs : Same pins
      { t with active.appliedConfig := some encoded, active.appliedPeers := peers } u) :
    Applied checks pins s peers true (some u) := by
  have ha : After pins s u := by
    refine ⟨?_, ?_, ?_, hs.pins.trans hp⟩
    all_goals rw [hs.active, hi]
  have settled : Settled checks u peers := by
    rw [← hi] at hd hc
    exact hs.settled ⟨d, hd, hc, hh⟩
  exact ⟨u, rfl, ha, settled.rest, fun _ => settled⟩

theorem keeps_applyDeviceIfChanged (hr : Ready checks s name dev) :
    Keeps pins checks (applyDeviceIfChanged name dev) (Applied checks pins s dev.peers) (some s) := by
  rw [applyDeviceIfChanged]
  split
  case h_1 => exact ⟨s, rfl, Same.refl.after, hr.rest, by simp⟩
  case h_2 encoded he =>
    refine keeps_active fun u hs => ?_
    have hr := hr.same hs
    split
    case isTrue heq =>
      obtain ⟨d, hd, hc⟩ := hr.rest
      refine ⟨u, rfl, hs.after, hr.rest, fun _ => ⟨d, hd, hc, fun hu => ?_⟩⟩
      exact hc.recorded_holds hr.distinct (hu _ _ _ (hr.checks d hd)) he heq
    case isFalse =>
      refine keeps_send hr.ifname (.whole he hr.distinct) (fun t ht => ?_) fun d d' t hd hset ht => ?_
      case refine_1 => exact ⟨t, rfl, (hs.trans ht).after, ht.rest hr.rest, by simp⟩
      case refine_2 =>
        refine Pool.Session.always_inside id id trivial fun x t' v ha _ hv => ?_
        cases answers_recordApplied ha
        obtain ⟨hc, hh⟩ := Covers.whole he hset hr.privKey hr.listenPort
        refine .after hs.after <| applied_recorded ht.active ht.pins ?_ hc (fun _ => hh) hv
        rw [ht.devices]
        exact AList.lookup_insert _

theorem keeps_addPeers (hr : Ready checks s name dev) (he : encodeSet dev = .ok encoded)
    (hd : classifyPeerDelta s.active.appliedPeers dev.peers = .pureAdditions added) :
    Keeps pins checks (addPeers name s.active dev encoded added) (Applied checks pins s dev.peers)
      (some s) := by
  obtain ⟨d, hl, hc⟩ := hr.rest
  rw [addPeers]
  split
  case h_1 => exact ⟨s, rfl, Same.refl.after, hr.rest, by simp⟩
  case h_2 body hb =>
    refine keeps_send hr.ifname (.additions hl hc (hr.checks d hl) hr.distinct hd hb) (fun t ht => ?_)
      fun d₁ d' t hd₁ hset ht => ?_
    case refine_1 => exact ⟨t, rfl, ht.after, ht.rest hr.rest, by simp⟩
    case refine_2 =>
      cases hl.symm.trans hd₁
      refine Pool.Session.always_inside id id trivial fun x t' v ha _ hv => ?_
      have hta : t.active = s.active := ht.active
      rw [← hta] at ha
      cases answers_recordAdded ha
      obtain ⟨hc, hh⟩ := hc.additions hr.distinct he hr.privKey hr.listenPort hd hb hset
      refine applied_recorded ht.active ht.pins ?_ hc (fun hu => hh (hu _ _ _ (hr.checks d hl))) hv
      rw [ht.devices]
      exact AList.lookup_insert _

theorem keeps_applyDevice (hr : Ready checks s name dev) :
    Keeps pins checks (applyDevice name dev) (Applied checks pins s dev.peers) (some s) := by
  refine keeps_active fun u hs => ?_
  have hr := hr.same hs
  have ⟨d, hd, hc⟩ := hr.rest
  split
  case h_1 => exact ⟨u, rfl, hs.after, hr.rest, nofun⟩
  case h_2 encoded he =>
    dsimp only
    split
    case h_1 hu _ =>
      have ⟨_, _, hu⟩ := Option.map_eq_some_iff.mp hu
      refine ⟨u, rfl, hs.after, hr.rest, fun _ => ⟨d, hd, hc, fun hk => ?_⟩⟩
      exact hc.unchanged_holds hr.distinct (hk _ _ _ (hr.checks d hd)) hu
    case h_2 hu _ =>
      have ⟨_, _, hu⟩ := Option.map_eq_some_iff.mp hu
      exact (keeps_addPeers hr he hu).mono fun _ _ => .after hs.after
    case h_3 => exact (keeps_applyDeviceIfChanged hr).mono fun _ _ => .after hs.after

-- What leaves alone the devices, the pins and what is recorded.
def Idle : Op → Prop
  | .applied             => True
  | .setApplied _        => True
  | .setDesired _        => True
  | .addRoute _ _        => True
  | .delRoute _ _        => True
  | .mayPoint _ _        => True
  | .setRelayPointed _ _ => True
  | _                    => False

theorem same_of_writes (h : s.Answers o x t) (ha : .active ∉ o.writes) (hd : .devices ∉ o.writes)
    (hp : .pins ∉ o.writes) (hl : .live ∉ o.writes) : Same pins s t := by
  have ⟨_, h⟩ := h
  have hp : t.wg0Pins = s.wg0Pins := Gw.step_same h hp
  have hl : t.liveEndpoints = s.liveEndpoints := Gw.step_same h hl
  exact ⟨Gw.step_same h ha, Gw.step_same h hd, by rw [hp, hl]⟩

variable (pins checks) in
theorem Idle.inside (ho : Idle o) : ¬ (session pins checks).enter o ∧ ¬ (session pins checks).leave o ∧
    ∀ s, (session pins checks).pre o s ∧ ∀ x t, rules.answers s o x t → Same pins s t := by
  cases o
  all_goals first
    | exact ho.elim
    | exact ⟨id, id, fun s => ⟨trivial, fun x t ha => same_of_writes ha (by simp [Op.writes])
        (by simp [Op.writes]) (by simp [Op.writes]) (by simp [Op.writes])⟩⟩

theorem keeps_idle {o : Op} {f : o.Resp → P α} {Q : α → Option Gw → Prop} (ho : Idle o)
    (hf : ∀ x u, Same pins s u → Keeps pins checks (f x) Q (some u)) :
    Keeps pins checks (perform o >>= f) Q (some s) := by
  have ⟨he, hl, hp⟩ := ho.inside pins checks
  exact Pool.Session.always_inside he hl (hp s).1 fun x t u ha _ hs =>
    hf x u (((hp s).2 x t ha).trans hs)

theorem keeps_applyRoutes :
    Keeps pins checks (applyRoutes name diff) (fun _ r => ∃ t, r = some t ∧ Same pins s t) (some s) := by
  have only : (applyRoutes name diff).Only Idle :=
    only_applyRoutes (fun _ => trivial) fun _ => trivial
  exact Pool.Session.always_same only Same.refl Same.trans fun o ho => ho.inside pins checks

theorem keeps_applyState (hr : Rest s) :
    Keeps pins checks (applyState prev ds)
      (fun ok r => ∃ t, r = some t ∧ Rest t ∧
        (ok → ∃ dev, Built pins ds dev t ∧ Settled checks t dev.peers)) (some s) := by
  refine keeps_active fun _ hs => ?_
  refine Pool.Session.always_inside id id trivial fun dev u t ha hk ht => ?_
  have ⟨hx, he⟩ := answers_deviceConfig ha
  subst he
  have hb : Built pins ds dev u := ⟨u, rfl, hx⟩
  have ready : Ready checks u u.active.ifname dev :=
    ⟨hs.rest hr, rfl, by rw [hx]; rfl, by rw [hx]; rfl, hk.1, hk.2⟩
  refine Prog.always_bind <| (keeps_applyDevice (ready.same ht)).mono fun ok r h => ?_
  have ⟨v, hv, hav, hr, hset⟩ := h
  subst hv
  cases ok
  case false => exact ⟨v, rfl, hr, nofun⟩
  case true =>
    refine keeps_applyRoutes.mono fun ok r h => ?_
    have ⟨w, hw, hs⟩ := h
    have hb := (ht.after.trans hav).built hb
    exact ⟨w, hw, hs.rest hr, fun _ => ⟨dev, hs.built hb, hs.settled (hset rfl)⟩⟩

-- What comes of writing a single peer.
structure Put (pins : HashMap Nat String × HashMap Nat String → κ) (s : Gw) (peer : PeerConfig)
    (ok : Bool) (t : Gw) : Prop where
  active : t.active = s.active
  pins : pins (t.wg0Pins, t.liveEndpoints) = pins (s.wg0Pins, s.liveEndpoints)
  failed : ok = false → Rest t
  put : ok = true → ∃ d, t.devices.lookup t.active.ifname = some d ∧ Returned t.active peer d

theorem Put.of_same (h : Same pins s t) (hr : Rest s) : Put pins s peer false t :=
  ⟨h.active, h.pins, fun _ => h.rest hr, nofun⟩

-- A peer that is not on the device is put on it.
theorem keeps_readd {f : Bool → P Bool} (hd : s.devices.lookup s.active.ifname = some d)
    (hc : Covers s.active d) (hi : name = s.active.ifname)
    (hk : keyOfB64 peer.publicKeyB64 = .ok key) (hn : key ∉ d.keys)
    (hb : encodeAddPeers [peer] = .ok body) (ht : f true = pure true)
    (hf : ∀ u, Same pins s u →
      Keeps pins checks (f false) (fun ok r => ∃ t, r = some t ∧ Put pins s peer ok t) (some u)) :
    Keeps pins checks (perform (.send name body) >>= f)
      (fun ok r => ∃ t, r = some t ∧ Put pins s peer ok t) (some s) := by
  refine keeps_send hi (.readd hd hk hn hb) hf fun d₁ d' u hd₁ hset hu => ?_
  cases hd.symm.trans hd₁
  have hua : u.active = s.active := hu.active
  rw [ht]
  refine ⟨u, rfl, hua, hu.pins, nofun, fun _ => ⟨d', ?_, hua ▸ hc.readd hb hset⟩⟩
  rw [hu.devices, hua]
  exact AList.lookup_insert _

theorem keeps_setOnePeer (hr : Rest s) (hi : name = s.active.ifname) :
    Keeps pins checks (setOnePeer name peer) (fun ok r => ∃ t, r = some t ∧ Put pins s peer ok t)
      (some s) := by
  rw [setOnePeer]
  split
  case h_1 => exact ⟨s, rfl, .of_same .refl hr⟩
  case h_2 body hb =>
    refine keeps_send hi (.remove hb) (fun u hu => ⟨u, rfl, .of_same hu hr⟩) fun d d' u hd hset hu => ?_
    obtain ⟨_, hl, hc⟩ := hr
    cases hl.symm.trans hd
    obtain ⟨key, hk, _⟩ := encodeRemovePeer_ok hb
    obtain ⟨hc, hn⟩ := hc.remove hb hset
    have hua : u.active = s.active := hu.active
    have hc : Covers u.active d' := hua ▸ hc
    have hd' : u.devices.lookup u.active.ifname = some d' := by
      rw [hu.devices, hua]
      exact AList.lookup_insert _
    have hput {ok t} (h : Put pins u peer ok t) : Put pins s peer ok t :=
      ⟨h.active.trans hua, h.pins.trans hu.pins, h.failed, h.put⟩
    rw [if_neg (by simp)]
    split
    case h_1 => exact ⟨u, rfl, hput (.of_same .refl ⟨d', hd', hc⟩)⟩
    case h_2 body hb =>
      -- The second attempt is made on the same device as the first.
      have again (v : Gw) (hv : Same pins u v) : Keeps pins checks (perform (.send name body))
          (fun ok r => ∃ t, r = some t ∧ Put pins u peer ok t) (some v) := by
        have hva : v.active = u.active := hv.active
        have hd'' : v.devices.lookup v.active.ifname = some d' := by rw [hv.devices, hva, hd']
        have once : Keeps pins checks (perform (.send name body) >>= pure)
            (fun ok r => ∃ t, r = some t ∧ Put pins v peer ok t) (some v) :=
          keeps_readd hd'' (hva ▸ hc) (hva ▸ hua ▸ hi) hk (hn key hk) hb rfl
            fun w hw => ⟨w, rfl, .of_same hw ⟨d', hd'', hva ▸ hc⟩⟩
        refine once.mono fun _ _ h => h.imp fun t h => ⟨h.1, ?_⟩
        exact ⟨h.2.active.trans hva, h.2.pins.trans hv.pins, h.2.failed, h.2.put⟩
      have first := keeps_readd (f := fun x => if x then pure true else perform (.send name body))
        hd' hc (hua ▸ hi) hk (hn key hk) hb rfl again
      exact first.mono fun _ _ h => h.imp fun _ h => ⟨h.1, hput h.2⟩

theorem keeps_applyPeerEndpointScoped (hr : Rest s) (hi : name = s.active.ifname)
    (hk : dev.privateKeyB64 = s.active.privKey) (hp : dev.listenPort = s.active.wgPort) :
    Keeps pins checks (applyPeerEndpointScoped name dev target) (fun _ r => ∃ t, r = some t ∧ Rest t)
      (some s) := by
  rw [applyPeerEndpointScoped]
  split
  case h_1 => exact ⟨s, rfl, hr⟩
  case h_2 peer _ =>
    refine keeps_active fun u hu => ?_
    have hua := hu.active
    have hru := hu.rest hr
    split
    case isTrue => exact ⟨u, rfl, hru⟩
    case isFalse =>
      refine Prog.always_bind <| (keeps_setOnePeer hru (hua ▸ hi)).mono fun ok r h => ?_
      obtain ⟨t, ht, hput⟩ := h
      subst ht
      cases ok
      case false => exact ⟨t, rfl, hput.failed rfl⟩
      case true =>
        obtain ⟨d, hd, hret⟩ := hput.put rfl
        have hta := hput.active.trans hua
        rw [if_neg (by simp)]
        refine Pool.Session.always_inside (f := pure) id id trivial fun x v w ha _ hs => ?_
        refine ⟨w, rfl, hs.rest ?_⟩
        rw [hk, hp, ← hta] at ha
        cases answers_recordScoped ha
        case inl h =>
          obtain ⟨_, he, ht⟩ := h
          exact ⟨d, by rw [ht]; exact hd, by rw [ht]; exact hret.recorded he⟩
        case inr h =>
          obtain ⟨_, he, ht⟩ := h
          exact ⟨d, by rw [ht]; exact hd, by rw [ht]; exact hret.unrecorded he⟩

theorem alike_of_writes (h : s.Answers o x t) (ha : .active ∉ o.writes) (hd : .devices ∉ o.writes) :
    Same (fun _ => ()) s t :=
  have ⟨_, h⟩ := h
  ⟨Gw.step_same h ha, Gw.step_same h hd, rfl⟩

theorem keeps_unlock (hr : Rest s) :
    Keeps pins checks (perform (.unlock l)) (fun _ r => r = none) (some s) :=
  Pool.Session.always_leave (f := pure) trivial hr fun _ => rfl

theorem keeps_setPeerEndpoint :
    Keeps pins checks (setPeerEndpoint gid endpoint isRelay) (fun _ r => r = none) none := by
  refine Pool.Session.always_enter trivial id fun _ s hr => ?_
  refine keeps_active fun u hu => keeps_idle trivial fun x v hv => ?_
  have hva : v.active = u.active := hv.active
  have hr : Rest v := hv.rest (hu.rest hr)
  split
  case isFalse => exact keeps_unlock hr
  case isTrue =>
    refine Pool.Session.always_inside id id trivial fun _ t w ha _ hw => ?_
    have ht : Same (fun _ => ()) v t := alike_of_writes ha (by simp [Op.writes]) (by simp [Op.writes])
    have hwa : w.active = u.active := (hw.active.trans ht.active).trans hva
    have hr : Rest w := hw.rest (ht.rest hr)
    refine Pool.Session.always_inside id id trivial fun x t y ha _ hy => ?_
    obtain ⟨ht, hx⟩ := answers_scopedConfig ha
    subst ht
    have hya : y.active = u.active := hy.active.trans hwa
    have hr : Rest y := hy.rest hr
    split
    case h_2 => exact keeps_unlock hr
    case h_1 dev target =>
      obtain ⟨ds, _, hdev⟩ := Option.map_eq_some_iff.mp hx.symm
      cases hdev
      refine Prog.always_bind <| (keeps_applyPeerEndpointScoped hr (by rw [hya]) (by rw [hya]; rfl)
        (by rw [hya]; rfl)).mono fun ok r h => ?_
      obtain ⟨z, hz, hr⟩ := h
      subst hz
      cases ok
      case false => exact keeps_unlock hr
      case true  => exact keeps_idle trivial fun _ z' hz => keeps_unlock (hz.rest hr)

theorem keeps_readThrough :
    Keeps pins checks (readThroughEndpoint gid endpoint) (fun _ r => r = none) none := by
  refine Pool.Session.always_quiet trivial id fun gen => ?_
  refine Pool.Session.always_enter trivial id fun _ s hr => ?_
  refine Pool.Session.always_inside id id trivial fun _ t u ha _ hu => ?_
  have ht : Same (fun _ => ()) s t := alike_of_writes ha (by simp [Op.writes]) (by simp [Op.writes])
  exact keeps_unlock (hu.rest (ht.rest hr))

theorem keeps_applying : Keeps pins checks (applying ds) (fun _ r => r = none) none := by
  refine Pool.Session.always_enter trivial id fun _ s hr => ?_
  refine keeps_idle trivial fun prev u hu => ?_
  refine Prog.always_bind <| (keeps_applyState (hu.rest hr)).mono fun ok r ⟨t, ht, hr, h⟩ => ?_
  subst ht
  cases ok
  case false => exact Pool.Session.always_leave trivial hr fun _ => rfl
  case true =>
    have ⟨dev, hb, hs⟩ := h rfl
    refine Pool.Session.always_inside id id ⟨dev, hb, hs⟩ fun _ t' v ha _ hv => ?_
    have ht : Same (fun _ => ()) t t' := alike_of_writes ha (by simp [Op.writes]) (by simp [Op.writes])
    have hr : Rest v := hv.rest (ht.rest hr)
    exact keeps_idle trivial fun _ w hw => keeps_idle trivial fun _ z hz =>
      keeps_unlock (hz.rest (hw.rest hr))

theorem keeps_prog (q : Request) : Keeps pins checks q.prog (fun _ r => r = none) none := by
  cases q
  case applyState      => exact keeps_applying
  case setPeerEndpoint => exact keeps_setPeerEndpoint
  case readThrough     => exact keeps_readThrough
  case transition      => exact Pool.Session.always_quiet (f := pure) trivial id fun _ => rfl

theorem rest_up (stateJson : Option DesiredState) :
    Rest (up (.start config stateJson storedKeys)) := by
  refine ⟨_, AList.lookup_insert ∅, ?_⟩
  exact ⟨nofun, .nil, .nil, nofun⟩

-- States and endpoints are written one at a time, and the pins that a session owns are left alone.
theorem valid {ok : System → SystemEvent → Prop}
    (apart : ∀ p i l x, ok p (.op i (.lock l) x) → p.shared.held = [])
    (known : ∀ p i o x t, ok p (.op i o x) → p.shared.Answers o x t → Known checks p.shared o x)
    (paths : ∀ p i gid after x t, ok p (.op i (.transition gid after) x) →
      p.shared.Answers (.transition gid after) x t → p.shared.held ≠ [] → Same pins p.shared t)
    (outside : ∀ p v t, ok p (.env v) → Happens p.shared v t → p.shared.held ≠ [] →
      Same pins p.shared t) : (session pins checks).Valid rules ok where
  refl  := Same.refl
  trans := Same.trans
  rest  := Same.rest
  known {p i o x t} := known p i o x t
  halt {s} := rest_up s.stateJson
  prog  := keeps_prog
  apart {o} hq := by
    cases o
    all_goals first | exact hq.elim | exact ⟨id, id⟩
  enter {p i o x t} hk he ha := by
    replace ha : p.shared.Answers o x t := ha
    cases o
    case lock l =>
      obtain ⟨c, hc⟩ := id ha
      have hr : Same (fun _ => ()) p.shared t :=
        alike_of_writes ha (by simp [Op.writes]) (by simp [Op.writes])
      cases locking_step hc
      case lock hh =>
        have hb : t.held ≠ [] := by simp [hh]
        exact ⟨fun hb => hb (apart p i l x hk), hb, hr.rest⟩
      case other h _ _ => simpa [Op.locks] using h []
    all_goals exact he.elim
  leave {o s x t} hl ha hr := by
    replace ha : s.Answers o x t := ha
    have hs : Same (fun _ => ()) s t := by
      cases o
      case unlock | exit => exact alike_of_writes ha (by simp [Op.writes]) (by simp [Op.writes])
      all_goals exact hl.elim
    exact hs.rest hr
  quiet {p i o x t} hk hq ha := by
    replace ha : p.shared.Answers o x t := ha
    cases o
    case transition gid after =>
      have hs : Same (fun _ => ()) p.shared t :=
        alike_of_writes ha (by simp [Op.writes]) (by simp [Op.writes])
      exact ⟨paths p i gid after x t hk ha, hs.rest⟩
    case commitGen =>
      have hs : Same pins p.shared t := same_of_writes ha (by simp [Op.writes]) (by simp [Op.writes])
        (by simp [Op.writes]) (by simp [Op.writes])
      exact ⟨fun _ => hs, hs.rest⟩
    all_goals exact hq.elim
  busy {o s x t} hl ha hb := by
    obtain ⟨c, hc⟩ := ha
    change t.held ≠ []
    cases locking_step hc
    case boot hh _     => simp [hh]
    case lock hh _     => simp [hh]
    case unlock        => exact absurd trivial hl
    case other _ hh _  => rw [hh]; exact hb
  env {p v t} hk he := by
    have hs : Same (fun _ => ()) p.shared t ∧ t.held = p.shared.held := by
      cases he <;> exact ⟨⟨rfl, rfl, rfl⟩, rfl⟩
    exact ⟨fun hb => ⟨fun h => hb (hs.2.symm.trans h), outside p v t hk he hb⟩, hs.1.rest⟩

end Steady
end Gateway
