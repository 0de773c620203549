import WireMesh.Gateway.Tunnels

-- Names and ports are never shared, and rest for a while before they are handed out again.
namespace Gateway

section Plan

variable {live : List TunnelPlan} {id : TunnelId} {p : TunnelPlan}

-- What is planned is taken by no other device.
structure Fits (live : List TunnelPlan) (p : TunnelPlan) : Prop where
  ifname : ∀ q ∈ live, q.ifname ≠ p.ifname
  port : ∀ q ∈ live, q.listenPort ≠ p.listenPort

theorem planIfname_free (hn : planIfname id baseTun live = some ifname) :
    ∀ q ∈ live, q.ifname ≠ ifname := by
  cases id
  case own epoch =>
    simp only [planIfname] at hn
    split at hn
    all_goals cases hn
    case isTrue h => simpa using (Bool.and_eq_true_iff.mp h).2
  case overlap =>
    simp only [planIfname, Option.bind_eq_bind, Option.bind_eq_some_iff] at hn
    have ⟨name, hf, _, hg, he⟩ := hn
    cases he
    have hv : validIface ifname := by simpa [guard] using hg
    simpa [hv] using List.find?_some hf

theorem planPort_free (hp : planPort id basePort live = some port) :
    ∀ q ∈ live, q.listenPort ≠ port := by
  cases id
  case own     => simpa [planPort, Option.filter_eq_some_iff] using (Option.filter_eq_some_iff.mp hp).2
  case overlap => simpa using List.find?_some hp

theorem planTunnel_eq_some (hp : planTunnel id baseTun basePort live = some p) :
    p.id = id ∧ planIfname id baseTun live = some p.ifname ∧
      planPort id basePort live = some p.listenPort := by
  simp only [planTunnel, Option.bind_eq_bind, Option.bind_eq_some_iff] at hp
  have ⟨_, hn, _, hport, he⟩ := hp
  cases he
  exact ⟨rfl, hn, hport⟩

theorem planTunnel_fits (hp : planTunnel id baseTun basePort live = some p) : Fits live p :=
  have ⟨_, hn, hport⟩ := planTunnel_eq_some hp
  ⟨planIfname_free hn, planPort_free hport⟩

theorem planPort_own (hp : planPort (.own epoch) basePort live = some port) :
    checkedAddPort basePort OWN_TUN_PORT_OFFSET = some port :=
  (Option.filter_eq_some_iff.mp hp).1

theorem checkedAddPort_eq_some :
    checkedAddPort port n = some port' ↔ port + n < 2 ^ 16 ∧ port + n = port' := by
  simp [checkedAddPort]

theorem planPort_overlap (hp : planPort (.overlap g e) basePort live = some port) :
    basePort + OWN_TUN_PORT_OFFSET < port := by
  have hm := List.mem_of_find?_eq_some hp
  simp only [List.mem_filterMap, List.mem_range'_1, checkedAddPort_eq_some] at hm
  have ⟨_, _, _, _⟩ := hm
  omega

end Plan

namespace TunnelSet

variable {s : TunnelSet} {id : TunnelId} {p : TunnelPlan}

-- No two devices share a name or a port.
def Distinct (s : TunnelSet) : Prop :=
  ∀ i j t u, s.tunnels.lookup i = some t → s.tunnels.lookup j = some u → i ≠ j →
    t.ifname ≠ u.ifname ∧ t.listenPort ≠ u.listenPort

theorem mem_entries : ⟨id, t⟩ ∈ s.tunnels.entries ↔ s.tunnels.lookup id = some t :=
  AList.mem_lookup_iff.symm

theorem free_iff : s.free p ↔ s.tunnels.lookup p.id = none ∧
    ∀ id t, s.tunnels.lookup id = some t → t.ifname ≠ p.ifname ∧ t.listenPort ≠ p.listenPort := by
  simp only [free, Bool.and_eq_true, Option.isNone_iff_eq_none, List.all_eq_true, decide_eq_true_eq]
  refine and_congr_right fun _ => ⟨fun h id t ht => ?_, fun h e he => ?_⟩
  case refine_1 => exact h ⟨id, t⟩ (mem_entries.mpr ht)
  case refine_2 => exact h e.1 e.2 (mem_entries.mp he)

-- All devices, and those that are gone but rest, are taken into account.
theorem mem_plans_of_lookup (h : s.tunnels.lookup id = some t) :
    ⟨id, t.ifname, t.listenPort⟩ ∈ s.plans now :=
  List.mem_append_left _ (List.mem_map.mpr ⟨⟨id, t⟩, mem_entries.mpr h, rfl⟩)

theorem mem_plans_of_quarantine (h : q ∈ s.quarantine) (hn : now - q.2 < QUARANTINE) :
    q.1 ∈ s.plans now :=
  List.mem_append_right _ <| List.mem_map_of_mem <| List.mem_filter.mpr ⟨h, by simpa using hn⟩

theorem Fits.free (hf : Fits (s.plans now) p) (hi : s.tunnels.lookup p.id = none) : s.free p :=
  free_iff.mpr ⟨hi, fun _ _ ht =>
    ⟨hf.ifname _ (mem_plans_of_lookup ht), hf.port _ (mem_plans_of_lookup ht)⟩⟩

theorem Distinct.bringUp (h : Distinct s) (hf : s.free p) : Distinct (s.bringUp p) := by
  have ⟨_, hf⟩ := free_iff.mp hf
  intro i j t u hi hj hij
  simp only [TunnelSet.bringUp, HashMap.lookup_insert] at hi hj
  split at hi <;> split at hj
  case isTrue.isTrue hi' hj'   => exact absurd (hi'.trans hj'.symm) hij
  case isTrue.isFalse          =>
    cases hi
    exact (hf j u hj).imp Ne.symm Ne.symm
  case isFalse.isTrue          =>
    cases hj
    exact hf i t hi
  case isFalse.isFalse         => exact h i j t u hi hj hij

theorem Distinct.tearDown (h : Distinct s) : Distinct (s.tearDown now id) := by
  rw [TunnelSet.tearDown]
  split
  case h_1 => exact h
  case h_2 =>
    intro i j t u hi hj hij
    simp only [HashMap.lookup_erase] at hi hj
    split at hi <;> split at hj
    case isFalse.isFalse => exact h i j t u hi hj hij
    all_goals simp_all

theorem Distinct.setListenPort (h : Distinct s) (ht : s.tunnels.lookup id = some t)
    (hp : ∀ j u, s.tunnels.lookup j = some u → j ≠ id → u.listenPort ≠ port) :
    Distinct (s.setListenPort id t port) := by
  intro i j u v hi hj hij
  simp only [TunnelSet.setListenPort, HashMap.lookup_insert] at hi hj
  split at hi <;> split at hj
  case isTrue.isTrue hi' hj'     => exact absurd (hi'.trans hj'.symm) hij
  case isTrue.isFalse he hne     =>
    cases hi
    exact ⟨(h id j t v ht hj (he ▸ hij)).1, (hp j v hj hne).symm⟩
  case isFalse.isTrue hne he     =>
    cases hj
    exact ⟨(h i id u t hi ht (he ▸ hij)).1, hp i u hi hne⟩
  case isFalse.isFalse           => exact h i j u v hi hj hij

end TunnelSet

namespace Tunnels

open Text Reconcile

-- What a call has come to.
inductive Goes (base : Base) (s : Tunnels) : Call → Tunnels → Prop
  | elapse : Goes base s (.elapse ns) { s with clock := s.clock + ns }
  | broughtUp {id : TunnelId} {p : TunnelPlan} : s.plan base id = some p → s.set.free p →
      Goes base s (.bringUp id true) { s with set := s.set.bringUp p }
  | tornDown {id : TunnelId} {t : Tunnel} : s.set.tunnels.lookup id = some t →
      Goes base s (.tearDown id) { s with set := s.set.tearDown s.clock id }
  | moved {id : TunnelId} {t : Tunnel} {port : Nat} : s.set.tunnels.lookup id = some t →
      t.listenPort ≠ port →
      (∀ j u, s.set.tunnels.lookup j = some u → j ≠ id → u.listenPort ≠ port) →
      Goes base s (.setListenPort id port true) { s with set := s.set.setListenPort id t port }
  | none {e : Call} : (∀ id, e = .tearDown id → s.set.tunnels.lookup id = none) → Goes base s e s

variable {base : Base} {h : History} {s t : Tunnels} {e : Call} {id : TunnelId} {epoch began : Nat}

theorem goes_call : Goes base s e (call base s e) := by
  cases e
  case elapse => exact .elapse
  case bringUp id succeeds =>
    have none : Goes base s (.bringUp id succeeds) s := .none nofun
    simp only [call]
    split
    case h_1 => exact none
    case h_2 p hp =>
      split
      case isFalse => exact none
      case isTrue hf =>
        have ⟨hf, hs⟩ := Bool.and_eq_true_iff.mp hf
        exact hs ▸ .broughtUp hp hf
  case tearDown id =>
    cases ht : s.set.tunnels.lookup id
    case some => exact .tornDown ht
    case none =>
      have he : call base s (.tearDown id) = s := by simp [call, TunnelSet.tearDown, ht]
      rw [he]
      refine .none fun j hj => ?_
      cases hj
      exact ht
  case setListenPort id port succeeds =>
    have none : Goes base s (.setListenPort id port succeeds) s := .none nofun
    simp only [call]
    split
    case h_1 => exact none
    case h_2 t ht =>
      split
      case isTrue => exact none
      case isFalse hp =>
        split
        case isTrue => exact none
        case isFalse ho =>
          split
          case isFalse => exact none
          case isTrue hs =>
            refine hs ▸ .moved ht hp fun j u hu hj he => ho ?_
            exact List.any_eq_true.mpr
              ⟨⟨j, u⟩, TunnelSet.mem_entries.mpr hu, by simpa using ⟨hj, he⟩⟩

theorem goes_of_step (hs : t = call base s e) : Goes base s e t :=
  hs ▸ goes_call

theorem distinct_run (run : Runs base epoch began h s) : s.set.Distinct := by
  induction run
  case start =>
    intro i j t u hi hj hij
    have one (k : TunnelId) (v : Tunnel)
        (hk : (boot base epoch began).set.tunnels.lookup k = some v) : k = .own epoch := by
      simpa [boot] using HashMap.mem_keys_of_lookup hk
    exact absurd ((one i t hi).trans (one j u hj).symm) hij
  case step hs ih =>
    cases goes_of_step hs
    case broughtUp hf    => exact ih.bringUp hf
    case tornDown        => exact ih.tearDown
    case moved ht _ ho   => exact ih.setListenPort ht ho
    case elapse | none   => exact ih

section Ports

-- How the address of a gateway is advertised.
def address (ip : BitVec 32) (port : Nat) : String :=
  String.ofList (socketAddrV4Chars ip port)

theorem ownTunEndpoint_address (ip : BitVec 32) (port : BitVec 16) :
    ownTunEndpoint (address ip port.toNat) =
      (checkedAddPort port.toNat OWN_TUN_PORT_OFFSET).map (address ip) := by
  simp only [ownTunEndpoint, address, String.toList_ofList, parseSocketAddrV4_chars ip port.isLt,
    Option.bind_eq_bind, Option.bind_some, BitVec.ofNat_toNat, BitVec.setWidth_eq]
  cases checkedAddPort port.toNat OWN_TUN_PORT_OFFSET <;> rfl

theorem address_port_inj (he : address ip port = address ip port') : port = port' := by
  simp only [address, String.ofList_inj, socketAddrV4Chars, List.append_cancel_left_eq,
    List.cons.injEq, true_and] at he
  exact Option.some.inj <| by rw [← parseDigits_toDigits port, he, parseDigits_toDigits]

-- A plan is where the peers look for it, if it is for a new epoch, and nowhere near that if it is not.
structure Placed (base : Base) (s : Tunnels) : Prop where
  free : ∀ id p, s.plan base id = some p → s.set.tunnels.lookup id = none → s.set.free p
  own : ∀ epoch p, s.plan base (.own epoch) = some p →
    ∀ ip, ownTunEndpoint (address ip base.port.toNat) = some (address ip p.listenPort)
  overlap : ∀ g epoch p, s.plan base (.overlap g epoch) = some p →
    ∀ ip, ownTunEndpoint (address ip base.port.toNat) ≠ some (address ip p.listenPort)

theorem placed (base : Base) (s : Tunnels) : Placed base s where
  free id p hp hi := by
    have ⟨he, _, _⟩ := planTunnel_eq_some hp
    exact TunnelSet.Fits.free (planTunnel_fits hp) (he ▸ hi)
  own epoch p hp ip := by
    have ⟨_, _, hp⟩ := planTunnel_eq_some hp
    rw [ownTunEndpoint_address, planPort_own hp]
    rfl
  overlap g epoch p hp ip he := by
    have ⟨_, _, hp⟩ := planTunnel_eq_some hp
    rw [ownTunEndpoint_address, Option.map_eq_some_iff] at he
    have ⟨_, hc, ha⟩ := he
    have ⟨_, hc⟩ := checkedAddPort_eq_some.mp hc
    have := planPort_overlap hp
    have := address_port_inj ha
    omega

end Ports

section Rest

-- The names and ports that have been given up, the latest first, with the time at which they were.
def released : History → List (TunnelPlan × Nat)
  | []                    => []
  | (u, .tearDown id) :: h =>
    match u.set.tunnels.lookup id with
    | some t => (⟨id, t.ifname, t.listenPort⟩, u.clock) :: released h
    | none   => released h
  | _ :: h                => released h

-- Of these, the ones whose port has not been moved to since.
def reserved (base : Base) : History → List (TunnelPlan × Nat)
  | []                                   => []
  | (u, .tearDown id) :: h               =>
    match u.set.tunnels.lookup id with
    | some t => (⟨id, t.ifname, t.listenPort⟩, u.clock) :: reserved base h
    | none   => reserved base h
  | (u, .setListenPort id port ok) :: h  =>
    if call base u (.setListenPort id port ok) = u then reserved base h
    else (reserved base h).filter (·.1.listenPort ≠ port)
  | _ :: h                               => reserved base h

-- What has been given up is not handed out for a while, unless too much is given up at a time.
def Rests (base : Base) (h : History) (s : Tunnels) : Prop :=
  ∀ q ∈ reserved base h, s.clock - q.2 < QUARANTINE →
    (released h).countP (fun r => q.2 ≤ r.2) ≤ MAX_QUARANTINE →
    ∀ id p, s.plan base id = some p → p.ifname ≠ q.1.ifname ∧ p.listenPort ≠ q.1.listenPort

-- No device is brought up for what one has just been torn down for.
def Unhurried (h : History) (s : Tunnels) : Call → Prop
  | .bringUp id _ => ∀ r ∈ released h, r.1.id = id → QUARANTINE ≤ s.clock - r.2
  | _             => True

instance : Decidable (Unhurried h s e) := by
  unfold Unhurried
  split <;> infer_instance

-- What rests, in the order in which it was given up.
structure Queue (h : History) (s : Tunnels) : Prop where
  sublist : s.set.quarantine.reverse.Sublist (released h)
  ordered : (released h).Pairwise fun q r => r.2 ≤ q.2
  past : ∀ q ∈ released h, q.2 ≤ s.clock

theorem released_tearDown (ht : s.set.tunnels.lookup id = some v) :
    released ((s, .tearDown id) :: h) = (⟨id, v.ifname, v.listenPort⟩, s.clock) :: released h := by
  simp [released, ht]

theorem released_of_none (hn : ∀ id, e = .tearDown id → s.set.tunnels.lookup id = none) :
    released ((s, e) :: h) = released h := by
  cases e
  case tearDown id => simp [released, hn id rfl]
  all_goals rfl

theorem reserved_of_none (he : call base s e = s)
    (hn : ∀ id, e = .tearDown id → s.set.tunnels.lookup id = none) :
    reserved base ((s, e) :: h) = reserved base h := by
  cases e
  case tearDown id   => simp [reserved, hn id rfl]
  case setListenPort => simp [reserved, he]
  all_goals rfl

theorem reserved_subset : reserved base h ⊆ released h := by
  intro q hq
  fun_induction released h
  case case1 => cases hq
  case case2 ht ih =>
    simp only [reserved, ht, List.mem_cons] at hq ⊢
    exact hq.imp_right ih
  case case3 ht ih => exact ih (by simpa only [reserved, ht] using hq)
  case case4 c h hn ih =>
    obtain ⟨s, e⟩ := c
    cases e
    case tearDown id => exact absurd rfl (hn s id)
    case setListenPort =>
      simp only [reserved] at hq
      split at hq
      case isTrue  => exact ih hq
      case isFalse => exact ih (List.mem_of_mem_filter hq)
    all_goals exact ih hq

-- What is held back when a device is torn down, before the oldest of it is dropped.
def held (s : Tunnels) (released : TunnelPlan × Nat) : List (TunnelPlan × Nat) :=
  (s.set.quarantine ++ [released]).filter fun q => s.clock - q.2 < QUARANTINE

theorem quarantine_tearDown (ht : s.set.tunnels.lookup id = some v) :
    (s.set.tearDown s.clock id).quarantine =
      (s.held (⟨id, v.ifname, v.listenPort⟩, s.clock)).drop
        ((s.held (⟨id, v.ifname, v.listenPort⟩, s.clock)).length - MAX_QUARANTINE) := by
  simp [TunnelSet.tearDown, ht, TunnelSet.pruneQuarantine, held]

theorem held_sublist (hq : Queue h s) (new : TunnelPlan × Nat) :
    (s.held new).reverse.Sublist (new :: released h) := by
  have hr : (s.set.quarantine ++ [new]).reverse.Sublist (new :: released h) := by
    rw [List.reverse_append]
    exact hq.sublist.cons_cons new
  exact .trans List.filter_sublist.reverse hr

theorem Queue.tornDown (hq : Queue h s) (ht : s.set.tunnels.lookup id = some v) :
    Queue ((s, .tearDown id) :: h) { s with set := s.set.tearDown s.clock id } := by
  constructor
  case sublist =>
    rw [quarantine_tearDown ht, released_tearDown ht]
    exact .trans (List.drop_sublist ..).reverse (held_sublist hq _)
  case ordered =>
    rw [released_tearDown ht]
    exact .cons (fun r hr => hq.past r hr) hq.ordered
  case past =>
    rw [released_tearDown ht]
    exact List.forall_mem_cons.mpr ⟨Nat.le_refl _, hq.past⟩

theorem queue_run (run : Runs base epoch began h s) : Queue h s := by
  induction run
  case start => exact ⟨.slnil, .nil, nofun⟩
  case step h s e t run hs ih =>
    cases goes_of_step hs
    case elapse ns =>
      exact ⟨ih.sublist, ih.ordered, fun q hq => Nat.le_add_right_of_le (ih.past q hq)⟩
    case tornDown ht => exact ih.tornDown ht
    case broughtUp | moved =>
      exact ⟨.trans List.filter_sublist.reverse ih.sublist, ih.ordered, ih.past⟩
    case none hn =>
      have he : released ((s, e) :: h) = released h := released_of_none hn
      exact ⟨he ▸ ih.sublist, he ▸ ih.ordered, he ▸ ih.past⟩

-- In a list that goes up, what stands in front of the last `n` has more than `n` after it.
theorem lt_countP_of_mem_take {l : List α} {f : α → Nat} {a : α} {n : Nat}
    (ho : l.Pairwise fun a b => f a ≤ f b) (ha : a ∈ l.take (l.length - n)) :
    n < l.countP fun b => f a ≤ f b := by
  have hl : n < l.length := by
    by_contra hl
    simp [Nat.sub_eq_zero_of_le (Nat.le_of_not_lt hl)] at ha
  have hs := List.pairwise_append.mp (List.take_append_drop (l.length - n) l ▸ ho)
  have back : (l.drop (l.length - n)).countP (fun b => f a ≤ f b) = n := by
    rw [List.countP_eq_length.mpr fun b hb => by simpa using hs.2.2 a ha b hb, List.length_drop]
    omega
  have front : 0 < (l.take (l.length - n)).countP fun b => f a ≤ f b :=
    List.countP_pos_iff.mpr ⟨a, ha, by simp⟩
  have whole : l.countP (fun b => f a ≤ f b) = (l.take (l.length - n)).countP (fun b => f a ≤ f b) +
      (l.drop (l.length - n)).countP fun b => f a ≤ f b := by
    rw [← List.countP_append, List.take_append_drop]
  omega

-- What is reserved is held back, has rested, or had to make room.
def Kept (base : Base) (h : History) (s : Tunnels) : Prop :=
  ∀ q ∈ reserved base h, q ∈ s.set.quarantine ∨ QUARANTINE ≤ s.clock - q.2 ∨
    MAX_QUARANTINE < (released h).countP fun r => q.2 ≤ r.2

theorem Kept.tornDown (hk : Kept base h s) (hq : Queue h s) (ht : s.set.tunnels.lookup id = some v) :
    Kept base ((s, .tearDown id) :: h) { s with set := s.set.tearDown s.clock id } := by
  have old (q : TunnelPlan × Nat) (hm : q ∈ reserved base ((s, .tearDown id) :: h)) :
      q ∈ s.set.quarantine ++ [(⟨id, v.ifname, v.listenPort⟩, s.clock)] ∨
        QUARANTINE ≤ s.clock - q.2 ∨
        MAX_QUARANTINE < (released ((s, .tearDown id) :: h)).countP fun r => q.2 ≤ r.2 := by
    simp only [reserved, ht, List.mem_cons] at hm
    cases hm
    case inl he => exact .inl (by simp [he])
    case inr hm =>
      refine (hk q hm).imp (List.mem_append_left _) fun h => h.imp_right fun h => ?_
      rw [released_tearDown ht, List.countP_cons]
      omega
  intro q hm
  by_cases hn : s.clock - q.2 < QUARANTINE
  case neg => exact .inr (.inl (Nat.le_of_not_lt hn))
  case pos =>
    cases old q hm
    case inr h => exact .inr h
    case inl hm =>
      have hm : q ∈ s.held (⟨id, v.ifname, v.listenPort⟩, s.clock) :=
        List.mem_filter.mpr ⟨hm, by simpa using hn⟩
      have hs := held_sublist hq (⟨id, v.ifname, v.listenPort⟩, s.clock)
      rw [← released_tearDown ht] at hs
      have ho := List.pairwise_reverse.mp ((hq.tornDown ht).ordered.sublist hs)
      rw [← List.take_append_drop ((s.held _).length - MAX_QUARANTINE) (s.held _),
        List.mem_append] at hm
      cases hm
      case inr hm => exact .inl (quarantine_tearDown ht ▸ hm)
      case inl hm =>
        refine .inr (.inr (Nat.lt_of_lt_of_le (lt_countP_of_mem_take ho hm) ?_))
        rw [← List.countP_reverse]
        exact hs.countP_le

theorem Kept.rests (hk : Kept base h s) : Rests base h s := by
  intro q hq hn hc id p hp
  have hm : q ∈ s.set.quarantine := by
    refine (hk q hq).resolve_right ?_
    omega
  have hf := planTunnel_fits hp
  have hm := TunnelSet.mem_plans_of_quarantine hm hn
  exact ⟨(hf.ifname _ hm).symm, (hf.port _ hm).symm⟩

theorem kept_run (run : Runs base epoch began h s) (hu : Run.Along Unhurried h) : Kept base h s := by
  induction run
  case start => nofun
  case step h s e t run hs ih =>
    have ⟨now, before⟩ := hu
    have hk := ih before
    have hc := hs
    cases goes_of_step hs
    case elapse ns =>
      exact fun q hq => (hk q hq).imp_right fun h => h.imp_left fun h => by simp only; omega
    case tornDown ht => exact hk.tornDown (queue_run run) ht
    case broughtUp id p hp hf =>
      intro q hq
      refine or_iff_not_imp_right.mpr fun hn => ?_
      have hn : s.clock - q.2 < QUARANTINE := Nat.lt_of_not_le fun h => hn (.inl h)
      have hm := (hk q hq).resolve_right ‹_›
      have hf := planTunnel_fits hp
      have hin := TunnelSet.mem_plans_of_quarantine hm hn
      have ⟨hid, _, _⟩ := planTunnel_eq_some hp
      refine List.mem_filter.mpr ⟨hm, ?_⟩
      have hi : q.1.id ≠ p.id := fun he => by
        have := now q (reserved_subset hq) (he.trans hid)
        omega
      simp [hi, hf.ifname _ hin, hf.port _ hin]
    case moved id v port ht hp ho =>
      have he : call base s (.setListenPort id port true) ≠ s := fun he => by
        have hl := congrArg (fun t : Tunnels => t.set.tunnels.lookup id) (hc.trans he)
        simp [TunnelSet.setListenPort, ht] at hl
        exact hp (congrArg Tunnel.listenPort hl).symm
      intro q hq
      simp only [reserved, he, if_false, List.mem_filter] at hq
      exact (hk q hq.1).imp_left fun hm => List.mem_filter.mpr ⟨hm, hq.2⟩
    case none hn =>
      have hr : released ((s, e) :: h) = released h := released_of_none hn
      rw [Kept, reserved_of_none hc.symm hn, hr]
      exact hk

end Rest

-- Devices share nothing, plans are in place, and what has been given up rests.
theorem tunnels_apart (run : Runs base epoch began h s) :
    s.set.Distinct ∧ Placed base s ∧ (Run.Along Unhurried h → Rests base h s) :=
  ⟨distinct_run run, placed base s, fun hu => (kept_run run hu).rests⟩

-- A device that is brought up again at once.
namespace Hurried

def gateway : Base := ⟨"wg0", 51820#16⟩

-- The first overlap is torn down, and comes back with another name. With that its old name is free.
def calls (id : TunnelId) : List Call :=
  [.bringUp id true, .tearDown (.overlap 2 1), .bringUp (.overlap 2 1) true]

def traced (id : TunnelId) : History × Tunnels :=
  Run.trace (call gateway) (boot gateway 0 0) (calls id)

theorem runs_traced (id : TunnelId) : Runs gateway 0 0 (traced id).1 (traced id).2 :=
  Run.run_trace _ _

theorem tunnels_apart_hurried :
    Runs gateway 0 0 (traced (.overlap 2 1)).1 (traced (.overlap 2 1)).2 ∧
      ¬ Rests gateway (traced (.overlap 2 1)).1 (traced (.overlap 2 1)).2 := by
  refine ⟨runs_traced _, fun h => ?_⟩
  have hp : (traced (.overlap 2 1)).2.plan gateway (.overlap 3 1) =
      some ⟨.overlap 3 1, "wg0o0", 51822⟩ := by decide +kernel
  have hq : (⟨.overlap 2 1, "wg0o0", 51822⟩, 0) ∈ reserved gateway (traced (.overlap 2 1)).1 := by
    decide +kernel
  exact (h _ hq (by decide +kernel) (by decide +kernel) _ _ hp).1 rfl

theorem tunnels_apart_other :
    (traced (.overlap 3 1)).2.set.Distinct ∧ Placed gateway (traced (.overlap 3 1)).2 ∧
      Rests gateway (traced (.overlap 3 1)).1 (traced (.overlap 3 1)).2 :=
  have ⟨distinct, placed, rests⟩ := tunnels_apart (runs_traced (.overlap 3 1))
  ⟨distinct, placed, rests (by decide +kernel)⟩

end Hurried
end Tunnels
end Gateway
