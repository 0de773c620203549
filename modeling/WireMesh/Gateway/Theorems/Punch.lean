import Mathlib
import WireMesh.Policy.Net
import WireMesh.Gateway.Punch

namespace Gateway.Punch

section Targets

-- The network that a CIDR stands for once it was accepted.
def netOf (cidr : String) : Option Ipv4Net := do
  let (ip, len) ← Text.splitOnce '/' cidr.toList
  let addr ← Text.parseIpv4Addr ip
  let len ← Text.parseUnsigned 8 len
  if h : len ≤ 32 then some { addr, prefixLen := len, prefixLen_le := h } else none

abbrev netsOf (cidrs : List String) : List Ipv4Net :=
  cidrs.filterMap netOf

-- A packet may be sent to the address to wake the peer that has the CIDRs.
def WakesBy (cidrs : List String) (a : Ipv4Addr) : Prop :=
  (∃ cidr ∈ cidrs, firstHostOf cidr = some (String.ofList (Text.ipv4Chars a))) ∨
    nudgeTarget cidrs = some a

-- The first host is looked for without regard to whether the network has room for one.
def firstHost (n : Ipv4Net) : Ipv4Addr :=
  n.network + 1

theorem ipv4Chars_injective : Function.Injective fun a => String.ofList (Text.ipv4Chars a) := by
  intro a b h
  have h : Text.ipv4Chars a = Text.ipv4Chars b := String.ofList_injective h
  have hp := congrArg Text.parseIpv4Addr h
  simpa only [Text.parseIpv4Addr_ipv4Chars, Option.some.injEq] using hp

theorem exists_netOf (h : Uapi.validateIpv4Cidr cidr = .ok ()) : ∃ n, netOf cidr = some n := by
  have hv : Uapi.isValidIpv4Cidr cidr := by
    by_contra hv
    simp [Uapi.validateIpv4Cidr, hv] at h
  rw [Uapi.isValidIpv4Cidr] at hv
  split at hv
  case h_1 => cases hv
  case h_2 ip len hs =>
    simp only [Bool.and_eq_true, Option.isSome_iff_exists, Option.any_eq_true] at hv
    have ⟨⟨addr, ha⟩, n, hn, hl⟩ := hv
    simp only [decide_eq_true_eq] at hl
    simp [netOf, hs, ha, hn, hl]

theorem netOf_eq_some (h : netOf cidr = some n) :
    ∃ ip len, Text.splitOnce '/' cidr.toList = some (ip, len) ∧
      Text.parseIpv4Addr ip = some n.addr ∧ Text.parseUnsigned 32 len = some n.prefixLen := by
  simp only [netOf, Option.bind_eq_bind, Option.bind_eq_some_iff] at h
  obtain ⟨⟨ip, len⟩, hs, addr, ha, l, hl, h⟩ := h
  split at h
  case isFalse => cases h
  case isTrue =>
    cases h
    exact ⟨ip, len, hs, ha, Text.parseUnsigned_mono (by decide) hl⟩

theorem firstHostOf_eq (h : netOf cidr = some n) :
    firstHostOf cidr = some (String.ofList (Text.ipv4Chars (firstHost n))) := by
  have ⟨ip, len, hs, ha, hl⟩ := netOf_eq_some h
  have hm : (if n.prefixLen = 0 then 0#32 else BitVec.allOnes 32 <<< (32 - n.prefixLen)) =
      Prefix.netmask 32 n.prefixLen := by
    split
    case isTrue h  => rw [h]; rfl
    case isFalse h => rfl
  rw [firstHost, Ipv4Net.network, ← hm]
  simp [firstHostOf, hs, ha, hl, n.prefixLen_le]

theorem nudgeHost_eq (h : netOf cidr = some n) :
    nudgeHost cidr =
      if n.prefixLen = 0 then none else if n.prefixLen = 32 then some n.addr
      else some (firstHost n) := by
  have ⟨ip, len, hs, ha, hl⟩ := netOf_eq_some h
  simp [nudgeHost, hs, ha, hl, n.prefixLen_le, firstHost, Ipv4Net.network, Prefix.netmask]

-- A network of more than one address has its first host.
theorem containsAddr_firstHost (n : Ipv4Net) (h : n.prefixLen < 32) :
    n.containsAddr (firstHost n) := by
  have hn := Prefix.and_netmask_toNat n.addr n.prefixLen
  have hb := Prefix.or_hostmask_toNat n.addr n.prefixLen_le
  have hs : 2 ≤ 2 ^ (32 - n.prefixLen) := Nat.le_self_pow (by omega) 2
  have hlt := (n.addr ||| Prefix.hostmask 32 n.prefixLen).isLt
  have hf : (firstHost n).toNat = n.network.toNat + 1 := by
    rw [firstHost, BitVec.toNat_add, Ipv4Net.network, hn]
    exact Nat.mod_eq_of_lt (by simp; omega)
  rw [Ipv4Net.containsAddr_def, BitVec.le_def, BitVec.le_def, hf, Ipv4Net.broadcast, hb,
    Ipv4Net.network, hn]
  omega

theorem firstHost_of_full (h : n.prefixLen = 32) : firstHost n = n.addr + 1 := by
  have hm : Prefix.netmask 32 32 = BitVec.allOnes 32 := by decide
  rw [firstHost, Ipv4Net.network, h, hm, BitVec.and_allOnes]

variable {cidrs : List String}

theorem wakesBy_firstHost (hn : n ∈ netsOf cidrs) : WakesBy cidrs (firstHost n) := by
  have ⟨cidr, hc, hn⟩ := List.mem_filterMap.mp hn
  exact .inl ⟨cidr, hc, firstHostOf_eq hn⟩

theorem nudgeTarget_eq_some (hv : ∀ cidr ∈ cidrs, Uapi.validateIpv4Cidr cidr = .ok ())
    (h : nudgeTarget cidrs = some a) : ∃ n ∈ netsOf cidrs, n.containsAddr a := by
  have ⟨cidr, hc, ha⟩ := List.exists_of_findSome?_eq_some h
  have ⟨n, hn⟩ := exists_netOf (hv cidr hc)
  refine ⟨n, List.mem_filterMap.mpr ⟨cidr, hc, hn⟩, ?_⟩
  rw [nudgeHost_eq hn] at ha
  split_ifs at ha <;> cases ha
  case pos      => exact Ipv4Net.containsAddr_addr
  case neg _ hf => exact containsAddr_firstHost n (Nat.lt_of_le_of_ne n.prefixLen_le hf)

-- The targets are all inside unless the address after one that stands alone is outside.
theorem wakes_inside_iff (cidrs : List String)
    (hv : ∀ cidr ∈ cidrs, Uapi.validateIpv4Cidr cidr = .ok ()) :
    (∀ a, WakesBy cidrs a → ∃ n ∈ netsOf cidrs, n.containsAddr a) ↔
      ∀ n ∈ netsOf cidrs, n.prefixLen = 32 → ∃ m ∈ netsOf cidrs, m.containsAddr (n.addr + 1) := by
  constructor
  case mp =>
    intro h n hn hf
    exact firstHost_of_full hf ▸ h _ (wakesBy_firstHost hn)
  case mpr =>
    intro h a ha
    cases ha
    case inr ha => exact nudgeTarget_eq_some hv ha
    case inl ha =>
      have ⟨cidr, hc, ha⟩ := ha
      have ⟨n, hn⟩ := exists_netOf (hv cidr hc)
      have hm : n ∈ netsOf cidrs := List.mem_filterMap.mpr ⟨cidr, hc, hn⟩
      have ha : firstHost n = a :=
        ipv4Chars_injective <| Option.some.inj <| (firstHostOf_eq hn).symm.trans ha
      by_cases hf : n.prefixLen = 32
      case pos => exact ha ▸ firstHost_of_full hf ▸ h n hm hf
      case neg =>
        exact ha ▸ ⟨n, hm, containsAddr_firstHost n (Nat.lt_of_le_of_ne n.prefixLen_le hf)⟩

theorem wakes_inside_iff_segment :
    ¬∃ a, WakesBy ["10.10.2.77/24", "10.10.2.8/32"] a ∧
      ¬∃ n ∈ netsOf ["10.10.2.77/24", "10.10.2.8/32"], n.containsAddr a :=
  have h := (wakes_inside_iff ["10.10.2.77/24", "10.10.2.8/32"] (by decide)).mpr (by decide +kernel)
  fun ⟨a, ha, hn⟩ => hn (h a ha)

theorem host_route_wakes_its_neighbour :
    Uapi.validateIpv4Cidr "10.0.0.5/32" = .ok () ∧ WakesBy ["10.0.0.5/32"] 0x0a000006#32 ∧
      ¬ ∃ n ∈ netsOf ["10.0.0.5/32"], n.containsAddr 0x0a000006#32 := by
  refine ⟨by decide, .inl ⟨_, List.mem_singleton_self _, by decide +kernel⟩, by decide +kernel⟩

end Targets

section Trial

-- What a trial still has to do: the candidates that are left, and since when the current one is
-- tried.
inductive Plan
  | untried (addr : SocketAddr) (rest : List SocketAddr)
  | trying (since : Nat) (rest : List SocketAddr)
  | spent

namespace Plan

def poll (timeout now : Nat) : Plan → TrialStep × Plan
  | untried addr rest => (.punch addr, trying now rest)
  | spent             => (.exhausted, spent)
  | trying since rest =>
    if now - since < timeout then (.waiting, trying since rest)
    else match rest with
      | []           => (.exhausted, spent)
      | addr :: rest => (.punch addr, trying now rest)

def log (timeout : Nat) : Plan → List Nat → List (Nat × TrialStep)
  | _, []           => []
  | p, now :: times => (now, (p.poll timeout now).1) :: (p.poll timeout now).2.log timeout times

def due : Plan → List SocketAddr
  | untried addr rest => addr :: rest
  | trying _ rest     => rest
  | spent             => []

def since : Plan → Option Nat
  | trying since _ => some since
  | _              => none

end Plan

-- The trial is at that point of the plan. The index is in bounds wherever it is used.
inductive Follows (t : CandidateTrial) : Plan → Prop
  | untried (he : t.exhausted = false) (hp : t.punchedCurrent = false)
      (hd : t.candidates.drop t.idx = addr :: rest) : Follows t (.untried addr rest)
  | trying (he : t.exhausted = false) (hp : t.punchedCurrent = true)
      (hd : t.candidates.drop (t.idx + 1) = rest) : Follows t (.trying t.currentStarted rest)
  | spent (he : t.exhausted = true) : Follows t .spent

-- The candidates that may be punched, in their order.
def dialable (candidates : List String) : List SocketAddr :=
  candidates.filterMap fun c =>
    (SocketAddr.parse c).filter fun addr => !addr.isUnspecified && !addr.isLoopback

def Plan.start (addrs : List SocketAddr) : Plan :=
  match addrs with
  | []           => .spent
  | addr :: rest => .untried addr rest

section Follows

open CandidateTrial (new)

variable {t : CandidateTrial} {p : Plan}

theorem candidates_new (cs : List String) (now : Nat) : (new cs now).candidates = dialable cs :=
  List.filter_filterMap ..

theorem follows_new (cs : List String) (now : Nat) :
    Follows (new cs now) (.start (dialable cs)) := by
  have hc := candidates_new cs now
  have he : (new cs now).exhausted = (new cs now).candidates.isEmpty := rfl
  rw [hc] at he
  generalize dialable cs = addrs at hc he ⊢
  cases addrs
  case nil  => exact .spent he
  case cons => exact .untried he rfl hc

theorem getElem?_of_drop {as : List α} (h : as.drop i = a :: rest) :
    as[i]? = some a ∧ as.drop (i + 1) = rest := by
  have h₀ : (as.drop i)[0]? = some a := h ▸ rfl
  have h₁ : (as.drop i).drop 1 = rest := h ▸ rfl
  simpa using And.intro h₀ h₁

theorem Follows.poll (h : Follows t p) (now timeout : Nat) :
    ∃ t', t.poll now timeout = some ((p.poll timeout now).1, t') ∧
      Follows t' (p.poll timeout now).2 := by
  cases h
  case spent he => exact ⟨t, by simp [CandidateTrial.poll, he, Plan.poll], .spent he⟩
  case untried addr rest he hp hd =>
    have ⟨hi, hr⟩ := getElem?_of_drop hd
    exact ⟨{ t with punchedCurrent := true, currentStarted := now },
      by simp [CandidateTrial.poll, he, hp, hi, Plan.poll], .trying he rfl hr⟩
  case trying rest he hp hd =>
    by_cases hw : now - t.currentStarted < timeout
    case pos =>
      simp only [Plan.poll, if_pos hw]
      exact ⟨t, by simp [CandidateTrial.poll, he, hp, hw], .trying he hp hd⟩
    case neg =>
      simp only [Plan.poll, if_neg hw]
      cases rest
      case nil =>
        have hl : t.candidates.length ≤ t.idx + 1 := List.drop_eq_nil_iff.mp hd
        exact ⟨{ t with idx := t.idx + 1, exhausted := true },
          by simp [CandidateTrial.poll, he, hp, hw, hl], .spent rfl⟩
      case cons addr rest =>
        have ⟨hi, hr⟩ := getElem?_of_drop hd
        have hl : ¬t.candidates.length ≤ t.idx + 1 := by
          have ⟨hl, _⟩ := List.getElem?_eq_some_iff.mp hi
          omega
        exact ⟨{ t with idx := t.idx + 1, currentStarted := now },
          by simp [CandidateTrial.poll, he, hp, hw, hl, hi], .trying he hp hr⟩

theorem Follows.polls (h : Follows t p) : t.polls timeout times = some (p.log timeout times) := by
  induction times generalizing t p
  case nil => rfl
  case cons now times ih =>
    have ⟨t', hp, hf⟩ := h.poll now timeout
    simp [CandidateTrial.polls, hp, ih hf, Plan.log]

end Follows

section Log

variable {timeout : Nat} {log : List (Nat × TrialStep)} {times : List Nat}

def punched : TrialStep → Option SocketAddr
  | .punch addr => some addr
  | _           => none

-- The candidates that were punched, with their times.
def punches (log : List (Nat × TrialStep)) : List (Nat × SocketAddr) :=
  log.filterMap fun (now, step) => (punched step).map (now, ·)

namespace Plan

variable {p : Plan}

-- What a poll tells and leaves to do. Nothing is given up before its time is up.
inductive Polled (timeout now : Nat) (p : Plan) : TrialStep → Plan → Prop
  | punch (hd : p.due = addr :: p'.due) (hs : p'.since = some now)
      (hw : ∀ s ∈ p.since, timeout ≤ now - s) : Polled timeout now p (.punch addr) p'
  | waiting : Polled timeout now p .waiting p
  | exhausted (hd : p.due = []) (hw : ∀ s ∈ p.since, timeout ≤ now - s) :
      Polled timeout now p .exhausted .spent

theorem polled (timeout now : Nat) (p : Plan) :
    p.Polled timeout now (p.poll timeout now).1 (p.poll timeout now).2 := by
  cases p
  case untried addr rest => exact .punch rfl rfl nofun
  case spent             => exact .exhausted rfl nofun
  case trying since rest =>
    simp only [poll]
    by_cases hw : now - since < timeout
    case pos => rw [if_pos hw]; exact .waiting
    case neg =>
      have hw : ∀ s ∈ (trying since rest).since, timeout ≤ now - s := by simpa [Plan.since] using hw
      rw [if_neg (by assumption)]
      cases rest
      case nil  => exact .exhausted rfl hw
      case cons => exact .punch rfl rfl hw

theorem log_spent (timeout : Nat) (times : List Nat) :
    spent.log timeout times = times.map (·, .exhausted) := by
  induction times
  case nil               => rfl
  case cons now times ih => rw [log, List.map_cons, ← ih]; rfl

theorem punches_exhausted (times : List Nat) : punches (times.map (·, .exhausted)) = [] := by
  simp [punches, punched]

@[simp]
theorem punches_punch : punches ((now, .punch addr) :: log) = (now, addr) :: punches log :=
  rfl

theorem map_fst_log (p : Plan) : (p.log timeout times).map Prod.fst = times := by
  induction times generalizing p
  case nil               => rfl
  case cons now times ih => rw [log, List.map_cons, ih]

theorem punches_of_due : (punches (p.log timeout times)).map Prod.snd <+: p.due := by
  induction times generalizing p
  case nil => exact List.nil_prefix
  case cons now times ih =>
    have hp := polled timeout now p
    rw [log]
    generalize (p.poll timeout now).1 = step, (p.poll timeout now).2 = p' at hp
    have ih := ih (p := p')
    cases hp
    case punch _ hd _   => exact hd ▸ List.cons_prefix_cons.mpr ⟨rfl, ih⟩
    case waiting        => exact ih
    case exhausted hd _ => exact hd ▸ ih

-- Since the current candidate was punched, the time has only gone on.
abbrev Behind (p : Plan) (times : List Nat) : Prop :=
  ∀ s ∈ p.since, ∀ now ∈ times, s ≤ now

theorem Polled.behind (h : p.Polled timeout now step p') (ht : (now :: times).Pairwise (· ≤ ·))
    (hb : p.Behind (now :: times)) : p'.Behind times := by
  have ⟨hn, _⟩ := List.pairwise_cons.mp ht
  cases h
  case waiting      => exact fun s hs t ht => hb s hs t (.tail _ ht)
  case exhausted    => nofun
  case punch _ _ hs =>
    intro s h t ht
    cases hs.symm.trans h
    exact hn t ht

theorem add_le_of_behind (hb : p.Behind (now :: times)) (hw : ∀ s ∈ p.since, timeout ≤ now - s) :
    ∀ s ∈ p.since, s + timeout ≤ now := by
  intro s hs
  have := hb s hs now (.head _)
  have := hw s hs
  omega

theorem punches_apart (timeout : Nat) (ht : times.Pairwise (· ≤ ·)) (hb : p.Behind times) :
    (p.since.toList ++ (punches (p.log timeout times)).map Prod.fst).IsChain
      fun s now => s + timeout ≤ now := by
  induction times generalizing p
  case nil => cases p <;> simp [log, punches, Plan.since]
  case cons now times ih =>
    have hp := polled timeout now p
    rw [log]
    generalize (p.poll timeout now).1 = step, (p.poll timeout now).2 = p' at hp
    have ih := ih ht.tail (hp.behind ht hb)
    cases hp
    case waiting         => exact ih
    case exhausted hd hw =>
      have hn : punches ((now, .exhausted) :: spent.log timeout times) = [] :=
        log_spent timeout times ▸ punches_exhausted (now :: times)
      rw [hn]
      cases p.since <;> simp
    case punch addr hw hd hs =>
      have hw := add_le_of_behind hb hw
      rw [hs] at ih
      cases hp : p.since
      case none   => exact ih
      case some s => exact .cons_cons (hw s hp) ih

theorem exhausted_split (ht : times.Pairwise (· ≤ ·)) (hb : p.Behind times)
    (hl : p.log timeout times = before ++ (now, .exhausted) :: after) :
    (punches before).map Prod.snd = p.due ∧
      (∀ s ∈ (p.since.toList ++ (punches before).map Prod.fst).getLast?, s + timeout ≤ now) ∧
      ∀ e ∈ after, e.2 = .exhausted := by
  induction times generalizing p before
  case nil => simp [log] at hl
  case cons t times ih =>
    have hp := polled timeout t p
    rw [log] at hl
    generalize (p.poll timeout t).1 = step, (p.poll timeout t).2 = p' at hp hl
    have hb' := hp.behind ht hb
    cases hp
    case waiting =>
      cases before
      case nil => cases hl
      case cons entry before =>
        have ⟨he, hr⟩ := List.cons.inj hl
        subst he
        have h := ih ht.tail hb' hr
        exact h
    case punch addr hw hd hs =>
      cases before
      case nil => cases hl
      case cons entry before =>
        have ⟨he, hr⟩ := List.cons.inj hl
        have ⟨h₁, h₂, h₃⟩ := ih ht.tail hb' hr
        subst he
        rw [hs] at h₂
        refine ⟨by rw [punches_punch, List.map_cons, h₁, hd], ?_, h₃⟩
        rwa [punches_punch, List.map_cons, List.getLast?_append_of_ne_nil _ (by simp)]
    case exhausted hd hw =>
      -- From here on all entries are the same, and the times only go on.
      have hl : (t :: times).map (·, .exhausted) = before ++ (now, .exhausted) :: after := by
        rw [← hl, log_spent]
        rfl
      have ⟨l₁, l₂, hs, h₁, h₂⟩ := List.map_eq_append_iff.mp hl
      have hn : now ∈ t :: times := by
        have hm : (now, TrialStep.exhausted) ∈ (t :: times).map (·, .exhausted) := by simp [hl]
        simpa using hm
      have hle : t ≤ now := by
        cases hn
        case head    => exact Nat.le_refl _
        case tail hn => exact (List.pairwise_cons.mp ht).1 now hn
      have hw := add_le_of_behind hb hw
      refine ⟨by rw [← h₁, punches_exhausted, hd]; rfl, ?_, ?_⟩
      case refine_1 =>
        rw [← h₁, punches_exhausted, List.map_nil, List.append_nil]
        intro s hs
        exact Nat.le_trans (hw s (by cases hp : p.since <;> simp_all)) hle
      case refine_2 =>
        intro e he
        have hm : e ∈ l₂.map (·, TrialStep.exhausted) := h₂ ▸ .tail _ he
        have ⟨_, _, h⟩ := List.mem_map.mp hm
        exact h ▸ rfl

end Plan

theorem trial_punches_in_turn (candidates : List String) (start timeout : Nat) (times : List Nat)
    (ht : times.Pairwise (· ≤ ·)) :
    ∃ log, (CandidateTrial.new candidates start).polls timeout times = some log ∧
      log.map Prod.fst = times ∧
      (punches log).map Prod.snd <+: dialable candidates ∧
      (punches log).IsChain (fun a b => a.1 + timeout ≤ b.1) ∧
      ∀ before now after, log = before ++ (now, .exhausted) :: after →
        (punches before).map Prod.snd = dialable candidates ∧
        (∀ last ∈ (punches before).getLast?, last.1 + timeout ≤ now) ∧
        ∀ e ∈ after, e.2 = .exhausted := by
  have hf := follows_new candidates start
  have hd : (Plan.start (dialable candidates)).due = dialable candidates := by
    cases dialable candidates <;> rfl
  have hs : (Plan.start (dialable candidates)).since = none := by
    cases dialable candidates <;> rfl
  generalize Plan.start (dialable candidates) = p at hf hd hs
  have hb : p.Behind times := fun s h => by cases hs.symm.trans h
  refine ⟨_, hf.polls, p.map_fst_log, hd ▸ Plan.punches_of_due, ?_, ?_⟩
  case refine_1 =>
    have hc := Plan.punches_apart timeout ht hb
    rw [hs] at hc
    exact (List.isChain_map _).mp hc
  case refine_2 =>
    intro before now after hl
    have ⟨h₁, h₂, h₃⟩ := Plan.exhausted_split ht hb hl
    refine ⟨hd ▸ h₁, fun last hm => h₂ last.1 ?_, h₃⟩
    rw [hs, Option.toList_none, List.nil_append, List.getLast?_map]
    exact Option.mem_map_of_mem _ hm

-- Two candidates are left of five, and the driver polls at irregular times.
theorem trial_punches_in_turn_irregularly :
    ∃ log, (CandidateTrial.new ["203.0.113.7:51820", "0.0.0.0:9", "127.0.0.1:9", "x", "10.0.0.2:1"]
        5).polls 4 [7, 8, 11, 11, 20, 20] = some log ∧
      (punches log).map Prod.fst = [7, 11] ∧ (20, TrialStep.exhausted) ∈ log := by
  have ⟨log, hp, _⟩ := trial_punches_in_turn
    ["203.0.113.7:51820", "0.0.0.0:9", "127.0.0.1:9", "x", "10.0.0.2:1"] 5 4
    [7, 8, 11, 11, 20, 20] (by decide)
  refine ⟨log, hp, ?_⟩
  cases Option.some.inj <| hp.symm.trans (by decide +kernel : _ = some
    [(7, .punch ⟨0xcb007107#32, 51820#16⟩), (8, .waiting), (11, .punch ⟨0x0a000002#32, 1#16⟩),
      (11, .waiting), (20, .exhausted), (20, .exhausted)])
  decide

end Log
end Trial
end Gateway.Punch
