import WireMesh.Gateway.Theorems.Commits

-- What a tick must have seen for a path to become direct.
namespace Gateway.Driver

section Definitions

-- The received bytes that were last seen of a peer, as long as it has not been dropped.
def lastRx (gid : Nat) : History → Option Nat
  | (_, .op _ (.seeRx g rx) _) :: h      => if g = gid then some rx else lastRx gid h
  | (_, .op _ (.retainSeen gids) _) :: h => if gid ∈ gids then lastRx gid h else none
  | (_, .halt) :: _                      => none
  | _ :: h                               => lastRx gid h
  | []                                   => none

-- The age of a handshake that was last seen of a peer, as long as it has not been dropped.
def lastAge (gid : Nat) : History → Option Nat
  | (_, .op _ (.seeAge g age) _) :: h    => if g = gid then some age else lastAge gid h
  | (_, .op _ (.retainSeen gids) _) :: h => if gid ∈ gids then lastAge gid h else none
  | (_, .halt) :: _                      => none
  | _ :: h                               => lastAge gid h
  | []                                   => none

-- The received bytes of a peer had gone up when task `i` last looked at them, or it was the first to look
-- and there were some.
def rose (i gid : Nat) : History → Bool
  | (_, .op j (.seeRx g rx) _) :: h =>
    if j = i ∧ g = gid then (lastRx gid h).elim (decide (0 < rx)) (fun prev => decide (prev < rx))
    else rose i gid h
  | _ :: h                          => rose i gid h
  | []                              => false

-- A new handshake: when it was seen, and whether a relay was pinned for the peer then.
structure Sighting where
  time : Nat
  pointed : Bool
deriving DecidableEq

-- A handshake is new if its age has gone down, or if none has been seen.
def sightings (gid : Nat) : History → List Sighting
  | (s, .op i (.seeAge g age) _) :: h =>
    if g = gid ∧ (lastAge gid h).all (fun prev => decide (age < prev)) then
      ⟨(knows i h).now, s.shared.pointed gid⟩ :: sightings gid h
    else sightings gid h
  | (_, .halt) :: _                   => []
  | _ :: h                            => sightings gid h
  | []                                => []

-- What task `i` last read of the pin to a relay.
def readPin (i gid : Nat) : History → Option Bool
  | (_, .op j (.relayPointed g) x) :: h => if j = i ∧ g = gid then some x else readPin i gid h
  | _ :: h                              => readPin i gid h
  | []                                  => none

def PathCtx.direct (s : PathCtx) (gid : Nat) : Bool :=
  (s.paths.lookup gid).any (·.state = .direct)

-- Received bytes have gone up, with a new handshake at this tick or within the window. No relay was pinned
-- for the peer when the handshake was seen, and none is pinned now.
def Evident (h : History) (gid : Nat) : SystemEvent → Prop
  | .op i (.onHandshake g now true) _ =>
    g = gid ∧ rose i gid h = true ∧ readPin i gid h = some false ∧
      ∃ v ∈ sightings gid h, v.pointed = false ∧ now - v.time ≤ HANDSHAKE_CORROBORATION_WINDOW
  | _                                 => False

-- A path becomes direct on evidence alone.
def Grounded (h : History) (s : System) (e : SystemEvent) (t : System) : Prop :=
  ∀ gid ∈ t.shared.paths.keys, t.shared.direct gid = true → s.shared.direct gid = false →
    Evident h gid e

-- A new handshake that comes without received bytes comes with no relay pinned for the peer.
def Unrelayed (h : History) (s : System) : SystemEvent → Prop
  | .op i (.seeAge gid _) fresh =>
    fresh = true → rose i gid h = false → s.shared.pointed gid = false
  | _                           => True

instance : Decidable (Evident h gid e) := by
  unfold Evident
  split <;> infer_instance

instance : Decidable (Grounded h s e t) := by
  unfold Grounded
  infer_instance

instance : Decidable (Unrelayed h s e) := by
  unfold Unrelayed
  split <;> infer_instance

end Definitions

section Paths

variable {s t : PathCtx} {o : Op} {x : o.Resp}

theorem Path.direct_of_tick {p : Path} (hd : (p.tick now relay).1.state = .direct) :
    p.state = .direct := by
  unfold Path.tick Path.giveUp at hd
  (repeat' split at hd) <;> simp_all

-- A path that is put in place of another one is direct if that one was, or if it is itself.
theorem direct_insert {paths : HashMap Nat Path} {p : Path}
    (hd : ({ s with paths := paths.insert g p } : PathCtx).direct gid = true)
    (hn : (paths.lookup gid).any (·.state = .direct) = false) : g = gid ∧ p.state = .direct := by
  rw [PathCtx.direct, HashMap.lookup_insert] at hd
  split at hd
  case isTrue he  => exact ⟨he.symm, by simpa using hd⟩
  case isFalse he => cases hn.symm.trans hd

theorem direct_enter (hd : (s.enter g now).direct gid = true) : s.direct gid = true := by
  rw [PathCtx.enter] at hd
  split at hd
  case h_1 => exact hd
  case h_2 =>
    by_contra hn
    cases (direct_insert hd (by simpa [PathCtx.direct] using hn)).2

theorem direct_modifyPath {f : Path → Path} (hd : (s.modifyPath g f).direct gid = true)
    (hn : s.direct gid = false) :
    g = gid ∧ ∃ p, s.paths.lookup g = some p ∧ (f p).state = .direct := by
  rw [PathCtx.modifyPath] at hd
  split at hd
  case h_2 => cases hn.symm.trans hd
  case h_1 p hp =>
    obtain ⟨hg, hs⟩ := direct_insert hd hn
    exact ⟨hg, p, hp, hs⟩

-- Only a handshake with received bytes makes a path direct.
theorem direct_exec (h : s.exec c o = some (x, t)) (hd : t.direct gid = true)
    (hn : s.direct gid = false) : ∃ now, o = .onHandshake gid now true := by
  have stays (g : Nat) (f : Path → Path) (hf : ∀ p, (f p).state = .direct → p.state = .direct)
      (hd : (s.modifyPath g f).direct gid = true) : False := by
    obtain ⟨hg, p, hp, hs⟩ := direct_modifyPath hd hn
    subst hg
    simp [PathCtx.direct, hp, hf p hs] at hn
  by_cases hw : .paths ∈ o.writes
  case neg =>
    have same : t.paths = s.paths := exec_same h hw
    rw [PathCtx.direct, same] at hd
    cases hn.symm.trans hd
  case pos =>
    cases o
    case enterPath g now =>
      simp only [PathCtx.exec] at h
      split at h
      all_goals cases h
      cases hn.symm.trans (direct_enter hd)
    case entry g now =>
      cases h
      cases hn.symm.trans (direct_enter hd)
    case retainPaths gids =>
      cases h
      rw [PathCtx.direct, HashMap.lookup_retain] at hd
      split at hd
      case isTrue  => cases hn.symm.trans hd
      case isFalse => cases hd
    case onHandshake g now r =>
      cases h
      cases r
      case true  => exact ⟨now, (direct_modifyPath hd hn).1 ▸ rfl⟩
      case false => exact (stays g _ (fun _ hs => hs) hd).elim
    case onAuthenticatedInbound g now =>
      cases h
      exact (stays g (·.onAuthenticatedInbound now) (fun _ hs => hs) hd).elim
    case tick g now relay =>
      simp only [PathCtx.exec] at h
      split at h
      all_goals cases h
      case h_1 p hp =>
        obtain ⟨hg, hs⟩ := direct_insert hd hn
        subst hg
        simp [PathCtx.direct, hp, Path.direct_of_tick hs] at hn
      case h_2 => cases hn.symm.trans hd
    all_goals simp [Op.writes] at hw

end Paths

section Looking

variable {h : History} {s t : System} {active : ActiveTunInfo} {k : Knows} {l : Look}

-- What a tick looks at, it looks at under its lock.
theorem look_track {o : Op} {x : o.Resp} (may : o.May k)
    (hk : k.look ≠ none → .pathTicks ∈ k.holds) :
    (k.track o x).look ≠ none → .pathTicks ∈ (k.track o x).holds := by
  intro hl
  cases o
  case lock => exact .tail _ (hk hl)
  case unlock l =>
    cases l
    case pathTicks => exact absurd rfl hl
    all_goals exact List.mem_filter.mpr ⟨hk hl, rfl⟩
  case seeRx => exact may
  case seeAge | takePending => exact may.1
  case relayPointed => exact hk fun he => hl (by simp [Knows.track, Op.lookAfter, he])
  case tick => exact absurd rfl hl
  all_goals exact hk hl

theorem held_of_look (run : Runs active h s) (hl : (knows i h).look ≠ none) :
    .pathTicks ∈ (knows i h).holds :=
  Pool.view_keeps (I := fun k => k.look ≠ none → .pathTicks ∈ k.holds) keeps_prog run
    (fun hl => absurd rfl hl) (fun _ _ _ => look_track) hl

-- What a tick remembers of a peer is what was last seen of it.
theorem seen_run (run : Runs active h s) (gid : Nat) :
    s.shared.lastRx.lookup gid = lastRx gid h ∧ s.shared.lastHsAge.lookup gid = lastAge gid h := by
  induction run
  case start => exact ⟨rfl, rfl⟩
  case step h s e t run hs ih =>
    cases hs
    case spawn => exact ih
    case halt  => exact ⟨rfl, rfl⟩
    case env v u hv =>
      have ⟨rx, age, _⟩ : Part.seen.Same s.shared u := hv ▸ outside_same (by decide)
      rw [rx, age]
      cases v <;> exact ih
    case op i o x u next ht ha =>
      have ⟨_, _, c, hc⟩ := made_of_step run (.op ht ha)
      by_cases hw : .seen ∈ o.writes
      case neg =>
        have ⟨rx, age, _⟩ : Part.seen.Same s.shared u := exec_same hc hw
        rw [rx, age]
        cases o <;> first | exact ih | simp [Op.writes] at hw
      case pos =>
        cases o
        case seeRx g rx =>
          cases hc
          refine ⟨?_, ih.2⟩
          rw [HashMap.lookup_insert, lastRx, ih.1]
          simp only [eq_comm]
        case seeAge g age =>
          cases hc
          refine ⟨ih.1, ?_⟩
          rw [HashMap.lookup_insert, lastAge, ih.2]
          simp only [eq_comm]
        case retainSeen gids =>
          cases hc
          simp [HashMap.lookup_retain, lastRx, lastAge, ih.1, ih.2]
        case takePending | keepPending =>
          cases hc
          exact ih
        all_goals simp [Op.writes] at hw

-- A pin to a relay is lifted by the tick alone, when it looks at no peer.
theorem pointed_step (run : Runs active h s) (hs : Pool.Step rules s e t)
    (hp : s.shared.pointed gid = true) : t.shared.pointed gid = true ∨ e = .halt ∨
      ∃ j o x, e = .op j o x ∧ s.live j ∧ .pathTicks ∈ (knows j h).holds ∧ (knows j h).look = none := by
  cases hs
  case spawn => exact .inl hp
  case halt  => exact .inr (.inl rfl)
  case env v u hv =>
    have same : u.relayPointed = s.shared.relayPointed :=
      hv ▸ outside_same (p := .pointed) (by decide)
    exact .inl (by rwa [PathCtx.pointed, same])
  case op j o x u next ht ha =>
    obtain ⟨hj, may, c, hc⟩ := made_of_step run (.op ht ha)
    by_cases hw : .pointed ∈ o.writes
    case neg =>
      have same : u.relayPointed = s.shared.relayPointed := exec_same hc hw
      exact .inl (by rwa [PathCtx.pointed, same])
    case pos =>
      cases o
      case unpoint | retainRelayPointed =>
        obtain ⟨ticks, _, hl⟩ := may
        exact .inr (.inr ⟨j, _, _, rfl, hj, ticks, hl⟩)
      case setRelayPointed g r =>
        cases hc
        refine .inl ?_
        rw [PathCtx.pointed, HashMap.lookup_insert]
        split
        case isFalse => exact hp
        case isTrue he =>
          obtain ⟨_, w, hw, hg, hr⟩ := may
          by_contra hn
          have hd : (knows j h).stage.direct? = some gid := by
            have hr : w.isRelay = false := hr.trans (by simpa using hn)
            simp [hw, Stage.direct?, hr, hg, he]
          cases (not_pointed_run run j hj gid hd).symm.trans hp
      all_goals simp [Op.writes] at hw

end Looking

section Evidence

variable {h : History} {s t : System} {active : ActiveTunInfo} {l : Look}

theorem mem_sightings (hv : v ∈ sightings gid h) (he : e ≠ .halt) :
    v ∈ sightings gid ((s, e) :: h) := by
  cases e
  case op i o x =>
    cases o
    case seeAge =>
      rw [sightings]
      split
      case isTrue  => exact .tail _ hv
      case isFalse => exact hv
    all_goals exact hv
  case halt => exact absurd rfl he
  all_goals exact hv

theorem rose_same (he : ∀ g rx x, e ≠ .op i (.seeRx g rx) x) :
    rose i gid ((s, e) :: h) = rose i gid h := by
  cases e
  case op j o x =>
    cases o
    case seeRx g rx =>
      refine if_neg fun ⟨hj, _⟩ => ?_
      subst hj
      exact he g rx x rfl
    all_goals rfl
  all_goals rfl

theorem readPin_same (he : ∀ g x, e ≠ .op i (.relayPointed g) x) :
    readPin i gid ((s, e) :: h) = readPin i gid h := by
  cases e
  case op j o x =>
    cases o
    case relayPointed g =>
      refine if_neg fun ⟨hj, _⟩ => ?_
      subst hj
      exact he g x rfl
    all_goals rfl
  all_goals rfl

-- What a tick has found of a peer is so. No relay was pinned when a handshake was seen that waits for
-- received bytes, and none that was pinned has gone.
structure Seen (h : History) (s : PathCtx) (i now : Nat) (l : Look) : Prop where
  rx : l.rx = rose i l.gid h
  pin : ∀ b, l.pointed = some b → readPin i l.gid h = some b
  fresh : l.fresh = some true → ∃ v ∈ sightings l.gid h, v.time = now ∧
    (l.rx = false ∨ l.pointed = some false → v.pointed = false) ∧
    (v.pointed = true → s.pointed l.gid = true)
  taken : ∀ hsAt, l.taken = some (some hsAt) →
    ∃ v ∈ sightings l.gid h, v.time = hsAt ∧ v.pointed = false

-- No relay was pinned when a handshake was seen that is remembered.
def Pending (h : History) (s : PathCtx) : Prop :=
  ∀ gid hsAt, s.pendingHs.lookup gid = some hsAt →
    ∃ v ∈ sightings gid h, v.time = hsAt ∧ v.pointed = false

theorem Seen.keep (seen : Seen h s.shared i now l) (hh : e ≠ .halt)
    (hr : rose i l.gid ((s, e) :: h) = rose i l.gid h)
    (hp : readPin i l.gid ((s, e) :: h) = readPin i l.gid h)
    (pinned : s.shared.pointed l.gid = true → u.pointed l.gid = true) :
    Seen ((s, e) :: h) u i now l where
  rx         := seen.rx.trans hr.symm
  pin b hb   := hp.trans (seen.pin b hb)
  fresh hf   := by
    have ⟨v, hv, ht, hn, hs⟩ := seen.fresh hf
    exact ⟨v, mem_sightings hv hh, ht, hn, fun hv => pinned (hs hv)⟩
  taken a ha := by
    have ⟨v, hv, ht, hn⟩ := seen.taken a ha
    exact ⟨v, mem_sightings hv hh, ht, hn⟩

-- A relay stays pinned while a tick looks at a peer.
theorem pointed_of_look (run : Runs active h s) (hs : Pool.Step rules s e t) (hi : s.live i)
    (hl : (knows i h).look ≠ none) (hh : e ≠ .halt) (hp : s.shared.pointed gid = true) :
    t.shared.pointed gid = true := by
  rcases pointed_step run hs hp with hp | hn | ⟨j, _, _, _, hj, ticks, hn⟩
  case inl         => exact hp
  case inr.inl     => exact absurd hn hh
  case inr.inr =>
    have alone := (Pool.exclusive_run (holding _) run).alone i j _ hi hj (held_of_look run hl) ticks
    exact absurd (alone ▸ hn) hl

-- What a tick does itself.
theorem Seen.own {o : Op} {x : o.Resp} (run : Runs active h s)
    (hs : Pool.Step rules s (.op i o x) t) (unrelayed : Unrelayed h s (.op i o x))
    (pending : Pending h s.shared)
    (seen : ∀ l, (knows i h).look = some l → Seen h s.shared i (knows i h).now l) :
    ∀ l, ((knows i h).track o x).look = some l →
      Seen ((s, .op i o x) :: h) t.shared i ((knows i h).track o x).now l := by
  obtain ⟨hi, may, c, hc⟩ := made_of_step run hs
  intro l hl
  have stays (l : Look) (hl : (knows i h).look = some l) (ho : ∀ g rx, o ≠ .seeRx g rx)
      (ho' : ∀ g, o ≠ .relayPointed g) :
      Seen ((s, .op i o x) :: h) t.shared i (knows i h).now l := by
    refine (seen l hl).keep (by simp) (rose_same fun g rx x he => ?_) (readPin_same fun g x he => ?_)
      (pointed_of_look run hs hi (by simp [hl]) (by simp))
    case refine_1 => cases he; exact ho g rx rfl
    case refine_2 => cases he; exact ho' g rfl
  cases o
  case unlock l =>
    cases l
    case pathTicks => cases hl
    all_goals exact stays _ hl (by simp) (by simp)
  case tick => cases hl
  case now => cases may.symm.trans hl
  case seeRx g rx =>
    cases hl
    refine ⟨?_, by simp, by simp, by simp⟩
    rw [rose, if_pos ⟨rfl, rfl⟩, ← (seen_run run g).1]
    exact (congrArg Prod.fst (Option.some.inj hc)).symm
  case seeAge g age =>
    obtain ⟨_, l₀, hl₀, hg, hn⟩ := may
    obtain ⟨rx, pin, _, taken⟩ := stays l₀ hl₀ (by simp) (by simp)
    simp only [Knows.track, Op.lookAfter, hl₀, Option.map_some] at hl
    cases hl
    refine ⟨rx, pin, fun hx => ?_, taken⟩
    have hx : x = true := Option.some.inj hx
    have new : (lastAge g h).all (fun prev => decide (age < prev)) = true := by
      rw [← (seen_run run g).2]
      exact (congrArg Prod.fst (Option.some.inj hc)).trans hx
    refine ⟨⟨(knows i h).now, s.shared.pointed g⟩, ?_, rfl, fun hv => ?_, fun hv => ?_⟩
    case refine_1 =>
      rw [hg, sightings, if_pos ⟨rfl, new⟩]
      exact .head _
    case refine_2 =>
      cases hv
      case inl hv => exact unrelayed hx (hg ▸ (seen l₀ hl₀).rx.symm.trans hv)
      case inr hv => cases hn.symm.trans hv
    case refine_3 => exact hg ▸ pointed_of_look run hs hi (by simp [hl₀]) (by simp) hv
  case takePending g =>
    obtain ⟨_, l₀, hl₀, hg, _⟩ := may
    obtain ⟨rx, pin, fresh, _⟩ := stays l₀ hl₀ (by simp) (by simp)
    simp only [Knows.track, Op.lookAfter, hl₀, Option.map_some] at hl
    cases hl
    refine ⟨rx, pin, fresh, fun hsAt hx => ?_⟩
    have hx : x = some hsAt := Option.some.inj hx
    obtain ⟨v, hv, ht⟩ := pending g hsAt ((congrArg Prod.fst (Option.some.inj hc)).trans hx)
    exact ⟨v, mem_sightings (hg ▸ hv) (by simp), ht⟩
  case relayPointed g =>
    obtain ⟨l₀, hl₀, hl⟩ := Option.map_eq_some_iff.mp hl
    have hg : l₀.gid = g := may.2 l₀ hl₀
    obtain ⟨rx, pin, fresh, taken⟩ := seen l₀ hl₀
    subst hl
    refine ⟨rx.trans (rose_same fun _ _ _ he => by cases he).symm, fun b hb => ?_, fun hf => ?_, fun hsAt ha => ?_⟩
    case refine_1 => exact (if_pos ⟨rfl, hg.symm⟩).trans hb
    case refine_2 =>
      obtain ⟨v, hv, ht, hn, hp⟩ := fresh hf
      refine ⟨v, mem_sightings hv (by simp), ht, fun hn' => ?_, fun hv => ?_⟩
      case refine_2 => exact pointed_of_look run hs hi (by simp [hl₀]) (by simp) (hp hv)
      case refine_1 =>
        cases hn'
        case inl hr => exact hn (.inl hr)
        case inr hx =>
          have hx : s.shared.pointed g = false :=
            (congrArg Prod.fst (Option.some.inj hc)).trans (Option.some.inj hx)
          by_contra hv
          cases hx.symm.trans (hg ▸ hp (by simpa using hv))
    case refine_3 =>
      obtain ⟨v, hv, ht⟩ := taken hsAt ha
      exact ⟨v, mem_sightings hv (by simp), ht⟩
  all_goals exact stays l hl (by simp) (by simp)

theorem Pending.step (run : Runs active h s) (hs : Pool.Step rules s e t)
    (pending : Pending h s.shared)
    (seen : ∀ i, s.live i → ∀ l, (knows i h).look = some l → Seen h s.shared i (knows i h).now l) :
    Pending ((s, e) :: h) t.shared := by
  intro gid hsAt hp
  have keep (hh : e ≠ .halt) (hp : s.shared.pendingHs.lookup gid = some hsAt) :
      ∃ v ∈ sightings gid ((s, e) :: h), v.time = hsAt ∧ v.pointed = false := by
    have ⟨v, hv, ht⟩ := pending gid hsAt hp
    exact ⟨v, mem_sightings hv hh, ht⟩
  cases hs
  case spawn => exact keep nofun hp
  case halt  => cases hp
  case env v u hv =>
    have ⟨_, _, same⟩ : Part.seen.Same s.shared u := hv ▸ outside_same (by decide)
    exact keep nofun (same ▸ hp)
  case op i o x u next ht ha =>
    have ⟨hi, may, c, hc⟩ := made_of_step run (.op ht ha)
    by_cases hw : .seen ∈ o.writes
    case neg =>
      have ⟨_, _, same⟩ : Part.seen.Same s.shared u := exec_same hc hw
      exact keep nofun (same ▸ hp)
    case pos =>
      cases o
      case seeRx | seeAge =>
        cases hc
        exact keep nofun hp
      case takePending g =>
        cases hc
        rw [HashMap.lookup_erase] at hp
        split at hp
        case isTrue  => cases hp
        case isFalse => exact keep nofun hp
      case retainSeen gids =>
        cases hc
        rw [HashMap.lookup_retain] at hp
        split at hp
        case isTrue  => exact keep nofun hp
        case isFalse => cases hp
      case keepPending g time =>
        cases hc
        rw [HashMap.lookup_insert] at hp
        split at hp
        case isFalse => exact keep nofun hp
        case isTrue he =>
          cases hp
          have ⟨_, hn, l, hl, hg, hf, hr⟩ := may
          have ⟨v, hv, ht, hp, _⟩ := (seen i hi l hl).fresh hf
          exact ⟨v, mem_sightings (he ▸ hg ▸ hv) nofun, ht.trans hn, hp (.inl hr)⟩
      all_goals simp [Op.writes] at hw

theorem seen_step (run : Runs active h s) (hs : Pool.Step rules s e t) (unrelayed : Unrelayed h s e)
    (pending : Pending h s.shared)
    (seen : ∀ i, s.live i → ∀ l, (knows i h).look = some l → Seen h s.shared i (knows i h).now l) :
    ∀ i, t.live i → ∀ l, (knows i ((s, e) :: h)).look = some l →
      Seen ((s, e) :: h) t.shared i (knows i ((s, e) :: h)).now l := by
  intro i hi l hl
  have hh : e ≠ .halt := fun he => by
    subst he
    cases hs
    exact absurd hi (Pool.not_live_halt i)
  have goes : Pool.Goes Knows.track {} h s e i _ := Pool.goes_step run hs hi
  cases goes
  case start q he hv =>
    rw [knows, hv] at hl
    cases hl
  case rest hi he hv =>
    rw [knows, hv] at hl ⊢
    exact (seen i hi l hl).keep hh (rose_same fun _ _ _ => he _ _) (readPin_same fun _ _ => he _ _)
      (pointed_of_look run hs hi (by simp [hl]) hh)
  case own o x he hi hv =>
    rw [knows, hv] at hl ⊢
    subst he
    exact Seen.own run hs unrelayed pending (seen i hi) l hl

theorem seen_pending_run (run : Runs active h s) (unrelayed : Run.Along Unrelayed h) :
    Pending h s.shared ∧
      ∀ i, s.live i → ∀ l, (knows i h).look = some l → Seen h s.shared i (knows i h).now l := by
  induction run
  case start => exact ⟨fun _ _ hp => (by cases hp), nofun⟩
  case step h s e t run hs ih =>
    have ⟨pending, seen⟩ := ih unrelayed.2
    exact ⟨pending.step run hs seen, seen_step run hs unrelayed.1 pending seen⟩

theorem direct_grounded (run : Runs active h s) (unrelayed : Run.Along Unrelayed h) :
    Run.Each Grounded h s := by
  induction run
  case start => trivial
  case step h s e t run hs ih =>
    refine ⟨?_, ih unrelayed.2⟩
    intro gid hm hd hn
    clear hm
    cases hs
    case spawn => cases hn.symm.trans hd
    case halt  => cases hd
    case env v u hv =>
      have same : u.paths = s.shared.paths := hv ▸ outside_same (p := .paths) (by decide)
      rw [PathCtx.direct, same] at hd
      cases hn.symm.trans hd
    case op i o x u next ht ha =>
      have ⟨hi, may, c, hc⟩ := made_of_step run (.op ht ha)
      have ⟨now, ho⟩ := direct_exec hc hd hn
      subst ho
      have ⟨_, hnow, l, hl, hg, hrx, hp, hs⟩ := may rfl
      have seen := (seen_pending_run run unrelayed.2).2 i hi l hl
      subst hg
      refine ⟨rfl, seen.rx.symm.trans hrx, seen.pin false hp, ?_⟩
      cases hs
      case inl hf =>
        have ⟨v, hv, ht, hn, _⟩ := seen.fresh hf
        exact ⟨v, hv, hn (.inr hp), by simp [ht, hnow]⟩
      case inr hs =>
        have ⟨hsAt, hs, hw⟩ := hs
        have ⟨v, hv, ht, hn⟩ := seen.taken hsAt hs
        exact ⟨v, hv, hn, ht ▸ hw⟩

end Evidence

-- A handshake comes while a relay is pinned, and received bytes once the relay has been given up.
namespace Carried

open OnePeer

def peer (age rxBytes : Nat) : Liveness :=
  AList.insert (List.replicate 32 0xbb) ⟨some age, rxBytes, none⟩ ∅

def moves (relays : List Controller.RelayInfo) : List (Pool.Move Request Outside) :=
  [.spawn (.relay 7 relays), .run 0 50, .env (.relayDies 7 .timedOut), .env (.device "wg0" (peer 1 0)),
    .spawn .pathTick, .run 1 50, .env (.device "wg0" (peer 2 92)), .spawn .pathTick, .run 2 50]

def carried (relays : List Controller.RelayInfo) : History × System :=
  played (moves relays)

set_option maxRecDepth 10000 in
theorem direct_grounded_relayed :
    Runs active (carried relays).1 (carried relays).2 ∧
      ¬ Run.Each Grounded (carried relays).1 (carried relays).2 :=
  ⟨runs_played _, by decide +kernel⟩

set_option maxRecDepth 10000 in
theorem direct_grounded_unrelayed :
    (carried []).2.shared.direct 7 = true ∧ Run.Each Grounded (carried []).1 (carried []).2 :=
  ⟨by decide +kernel, direct_grounded (runs_played _) (by decide +kernel)⟩

end Carried
end Gateway.Driver
