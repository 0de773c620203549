import WireMesh.Lib.Locks
import WireMesh.Gateway.Driver

-- What the operations of the path driver leave as it is, and what its tasks know.
namespace Gateway.Driver

open Prog Uapi

section Frame

inductive Part
  | locks
  | devices
  | live
  | gen
  | paths
  | pointed
  | seen
deriving DecidableEq

def Part.Same (s t : PathCtx) : Part → Prop
  | locks   => t.held = s.held
  | devices => t.devices = s.devices
  | live    => t.liveEndpoints = s.liveEndpoints
  | gen     => t.endpointCommitGen = s.endpointCommitGen
  | paths   => t.paths = s.paths
  | pointed => t.relayPointed = s.relayPointed
  | seen    => t.lastRx = s.lastRx ∧ t.lastHsAge = s.lastHsAge ∧ t.pendingHs = s.pendingHs

def Op.writes : Op → List Part
  | lock _                    => [.locks]
  | unlock _                  => [.locks]
  | pinLive _ _               => [.live]
  | bumpCommitGen             => [.gen]
  | removePeer _ _            => [.devices]
  | addPeer _ _ _             => [.devices]
  | setRelayPointed _ _       => [.pointed]
  | enterPath _ _             => [.paths]
  | unpoint _                 => [.pointed]
  | retainRelayPointed _      => [.pointed]
  | retainLiveEndpoints _     => [.live]
  | retainPaths _             => [.paths]
  | retainSeen _              => [.seen]
  | entry _ _                 => [.paths]
  | seeRx _ _                 => [.seen]
  | seeAge _ _                => [.seen]
  | takePending _             => [.seen]
  | keepPending _ _           => [.seen]
  | onHandshake _ _ _         => [.paths]
  | onAuthenticatedInbound _ _ => [.paths]
  | tick _ _ _                => [.paths]
  | pinEndpoints _            => [.live]
  | unpinLive _               => [.live]
  | _                         => []

variable {s t : PathCtx} {o : Op} {x : o.Resp}

-- An operation changes nothing but what it writes.
theorem exec_same (h : s.exec c o = some (x, t)) (hp : p ∉ o.writes) : p.Same s t := by
  cases o
  all_goals
    simp only [PathCtx.exec, PathCtx.enter, PathCtx.modifyPath] at h
    (repeat' split at h)
    all_goals cases h
    all_goals cases p <;>
      first | rfl | exact ⟨rfl, rfl, rfl⟩ | exact absurd (by simp [Op.writes]) hp

-- From outside come new devices and endpoints to dial again, and nothing else that a tick or a commit
-- writes.
theorem outside_same {p : Part} (hp : p ≠ .devices ∧ p ≠ .live) : p.Same s (s.outside v) := by
  cases v
  case relayDies =>
    rw [PathCtx.outside]
    split <;> cases p <;> first | rfl | exact ⟨rfl, rfl, rfl⟩
  all_goals cases p <;> first | rfl | exact ⟨rfl, rfl, rfl⟩ | simp at hp

end Frame

section Knowing

-- The endpoint of a peer that a commit has pinned, and the one that the device is given for it.
structure Write where
  gid : Nat
  pinned : SocketAddr
  isRelay : Bool
  endpoint : Option String
  landed : Bool := false
deriving DecidableEq

-- Where the peer has no place in the configuration, nothing but the pin is written.
def Write.configured (w : Write) : Option (DeviceConfig × Option String) → Write
  | some (dev, target) =>
    match target.bind fun pk => dev.peers.find? (·.publicKeyB64 = pk) with
    | some peer => { w with endpoint := peer.endpoint }
    | none      => w
  | none => w

-- How far a task has come with an endpoint that it commits.
inductive Stage
  | out
  | inside
  | looked (gid : Nat) (connecting : Bool)
  | yielded
  | cleared (gid : Nat)
  | pinned (w : Write)
  | bumped (w : Write)
deriving DecidableEq

-- How far a tick has come with the endpoints that it reads, and the generation that it goes by.
inductive Reading
  | out
  | gen (g : Nat)
  | read (g : Nat)
  | checked (g : Nat)
deriving DecidableEq

-- What a tick has seen of a peer.
structure Look where
  gid : Nat
  rx : Bool
  fresh : Option Bool := none
  taken : Option (Option Nat) := none
  pointed : Option Bool := none
deriving DecidableEq

def Op.locks : Op → List Lock → List Lock
  | lock l, ls   => l :: ls
  | unlock l, ls => ls.filter (· ≠ l)
  | _, ls        => ls

def Op.stageAfter : (o : Op) → Stage → o.Resp → Stage
  | lock .endpointCommit, _, _        => .inside
  | unlock .endpointCommit, _, _      => .out
  | pathState gid, .inside, x         => .looked gid (x = some .connecting)
  | relayPointed _, .looked gid c, x  => if c && !x then .cleared gid else .yielded
  | pinLive gid ep, st, _             => .pinned ⟨gid, ep, st = .inside, some ep.toString, false⟩
  | bumpCommitGen, .pinned w, _       => .bumped w
  | scopedConfig _ _ _, .bumped w, x  => .bumped (w.configured x)
  | addPeer _ _ _, .bumped w, x       => .bumped { w with landed := x }
  | pinEndpoints _, _, _              => .out
  | _, st, _                          => st

def Op.readingAfter : (o : Op) → Reading → o.Resp → Reading
  | commitGen, .out, g                    => .gen g
  | commitGen, .read g, x                 => if x = g then .checked g else .read g
  | getPeerLiveness _, .gen g, _          => .read g
  | unlock .endpointCommit, .checked g, _ => .read g
  | unlock .pathTicks, _, _               => .out
  | _, r, _                               => r

def Op.lookAfter : (o : Op) → Option Look → o.Resp → Option Look
  | seeRx gid _, _, rx         => some { gid, rx }
  | seeAge _ _, l, fresh       => l.map ({ · with fresh := some fresh })
  | takePending _, l, taken    => l.map ({ · with taken := some taken })
  | relayPointed _, l, pointed => l.map ({ · with pointed := some pointed })
  | tick _ _ _, _, _           => none
  | unlock .pathTicks, _, _    => none
  | _, l, _                    => l

structure Knows where
  holds : List Lock := []
  now : Nat := 0
  stage : Stage := .out
  transport : Option SocketAddr := none
  reading : Reading := .out
  look : Option Look := none
deriving DecidableEq

def Knows.track (o : Op) (k : Knows) (x : o.Resp) : Knows where
  holds     := o.locks k.holds
  now       := match o, x with
    | .now, x => x
    | _, _    => k.now
  stage     := o.stageAfter k.stage x
  transport := match o, x with
    | .startTransport _, x => x.or k.transport
    | _, _                 => k.transport
  reading   := o.readingAfter k.reading x
  look      := o.lookAfter k.look x

abbrev knows (i : Nat) (h : History) : Knows :=
  Pool.view Knows.track {} i h

-- Received bytes have risen, with a handshake at this tick or within the window, and no relay to carry it.
def Look.Corroborates (l : Look) (gid now : Nat) : Prop :=
  l.gid = gid ∧ l.rx = true ∧ l.pointed = some false ∧ (l.fresh = some true ∨
    ∃ hsAt, l.taken = some (some hsAt) ∧ now - hsAt ≤ HANDSHAKE_CORROBORATION_WINDOW)

-- Where a task may do what it does.
def Op.May : Op → Knows → Prop
  | unlock l, k                => l ∈ k.holds
  | now, k                     => k.look = none
  | relayPointed gid, k        =>
    (∀ g c, k.stage = .looked g c → g = gid) ∧ ∀ l ∈ k.look, l.gid = gid
  | pinLive gid ep, k          =>
    .endpointCommit ∈ k.holds ∧
      (k.stage = .cleared gid ∨ k.stage = .inside ∧ k.transport = some ep)
  | bumpCommitGen, k           =>
    .endpointCommit ∈ k.holds ∧ k.reading = .out ∧ ∃ w, k.stage = .pinned w ∧ w.landed = false
  | scopedConfig gid _ _, k    =>
    ∃ w, k.stage = .bumped w ∧ w.gid = gid ∧ w.endpoint = some w.pinned.toString ∧ w.landed = false
  | removePeer _ _, k          =>
    .endpointCommit ∈ k.holds ∧ ∃ w, k.stage = .bumped w ∧ w.landed = false
  | addPeer _ _ ep, k          =>
    .endpointCommit ∈ k.holds ∧ ∃ w, k.stage = .bumped w ∧ w.landed = false ∧
      ep = w.endpoint.bind SocketAddr.parse
  | setRelayPointed gid r, k   =>
    .endpointCommit ∈ k.holds ∧ ∃ w, k.stage = .bumped w ∧ w.gid = gid ∧ w.isRelay = r
  | startTransport _, k        => k.stage = .out
  | unpoint _, k               => .pathTicks ∈ k.holds ∧ k.stage = .out ∧ k.look = none
  | retainRelayPointed _, k    => .pathTicks ∈ k.holds ∧ k.stage = .out ∧ k.look = none
  | retainLiveEndpoints _, k   => .pathTicks ∈ k.holds ∧ k.stage = .out
  | unpinLive _, k             => .pathTicks ∈ k.holds ∧ k.stage = .out
  | retainSeen _, k            => .pathTicks ∈ k.holds ∧ k.look = none
  | commitGen, k               =>
    .pathTicks ∈ k.holds ∧
      (k.reading = .out ∨ .endpointCommit ∈ k.holds ∧ ∃ g, k.reading = .read g)
  | getPeerLiveness _, k       => .pathTicks ∈ k.holds ∧ ∃ g, k.reading = .gen g
  | pinEndpoints _, k          =>
    .endpointCommit ∈ k.holds ∧ k.stage = .inside ∧ ∃ g, k.reading = .checked g
  | seeRx _ _, k               => .pathTicks ∈ k.holds
  | seeAge gid _, k            =>
    .pathTicks ∈ k.holds ∧ ∃ l, k.look = some l ∧ l.gid = gid ∧ l.pointed = none
  | takePending gid, k         =>
    .pathTicks ∈ k.holds ∧ ∃ l, k.look = some l ∧ l.gid = gid ∧ l.fresh.isSome
  | keepPending gid time, k    =>
    .pathTicks ∈ k.holds ∧ k.now = time ∧
      ∃ l, k.look = some l ∧ l.gid = gid ∧ l.fresh = some true ∧ l.rx = false
  | onHandshake gid time c, k  =>
    c = true → .pathTicks ∈ k.holds ∧ k.now = time ∧ ∃ l, k.look = some l ∧ l.Corroborates gid time
  | _, _                       => True

end Knowing

section Programs

variable {ρ : Type} {pre : Op → ρ → Prop} {track : (o : Op) → ρ → o.Resp → ρ} {r : ρ}

-- The type of a response computes, so it is no part of what these lemmas are found by.
theorem tracks_bindOp {o : Op} {f : no_index o.Resp → P α} {Q : α → ρ → Prop} :
    (Driver.perform o >>= f).Tracks pre track Q r ↔
      pre o r ∧ ∀ x, (f x).Tracks pre track Q (track o r x) :=
  Iff.rfl

-- A task that is no tick, between its commits and within one.
def roaming (now : Nat) (transport : Option SocketAddr) : Knows :=
  { now, transport }

def committing (now : Nat) (transport : Option SocketAddr) (st : Stage) : Knows :=
  { holds := [.endpointCommit], now, transport, stage := st }

theorem tracks_setOnePeer {w : Write} (hw : w.landed = false) (he : w.endpoint = peer.endpoint) :
    (setOnePeer ifname peer).Tracks Op.May Knows.track
      (fun _ k => ∃ b, k = committing now tr (.bumped { w with landed := b }))
      (committing now tr (.bumped w)) := by
  have stays : ∃ b, committing now tr (.bumped w) = committing now tr (.bumped { w with landed := b }) :=
    ⟨false, by rw [← hw]⟩
  have add (key : Key) (w : Write) (hw : w.landed = false) (he : w.endpoint = peer.endpoint) :
      Op.May (.addPeer ifname key (peer.endpoint.bind SocketAddr.parse))
        (committing now tr (.bumped w)) :=
    ⟨.head _, w, rfl, hw, by rw [he]⟩
  rw [setOnePeer]
  split
  case h_2 => exact stays
  case h_1 =>
    refine tracks_bindOp.mpr ⟨⟨.head _, w, rfl, hw⟩, fun _ => tracks_ite.mpr ⟨fun _ => stays, ?_⟩⟩
    intro _
    split
    case h_2 => exact stays
    case h_1 =>
      refine tracks_bindOp.mpr ⟨add _ w hw he, fun ok => tracks_ite.mpr ⟨fun _ => ⟨ok, rfl⟩, fun h => ?_⟩⟩
      have hok : ok = false := by simpa using h
      exact ⟨add _ { w with landed := ok } hok he, fun ok' => ⟨ok', rfl⟩⟩

theorem tracks_applyPeerEndpointScoped {w : Write} (hw : w.landed = false)
    (he : ∀ peer, (target.bind fun pk => dev.peers.find? (·.publicKeyB64 = pk)) = some peer →
      w.endpoint = peer.endpoint) :
    (applyPeerEndpointScoped ifname dev target).Tracks Op.May Knows.track
      (fun _ k => ∃ b, k = committing now tr (.bumped { w with landed := b }))
      (committing now tr (.bumped w)) := by
  have stays : ∃ b, committing now tr (.bumped w) = committing now tr (.bumped { w with landed := b }) :=
    ⟨false, by rw [← hw]⟩
  rw [applyPeerEndpointScoped]
  split
  case h_2 => exact stays
  case h_1 peer hp =>
    refine tracks_bindOp.mpr ⟨trivial, fun a => tracks_ite.mpr ⟨fun _ => stays, fun _ => ?_⟩⟩
    refine tracks_bind.mpr <| (tracks_setOnePeer hw (he peer hp)).mono fun ok k hk => ?_
    have ⟨b, hk⟩ := hk
    subst hk
    exact tracks_ite.mpr ⟨fun _ => ⟨b, rfl⟩, fun _ => ⟨trivial, fun _ => ⟨b, rfl⟩⟩⟩

theorem tracks_mayPoint (hr : isRelay = true → tr = some ep) :
    (mayPoint gid isRelay).Tracks Op.May Knows.track
      (fun may k => ∃ st, k = committing now tr st ∧
        (may = true → st = (if isRelay then .inside else .cleared gid)))
      (committing now tr .inside) := by
  cases isRelay
  case true  => exact ⟨.inside, rfl, fun _ => rfl⟩
  case false =>
    refine tracks_bindOp.mpr ⟨trivial, fun state => tracks_bindOp.mpr ⟨?_, fun pointed => ?_⟩⟩
    case refine_1 =>
      refine ⟨fun g c hg => ?_, nofun⟩
      cases hg
      rfl
    case refine_2 =>
      refine ⟨_, rfl, fun h => ?_⟩
      exact if_pos h

theorem tracks_commitEndpoint (hr : isRelay = true → tr = some ep) :
    (commitEndpoint gid ep isRelay).Tracks Op.May Knows.track
      (fun _ k => ∃ st, k = committing now tr st) (committing now tr .inside) := by
  refine tracks_bindOp.mpr ⟨trivial, fun a => tracks_bind.mpr ?_⟩
  refine (tracks_mayPoint hr).mono fun may k hk => ?_
  have ⟨st, hk, hst⟩ := hk
  subst hk
  refine tracks_ite.mpr ⟨fun _ => ⟨st, rfl⟩, fun h => ?_⟩
  replace hst := hst (by simpa using h)
  subst hst
  refine tracks_bindOp.mpr ⟨⟨.head _, ?_⟩, fun _ => tracks_bindOp.mpr ⟨⟨.head _, rfl, _, rfl, rfl⟩, fun _ => ?_⟩⟩
  case refine_1 =>
    cases isRelay
    case true  => exact .inr ⟨rfl, hr rfl⟩
    case false => exact .inl rfl
  refine tracks_bindOp.mpr ⟨⟨_, rfl, rfl, rfl, rfl⟩, fun config => ?_⟩
  split
  case h_2 => exact ⟨_, rfl⟩
  case h_1 dev target =>
    refine tracks_bind.mpr <| (tracks_applyPeerEndpointScoped ?_ fun peer hp => ?_).mono fun ok k hk => ?_
    case refine_1 =>
      rw [Write.configured]
      split <;> rfl
    case refine_2 => rw [Write.configured, hp]
    case refine_3 =>
      have ⟨b, hk⟩ := hk
      subst hk
      refine tracks_ite.mpr ⟨fun _ => ⟨_, rfl⟩, fun _ => tracks_bindOp.mpr ⟨⟨.head _, _, rfl, ?_⟩, ?_⟩⟩
      case refine_2 => exact fun _ => ⟨_, rfl⟩
      case refine_1 =>
        rw [Write.configured]
        cases isRelay <;> split <;> exact ⟨rfl, rfl⟩

theorem tracks_setPeerEndpoint (hr : isRelay = true → tr = some ep) :
    (setPeerEndpoint gid ep isRelay).Tracks Op.May Knows.track (fun _ k => k = roaming now tr)
      (roaming now tr) := by
  refine tracks_bindOp.mpr ⟨trivial, fun _ => tracks_bind.mpr ?_⟩
  refine (tracks_commitEndpoint hr).mono fun commit k hk => ?_
  have ⟨st, hk⟩ := hk
  subst hk
  exact ⟨.head _, fun _ => rfl⟩

-- A task that is no tick learns nothing that it keeps, but for the time and its transport.
def Roams (k : Knows) : Prop :=
  ∃ now tr, k = roaming now tr

theorem tracks_punchStep (gid : Nat) (step : TrialStep) :
    (punchStep gid step).Tracks Op.May Knows.track (fun _ => Roams) (roaming now tr) := by
  cases step
  case exhausted => exact ⟨now, tr, rfl⟩
  case waiting   => exact ⟨now, tr, rfl⟩
  case punch addr =>
    refine tracks_bindOp.mpr ⟨trivial, fun _ => tracks_ite.mpr ⟨fun _ => ⟨now, tr, rfl⟩, fun _ => ?_⟩⟩
    have direct : false = true → tr = some addr := nofun
    exact tracks_bind.mpr <| (tracks_setPeerEndpoint direct).mono fun _ k hk => ⟨now, tr, hk⟩

theorem tracks_punchLoop (rounds : Nat) (t : CandidateTrial) :
    (punchLoop gid rounds t).Tracks Op.May Knows.track (fun _ => Roams) (roaming now tr) := by
  induction rounds generalizing now tr t
  case zero => exact ⟨now, tr, rfl⟩
  case succ rounds ih =>
    refine tracks_bindOp.mpr ⟨trivial, fun _ => tracks_ite.mpr ⟨fun _ => ⟨now, tr, rfl⟩, fun _ => ?_⟩⟩
    refine tracks_bindOp.mpr ⟨trivial, fun state => tracks_bindOp.mpr ⟨⟨nofun, nofun⟩, ?_⟩⟩
    intro pointed
    refine tracks_ite.mpr ⟨fun _ => ⟨now, tr, rfl⟩, fun _ => tracks_bindOp.mpr ⟨rfl, fun time => ?_⟩⟩
    split
    case h_2 => exact ⟨time, tr, rfl⟩
    refine tracks_bind.mpr <| (tracks_punchStep gid _).mono fun on k hk => ?_
    have ⟨now, tr, hk⟩ := hk
    subst hk
    refine tracks_ite.mpr ⟨fun _ => ⟨now, tr, rfl⟩, fun _ => tracks_bindOp.mpr ⟨trivial, fun state => ?_⟩⟩
    exact tracks_ite.mpr ⟨fun _ => ⟨now, tr, rfl⟩, fun _ => ih _⟩

theorem tracks_punchAndApply :
    (punchAndApply gid candidates rounds).Tracks Op.May Knows.track (fun _ => Roams)
      (roaming now tr) := by
  refine tracks_bindOp.mpr ⟨rfl, fun time => tracks_bindOp.mpr ⟨trivial, fun _ => ?_⟩⟩
  exact tracks_bindOp.mpr ⟨rfl, fun time => tracks_punchLoop _ _⟩

theorem tracks_connectRelay :
    (connectRelay gid relays).Tracks Op.May Knows.track (fun _ => Roams) (roaming now tr) := by
  refine tracks_bindOp.mpr ⟨trivial, fun _ => tracks_ite.mpr ⟨fun _ => ⟨now, tr, rfl⟩, fun _ => ?_⟩⟩
  refine tracks_bindOp.mpr ⟨trivial, fun idx => ?_⟩
  split
  case h_2 => exact ⟨now, tr, rfl⟩
  case h_1 =>
    refine tracks_bindOp.mpr ⟨trivial, fun _ => tracks_ite.mpr ⟨fun _ => ⟨now, tr, rfl⟩, fun _ => ?_⟩⟩
    refine tracks_ite.mpr ⟨fun _ => ⟨now, tr, rfl⟩, fun _ => tracks_bindOp.mpr ⟨rfl, fun addr => ?_⟩⟩
    cases addr
    case none => exact ⟨now, tr, rfl⟩
    case some addr =>
      refine tracks_bindOp.mpr ⟨trivial, fun _ => tracks_bind.mpr ?_⟩
      exact (tracks_setPeerEndpoint fun _ => rfl).mono fun _ k hk => ⟨now, some addr, hk⟩

theorem tracks_ensureRelayTransport :
    (ensureRelayTransport gid relays).Tracks Op.May Knows.track (fun _ => Roams)
      (roaming now tr) := by
  refine tracks_ite.mpr ⟨fun _ => ⟨now, tr, rfl⟩, fun _ => tracks_bindOp.mpr ⟨trivial, fun _ => ?_⟩⟩
  refine tracks_ite.mpr ⟨fun _ => ⟨now, tr, rfl⟩, fun _ => tracks_bindOp.mpr ⟨trivial, fun _ => ?_⟩⟩
  refine tracks_ite.mpr ⟨fun _ => ⟨now, tr, rfl⟩, fun _ => tracks_bind.mpr ?_⟩
  refine tracks_connectRelay.mono fun _ k hk => ?_
  have ⟨now, tr, hk⟩ := hk
  subst hk
  exact ⟨trivial, fun _ => ⟨now, tr, rfl⟩⟩

-- A tick that goes through the peers.
def collecting (now g : Nat) (l : Option Look) : Knows :=
  { holds := [.paths, .pathTicks], now, reading := .read g, look := l }

theorem tracks_observe (gid : Nat) (info : PeerLiveness) :
    (observe gid now info).Tracks Op.May Knows.track (fun _ k => ∃ l, k = collecting now g l)
      (collecting now g l) := by
  have ticks : .pathTicks ∈ (collecting now g none).holds := .tail _ (.head _)
  have own {l : Look} (hl : l.gid = gid) : ∀ l' ∈ some l, l'.gid = gid := fun _ hm => by
    cases hm
    exact hl
  refine tracks_bindOp.mpr ⟨ticks, fun rx => ?_⟩
  split
  case h_2 => exact ⟨_, rfl⟩
  case h_1 =>
    refine tracks_bindOp.mpr ⟨trivial, fun sys => tracks_bindOp.mpr ⟨⟨ticks, _, rfl, rfl, rfl⟩, ?_⟩⟩
    intro fresh
    refine tracks_ite.mpr ⟨fun h => ?_, fun h => tracks_ite.mpr ⟨fun hf => ?_, fun hf => ?_⟩⟩
    case refine_1 =>
      have ⟨hf, hrx⟩ := Bool.and_eq_true_iff.mp h
      refine tracks_bindOp.mpr ⟨⟨ticks, _, rfl, rfl, rfl⟩, fun taken => ?_⟩
      refine tracks_bindOp.mpr ⟨⟨nofun, own rfl⟩, fun pointed => tracks_ite.mpr ⟨fun _ => ?_, ?_⟩⟩
      case refine_1 => exact ⟨trivial, fun _ => ⟨_, rfl⟩⟩
      case refine_2 =>
        intro hp
        have hp : pointed = false := by simpa using hp
        refine ⟨fun _ => ⟨ticks, rfl, _, rfl, rfl, hrx, ?_, .inl ?_⟩, fun _ => ⟨_, rfl⟩⟩
        all_goals simp [hp, hf]
    case refine_2 =>
      have hrx : rx = false := by simpa [hf] using h
      refine tracks_bindOp.mpr ⟨⟨ticks, rfl, _, rfl, rfl, by simp [hf], hrx⟩, fun _ => ?_⟩
      exact ⟨nofun, fun _ => ⟨_, rfl⟩⟩
    case refine_3 =>
      refine tracks_ite.mpr ⟨fun hrx => ?_, fun _ => ⟨_, rfl⟩⟩
      refine tracks_bindOp.mpr ⟨⟨ticks, _, rfl, rfl, rfl⟩, fun taken => ?_⟩
      refine tracks_bindOp.mpr ⟨⟨nofun, own rfl⟩, fun pointed => tracks_ite.mpr ⟨fun h => ?_, ?_⟩⟩
      case refine_2 => exact fun _ => ⟨trivial, fun _ => ⟨_, rfl⟩⟩
      case refine_1 =>
        have ⟨hpr, hp⟩ := Bool.and_eq_true_iff.mp h
        have hp : pointed = false := by simpa using hp
        cases taken
        case none => simp at hpr
        case some hsAt =>
          refine ⟨fun _ => ⟨ticks, rfl, _, rfl, rfl, hrx, ?_, .inr ⟨hsAt, rfl, ?_⟩⟩, fun _ => ⟨_, rfl⟩⟩
          case refine_1 => simp [hp]
          case refine_2 => simpa using hpr

theorem tracks_collectPeer :
    (collectPeer now advertised healthy liveness peer).Tracks Op.May Knows.track
      (fun _ k => k = collecting now g none) (collecting now g none) := by
  rw [collectPeer]
  split
  case h_2 => rfl
  case h_1 =>
    split
    case h_2 => rfl
    case h_1 key _ =>
      refine tracks_bindOp.mpr ⟨trivial, fun before => tracks_bind.mpr ?_⟩
      have looks : ((liveness.lookup key).forM (observe peer.gatewayId now)).Tracks Op.May Knows.track
          (fun _ k => ∃ l, k = collecting now g l) (collecting now g none) := by
        cases liveness.lookup key
        case none      => exact ⟨_, rfl⟩
        case some info => exact tracks_observe _ _
      refine looks.mono fun _ k hk => ?_
      have ⟨l, hk⟩ := hk
      subst hk
      refine tracks_bindOp.mpr ⟨trivial, fun x => ?_⟩
      dsimp only
      exact tracks_ite.mpr ⟨fun _ => ⟨⟨nofun, nofun⟩, fun _ => rfl⟩, fun _ => rfl⟩

theorem tracks_collect (peers : List PeerState) :
    (collect now advertised healthy liveness peers).Tracks Op.May Knows.track
      (fun _ k => k = collecting now g none) (collecting now g none) := by
  induction peers
  case nil => rfl
  case cons peer peers ih =>
    refine tracks_bind.mpr <| tracks_collectPeer.mono fun found k hk => ?_
    subst hk
    exact tracks_bind.mpr <| ih.mono fun _ k hk => hk

-- A tick that has been through the peers.
def Settles (k : Knows) : Prop :=
  ∃ now r, k = { holds := [.pathTicks], now, reading := r }

theorem tracks_readThrough :
    (readThrough g found).Tracks Op.May Knows.track (fun _ => Settles)
      { holds := [.pathTicks], now, reading := .read g } := by
  refine tracks_bindOp.mpr ⟨trivial, fun pins => tracks_ite.mpr ⟨fun _ => ⟨_, _, rfl⟩, fun _ => ?_⟩⟩
  refine tracks_bindOp.mpr ⟨trivial, fun _ => tracks_bindOp.mpr ⟨⟨.tail _ (.head _), .inr ⟨.head _, g, rfl⟩⟩, ?_⟩⟩
  intro gen
  have unlock (st : Stage) (r : Reading) : (perform (.unlock .endpointCommit)).Tracks Op.May Knows.track
      (fun _ => Settles)
      { holds := [.endpointCommit, .pathTicks], now, stage := st, reading := r } :=
    ⟨.head _, fun _ => ⟨_, _, rfl⟩⟩
  refine tracks_ite.mpr ⟨fun he => ?_, fun he => ?_⟩
  case refine_1 =>
    refine tracks_bindOp.mpr ⟨⟨.head _, rfl, g, if_pos he⟩, fun _ => unlock _ _⟩
  case refine_2 => exact unlock _ _

theorem tracks_settle {f : Found → P Unit} {found : List Found}
    (hf : ∀ a now r, (f a).Tracks Op.May Knows.track (fun _ => Settles)
      { holds := [.pathTicks], now, reading := r }) (hk : Settles k) :
    (found.forM f).Tracks Op.May Knows.track (fun _ => Settles) k := by
  refine tracks_forM (fun a _ k hk => ?_) hk
  have ⟨now, r, hk⟩ := hk
  exact hk ▸ hf a now r

-- What a tick ends with.
def Knows.Done (k : Knows) : Prop :=
  k.holds = []

theorem tracks_runPathTick :
    runPathTick.Tracks Op.May Knows.track (fun _ => Knows.Done) {} := by
  have unlock {k : Knows} (hk : Settles k) : (perform (.unlock .pathTicks)).Tracks Op.May Knows.track
      (fun _ => Knows.Done) k := by
    have ⟨now, r, hk⟩ := hk
    exact hk ▸ ⟨.head _, fun _ => rfl⟩
  have out (r : Reading) : Settles { holds := [.pathTicks], reading := r } := ⟨_, _, rfl⟩
  have ticks : Lock.pathTicks ∈ [Lock.pathTicks] := .head _
  refine tracks_bindOp.mpr ⟨trivial, fun _ => tracks_bind.mpr ?_⟩
  refine (?_ : pathTick.Tracks Op.May Knows.track (fun _ => Settles) _).mono fun _ k hk => unlock hk
  refine tracks_bindOp.mpr ⟨trivial, fun a => tracks_bindOp.mpr ⟨⟨ticks, .inl rfl⟩, fun g => ?_⟩⟩
  refine tracks_bindOp.mpr ⟨⟨ticks, g, rfl⟩, fun liveness => ?_⟩
  cases liveness
  case none => exact out _
  case some liveness =>
    refine tracks_bindOp.mpr ⟨trivial, fun ds => ?_⟩
    cases ds
    case none => exact out _
    case some ds =>
      refine tracks_bindOp.mpr ⟨⟨ticks, rfl, rfl⟩, fun _ => tracks_bindOp.mpr ⟨trivial, fun _ => ?_⟩⟩
      refine tracks_bindOp.mpr ⟨⟨ticks, rfl⟩, fun _ => tracks_bindOp.mpr ⟨trivial, fun _ => ?_⟩⟩
      refine tracks_bindOp.mpr ⟨⟨ticks, rfl⟩, fun _ => tracks_bindOp.mpr ⟨trivial, fun healthy => ?_⟩⟩
      refine tracks_bindOp.mpr ⟨rfl, fun now => tracks_bindOp.mpr ⟨trivial, fun _ => ?_⟩⟩
      refine tracks_bind.mpr <| (tracks_collect ds.peers).mono fun found k hk => ?_
      subst hk
      refine tracks_bindOp.mpr ⟨.head _, fun _ => tracks_bind.mpr ?_⟩
      refine tracks_readThrough.mono fun _ k hk => tracks_bind.mpr ?_
      refine (tracks_settle (fun f now r => ?_) hk).mono fun _ k hk => tracks_bind.mpr ?_
      case refine_1 =>
        exact tracks_ite.mpr ⟨fun _ => ⟨⟨ticks, rfl⟩, fun _ => ⟨_, _, rfl⟩⟩, fun _ => ⟨_, _, rfl⟩⟩
      refine (tracks_settle (fun f now r => ?_) hk).mono fun _ k hk => tracks_bind.mpr ?_
      case refine_1 =>
        exact tracks_ite.mpr ⟨fun _ => ⟨trivial, fun _ => ⟨_, _, rfl⟩⟩, fun _ => ⟨_, _, rfl⟩⟩
      refine (tracks_settle (fun f now r => ?_) hk).mono fun _ k hk => tracks_settle (fun f now r => ?_) hk
      case refine_1 =>
        refine tracks_ite.mpr ⟨fun _ => ⟨trivial, fun _ => ⟨trivial, fun _ => ?_⟩⟩, fun _ => ⟨_, _, rfl⟩⟩
        exact ⟨⟨ticks, rfl, rfl⟩, fun _ => ⟨_, _, rfl⟩⟩
      case refine_2 =>
        refine tracks_ite.mpr ⟨fun _ => tracks_bindOp.mpr ⟨trivial, fun _ => ?_⟩, fun _ => ⟨_, _, rfl⟩⟩
        refine tracks_ite.mpr ⟨fun _ => ⟨trivial, fun _ => ?_⟩, fun _ => ⟨_, _, rfl⟩⟩
        exact ⟨⟨ticks, rfl, rfl⟩, fun _ => ⟨_, _, rfl⟩⟩

theorem tracks_prog (q : Request) : q.prog.Tracks Op.May Knows.track (fun _ => Knows.Done) {} := by
  have done (k : Knows) (hk : Roams k) : k.Done := by
    have ⟨now, tr, hk⟩ := hk
    exact hk ▸ rfl
  cases q
  case pathTick  => exact tracks_runPathTick
  case punch     => exact tracks_punchAndApply.mono fun _ => done
  case relay     => exact tracks_ensureRelayTransport.mono fun _ => done
  case directive =>
    refine tracks_bindOp.mpr ⟨trivial, fun state => tracks_bindOp.mpr ⟨⟨nofun, nofun⟩, fun _ => ?_⟩⟩
    exact tracks_ite.mpr ⟨fun _ => tracks_punchAndApply.mono fun _ => done, fun _ => rfl⟩

theorem keeps_prog (q : Request) : Pool.Keeps Op.May Knows.track q.prog {} :=
  (tracks_prog q).mono fun _ _ _ => trivial

end Programs

section Locks

-- What an operation does to the locks.
theorem locking_exec {s t : PathCtx} {o : Op} {x : o.Resp} (h : s.exec c o = some (x, t))
    (may : o.May k) : Pool.Locking s.held k.holds t.held (k.track o x).holds := by
  cases o
  case lock l =>
    simp only [PathCtx.exec] at h
    split at h
    all_goals cases h
    exact .lock l ‹_› rfl rfl
  case unlock l =>
    cases h
    exact .unlock l may rfl rfl
  all_goals exact .other (exec_same h (p := .locks) (by simp [Op.writes])) rfl

theorem holding (active : ActiveTunInfo) :
    Pool.Holding rules { active } Knows.track {} PathCtx.held Knows.holds where
  free  := rfl
  start := rfl
  env {s v t} h := by
    rw [show t = s.outside v from h]
    exact outside_same (p := .locks) (by decide)
  op {h s i o x t} run hs := by
    have may : o.May (knows i h) := Pool.pre_view keeps_prog (run.step hs)
    cases hs
    case op ha =>
      have ⟨c, hc⟩ := ha
      exact locking_exec hc may

-- Every operation is made by a task that may make it.
theorem made_of_step {o : Op} {x : o.Resp} (run : Runs active h s)
    (hs : Pool.Step rules s (.op i o x) t) :
    s.live i ∧ o.May (knows i h) ∧ ∃ c, s.shared.exec c o = some (x, t.shared) := by
  have may : o.May (knows i h) := Pool.pre_view keeps_prog (run.step hs)
  cases hs
  case op ht ha => exact ⟨Pool.live_of_getElem? ht, may, ha⟩

-- Without the lock no endpoint is being committed.
theorem stage_out {o : Op} {k : Knows} {x : o.Resp} (may : o.May k)
    (hk : .endpointCommit ∉ k.holds → k.stage = .out) :
    .endpointCommit ∉ (k.track o x).holds → (k.track o x).stage = .out := by
  intro hl
  cases o
  case lock l =>
    cases l
    case endpointCommit => exact absurd (.head _) hl
    all_goals exact hk fun hn => hl (.tail _ hn)
  case unlock l =>
    cases l
    case endpointCommit => rfl
    all_goals exact hk (by simpa [Knows.track, Op.locks] using hl)
  case pinLive | bumpCommitGen | addPeer | setRelayPointed => exact absurd may.1 hl
  case pinEndpoints => rfl
  case pathState | relayPointed | scopedConfig => simp [Knows.track, Op.stageAfter, hk hl]
  all_goals exact hk hl

end Locks
end Gateway.Driver
