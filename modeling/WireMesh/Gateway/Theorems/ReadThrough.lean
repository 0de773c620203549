import WireMesh.Gateway.Theorems.Commits

-- What a tick may pin of what it has read on the device.
namespace Gateway.Driver

section Definitions

-- Whose pin a peer has, and whether the endpoint that was pinned has come to the device since task `i`
-- last read it.
inductive Origin
  | other
  | commit (j : Nat) (landed : Bool)
deriving DecidableEq

def Origin.lands (j : Nat) : Origin → Origin
  | commit k landed => .commit k (landed || decide (k = j))
  | other           => .other

def Origin.reads : Origin → Origin
  | commit k _ => .commit k false
  | other      => .other

def Origin.overtaken : Origin → Bool
  | commit _ landed => landed
  | other           => false

def origin (i gid : Nat) : History → Origin
  | [] => .other
  | (_, .op j (.pinLive g _) _) :: h =>
    if g = gid then .commit j false else origin i gid h
  | (_, .op j (.addPeer _ _ _) x) :: h =>
    if x then (origin i gid h).lands j else origin i gid h
  | (_, .op j (.getPeerLiveness _) _) :: h =>
    if j = i then (origin i gid h).reads else origin i gid h
  | (_, .op _ (.pinEndpoints changes) _) :: h =>
    if gid ∈ changes.map (·.1) then .other else origin i gid h
  | (_, .op _ (.unpinLive g) _) :: h =>
    if g = gid then .other else origin i gid h
  | (_, .op _ (.retainLiveEndpoints gids) _) :: h =>
    if gid ∈ gids then origin i gid h else .other
  | (_, .env (.redial g _)) :: h =>
    if g = gid then .other else origin i gid h
  | (_, .halt) :: _ => .other
  | _ :: h => origin i gid h

-- The pin of a commit is not replaced by what the device held before the commit came to it.
def Current (h : History) (_ : System) : SystemEvent → Prop
  | .op i (.pinEndpoints changes) _ => ∀ c ∈ changes, (origin i c.1 h).overtaken = false
  | _                               => True

-- Whether any endpoint has come to the device since task `i` last read it.
def landedSince (i : Nat) : History → Bool
  | (_, .op _ (.addPeer _ _ _) x) :: h     => x || landedSince i h
  | (_, .op j (.getPeerLiveness _) _) :: h => if j = i then false else landedSince i h
  | _ :: h                                 => landedSince i h
  | []                                     => false

-- The generation is read where no commit has gone up to it with its write still to be made.
def Calm (h : History) (s : System) : SystemEvent → Prop
  | .op _ .commitGen _ => ∀ j < s.tasks.length, s.live j → (knows j h).stage.unlanded = false
  | _                  => True

instance : Decidable (Current h s e) := by
  unfold Current
  split <;> infer_instance

instance : Decidable (Calm h s e) := by
  unfold Calm
  split <;> infer_instance

end Definitions

section Readings

namespace Reading

-- What an operation makes of a reading.
inductive Goes : (o : Op) → Reading → o.Resp → Reading → Prop
  | stays : Goes o r x r
  | leave : Goes o r x .out
  | start : Goes .commitGen .out g (.gen g)
  | read : Goes (.getPeerLiveness ifname) (.gen g) x (.read g)
  | check : Goes .commitGen (.read g) g (.checked g)
  | lapse : Goes o (.checked g) x (.read g)

theorem goes (o : Op) (r : Reading) (x : o.Resp) : Goes o r x (o.readingAfter r x) := by
  cases o
  case unlock l =>
    cases l
    case pathTicks => exact .leave
    case paths     => exact .stays
    case endpointCommit =>
      cases r
      case checked => exact .lapse
      all_goals exact .stays
  case commitGen =>
    cases r
    case out => exact .start
    case read g =>
      rw [Op.readingAfter]
      split
      case isTrue he => exact he ▸ .check
      case isFalse   => exact .stays
    all_goals exact .stays
  case getPeerLiveness =>
    cases r
    case gen => exact .read
    all_goals exact .stays
  all_goals exact .stays

-- The generation that a tick goes by.
def gen? : Reading → Option Nat
  | out                        => none
  | gen g | read g | checked g => some g

def hasRead : Reading → Bool
  | read _ | checked _ => true
  | _                  => false

end Reading

-- The generation is compared under the lock.
theorem checked_track {o : Op} {x : o.Resp} {k : Knows} (may : o.May k)
    (hk : ∀ g, k.reading = .checked g → .endpointCommit ∈ k.holds) :
    ∀ g, (k.track o x).reading = .checked g → .endpointCommit ∈ (k.track o x).holds := by
  intro g hg
  cases o
  case lock => exact .tail _ (hk g hg)
  case unlock l =>
    cases l
    case pathTicks => cases hg
    case paths     => exact List.mem_filter.mpr ⟨hk g hg, rfl⟩
    case endpointCommit =>
      obtain ⟨_, _, _, _, r, _⟩ := k
      cases r <;> cases hg
  case commitGen =>
    cases may.2
    case inr hm => exact hm.1
    case inl ho =>
      simp only [Knows.track, Op.readingAfter, ho] at hg
      cases hg
  case getPeerLiveness =>
    obtain ⟨_, _, _, _, r, _⟩ := k
    cases r
    case gen => cases hg
    all_goals exact hk g hg
  all_goals exact hk g hg

theorem held_of_checked (run : Runs active h s) (hc : (knows i h).reading = .checked g) :
    .endpointCommit ∈ (knows i h).holds :=
  Pool.view_keeps (I := fun k => ∀ g, k.reading = .checked g → .endpointCommit ∈ k.holds)
    keeps_prog run (fun _ hg => by cases hg) (fun _ _ _ => checked_track) g hc

theorem landedSince_of_overtaken (ho : (origin i gid h).overtaken = true) :
    landedSince i h = true := by
  fun_induction origin i gid h
  case case4 => rfl
  case case5 hx ih => exact Bool.or_eq_true_iff.mpr (.inr (ih ho))
  case case6 h ih =>
    generalize origin i gid h = whose at ho
    cases whose <;> cases ho
  case case7 hj ih => exact (if_neg hj).trans (ih ho)
  case case17 adds reads _ _ _ _ _ ih =>
    rw [landedSince]
    case x_1 => exact adds
    case x_2 => exact reads
    exact ih ho
  all_goals first | cases ho | exact ‹_ → landedSince i _ = true› ho

-- No write is still to be made for a generation that has gone up.
def Landed (h : History) (s : System) : Prop :=
  ∀ j, s.live j → (knows j h).stage.unlanded = false

theorem landed_step (run : Runs active h s) (hs : Pool.Step rules s e t)
    (hb : ∀ j, e ≠ .op j .bumpCommitGen ()) (hl : Landed h s) : Landed ((s, e) :: h) t := by
  refine Pool.views_step (I := fun k : Knows => k.stage.unlanded = false) run hs (fun _ _ => rfl) ?_
    fun j hj _ => hl j hj
  intro j o x he hj
  subst he
  by_contra hu
  cases unlanded_track (made_of_step run hs).2.1 (by simpa using hu)
  case inl hu => cases (hl j hj).symm.trans hu
  case inr ho =>
    subst ho
    exact hb j rfl

-- What comes to the device was still to be made.
theorem landedSince_step (run : Runs active h s) (hs : Pool.Step rules s e t) (hl : Landed h s)
    (hn : landedSince i h = false) : landedSince i ((s, e) :: h) = false := by
  cases e
  case op j o x =>
    have ⟨hj, may, _⟩ := made_of_step run hs
    cases o
    case addPeer =>
      have ⟨_, w, hw, hn, _⟩ := may
      have hu := hl j hj
      simp [hw, Stage.unlanded, hn] at hu
    case getPeerLiveness =>
      rw [landedSince]
      split
      case isTrue  => rfl
      case isFalse => exact hn
    all_goals exact hn
  all_goals exact hn

theorem gen_step (run : Runs active h s) (hs : Pool.Step rules s e t)
    (hb : ∀ j, e ≠ .op j .bumpCommitGen ()) (hh : e ≠ .halt) :
    t.shared.endpointCommitGen = s.shared.endpointCommitGen := by
  cases hs
  case spawn  => rfl
  case halt   => exact absurd rfl hh
  case env hv => exact hv ▸ outside_same (p := .gen) (by decide)
  case op j o x u next ht ha =>
    have ⟨_, _, c, hc⟩ := made_of_step run (.op ht ha)
    refine exec_same hc (p := .gen) ?_
    cases o
    case bumpCommitGen => exact absurd rfl (hb j)
    all_goals simp [Op.writes]

-- Where the generation is still the one that a tick goes by, nothing has come to the device since it was
-- read there, and nothing is about to.
structure Reads (h : History) (s : System) (i : Nat) (r : Reading) : Prop where
  old : ∀ g, r.gen? = some g → g ≤ s.shared.endpointCommitGen
  calm : r.gen? = some s.shared.endpointCommitGen → Landed h s
  read : r.gen? = some s.shared.endpointCommitGen → r.hasRead → landedSince i h = false
  checked : ∀ g, r = .checked g → g = s.shared.endpointCommitGen

namespace Reads

theorem out : Reads h s i .out where
  old _ hg     := by cases hg
  calm hg      := by cases hg
  read hg      := by cases hg
  checked _ hg := by cases hg

theorem keep (inv : Reads h s i r) (run : Runs active h s) (hs : Pool.Step rules s e t)
    (hb : ∀ j, e ≠ .op j .bumpCommitGen ()) (hh : e ≠ .halt) : Reads ((s, e) :: h) t i r := by
  have same := gen_step run hs hb hh
  constructor
  case old     => exact same ▸ inv.old
  case calm    => exact fun hg => landed_step run hs hb (inv.calm (same ▸ hg))
  case read    =>
    exact fun hg hr => landedSince_step run hs (inv.calm (same ▸ hg)) (inv.read (same ▸ hg) hr)
  case checked => exact same ▸ inv.checked

-- A generation that has gone up is no tick's.
theorem bumped (inv : Reads h s i r) (hs : Pool.Step rules s (.op j .bumpCommitGen ()) t)
    (hr : ∀ g, r ≠ .checked g) : Reads ((s, .op j .bumpCommitGen ()) :: h) t i r := by
  have up : t.shared.endpointCommitGen = s.shared.endpointCommitGen + 1 := by
    cases hs
    case op ht ha =>
      have ⟨_, hc⟩ := ha
      cases hc
      rfl
  have later (hg : r.gen? = some t.shared.endpointCommitGen) : False := by
    have := inv.old _ hg
    omega
  constructor
  case old     => exact fun g hg => up ▸ Nat.le_succ_of_le (inv.old g hg)
  case calm    => exact fun hg => (later hg).elim
  case read    => exact fun hg => (later hg).elim
  case checked => exact fun g hg => absurd hg (hr g)

-- What a tick does itself.
theorem own {o : Op} {x : o.Resp} (inv : Reads ((s, .op i o x) :: h) t i r)
    (run : Runs active h s) (hs : Pool.Step rules s (.op i o x) t)
    (calm : Calm h s (.op i o x)) (goes : r.Goes o x r') :
    Reads ((s, .op i o x) :: h) t i r' := by
  have ⟨hi, may, c, hc⟩ := made_of_step run hs
  cases goes
  case stays => exact inv
  case leave => exact out
  case start =>
    cases hs
    case op ht ha =>
    cases hc
    have landed : Landed h s := fun j hj => calm j (Pool.lt_of_live hj) hj
    constructor
    case old     => exact fun g hg => (Option.some.inj hg).symm.le
    case calm    => exact fun _ => landed_step run (.op ht ha) (fun _ he => by cases he) landed
    case read    => exact fun _ hr => by cases hr
    case checked => exact fun g hg => by cases hg
  case read =>
    refine ⟨inv.old, inv.calm, fun _ _ => ?_, fun g hg => by cases hg⟩
    exact if_pos rfl
  case check =>
    cases hs
    case op ht ha =>
    cases hc
    refine ⟨inv.old, inv.calm, fun hg _ => inv.read hg rfl, fun g hg => ?_⟩
    cases hg
    rfl
  case lapse => exact ⟨inv.old, inv.calm, fun hg _ => inv.read hg rfl, fun g hg => by cases hg⟩

end Reads

theorem reads_run (run : Runs active h s) (calm : Run.Along Calm h) :
    ∀ i, s.live i → Reads h s i (knows i h).reading := by
  induction run
  case start => rintro i ⟨⟩
  case step h s e t run hs ih =>
    have ih := ih calm.2
    have ex := Pool.exclusive_run (holding _) run
    have hh (i : Nat) (hi : t.live i) : e ≠ .halt := fun he => by
      subst he
      cases hs
      exact absurd hi (Pool.not_live_halt i)
    intro i hi
    have goes : Pool.Goes Knows.track {} h s e i _ := Pool.goes_step run hs hi
    cases goes
    case start q he hv =>
      rw [knows, hv]
      exact .out
    case rest hl he hv =>
      rw [knows, hv]
      by_cases hb : ∃ j, e = .op j .bumpCommitGen ()
      case neg => exact (ih i hl).keep run hs (fun j he => hb ⟨j, he⟩) (hh i hi)
      case pos =>
        obtain ⟨j, hj⟩ := hb
        subst hj
        obtain ⟨hj, may, _⟩ := made_of_step run hs
        refine (ih i hl).bumped hs fun g hg => ?_
        cases ex.alone j i _ hj hl may.1 (held_of_checked run hg)
        exact he _ _ rfl
    case own o x he hl hv =>
      rw [knows, hv]
      subst he
      by_cases hb : ∃ j, (.op i o x : SystemEvent) = .op j .bumpCommitGen ()
      case neg =>
        have inv := (ih i hl).keep run hs (fun j he => hb ⟨j, he⟩) (hh i hi)
        exact inv.own run hs calm.1 (Reading.goes ..)
      case pos =>
        obtain ⟨j, hj⟩ := hb
        cases hj
        obtain ⟨_, may, _⟩ := made_of_step run hs
        have ho : ((knows i h).track .bumpCommitGen ()).reading = .out := may.2.1
        rw [ho]
        exact .out

theorem readThrough_current (run : Runs active h s) (calm : Run.Along Calm h) :
    Run.Along Current h := by
  induction run
  case start => trivial
  case step h s e t run hs ih =>
    refine ⟨?_, ih calm.2⟩
    cases hs
    case op i o x u next ht ha =>
      have ⟨hi, may, c, hc⟩ := made_of_step run (.op ht ha)
      cases o
      case pinEndpoints changes =>
        intro c hm
        have ⟨_, _, g, hg⟩ := may
        have reads := hg ▸ reads_run run calm.2 i hi
        have unread := reads.read (congrArg some (reads.checked g rfl)) rfl
        by_contra ho
        cases unread.symm.trans (landedSince_of_overtaken (by simpa using ho))
      all_goals trivial
    all_goals trivial

end Readings

-- A peer is punched while a tick reads the device.
namespace Punched

open OnePeer

-- The device hears the peer from another address.
def heard : Liveness :=
  AList.insert (List.replicate 32 0xbb) ⟨some 1, 92, SocketAddr.parse "203.0.113.7:1024"⟩ ∅

-- The trial is at its `n`th operation when the peer is heard and the tick reads the device.
def moves (n : Nat) : List (Pool.Move Request Outside) :=
  [.spawn (.punch 7 ["192.0.2.7:51820"] 1), .run 0 n, .env (.device "wg0" heard), .spawn .pathTick,
    .run 1 4, .run 0 50, .run 1 50]

def punched (n : Nat) : History × System :=
  played (moves n)

-- The generation has gone up, and the address that the tick has read is written over.
set_option maxRecDepth 10000 in
theorem readThrough_current_bumped :
    Runs active (punched 14).1 (punched 14).2 ∧ ¬ Run.Along Current (punched 14).1 ∧
      (punched 14).2.shared.liveEndpoints.lookup 7 = some "203.0.113.7:1024" :=
  ⟨runs_played _, by decide +kernel, by decide +kernel⟩

set_option maxRecDepth 10000 in
theorem readThrough_current_committed :
    (∃ e ∈ (punched 50).1, e.2 matches .op 1 (.pinEndpoints _) _) ∧
      Run.Along Current (punched 50).1 :=
  ⟨by decide +kernel, readThrough_current (runs_played _) (by decide +kernel)⟩

end Punched
end Gateway.Driver
