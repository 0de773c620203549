import WireMesh.Lib.Locks
import WireMesh.Controller.Sweep
import WireMesh.Controller.Theorems.Broker

-- How often the sweeps punch a pair of gateways, and whether they punch both.
namespace Controller.Hub

open Prog Pool

section Effects

variable {s t : Hub} {o : Op} {x : o.Resp} {key : Int × Int}

@[simp]
theorem broker_trySend (s : Hub) (g : Int) (m : SyncMessage) :
    (s.trySend g m).2.broker = s.broker := by
  rw [trySend]
  split <;> rfl

@[simp]
theorem looping_trySend (s : Hub) (g : Int) (m : SyncMessage) :
    (s.trySend g m).2.looping = s.looping := by
  rw [trySend]
  split <;> rfl

@[simp]
theorem broker_sendPair (s : Hub) (a b : Int) (forA forB : PunchDirective) :
    (s.sendPair a b forA forB).2.broker = s.broker := by
  rw [sendPair]
  split
  case isTrue  => simp
  case isFalse => rfl

@[simp]
theorem looping_sendPair (s : Hub) (a b : Int) (forA forB : PunchDirective) :
    (s.sendPair a b forA forB).2.looping = s.looping := by
  rw [sendPair]
  split
  case isTrue  => simp
  case isFalse => rfl

theorem trySend_eq_accepts (s : Hub) (g : Int) (m : SyncMessage) :
    (s.trySend g m).1 = s.accepts g := by
  rw [trySend, accepts]
  cases s.registry.lookup g
  case none => rfl
  case some c => cases ha : c.accepts <;> simp [PunchChannel.trySend, ha]

theorem lookup_trySend_of_ne (h : g' ≠ g) (s : Hub) (m : SyncMessage) :
    (s.trySend g m).2.registry.lookup g' = s.registry.lookup g' := by
  rw [trySend]
  split
  case h_1 => exact AList.lookup_insert_ne h
  case h_2 => rfl

theorem accepts_trySend_of_ne (h : g' ≠ g) (s : Hub) (m : SyncMessage) :
    (s.trySend g m).2.accepts g' = s.accepts g' := by
  rw [accepts, accepts, lookup_trySend_of_ne h]

-- The pair has been sent to if both of its channels take what they get.
theorem sendPair_eq_true_iff (h : a ≠ b) : (s.sendPair a b forA forB).1 = true ↔
    a ∈ s.registry ∧ b ∈ s.registry ∧ s.accepts a ∧ s.accepts b := by
  rw [sendPair]
  split
  case isTrue hr =>
    simp only [Bool.and_eq_true, trySend_eq_accepts, accepts_trySend_of_ne h.symm, hr, true_and]
  case isFalse hr => exact iff_of_false nofun fun ⟨ha, hb, _⟩ => hr ⟨ha, hb⟩

theorem attempts_countAttempt (broker : Broker) (k : Int × Int) :
    attempts (countAttempt broker k) key =
      if key = k then attempts broker key + 1 else attempts broker key := by
  rw [attempts, countAttempt, HashMap.lookup_insert]
  split
  case isTrue h => rw [h]; rfl
  case isFalse  => rfl

theorem attempts_resetPair (broker : Broker) (a b : Int) :
    attempts (resetPair broker a b) key = if key = pairKey a b then 0 else attempts broker key := by
  rw [attempts, resetPair, HashMap.lookup_erase]
  split <;> rfl

-- What an operation does to the number of attempts on a pair.
def Op.recount (key : Int × Int) (n : Nat) : Op → Nat
  | countAttempt k => if key = k then n + 1 else n
  | resetPair a b  => if key = pairKey a b then 0 else n
  | _              => n

theorem attempts_of_answers (h : Answers s o x t) :
    attempts t.broker key = o.recount key (attempts s.broker key) := by
  cases h
  case done he =>
    cases o
    case enterLoop =>
      simp only [exec] at he
      split at he
      all_goals cases he
      rfl
    case sendPair =>
      have ht : _ = t := congrArg Prod.snd (Option.some.inj he)
      exact ht ▸ congrArg (attempts · key) (broker_sendPair ..)
    case countAttempt => cases he; exact attempts_countAttempt ..
    case resetPair    => cases he; exact attempts_resetPair ..
    all_goals cases he; rfl
  all_goals rfl

def Op.loops (looping : Bool) : Op → Bool
  | enterLoop => true
  | leaveLoop => false
  | _         => looping

theorem looping_of_answers (h : Answers s o x t) : t.looping = o.loops s.looping := by
  cases h
  case done he =>
    cases o
    case enterLoop =>
      simp only [exec] at he
      split at he
      all_goals cases he
      rfl
    case sendPair =>
      have ht : _ = t := congrArg Prod.snd (Option.some.inj he)
      exact ht ▸ looping_sendPair ..
    all_goals cases he; rfl
  all_goals rfl

theorem not_looping_of_enterLoop (h : Answers s .enterLoop u t) : s.looping = false := by
  cases h
  case done he =>
    simp only [exec] at he
    split at he
    case isTrue     => cases he
    case isFalse hl => exact Bool.not_eq_true _ |>.mp hl

theorem outside_broker (s : Hub) (v : Outside) : (s.outside v).broker = s.broker := by
  cases v
  case taken | closed => simp only [outside, channel]; split <;> rfl
  case queued         => exact broker_trySend ..
  case dropped        => simp only [outside]; split <;> rfl
  all_goals rfl

theorem outside_looping (s : Hub) (v : Outside) : (s.outside v).looping = s.looping := by
  cases v
  case taken | closed => simp only [outside, channel]; split <;> rfl
  case queued         => exact looping_trySend ..
  case dropped        => simp only [outside]; split <;> rfl
  all_goals rfl

end Effects

section Programs

-- How far a sweep has come with a pair.
inductive Stage
  | idle
  | checked (key : Int × Int)
  | sent (key : Int × Int)
deriving DecidableEq

-- What a task knows of its own work.
structure View where
  inLoop : Bool := false
  stage : Stage := .idle

-- A sweep has found that the pair may be sent to, or has done so.
def View.At (v : View) (key : Int × Int) : Prop :=
  v.stage = .checked key ∨ v.stage = .sent key

def track : (o : Op) → View → o.Resp → View
  | .enterLoop, _, _                    => { inLoop := true }
  | .leaveLoop, _, _                    => {}
  | .attempts key, v, n                 =>
    { v with stage := if n < MAX_PERIODIC_ATTEMPTS then .checked key else .idle }
  | .sendPair .sweep a b _ _, v, isSent =>
    { v with stage := if isSent then .sent (pairKey a b) else .idle }
  | .countAttempt _, v, _               => { v with stage := .idle }
  | _, v, _                             => v

theorem inLoop_track (o : Op) (v : View) (x : o.Resp) :
    (track o v x).inLoop = o.loops v.inLoop := by
  cases o
  case sendPair why _ _ _ _ => cases why <;> rfl
  all_goals rfl

-- The two directives are each other's counterparts.
structure Counterparts (a b : Int) (forA forB : PunchDirective) : Prop where
  toB : forA.peerGatewayId = .ofInt b
  toA : forB.peerGatewayId = .ofInt a
  go : forA.goUnixMs = forB.goUnixMs

def May : Op → View → Prop
  | .enterLoop, v                       => v = {}
  | .leaveLoop, v                       => v.inLoop ∧ ∀ key, v.stage ≠ .sent key
  | .attempts _, v                      => v.inLoop ∧ ∀ key, v.stage ≠ .sent key
  | .sendPair .sweep a b forA forB, v   =>
    v.inLoop ∧ v.stage = .checked (pairKey a b) ∧ a < b ∧ Counterparts a b forA forB
  | .countAttempt key, v                => v.inLoop ∧ v.stage = .sent key
  | _, v                                => ∀ key, v.stage ≠ .sent key

-- Operations that teach a task nothing of this.
def Plain : Op → Prop
  | .enterLoop | .leaveLoop | .attempts _ | .sendPair .sweep _ _ _ _ | .countAttempt _ => False
  | _                                                                                  => True

variable {v : View}

theorem Plain.same {o : Op} (hv : ∀ key, v.stage ≠ .sent key) (ho : Plain o) :
    May o v ∧ ∀ x, track o v x = v := by
  cases o
  case sendPair why _ _ _ _ =>
    cases why
    case sweep => exact ho.elim
    case edge  => exact ⟨hv, fun _ => rfl⟩
  case enterLoop | leaveLoop | attempts | countAttempt => exact ho.elim
  all_goals exact ⟨hv, fun _ => rfl⟩

-- Operations that leave alone what is kept about the pairs.
def Sends : Op → Prop
  | .bothRegistered _ _ | .pairSettled _ _ | .candidatesFor _ | .nowUnixMs => True
  | .sendPair .edge _ _ _ _                                                => True
  | _                                                                      => False

theorem Sends.plain {o : Op} (ho : Sends o) : Plain o := by
  cases o
  case sendPair why _ _ _ _ => cases why <;> exact ho
  all_goals first | exact ho | trivial

theorem sends_emitPair : (emitPair .edge a b).Only Sends := by
  refine .bind (only_perform.mpr trivial) fun registered => ?_
  refine .ite trivial <| .bind (only_perform.mpr trivial) fun settled => ?_
  refine .ite trivial <| .bind (only_perform.mpr trivial) fun aCandidates => ?_
  cases aCandidates
  case none => trivial
  case some =>
    refine .bind (only_perform.mpr trivial) fun bCandidates => ?_
    cases bCandidates
    case none => trivial
    case some =>
      refine .ite trivial <| .bind (only_perform.mpr trivial) fun ms => only_perform.mpr trivial

theorem plain_emitPair : (emitPair .edge a b).Only Plain :=
  sends_emitPair.mono fun _ => Sends.plain

theorem plain_peerIdsOf : (peerIdsOf g).Only Plain := by
  refine .bind (only_perform.mpr trivial) fun identity => ?_
  rcases identity with _ | _ | segment
  case none      => trivial
  case some.none => trivial
  case some.some =>
    refine .bind (only_perform.mpr trivial) fun others => ?_
    cases others <;> trivial

theorem plain_punchPeersOf : (punchPeersOf g reset).Only Plain := by
  refine plain_peerIdsOf.bind fun peers => ?_
  cases peers
  case none => trivial
  case some =>
    refine .forM fun peer _ => ?_
    cases reset
    case false => exact plain_emitPair.bind fun _ => trivial
    case true  =>
      exact .bind (only_perform.mpr trivial) fun _ => plain_emitPair.bind fun _ => trivial

theorem plain_onReport : (onReport report).Only Plain := by
  refine .ite trivial <| .bind (only_perform.mpr trivial) fun edges => ?_
  exact .forM fun peer _ =>
    .bind (only_perform.mpr trivial) fun _ => plain_emitPair.bind fun _ => trivial

-- A sweep sends to a pair after it has looked at the pair's budget.
theorem tracks_emitPair (hl : v.inLoop) (hs : v.stage = .checked (pairKey a b)) (hab : a < b) :
    (emitPair .sweep a b).Tracks May track (fun isSent v => v.inLoop ∧
      if isSent then v.stage = .sent (pairKey a b) else ∀ key, v.stage ≠ .sent key) v := by
  have plain : ∀ key, v.stage ≠ .sent key := by simp [hs]
  refine tracks_bind.mpr ⟨plain, fun registered => ?_⟩
  refine tracks_ite.mpr ⟨fun _ => ⟨hl, plain⟩, fun _ => ?_⟩
  refine tracks_bind.mpr ⟨plain, fun settled => ?_⟩
  refine tracks_ite.mpr ⟨fun _ => ⟨hl, plain⟩, fun _ => ?_⟩
  refine tracks_bind.mpr ⟨plain, fun aCandidates => ?_⟩
  cases aCandidates
  case none => exact ⟨hl, plain⟩
  case some aCandidates =>
    refine tracks_bind.mpr ⟨plain, fun bCandidates => ?_⟩
    cases bCandidates
    case none => exact ⟨hl, plain⟩
    case some bCandidates =>
      refine tracks_ite.mpr ⟨fun _ => ⟨hl, plain⟩, fun _ => ?_⟩
      refine tracks_bind.mpr ⟨plain, fun ms => ?_⟩
      refine ⟨⟨hl, hs, hab, rfl, rfl, rfl⟩, fun isSent => ⟨hl, ?_⟩⟩
      cases isSent <;> simp [track]

theorem tracks_emitPairPeriodic (hl : v.inLoop) (hv : ∀ key, v.stage ≠ .sent key) (hab : a < b) :
    (emitPairPeriodic a b).Tracks May track
      (fun _ v => v.inLoop ∧ ∀ key, v.stage ≠ .sent key) v := by
  refine tracks_bind.mpr ⟨⟨hl, hv⟩, fun n => ?_⟩
  refine tracks_ite.mpr ⟨fun hn => ⟨hl, ?_⟩, fun hn => ?_⟩
  case refine_1 => simp [track, Nat.not_lt.mpr hn]
  case refine_2 =>
    have hc : (track (.attempts (pairKey a b)) v n).stage = .checked (pairKey a b) :=
      if_pos (Nat.not_le.mp hn)
    have sends := tracks_emitPair (v := track _ v n) hl hc hab
    refine tracks_bind.mpr <| sends.mono fun isSent v h => ?_
    cases isSent
    case false => exact ⟨h.1, h.2⟩
    case true  => exact ⟨h, fun _ => ⟨h.1, nofun⟩⟩

theorem tracks_periodicSweep (hl : v.inLoop) (hv : ∀ key, v.stage ≠ .sent key) :
    periodicSweep.Tracks May track (fun _ v => v.inLoop ∧ ∀ key, v.stage ≠ .sent key) v := by
  refine tracks_bind.mpr ⟨hv, fun connected => tracks_forM (fun gw _ v h => ?_) ⟨hl, hv⟩⟩
  refine tracks_bind.mpr <| (plain_peerIdsOf.same fun o => Plain.same h.2).mono fun peers _ he => ?_
  subst he
  cases peers
  case none => exact h
  case some peers =>
    refine tracks_forM (fun peer _ v h => tracks_ite.mpr ⟨fun _ => h, fun hp => ?_⟩) h
    exact tracks_emitPairPeriodic h.1 h.2 (by omega)

theorem tracks_inLoop {p : P Unit}
    (h : p.Tracks May track (fun _ v => v.inLoop ∧ ∀ key, v.stage ≠ .sent key) { inLoop := true }) :
    (inLoop p).Tracks May track (fun _ v => v = {}) {} :=
  tracks_bind.mpr ⟨rfl, fun _ => tracks_bind.mpr <| h.mono fun _ _ h => ⟨h, fun _ => rfl⟩⟩

theorem tracks_handle (q : Request) : q.handle.Tracks May track (fun _ v => v = {}) {} := by
  cases q
  case tick => exact tracks_inLoop <| tracks_periodicSweep rfl nofun
  case endpointObserved =>
    have same : ∀ o, Plain o → _ := fun o => Plain.same (v := { inLoop := true }) nofun
    refine tracks_inLoop <| (plain_punchPeersOf.same same).mono fun _ _ he => ?_
    exact he ▸ ⟨rfl, nofun⟩
  case watch =>
    refine tracks_bind.mpr ⟨nofun, fun _ => tracks_bind.mpr ⟨nofun, fun _ => ?_⟩⟩
    exact plain_punchPeersOf.same fun o => Plain.same nofun
  case report => exact plain_onReport.same fun o => Plain.same nofun

end Programs

section Alone

theorem Sends.exec {o : Op} (s : Hub) (ho : Sends o) :
    ∃ x t, s.exec o = some (x, t) ∧ t.broker = s.broker := by
  cases o
  case sendPair why a b forA forB => exact ⟨_, _, rfl, broker_sendPair ..⟩
  case bothRegistered | pairSettled | candidatesFor | nowUnixMs => exact ⟨_, _, rfl, rfl⟩
  all_goals exact ho.elim

abbrev alone? (p : P α) (s : Hub) : Option (α × Hub) :=
  p.run? (fun o s => exec s o) s

abbrev repunch (reporter peer : Int) : P Unit := do
  perform (.resetPair reporter peer)
  let _ ← emitPair .edge reporter peer

theorem alone?_repunch (s : Hub) (reporter peer : Int) : ∃ t, alone? (repunch reporter peer) s =
    some ((), t) ∧ t.broker = resetPair s.broker reporter peer := by
  have ⟨_, t, ht, hb⟩ := (sends_emitPair (a := reporter) (b := peer)).run?
    (fun o s => Sends.exec s) { s with broker := resetPair s.broker reporter peer }
  refine ⟨t, ?_, hb⟩
  exact (run?_bind (p := perform (.resetPair reporter peer)) rfl _).trans (run?_bind ht _)

theorem alone?_repunchs (s : Hub) (reporter : Int) (edges : List Int) :
    ∃ t, alone? (edges.forM (repunch reporter)) s = some ((), t) ∧
      t.broker = ⟨s.broker.peerPathStates, (edges.flatMap fun peer =>
        [BrokerCall.resetPair reporter peer, .emitPair reporter peer]).foldl Broker.resetPair
          s.broker.periodicAttempts⟩ := by
  induction edges generalizing s
  case nil => exact ⟨s, rfl, rfl⟩
  case cons peer edges ih =>
    have ⟨u, hu, hb⟩ := alone?_repunch s reporter peer
    have ⟨t, ht, he⟩ := ih u
    refine ⟨t, ?_, ?_⟩
    case refine_1 => exact (run?_bind hu fun _ => edges.forM (repunch reporter)).trans ht
    case refine_2 =>
      rw [he, hb]
      rfl

-- What a report does to the broker where nothing comes between.
theorem alone?_onReport (s : Hub) (report : Report) :
    ∃ t, alone? (onReport report) s = some ((), t) ∧ t.broker = (s.broker.onReport report).1 := by
  rw [onReport, Broker.onReport]
  by_cases he : !report.snapshot ∧ report.peerPaths.isEmpty
  case pos => exact ⟨s, by simp [he, alone?]; rfl, by simp [he]⟩
  case neg =>
    let after := storeReport s.broker.peerPathStates report
    obtain ⟨t, ht, hb⟩ := alone?_repunchs { s with broker.peerPathStates := after } report.reporter
      (Broker.unsettledEdges s.broker.peerPathStates after report)
    refine ⟨t, ?_, ?_⟩
    case refine_1 =>
      rw [if_neg (by simpa using he)]
      exact ht
    case refine_2 =>
      rw [if_neg he, hb]

end Alone

section Budget

variable {h : History} {s t : System}

abbrev viewOf (h : History) (i : Nat) : View :=
  view track {} i h

def held (s : Hub) : List Unit :=
  if s.looping then [()] else []

def holds (v : View) : List Unit :=
  if v.inLoop then [()] else []

theorem holding : Holding rules start track {} held holds where
  free  := rfl
  start := rfl
  env   := fun {u v u'} hv => by rw [held, held, show u' = _ from hv, outside_looping]
  op {h s i o x t} run hs := by
    have hp : May o (viewOf h i) := pre_view (fun q => (tracks_handle q).mono fun _ _ _ => trivial)
      (run.step hs)
    cases hs
    case op ha =>
      have hl := looping_of_answers ha
      have hv := inLoop_track o (viewOf h i) x
      have other (ho : ∀ b, o.loops b = b) : Locking (held _) _ (held _) _ :=
        .other (congrArg (fun l => if l then [()] else []) (hl.trans (ho _)))
          (congrArg (fun l => if l then [()] else []) (hv.trans (ho _)))
      cases o
      case enterLoop =>
        have hp : viewOf h i = {} := hp
        refine .lock () ?_ ?_ ?_
        case refine_1 => simp [held, not_looping_of_enterLoop ha]
        case refine_2 => simp [held, not_looping_of_enterLoop ha, hl, Op.loops]
        case refine_3 => simp [holds, hp, track]
      case leaveLoop =>
        have hp : (viewOf h i).inLoop := hp.1
        refine .unlock () ?_ ?_ ?_
        case refine_1 => simp [holds, hp]
        case refine_2 => simp [held, hl, Op.loops]
        case refine_3 => simp [holds, track]
      all_goals exact other fun _ => rfl

-- Only one task at a time is in the loop.
theorem alone (run : Runs h s) (hi : s.live i) (hj : s.live j) (hli : (viewOf h i).inLoop)
    (hlj : (viewOf h j).inLoop) : i = j := by
  refine (exclusive_run holding run).alone i j () hi hj ?_ ?_
  case refine_1 => simp [holds, hli]
  case refine_2 => simp [holds, hlj]

-- Whether what is sent to a pair gets into the channel of a member.
def puts (s : Hub) (a b m : Int) : Bool :=
  a ∈ s.registry && b ∈ s.registry && (m = a || m = b) && s.accepts m

-- How many directives for a pair the sweeps have put into the channel of a member since the budget
-- of the pair was reset.
def sweepPuts (key : Int × Int) (m : Int) : History → Nat
  | []                                           => 0
  | (s, .op _ (.sendPair .sweep a b _ _) _) :: h =>
    sweepPuts key m h + (pairKey a b = key && s.shared.puts a b m).toNat
  | (_, .op _ (.resetPair a b) _) :: h           =>
    if key = pairKey a b then 0 else sweepPuts key m h
  | (_, .halt) :: _                              => 0
  | _ :: h                                       => sweepPuts key m h

-- The pair that a sweep sends to.
def sweptPair : Event Request Op.Resp Outside → Option (Int × Int)
  | .op _ (.sendPair .sweep a b _ _) _ => some (a, b)
  | _                                  => none

-- When a sweep sends to a pair, either both channels take what they get or neither does.
def EvenChannels (s : System) (e : Event Request Op.Resp Outside) : Prop :=
  ∀ p ∈ sweptPair e, p.1 ∈ s.shared.registry → p.2 ∈ s.shared.registry →
    s.shared.accepts p.1 = s.shared.accepts p.2

instance (s : System) (e : Event Request Op.Resp Outside) : Decidable (EvenChannels s e) :=
  inferInstanceAs (Decidable (∀ p ∈ sweptPair e, _))

-- The sweeps stay within the budget of a pair.
structure Within (h : History) (s : System) : Prop where
  stage : ∀ i, s.live i → ∀ key, (viewOf h i).At key →
    (viewOf h i).inLoop ∧ attempts s.shared.broker key < MAX_PERIODIC_ATTEMPTS
  spent : ∀ key m, sweepPuts key m h ≤ attempts s.shared.broker key ∨
    sweepPuts key m h ≤ attempts s.shared.broker key + 1 ∧
      ∃ i, s.live i ∧ (viewOf h i).stage = .sent key
  bound : ∀ key, attempts s.shared.broker key ≤ MAX_PERIODIC_ATTEMPTS

namespace Within

theorem recount_le (h : ∀ k, o ≠ .countAttempt k) (key : Int × Int) (n : Nat) :
    Op.recount key n o ≤ n := by
  cases o
  case countAttempt k => exact absurd rfl (h k)
  case resetPair      => rw [Op.recount]; split <;> omega
  all_goals exact Nat.le_refl n

theorem bound_op (inv : Within h s) (hm : May o (viewOf h i)) (hi : s.live i) (key : Int × Int) :
    o.recount key (attempts s.shared.broker key) ≤ MAX_PERIODIC_ATTEMPTS := by
  by_cases ho : ∃ k, o = .countAttempt k
  case neg => exact Nat.le_trans (recount_le (fun k he => ho ⟨k, he⟩) key _) (inv.bound key)
  case pos =>
    have ⟨k, ho⟩ := ho
    subst ho
    have hk := (inv.stage i hi k (.inr hm.2)).2
    rw [Op.recount]
    split
    case isTrue he => exact he ▸ hk
    case isFalse   => exact inv.bound key

-- What the task at work knows of the budget after its operation.
theorem stage_own {o : Op} {x : o.Resp} (inv : Within h s) (hi : s.live i)
    (hm : May o (viewOf h i)) (ha : Answers s.shared o x u)
    (hk : (track o (viewOf h i) x).At key) :
    (track o (viewOf h i) x).inLoop ∧ attempts u.broker key < MAX_PERIODIC_ATTEMPTS := by
  rw [attempts_of_answers ha]
  cases o
  case attempts k =>
    have hx : attempts s.shared.broker k = x := by
      cases ha
      case done he => exact congrArg Prod.fst (Option.some.inj he)
    simp only [track, View.At] at hk
    split at hk
    case isTrue hl =>
      have he : k = key := by simpa using hk
      exact ⟨hm.1, he ▸ hx ▸ hl⟩
    case isFalse => simp at hk
  case sendPair why a b _ _ =>
    cases why
    case edge => exact inv.stage i hi key hk
    case sweep =>
      simp only [track, View.At] at hk
      split at hk
      case isTrue =>
        have he : pairKey a b = key := by simpa using hk
        exact inv.stage i hi key (.inl (he ▸ hm.2.1))
      case isFalse => simp at hk
  case enterLoop | leaveLoop | countAttempt => simp [track, View.At] at hk
  case resetPair =>
    have ⟨hl, hn⟩ := inv.stage i hi key hk
    exact ⟨hl, Nat.lt_of_le_of_lt (recount_le (by nofun) key _) hn⟩
  all_goals exact inv.stage i hi key hk

-- Nobody else counts while a task is at a pair.
theorem stage_other (inv : Within h s) (run : Runs h s) (hi : s.live i) (hj : s.live j)
    (hij : i ≠ j) (hm : May o (viewOf h i)) (hk : (viewOf h j).At key) :
    o.recount key (attempts s.shared.broker key) < MAX_PERIODIC_ATTEMPTS := by
  have ⟨hl, hn⟩ := inv.stage j hj key hk
  refine Nat.lt_of_le_of_lt (recount_le (fun k he => ?_) key _) hn
  subst he
  exact hij (alone run hi hj hm.1 hl)

-- A task that has sent goes on to count.
theorem not_sent (hm : May o v) (ho : ∀ k, o ≠ .countAttempt k) (key : Int × Int) :
    v.stage ≠ .sent key := by
  cases o
  case countAttempt k       => exact absurd rfl (ho k)
  case enterLoop            => simp [show v = {} from hm]
  case leaveLoop | attempts => exact hm.2 key
  case sendPair why _ _ _ _ =>
    cases why
    case sweep => simp [hm.2.1]
    case edge  => exact hm key
  all_goals exact hm key

-- Where the task at work has not sent before, whoever had is still there.
theorem sent_other {o : Op} {x : o.Resp} (hs : Step rules s (.op i o x) t)
    (hn : (viewOf h i).stage ≠ .sent key) (hj : ∃ j, s.live j ∧ (viewOf h j).stage = .sent key) :
    ∃ j, t.live j ∧ (viewOf ((s, .op i o x) :: h) j).stage = .sent key := by
  have ⟨j, hl, hk⟩ := hj
  have hij : i ≠ j := fun he => hn (he ▸ hk)
  exact ⟨j, live_op_ne hs hij ▸ hl, by rwa [viewOf, view_op_ne hij]⟩

theorem spent_sendPair (inv : Within h s) (run : Runs h s) (hi : s.live i)
    (hm : May (.sendPair .sweep a b forA forB) (viewOf h i))
    (he : EvenChannels s (.op i (.sendPair .sweep a b forA forB) x))
    (hs : Step rules s (.op i (.sendPair .sweep a b forA forB) x) t) (key : Int × Int) (m : Int) :
    let h' : History := (s, .op i (.sendPair .sweep a b forA forB) x) :: h
    sweepPuts key m h' ≤ attempts s.shared.broker key ∨
      sweepPuts key m h' ≤ attempts s.shared.broker key + 1 ∧
        ∃ j, t.live j ∧ (viewOf h' j).stage = .sent key := by
  have ⟨hl, hc, hab, _⟩ := hm
  have hne : a ≠ b := by omega
  have others : (viewOf h i).stage ≠ .sent key := by simp [hc]
  have old := (inv.spent key m).imp_right <| And.imp_right <| sent_other (h := h) hs others
  have hx : (s.shared.sendPair a b forA forB).1 = x := by
    cases hs
    case op ha =>
      cases ha
      case done he => exact congrArg Prod.fst (Option.some.inj he)
  dsimp only [sweepPuts]
  cases x
  case false =>
    -- Neither channel has taken anything.
    have none : s.shared.puts a b m = false := by
      have hno := sendPair_eq_true_iff hne |>.not.mp (Bool.not_eq_true _ |>.mpr hx)
      by_contra hp
      simp only [puts, Bool.not_eq_false, Bool.and_eq_true, Bool.or_eq_true,
        decide_eq_true_eq] at hp
      obtain ⟨⟨⟨ha, hb⟩, rfl | rfl⟩, hp⟩ := hp
      case inl => exact hno ⟨ha, hb, hp, he _ rfl ha hb ▸ hp⟩
      case inr => exact hno ⟨ha, hb, (he _ rfl ha hb).symm ▸ hp, hp⟩
    simpa [none] using old
  case true =>
    by_cases hk : pairKey a b = key
    case neg => simpa [hk] using old
    case pos =>
      have live : t.live i := live_step tracks_handle run hs (by simp [track])
      have hfirst : sweepPuts key m h ≤ attempts s.shared.broker key := by
        refine (inv.spent key m).resolve_right fun ⟨_, j, hj, hjk⟩ => ?_
        have hjl := (inv.stage j hj key (.inr hjk)).1
        exact others (alone run hi hj hl hjl ▸ hjk)
      refine .inr ⟨?_, i, live, ?_⟩
      case refine_1 => exact Nat.add_le_add hfirst (Bool.toNat_le _)
      case refine_2 => rw [viewOf, view_op_self, track, hk]; rfl

theorem spent_op {o : Op} {x : o.Resp} (inv : Within h s) (run : Runs h s) (hi : s.live i)
    (hm : May o (viewOf h i)) (he : EvenChannels s (.op i o x)) (hs : Step rules s (.op i o x) t)
    (key : Int × Int) (m : Int) :
    let n := o.recount key (attempts s.shared.broker key)
    let h' : History := (s, .op i o x) :: h
    sweepPuts key m h' ≤ n ∨
      sweepPuts key m h' ≤ n + 1 ∧ ∃ j, t.live j ∧ (viewOf h' j).stage = .sent key := by
  have old (hn : (viewOf h i).stage ≠ .sent key) :=
    (inv.spent key m).imp_right <| And.imp_right <| sent_other (h := h) hs hn
  cases o
  case sendPair why _ _ _ _ =>
    cases why
    case sweep => exact inv.spent_sendPair run hi hm he hs key m
    case edge  => exact old (not_sent hm nofun key)
  case countAttempt k =>
    by_cases hk : key = k
    case pos =>
      simp only [Op.recount, hk, if_true]
      exact .inl <| (inv.spent k m).elim Nat.le_succ_of_le And.left
    case neg =>
      simp only [Op.recount, hk, if_false]
      refine old fun hv => hk ?_
      simpa using hv.symm.trans hm.2
  case resetPair a b =>
    have old := old (not_sent hm nofun key)
    by_cases hk : key = pairKey a b
    case pos => simp [sweepPuts, hk]
    case neg => simpa [sweepPuts, Op.recount, hk] using old
  all_goals exact old (not_sent hm nofun key)

theorem op {o : Op} {x : o.Resp} (inv : Within h s) (run : Runs h s)
    (he : EvenChannels s (.op i o x)) (hs : Step rules s (.op i o x) t) :
    Within ((s, .op i o x) :: h) t := by
  have hm : May o (viewOf h i) :=
    pre_view (fun q => (tracks_handle q).mono fun _ _ _ => trivial) (run.step hs)
  have ⟨hi, ha⟩ : s.live i ∧ Answers s.shared o x t.shared := by
    cases hs
    case op ht ha => exact ⟨live_of_getElem? ht, ha⟩
  have hn (key : Int × Int) :
      attempts t.shared.broker key = o.recount key (attempts s.shared.broker key) :=
    attempts_of_answers ha
  refine ⟨fun j hj key hk => ?_, fun key m => ?_, fun key => ?_⟩
  case refine_1 =>
    by_cases hij : i = j
    case pos =>
      subst hij
      rw [viewOf, view_op_self] at hk ⊢
      exact inv.stage_own hi hm ha hk
    case neg =>
      rw [viewOf, view_op_ne hij] at hk ⊢
      have hj : s.live j := live_op_ne hs hij ▸ hj
      exact ⟨(inv.stage j hj key hk).1, hn key ▸ inv.stage_other run hi hj hij hm hk⟩
  case refine_2 => exact hn key ▸ inv.spent_op run hi hm he hs key m
  case refine_3 => exact hn key ▸ inv.bound_op hm hi key

theorem spawn (inv : Within h s) (run : Runs h s) (hs : Step rules s (.spawn q) t) :
    Within ((s, .spawn q) :: h) t := by
  have same : t.shared = s.shared := by
    cases hs
    rfl
  have still (i : Nat) (hi : s.live i) : t.live i := by
    cases hs
    simpa only [live, List.getElem?_append_left (lt_of_live hi)] using hi
  refine ⟨fun i hi key hk => ?_, fun key m => ?_, same ▸ inv.bound⟩
  case refine_1 =>
    have goes : Goes track {} h s (.spawn q) i _ := goes_step run hs hi
    cases goes
    case start hv    => simp [viewOf, hv, View.At] at hk
    case own he _ _  => cases he
    case rest hl _ _ => exact same ▸ inv.stage i hl key hk
  case refine_2 =>
    exact same ▸ (inv.spent key m).imp_right (And.imp_right <| Exists.imp fun i h => ⟨still i h.1, h.2⟩)

end Within

theorem within (run : Runs h s) (he : Run.Along (fun _ => EvenChannels) h) : Within h s := by
  induction run
  case start => exact ⟨nofun, fun _ _ => .inl (Nat.le_refl 0), fun _ => Nat.zero_le _⟩
  case step h s e t run hs ih =>
    have inv := ih he.2
    cases hs
    case spawn    => exact inv.spawn run .spawn
    case op ht ha => exact inv.op run he.1 (.op ht ha)
    case env hv =>
      have hb := (congrArg Hub.broker hv).trans (outside_broker ..)
      exact ⟨fun i hi key hk => hb ▸ inv.stage i hi key hk, fun key m => hb ▸ inv.spent key m,
        hb ▸ inv.bound⟩
    case halt =>
      exact ⟨fun i hi => absurd hi (not_live_halt i), fun _ _ => .inl (Nat.zero_le _),
        fun _ => Nat.zero_le _⟩

-- What a sweep sends reaches both members of a pair or neither, as counterparts.
def Paired (h : History) : Prop :=
  ∀ s i a b forA forB x, (s, .op i (.sendPair .sweep a b forA forB) x) ∈ h →
    s.shared.puts a b a = s.shared.puts a b b ∧ Counterparts a b forA forB

-- Since the budget of a pair was reset, the sweeps have put no more directives into the channel of
-- a member than the budget allows, and what was sent to one member has reached the other too,
-- exactly if no sweep has met a channel that was full or closed beside one that was not.
theorem sweeps_bounded_and_paired_iff (run : Runs h s) :
    ((∀ key m, sweepPuts key m h ≤ MAX_PERIODIC_ATTEMPTS) ∧ Paired h) ↔
      Run.Along (fun _ => EvenChannels) h := by
  constructor
  case mp =>
    refine fun ⟨_, hp⟩ => Run.along_iff_forall.mpr fun s e hm p hs ha hb => ?_
    rw [sweptPair.eq_def] at hs
    split at hs
    case h_1 i a b forA forB x =>
      cases hs
      simpa [puts, ha, hb] using (hp s i a b forA forB x hm).1
    case h_2 => cases hs
  case mpr =>
    intro he
    have inv := within run he
    refine ⟨fun key m => ?_, fun s i a b forA forB x hm => ⟨?_, ?_⟩⟩
    case refine_1 =>
      cases inv.spent key m
      case inl hn => exact Nat.le_trans hn (inv.bound key)
      case inr hn =>
        have ⟨hn, i, hi, hk⟩ := hn
        exact Nat.le_trans hn (inv.stage i hi key (.inr hk)).2
    case refine_2 =>
      have he := Run.along_iff_forall.mp he _ _ hm
      by_cases hr : a ∈ s.shared.registry ∧ b ∈ s.shared.registry
      case pos => simp [puts, hr, he _ rfl hr.1 hr.2]
      case neg => simp only [puts]; grind
    case refine_3 =>
      have ⟨h₁, _, _, _, run, hs⟩ := run.mem hm
      have may : May (.sendPair .sweep a b forA forB) (viewOf h₁ i) :=
        pre_view (fun q => (tracks_handle q).mono fun _ _ _ => trivial) (run.step hs)
      exact may.2.2.2

-- Two gateways of different segments, both connected.
def pairUp : List (Move Request Outside) :=
  [.env (.database [(1, 1), (2, 2)] (AList.insert 1 ["192.0.2.1:51820"]
      (AList.singleton 2 ["192.0.2.2:51820"]))),
    .spawn (.watch 1 0), .run 0 20, .spawn (.watch 2 1), .run 1 20]

def sweepOften (n : Nat) : List (Move Request Outside) :=
  (List.range n).flatMap fun i => [.spawn .tick, .run (i + 2) 20]

-- One stream has ended, but its channel has not been taken out of the registry yet.
def halfClosed : History × System :=
  play player ⟨start, []⟩ (pairUp ++ .env (.closed 2) :: sweepOften 6)

theorem sweeps_exceed_budget : ∃ h s, Runs h s ∧
    MAX_PERIODIC_ATTEMPTS < sweepPuts (1, 2) 1 h ∧ sweepPuts (1, 2) 2 h = 0 :=
  ⟨halfClosed.1, halfClosed.2, play_run .., by decide +kernel, by decide +kernel⟩

def bothOpen : History × System :=
  play player ⟨start, []⟩ (pairUp ++ sweepOften 6)

-- As long as both streams are open, the sweeps come to an end by themselves.
theorem sweeps_bounded_open : sweepPuts (1, 2) 1 bothOpen.1 = MAX_PERIODIC_ATTEMPTS ∧
    (∀ key m, sweepPuts key m bothOpen.1 ≤ MAX_PERIODIC_ATTEMPTS) ∧ Paired bothOpen.1 :=
  ⟨by decide +kernel, (sweeps_bounded_and_paired_iff (s := bothOpen.2) (play_run ..)).mpr
    (by decide +kernel)⟩

end Budget
end Controller.Hub
