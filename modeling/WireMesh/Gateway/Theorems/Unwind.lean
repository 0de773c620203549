import WireMesh.Gateway.StandIn
import WireMesh.Gateway.Theorems.Frame
import WireMesh.Gateway.Theorems.Rotating

-- A rotation that fails is given up without loss to the epoch that carries the traffic, where it is
-- given up before it has been cut over.
namespace Gateway

section Simulation

variable {h : History} {s t : System} {config : Config} {a b : Handover}

-- A handover as the gateway has it.
structure Handover.Of (a : Handover) (s : Gw) : Prop where
  rotation : a.rotation = s.rotation
  armed : a.armed = s.roleA.isSome
  signal : a.signal = s.retireReady.isSome
  epoch : a.epoch = s.active.epoch

structure Matches (h : History) (s : System) (a : Handover) : Prop where
  main : Pool.Lane Doing.track {} Doing.holds .mainLoop Doing.main .out a.main h s
  tick : Pool.Lane Doing.track {} Doing.holds .rotationTicks Doing.tick .out a.tick h s
  shared : a.Of s.shared

theorem EpochKeys.epoch_generateNextAt {ks ks' : EpochKeys}
    (h : ks.generateNextAt n priv pub = some (key, ks')) : key.epoch = n := by
  rw [generateNextAt] at h
  split at h
  all_goals cases h
  rfl

theorem epoch_step {o : Op} {x : o.Resp} {s t : Gw} (hc : s.step c o = some (x, t))
    (ho : ∀ a, o ≠ .setActive a) : t.active.epoch = s.active.epoch := by
  by_cases hw : Part.active ∈ o.writes
  case neg => exact congrArg _ (Gw.step_same hc hw : t.active = s.active)
  case pos =>
    cases o
    case setActive a => exact absurd rfl (ho a)
    case recordApplied | recordAdded | recordScoped | renormalized =>
      simp only [Gw.step, Gw.exec] at hc
      (repeat' split at hc)
      all_goals cases hc
      all_goals rfl
    all_goals simp [Op.writes] at hw

-- What an operation does to the handover, with the task at work where it is.
structure Moves (a b : Handover) (t : Gw) (o : Op) (r : Doing) (x : o.Resp) : Prop where
  step : b = a ∨ a.Step b
  main : b.main = o.mainAfter r.main x ∧ .mainLoop ∈ r.holds ∨
    b.main = a.main ∧ o.mainAfter r.main x = r.main
  tick : b.tick = o.tickAfter r.tick x ∧ .rotationTicks ∈ r.holds ∨
    b.tick = a.tick ∧ o.tickAfter r.tick x = r.tick
  shared : b.Of t

theorem moves_op {o : Op} {x : o.Resp} {s t : Gw} {r : Doing} (hc : s.step c o = some (x, t))
    (ha : a.Of s) (may : o.May r)
    (hd : ∀ n, o = .onDirective n → s.rotation = .idle → s.active.epoch ≠ n)
    (main : .mainLoop ∈ r.holds → r.main = a.main)
    (tick : .rotationTicks ∈ r.holds → r.tick = a.tick) : ∃ b, Moves a b t o r x := by
  obtain ⟨hrot, harm, hsig, hep⟩ := ha
  have same (hr : Part.rotation ∉ o.writes) (hA : Part.roleA ∉ o.writes)
      (hs : Part.retireReady ∉ o.writes) (ho : ∀ a, o ≠ .setActive a) : a.Of t :=
    have hrot' : t.rotation = s.rotation := Gw.step_same hc hr
    have harm' : t.roleA = s.roleA := Gw.step_same hc hA
    have hsig' : t.retireReady = s.retireReady := Gw.step_same hc hs
    ⟨hrot' ▸ hrot, harm' ▸ harm, hsig' ▸ hsig, epoch_step hc ho ▸ hep⟩
  cases o
  case takeRetireReady =>
    obtain ⟨hl, hm⟩ := may
    simp only [Gw.step, Gw.exec] at hc
    split at hc
    all_goals cases hc
    cases hs : s.retireReady
    case none =>
      exact ⟨a, .inl rfl, .inr ⟨rfl, rfl⟩, .inr ⟨rfl, rfl⟩, hrot, harm, hs ▸ hsig, hep⟩
    case some =>
      exact ⟨_, .inr (.main (.take (main hl ▸ hm) (by simp [hsig, hs]))), .inl ⟨rfl, hl⟩,
        .inr ⟨rfl, rfl⟩, hrot, harm, rfl, hep⟩
  case onEpochRetired e =>
    obtain ⟨hl, hm⟩ := may
    simp only [Gw.step, Gw.exec] at hc
    split at hc
    all_goals cases hc
    exact ⟨_, .inr (.main (.retire (main hl ▸ hm))), .inl ⟨rfl, hl⟩, .inr ⟨rfl, rfl⟩, by rw [hrot],
      harm, hsig, hep⟩
  case onDirective n =>
    obtain ⟨hl, hm⟩ := may
    simp only [Gw.step, Gw.exec] at hc
    split at hc
    all_goals cases hc
    cases hs : s.rotation
    case idle =>
      exact ⟨_, .inr (.main (.directive (main hl ▸ hm) (hrot.trans hs) (hep ▸ hd n rfl hs))),
        .inl ⟨rfl, hl⟩, .inr ⟨rfl, rfl⟩, rfl, harm, hsig, hep⟩
    all_goals
      exact ⟨a, .inl rfl, .inr ⟨rfl, rfl⟩, .inr ⟨rfl, rfl⟩, hrot.trans hs, harm, hsig, hep⟩
  case mint n =>
    obtain ⟨hl, d, hm⟩ := may
    obtain ⟨hrot, harm, hsig, hep⟩ := same (by simp [Op.writes]) (by simp [Op.writes])
      (by simp [Op.writes]) (by simp)
    have minted (k : Mint) (he : k.key.epoch = n)
        (hx : (Op.mint n).mainAfter r.main x = r.main.minted k) : ∃ b, Moves a b t (.mint n) r x :=
      ⟨_, .inr (.main (.mint (main hl ▸ hm) he)), .inl ⟨by rw [hx, hm]; rfl, hl⟩, .inr ⟨rfl, rfl⟩,
        hrot, harm, hsig, hep⟩
    simp only [Gw.step, Gw.exec] at hc
    (repeat' split at hc)
    all_goals cases hc
    case h_1 => exact ⟨a, .inl rfl, .inr ⟨rfl, rfl⟩, .inr ⟨rfl, rfl⟩, hrot, harm, hsig, hep⟩
    all_goals exact minted ⟨_, _⟩ (EpochKeys.epoch_generateNextAt ‹_›) rfl
  case setRoleA new =>
    have hep := epoch_step hc (by simp) ▸ hep
    simp only [Gw.step, Gw.exec] at hc
    split at hc
    all_goals cases hc
    cases new
    case some =>
      obtain ⟨hl, ⟨d, n, m, hm⟩, ht⟩ := may
      exact ⟨_, .inr (.main (.arm (main hl ▸ hm))), .inl ⟨by rw [hm]; rfl, hl⟩,
        .inr ⟨rfl, by rw [ht]; rfl⟩, hrot, rfl, hsig, hep⟩
    case none =>
      cases may
      case inl may =>
        obtain ⟨hl, ⟨d, n, m, b, hm⟩, ht⟩ := may
        exact ⟨_, .inr (.main (.unwind (main hl ▸ hm))), .inl ⟨by rw [hm]; rfl, hl⟩,
          .inr ⟨rfl, by rw [ht]; rfl⟩, hrot, rfl, hsig, hep⟩
      case inr may =>
        obtain ⟨hl, ht, hm⟩ := may
        exact ⟨_, .inr (.tick (.disarm (tick hl ▸ ht))), .inr ⟨rfl, by rw [hm]; rfl⟩,
          .inl ⟨by rw [ht]; rfl, hl⟩, hrot, rfl, hsig, hep⟩
  case submitEpochKey =>
    obtain ⟨hl, _, _, hm, _⟩ := may
    obtain ⟨hrot, harm, hsig, hep⟩ := same (by simp [Op.writes]) (by simp [Op.writes])
      (by simp [Op.writes]) (by simp)
    cases x
    case false => exact ⟨a, .inl rfl, .inr ⟨rfl, rfl⟩, .inr ⟨rfl, rfl⟩, hrot, harm, hsig, hep⟩
    case true =>
      exact ⟨_, .inr (.main (.ends (main hl ▸ hm ▸ (by simp)))), .inl ⟨rfl, hl⟩, .inr ⟨rfl, rfl⟩,
        hrot, harm, hsig, hep⟩
  case onFailed =>
    obtain ⟨hl, d, m, hm⟩ := may
    simp only [Gw.step, Gw.exec] at hc
    split at hc
    all_goals cases hc
    exact ⟨_, .inr (.main (.failed (main hl ▸ hm))), .inl ⟨rfl, hl⟩, .inr ⟨rfl, rfl⟩, by rw [hrot],
      harm, hsig, hep⟩
  case onNewEpochSession =>
    obtain ⟨hl, p, hp⟩ := may
    simp only [Gw.step, Gw.exec] at hc
    split at hc
    all_goals cases hc
    cases hs : s.rotation
    case overlapping e =>
      exact ⟨_, .inr (.tick (.flip (tick hl ▸ hp) (hrot.trans hs))), .inr ⟨rfl, rfl⟩,
        .inl ⟨rfl, hl⟩, rfl, harm, hsig, hep⟩
    all_goals
      exact ⟨a, .inl rfl, .inr ⟨rfl, rfl⟩, .inr ⟨rfl, rfl⟩, hrot.trans hs, harm, hsig, hep⟩
  case setActive new =>
    obtain ⟨hl, ht⟩ := may
    simp only [Gw.step, Gw.exec] at hc
    split at hc
    all_goals cases hc
    exact ⟨_, .inr (.tick (.activate (tick hl ▸ ht))), .inr ⟨rfl, rfl⟩, .inl ⟨rfl, hl⟩, hrot, harm,
      hsig, rfl⟩
  case signalRetire =>
    obtain ⟨hl, e, ht⟩ := may
    simp only [Gw.step, Gw.exec] at hc
    split at hc
    all_goals cases hc
    exact ⟨_, .inr (.tick (.signal (tick hl ▸ ht))), .inr ⟨rfl, rfl⟩, .inl ⟨rfl, hl⟩, hrot, harm,
      rfl, hep⟩
  case roleA =>
    obtain ⟨hl, ht⟩ := may
    simp only [Gw.step, Gw.exec] at hc
    split at hc
    all_goals cases hc
    cases hs : s.roleA
    case none => exact ⟨a, .inl rfl, .inr ⟨rfl, rfl⟩, .inr ⟨rfl, rfl⟩, hrot, harm, hsig, hep⟩
    case some =>
      exact ⟨_, .inr (.tick (.readA (tick hl ▸ ht) (by simp [harm, hs]))), .inr ⟨rfl, rfl⟩,
        .inl ⟨rfl, hl⟩, hrot, harm, hsig, hep⟩
  case phase =>
    obtain ⟨hl, ht⟩ := may
    simp only [Gw.step, Gw.exec] at hc
    split at hc
    all_goals cases hc
    exact ⟨_, .inr (.tick (.readPhase (tick hl ▸ ht))), .inr ⟨rfl, rfl⟩,
      .inl ⟨congrArg Tick.sees hrot, hl⟩, hrot, harm, hsig, hep⟩
  case unlock l =>
    obtain ⟨hl, hm, ht⟩ := may
    obtain ⟨hrot, harm, hsig, hep⟩ := same (by simp [Op.writes]) (by simp [Op.writes])
      (by simp [Op.writes]) (by simp)
    cases l
    case mainLoop =>
      exact ⟨_, .inr (.main (.ends (main hl ▸ hm rfl))), .inl ⟨rfl, hl⟩, .inr ⟨rfl, rfl⟩, hrot,
        harm, hsig, hep⟩
    case rotationTicks =>
      exact ⟨_, .inr (.tick (.ends (tick hl ▸ ht rfl))), .inr ⟨rfl, rfl⟩, .inl ⟨rfl, hl⟩, hrot,
        harm, hsig, hep⟩
    case endpointCommit =>
      exact ⟨a, .inl rfl, .inr ⟨rfl, rfl⟩, .inr ⟨rfl, rfl⟩, hrot, harm, hsig, hep⟩
  all_goals
    exact ⟨a, .inl rfl, .inr ⟨rfl, rfl⟩, .inr ⟨rfl, rfl⟩,
      same (by simp [Op.writes]) (by simp [Op.writes]) (by simp [Op.writes]) (by simp)⟩

-- Every rotation is to another epoch than the active one, and has not been cut over where it is given up.
def Sound (h : History) (s : System) : SystemEvent → Prop
  | .op _ (.onDirective n) _           => s.shared.rotation = .idle → s.shared.active.epoch ≠ n
  | .op i (.tearDown (.own _)) _       =>
    (doing i h).main.rotates → s.shared.rotation.isOverlapping
  | .op i (.removeEnforcer (.own _)) _ =>
    (doing i h).main.rotates → s.shared.rotation.isOverlapping
  | .op i (.discardPending _) _        =>
    (doing i h).main.rotates → s.shared.rotation.isOverlapping
  | _                                  => True

-- A rotation that is given up takes nothing from the epoch of the active device.
def Spares (h : History) (s : System) : SystemEvent → Prop
  | .op i (.tearDown (.own k)) _       =>
    (doing i h).main.rotates → k = s.shared.active.epoch →
      s.shared.tunnels.tunnels.lookup (.own k) = none
  | .op i (.removeEnforcer (.own k)) _ =>
    (doing i h).main.rotates → k = s.shared.active.epoch →
      s.shared.enforcers.lookup (.own k) = none
  | .op i (.discardPending k) _        =>
    (doing i h).main.rotates → k = s.shared.active.epoch →
      s.shared.epochKeys.discardPending k = none
  | _                                  => True

theorem Matches.op {o : Op} {x : o.Resp} (hm : Matches h s a)
    (run : Runs config stateJson storedKeys h s)
    (hs : Pool.Step (rules config.wgListenPort) s (.op i o x) t) (sound : Sound h s (.op i o x)) :
    ∃ b, (b = a ∨ a.Step b) ∧ Matches ((s, .op i o x) :: h) t b := by
  have hi : s.live i := by
    cases hs
    case op ht _ => exact Pool.live_of_getElem? ht
  have may : o.May (doing i h) := Pool.pre_view keeps_prog (run.step hs)
  have ⟨c, hc⟩ : s.shared.Answers o x t.shared := by
    cases hs
    case op ha => exact ha
  have ex := Pool.exclusive_run holding run
  have hl := holding.op run hs
  have done (hd : ¬ t.live i) : Doing.Done ((doing i h).track o x) :=
    Classical.not_not.mp fun hn => hd (Pool.live_step tracks_prog run hs hn)
  have ⟨b, step, main, tick, shared⟩ := moves_op hc hm.shared may (fun n hn => by subst hn; exact sound)
    (hm.main.inside i hi) (hm.tick.inside i hi)
  refine ⟨b, step, ?_, ?_, shared⟩
  case refine_1 =>
    have hout := main_out (x := x) may (hm.main.outside i hi)
    cases main
    case inl hb =>
      rw [hb.1]
      exact hm.main.moves ex hs hl (fun hd => (done hd).1) hout hb.2
    case inr hb =>
      rw [hb.1]
      exact hm.main.stays ex hs hl (fun hd => (done hd).1) hout hb.2
  case refine_2 =>
    have hout := tick_out (x := x) may (hm.tick.outside i hi)
    cases tick
    case inl hb =>
      rw [hb.1]
      exact hm.tick.moves ex hs hl (fun hd => (done hd).2) hout hb.2
    case inr hb =>
      rw [hb.1]
      exact hm.tick.stays ex hs hl (fun hd => (done hd).2) hout hb.2

-- A gateway goes through the steps of a handover.
theorem handover_run (run : Runs config stateJson storedKeys h s) (sound : Run.Along Sound h) :
    ∃ a, Matches h s a ∧ a.Inv := by
  induction run
  case start => exact ⟨_, ⟨.start, .start, rfl, rfl, rfl, rfl⟩, .start _⟩
  case step run hs ih =>
    have ⟨now, rest⟩ := sound
    have ⟨a, hm, inv⟩ := ih rest
    cases hs
    case spawn =>
      exact ⟨a, ⟨hm.main.spawn rfl rfl run .spawn, hm.tick.spawn rfl rfl run .spawn, hm.shared⟩, inv⟩
    case op ht ha =>
      have ⟨b, step, hm⟩ := hm.op run (.op ht ha) now
      refine ⟨b, hm, ?_⟩
      cases step
      case inl he   => exact he ▸ inv
      case inr step => exact inv.step step
    case env hv =>
      cases hv
      have ⟨rotation, armed, signal, epoch⟩ := hm.shared
      exact ⟨a, ⟨hm.main.env, hm.tick.env, rotation, armed, signal, epoch⟩, inv⟩
    case halt => exact ⟨_, ⟨.halt, .halt, rfl, rfl, rfl, rfl⟩, .start _⟩

-- An epoch that a rotation names, with the rotation still to be cut over, is not the active one.
theorem Handover.Inv.spares (inv : a.Inv) (hn : a.main.Names k) (hr : a.main.rotates)
    (ho : a.rotation.isOverlapping) : k ≠ a.epoch := by
  have hm := inv.main
  rw [MainInv] at hm
  split at hm
  case h_1 he | h_2 he => simp [he, Main.rotates] at hr
  case h_3 d n m b he =>
    obtain ⟨_, hd, _, ne, _⟩ := hm
    rw [he] at hn
    exact fun hk => ne ho (hk ▸ hn.elim id fun hn => hn.trans hd)
  case h_4 d m he =>
    obtain ⟨_, hm, ne, _⟩ := hm
    rw [he] at hn
    refine fun hk => ne ho (hk ▸ hn.elim id fun h => ?_)
    obtain ⟨key, hkey, he⟩ := h
    exact he ▸ hm key hkey

theorem rotation_spares_active (run : Runs config stateJson storedKeys h s)
    (sound : Run.Along Sound h) : Run.Along Spares h := by
  induction run
  case start => trivial
  case step h s e t run hs ih =>
    have ⟨now, rest⟩ := sound
    refine ⟨?_, ih rest⟩
    have ⟨a, hm, inv⟩ := handover_run run rest
    have other (i : Nat) (hi : s.live i) (hr : (doing i h).main.rotates)
        (ho : s.shared.rotation.isOverlapping) (k : Nat) (hn : (doing i h).main.Names k) :
        k ≠ s.shared.active.epoch := by
      have he : (doing i h).main = a.main := by
        refine hm.main.inside i hi ?_
        by_contra hl
        simp [hm.main.outside i hi hl, Main.rotates] at hr
      rw [he] at hn hr
      rw [← hm.shared.rotation] at ho
      exact hm.shared.epoch ▸ inv.spares hn hr ho
    cases hs
    case op i o x g next ht ha =>
      have may : o.May (doing i h) := Pool.pre_view keeps_prog (run.step (.op ht ha))
      have other := other i (Pool.live_of_getElem? ht)
      cases o
      case tearDown id =>
        cases id
        case own k => exact fun hr hk => absurd hk (other hr (now hr) k may)
        case overlap => trivial
      case removeEnforcer id =>
        cases id
        case own k => exact fun hr hk => absurd hk (other hr (now hr) k may)
        case overlap => trivial
      case discardPending k =>
        have ⟨_, d, m, hm, he⟩ := may
        exact fun hr hk => absurd hk (other hr (now hr) k (hm ▸ .inr ⟨m, rfl, he⟩))
      all_goals trivial
    all_goals trivial

instance : Decidable (Sound h s e) := by
  unfold Sound
  split <;> infer_instance

instance : Decidable (Spares h s e) := by
  unfold Spares
  split <;> infer_instance

end Simulation

-- A gateway is told to rotate to an epoch, and its key cannot be submitted.
namespace Unsubmitted

open StandIn

def choose : Op → Choice
  | .submitEpochKey _ _ => { succeeds := false }
  | _                   => { privateKeyB64 := otherKey, pubkeyB64 := otherKey }

def moves (epoch : Nat) : List (Pool.Move Request Elapse) :=
  [.spawn .boot, .run 0 9, .spawn (.message (.snapshot alone)), .run 1 50,
    .spawn (.rotate epoch), .run 2 50]

def played (epoch : Nat) : History × System :=
  Pool.play (player config.wgListenPort choose) ⟨.start config none none, []⟩ (moves epoch)

theorem runs_played (epoch : Nat) : Runs config none none (played epoch).1 (played epoch).2 :=
  Pool.play_run _ _ _

-- The epoch that the gateway is on is torn down.
set_option maxRecDepth 10000 in
theorem rotation_spares_active_same_epoch :
    Runs config none none (played 0).1 (played 0).2 ∧ ¬ Run.Along Spares (played 0).1 ∧
      (played 0).2.shared.devices.lookup (played 0).2.shared.active.ifname = none :=
  ⟨runs_played 0, by decide +kernel, by decide +kernel⟩

set_option maxRecDepth 10000 in
theorem rotation_spares_active_next_epoch :
    (∃ e ∈ (played 1).1, e.2 matches .op 2 (.discardPending 1) _) ∧
      Run.Along Spares (played 1).1 :=
  ⟨by decide +kernel, rotation_spares_active (runs_played 1) (by decide +kernel)⟩

end Unsubmitted
end Gateway
