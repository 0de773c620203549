import WireMesh.Lib.Locks
import WireMesh.Gateway.Theorems.Frame

-- How the tasks of a gateway come by its locks.
namespace Gateway

-- How the locks that a task holds go from one of its operations to the next.
def Op.locks : Op → List Lock → List Lock
  | boot, _      => [.mainLoop]
  | lock l, ls   => l :: ls
  | unlock l, ls => ls.filter (· ≠ l)
  | _, ls        => ls

-- What an operation does to the locks of the gateway and to those of its task.
inductive Locking (s : Gw) : Op → Gw → Prop
  | boot : s.booted = false → t.held = [.mainLoop] → t.booted = true → Locking s .boot t
  | lock : l ∉ s.held → t.held = l :: s.held → t.booted = true → Locking s (.lock l) t
  | unlock : t.held = s.held.filter (· ≠ l) → t.booted = true → Locking s (.unlock l) t
  | other : (∀ ls, o.locks ls = ls) → t.held = s.held → t.booted = true → Locking s o t

theorem locking_step {s t : Gw} {o : Op} {x : o.Resp} (h : s.step c o = some (x, t)) :
    Locking s o t := by
  have booted (ho : o ≠ .boot) (hw : Part.booted ∉ o.writes) : t.booted = true :=
    (Gw.step_same h hw : t.booted = s.booted).trans (Gw.booted_of_step h ho)
  have same (hw : Part.locks ∉ o.writes) : t.held = s.held := Gw.step_same h hw
  cases o
  case boot =>
    simp only [Gw.step] at h
    split at h
    all_goals cases h
    exact .boot (by simpa using ‹¬ s.booted = true›) rfl rfl
  case lock l =>
    have hb := booted (by simp) (by simp [Op.writes])
    simp only [Gw.step, Gw.exec] at h
    (repeat' split at h)
    all_goals cases h
    exact .lock ‹_› rfl hb
  case unlock l =>
    have hb := booted (by simp) (by simp [Op.writes])
    simp only [Gw.step, Gw.exec] at h
    split at h
    all_goals cases h
    exact .unlock rfl hb
  all_goals exact .other (fun _ => rfl) (same (by simp [Op.writes])) (booted (by simp) (by simp [Op.writes]))

-- A process that has not come up holds no lock.
theorem held_of_down (run : Runs config stateJson storedKeys h s) (hb : s.shared.booted = false) :
    s.shared.held = [] := by
  induction run
  case start => rfl
  case step run hs ih =>
    cases hs
    case spawn => exact ih hb
    case op ha =>
      have ⟨c, hc⟩ := ha
      cases locking_step hc
      all_goals simp_all
    case env hv =>
      cases hv
      exact ih hb
    case halt => rfl

-- What a task knows comes with the locks that it holds, where it comes up and lets go as it may.
theorem holding_of {ρ : Type} {pre : Op → ρ → Prop} {track : (o : Op) → ρ → o.Resp → ρ}
    {holds : ρ → List Lock} {r : ρ} (start : holds r = [])
    (goes : ∀ o r x, holds (track o r x) = o.locks (holds r))
    (boot : ∀ r, pre .boot r → holds r = []) (unlock : ∀ l r, pre (.unlock l) r → l ∈ holds r)
    (prog : ∀ q, Pool.Keeps pre track (Request.prog config.wgListenPort q) r) :
    Pool.Holding (rules config.wgListenPort) (.start config stateJson storedKeys) track r Gw.held
      holds where
  free  := rfl
  start := start
  env h := by
    cases h
    rfl
  op {h s i o x t} run hs := by
    have may : pre o (Pool.view track r i h) := Pool.pre_view prog (run.step hs)
    have ⟨c, hc⟩ : s.shared.Answers o x t.shared := by
      cases hs
      case op ha => exact ha
    rw [goes]
    cases locking_step hc
    case boot hb held _ =>
      refine .lock .mainLoop ?_ ?_ (by rw [boot _ may]; rfl)
      all_goals rw [held_of_down run hb]
      case refine_1 => exact List.not_mem_nil
      case refine_2 => exact held
    case lock free held _  => exact .lock _ free held rfl
    case unlock held _     => exact .unlock _ (unlock _ _ may) held rfl
    case other same held _ => exact .other held (same _)

end Gateway
