import Mathlib
import WireMesh.Lib.Timed
import WireMesh.Gateway.Backoff

namespace Gateway

namespace Backoff

variable {b : Backoff}

section Delay

-- The bounds of a delay, whatever the jitter is.
def shortest (exp : Nat) : Nat :=
  min (BACKOFF_BASE_SECS * 2 ^ exp * NANOS_PER_SEC) (BACKOFF_CAP_SECS * NANOS_PER_SEC)

def longest (exp : Nat) : Nat :=
  min (BACKOFF_BASE_SECS * 2 ^ exp * (3 * NANOS_PER_SEC / 2)) (BACKOFF_CAP_SECS * NANOS_PER_SEC)

theorem nextJitter_lt (rngState : BitVec 64) : (nextJitter rngState).1 < 2 ^ 53 := by
  have := (splitmix (rngState + 0x9E3779B97F4A7C15#64)).isLt
  simp only [nextJitter, BitVec.toNat_ushiftRight, Nat.shiftRight_eq_div_pow]
  omega

theorem factor_bounds (hj : jitter < 2 ^ 53) :
    2 ^ 54 ≤ Binary64.round (2 ^ 54 + jitter) ∧ Binary64.round (2 ^ 54 + jitter) ≤ 3 * 2 ^ 53 := by
  have hn : 2 ^ 54 + jitter < 2 ^ (2 + 53) := by omega
  have hl := Binary64.le_round (a := 2 ^ 52) hn (by omega)
  have hu := Binary64.round_le (a := 3 * 2 ^ 51) hn (by omega)
  omega

theorem stretch_bounds (hs : secs < 2 ^ 51) (hj : jitter < 2 ^ 53) :
    secs * NANOS_PER_SEC ≤ stretch secs jitter ∧
      stretch secs jitter ≤ secs * (3 * NANOS_PER_SEC / 2) := by
  have ⟨hl, hu⟩ := factor_bounds hj
  simp only [stretch]
  generalize Binary64.round (2 ^ 54 + jitter) = factor at hl hu
  have hl := Nat.mul_le_mul_left secs hl
  have hu := Nat.mul_le_mul_left secs hu
  generalize secs * factor = product at hl hu
  have hn : product < 2 ^ (53 + 53) := by omega
  have hl := Binary64.le_round (a := secs * 2) hn (by linarith)
  have hu := Binary64.round_le (a := secs * 3) hn (by linarith)
  generalize Binary64.round product = rounded at hl hu
  have hn : NANOS_PER_SEC = 1000000000 := rfl
  rw [hn]
  constructor
  case left  => exact Binary64.le_roundEven (by decide) (by linarith)
  case right => exact Binary64.roundEven_le (by decide) (by linarith)

theorem delay_bounds (he : exp ≤ 31) (hj : jitter < 2 ^ 53) :
    shortest exp ≤ delay exp jitter ∧ delay exp jitter ≤ longest exp := by
  have hp : 2 ^ exp ≤ 2 ^ 31 := Nat.pow_le_pow_right (by decide) he
  have hs : BACKOFF_BASE_SECS * 2 ^ exp < 2 ^ 51 :=
    Nat.lt_of_le_of_lt (Nat.mul_le_mul_left _ hp) (by decide)
  have ⟨hl, hu⟩ := stretch_bounds hs hj
  exact ⟨min_le_min_right _ hl, min_le_min_right _ hu⟩

-- The next window is longer than the last one, or as long as any can be.
theorem longest_le_shortest (h : e < exp ∨ 4 ≤ exp) : longest e ≤ shortest exp := by
  refine Nat.le_min.mpr ⟨?_, Nat.min_le_right ..⟩
  cases h
  case inl h =>
    have hp : 2 ^ (e + 1) ≤ 2 ^ exp := Nat.pow_le_pow_right (by decide) h
    refine Nat.le_trans (Nat.min_le_left ..) ?_
    simp only [BACKOFF_BASE_SECS, NANOS_PER_SEC]
    omega
  case inr h =>
    have hp : 2 ^ 4 ≤ 2 ^ exp := Nat.pow_le_pow_right (by decide) h
    refine Nat.le_trans (Nat.min_le_right ..) ?_
    simp only [BACKOFF_BASE_SECS, BACKOFF_CAP_SECS, NANOS_PER_SEC]
    omega

end Delay

section Window

variable {th th' until_ now t : Nat}

-- The window that a failure opens, if it opens one.
def opens (b : Backoff) (threshold now : Nat) : Option Nat :=
  if b.failed ≥ threshold then (b.recordFailure threshold now).windowUntil else none

-- Before the given time nothing is let through. The window in force is of the length that the failures
-- have by now.
def Shut (until_ th : Nat) (b : Backoff) (now : Nat) : Prop :=
  until_ ≤ now ∨ ∃ v, b.windowUntil = some v ∧ until_ ≤ v ∧ th ≤ b.consecutiveFailures ∧
    v ≤ now + longest (min (b.consecutiveFailures - th) 31)

theorem Shut.mono (hn : t ≤ now) (h : Shut until_ th b t) : Shut until_ th b now := by
  cases h
  case inl h => exact .inl (Nat.le_trans h hn)
  case inr h =>
    have ⟨v, hw, hu, hc, hv⟩ := h
    exact .inr ⟨v, hw, hu, hc, by omega⟩

theorem Shut.decide (h : Shut until_ th b now) : Shut until_ th (b.decide now).2 now := by
  cases h
  case inl h => exact .inl h
  case inr h =>
    have ⟨v, hw, hu, hc, hv⟩ := h
    simp only [Backoff.decide, hw]
    by_cases hn : now < v
    case pos => exact if_pos hn ▸ .inr ⟨v, hw, hu, hc, hv⟩
    case neg => exact .inl (by omega)

theorem Shut.skip (h : Shut until_ th b now) (hn : now < until_) : (b.decide now).1 ≠ .allow := by
  cases h
  case inl h => omega
  case inr h =>
    have ⟨v, hw, hu, _⟩ := h
    simp [Backoff.decide, hw, Nat.lt_of_lt_of_le hn hu]

-- The counter saturates only where the windows do not get longer any more.
theorem failed_eq_or (b : Backoff) : b.failed = b.consecutiveFailures + 1 ∨ 35 ≤ b.failed := by
  rw [failed, Nat.min_def]
  split
  case isTrue  => exact .inl rfl
  case isFalse => exact .inr (by decide)

theorem recordFailure_of_le (now : Nat) (h : th ≤ b.failed) :
    ∃ rngState d, b.recordFailure th now = ⟨rngState, b.failed, some (now + d)⟩ ∧
      shortest (min (b.failed - th) 31) ≤ d ∧ d ≤ longest (min (b.failed - th) 31) := by
  rw [recordFailure, if_pos h]
  exact ⟨_, _, rfl, delay_bounds (Nat.min_le_right ..) (nextJitter_lt b.rngState)⟩

theorem shut_of_opens (h : b.opens th now = some until_) :
    Shut until_ th (b.recordFailure th now) now := by
  rw [opens] at h
  split at h
  case isFalse => cases h
  case isTrue hf =>
    have ⟨_, d, hr, _, hd⟩ := recordFailure_of_le now hf
    rw [hr] at h ⊢
    cases h
    exact .inr ⟨_, rfl, Nat.le_refl _, hf, Nat.add_le_add_left hd _⟩

-- A failure inside a window does not shorten it if its own threshold is not higher.
theorem Shut.recordFailure (h : Shut until_ th b now) (h₃ : th ≤ 3)
    (hth : ∀ v ∈ b.windowUntil, now < v → th' ≤ th) :
    Shut until_ th' (b.recordFailure th' now) now := by
  cases h
  case inl h => exact .inl h
  case inr h =>
    have ⟨v, hw, hu, hc, hv⟩ := h
    by_cases hn : now < v
    case neg => exact .inl (by omega)
    case pos =>
      have hth := hth v hw hn
      have hs := failed_eq_or b
      have hf : th' ≤ b.failed := by omega
      have ⟨_, d, hr, hd, hd'⟩ := recordFailure_of_le now hf
      have hlen : longest (min (b.consecutiveFailures - th) 31) ≤ d :=
        Nat.le_trans (longest_le_shortest (by omega)) hd
      rw [hr]
      exact .inr ⟨_, rfl, by omega, hf, Nat.add_le_add_left hd' _⟩

theorem exists_opens (b : Backoff) (now : Nat) (h : th ≤ 1) :
    ∃ u, (b.recordFailure th now).windowUntil = some u ∧
      now + BACKOFF_BASE_SECS * NANOS_PER_SEC ≤ u := by
  have hf : th ≤ b.failed := by
    have := failed_eq_or b
    omega
  have ⟨_, d, hr, hd, _⟩ := recordFailure_of_le now hf
  refine ⟨now + d, by rw [hr], Nat.add_le_add_left (Nat.le_trans ?_ hd) now⟩
  have hp : 1 ≤ 2 ^ min (b.failed - th) 31 := Nat.one_le_two_pow
  rw [shortest, Nat.le_min]
  exact ⟨Nat.mul_le_mul_right _ (Nat.le_mul_of_pos_right _ hp), by decide⟩

end Window
end Backoff

namespace PunchBackoff

open Backoff (FAILURE_THRESHOLD Shut)
open Timed (Ordered)

inductive Event
  | decide (now : Nat) (candidates : List String)
  | failure (now : Nat)
  | success

namespace Event

def time : Event → Option Nat
  | decide now _ => some now
  | failure now  => some now
  | success      => none

def set : Event → Option (Finset String)
  | decide _ candidates => some candidates.toFinset
  | _                   => none

-- The same up to the order of the candidates and how often each is given.
inductive Same : Event → Event → Prop
  | decide (h : ∀ c, c ∈ candidates ↔ c ∈ candidates') :
      Same (.decide now candidates) (.decide now candidates')
  | refl : Same e e

end Event

section Runs

variable {b : PunchBackoff} {seed : BitVec 64} {es es' before mid : List Event} {e e' : Event}

def after (b : PunchBackoff) : Event → PunchBackoff
  | .decide now candidates => (b.decide now candidates).2
  | .failure now           => b.recordFailure now
  | .success               => b.recordSuccess

def answer (b : PunchBackoff) : Event → Option BackoffDecision
  | .decide now candidates => some (b.decide now candidates).1
  | _                      => none

def run (seed : BitVec 64) (es : List Event) : PunchBackoff :=
  es.foldl after (new seed)

-- The answer to each event and the window after it.
def trace (b : PunchBackoff) : List Event → List (Option BackoffDecision × Option Nat)
  | []      => []
  | e :: es => (b.answer e, (b.after e).windowUntil) :: (b.after e).trace es

-- The candidates that were last decided on, as a set.
def lastSet (es : List Event) : Option (Finset String) :=
  (es.filterMap Event.set).getLast?

-- What ends a window before its time.
def Clears (before : List Event) : Event → Prop
  | .decide _ candidates => ∃ prev ∈ lastSet before, prev ≠ candidates.toFinset
  | .failure _           => False
  | .success             => True

theorem run_append : run seed (es ++ [e]) = (run seed es).after e := by
  simp [run]

theorem lastSet_append : lastSet (es ++ [e]) = e.set.or (lastSet es) := by
  cases he : e.set <;> simp [lastSet, he]

theorem lastCandidates_run : (run seed es).lastCandidates = lastSet es := by
  induction es using List.reverseRecOn
  case nil => rfl
  case append_singleton es e ih =>
    rw [run_append, lastSet_append, ← ih]
    cases e
    case failure => rfl
    case success => rfl
    case decide  =>
      simp only [after, decide]
      split <;> rfl

theorem decide_of_same (now : Nat) (h : ∀ prev ∈ b.lastCandidates, prev = candidates.toFinset) :
    (b.decide now candidates).1 = (b.toBackoff.decide now).1 ∧
      (b.decide now candidates).2.toBackoff = (b.toBackoff.decide now).2 := by
  have hs : b.lastCandidates.any (· ≠ candidates.toFinset) = false := by
    cases hl : b.lastCandidates <;> simp_all
  rw [decide, hs]
  exact ⟨rfl, rfl⟩

theorem same_of_not_clears (seed : BitVec 64) (h : ¬Clears before (.decide now candidates)) :
    ∀ prev ∈ (run seed before).lastCandidates, prev = candidates.toFinset := by
  intro prev hp
  by_contra hn
  exact h ⟨prev, lastCandidates_run ▸ hp, hn⟩

theorem shut_after (h : Shut until_ FAILURE_THRESHOLD (run seed before).toBackoff now)
    (ht : ∀ t ∈ e.time, t = now) (hc : ¬Clears before e) :
    Shut until_ FAILURE_THRESHOLD ((run seed before).after e).toBackoff now := by
  cases e
  case success     => exact absurd trivial hc
  case failure t   => cases ht t rfl; exact h.recordFailure (Nat.le_refl _) fun _ _ _ => Nat.le_refl _
  case decide t cs =>
    cases ht t rfl
    have ⟨_, hd⟩ := decide_of_same now (same_of_not_clears seed hc)
    exact (congrArg (Shut _ _ · _) hd).mpr h.decide

theorem clears_of_allow
    (ho : Ordered Event.time (before ++ .failure t :: (mid ++ [Event.decide now cs])))
    (hw : (run seed before).opens FAILURE_THRESHOLD t = some until_) (hn : now < until_)
    (ha : ((run seed (before ++ .failure t :: mid)).decide now cs).1 = .allow) :
    ∃ l e r, mid ++ [Event.decide now cs] = l ++ e :: r ∧ Clears (before ++ .failure t :: l) e := by
  by_contra hc
  have hc {l e r} (h : mid ++ [Event.decide now cs] = l ++ e :: r) :
      ¬Clears (before ++ .failure t :: l) e :=
    fun he => hc ⟨l, e, r, h, he⟩
  have hr (l : List Event) :
      l.foldl after ((run seed before).recordFailure t) = run seed (before ++ .failure t :: l) := by
    simp [run, after]
  have ho : Ordered Event.time ((.failure t :: mid) ++ [.decide now cs]) := ho.of_append
  have hs : Shut until_ FAILURE_THRESHOLD (run seed (before ++ .failure t :: mid)).toBackoff now := by
    rw [← hr]
    refine Timed.invariant (I := fun b : PunchBackoff => Shut _ _ b.toBackoff) (Event.failure t)
      Shut.mono ?_ ?_ ho.init (ho.before rfl)
    case refine_1 => exact fun now hb => (Backoff.shut_of_opens hw).mono (hb t (by simp [Event.time]))
    case refine_2 =>
      intro l e r hl t' ht h
      rw [hr] at h ⊢
      exact shut_after h ht (hc (r := r ++ [.decide now cs]) (by simp [hl]))
  have ⟨hd, _⟩ := decide_of_same now (same_of_not_clears seed (hc rfl))
  exact hs.skip hn (hd ▸ ha)

theorem Event.Same.after (h : Same e e') : b.after e = b.after e' ∧ b.answer e = b.answer e' := by
  cases h
  case refl     => exact ⟨rfl, rfl⟩
  case decide h =>
    have hs := List.toFinset.ext h
    simp [PunchBackoff.after, answer, PunchBackoff.decide, hs]

theorem trace_same (h : es.Forall₂ Event.Same es') : b.trace es = b.trace es' := by
  induction h generalizing b
  case nil => rfl
  case cons he _ ih =>
    have ⟨hb, ha⟩ := he.after (b := b)
    rw [trace, trace, ha, hb, ih]

end Runs
end PunchBackoff

namespace RelayConnectBackoff

open Backoff (Shut BACKOFF_BASE_SECS NANOS_PER_SEC)
open Timed (Ordered)

inductive Event
  | decide (now : Nat)
  | failure (now : Nat) (cause : RelayConnectFailure)
  | success
deriving DecidableEq

def Event.time : Event → Option Nat
  | decide now    => some now
  | failure now _ => some now
  | success       => none

variable {b : RelayConnectBackoff} {seed : BitVec 64} {before mid : List Event} {e : Event}

def after (b : RelayConnectBackoff) : Event → RelayConnectBackoff
  | .decide now        => (b.decide now).2
  | .failure now cause => (b.recordFailure now cause).2
  | .success           => b.recordSuccess

def run (seed : BitVec 64) (es : List Event) : RelayConnectBackoff :=
  es.foldl after (new seed)

-- A cause that may pass is not met inside a window, unless the one met before it may pass as well.
def Regular (b : RelayConnectBackoff) (now : Nat) (cause : RelayConnectFailure) : Prop :=
  ¬isPermanent cause → ∀ u ∈ b.windowUntil, now < u → ∀ last ∈ b.lastCause, ¬isPermanent last

def RegularRun (seed : BitVec 64) (es : List Event) : Prop :=
  ∀ l now cause r, es = l ++ .failure now cause :: r → Regular (run seed l) now cause

-- What a run keeps while a window is to be respected. The thresholds only fall.
def Respects (until_ : Nat) (b : RelayConnectBackoff) (now : Nat) : Prop :=
  ∃ last, b.lastCause = some last ∧ Shut until_ (threshold last) b.toBackoff now

theorem threshold_le (cause : RelayConnectFailure) : threshold cause ≤ 3 := by
  rw [threshold]
  split <;> decide

theorem threshold_mono (h : isPermanent last → isPermanent cause) : threshold cause ≤ threshold last := by
  rw [threshold, threshold]
  split
  case isTrue    => split <;> decide
  case isFalse h' => rw [if_neg (fun hl => h' (h hl))]

theorem Respects.after (h : Respects until_ b now) (ht : ∀ t ∈ e.time, t = now)
    (hr : ∀ t cause, e = .failure t cause → Regular b t cause) (hs : e ≠ .success) :
    Respects until_ (b.after e) now := by
  have ⟨last, hl, h⟩ := h
  cases e
  case success  => contradiction
  case decide t => cases ht t rfl; exact ⟨last, hl, h.decide⟩
  case failure t cause =>
    cases ht t rfl
    refine ⟨cause, rfl, h.recordFailure (threshold_le last) fun u hu hn => threshold_mono fun hp => ?_⟩
    by_contra hc
    exact hr now cause rfl hc u hu hn last hl hp

theorem success_of_allow
    (ho : Ordered Event.time (before ++ .failure t cause :: (mid ++ [.decide now])))
    (hr : RegularRun seed (before ++ .failure t cause :: mid))
    (hw : (run seed before).opens (threshold cause) t = some until_) (hn : now < until_)
    (ha : ((run seed (before ++ .failure t cause :: mid)).decide now).1 = .allow) :
    .success ∈ mid := by
  by_contra hs
  have hf (l : List Event) : l.foldl after ((run seed before).recordFailure t cause).2 =
      run seed (before ++ .failure t cause :: l) := by
    simp [run, after]
  have ho : Ordered Event.time ((.failure t cause :: mid) ++ [.decide now]) := ho.of_append
  have h : Respects until_ (run seed (before ++ .failure t cause :: mid)) now := by
    rw [← hf]
    refine Timed.invariant (I := Respects until_) (Event.failure t cause)
      (fun hn ⟨last, hl, h⟩ => ⟨last, hl, h.mono hn⟩) ?_ ?_ ho.init (ho.before rfl)
    case refine_1 =>
      exact fun now hb => ⟨cause, rfl, (Backoff.shut_of_opens hw).mono (hb t (by simp [Event.time]))⟩
    case refine_2 =>
      intro l e r hl t' ht h
      rw [hf] at h ⊢
      refine h.after ht ?_ ?_
      case refine_1 => exact fun now c he => hr _ now c r (by simp [hl, he])
      case refine_2 => exact fun he => hs (by simp [hl, he])
  have ⟨_, _, h⟩ := h
  exact h.skip hn ha

end RelayConnectBackoff

open Timed (Ordered)
open Backoff (FAILURE_THRESHOLD BACKOFF_BASE_SECS NANOS_PER_SEC)

-- Between a failure that opened a window and the end of that window nothing is let through, but for what
-- ends a window before its time. For relays this takes runs in which no cause that may pass is met inside
-- a window of one that does not.
theorem backoff_windows_hold (seed : BitVec 64) :
    (∀ (before : List PunchBackoff.Event) t (mid : List PunchBackoff.Event) now candidates until_,
      Ordered PunchBackoff.Event.time
        (before ++ .failure t :: (mid ++ [PunchBackoff.Event.decide now candidates])) →
      (PunchBackoff.run seed before).opens FAILURE_THRESHOLD t = some until_ → now < until_ →
      ((PunchBackoff.run seed (before ++ .failure t :: mid)).decide now candidates).1 = .allow →
      ∃ l e r, mid ++ [PunchBackoff.Event.decide now candidates] = l ++ e :: r ∧
        PunchBackoff.Clears (before ++ .failure t :: l) e) ∧
    (∀ es es', es.Forall₂ PunchBackoff.Event.Same es' →
      (PunchBackoff.new seed).trace es = (PunchBackoff.new seed).trace es') ∧
    (∀ (before : List RelayConnectBackoff.Event) t cause (mid : List RelayConnectBackoff.Event) now until_,
      Ordered RelayConnectBackoff.Event.time
        (before ++ .failure t cause :: (mid ++ [RelayConnectBackoff.Event.decide now])) →
      RelayConnectBackoff.RegularRun seed (before ++ .failure t cause :: mid) →
      (RelayConnectBackoff.run seed before).opens (RelayConnectBackoff.threshold cause) t =
        some until_ → now < until_ →
      ((RelayConnectBackoff.run seed (before ++ .failure t cause :: mid)).decide now).1 = .allow →
      .success ∈ mid) ∧
    ∀ (b : RelayConnectBackoff) now cause, isPermanent cause →
      ∃ u, (b.recordFailure now cause).2.windowUntil = some u ∧
        now + BACKOFF_BASE_SECS * NANOS_PER_SEC ≤ u := by
  refine ⟨fun _ _ _ _ _ _ => PunchBackoff.clears_of_allow, fun _ _ => PunchBackoff.trace_same,
    fun _ _ _ _ _ _ => RelayConnectBackoff.success_of_allow, fun b now cause h => ?_⟩
  refine Backoff.exists_opens b.toBackoff now ?_
  rw [RelayConnectBackoff.threshold, if_pos h]
  exact Nat.le_refl _

def failedTwice : List PunchBackoff.Event := [.decide 0 ["a"], .failure 0, .failure 1]

def askedAgain : List PunchBackoff.Event := [.decide 3 ["a"]]

def rejectedAgain : List RelayConnectBackoff.Event := [.decide 1, .failure 2 (.peerRejectedCredentials 48)]

theorem rejectedAgain_permanent (h : .failure now cause ∈ rejectedAgain) : isPermanent cause := by
  simp only [rejectedAgain, List.mem_cons, List.not_mem_nil, or_false, reduceCtorEq, false_or,
    RelayConnectBackoff.Event.failure.injEq] at h
  rw [h.2]
  rfl

-- The third punch that fails opens a window, and another candidate ends it. A relay that does not take
-- the gateway's credentials, twice in a row, is not asked again after ten seconds.
theorem backoff_windows_hold_rejected :
    (((PunchBackoff.run 7 (failedTwice ++ .failure 2 :: askedAgain)).decide 4 ["a"]).1 ≠ .allow ∧
      ∃ l e r, askedAgain ++ [PunchBackoff.Event.decide 4 ["b"]] = l ++ e :: r ∧
        PunchBackoff.Clears (failedTwice ++ .failure 2 :: l) e) ∧
    ((RelayConnectBackoff.run 7 (.failure 0 (.peerRejectedCredentials 48) :: rejectedAgain)).decide
      (10 * NANOS_PER_SEC)).1 ≠ .allow := by
  obtain ⟨punches, _, relays, _⟩ := backoff_windows_hold 7
  refine ⟨⟨by decide +kernel, ?_⟩, fun ha => ?_⟩
  case refine_1 =>
    exact punches failedTwice 2 askedAgain 4 ["b"] 35847446228 (by decide +kernel) (by decide +kernel)
      (by decide) (by decide +kernel)
  case refine_2 =>
    have regular : RelayConnectBackoff.RegularRun 7
        (.failure 0 (.peerRejectedCredentials 48) :: rejectedAgain) := by
      intro l now cause r hl hp
      have hm : .failure now cause ∈ l ++ .failure now cause :: r := by simp
      rw [← hl] at hm
      refine absurd ?_ hp
      rcases List.mem_cons.mp hm with hm | hm
      case inl => cases hm; rfl
      case inr => exact rejectedAgain_permanent hm
    have opens : (RelayConnectBackoff.run 7 []).opens
        (RelayConnectBackoff.threshold (.peerRejectedCredentials 48)) 0 = some 35847446226 := by
      decide +kernel
    have hs := relays [] 0 _ rejectedAgain _ _ (by decide +kernel) regular opens (by decide +kernel) ha
    exact absurd hs (by decide)

-- Two failures that do not pass open a window of more than a minute, and a third one that may pass
-- replaces it with one that is over before.
theorem relay_window_is_cut_short :
    ∃ until_, (RelayConnectBackoff.run 7 [.failure 0 .alpnMismatch]).opens
        (RelayConnectBackoff.threshold .alpnMismatch) 0 = some until_ ∧
      50 * NANOS_PER_SEC < until_ ∧
      ((RelayConnectBackoff.run 7 [.failure 0 .alpnMismatch, .failure 0 .alpnMismatch,
        .failure 0 .unreachable]).decide (50 * NANOS_PER_SEC)).1 = .allow := by
  exact ⟨60503648836, by decide +kernel, by decide +kernel, by decide +kernel⟩

end Gateway
