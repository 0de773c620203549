import Mathlib
import WireMesh.Lib.Binary64

-- How often a gateway may try to punch through to a peer, and to connect to a relay. Times are in
-- nanoseconds.
namespace Gateway

inductive BackoffDecision
  | allow
  | skip (until_ : Nat)
deriving DecidableEq

-- The part that the two have in common.
structure Backoff where
  rngState : BitVec 64
  consecutiveFailures : Nat
  windowUntil : Option Nat
deriving DecidableEq

namespace Backoff

def FAILURE_THRESHOLD : Nat := 3
def PERMANENT_FAILURE_THRESHOLD : Nat := 1
def BACKOFF_BASE_SECS : Nat := 30
def BACKOFF_CAP_SECS : Nat := 300

def NANOS_PER_SEC : Nat := 10 ^ 9

def new (jitterSeed : BitVec 64) : Backoff where
  rngState            := jitterSeed
  consecutiveFailures := 0
  windowUntil         := none

-- One step of splitmix64.
def splitmix (rngState : BitVec 64) : BitVec 64 :=
  let z := rngState
  let z := (z ^^^ (z >>> 30)) * 0xBF58476D1CE4E5B9#64
  let z := (z ^^^ (z >>> 27)) * 0x94D049BB133111EB#64
  z ^^^ (z >>> 31)

-- The jitter is a fraction with the denominator `2 ^ 54`.
def nextJitter (rngState : BitVec 64) : Nat × BitVec 64 :=
  let rngState := rngState + 0x9E3779B97F4A7C15#64
  ((splitmix rngState >>> 11).toNat, rngState)

-- Whole seconds times one and the jitter in floating point, which is then rounded to nanoseconds.
def stretch (secs jitter : Nat) : Nat :=
  let factor := Binary64.round (2 ^ 54 + jitter)
  let product := Binary64.round (secs * factor)
  Binary64.roundEven (product * NANOS_PER_SEC) (2 ^ 54)

def delay (exp jitter : Nat) : Nat :=
  min (stretch (BACKOFF_BASE_SECS * 2 ^ exp) jitter) (BACKOFF_CAP_SECS * NANOS_PER_SEC)

def decide (b : Backoff) (now : Nat) : BackoffDecision × Backoff :=
  match b.windowUntil with
  | none        => (.allow, b)
  | some until_ =>
    if now < until_ then (.skip until_, b)
    else (.allow, { b with windowUntil := none })

-- The counter has 32 bits and saturates.
def failed (b : Backoff) : Nat :=
  min (b.consecutiveFailures + 1) (2 ^ 32 - 1)

def recordFailure (b : Backoff) (threshold now : Nat) : Backoff :=
  if b.failed ≥ threshold then
    let exp := min (b.failed - threshold) 31
    let (jitter, rngState) := nextJitter b.rngState
    { rngState, consecutiveFailures := b.failed, windowUntil := some (now + delay exp jitter) }
  else { b with consecutiveFailures := b.failed }

def reset (b : Backoff) : Backoff :=
  { b with consecutiveFailures := 0, windowUntil := none }

end Backoff

structure PunchBackoff extends Backoff where
  lastCandidates : Option (Finset String)

namespace PunchBackoff

open Backoff (FAILURE_THRESHOLD)

def new (jitterSeed : BitVec 64) : PunchBackoff :=
  { Backoff.new jitterSeed with lastCandidates := none }

-- Candidates that are not those of the last time, in whatever order, start all over.
def decide (b : PunchBackoff) (now : Nat) (candidates : List String) :
    BackoffDecision × PunchBackoff :=
  let set := candidates.toFinset
  if b.lastCandidates.any (· ≠ set) then
    (.allow, { b.toBackoff.reset with lastCandidates := some set })
  else
    let (decision, window) := b.toBackoff.decide now
    (decision, { window with lastCandidates := some set })

def recordFailure (b : PunchBackoff) (now : Nat) : PunchBackoff :=
  { b.toBackoff.recordFailure FAILURE_THRESHOLD now with lastCandidates := b.lastCandidates }

def recordSuccess (b : PunchBackoff) : PunchBackoff :=
  { b.toBackoff.reset with lastCandidates := b.lastCandidates }

end PunchBackoff

inductive RelayConnectFailure
  | alpnMismatch
  | peerRejectedCredentials (alert : BitVec 8)
  | unreachable
  | other
deriving DecidableEq

def isPermanent : RelayConnectFailure → Bool
  | .alpnMismatch | .peerRejectedCredentials _ => true
  | .unreachable | .other                      => false

inductive LogDecision
  | log
  | suppress
deriving DecidableEq

structure RelayConnectBackoff extends Backoff where
  lastCause : Option RelayConnectFailure

namespace RelayConnectBackoff

open Backoff (FAILURE_THRESHOLD PERMANENT_FAILURE_THRESHOLD)

def new (jitterSeed : BitVec 64) : RelayConnectBackoff :=
  { Backoff.new jitterSeed with lastCause := none }

def threshold (cause : RelayConnectFailure) : Nat :=
  if isPermanent cause then PERMANENT_FAILURE_THRESHOLD else FAILURE_THRESHOLD

def decide (b : RelayConnectBackoff) (now : Nat) : BackoffDecision × RelayConnectBackoff :=
  let (decision, window) := b.toBackoff.decide now
  (decision, { window with lastCause := b.lastCause })

def recordFailure (b : RelayConnectBackoff) (now : Nat) (cause : RelayConnectFailure) :
    LogDecision × RelayConnectBackoff :=
  let causeChanged := b.lastCause ≠ some cause
  let firstFailure := b.consecutiveFailures = 0
  let openedWindow := b.failed ≥ threshold cause
  let b := { b.toBackoff.recordFailure (threshold cause) now with lastCause := some cause }
  (if firstFailure ∨ causeChanged ∨ openedWindow then .log else .suppress, b)

def recordSuccess (b : RelayConnectBackoff) : RelayConnectBackoff :=
  { b.toBackoff.reset with lastCause := none }

end RelayConnectBackoff
end Gateway
