import WireMesh.Gateway.Enforce
import WireMesh.Lib.Run

-- The worker that installs policies. States are published into a mailbox that keeps the newest, the
-- worker takes it from there, waits until the filters may be written to, and writes those that need it.
namespace Gateway
namespace PolicyApply

def POLICY_APPLY_RETRY : Nat := seconds 5

def RETRY_BACKOFF_MAX : Nat := seconds 60

def needsPolicyWrite (appliedVersion : Option Nat) (target : Nat) (dsIsNewest : Bool) : Bool :=
  match appliedVersion with
  | none    => true
  | some av => if av < target then true else if av > target then dsIsNewest else false

abbrev Enforcers := HashMap TunnelId GatewayEnforcer

-- The latest of the instants at which the filters that would be written to are ready.
def readyAt (enforcers : Enforcers) (ds : DesiredState) (dsIsNewest : Bool) : Option Nat :=
  let waits := enforcers.entries.filter fun e =>
    needsPolicyWrite e.2.appliedVersion ds.policyVersion dsIsNewest
  (waits.filterMap (·.2.applyReadyAt)).max?

-- How far an install has come: the filters that it has written, those that are not ready, and the one
-- that has stopped it.
structure Install where
  enforcers : Enforcers
  installed : List TunnelId := []
  deferred : List TunnelId := []
  failure : Option TunnelId := none

-- The filters that have been written to, also in vain.
def Install.written (st : Install) : List TunnelId :=
  st.installed ++ st.failure.toList

def Install.succeeds (st : Install) : Bool :=
  st.failure.isNone && st.deferred.isEmpty

section

variable [PolicyJson]

def installOne (ds : DesiredState) (dsIsNewest : Bool) (now : Nat) (backend : TunnelId → Backend)
    (st : Install) (id : TunnelId) : Install :=
  match st.failure, st.enforcers.lookup id with
  | some _, _ | none, none => st
  | none, some e =>
    if !needsPolicyWrite e.appliedVersion ds.policyVersion dsIsNewest then st
    else if e.applyReadyAt.any (now < ·) then { st with deferred := st.deferred ++ [id] }
    else
      match e.applyIfChanged ds (backend id) with
      | (.ok _, e')    =>
        { st with enforcers := st.enforcers.insert id e', installed := st.installed ++ [id] }
      | (.error _, e') => { st with enforcers := st.enforcers.insert id e', failure := some id }

-- The filters in the order in which the map goes through them.
def install (ds : DesiredState) (dsIsNewest : Bool) (now : Nat) (backend : TunnelId → Backend)
    (order : List TunnelId) (enforcers : Enforcers) : Install :=
  order.foldl (installOne ds dsIsNewest now backend) { enforcers }

end

-- Where the worker is in its loop, with the state that it has taken and how long it waits after its
-- next failure. Whether the state is the newest is sampled before the filters are looked at.
inductive Phase
  | idle
  | querying (ds : DesiredState) (backoff : Nat)
  | asking (ds : DesiredState) (dsIsNewest : Bool) (backoff : Nat)
  | sleeping (ds : DesiredState) (deadline : Option Nat) (backoff : Nat)
  | installing (ds : DesiredState) (backoff : Nat)
  | writing (ds : DesiredState) (dsIsNewest : Bool) (backoff : Nat)
  | pausing (ds : DesiredState) (backoff wakeAt : Nat)

structure Worker where
  mailbox : Option DesiredState := none
  -- The mailbox holds a state that the worker has not taken.
  hasChanged : Bool := false
  phase : Phase := .idle
  failures : Nat := 0
  enforcers : Enforcers
  now : Nat := 0

-- A rotation inserts a filter that it has given the state published last.
inductive Event
  | publish (ds : DesiredState)
  | insert (id : TunnelId) (applyReadyAt : Option Nat)
  | remove (id : TunnelId)
  | elapse (ns : Nat)
  | take
  | sample
  | ask
  | askPanics
  | wake
  | install (order : List TunnelId) (backend : TunnelId → Backend)
  | resume

namespace Worker

-- The newest state is taken, whatever the worker was at.
def adopt (w : Worker) : Worker :=
  let phase :=
    match w.mailbox with
    | some ds => .querying ds POLICY_APPLY_RETRY
    | none    => .idle
  { w with hasChanged := false, phase }

def fail (w : Worker) (ds : DesiredState) (backoff : Nat) : Worker :=
  { w with failures := w.failures + 1, phase := .pausing ds backoff (w.now + backoff) }

-- An event that cannot happen leaves everything as it is.
def next [PolicyJson] (w : Worker) : Event → Worker
  | .publish ds =>
    if w.mailbox = some ds then w else { w with mailbox := some ds, hasChanged := true }
  | .insert id applyReadyAt =>
    match w.mailbox with
    | none    => w
    | some ds =>
      match ds.policy with
      | none    => w
      | some ir =>
        let e := ⟨some ir, applyReadyAt, some ds.policyVersion⟩
        { w with enforcers := w.enforcers.insert id e }
  | .remove id   => { w with enforcers := w.enforcers.erase id }
  | .elapse ns   => { w with now := w.now + ns }
  | .take        =>
    match w.phase with
    | .idle => if w.hasChanged then w.adopt else w
    | _     => w
  | .sample      =>
    match w.phase with
    | .querying ds backoff   => { w with phase := .asking ds (!w.hasChanged) backoff }
    | .installing ds backoff => { w with phase := .writing ds (!w.hasChanged) backoff }
    | _                      => w
  | .ask         =>
    match w.phase with
    | .asking ds newest backoff =>
      { w with phase := .sleeping ds (readyAt w.enforcers ds newest) backoff }
    | _ => w
  | .askPanics   =>
    match w.phase with
    | .asking ds _ backoff => w.fail ds backoff
    | _                    => w
  | .wake        =>
    match w.phase with
    | .sleeping ds deadline backoff =>
      if deadline.any (w.now < ·) then w
      else if w.hasChanged then w.adopt
      else { w with phase := .installing ds backoff }
    | _ => w
  | .install order backend =>
    match w.phase with
    | .writing ds newest backoff =>
      if order.Perm w.enforcers.keys then
        let st := PolicyApply.install ds newest w.now backend order w.enforcers
        let w := { w with enforcers := st.enforcers }
        if st.succeeds then { w with phase := .idle } else w.fail ds backoff
      else w
    | _ => w
  | .resume      =>
    match w.phase with
    | .pausing ds backoff wakeAt =>
      if w.hasChanged then w.adopt
      else if w.now < wakeAt then w
      else { w with phase := .querying ds (min (2 * backoff) RETRY_BACKOFF_MAX) }
    | _ => w

end Worker
end PolicyApply
end Gateway
