import WireMesh.Lib.HashMap

-- The broker's record of the paths between gateways, and what a report does to it.
namespace Controller

structure PeerPath where
  peerGatewayId : UInt64
  state : String

abbrev PathStates := HashMap Int (HashMap Int String)

def MAX_PEER_PATHS_PER_REPORTER : Nat := 4096

-- Ids are signed in the database and unsigned on the wire.
def PeerPath.peer (path : PeerPath) : Int :=
  path.peerGatewayId.toBitVec.toInt

def settledDir (states : PathStates) (reporter peer : Int) : Bool :=
  (states.lookup reporter >>= AList.lookup peer).any fun s => s = "direct" || s = "relayed"

def settledIn (states : PathStates) (a b : Int) : Bool :=
  settledDir states a b && settledDir states b a

def pairKey (a b : Int) : Int × Int :=
  if a ≤ b then (a, b) else (b, a)

structure Report where
  reporter : Int
  peerPaths : List PeerPath
  snapshot : Bool

-- At the cap only the peers that are known already get a new state.
def storePath (entry : HashMap Int String) (path : PeerPath) : HashMap Int String :=
  if entry.keys.length ≥ MAX_PEER_PATHS_PER_REPORTER ∧ path.peer ∉ entry then entry
  else entry.insert path.peer path.state

def storeReport (states : PathStates) (report : Report) : PathStates :=
  if report.snapshot ∧ report.peerPaths.isEmpty then states.erase report.reporter
  else
    let entry := if report.snapshot then ∅ else (states.lookup report.reporter).getD ∅
    states.insert report.reporter (report.peerPaths.foldl storePath entry)

-- The peers whose pair with the reporter may change: those of the report and, where it replaces all
-- that was stored, those that were stored.
def affected (states : PathStates) (report : Report) : List Int :=
  let stored := if report.snapshot then (states.lookup report.reporter).elim [] (·.keys) else []
  (report.peerPaths.map PeerPath.peer ++ stored).mergeSort.dedup

-- The calls that follow once the lock is released.
inductive BrokerCall
  | resetPair (a b : Int)
  | emitPair (a b : Int)

structure Broker where
  peerPathStates : PathStates
  periodicAttempts : HashMap (Int × Int) Nat

namespace Broker

def unsettles (before after : PathStates) (a b : Int) : Bool :=
  settledIn before a b && !settledIn after a b

def unsettledEdges (before after : PathStates) (report : Report) : List Int :=
  (affected before report).filter (unsettles before after report.reporter)

def resetPair (attempts : HashMap (Int × Int) Nat) : BrokerCall → HashMap (Int × Int) Nat
  | .resetPair a b => attempts.erase (pairKey a b)
  | .emitPair _ _  => attempts

def onReport (broker : Broker) (report : Report) : Broker × List BrokerCall :=
  if !report.snapshot ∧ report.peerPaths.isEmpty then (broker, [])
  else
    let before := broker.peerPathStates
    let after := storeReport before report
    let calls := (unsettledEdges before after report).flatMap fun peer =>
      [.resetPair report.reporter peer, .emitPair report.reporter peer]
    (⟨after, calls.foldl resetPair broker.periodicAttempts⟩, calls)

-- The reports of all gateways, one after another.
def onReports (broker : Broker) (reports : List Report) : Broker :=
  reports.foldl (fun b r => (b.onReport r).1) broker

end Broker
end Controller
