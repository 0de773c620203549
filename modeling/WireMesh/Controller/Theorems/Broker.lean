import Mathlib
import WireMesh.Controller.Broker

-- When a report makes the broker act on a pair of gateways.
namespace Controller

variable {states : PathStates} {report : Report}

theorem settledIn_comm (states : PathStates) (a b : Int) : settledIn states a b = settledIn states b a :=
  Bool.and_comm ..

theorem pairKey_eq_iff : pairKey a b = pairKey c d ↔ a = c ∧ b = d ∨ a = d ∧ b = c := by
  simp only [pairKey]
  split <;> split <;> simp only [Prod.mk.injEq] <;> omega

theorem lookup_storePath (path : PeerPath) (h : peer ≠ path.peer) (entry : HashMap Int String) :
    (storePath entry path).lookup peer = entry.lookup peer := by
  rw [storePath]
  split
  case isTrue  => rfl
  case isFalse => exact AList.lookup_insert_ne h

theorem lookup_storePaths {paths : List PeerPath} (h : peer ∉ paths.map PeerPath.peer)
    (entry : HashMap Int String) :
    (paths.foldl storePath entry).lookup peer = entry.lookup peer := by
  induction paths generalizing entry
  case nil => rfl
  case cons path paths ih =>
    rw [List.map_cons, List.mem_cons, not_or] at h
    rw [List.foldl_cons, ih h.2, lookup_storePath path h.1]

section Store

theorem settledDir_storeReport_of_ne (h : a ≠ report.reporter) :
    settledDir (storeReport states report) a b = settledDir states a b := by
  have hl : (storeReport states report).lookup a = states.lookup a := by
    rw [storeReport]
    split
    case isTrue  => exact AList.lookup_erase_ne h
    case isFalse => exact AList.lookup_insert_ne h
  rw [settledDir, settledDir, hl]

-- A report that does not replace what is stored leaves the peers it does not name.
theorem settledDir_storeReport_of_legacy (hs : ¬report.snapshot)
    (h : peer ∉ report.peerPaths.map PeerPath.peer) :
    settledDir (storeReport states report) report.reporter peer =
      settledDir states report.reporter peer := by
  rw [settledDir, settledDir, storeReport, if_neg (fun hn => hs hn.1), if_neg hs, AList.lookup_insert]
  cases hl : states.lookup report.reporter
  case none       => simp [lookup_storePaths h]
  case some entry => simp [lookup_storePaths h]

theorem mem_affected : peer ∈ affected states report ↔
    peer ∈ report.peerPaths.map PeerPath.peer ∨
      report.snapshot ∧ ∃ entry ∈ states.lookup report.reporter, peer ∈ entry.keys := by
  rw [affected, List.mem_dedup, List.mem_mergeSort, List.mem_append]
  refine or_congr_right ?_
  cases report.snapshot <;> cases states.lookup report.reporter <;> simp

theorem mem_keys_of_settledDir (h : settledDir states a b) :
    ∃ entry ∈ states.lookup a, b ∈ entry.keys := by
  rw [settledDir, Option.any_eq_true] at h
  have ⟨s, hs, _⟩ := h
  have ⟨entry, he, hs⟩ := Option.bind_eq_some_iff.mp hs
  exact ⟨entry, he, HashMap.mem_keys_of_lookup hs⟩

-- A pair that is no longer settled is one the report can affect.
theorem mem_affected_of_unsettles
    (h : Broker.unsettles states (storeReport states report) report.reporter peer) :
    peer ∈ affected states report := by
  simp only [Broker.unsettles, settledIn, Bool.and_eq_true, Bool.not_eq_true'] at h
  have ⟨⟨hd, hr⟩, hn⟩ := h
  by_contra ha
  rw [mem_affected, not_or] at ha
  have hs : ¬report.snapshot := fun hs => ha.2 ⟨hs, mem_keys_of_settledDir hd⟩
  have hd' : settledDir (storeReport states report) report.reporter peer = _ :=
    settledDir_storeReport_of_legacy hs ha.1
  by_cases hp : peer = report.reporter
  case pos => simp_all
  case neg =>
    have hr' : settledDir (storeReport states report) peer report.reporter = _ :=
      settledDir_storeReport_of_ne hp
    simp_all

theorem not_unsettles_of_ne (ha : a ≠ report.reporter) (hb : b ≠ report.reporter) :
    Broker.unsettles states (storeReport states report) a b = false := by
  have hs : settledIn (storeReport states report) a b = settledIn states a b := by
    rw [settledIn, settledDir_storeReport_of_ne ha, settledDir_storeReport_of_ne hb, ← settledIn]
  simp [Broker.unsettles, hs]

end Store

namespace Broker

theorem mem_unsettledEdges : peer ∈ unsettledEdges states (storeReport states report) report ↔
    unsettles states (storeReport states report) report.reporter peer := by
  rw [unsettledEdges, List.mem_filter, and_iff_right_of_imp mem_affected_of_unsettles]

theorem nodup_unsettledEdges : (unsettledEdges states after report).Nodup :=
  (List.nodup_dedup _).filter _

theorem unsettles_comm (before after : PathStates) (a b : Int) :
    unsettles before after a b = unsettles before after b a := by
  rw [unsettles, settledIn_comm before, settledIn_comm after, ← unsettles]

-- Among the pairs that fall, the pair of `a` and `b` is found once or not at all.
theorem countP_unsettledEdges (states : PathStates) (report : Report) (a b : Int) :
    (unsettledEdges states (storeReport states report) report).countP
        (fun peer => pairKey report.reporter peer = pairKey a b) =
      (unsettles states (storeReport states report) a b).toNat := by
  have other (peer : Int) :
      (unsettledEdges states (storeReport states report) report).countP
          (fun p => pairKey report.reporter p = pairKey report.reporter peer) =
        (unsettles states (storeReport states report) report.reporter peer).toNat := by
    have hk (p : Int) : pairKey report.reporter p = pairKey report.reporter peer ↔ p = peer := by
      rw [pairKey_eq_iff]
      omega
    simp only [hk]
    by_cases hu : unsettles states (storeReport states report) report.reporter peer
    case pos =>
      rw [hu]
      exact List.count_eq_one_of_mem nodup_unsettledEdges (mem_unsettledEdges.mpr hu)
    case neg =>
      rw [Bool.not_eq_true _ |>.mp hu]
      exact List.count_eq_zero_of_not_mem (mem_unsettledEdges.not.mpr hu)
  by_cases ha : a = report.reporter
  case pos => rw [ha]; exact other b
  case neg =>
    by_cases hb : b = report.reporter
    case pos =>
      have hk : pairKey a b = pairKey report.reporter a := pairKey_eq_iff.mpr <| .inr ⟨rfl, hb⟩
      rw [hk, unsettles_comm, hb]
      exact other a
    case neg =>
      rw [not_unsettles_of_ne ha hb]
      refine List.countP_eq_zero.mpr fun peer _ hk => ?_
      have hk := pairKey_eq_iff.mp (of_decide_eq_true hk)
      omega

end Broker

def BrokerCall.resets (a b : Int) : BrokerCall → Bool
  | resetPair c d => pairKey c d = pairKey a b
  | emitPair _ _  => false

def BrokerCall.emits (a b : Int) : BrokerCall → Bool
  | resetPair _ _ => false
  | emitPair c d  => pairKey c d = pairKey a b

namespace Broker

theorem countP_calls (edges : List Int) (reporter a b : Int) :
    let calls := edges.flatMap fun peer => [.resetPair reporter peer, .emitPair reporter peer]
    calls.countP (BrokerCall.resets a b) =
        edges.countP (fun peer => pairKey reporter peer = pairKey a b) ∧
      calls.countP (BrokerCall.emits a b) =
        edges.countP (fun peer => pairKey reporter peer = pairKey a b) := by
  induction edges
  case nil => exact ⟨rfl, rfl⟩
  case cons peer edges ih =>
    simp only [List.flatMap_cons, List.countP_append, List.countP_cons, ih.1, ih.2, BrokerCall.resets,
      BrokerCall.emits]
    simp [Nat.add_comm]

theorem lookup_resets (attempts : HashMap (Int × Int) Nat) (calls : List BrokerCall) (a b : Int) :
    (calls.foldl resetPair attempts).lookup (pairKey a b) =
      if calls.countP (BrokerCall.resets a b) = 0 then attempts.lookup (pairKey a b) else none := by
  induction calls generalizing attempts
  case nil => rfl
  case cons call calls ih =>
    rw [List.foldl_cons, ih, List.countP_cons]
    cases call
    case emitPair  => simp [resetPair, BrokerCall.resets]
    case resetPair c d =>
      rw [resetPair, HashMap.lookup_erase]
      by_cases h : pairKey c d = pairKey a b
      case pos => simp [BrokerCall.resets, h]
      case neg => simp [BrokerCall.resets, h, Ne.symm h]

-- A report resets the budget of a pair and has its punch sent, once, exactly when it makes the pair
-- fall from settled. Any other report does neither.
theorem onReport_acts_iff_unsettles (broker : Broker) (earlier : List Report) (report : Report)
    (a b : Int) :
    let now := broker.onReports earlier
    let (next, calls) := now.onReport report
    let falls := unsettles now.peerPathStates next.peerPathStates a b
    calls.countP (BrokerCall.resets a b) = falls.toNat ∧
    calls.countP (BrokerCall.emits a b) = falls.toNat ∧
    next.periodicAttempts.lookup (pairKey a b) =
      if falls then none else now.periodicAttempts.lookup (pairKey a b) := by
  intro now
  simp only [onReport]
  split
  case isTrue => simp [unsettles]
  case isFalse =>
    have hc := countP_unsettledEdges now.peerPathStates report a b
    have ⟨hr, he⟩ := countP_calls
      (unsettledEdges now.peerPathStates (storeReport now.peerPathStates report) report)
      report.reporter a b
    rw [hc] at hr he
    refine ⟨hr, he, ?_⟩
    rw [lookup_resets, hr]
    cases unsettles now.peerPathStates (storeReport now.peerPathStates report) a b <;> rfl

end Broker
end Controller
