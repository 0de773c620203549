import Mathlib
import WireMesh.Lib.Run
import WireMesh.Gateway.FailStatic

-- What is on disk after any states that were given to the writer.
namespace Gateway.FailStaticWriter

abbrev Policy := Nat × List (BitVec 8)

section First

variable {p q : Policy} {ps : List Policy}

-- Of policies, the latest first.
def latest (ps : List Policy) : Policy :=
  ps.head?.getD (0, [])

-- The one with which the bytes of the latest have come.
def first (ps : List Policy) : Option Policy :=
  (ps.takeWhile fun p => p.2 = (latest ps).2).getLast?

theorem first_cons : first (p :: ps) = (p :: ps.takeWhile fun q => q.2 = p.2).getLast? := by
  rw [first, List.takeWhile_cons_of_pos (by simp [latest])]
  rfl

theorem mem_first (h : p ∈ first ps) : p ∈ ps ∧ p.2 = (latest ps).2 := by
  have h := List.mem_of_getLast? h
  exact ⟨List.takeWhile_subset _ h, by simpa using List.mem_takeWhile_imp h⟩

theorem exists_first (p : Policy) (ps : List Policy) :
    ∃ q, first (p :: ps) = some q ∧ q.2 = p.2 := by
  have hl := List.getLast?_eq_some_getLast (List.cons_ne_nil p (ps.takeWhile fun q => q.2 = p.2))
  rw [← first_cons] at hl
  exact ⟨_, hl, (mem_first hl).2⟩

theorem first_cons_same (hp : p ∈ first ps) (hb : p.2 = q.2) : first (q :: ps) = first ps := by
  have ⟨hm, hl⟩ := mem_first hp
  cases ps
  case nil => cases hm
  case cons r ps =>
    have hr : r.2 = q.2 := hl.symm.trans hb
    rw [first_cons, first_cons, List.takeWhile_cons_of_pos (by simpa using hr), hr,
      List.getLast?_cons_cons]

theorem first_cons_other (hp : ∀ p ∈ first ps, p.2 ≠ q.2) : first (q :: ps) = some q := by
  rw [first_cons]
  cases ps
  case nil => rfl
  case cons r ps =>
    have ⟨p, hf, hr⟩ := exists_first r ps
    rw [List.takeWhile_cons_of_neg (by simpa using hr ▸ hp p hf)]
    rfl

-- It is the latest itself if it has its version.
theorem first_eq_latest_iff : (first ps).getD (0, []) = latest ps ↔
    (first ps).map Prod.fst = ps.head?.map Prod.fst := by
  cases ps
  case nil => exact iff_of_true rfl rfl
  case cons p ps =>
    have ⟨q, hq, hb⟩ := exists_first p ps
    rw [hq]
    simp [latest, Prod.ext_iff, hb]

end First

structure Disk where
  writer : FailStaticWriter
  file : Option DesiredState
deriving DecidableEq

structure Save where
  ds : DesiredState
  outcome : WriteOutcome
deriving DecidableEq

section Saves

variable [PolicyJson] {boot : Option DesiredState} {h : List (Disk × Save)} {d d' : Disk} {s : Save}

def Disk.next (d : Disk) (s : Save) : Disk :=
  let (writer, _, file) := d.writer.save s.ds s.outcome d.file
  ⟨writer, file⟩

abbrev Step (d : Disk) (s : Save) (d' : Disk) : Prop :=
  d' = d.next s

def booted (boot : Option DesiredState) : Disk :=
  ⟨seededFrom boot, boot⟩

def policyOf (ds : DesiredState) : Option Policy :=
  if policyIrIsDecodable ds.policyIr then some (ds.policyVersion, ds.policyIr) else none

-- The policies that could be read, of all states that were saved and of the one at boot.
def readable (boot : Option DesiredState) (h : List (Disk × Save)) : List Policy :=
  (h.map (·.2.ds) ++ boot.toList).filterMap policyOf

-- A save that succeeds leaves the state on disk, with the latest policy that could be read.
def Keeps (boot : Option DesiredState) (h : List (Disk × Save)) (_ : Disk) (s : Save) (d' : Disk) :
    Prop :=
  s.outcome = .written →
    let (policyVersion, policyIr) := latest ((policyOf s.ds).toList ++ readable boot h)
    d'.file = some { s.ds with policyVersion, policyIr }

-- A state whose policy cannot be read is only saved while the latest one that could is still of the
-- version that its bytes came with.
def SameVersion (boot : Option DesiredState) (h : List (Disk × Save)) (_ : Disk) (s : Save) : Prop :=
  s.outcome = .written → ¬policyIrIsDecodable s.ds.policyIr →
    (first (readable boot h)).map Prod.fst = (readable boot h).head?.map Prod.fst

theorem policyOf_of_pos (hd : policyIrIsDecodable ds.policyIr) :
    policyOf ds = some (ds.policyVersion, ds.policyIr) :=
  if_pos hd

theorem policyOf_of_neg (hd : ¬policyIrIsDecodable ds.policyIr) : policyOf ds = none :=
  if_neg hd

theorem decodable_of_mem (hp : p ∈ readable boot h) : policyIrIsDecodable p.2 := by
  have ⟨ds, _, hp⟩ := List.mem_filterMap.mp hp
  by_cases hd : policyIrIsDecodable ds.policyIr
  case pos =>
    cases (policyOf_of_pos hd).symm.trans hp
    exact hd
  case neg => cases (policyOf_of_neg hd).symm.trans hp

theorem readable_cons : readable boot ((d, s) :: h) = (policyOf s.ds).toList ++ readable boot h := by
  rw [readable, readable, List.map_cons, List.cons_append, List.filterMap_cons]
  cases policyOf s.ds <;> rfl

theorem remembers_booted : (seededFrom boot).lastGood = first (readable boot []) := by
  cases boot
  case none    => rfl
  case some ds =>
    by_cases hd : policyIrIsDecodable ds.policyIr <;>
      simp [seededFrom, readable, policyOf, hd, first, latest, Option.filter]

theorem next_known (hw : d.writer.lastGood = some p) (hb : p.2 = s.ds.policyIr) :
    d.next s = ⟨{ d.writer with warned := none }, (s.ds.save s.outcome d.file).2⟩ := by
  rw [Disk.next, save, if_pos (by simp [hw, hb])]

omit [PolicyJson] in
theorem not_any {last : Option Policy} (h : ∀ p ∈ last, p.2 ≠ ir) :
    ¬last.any fun p => p.2 = ir := by
  intro ha
  have ⟨p, hp, hb⟩ := (Option.any_eq_true _ _).mp ha
  exact h p hp (of_decide_eq_true hb)

theorem next_read (hw : ∀ p ∈ d.writer.lastGood, p.2 ≠ s.ds.policyIr)
    (hd : policyIrIsDecodable s.ds.policyIr) :
    d.next s = ⟨⟨some (s.ds.policyVersion, s.ds.policyIr), none⟩,
      (s.ds.save s.outcome d.file).2⟩ := by
  rw [Disk.next, save, if_neg (not_any hw), if_pos hd]

theorem next_unread (hw : ∀ p ∈ d.writer.lastGood, p.2 ≠ s.ds.policyIr)
    (hd : ¬policyIrIsDecodable s.ds.policyIr) :
    let (policyVersion, policyIr) := d.writer.lastGood.getD (0, [])
    d.next s = ⟨{ d.writer with warned := some s.ds.policyVersion },
      ({ s.ds with policyVersion, policyIr }.save s.outcome d.file).2⟩ := by
  rw [Disk.next, save, if_neg (not_any hw), if_neg hd]

-- What the writer remembers is not the latest policy but the first with its bytes.
theorem remembers_next (hw : d.writer.lastGood = first (readable boot h)) :
    (d.next s).writer.lastGood = first (readable boot ((d, s) :: h)) := by
  rw [readable_cons]
  by_cases ha : ∃ p ∈ d.writer.lastGood, p.2 = s.ds.policyIr
  case pos =>
    obtain ⟨p, hp, hb⟩ := ha
    have hd := hb ▸ decodable_of_mem (mem_first (hw ▸ hp)).1
    rw [next_known hp hb, policyOf_of_pos hd]
    exact hw.trans (first_cons_same (hw ▸ hp) hb).symm
  case neg =>
    have ha : ∀ p ∈ d.writer.lastGood, p.2 ≠ s.ds.policyIr := fun p hp hb => ha ⟨p, hp, hb⟩
    by_cases hd : policyIrIsDecodable s.ds.policyIr
    case pos =>
      rw [next_read ha hd, policyOf_of_pos hd]
      exact (first_cons_other (hw ▸ ha)).symm
    case neg =>
      have hn := next_unread ha hd
      rw [policyOf_of_neg hd]
      exact hn ▸ hw

theorem remembers_run (r : Run Step (booted boot) h d) :
    d.writer.lastGood = first (readable boot h) := by
  induction r
  case start => exact remembers_booted
  case step hs ih => exact hs ▸ remembers_next ih

theorem file_of_decodable (hd : policyIrIsDecodable s.ds.policyIr) :
    (d.next s).file = (s.ds.save s.outcome d.file).2 := by
  by_cases ha : ∃ p ∈ d.writer.lastGood, p.2 = s.ds.policyIr
  case pos =>
    have ⟨p, hp, hb⟩ := ha
    rw [next_known hp hb]
  case neg => rw [next_read (fun p hp hb => ha ⟨p, hp, hb⟩) hd]

theorem keeps_iff (hw : d.writer.lastGood = first (readable boot h)) :
    Keeps boot h d s (d.next s) ↔ SameVersion boot h d s := by
  refine imp_congr_right fun ho => ?_
  by_cases hd : policyIrIsDecodable s.ds.policyIr
  case pos =>
    refine iff_of_true ?_ fun hn => absurd hd hn
    rw [policyOf_of_pos hd, file_of_decodable hd, ho]
    rfl
  case neg =>
    have ha : ∀ p ∈ d.writer.lastGood, p.2 ≠ s.ds.policyIr := fun p hp hb =>
      hd (hb ▸ decodable_of_mem (mem_first (hw ▸ hp)).1)
    have hn := next_unread ha hd
    rw [policyOf_of_neg hd]
    refine .trans ?_ (first_eq_latest_iff.trans (imp_iff_right hd).symm)
    rw [hw] at hn
    rw [hn, ho]
    simp only [DesiredState.save, List.nil_append, Option.toList_none, Option.some.injEq,
      DesiredState.mk.injEq, true_and, and_true]
    exact and_comm.trans Prod.ext_iff.symm

-- What the file holds is what was saved last, with the latest policy that could be read, in those
-- runs, and only in those, in which no policy changes its version and keeps its bytes before one that
-- cannot be read.
theorem keeps_latest_iff (r : Run Step (booted boot) h d) :
    Run.Each (Keeps boot) h d ↔ Run.Along (SameVersion boot) h := by
  induction r
  case start => exact Iff.rfl
  case step r hs ih => exact hs ▸ and_congr (keeps_iff (remembers_run r)) ih

end Saves

-- A policy comes again under another version, and then one that cannot be read. The first version is
-- what goes to disk with it.
section Example

abbrev unread : PolicyJson where
  fromJson _ := none

attribute [local instance] unread

def stateWith (policyVersion : Nat) (policyIr : List (BitVec 8)) : DesiredState where
  revision       := 0
  peers          := []
  policyIr       := policyIr
  policyVersion  := policyVersion
  relays         := []
  revokedSerials := []

def renumbered : List Save :=
  [⟨stateWith 3 [123], .written⟩, ⟨stateWith 2 [], .written⟩, ⟨stateWith 1 [], .written⟩]

theorem renumbered_loses_version :
    Run Step (booted none) (Run.trace Disk.next (booted none) renumbered).1
        (Run.trace Disk.next (booted none) renumbered).2 ∧
      (Run.trace Disk.next (booted none) renumbered).2.file = some (stateWith 1 []) ∧
      latest (readable none (Run.trace Disk.next (booted none) renumbered).1) = (2, []) ∧
      ¬ Run.Each (Keeps none) (Run.trace Disk.next (booted none) renumbered).1
        (Run.trace Disk.next (booted none) renumbered).2 := by
  have file : (Run.trace Disk.next (booted none) renumbered).2.file = some (stateWith 1 []) := by
    decide +kernel
  refine ⟨Run.run_trace _ renumbered, file, by decide +kernel, fun hk => ?_⟩
  have hk := file.symm.trans (hk.1 rfl)
  revert hk
  decide +kernel

theorem keeps_latest_once :
    let saves : List Save := [⟨stateWith 3 [123], .written⟩, ⟨stateWith 1 [], .written⟩]
    (Run.trace Disk.next (booted none) saves).2.file = some (stateWith 1 []) := by
  intro saves
  have hk := (keeps_latest_iff (Run.run_trace (booted none) saves)).mpr
    ⟨fun _ _ => rfl, fun _ hd => absurd rfl hd, trivial⟩
  exact hk.1 rfl

end Example
end Gateway.FailStaticWriter
