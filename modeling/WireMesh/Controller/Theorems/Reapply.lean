import WireMesh.Policy.Theorems.Table
import WireMesh.Controller.Audit
import WireMesh.Controller.Theorems.Table

-- A fabric document that is applied once more.
namespace Controller.Db

open Policy Checked Holdings

section Segments

variable [Ipnet] {existing : List String} {st st' : ApplyState}

theorem applyAll_cons (h : applyAll existing st (p :: declared) = .ok st') :
    ∃ st₁, applySegment existing st p.1 p.2 = .ok st₁ ∧ applyAll existing st₁ declared = .ok st' :=
  bind_ok.mp h

theorem applyAll_table (h : applyAll existing st declared = .ok st') (hc : CidrsOk st.db) :
    st'.db.table = st.db.table.putAll declared := by
  induction declared generalizing st
  case nil =>
    cases h
    rfl
  case cons p declared ih =>
    have ⟨st₁, hs, h⟩ := applyAll_cons h
    rw [ih h ((applySegment_ok hs).cidrsOk hc), (applySegment_took hc hs).table]
    rfl

theorem applyAll_written (h : applyAll existing st declared = .ok st') (hc : CidrsOk st.db) :
    st.created + st.updated ≤ st'.created + st'.updated := by
  induction declared generalizing st
  case nil =>
    cases h
    exact Nat.le_refl _
  case cons p declared ih =>
    have ⟨st₁, hs, h⟩ := applyAll_cons h
    have hl := ih h ((applySegment_ok hs).cidrsOk hc)
    cases applySegment_took hc hs
    case same       => exact hl
    case wrote _ hw => omega

-- If nothing has been written, all that is declared was there.
theorem applyAll_same (h : applyAll existing st declared = .ok st') (hc : CidrsOk st.db)
    (hw : st'.created + st'.updated ≤ st.created + st.updated) :
    st' = st ∧ ∀ p ∈ declared, st.db.table p.1 = some {n | n ∈ p.2} := by
  induction declared generalizing st
  case nil =>
    cases h
    exact ⟨rfl, by simp⟩
  case cons p declared ih =>
    have ⟨st₁, hs, h⟩ := applyAll_cons h
    have hl := applyAll_written h ((applySegment_ok hs).cidrsOk hc)
    cases applySegment_took hc hs
    case same _ ht =>
      have ⟨he, hd⟩ := ih h hc hw
      exact ⟨he, List.forall_mem_cons.mpr ⟨ht, hd⟩⟩
    case wrote _ hw₁ => omega

theorem applyAll_of_same (hc : CidrsOk st.db)
    (h : ∀ p ∈ declared, p.1 ∈ existing ∧ st.db.table p.1 = some {n | n ∈ p.2}) :
    applyAll existing st declared = .ok st := by
  induction declared
  case nil => rfl
  case cons p declared ih =>
    have ⟨⟨he, ht⟩, hd⟩ := List.forall_mem_cons.mp h
    rw [applyAll, List.foldlM_cons, applySegment_same hc he ht, ok_bind]
    exact ih hd

end Segments

section Policies

variable [Ipnet] [Sha256] [IpnetV6] [PolicyText] {db db' : Db}

omit [PolicyText] in
-- The version is a number on the blocks only.
theorem compile_version {defs : List SegmentDef} {src : PolicySource defs}
    (h : compile src version = .ok ir) (version' : Nat) :
    ∃ ir', compile src version' = .ok ir' ∧ ir'.blocks = ir.blocks := by
  have ⟨blocks, hb, hl, he⟩ := compile_ok.mp h
  exact ⟨_, compile_ok.mpr ⟨blocks, hb, hl, rfl⟩, he ▸ rfl⟩

-- A policy that compiles to the blocks of the latest version is not stored again.
theorem applyPolicy_latest (h : Compiled db yaml version ir)
    (hl : db.latestPolicyRow.map (·.fingerprint) = some (blocksFingerprint ir.blocks)) :
    db.applyPolicy yaml = .ok (false, db) := by
  have ⟨defs, src, hd, hp, hc⟩ := h.ok
  have ⟨ir', hc', hb⟩ := compile_version hc db.nextVersion
  rw [nextVersion] at hc'
  rw [← hb] at hl
  simp only [applyPolicy, hd, ok_bind, hp, pure_bind, hc', hl, if_true]
  rfl

theorem Compiled.congr (h : Compiled db yaml version ir) (hs : db'.segments = db.segments)
    (hc : db'.cidrs = db.cidrs) : Compiled db' yaml version ir := by
  have ⟨defs, src, hd, hp, hc'⟩ := h.ok
  refine ⟨defs, src, ?_, hp, hc'⟩
  rw [← hd, readAllSegmentDefs, readAllSegmentDefs, hs]
  unfold cidrsForSegment
  rw [hc]

-- A policy that has been applied is the latest one.
theorem applyPolicy_again (h : db.applyPolicy yaml = .ok (updated, got)) (hs : SameFabric got db') :
    db'.applyPolicy yaml = .ok (false, db') := by
  have ⟨ir, hc, hd⟩ := applyPolicy_ok h
  have hl : db'.latestPolicyRow = got.latestPolicyRow := congrArg List.getLast? hs.2.2
  cases hd
  case inl hd =>
    have ⟨_, he, hf⟩ := hd
    subst he
    exact applyPolicy_latest (hc.congr hs.1 hs.2.1) (hl ▸ hf)
  case inr hd =>
    have ⟨_, he⟩ := hd
    subst he
    refine applyPolicy_latest (hc.congr hs.1 hs.2.1) ?_
    rw [hl]
    simp [latestPolicyRow, policyRow]

end Policies

section Audited

variable [Ipnet] {db db' : Db}

-- The notes are taken beside the work on the segments.
theorem noteSegments_fst (existing : List String) (declared : List (String × List Ipv4Net))
    (acc : ApplyState × List AuditDiff) :
    Prod.fst <$> declared.foldlM (noteSegment existing) acc = applyAll existing acc.1 declared := by
  induction declared generalizing acc
  case nil => rfl
  case cons p declared ih =>
    rw [List.foldlM_cons, applyAll, List.foldlM_cons, noteSegment]
    cases applySegment existing acc.1 p.1 p.2
    case error => rfl
    case ok st => exact ih (st, _)

variable [Sha256] [IpnetV6] [PolicyText]

-- But for its rows in the log, an apply is what it is without them.
theorem applyAudited_applyFabric (db : Db) (declared : List (String × List Ipv4Net))
    (policyYaml : Option String) (actor now : String) :
    (fun r => (r.1, r.2.1)) <$> db.applyAudited declared policyYaml actor now =
      db.applyFabric declared policyYaml := by
  have hf := noteSegments_fst (db.segments.map (·.name)) declared (⟨db, 0, 0, []⟩, [])
  rw [applyAudited, applyFabric, ← applyAll, ← hf, map_bind, bind_map_left]
  refine bind_congr fun acc => ?_
  cases policyYaml
  case some =>
    dsimp only
    rw [map_bind]
    refine bind_congr fun r => ?_
    split <;> rfl
  case none =>
    dsimp only
    generalize (if acc.1.changed = [] then none else _ : Option String) = source
    cases source
    case none =>
      dsimp only
      rw [pure_bind, pure_bind]
      dsimp only
      split <;> rfl
    case some =>
      dsimp only
      rw [map_bind]
      refine bind_congr fun r => ?_
      split <;> rfl

-- How an apply has ended: where it was after the segments, and after the policy.
structure Finished (db : Db) (declared : List (String × List Ipv4Net)) (policyYaml : Option String)
    (out : ApplyOutcome) (db' : Db) (st : ApplyState) (updated : Bool) (got : Db) : Prop where
  segments : db.applySegments declared = .ok st
  policy : ∀ yaml, policyYaml = some yaml → st.db.applyPolicy yaml = .ok (updated, got)
  kept : got.segments = st.db.segments ∧ got.cidrs = st.db.cidrs
  same : updated = false → got = st.db
  result : if st.created = 0 ∧ st.updated = 0 ∧ !updated then out = ⟨0, 0, false, []⟩ ∧ db' = db
    else out = ⟨st.created, st.updated, updated, st.changed⟩ ∧ db' = got.bumpRevision

theorem applyFabric_finished (h : db.applyFabric declared policyYaml = .ok (out, db')) :
    ∃ st updated got, Finished db declared policyYaml out db' st updated got := by
  rw [applyFabric] at h
  obtain ⟨st, hs, h⟩ := bind_ok.mp h
  have finish {r : Bool × Db}
      (hr : (if st.created = 0 ∧ st.updated = 0 ∧ !r.1 then pure (⟨0, 0, false, []⟩, db)
        else pure (⟨st.created, st.updated, r.1, st.changed⟩, r.2.bumpRevision) :
          Except String (ApplyOutcome × Db)) = .ok (out, db')) :
      if st.created = 0 ∧ st.updated = 0 ∧ !r.1 then out = ⟨0, 0, false, []⟩ ∧ db' = db
        else out = ⟨st.created, st.updated, r.1, st.changed⟩ ∧ db' = r.2.bumpRevision := by
    split at hr
    case isTrue hw =>
      cases hr
      rw [if_pos hw]
      exact ⟨rfl, rfl⟩
    case isFalse hw =>
      cases hr
      rw [if_neg hw]
      exact ⟨rfl, rfl⟩
  have policy {yaml r} (hp : st.db.applyPolicy yaml = .ok r) :
      (r.2.segments = st.db.segments ∧ r.2.cidrs = st.db.cidrs) ∧ (r.1 = false → r.2 = st.db) := by
    obtain ⟨_, _, hd⟩ := applyPolicy_ok hp
    cases hd
    case inl hd => exact ⟨hd.2.1 ▸ ⟨rfl, rfl⟩, fun _ => hd.2.1⟩
    case inr hd => exact ⟨hd.2 ▸ ⟨rfl, rfl⟩, fun hu => absurd (hd.1.symm.trans hu) (by decide)⟩
  cases policyYaml
  case some yaml =>
    obtain ⟨r, hp, h⟩ := bind_ok.mp h
    obtain ⟨hk, hu⟩ := policy hp
    exact ⟨st, r.1, r.2, hs, fun y hy => by cases hy; exact hp, hk, hu, finish h⟩
  case none =>
    dsimp only at h
    split at h
    case h_1 =>
      obtain ⟨r, hp, h⟩ := bind_ok.mp h
      obtain ⟨hk, hu⟩ := policy hp
      exact ⟨st, r.1, r.2, hs, by simp, hk, hu, finish h⟩
    case h_2 => exact ⟨st, false, st.db, hs, by simp, ⟨rfl, rfl⟩, fun _ => rfl, finish h⟩

-- An apply has left the declared CIDRs in place of those that were there.
theorem Finished.left (h : Finished db declared policyYaml out db' st updated got)
    (hc : CidrsOk db) : SameFabric got db' ∧ db'.table = db.table.putAll declared := by
  have table := applyAll_table h.segments hc
  have hr := h.result
  split at hr
  case isTrue hw =>
    have ⟨hc₀, hu₀, hn⟩ := hw
    have ⟨hst, _⟩ := applyAll_same h.segments hc (by simp [hc₀, hu₀])
    have hg : got = st.db := h.same (by simpa using hn)
    rw [hr.2, hg]
    subst hst
    exact ⟨⟨rfl, rfl, rfl⟩, table⟩
  case isFalse =>
    have same : SameFabric got db' := hr.2 ▸ ⟨rfl, rfl, rfl⟩
    exact ⟨same, (table_congr (same.1.trans h.kept.1) (same.2.1.trans h.kept.2)).trans table⟩

-- An apply that reports nothing has found all that is declared.
theorem Finished.nothing (h : Finished db declared policyYaml ⟨0, 0, false, []⟩ db' st updated got)
    (hc : CidrsOk db) : ∀ p ∈ declared, db.table p.1 = some {n | n ∈ p.2} := by
  have zero : st.created = 0 ∧ st.updated = 0 := by
    have hr := h.result
    split at hr
    case isTrue hw => exact ⟨hw.1, hw.2.1⟩
    case isFalse =>
      have ⟨h₁, h₂, _⟩ := ApplyOutcome.mk.inj hr.1
      exact ⟨h₁.symm, h₂.symm⟩
  exact (applyAll_same h.segments hc (by simp [zero])).2

-- All that is declared is there, and so is the policy.
theorem applyAudited_nothing (hc : CidrsOk db)
    (hd : ∀ p ∈ declared, db.table p.1 = some {n | n ∈ p.2})
    (hp : ∀ yaml, policyYaml = some yaml → db.applyPolicy yaml = .ok (false, db))
    (actor now : String) :
    db.applyAudited declared policyYaml actor now = .ok (⟨0, 0, false, []⟩, db, []) := by
  have hs : db.applySegments declared = .ok ⟨db, 0, 0, []⟩ :=
    applyAll_of_same hc fun p hm => ⟨isSome_table.mp (by rw [hd p hm]; rfl), hd p hm⟩
  have ⟨⟨st, notes⟩, hn, he⟩ := map_ok.mp ((noteSegments_fst _ _ (⟨db, 0, 0, []⟩, [])).trans hs)
  subst he
  rw [applyAudited, hn]
  cases policyYaml
  case none => rfl
  case some yaml =>
    rw [ok_bind]
    dsimp only
    rw [hp yaml rfl]
    rfl

theorem applyAudited_again_iff (hc : CidrsOk db)
    (ha : db.applyAudited declared policyYaml actor now = .ok (out, db', rows))
    (actor' now' : String) :
    db'.applyAudited declared policyYaml actor' now' = .ok (⟨0, 0, false, []⟩, db', []) ↔
      Agree declared := by
  have fabric {db db' : Db} {out actor now rows}
      (h : db.applyAudited declared policyYaml actor now = .ok (out, db', rows)) :
      db.applyFabric declared policyYaml = .ok (out, db') :=
    applyAudited_applyFabric .. ▸ map_ok.mpr ⟨_, h, rfl⟩
  have hc' : CidrsOk db' := (applyFabric_ok (fabric ha)).cidrsOk hc
  have ⟨st, updated, got, hf⟩ := applyFabric_finished (fabric ha)
  have ⟨same, table⟩ := hf.left hc
  rw [← putAll_mem_iff (t := db.table), ← table]
  constructor
  case mp =>
    intro h
    have ⟨_, _, _, hf'⟩ := applyFabric_finished (fabric h)
    exact hf'.nothing hc'
  case mpr =>
    exact fun hd => applyAudited_nothing hc' hd
      (fun yaml hy => applyPolicy_again (hf.policy yaml hy) same) actor' now'

end Audited

end Controller.Db

namespace Controller.Admin

open Policy Checked

section Again

variable [Ipnet] [Sha256] [IpnetV6] [PolicyText] {db db' : Db}

theorem applyTx_ok {doc : List (String × List String)} :
    applyTx db doc policyYaml actor now = .ok r ↔
      ∃ declared, doc.mapM parseSegment = .ok declared ∧
        db.applyAudited declared policyYaml actor now = .ok r := by
  rw [applyTx, bind_ok]
  refine exists_congr fun declared => and_congr_right fun _ => ?_
  cases db.applyAudited declared policyYaml actor now
  case ok    => exact pure_ok.trans (by simp)
  case error => simp [throw, throwThe, MonadExceptOf.throw]

-- With nobody else at work, announcing is all that happens after the transaction.
theorem alone_announceCidrs (changed : List (Nat × String × List String)) (c : Ctl) :
    ∃ channel, alone (announceCidrs changed).run c = (.ok (), { c with channel }) := by
  induction changed generalizing c
  case nil => exact ⟨_, rfl⟩
  case cons s changed ih =>
    simp only [announceCidrs, alone_run_bind, alone_askOr]
    cases c.db.ask (.activeGatewayForSegment s.1)
    case none => exact ih c
    case some =>
      simp only [alone_run_bind, alone_askOr]
      exact ih { c with channel := _ }

theorem alone_announcePolicy (c : Ctl) :
    ∃ channel, alone announcePolicy.run c = (.ok (), { c with channel }) := by
  simp only [announcePolicy, alone_run_bind, alone_askOr]
  cases c.db.ask .latestPolicy
  case none => exact ⟨_, rfl⟩
  case some => exact ⟨_, rfl⟩

theorem alone_apply (h : applyTx c.db doc policyYaml actor now = .ok (out, db', rows)) :
    ∃ channel, alone (apply doc policyYaml).run c = (.ok out, { c with db := db', channel }) := by
  obtain ⟨declared, hp, ha⟩ := applyTx_ok.mp h
  have hf : c.db.applyFabric declared policyYaml = .ok (out, db') :=
    Db.applyAudited_applyFabric .. ▸ map_ok.mpr ⟨_, ha, rfl⟩
  have hcommit : c.db.commit (.applyFabric declared policyYaml) = (.ok out, db') := by
    rw [Db.commit, show c.db.transact (.applyFabric declared policyYaml) = .ok (out, db') from hf]
  obtain ⟨channel, hc⟩ := alone_announceCidrs out.changedSegmentCidrs { c with db := db' }
  simp only [apply, hp, alone_run_bind, alone_orStatus, ExceptT.stM_eq, ExceptT.run_liftM, alone_map,
    alone_commit, hcommit, hc, bind_pure_comp]
  split
  case isFalse => exact ⟨_, rfl⟩
  case isTrue =>
    obtain ⟨channel', hp⟩ := alone_announcePolicy { c with db := db', channel }
    refine ⟨channel', ?_⟩
    rw [map_eq_pure_bind, alone_run_bind, hp]
    rfl

-- To apply a document again writes nothing exactly if it does not declare a segment twice with
-- different CIDRs. The last declaration is the one that stays, so with a second one there would
-- always be something to write for the first.
theorem reapply_writes_nothing_iff {doc : List (String × List String)}
    (r : Run Db.Step .empty h db) (hp : doc.mapM parseSegment = .ok declared)
    (ha : applyTx db doc policyYaml actor now = .ok (out, db', rows)) (actor' now' : String) :
    applyTx db' doc policyYaml actor' now' = .ok (⟨0, 0, false, []⟩, db', []) ↔
      Holdings.Agree declared := by
  have ⟨_, hp', ha⟩ := applyTx_ok.mp ha
  cases hp.symm.trans hp'
  rw [← Db.applyAudited_again_iff (Db.cidrsOk_run r) ha actor' now', applyTx_ok]
  simp [hp]

end Again

section Examples

open StandIn

def opened (revision : Nat) : Db :=
  { (committed openingTxs).2 with revision }

-- Segment a is on file with the CIDR that it is declared with last.
def flipping : List (String × List String) :=
  [("a", ["11.0.0.0/8"]), ("a", ["10.0.0.0/8"])]

def flipped : ApplyOutcome :=
  ⟨0, 2, false, [(1, "a", ["11.0.0.0/8"]), (1, "a", ["10.0.0.0/8"])]⟩

def flips (now : String) : List AuditRow :=
  [auditRow "admin" now (.updateSegmentCidrs "a" ["10.0.0.0/8"] ["11.0.0.0/8"]),
    auditRow "admin" now (.updateSegmentCidrs "a" ["11.0.0.0/8"] ["10.0.0.0/8"])]

-- Every apply of this document writes the same again.
theorem reapply_writes_again :
    opened 2 = (committed openingTxs).2 ∧
    applyTx (opened 2) flipping none "admin" "1" = .ok (flipped, opened 3, flips "1") ∧
    applyTx (opened 3) flipping none "admin" "2" = .ok (flipped, opened 4, flips "2") := by
  decide +kernel

def joined : Db where
  segments     := [⟨1, "a"⟩, ⟨2, "b"⟩]
  cidrs        := [⟨1, "10.0.0.0/8"⟩, ⟨2, "11.0.0.0/8"⟩]
  gateways     := (committed openingTxs).2.gateways
  keys         := (committed openingTxs).2.keys
  candidates   := []
  relays       := []
  certificates := (committed openingTxs).2.certificates
  tokens       := (committed openingTxs).2.tokens
  policies     := []
  revision     := 3

-- The first CIDR is declared with bits of a host in it.
theorem reapply_writes_nothing_joined :
    applyTx joined [("a", ["10.1.2.3/8"]), ("b", ["11.0.0.0/8"])] none "admin" "2" =
      .ok (⟨0, 0, false, []⟩, joined, []) := by
  have hp : [("a", ["10.1.2.3/8"]), ("b", ["11.0.0.0/8"])].mapM parseSegment =
      .ok [("a", [.slash8 10]), ("b", [.slash8 11])] := by
    decide +kernel
  have ha : applyTx (committed openingTxs).2 [("a", ["10.1.2.3/8"]), ("b", ["11.0.0.0/8"])] none
      "admin" "1" = .ok (⟨1, 0, false, []⟩, joined,
        [auditRow "admin" "1" (.createSegment "b" ["11.0.0.0/8"])]) := by
    decide +kernel
  refine (reapply_writes_nothing_iff (Run.run_trace Db.empty openingTxs) hp ha "admin" "2").mpr ?_
  exact Holdings.agree_of_nodup (by decide)

end Examples

end Controller.Admin
