import WireMesh.Controller.Theorems.Announce

-- What a run of the controller does to its database.
namespace Controller

open Policy

section Answers

variable [Ipnet] [Sha256] [IpnetV6] [PolicyText] {c c' : Ctl}

-- How an operation has been answered: as it is carried out, or with an error that leaves all as it was.
theorem Ctl.Answers.elim (ha : Answers c o x c') :
    (c.enabled o ∧ x = (Ctl.exec o c).1 ∧ c' = (Ctl.exec o c).2) ∨
    c' = c ∧ ((∃ q e, o = .query q ∧ x ≍ (.error e : Except String q.Resp)) ∨
      ∃ t e, o = .tx t ∧ x ≍ (.error (t.dbError e) : t.Resp)) := by
  cases ha
  case done he       => exact .inl ⟨he, rfl, rfl⟩
  case queryFails e  => exact .inr ⟨rfl, .inl ⟨_, e, rfl, .rfl⟩⟩
  case txFails e     => exact .inr ⟨rfl, .inr ⟨_, e, rfl, .rfl⟩⟩

theorem Ctl.Answers.query_ok (ha : Answers c (.query q) (.ok x) c') : x = c.db.ask q ∧ c' = c := by
  cases ha.elim
  case inl h => exact ⟨Except.ok.inj h.2.1, h.2.2⟩
  case inr h =>
    refine ⟨?_, h.1⟩
    cases h.2
    case inl h =>
      have ⟨q, e, ho, hx⟩ := h
      cases ho
      cases hx
    case inr h =>
      have ⟨_, _, ho, _⟩ := h
      cases ho

theorem Ctl.Answers.query (ha : Answers c (.query q) x c') : c' = c := by
  cases ha.elim
  case inl h => exact h.2.2
  case inr h => exact h.1

theorem Ctl.Answers.tx_ok (ha : Answers c (.tx t) (.ok x) c') :
    c.db.commit t = (.ok x, c'.db) ∧ c' = { c with db := c'.db } := by
  cases ha.elim
  case inl h =>
    rw [h.2.2]
    exact ⟨Prod.ext h.2.1.symm rfl, rfl⟩
  case inr h =>
    cases h.2
    case inl h =>
      have ⟨_, _, ho, _⟩ := h
      cases ho
    case inr h =>
      have ⟨t, e, ho, hx⟩ := h
      cases ho
      cases hx

theorem Ctl.Answers.tx_error (ha : Answers c (.tx t) (.error e) c') : c' = c := by
  cases ha.elim
  case inr h => exact h.1
  case inl h => rw [h.2.2, Ctl.exec, Db.commit_error h.2.1.symm]

theorem Ctl.Answers.db (ha : Answers c o x c') (ho : ∀ t, o ≠ .tx t) : c'.db = c.db := by
  cases ha.elim
  case inr h => rw [h.1]
  case inl h =>
    rw [h.2.2]
    cases o
    case tx t => exact absurd rfl (ho t)
    all_goals rfl

-- What is done in memory is done as it is asked for.
theorem Ctl.Answers.exec (ha : Answers c o x c') (hq : ∀ q, o ≠ .query q) (ht : ∀ t, o ≠ .tx t) :
    x = (Ctl.exec o c).1 ∧ c' = (Ctl.exec o c).2 := by
  cases ha.elim
  case inl h => exact h.2
  case inr h =>
    cases h.2
    case inl h =>
      have ⟨q, _, ho, _⟩ := h
      exact absurd ho (hq q)
    case inr h =>
      have ⟨t, _, ho, _⟩ := h
      exact absurd ho (ht t)

end Answers

-- The transactions that have been committed, each with the database it met.
def txHistory : History → List (Db × Tx)
  | []                              => []
  | (s, .op _ (.tx t) (.ok _)) :: h => (s.shared.db, t) :: txHistory h
  | _ :: h                          => txHistory h

section Db

variable [Ipnet] [Sha256] [IpnetV6] [PolicyText] [Base64]

-- A step of the controller is a transaction on its database, or it leaves the database alone.
theorem db_step (h : History) (hs : Pool.Step rules s e t) :
    txHistory ((s, e) :: h) = txHistory h ∧ t.shared.db = s.shared.db ∨
    ∃ i tx x, e = .op i (.tx tx) (.ok x) ∧ s.shared.db.commit tx = (.ok x, t.shared.db) := by
  cases hs
  case spawn => exact .inl ⟨rfl, rfl⟩
  case halt  => exact .inl ⟨rfl, rfl⟩
  case env he =>
    refine .inl ⟨rfl, ?_⟩
    cases he <;> rfl
  case op i o x _ _ _ ha =>
    cases o
    case tx =>
      cases x
      case error => exact .inl ⟨rfl, congrArg Ctl.db (Ctl.Answers.tx_error ha)⟩
      case ok x  => exact .inr ⟨i, _, x, rfl, (Ctl.Answers.tx_ok ha).1⟩
    all_goals exact .inl ⟨rfl, Ctl.Answers.db ha (by simp)⟩

-- Every run of the controller is a run of its database.
theorem db_run (r : Runs h s) : Run Db.Step .empty (txHistory h) s.shared.db := by
  induction r
  case start => exact .start
  case step h s e t r hs ih =>
    cases db_step h hs
    case inl hd => exact hd.1 ▸ hd.2 ▸ ih
    case inr hd =>
      have ⟨i, tx, x, he, hc⟩ := hd
      subst he
      exact ih.step (congrArg Prod.snd hc).symm

omit [Ipnet] [Sha256] [IpnetV6] [PolicyText] [Base64] in
theorem of_mem_txHistory {h : History} (hm : x ∈ txHistory h) :
    ∃ s i out, (s, .op i (.tx x.2) (.ok out)) ∈ h ∧ s.shared.db = x.1 := by
  fun_induction txHistory h
  case case1 => cases hm
  case case2 s i t out h ih =>
    cases List.mem_cons.mp hm
    case inl hm => exact hm ▸ ⟨s, i, out, by simp, rfl⟩
    case inr hm =>
      have ⟨s, i, out, hm, he⟩ := ih hm
      exact ⟨s, i, out, List.mem_cons_of_mem _ hm, he⟩
  case case3 ih =>
    have ⟨s, i, out, hm, he⟩ := ih hm
    exact ⟨s, i, out, List.mem_cons_of_mem _ hm, he⟩

omit [Ipnet] [Sha256] [IpnetV6] [PolicyText] [Base64] in
theorem txHistory_suffix (e : System × SystemEvent) (h : History) :
    txHistory h <:+ txHistory (e :: h) := by
  rw [txHistory.eq_def (e :: h)]
  split
  case h_1 he => cases he
  case h_2 he =>
    cases he
    exact List.suffix_cons ..
  case h_3 he =>
    cases he
    exact List.suffix_refl _

-- The services commit no key that they have not checked.
theorem keyChecked_run (r : Runs h s) : ∀ x ∈ txHistory h, x.2.KeyChecked := by
  intro x hx
  have ⟨t, i, out, hm, _⟩ := of_mem_txHistory hx
  have ⟨h₁, h₂, u, _, r, hs⟩ := r.mem hm
  exact Pool.pre_view (fun q => announces_handle q {}) (r.step hs)

theorem keysOk_runs (r : Runs h s) : s.shared.db.KeysOk :=
  Db.keysOk_run (db_run r) (keyChecked_run r)

end Db
end Controller
