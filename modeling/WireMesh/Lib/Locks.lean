import WireMesh.Lib.Tasks

-- Locks in a pool of tasks. A lock is held by one task at a time, and where its holder is in its work is
-- where the work of all is.
namespace Pool

variable {Op : Type} {Resp : Op → Type} {Req Env σ ρ L : Type} [DecidableEq L]

-- What an operation does to the locks that are held, and to those that its task holds.
inductive Locking (held own held' own' : List L) : Prop
  | lock (l : L) : l ∉ held → held' = l :: held → own' = l :: own → Locking held own held' own'
  | unlock (l : L) : l ∈ own → held' = held.filter (· ≠ l) → own' = own.filter (· ≠ l) →
      Locking held own held' own'
  | other : held' = held → own' = own → Locking held own held' own'

-- What a task knows comes with the locks that it holds.
structure Holding (R : Rules Req Resp Env σ) (init : σ) (track : (o : Op) → ρ → Resp o → ρ) (r : ρ)
    (held : σ → List L) (holds : ρ → List L) : Prop where
  free : held init = []
  start : holds r = []
  op : ∀ {h s i o x t}, Run (Step R) ⟨init, []⟩ h s → Step R s (.op i o x) t →
    Locking (held s.shared) (holds (view track r i h)) (held t.shared)
      (holds (track o (view track r i h) x))
  env : R.env u v u' → held u' = held u

-- What is held is held by one task.
structure Exclusive (track : (o : Op) → ρ → Resp o → ρ) (r : ρ) (held : σ → List L)
    (holds : ρ → List L) (h : History Req Resp Env σ) (s : Pool Resp σ) : Prop where
  held : ∀ i, s.live i → ∀ l ∈ holds (view track r i h), l ∈ held s.shared
  alone : ∀ i j l, s.live i → s.live j → l ∈ holds (view track r i h) →
    l ∈ holds (view track r j h) → i = j

section

variable {R : Rules Req Resp Env σ} {init : σ} {track : (o : Op) → ρ → Resp o → ρ} {r : ρ}
  {held : σ → List L} {holds : ρ → List L} {h : History Req Resp Env σ} {s t : Pool Resp σ}
  {held₀ own held' own' : List L}

namespace Exclusive

omit [DecidableEq L] in
-- Nothing has changed for the tasks that were there, and others hold nothing.
theorem keep (inv : Exclusive track r held holds h s) (old : ∀ i, t.live i →
      s.live i ∧ view track r i h' = view track r i h ∨ holds (view track r i h') = [])
    (same : held t.shared = held s.shared) : Exclusive track r held holds h' t where
  held i hi l hl := by
    cases old i hi
    case inl ho => exact same ▸ inv.held i ho.1 l (ho.2 ▸ hl)
    case inr ho => simp [ho] at hl
  alone i j l hi hj hli hlj := by
    cases old i hi
    case inr ho => simp [ho] at hli
    case inl hoi =>
      cases old j hj
      case inr ho => simp [ho] at hlj
      case inl hoj => exact inv.alone i j l hoi.1 hoj.1 (hoi.2 ▸ hli) (hoj.2 ▸ hlj)

-- A lock that is taken was held by no task.
theorem not_held (inv : Exclusive track r held holds h s)
    (hl : Locking (held s.shared) own held' own') (hm : l ∈ own') (hn : l ∉ own) (hj : s.live j) :
    l ∉ holds (view track r j h) := by
  intro hv
  have hv := inv.held j hj l hv
  cases hl
  case lock k free _ ho =>
    cases List.mem_cons.mp (ho ▸ hm)
    case inl he => exact free (he ▸ hv)
    case inr he => exact hn he
  case unlock ho => exact hn (List.mem_filter.mp (ho ▸ hm)).1
  case other ho  => exact hn (ho ▸ hm)

theorem op {o : Op} {x : Resp o} (inv : Exclusive track r held holds h s)
    (hs : Step R s (.op i o x) t) (hl : Locking (held s.shared) (holds (view track r i h))
      (held t.shared) (holds (track o (view track r i h) x))) :
    Exclusive track r held holds ((s, .op i o x) :: h) t := by
  have hi : s.live i := by
    cases hs
    case op ht _ => exact live_of_getElem? ht
  -- What a live task holds now, it held before or has just taken.
  have now (j : Nat) (hj : t.live j) (l : L)
      (hm : l ∈ holds (view track r j ((s, .op i o x) :: h))) :
      j = i ∧ l ∈ holds (track o (view track r i h) x) ∨
        j ≠ i ∧ s.live j ∧ l ∈ holds (view track r j h) := by
    by_cases hij : i = j
    case pos =>
      subst hij
      exact .inl ⟨rfl, by rwa [view_op_self] at hm⟩
    case neg =>
      rw [view_op_ne hij] at hm
      exact .inr ⟨Ne.symm hij, live_op_ne hs hij ▸ hj, hm⟩
  constructor
  case held =>
    intro j hj l hm
    cases now j hj l hm
    case inl hn =>
      cases hl
      case lock k _ hh ho =>
        rw [hh]
        cases List.mem_cons.mp (ho ▸ hn.2)
        case inl he => exact he ▸ List.mem_cons_self
        case inr he => exact List.mem_cons_of_mem _ (inv.held i hi l he)
      case unlock k _ hh ho =>
        have ⟨hm, hne⟩ := List.mem_filter.mp (ho ▸ hn.2)
        exact hh ▸ List.mem_filter.mpr ⟨inv.held i hi l hm, hne⟩
      case other hh ho => exact hh ▸ inv.held i hi l (ho ▸ hn.2)
    case inr hn =>
      have ⟨hji, hj, hm⟩ := hn
      have old := inv.held j hj l hm
      cases hl
      case lock hh _ => exact hh ▸ List.mem_cons_of_mem _ old
      case unlock k hk hh _ =>
        have hne : l ≠ k := fun he => hji (inv.alone j i l hj hi hm (he ▸ hk))
        exact hh ▸ List.mem_filter.mpr ⟨old, by simpa using hne⟩
      case other hh _ => exact hh ▸ old
  case alone =>
    -- The task at work does not have what another one holds.
    have apart (j : Nat) (l : L) (hj : s.live j) (hji : j ≠ i) (hm : l ∈ holds (view track r j h)) :
        l ∉ holds (track o (view track r i h) x) := fun hm' => by
      by_cases hv : l ∈ holds (view track r i h)
      case pos => exact hji (inv.alone j i l hj hi hm hv)
      case neg => exact inv.not_held hl hm' hv hj hm
    intro j k l hj hk hmj hmk
    cases now j hj l hmj
    case inl hnj =>
      cases now k hk l hmk
      case inl hnk => rw [hnj.1, hnk.1]
      case inr hnk => exact absurd hnj.2 (apart k l hnk.2.1 hnk.1 hnk.2.2)
    case inr hnj =>
      cases now k hk l hmk
      case inl hnk => exact absurd hnk.2 (apart j l hnj.2.1 hnj.1 hnj.2.2)
      case inr hnk => exact inv.alone j k l hnj.2.1 hnk.2.1 hnj.2.2 hnk.2.2

end Exclusive

theorem exclusive_run (hk : Holding R init track r held holds) (run : Run (Step R) ⟨init, []⟩ h s) :
    Exclusive track r held holds h s := by
  induction run
  case start => exact ⟨nofun, nofun⟩
  case step h s e t run hs inv =>
    have old (ho : ∀ i o x, e ≠ .op i o x) (i : Nat) (hi : t.live i) :
        s.live i ∧ view track r i ((s, e) :: h) = view track r i h ∨
          holds (view track r i ((s, e) :: h)) = [] := by
      have goes : Goes track r h s e i _ := goes_step run hs hi
      cases goes
      case start hv     => exact .inr (by rw [hv, hk.start])
      case own he _ _   => exact absurd he (ho _ _ _)
      case rest hl _ hv => exact .inl ⟨hl, hv⟩
    cases hs
    case spawn    => exact inv.keep (old nofun) rfl
    case op ht ha => exact inv.op (.op ht ha) (hk.op run (.op ht ha))
    case env hv   => exact inv.keep (old nofun) (hk.env hv)
    case halt     =>
      exact ⟨fun i hi => absurd hi (not_live_halt i), fun i _ _ hi => absurd hi (not_live_halt i)⟩

section Lane

variable {α : Type} {l : L} {f : ρ → α} {out m m' : α}

-- Where the holder of a lock is in its work is where the work of all is.
structure Lane (track : (o : Op) → ρ → Resp o → ρ) (r : ρ) (holds : ρ → List L) (l : L)
    (f : ρ → α) (out m : α) (h : History Req Resp Env σ) (s : Pool Resp σ) : Prop where
  inside : ∀ i, s.live i → l ∈ holds (view track r i h) → f (view track r i h) = m
  free : (∀ i, s.live i → l ∉ holds (view track r i h)) → m = out
  outside : ∀ i, s.live i → l ∉ holds (view track r i h) → f (view track r i h) = out

namespace Lane

omit [DecidableEq L] in
theorem start : Lane track r holds l f out out ([] : History Req Resp Env σ) ⟨init, []⟩ :=
  ⟨nofun, fun _ => rfl, nofun⟩

omit [DecidableEq L] in
theorem halt {h' : History Req Resp Env σ} {u : σ} :
    Lane track r holds l f out out h' ⟨u, s.tasks.map fun _ => .ret ()⟩ :=
  ⟨fun i hi => absurd hi (not_live_halt i), fun _ => rfl, fun i hi => absurd hi (not_live_halt i)⟩

omit [DecidableEq L] in
theorem env (lane : Lane track r holds l f out m h s) :
    Lane track r holds l f out m ((s, .env v) :: h) ⟨u, s.tasks⟩ :=
  ⟨lane.inside, lane.free, lane.outside⟩

omit [DecidableEq L] in
theorem spawn (lane : Lane track r holds l f out m h s) (hr : holds r = []) (hf : f r = out)
    (run : Run (Step R) ⟨init, []⟩ h s) (hs : Step R s (.spawn q) t) :
    Lane track r holds l f out m ((s, .spawn q) :: h) t := by
  have old (i : Nat) (hi : t.live i) : s.live i ∨ view track r i h = r := by
    cases goes_step (h := h) (r := r) run hs hi
    case start hv    => exact .inr hv
    case own he _ _  => cases he
    case rest hl _ _ => exact .inl hl
  constructor
  case inside =>
    intro i hi hl
    cases old i hi
    case inl hi => exact lane.inside i hi hl
    case inr hv => exact absurd (hv ▸ hl : l ∈ holds r) (by simp [hr])
  case free =>
    refine fun hn => lane.free fun i hi => hn i ?_
    cases hs
    simp only [live, List.getElem?_append_left (lt_of_live hi)]
    exact hi
  case outside =>
    intro i hi hl
    cases old i hi
    case inl hi => exact lane.outside i hi hl
    case inr hv => exact (congrArg f hv).trans hf

-- The task at work is in the lane before or after, or the lane is none of its business.
theorem op {o : Op} {x : Resp o} (lane : Lane track r holds l f out m h s)
    (ex : Exclusive track r held holds h s) (hs : Step R s (.op i o x) t)
    (hl : Locking (held s.shared) (holds (view track r i h)) (held t.shared)
      (holds (track o (view track r i h) x)))
    (hend : ¬ t.live i → f (track o (view track r i h) x) = out)
    (hout : l ∉ holds (track o (view track r i h) x) → f (track o (view track r i h) x) = out)
    (hin : l ∈ holds (view track r i h) ∨ l ∈ holds (track o (view track r i h) x) →
      m' = f (track o (view track r i h) x))
    (hno : l ∉ holds (view track r i h) → l ∉ holds (track o (view track r i h) x) → m' = m) :
    Lane track r holds l f out m' ((s, .op i o x) :: h) t := by
  have hi : s.live i := by
    cases hs
    case op ht _ => exact live_of_getElem? ht
  have others (j : Nat) (hj : t.live j) (hji : i ≠ j) : s.live j ∧
      view track r j ((s, .op i o x) :: h) = view track r j h :=
    ⟨live_op_ne hs hji ▸ hj, view_op_ne hji⟩
  constructor
  case inside =>
    intro j hj hm
    by_cases hji : i = j
    case pos =>
      subst hji
      rw [view_op_self] at hm ⊢
      exact (hin (.inr hm)).symm
    case neg =>
      have ⟨hj, hv⟩ := others j hj hji
      rw [hv] at hm ⊢
      have hr : l ∉ holds (view track r i h) := fun hr => hji (ex.alone i j l hi hj hr hm)
      rw [hno hr fun hr' => ex.not_held hl hr' hr hj hm]
      exact lane.inside j hj hm
  case free =>
    intro hn
    have last : f (track o (view track r i h) x) = out := by
      by_cases hi : t.live i
      case pos =>
        have hn := hn i hi
        rw [view_op_self] at hn
        exact hout hn
      case neg => exact hend hi
    by_cases hm : l ∈ holds (view track r i h) ∨ l ∈ holds (track o (view track r i h) x)
    case pos => exact (hin hm).trans last
    case neg =>
      have ⟨hr, hr'⟩ := not_or.mp hm
      refine (hno hr hr').trans <| lane.free fun j hj => ?_
      by_cases hji : i = j
      case pos => exact hji ▸ hr
      case neg =>
        have hj : t.live j := live_op_ne hs hji ▸ hj
        exact (others j hj hji).2 ▸ hn j hj
  case outside =>
    intro j hj hm
    by_cases hji : i = j
    case pos =>
      subst hji
      rw [view_op_self] at hm ⊢
      exact hout hm
    case neg =>
      have ⟨hj, hv⟩ := others j hj hji
      rw [hv] at hm ⊢
      exact lane.outside j hj hm

-- The holder has gone on.
theorem moves {o : Op} {x : Resp o} (lane : Lane track r holds l f out m h s)
    (ex : Exclusive track r held holds h s) (hs : Step R s (.op i o x) t)
    (hl : Locking (held s.shared) (holds (view track r i h)) (held t.shared)
      (holds (track o (view track r i h) x)))
    (hend : ¬ t.live i → f (track o (view track r i h) x) = out)
    (hout : l ∉ holds (track o (view track r i h) x) → f (track o (view track r i h) x) = out)
    (hm : l ∈ holds (view track r i h)) :
    Lane track r holds l f out (f (track o (view track r i h) x)) ((s, .op i o x) :: h) t :=
  lane.op ex hs hl hend hout (fun _ => rfl) fun hn => absurd hm hn

-- The task at work is where it was.
theorem stays {o : Op} {x : Resp o} (lane : Lane track r holds l f out m h s)
    (ex : Exclusive track r held holds h s) (hs : Step R s (.op i o x) t)
    (hl : Locking (held s.shared) (holds (view track r i h)) (held t.shared)
      (holds (track o (view track r i h) x)))
    (hend : ¬ t.live i → f (track o (view track r i h) x) = out)
    (hout : l ∉ holds (track o (view track r i h) x) → f (track o (view track r i h) x) = out)
    (hf : f (track o (view track r i h) x) = f (view track r i h)) :
    Lane track r holds l f out m ((s, .op i o x) :: h) t := by
  have hi : s.live i := by
    cases hs
    case op ht _ => exact live_of_getElem? ht
  refine lane.op ex hs hl hend hout (fun hm => ?_) fun _ _ => rfl
  rw [hf]
  by_cases hr : l ∈ holds (view track r i h)
  case pos => exact (lane.inside i hi hr).symm
  case neg =>
    have hr' := hm.resolve_left hr
    exact (lane.free fun j hj => ex.not_held hl hr' hr hj).trans (lane.outside i hi hr).symm

end Lane
end Lane
end
end Pool
