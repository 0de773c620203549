import WireMesh.Gateway.PolicyApply

namespace Gateway
section

variable [PolicyJson]

-- What a filter enforces is the policy of `ds`, which can be read.
def GatewayEnforcer.Enforces (e : GatewayEnforcer) (ds : DesiredState) : Prop :=
  ds.policy.isSome ∧ e.enforced = ds.policy

instance : Decidable (GatewayEnforcer.Enforces e ds) :=
  inferInstanceAs (Decidable (_ ∧ _))

theorem GatewayEnforcer.Enforces.of_ir_eq {e : GatewayEnforcer} (h : e.Enforces ds)
    (hv : ds.policyVersion = ds'.policyVersion) (hi : ds.policyIr = ds'.policyIr) :
    e.Enforces ds' := by
  have hp : ds.policy = ds'.policy := by rw [DesiredState.policy, DesiredState.policy, hi, hv]
  exact ⟨hp ▸ h.1, hp ▸ h.2⟩

namespace PolicyApply

section Install

variable {ds : DesiredState} {newest : Bool} {now : Nat} {backend : TunnelId → Backend}
  {es : Enforcers} {st : Install} {e e' : GatewayEnforcer} {id id' : TunnelId}

def Needs (e : GatewayEnforcer) (ds : DesiredState) (newest : Bool) : Prop :=
  needsPolicyWrite e.appliedVersion ds.policyVersion newest

omit [PolicyJson] in
theorem not_needs_of_appliedVersion (h : e.appliedVersion = some ds.policyVersion) :
    ¬ Needs e ds newest := by
  simp [Needs, needsPolicyWrite, h]

omit [PolicyJson] in
theorem needs_newest (h : ¬ Needs e ds true) : e.appliedVersion = some ds.policyVersion := by
  cases hv : e.appliedVersion <;> simp [Needs, needsPolicyWrite, hv] at h ⊢
  omega

-- A state that is not the newest is for the filters that have an older one or none.
omit [PolicyJson] in
theorem needs_superseded (h : Needs e ds false) : ∀ v ∈ e.appliedVersion, v < ds.policyVersion := by
  intro v hv
  simp [Needs, needsPolicyWrite, Option.mem_def.mp hv] at h
  exact h

theorem applyIfChanged_ok (hn : Needs e ds newest) (h : e.applyIfChanged ds b = (.ok x, e')) :
    e'.appliedVersion = some ds.policyVersion ∧ e'.Enforces ds := by
  have hv : e.appliedVersion ≠ some ds.policyVersion := fun hv => not_needs_of_appliedVersion hv hn
  rw [GatewayEnforcer.applyIfChanged, if_neg hv] at h
  split at h
  case h_1 => cases h
  case h_2 ir hp =>
    split at h
    all_goals cases h
    exact ⟨rfl, by rw [hp]; rfl, hp.symm⟩

theorem applyIfChanged_error (h : e.applyIfChanged ds b = (.error x, e')) :
    e'.appliedVersion = e.appliedVersion ∧ e'.enforced = e.enforced := by
  rw [GatewayEnforcer.applyIfChanged] at h
  split at h
  case isTrue => cases h
  case isFalse =>
    split at h
    case h_1 =>
      cases h
      exact ⟨rfl, rfl⟩
    case h_2 =>
      split at h
      all_goals cases h
      exact ⟨rfl, rfl⟩

-- What an install has done so far to the filters that it has found.
structure Installs (ds : DesiredState) (newest : Bool) (now : Nat) (es : Enforcers) (st : Install) :
    Prop where
  kept : ∀ id, id ∉ st.written → st.enforcers.lookup id = es.lookup id
  wrote : ∀ id ∈ st.written, ∃ e, es.lookup id = some e ∧ Needs e ds newest ∧
    ∀ t ∈ e.applyReadyAt, t ≤ now
  done : ∀ id ∈ st.installed, ∃ e, st.enforcers.lookup id = some e ∧
    e.appliedVersion = some ds.policyVersion ∧ e.Enforces ds
  failed : ∀ id ∈ st.failure, ∃ e e', es.lookup id = some e ∧ st.enforcers.lookup id = some e' ∧
    e'.appliedVersion = e.appliedVersion ∧ e'.enforced = e.enforced

-- What one filter of the map goes through: it is left alone, put off or written to.
inductive Visited (ds : DesiredState) (newest : Bool) (now : Nat) (st : Install) (id : TunnelId) :
    Install → Prop
  | skipped : (st.failure = none → ∀ e, st.enforcers.lookup id = some e → ¬ Needs e ds newest) →
      Visited ds newest now st id st
  | deferred : Visited ds newest now st id { st with deferred := st.deferred ++ [id] }
  | installed : st.failure = none → st.enforcers.lookup id = some old → Needs old ds newest →
      (∀ t ∈ old.applyReadyAt, t ≤ now) → new.appliedVersion = some ds.policyVersion →
      new.Enforces ds →
      Visited ds newest now st id
        { st with enforcers := st.enforcers.insert id new, installed := st.installed ++ [id] }
  | failed : st.failure = none → st.enforcers.lookup id = some old → Needs old ds newest →
      (∀ t ∈ old.applyReadyAt, t ≤ now) → new.appliedVersion = old.appliedVersion →
      new.enforced = old.enforced →
      Visited ds newest now st id
        { st with enforcers := st.enforcers.insert id new, failure := some id }

theorem visited_installOne (id : TunnelId) :
    Visited ds newest now st id (installOne ds newest now backend st id) := by
  rw [installOne]
  split
  case h_1 hf => exact .skipped (by simp [hf])
  case h_2 hl => exact .skipped (by simp [hl])
  case h_3 e hf hl =>
    by_cases hn : needsPolicyWrite e.appliedVersion ds.policyVersion newest
    case neg =>
      rw [if_pos (by simpa using hn)]
      refine .skipped fun _ e' he' => ?_
      cases hl.symm.trans he'
      exact hn
    case pos =>
      rw [if_neg (by simpa using hn)]
      by_cases hr : e.applyReadyAt.any (now < ·)
      case pos =>
        rw [if_pos hr]
        exact .deferred
      case neg =>
        rw [if_neg hr]
        have ready : ∀ t ∈ e.applyReadyAt, t ≤ now := by
          intro t ht
          simpa [Option.mem_def.mp ht] using hr
        split
        case h_1 hx =>
          have ⟨hv, he⟩ := applyIfChanged_ok hn hx
          exact .installed hf hl hn ready hv he
        case h_2 hx =>
          have ⟨hv, he⟩ := applyIfChanged_error hx
          exact .failed hf hl hn ready hv he

namespace Installs

theorem start : Installs ds newest now es { enforcers := es } where
  kept _ _ := rfl
  wrote    := by simp [Install.written]
  done     := by simp
  failed   := by simp

-- A filter that still needs the state has not been written to.
theorem lookup_of_needs (h : Installs ds newest now es st) (hf : st.failure = none)
    (hl : st.enforcers.lookup id = some e) (hn : Needs e ds newest) :
    id ∉ st.written ∧ es.lookup id = some e := by
  have hw : id ∉ st.written := fun hw => by
    have hi : id ∈ st.installed := by simpa [Install.written, hf] using hw
    have ⟨e', hl', hv, _⟩ := h.done id hi
    cases hl.symm.trans hl'
    exact not_needs_of_appliedVersion hv hn
  exact ⟨hw, h.kept id hw ▸ hl⟩

theorem visited (h : Installs ds newest now es st) (hv : Visited ds newest now st id st') :
    Installs ds newest now es st' := by
  cases hv
  case skipped  => exact h
  case deferred => exact ⟨h.kept, h.wrote, h.done, h.failed⟩
  case installed e e' hf hl hn ready hv he =>
    have ⟨_, hs⟩ := h.lookup_of_needs hf hl hn
    have written : ∀ id', id' ∈ st.written ++ [id] ↔ id' ∈ st.written ∨ id' = id := by simp
    have hw : ({ st with enforcers := st.enforcers.insert id e', installed := st.installed ++ [id] } :
        Install).written = st.written ++ [id] := by simp [Install.written, hf]
    constructor
    case kept =>
      intro id' hw'
      rw [hw, written, not_or] at hw'
      rw [HashMap.lookup_insert, if_neg hw'.2]
      exact h.kept id' hw'.1
    case wrote =>
      intro id' hw'
      rw [hw, written] at hw'
      cases hw'
      case inl hw' => exact h.wrote id' hw'
      case inr hi  => exact hi ▸ ⟨e, hs, hn, ready⟩
    case done =>
      intro id' hi
      rw [HashMap.lookup_insert]
      split
      case isTrue => exact ⟨e', rfl, hv, he⟩
      case isFalse hne =>
        have hi : id' ∈ st.installed := by simpa [hne] using hi
        exact h.done id' hi
    case failed => simp [hf]
  case failed e e' hf hl hn ready hv he =>
    have ⟨hw, hs⟩ := h.lookup_of_needs hf hl hn
    have hi : id ∉ st.installed := fun hi => hw (List.mem_append_left _ hi)
    constructor
    case kept =>
      intro id' hw'
      simp only [Install.written, Option.toList_some, List.mem_append, List.mem_singleton,
        not_or] at hw'
      rw [HashMap.lookup_insert, if_neg hw'.2]
      exact h.kept id' (by simpa [Install.written, hf] using hw'.1)
    case wrote =>
      intro id' hw'
      simp only [Install.written, Option.toList_some, List.mem_append, List.mem_singleton] at hw'
      cases hw'
      case inl hw' => exact h.wrote id' (List.mem_append_left _ hw')
      case inr hi  => exact hi ▸ ⟨e, hs, hn, ready⟩
    case done =>
      intro id' hi'
      rw [HashMap.lookup_insert, if_neg (fun heq : id' = id => hi (heq ▸ hi'))]
      exact h.done id' hi'
    case failed =>
      intro id' hi'
      cases hi'
      exact ⟨e, e', hs, by simp, hv, he⟩

end Installs

theorem installs_install (order : List TunnelId) :
    Installs ds newest now es (install ds newest now backend order es) :=
  List.foldlRecOn order _ .start fun _ h id _ => h.visited (visited_installOne id)

-- A filter that has been come by is settled, put off, or behind the one that has failed.
def Settled (ds : DesiredState) (newest : Bool) (st : Install) (id : TunnelId) : Prop :=
  st.succeeds → ∀ e, st.enforcers.lookup id = some e → ¬ Needs e ds newest

theorem Settled.visited (h : Settled ds newest st id) (hv : Visited ds newest now st id' st') :
    Settled ds newest st' id := by
  intro hs e hl
  cases hv
  case skipped  => exact h hs e hl
  case deferred => simp [Install.succeeds] at hs
  case failed   => simp [Install.succeeds] at hs
  case installed hv _ =>
    rw [HashMap.lookup_insert] at hl
    split at hl
    case isTrue =>
      cases hl
      exact not_needs_of_appliedVersion hv
    case isFalse => exact h hs e hl

theorem Visited.settled (hv : Visited ds newest now st id st') : Settled ds newest st' id := by
  intro hs e hl
  cases hv
  case skipped h =>
    simp only [Install.succeeds, Bool.and_eq_true, Option.isNone_iff_eq_none] at hs
    exact h hs.1 e hl
  case deferred => simp [Install.succeeds] at hs
  case failed   => simp [Install.succeeds] at hs
  case installed hv _ =>
    rw [HashMap.lookup_insert, if_pos rfl] at hl
    cases hl
    exact not_needs_of_appliedVersion hv

theorem settled_install {order : List TunnelId} (hm : id ∈ order) :
    Settled ds newest (install ds newest now backend order es) id := by
  have go (st : Install) (order : List TunnelId) (h : id ∈ order ∨ Settled ds newest st id) :
      Settled ds newest (order.foldl (installOne ds newest now backend) st) id := by
    induction order generalizing st
    case nil => exact h.resolve_left List.not_mem_nil
    case cons id' order ih =>
      have hv : Visited ds newest now st id' (installOne ds newest now backend st id') :=
        visited_installOne id'
      refine ih _ ?_
      cases h
      case inr h => exact .inr (h.visited hv)
      case inl h =>
        cases List.mem_cons.mp h
        case inl h => exact .inr (h ▸ hv.settled)
        case inr h => exact .inl h
  exact go _ order (.inl hm)

end Install

section Run

-- What has been published, the latest first.
def published : List (Worker × Event) → List DesiredState :=
  List.filterMap fun (_, e) =>
    match e with
    | .publish ds => some ds
    | _           => none

-- No state has another's policy version without its policy.
def SameVersionSameIr (h : List (Worker × Event)) (_ : Worker) (e : Event) : Prop :=
  match e with
  | .publish ds =>
    ∀ ds' ∈ published h, ds'.policyVersion = ds.policyVersion → ds'.policyIr = ds.policyIr
  | _ => True

instance : Decidable (SameVersionSameIr h w e) := by
  unfold SameVersionSameIr
  cases e <;> infer_instance

-- The filters that an event writes to are ready for it, and have no newer state than one that was not
-- the newest any more when it was looked at.
def WritesInTime (w : Worker) (e : Event) : Prop :=
  match w.phase, e with
  | .writing ds newest _, .install order backend =>
    order.Perm w.enforcers.keys →
    ∀ id ∈ (install ds newest w.now backend order w.enforcers).written,
      ∃ e, w.enforcers.lookup id = some e ∧ (∀ t ∈ e.applyReadyAt, t ≤ w.now) ∧
        (newest = false → ∀ v ∈ e.appliedVersion, v ≤ ds.policyVersion)
  | _, _ => True

-- With nothing left to do, every filter enforces what has been published last.
def Converged (w : Worker) : Prop :=
  match w.phase, w.hasChanged, w.mailbox with
  | .idle, false, some ds => ∀ e ∈ w.enforcers.entries, e.2.Enforces ds
  | _, _, _               => True

instance : Decidable (Converged w) := by
  unfold Converged
  split <;> infer_instance

def Phase.state : Phase → Option DesiredState
  | idle                => none
  | querying ds _       => ds
  | asking ds _ _       => ds
  | sleeping ds _ _     => ds
  | installing ds _     => ds
  | writing ds _ _      => ds
  | pausing ds _ _      => ds

-- The state has been looked at when it was not the newest any more.
def Phase.superseded : Phase → Bool
  | asking _ newest _  => !newest
  | writing _ newest _ => !newest
  | _                  => false

abbrev Step (w : Worker) (e : Event) (w' : Worker) : Prop :=
  w' = w.next e

def Worker.boot (epoch : Nat) : Worker where
  enforcers := AList.singleton (.own epoch) {}

structure Inv (h : List (Worker × Event)) (w : Worker) : Prop where
  mailbox : ∀ ds ∈ w.mailbox, ds ∈ published h
  state : ∀ ds ∈ w.phase.state, ds ∈ published h
  current : w.hasChanged = false → ∀ ds ∈ w.phase.state, w.mailbox = some ds
  superseded : w.phase.superseded → w.hasChanged
  applied : ∀ id e v, w.enforcers.lookup id = some e → e.appliedVersion = some v →
    ∃ ds ∈ published h, ds.policyVersion = v ∧ e.Enforces ds
  settled : w.phase.state = none → w.hasChanged = false → ∀ ds ∈ w.mailbox,
    ∀ id e, w.enforcers.lookup id = some e → e.appliedVersion = some ds.policyVersion

variable {h : List (Worker × Event)} {w : Worker} {ev : Event} {id : TunnelId} {e : GatewayEnforcer}
  {st : Install}

omit [PolicyJson] in
theorem mem_published_cons (hm : ds ∈ published h) : ds ∈ published ((w, ev) :: h) := by
  rw [published, List.filterMap_cons]
  split
  case h_1 => exact hm
  case h_2 => exact List.mem_cons_of_mem _ hm

namespace Inv

theorem boot (epoch : Nat) : Inv [] (Worker.boot epoch) where
  mailbox    := nofun
  state      := nofun
  current    := nofun
  superseded := nofun
  settled    := nofun
  applied id e v hl hv := by
    have hm : (⟨id, e⟩ : Sigma fun _ : TunnelId => GatewayEnforcer) ∈ _ :=
      AList.mem_lookup_iff.mp hl
    have he : id = .own epoch ∧ e = {} := by simpa using List.mem_singleton.mp hm
    rw [he.2] at hv
    cases hv

theorem cons (inv : Inv h w) : Inv ((w', ev) :: h) w where
  mailbox ds hm    := mem_published_cons (inv.mailbox ds hm)
  state ds hm      := mem_published_cons (inv.state ds hm)
  current          := inv.current
  superseded       := inv.superseded
  settled          := inv.settled
  applied id e v hl hv := by
    have ⟨ds, hm, hd⟩ := inv.applied id e v hl hv
    exact ⟨ds, mem_published_cons hm, hd⟩

theorem publish (inv : Inv h w) :
    Inv ((w, .publish ds) :: h) { w with mailbox := some ds, hasChanged := true } where
  mailbox ds' hm := by
    cases hm
    exact List.mem_cons_self
  state      := inv.cons.state
  current    := nofun
  superseded := fun _ => rfl
  applied    := inv.cons.applied
  settled    := nofun

-- The worker goes on with the state that it has.
theorem phase (inv : Inv h w) (hs : w.phase.state = some ds) (hp : p.state = some ds)
    (sup : p.superseded → w.hasChanged) : Inv h { w with phase := p } where
  mailbox    := inv.mailbox
  state      := by rw [hp, ← hs]; exact inv.state
  current    := by rw [hp, ← hs]; exact inv.current
  superseded := sup
  applied    := inv.applied
  settled hn := by cases hp.symm.trans hn

theorem fail (inv : Inv h w) (hs : w.phase.state = some ds) : Inv h (w.fail ds backoff) := by
  have inv := inv.phase (p := .pausing ds backoff (w.now + backoff)) hs rfl nofun
  exact ⟨inv.mailbox, inv.state, inv.current, inv.superseded, inv.applied, inv.settled⟩

theorem adopt (inv : Inv h w) : Inv h w.adopt := by
  cases hm : w.mailbox
  case none =>
    constructor <;> simp only [Worker.adopt, hm]
    case mailbox | state | current | superseded | settled => nofun
    case applied => exact inv.applied
  case some ds =>
    have hp : ds ∈ published h := inv.mailbox ds hm
    constructor <;> simp only [Worker.adopt, hm]
    case mailbox | state =>
      intro ds' hd
      cases hd
      exact hp
    case current =>
      intro _ ds' hd
      cases hd
      rfl
    case superseded | settled => nofun
    case applied => exact inv.applied

theorem insert (inv : Inv h w) (hm : w.mailbox = some ds) (hp : ds.policy = some ir) :
    Inv h { w with enforcers := w.enforcers.insert id ⟨some ir, ready, some ds.policyVersion⟩ } where
  mailbox    := inv.mailbox
  state      := inv.state
  current    := inv.current
  superseded := inv.superseded
  applied id' e v hl hv := by
    rw [HashMap.lookup_insert] at hl
    split at hl
    case isTrue =>
      cases hl
      cases hv
      exact ⟨ds, inv.mailbox ds hm, rfl, by rw [hp]; rfl, hp.symm⟩
    case isFalse => exact inv.applied id' e v hl hv
  settled hs hc ds' hd id' e hl := by
    cases hm.symm.trans hd
    rw [HashMap.lookup_insert] at hl
    split at hl
    case isTrue =>
      cases hl
      rfl
    case isFalse => exact inv.settled hs hc ds hd id' e hl

theorem remove (inv : Inv h w) : Inv h { w with enforcers := w.enforcers.erase id } := by
  have found (id' : TunnelId) (e : GatewayEnforcer) (hl : (w.enforcers.erase id).lookup id' = some e) :
      w.enforcers.lookup id' = some e := by
    rw [HashMap.lookup_erase] at hl
    split at hl
    case isTrue  => cases hl
    case isFalse => exact hl
  exact ⟨inv.mailbox, inv.state, inv.current, inv.superseded,
    fun id' e v hl => inv.applied id' e v (found id' e hl),
    fun hs hc ds hd id' e hl => inv.settled hs hc ds hd id' e (found id' e hl)⟩

theorem enforcers (inv : Inv h w) (hs : w.phase.state = some ds)
    (applied : ∀ id e v, es.lookup id = some e → e.appliedVersion = some v →
      ∃ ds ∈ published h, ds.policyVersion = v ∧ e.Enforces ds) :
    Inv h { w with enforcers := es } where
  mailbox    := inv.mailbox
  state      := inv.state
  current    := inv.current
  superseded := inv.superseded
  applied    := applied
  settled hn := by cases hs.symm.trans hn

-- A filter has what it had before the install, or what the install is about.
theorem applied_of_installs (inv : Inv h w) (hs : w.phase.state = some ds)
    (hi : Installs ds newest now w.enforcers st) (hl : st.enforcers.lookup id = some e)
    (hv : e.appliedVersion = some v) :
    ∃ ds ∈ published h, ds.policyVersion = v ∧ e.Enforces ds := by
  by_cases hw : id ∈ st.written
  case neg => exact inv.applied id e v (hi.kept id hw ▸ hl) hv
  case pos =>
    cases List.mem_append.mp hw
    case inl hw =>
      have ⟨e', hl', hv', he⟩ := hi.done id hw
      cases hl.symm.trans hl'
      cases hv.symm.trans hv'
      exact ⟨ds, inv.state ds hs, rfl, he⟩
    case inr hw =>
      have ⟨e₀, e', hl₀, hl', hv', he⟩ := hi.failed id (by simpa using hw)
      cases hl.symm.trans hl'
      have ⟨ds', hm, hd, hp, hi⟩ := inv.applied id e₀ v hl₀ (hv' ▸ hv)
      exact ⟨ds', hm, hd, hp, he.trans hi⟩

theorem install (inv : Inv h w) (hw : w.phase = .writing ds newest backoff)
    (ho : order.Perm w.enforcers.keys)
    (hs : (PolicyApply.install ds newest w.now backend order w.enforcers).succeeds) :
    Inv h { w with
      enforcers := (PolicyApply.install ds newest w.now backend order w.enforcers).enforcers,
      phase := .idle } := by
  have hd : w.phase.state = some ds := by rw [hw]; rfl
  have hi : Installs ds newest w.now w.enforcers
    (PolicyApply.install ds newest w.now backend order w.enforcers) := installs_install order
  refine ⟨inv.mailbox, nofun, nofun, nofun, fun id e v => inv.applied_of_installs hd hi, ?_⟩
  intro _ hc ds' hm id e hl
  have hm : some ds' = some ds := Eq.trans (Eq.symm hm) (inv.current hc ds hd)
  cases hm
  -- Nothing has been published since, so the state was the newest when it was looked at.
  have hn : newest = true := by
    have sup := inv.superseded
    rw [hw] at sup
    cases newest
    case true  => rfl
    case false => exact absurd (sup rfl) (Bool.eq_false_iff.mp hc)
  have ho : id ∈ order := by
    refine ho.mem_iff.mpr ?_
    by_cases hk : id ∈ (PolicyApply.install ds newest w.now backend order w.enforcers).written
    case neg => exact HashMap.mem_keys_of_lookup (hi.kept id hk ▸ hl)
    case pos =>
      have ⟨_, hl, _⟩ := hi.wrote id hk
      exact HashMap.mem_keys_of_lookup hl
  exact needs_newest (hn ▸ settled_install ho hs e hl)

theorem step (inv : Inv h w) : Inv ((w, ev) :: h) (w.next ev) := by
  cases ev
  case publish ds =>
    rw [Worker.next]
    split
    case isTrue  => exact inv.cons
    case isFalse => exact inv.publish
  case insert =>
    rw [Worker.next]
    split
    case h_1 => exact inv.cons
    case h_2 hm =>
      split
      case h_1    => exact inv.cons
      case h_2 hp => exact inv.cons.insert hm hp
  case remove => exact inv.cons.remove
  case elapse ns =>
    have inv : Inv ((w, .elapse ns) :: h) w := inv.cons
    exact ⟨inv.mailbox, inv.state, inv.current, inv.superseded, inv.applied, inv.settled⟩
  case take =>
    rw [Worker.next]
    split
    case h_1 =>
      split
      case isTrue  => exact inv.cons.adopt
      case isFalse => exact inv.cons
    case h_2 => exact inv.cons
  case sample =>
    rw [Worker.next]
    split
    case h_1 hp | h_2 hp =>
      refine inv.cons.phase (by rw [hp]; rfl) rfl fun hs => ?_
      simpa [Phase.superseded] using hs
    case h_3 => exact inv.cons
  case ask =>
    rw [Worker.next]
    split
    case h_1 hp => exact inv.cons.phase (by rw [hp]; rfl) rfl nofun
    case h_2    => exact inv.cons
  case askPanics =>
    rw [Worker.next]
    split
    case h_1 hp => exact inv.cons.fail (by rw [hp]; rfl)
    case h_2    => exact inv.cons
  case wake =>
    rw [Worker.next]
    split
    case h_1 hp =>
      split
      case isTrue => exact inv.cons
      case isFalse =>
        split
        case isTrue  => exact inv.cons.adopt
        case isFalse => exact inv.cons.phase (by rw [hp]; rfl) rfl nofun
    case h_2 => exact inv.cons
  case install order backend =>
    rw [Worker.next]
    split
    case h_2 => exact inv.cons
    case h_1 ds newest backoff hp =>
      split
      case isFalse => exact inv.cons
      case isTrue ho =>
        dsimp only
        split
        case isTrue hs => exact inv.cons.install hp ho hs
        case isFalse =>
          have hd : w.phase.state = some ds := by rw [hp]; rfl
          refine (inv.cons.enforcers hd fun id e v => ?_).fail hd
          exact inv.cons.applied_of_installs hd (installs_install order)
  case resume =>
    rw [Worker.next]
    split
    case h_1 hp =>
      split
      case isTrue => exact inv.cons.adopt
      case isFalse =>
        split
        case isTrue  => exact inv.cons
        case isFalse => exact inv.cons.phase (by rw [hp]; rfl) rfl nofun
    case h_2 => exact inv.cons

end Inv

theorem inv_run (run : Run Step (Worker.boot epoch) h w) : Inv h w :=
  run.invariant (.boot epoch) fun {_ _ _ t} _ inv (hs : t = _) => hs ▸ inv.step

omit [PolicyJson] in
-- What is published under one version has one policy.
theorem ir_eq_of_along (ha : Run.Along SameVersionSameIr h) (hm : ds ∈ published h)
    (hm' : ds' ∈ published h) (hv : ds.policyVersion = ds'.policyVersion) :
    ds.policyIr = ds'.policyIr := by
  induction h
  case nil => cases hm
  case cons ev h ih =>
    obtain ⟨_, ev⟩ := ev
    cases ev
    case publish ds₀ =>
      cases List.mem_cons.mp hm
      case inl hm =>
        cases List.mem_cons.mp hm'
        case inl hm' => rw [hm, hm']
        case inr hm' => exact hm ▸ (ha.1 ds' hm' (hv ▸ hm ▸ rfl)).symm
      case inr hm =>
        cases List.mem_cons.mp hm'
        case inl hm' => exact hm' ▸ ha.1 ds hm (hv.trans (hm' ▸ rfl))
        case inr hm' => exact ih ha.2 hm hm'
    all_goals exact ih ha.2 hm hm'

theorem writesInTime (w : Worker) (e : Event) : WritesInTime w e := by
  unfold WritesInTime
  split
  case h_2 => trivial
  case h_1 ds newest _ order backend _ =>
    intro _ id hw
    have ⟨e, hl, hn, ready⟩ := (installs_install order).wrote id hw
    refine ⟨e, hl, ready, fun hs v hv => ?_⟩
    subst hs
    exact Nat.le_of_lt (needs_superseded hn v hv)

-- The worker never writes to a filter that is not ready, nor an older state over a newer one that it
-- could know of. Its filters come to enforce what is published as long as a version stands for one
-- policy.
theorem worker_converges (run : Run Step (Worker.boot epoch) h w) :
    (∀ s ∈ h, WritesInTime s.1 s.2) ∧ (Run.Along SameVersionSameIr h → Converged w) := by
  refine ⟨fun s _ => writesInTime s.1 s.2, fun ha => ?_⟩
  have inv := inv_run run
  rw [Converged]
  split
  case h_2 => trivial
  case h_1 ds hp hc hm =>
    intro ⟨id, e⟩ he
    have hl : w.enforcers.lookup id = some e := AList.mem_lookup_iff.mpr he
    have hv := inv.settled (by rw [hp]; rfl) hc ds hm id e hl
    have ⟨ds', hd, hv', he⟩ := inv.applied id e _ hl hv
    exact he.of_ir_eq hv' (ir_eq_of_along ha hd (inv.mailbox ds hm) hv')

end Run
end PolicyApply
end

-- A controller that has been restored gives the version of a policy that is installed to another one.
namespace PolicyApply

abbrev lengthJson : PolicyJson where
  fromJson ir := some ⟨1, ir.length, []⟩

attribute [local instance] lengthJson

def version₁ (policyIr : List (BitVec 8)) : DesiredState where
  revision       := 0
  peers          := []
  policyIr       := policyIr
  policyVersion  := 1
  relays         := []
  revokedSerials := []

-- Once around the loop of the worker, with nothing in its way.
def round : List Event :=
  [.install [.own 0] fun _ => ⟨true, none⟩, .sample, .wake, .ask, .sample, .take]

def restored : List Event :=
  round ++ .publish (version₁ [1, 1]) :: round ++ [.publish (version₁ [1])]

theorem restored_not_converged :
    Run Step (Worker.boot 0) (Run.trace Worker.next (Worker.boot 0) restored).1
        (Run.trace Worker.next (Worker.boot 0) restored).2 ∧
      ¬ Converged (Run.trace Worker.next (Worker.boot 0) restored).2 :=
  ⟨Run.run_trace _ restored, by decide +kernel⟩

def version₂ : DesiredState :=
  { version₁ [1, 1] with policyVersion := 2 }

-- The second version is published when there are two filters, and the new one of them can be written to
-- only when the worker tries again.
def retried : List Event :=
  [.install [.own 1, .own 0] fun _ => ⟨true, none⟩, .sample, .wake, .ask, .sample, .resume, .elapse POLICY_APPLY_RETRY,
    .install [.own 0, .own 1] fun id => ⟨id = .own 0, none⟩, .sample, .wake, .ask, .sample, .take,
    .publish version₂, .insert (.own 1) none] ++ round ++ [.publish (version₁ [1])]

def retriedRun : List (Worker × Event) × Worker :=
  Run.trace Worker.next (Worker.boot 0) retried

theorem run_retriedRun : Run Step (Worker.boot 0) retriedRun.1 retriedRun.2 :=
  Run.run_trace _ retried

theorem worker_converges_retried :
    retriedRun.2.failures = 1 ∧ retriedRun.2.phase.state = none ∧
    retriedRun.2.enforcers.entries.map (fun e => (e.1, e.2.appliedVersion)) =
      [(.own 1, some 2), (.own 0, some 2)] ∧
    Converged retriedRun.2 :=
  ⟨by decide +kernel, by decide +kernel, by decide +kernel,
    (worker_converges run_retriedRun).2 (by decide +kernel)⟩

end PolicyApply
end Gateway
