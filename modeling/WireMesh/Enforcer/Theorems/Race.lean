import WireMesh.Enforcer.Race
import WireMesh.Enforcer.Theorems.System

-- A packet is decided by one generation, whatever the loader does meanwhile.
namespace Enforcer

open Policy Prog

-- A slot that holds one generation and nothing else, or nothing at all.
def Slot.Whole (s : Slot) (flat : List FlatRule) : Prop :=
  s = .empty ∧ flat = [] ∨ Numbered flat ∧ ∃ g, Generation.Holds g flat ∧ s = .ofGeneration g

theorem Slot.Whole.serves {s : Slot} (h : s.Whole flat) : s.Serves flat := by
  rcases h with ⟨hs, hf⟩ | ⟨n, g, hg, hs⟩
  case inl => exact hs ▸ hf ▸ Slot.serves_empty
  case inr => exact hs ▸ hg.serves n

-- What an operation of the loader does to the slots.
inductive Effect
  | quiet
  | put (s : Nat) (f : Slot → Slot)
  | flip (s : Nat)

def LoaderOp.effect : LoaderOp → Effect
  | setSrc s t   => .put s fun sl => { sl with src := some t }
  | setDst s t   => .put s fun sl => { sl with dst := some t }
  | setRules s r => .put s fun sl => { sl with rules := some r }
  | setMeta s a  => .put s fun sl => { sl with metaArr := some a }
  | activeSet s  => .flip s
  | _            => .quiet

-- What the loader alone changes: nobody else writes to it between two operations of an apply.
structure View where
  active : Nat
  slot : Nat → Slot
  flipped : Option Nat

namespace View

def ofMaps (m : Maps) (flipped : Option Nat) : View :=
  ⟨m.activeSlot, m.slot, flipped⟩

def write (v : View) (s : Nat) (slot : Slot) : View :=
  { v with slot := Function.update v.slot s slot }

def affect (v : View) (clock : Nat) : Effect → View
  | .quiet   => v
  | .put s f => if s < GENERATIONS then v.write s (f (v.slot s)) else v
  | .flip s  => { v with active := s, flipped := if s = v.active then v.flipped else some clock }

-- An operation of the loader at some time after the last flip. The counters may have any value.
def tr (o : LoaderOp) (v : View) (x : o.Resp) (v' : View) : Prop :=
  ∃ m clock, v = .ofMaps m v.flipped ∧ (∀ f, v.flipped = some f → f ≤ clock) ∧
    x = (m.execLoader clock o).1 ∧ v' = v.affect clock o.effect

-- An apply that has found the slot `a` active writes to the other one, and flips only once that holds
-- the whole generation.
def pre (a : Nat) (flat : List FlatRule) (o : LoaderOp) (v : View) : Prop :=
  match o.effect with
  | .quiet   => True
  | .put s _ => s = 1 - a ∧ v.active = a
  | .flip s  => s = 1 - a ∧ v.active = a ∧ (v.slot (1 - a)).Whole flat

-- At its end it knows a time that is not before its flip.
def post (a : Nat) : Except String GenerationState → View → Prop
  | .ok gen,  v => v.active = 1 - a ∧ ∃ f t, v.flipped = some f ∧ f ≤ t ∧ gen.pendingReap = some ⟨a, t⟩
  | .error _, v => v.active = a

theorem ofMaps_sameGens {m m' : Maps} (h : m.SameGens m') (flipped : Option Nat) :
    ofMaps m' flipped = ofMaps m flipped := by
  rw [ofMaps, ofMaps, h.active, funext h.slot]

theorem join_get_set {V : Type} (arr : ArrayMap GENERATIONS (Option V)) (s j : Nat) (x : V) :
    ((arr.set s (some x)).get j).join =
      if j = s ∧ s < GENERATIONS then some x else (arr.get j).join := by
  split
  case isTrue h => rw [h.1, arr.get_set_self _ h.2]; rfl
  case isFalse h =>
    by_cases hj : j = s
    case pos =>
      have hs : GENERATIONS ≤ j := by omega
      rw [ArrayMap.get_eq_none hs, ArrayMap.get_eq_none hs]
    case neg => rw [arr.get_set_ne _ hj]

theorem slot_put (m : Maps) (clock j : Nat) {o : LoaderOp} (ho : o.effect = .put s f) :
    (m.execLoader clock o).2.slot j =
      if j = s ∧ s < GENERATIONS then f (m.slot s) else m.slot j := by
  cases o <;> cases ho
  all_goals
    simp only [Maps.execLoader, Maps.slot, Maps.slotSrc, Maps.slotDst, Maps.slotRules,
      Maps.slotMeta, join_get_set]
    split
    case isTrue h  => rw [h.1]
    case isFalse h => rfl

theorem activeSlot_put (m : Maps) (clock : Nat) {o : LoaderOp} (ho : o.effect = .put s f) :
    (m.execLoader clock o).2.activeSlot = m.activeSlot := by
  cases o <;> cases ho <;> rfl

-- The effect of an operation is what it does to the maps.
theorem ofMaps_execLoader (m : Maps) (clock : Nat) (o : LoaderOp) (flipped : Option Nat) :
    ofMaps (m.execLoader clock o).2
      (if (m.execLoader clock o).2.activeSlot = m.activeSlot then flipped else some clock) =
      (ofMaps m flipped).affect clock o.effect := by
  cases ho : o.effect
  case quiet => cases o <;> cases ho <;> exact congrArg (ofMaps _) (if_pos rfl)
  case flip  => cases o <;> cases ho; rfl
  case put s f =>
    have slot : (m.execLoader clock o).2.slot =
        if s < GENERATIONS then Function.update m.slot s (f (m.slot s)) else m.slot := by
      funext j
      rw [slot_put m clock j ho]
      split <;> grind [Function.update_apply]
    rw [activeSlot_put m clock ho, if_pos rfl, ofMaps, activeSlot_put m clock ho, slot, affect]
    split <;> rfl

variable {v v' : View} {a : Nat} {flat : List FlatRule}

theorem always_quiet {o : LoaderOp} {Q : o.Resp → View → Prop} (ho : o.effect = .quiet)
    (h : ∀ x, Q x v) : (perform o).Always (pre a flat) tr Q v := by
  refine always_perform (by simp only [pre, ho]) fun x v' ht => ?_
  have ⟨_, _, _, _, _, hv'⟩ := ht
  rw [ho] at hv'
  exact hv' ▸ h x

theorem always_put {o : LoaderOp} {Q : o.Resp → View → Prop} (ho : o.effect = .put (1 - a) f)
    (ha : v.active = a) (h : ∀ x, Q x (v.write (1 - a) (f (v.slot (1 - a))))) :
    (perform o).Always (pre a flat) tr Q v := by
  refine always_perform (by simpa only [pre, ho, true_and] using ha) fun x v' ht => ?_
  have ⟨_, _, _, _, _, hv'⟩ := ht
  have target : 1 - a < GENERATIONS := by simp only [GENERATIONS]; omega
  rw [ho, affect, if_pos target] at hv'
  exact hv' ▸ h x

theorem always_foldCounters (is : List Nat) (gen : GenerationState)
    {Q : GenerationState → View → Prop} (h : ∀ gen, Q gen v) :
    (foldCounters gen is).Always (pre a flat) tr Q v := by
  induction is generalizing gen
  case nil => exact h gen
  case cons i is ih =>
    refine always_bind <| always_quiet rfl fun n => ?_
    split
    case isFalse => exact ih gen
    case isTrue =>
      refine always_bind <| always_quiet rfl fun _ => ?_
      split
      case h_1 => exact ih _
      case h_2 => exact ih gen

theorem always_foldAndResetCounters (gen : GenerationState) (len : Nat)
    {Q : GenerationState → View → Prop} (h : ∀ gen, Q gen v) :
    (foldAndResetCounters gen len).Always (pre a flat) tr Q v := by
  refine always_bind <| always_foldCounters _ gen fun gen => ?_
  refine always_bind <| always_quiet rfl fun n => ?_
  split
  case isTrue  => exact always_bind <| always_quiet rfl fun _ => h _
  case isFalse => exact h gen

theorem always_installGeneration {Q : Unit → View → Prop} (g : Generation) (ha : v.active = a)
    (hQ : Q () (v.write (1 - a) (.ofGeneration g))) :
    (installGeneration (1 - a) g).Always (pre a flat) tr Q v := by
  refine always_bind <| always_put rfl ha fun _ => ?_
  refine always_bind <| always_put rfl (by exact ha) fun _ => ?_
  refine always_bind <| always_put rfl (by exact ha) fun _ => ?_
  refine always_put rfl (by exact ha) fun _ => ?_
  simpa [write, Slot.ofGeneration] using hQ

theorem always_applyGeneration (n : Numbered flat) (hc : checkLpmCapacity flat = .ok ())
    (gen : GenerationState) (ha : v.active = a) :
    (applyGeneration flat gen).Always (pre a flat) tr (post a) v := by
  have ⟨g, hg, hh⟩ := buildGeneration_holds n hc
  refine always_bind <| always_bind <| always_perform trivial fun x v' hx => ?_
  have ⟨m, _, hv, _, hx, hv'⟩ := hx
  have hxa : a = x := by rw [← ha, hv, hx]; rfl
  subst hxa
  rw [show v' = v from hv', hg]
  refine always_bind <| always_installGeneration g ha ?_
  refine always_bind <| always_bind <| always_foldAndResetCounters _ _ fun gen => ?_
  have whole : ((v.write (1 - a) (.ofGeneration g)).slot (1 - a)).Whole flat :=
    .inr ⟨n, g, hh, by simp [write]⟩
  refine always_bind <| always_perform ⟨rfl, ha, whole⟩ fun _ v₁ h₁ => ?_
  refine always_bind <| always_perform trivial fun t v₂ h₂ => ?_
  -- The clock that the loader reads after the flip is not behind the time of the flip.
  have ⟨_, f, _, _, _, hv₁⟩ := h₁
  have ⟨_, _, _, hle, ht, hv₂⟩ := h₂
  subst hv₁
  rw [show v₂ = _ from hv₂]
  have other : 1 - a ≠ a := by omega
  have flipped : (if 1 - a = v.active then v.flipped else some f) = some f :=
    if_neg (ha.symm ▸ other)
  exact ⟨rfl, f, t, flipped, ht ▸ hle f flipped, rfl⟩

end View

-- A packet that has found the slot `s` active reads that slot and nothing else.
def reads (s : Nat) (o : MapOp) (_ : Unit) : Prop :=
  o = .genSrc s ∨ o = .genDst s ∨ o = .genRules s ∨ o = .genMeta s

-- What it reads comes from the contents `sl`, whatever else the maps hold by then.
def answers (s : Nat) (sl : Slot) (o : MapOp) (_ : Unit) (x : o.Resp) (_ : Unit) : Prop :=
  ∃ m : Maps, m.slot s = sl ∧ x = (m.exec o).1

section Reads

variable {s : Nat} {sl : Slot}

theorem always_scanLoop (bits : RuleBits) (len : Nat) (is : List Nat) :
    (scanLoop s bits len proto dport is).Always (reads s) (answers s sl)
      (fun pick _ => pick = sl.scanLoop bits len proto dport is) () := by
  induction is
  case nil => rfl
  case cons i is ih =>
    rw [scanLoop, Slot.scanLoop]
    split
    case isTrue => rfl
    split
    case isTrue => exact ih
    refine always_bind <| always_perform (.inr <| .inr <| .inl rfl) fun x _ hx => ?_
    obtain ⟨m, hm, hx⟩ := hx
    have rules : x = sl.rules := by rw [← hm, hx]; rfl
    rw [rules]
    cases sl.rules.bind (·.get i)
    case none => rfl
    case some r =>
      show Always _ _ (fun pick _ => pick = if metaMatches r proto dport then _ else _)
        (if metaMatches r proto dport then _ else _) ()
      split
      case isTrue  => rfl
      case isFalse => exact ih

-- After the first read, which tells the slot, the outcome is that of a scan of its contents.
theorem scanRules_reads (src dst : BitVec 32) (proto : BitVec 8) (dport : BitVec 16) :
    ∃ next, scanRules src dst proto dport = .op .active next ∧
      ∀ x sl, (next x).Always (reads (x.getD 0)) (answers (x.getD 0) sl)
        (fun pick _ => pick = sl.scan src dst proto dport) () := by
  refine ⟨_, rfl, fun x sl => ?_⟩
  refine always_bind <| always_perform (.inl rfl) fun x₁ _ h₁ => ?_
  refine always_bind <| always_perform (.inr <| .inl rfl) fun x₂ _ h₂ => ?_
  refine always_bind <| always_perform (.inr <| .inr <| .inr rfl) fun x₃ _ h₃ => ?_
  have ⟨m₁, hm₁, hx₁⟩ := h₁
  have ⟨m₂, hm₂, hx₂⟩ := h₂
  have ⟨m₃, hm₃, hx₃⟩ := h₃
  have src : x₁ = sl.src := by rw [← hm₁, hx₁]; rfl
  have dst : x₂ = sl.dst := by rw [← hm₂, hx₂]; rfl
  have len : x₃ = sl.metaArr := by rw [← hm₃, hx₃]; rfl
  rw [src, dst, len]
  exact always_scanLoop ..

end Reads

namespace Race

variable {r r' : Race} {grace : Nat}

-- The next apply waits for a time that is not before the last flip.
def Waits (r : Race) (gen : GenerationState) : Prop :=
  ∀ f, r.flipped = some f → ∃ t, gen.pendingReap = some t ∧ f ≤ t.flippedAt

-- Where an apply stands: it has flipped, or it has still to do so.
structure Applies (r : Race) (a : Nat) (flat : List FlatRule) (gen : GenerationState)
    (rest : Loader (Except String GenerationState)) : Prop where
  rest  : rest.Always (View.pre a flat) View.tr (View.post a) (.ofMaps r.maps r.flipped)
  stage : r.maps.activeSlot = a ∧ r.Waits gen ∨ r.maps.activeSlot = 1 - a

structure Loaded (r : Race) : Prop where
  flipped : ∀ f, r.flipped = some f → f ≤ r.clock
  whole   : (r.maps.slot r.maps.activeSlot).Whole r.policy
  idle    : ∀ gen, r.loader = .idle gen → r.Waits gen
  busy    : ∀ a flat gen rest, r.loader = .busy a flat gen rest → r.Applies a flat gen rest

-- What one operation of an apply does to the slots.
inductive Loads (m : Maps) (a : Nat) (flat : List FlatRule) (m' : Maps) : Prop
  | quiet : m'.activeSlot = m.activeSlot → m'.slot = m.slot → Loads m a flat m'
  | put : m.activeSlot = a → m'.activeSlot = a → (∀ s, s ≠ 1 - a → m'.slot s = m.slot s) →
      Loads m a flat m'
  | flip : m.activeSlot = a → m'.activeSlot = 1 - a → m'.slot = m.slot →
      (m.slot (1 - a)).Whole flat → Loads m a flat m'

theorem loads_execLoader {m m' : Maps} {o : LoaderOp} {x : o.Resp}
    (hp : View.pre a flat o (.ofMaps m f)) (hm : m.execLoader c o = (x, m')) :
    Loads m a flat m' := by
  obtain rfl : (m.execLoader c o).2 = m' := congrArg Prod.snd hm
  cases ho : o.effect
  case quiet =>
    cases o <;> cases ho
    all_goals exact .quiet rfl rfl
  case put s f =>
    rw [View.pre, ho] at hp
    have active := View.activeSlot_put m c ho
    refine .put hp.2 (active.trans hp.2) fun j hj => ?_
    rw [View.slot_put m c j ho, if_neg fun h => hj (h.1.trans hp.1)]
  case flip s =>
    rw [View.pre, ho] at hp
    cases o <;> cases ho
    exact .flip hp.2.1 hp.1 rfl hp.2.2

theorem Loads.whole {m m' : Maps} {policy : List FlatRule} (h : Loads m a flat m')
    (hw : (m.slot m.activeSlot).Whole policy) :
    (m'.slot m'.activeSlot).Whole (if m'.activeSlot = m.activeSlot then policy else flat) := by
  cases h
  case quiet ha hs => rwa [if_pos ha, ha, hs]
  case put ha ha' hs =>
    have other : a ≠ 1 - a := by omega
    rw [if_pos (ha'.trans ha.symm), ha', hs a other, ← ha]
    exact hw
  case flip ha ha' hs hw' =>
    have other : 1 - a ≠ a := by omega
    rwa [ha, ha', if_neg other, hs]

theorem Loaded.start (config : ArrayMap CONFIG_LEN Nat) : (start config).Loaded where
  flipped := nofun
  whole   := .inl ⟨rfl, rfl⟩
  idle    := nofun
  busy    := nofun

-- Nobody but the loader has a part in this.
theorem Loaded.others (h : r.Loaded) (hm : r.maps.SameGens m) (hc : r.clock ≤ c) :
    Loaded { r with maps := m, clock := c, packet := p } where
  flipped f hf := (h.flipped f hf).trans hc
  whole        := by simpa only [hm.active, hm.slot] using h.whole
  idle         := h.idle
  busy a flat gen rest hr := by
    have ⟨always, stage⟩ := h.busy a flat gen rest hr
    exact ⟨View.ofMaps_sameGens hm _ ▸ always, hm.active ▸ stage⟩

theorem Applies.load {o : LoaderOp} {next : o.Resp → Loader (Except String GenerationState)}
    (h : r.Applies a flat gen (.op o next)) (hf : ∀ f, r.flipped = some f → f ≤ r.clock)
    {x : o.Resp} (hm : r.maps.execLoader r.clock o = (x, m)) :
    Applies
      { r with
        maps    := m
        loader  := l
        policy  := q
        flipped := if m.activeSlot = r.maps.activeSlot then r.flipped else some r.clock }
      a flat gen (next x) := by
  have loads := loads_execLoader h.rest.1 hm
  have hx : (r.maps.execLoader r.clock o).1 = x := congrArg Prod.fst hm
  have effect := View.ofMaps_execLoader r.maps r.clock o r.flipped
  rw [show (r.maps.execLoader r.clock o).2 = m from congrArg Prod.snd hm] at effect
  constructor
  case rest =>
    rw [effect]
    exact h.rest.2 x _ ⟨r.maps, r.clock, rfl, hf, hx.symm, rfl⟩
  case stage =>
    cases loads
    case quiet ha hs =>
      rcases h.stage with ⟨hs, hw⟩ | hs
      case inl => exact .inl ⟨ha.trans hs, by simpa only [Waits, if_pos ha] using hw⟩
      case inr => exact .inr (ha.trans hs)
    case put ha ha' _ =>
      rcases h.stage with ⟨_, hw⟩ | hs
      case inl => exact .inl ⟨ha', by simpa only [Waits, if_pos (ha'.trans ha.symm)] using hw⟩
      case inr => omega
    case flip ha ha' _ _ => exact .inr ha'

theorem Loaded.step [Ipnet] (h : r.Loaded) (hs : Step grace r e r') : r'.Loaded := by
  cases hs
  case tick c hc  => exact h.others (.refl _) hc
  case other m hm => exact h.others hm le_rfl
  case packet     => exact h.others (.refl _) le_rfl
  case decide     => exact h.others (.refl _) le_rfl
  case read t m fwd o next x _ _ hm =>
    have hm : (Maps.exec o r.maps).2 = m := congrArg Prod.snd hm
    exact h.others (hm ▸ .run (.perform o) r.maps) le_rfl
  case apply gen ir flat hf hr _ =>
    refine ⟨h.flipped, h.whole, nofun, ?_⟩
    rintro _ _ _ _ ⟨⟩
    have n := flatten_numbered hf
    have hc := flatten_checkLpmCapacity hf
    exact ⟨View.always_applyGeneration n hc gen rfl, .inl ⟨rfl, h.idle gen hr⟩⟩
  case load m a flat gen o next x hr hm =>
    have applies := h.busy _ _ _ _ hr
    have loads := loads_execLoader applies.rest.1 hm
    constructor
    case flipped =>
      intro f hf
      split at hf
      case isTrue  => exact h.flipped f hf
      case isFalse => exact (Option.some.inj hf).ge
    case whole => exact loads.whole h.whole
    case idle  => nofun
    case busy =>
      rintro _ _ _ _ ⟨⟩
      exact applies.load h.flipped hm
  case finish gen' a flat gen hr =>
    have ⟨_, f, t, hf, hle, hg⟩ := (h.busy _ _ _ _ hr).rest
    refine ⟨h.flipped, h.whole, ?_, nofun⟩
    rintro _ ⟨⟩ f' hf'
    cases hf.symm.trans hf'
    exact ⟨_, hg, hle⟩
  case abort a gen' flat gen rest hg hr ha =>
    refine ⟨h.flipped, h.whole, ?_, nofun⟩
    rintro _ ⟨⟩ f hf
    rcases (h.busy _ _ _ _ hr).stage with ⟨_, hw⟩ | ha'
    case inl => exact hg ▸ hw f hf
    case inr => omega

theorem Loaded.run [Ipnet] (h : Run (Step grace) (Race.start config) hist r) : r.Loaded :=
  h.invariant (I := fun _ => Loaded) (.start config) fun _ h => h.step

-- The slot has been given up, at a time that is not before `t`, and nobody writes to it yet.
structure Retired (r : Race) (s t : Nat) : Prop where
  active  : r.maps.activeSlot ≠ s
  flipped : ∃ f, r.flipped = some f ∧ t ≤ f
  done    : ∀ a flat gen rest, r.loader = .busy a flat gen rest → r.maps.activeSlot ≠ a

-- A slot has kept what a packet that came at time `t` has found in it, unless the packet is gone by now.
def Kept (grace : Nat) (r : Race) (s : Nat) (sl : Slot) (t : Nat) : Prop :=
  t + grace ≤ r.clock ∨ r.maps.slot s = sl ∧ (r.maps.activeSlot = s ∨ r.Retired s t)

theorem Kept.others (h : r.Kept grace s sl t) (hm : r.maps.SameGens m) (hc : r.clock ≤ c) :
    Kept grace { r with maps := m, clock := c, packet := p } s sl t := by
  rcases h with h | ⟨hs, h⟩
  case inl => exact .inl (h.trans hc)
  case inr =>
    refine .inr ⟨(hm.slot s).trans hs, h.imp hm.active.trans fun ⟨ha, hf, hd⟩ => ?_⟩
    exact ⟨hm.active ▸ ha, hf, by simpa only [hm.active] using hd⟩

-- An apply starts when everybody who has found the slot it is going to write to active is gone.
theorem Kept.step [Ipnet] (h : r.Kept grace s sl t) (hl : r.Loaded) (ht : t ≤ r.clock)
    (hs : Step grace r e r') : r'.Kept grace s sl t := by
  cases hs
  case tick c hc  => exact h.others (.refl _) hc
  case other m hm => exact h.others hm le_rfl
  case packet     => exact h.others (.refl _) le_rfl
  case decide     => exact h.others (.refl _) le_rfl
  case read t m fwd o next x _ _ hm =>
    have hm : (Maps.exec o r.maps).2 = m := congrArg Prod.snd hm
    exact h.others (hm ▸ .run (.perform o) r.maps) le_rfl
  case apply gen ir flat hf hr hready =>
    rcases h with h | ⟨hs, ha | ⟨_, ⟨f, hf, htf⟩, _⟩⟩
    case inl     => exact .inl h
    case inr.inl => exact .inr ⟨hs, .inl ha⟩
    case inr.inr =>
      have ⟨p, hp, hfp⟩ := hl.idle gen hr f hf
      have ready := hready (p.flippedAt + grace) (by rw [applyReadyAt, hp]; rfl)
      have gone : t + grace ≤ r.clock := by omega
      exact .inl gone
  case load m a flat gen o next x hr hm =>
    have loads := loads_execLoader (hl.busy _ _ _ _ hr).rest.1 hm
    rcases h with h | ⟨hs, h⟩
    case inl => exact .inl h
    cases loads
    case quiet ha hsl =>
      refine .inr ⟨hsl ▸ hs, h.imp ha.trans fun ⟨hne, hf, hd⟩ => ⟨ha ▸ hne, ?_, ?_⟩⟩
      case refine_1 => simpa only [if_pos ha] using hf
      case refine_2 =>
        rintro _ _ _ _ ⟨⟩
        exact ha ▸ hd _ _ _ _ hr
    case put ha ha' hsl =>
      rcases h with h | h
      case inl =>
        have other : s ≠ 1 - a := by omega
        exact .inr ⟨(hsl s other).trans hs, .inl (ha'.trans (ha.symm.trans h))⟩
      case inr => exact absurd ha (h.done _ _ _ _ hr)
    case flip ha ha' hsl _ =>
      rcases h with h | h
      case inl =>
        have flipped : m.activeSlot ≠ a := by omega
        have since : ∃ f, (if m.activeSlot = r.maps.activeSlot then r.flipped else some r.clock) =
            some f ∧ t ≤ f := ⟨r.clock, if_neg fun he => flipped (he.trans ha), ht⟩
        refine .inr ⟨hsl ▸ hs, .inr ⟨h ▸ ha ▸ flipped, since, ?_⟩⟩
        rintro _ _ _ _ ⟨⟩
        exact flipped
      case inr => exact absurd ha (h.done _ _ _ _ hr)
  case finish =>
    exact h.imp_right <| .imp_right <| .imp_right fun ⟨ha, hf, _⟩ => ⟨ha, hf, nofun⟩
  case abort =>
    exact h.imp_right <| .imp_right <| .imp_right fun ⟨ha, hf, _⟩ => ⟨ha, hf, nofun⟩

-- The contents that the packet has found in the active slot, and that make up one generation.
def Found (h : List (Race × Event)) (fwd : FlowKey) (sl : Slot) : Prop :=
  ∃ r t, (r, .read) ∈ h ∧
    r.packet = .evaluating fwd t (scanRules fwd.src fwd.dst fwd.proto fwd.dport) ∧
    sl = r.maps.slot r.maps.activeSlot ∧ sl.Whole r.policy

theorem Found.cons (h : Found hist fwd sl) : Found (re :: hist) fwd sl :=
  have ⟨r, t, hm, hp, hs, hw⟩ := h
  ⟨r, t, .tail _ hm, hp, hs, hw⟩

-- How far a packet has got: it has not read anything yet, or what it has read so far and what it is
-- still going to read comes from one slot.
def Underway (grace : Nat) (h : List (Race × Event)) (r : Race) (fwd : FlowKey) (t : Nat)
    (rest : Kernel (Option (Nat × RuleMeta))) : Prop :=
  rest = scanRules fwd.src fwd.dst fwd.proto fwd.dport ∨
  ∃ s sl, Found h fwd sl ∧ r.Kept grace s sl t ∧
    rest.Always (reads s) (answers s sl)
      (fun pick _ => pick = sl.scan fwd.src fwd.dst fwd.proto fwd.dport) ()

structure Tracked (grace : Nat) (h : List (Race × Event)) (r : Race) : Prop where
  evaluating : ∀ fwd t rest, r.packet = .evaluating fwd t rest →
    t ≤ r.clock ∧ Underway grace h r fwd t rest
  decided : ∀ fwd pick, r.packet = .decided fwd pick →
    ∃ sl, Found h fwd sl ∧ pick = sl.scan fwd.src fwd.dst fwd.proto fwd.dport

theorem Tracked.others [Ipnet] (h : r.Tracked grace hist) (hl : r.Loaded)
    (hs : Step grace r e r') (hp : r'.packet = r.packet) (hc : r.clock ≤ r'.clock) :
    r'.Tracked grace ((r, e) :: hist) := by
  constructor
  case decided =>
    intro fwd pick hr
    have ⟨sl, hf, he⟩ := h.decided fwd pick (hp ▸ hr)
    exact ⟨sl, hf.cons, he⟩
  case evaluating =>
    intro fwd t rest hr
    have ⟨ht, hu⟩ := h.evaluating fwd t rest (hp ▸ hr)
    refine ⟨ht.trans hc, hu.imp_right fun ⟨s, sl, hf, hk, ha⟩ => ?_⟩
    exact ⟨s, sl, hf.cons, hk.step hl ht hs, ha⟩

theorem Underway.read {o : MapOp} {next : o.Resp → Kernel (Option (Nat × RuleMeta))} {x : o.Resp}
    (h : Underway grace hist r fwd t (.op o next)) (hl : r.Loaded)
    (hp : r.packet = .evaluating fwd t (.op o next)) (ht : r.clock < t + grace)
    (hm : Maps.exec o r.maps = (x, m)) :
    Underway grace ((r, .read) :: hist) { r with maps := m, packet := p } fwd t (next x) := by
  have hx : (Maps.exec o r.maps).1 = x := congrArg Prod.fst hm
  have gens : r.maps.SameGens m := by
    rw [← show (Maps.exec o r.maps).2 = m from congrArg Prod.snd hm]
    exact .run (.perform o) r.maps
  refine .inr ?_
  rcases h with h | ⟨s, sl, hf, hk, hp, ha⟩
  case inl =>
    -- The first read finds out which slot is active.
    have ⟨next', hn, always⟩ := scanRules_reads fwd.src fwd.dst fwd.proto fwd.dport
    cases h.trans hn
    subst hx
    have found : Found ((r, .read) :: hist) fwd (r.maps.slot r.maps.activeSlot) :=
      ⟨r, t, .head _, h ▸ hp, rfl, hl.whole⟩
    have kept : r.Kept grace r.maps.activeSlot _ t := .inr ⟨rfl, .inl rfl⟩
    exact ⟨_, _, found, kept.others gens le_rfl, always _ _⟩
  case inr =>
    have same : r.maps.slot s = sl := hk.resolve_left (Nat.not_le.mpr ht) |>.1
    exact ⟨s, sl, hf.cons, hk.others gens le_rfl, ha x () ⟨r.maps, same, hx.symm⟩⟩

theorem Tracked.step [Ipnet] (h : r.Tracked grace hist) (hl : r.Loaded) (hs : Step grace r e r') :
    r'.Tracked grace ((r, e) :: hist) := by
  have step := hs
  cases hs
  case tick c hc => exact h.others hl step rfl hc
  case other     => exact h.others hl step rfl le_rfl
  case apply     => exact h.others hl step rfl le_rfl
  case load      => exact h.others hl step rfl le_rfl
  case finish    => exact h.others hl step rfl le_rfl
  case abort     => exact h.others hl step rfl le_rfl
  case packet    => exact ⟨fun | _, _, _, rfl => ⟨le_rfl, .inl rfl⟩, nofun⟩
  case read t m fwd o next x hp ht hm =>
    have ⟨hc, hu⟩ := h.evaluating _ _ _ hp
    refine ⟨?_, nofun⟩
    rintro _ _ _ ⟨⟩
    exact ⟨hc, hu.read hl hp ht hm⟩
  case decide t fwd pick hp ht =>
    refine ⟨nofun, ?_⟩
    rintro _ _ ⟨⟩
    rcases (h.evaluating _ _ _ hp).2 with h | ⟨s, sl, hf, _, he⟩
    case inl => cases h
    case inr => exact ⟨sl, hf.cons, he⟩

theorem decided_by_one_generation [Ipnet] (h : Run (Step grace) (start config) hist r)
    (hp : r.packet = .decided fwd pick) :
    ∃ r₀ t, (r₀, .read) ∈ hist ∧
      r₀.packet = .evaluating fwd t (scanRules fwd.src fwd.dst fwd.proto fwd.dport) ∧
      (r₀.maps.slot r₀.maps.activeSlot).Whole r₀.policy ∧
      pick = (r₀.maps.slot r₀.maps.activeSlot).scan fwd.src fwd.dst fwd.proto fwd.dport ∧
      pick = (r₀.policy.find? (·.ebpfSelects (packetOf fwd))).map fun f => (f.idx, ruleMeta f) := by
  have tracked : r.Tracked grace hist :=
    h.invariant (I := fun h r => r.Tracked grace h) ⟨nofun, nofun⟩
      fun run h => h.step (.run run)
  have ⟨sl, ⟨r₀, t, hm, hr, hs, hw⟩, he⟩ := tracked.decided fwd pick hp
  exact ⟨r₀, t, hm, hr, hs ▸ hw, hs ▸ he, he.trans (hw.serves fwd)⟩

theorem step_of_next [Ipnet] (h : r.next grace fwd e = some r') : Step grace r e r' := by
  cases e
  case tick =>
    cases h
    exact .tick (Nat.le_succ _)
  case other => cases h
  case abort => cases h
  case apply =>
    simp only [next] at h
    split at h
    case h_2 => cases h
    case h_1 hl hf =>
      split at h
      case isFalse => cases h
      case isTrue ht =>
        cases h
        exact .apply hl (by simpa [Option.all_eq_true] using ht) hf
  case load =>
    simp only [next] at h
    split at h
    case h_2 => cases h
    case h_1 hl =>
      cases h
      exact .load hl rfl
  case finish =>
    simp only [next] at h
    split at h
    case h_2 => cases h
    case h_1 hl =>
      cases h
      exact .finish hl
  case packet =>
    simp only [next] at h
    split at h
    case h_1 => cases h
    case h_2 hp =>
      cases h
      exact .packet hp
  case read =>
    simp only [next] at h
    split at h
    case h_2 => cases h
    case h_1 hp =>
      split at h
      case isFalse => cases h
      case isTrue ht =>
        cases h
        exact .read hp ht rfl
  case decide =>
    simp only [next] at h
    split at h
    case h_2 => cases h
    case h_1 hp =>
      split at h
      case isFalse => cases h
      case isTrue ht =>
        cases h
        exact .decide hp ht

section Example

def web : FlowKey where
  src   := 0x0100000a
  dst   := 0x0100a8c0
  sport := 0x3930
  dport := 0xbb01
  proto := 6

def clearedPolicy : PolicyIR :=
  { Gateway.onePolicy with version := 2, blocks := [] }

-- The one rule is applied, and is taken back while a packet is on its way: the flip falls between the
-- first read of the packet and its other four. The latest event comes first.
def overtaken : List Event :=
  [[.decide, .read, .read, .read, .read, .load, .read, .packet], List.replicate 7 .load,
    [.apply clearedPolicy, .tick, .tick, .tick, .finish], List.replicate 9 .load,
    [.apply Gateway.onePolicy]].flatten

def overtakenRace : List (Race × Event) × Race :=
  Run.replayed (next 3 web) (start (.zeroed _ 0)) overtaken

theorem run_overtakenRace : Run (Step 3) (start (.zeroed _ 0)) overtakenRace.1 overtakenRace.2 :=
  (Run.run_replayed _ _).mono step_of_next

-- No rule is in force any more when the packet is decided, and it is let in by the rule it has met.
theorem decided_by_one_generation_overtaken :
    overtakenRace.1.map Prod.snd = overtaken ∧ overtakenRace.2.policy = [] ∧
    ∃ r₀ t, (r₀, .read) ∈ overtakenRace.1 ∧
      r₀.packet = .evaluating web t (scanRules web.src web.dst web.proto web.dport) ∧
      (r₀.maps.slot r₀.maps.activeSlot).Whole r₀.policy ∧
      (r₀.policy.find? (·.ebpfSelects (packetOf web))).map (fun f => (f.idx, ruleMeta f)) =
        some (0, ⟨ACT_ALLOW, 6, 443, 443⟩) := by
  have hp : overtakenRace.2.packet = .decided web (some (0, ⟨ACT_ALLOW, 6, 443, 443⟩)) := by
    with_unfolding_all rfl
  obtain ⟨r₀, t, hm, hr, hw, _, hs⟩ := decided_by_one_generation run_overtakenRace hp
  exact ⟨by decide +kernel, by decide +kernel, r₀, t, hm, hr, hw, hs.symm⟩

end Example
end Race
end Enforcer
