import Mathlib

-- Scripts of statements that end at a line break or a semicolon and may hold further statements in
-- braces. A number sign starts a comment, double quotes a string.
namespace Script

inductive Item
  | word (cs : List Char)
  | str (cs : List Char)
  | sym (c : Char)
  | block (stmts : List (List Item))

abbrev Stmt := List Item

-- The characters that a word is made of.
def isWordChar (c : Char) : Bool :=
  c.isAlphanum || c == '_' || c == '.' || c == '-' || c == '/'

-- The statements read so far at one level of braces, and the items of the one that is being read.
structure Frame where
  stmts : List Stmt
  cur : Stmt

namespace Frame

def empty : Frame :=
  ⟨[], []⟩

def push (f : Frame) (i : Item) : Frame :=
  { f with cur := f.cur ++ [i] }

def endStmt (f : Frame) : Frame :=
  if f.cur.isEmpty then f else ⟨f.stmts ++ [f.cur], []⟩

theorem foldl_push (f : Frame) (items : List Item) :
    items.foldl push f = ⟨f.stmts, f.cur ++ items⟩ := by
  induction items generalizing f
  case nil => simp
  case cons i items ih => simp [ih, push]

end Frame

inductive Mode
  | plain
  | word (cs : List Char)
  | str (cs : List Char)
  | comment

structure State where
  mode : Mode
  top : Frame
  below : List Frame

def readPlain (top : Frame) (below : List Frame) (c : Char) : Option State :=
  if isWordChar c then some ⟨.word [c], top, below⟩
  else if c = ' ' ∨ c = '\t' then some ⟨.plain, top, below⟩
  else if c = '\n' ∨ c = ';' then some ⟨.plain, top.endStmt, below⟩
  else if c = '"' then some ⟨.str [], top, below⟩
  else if c = '#' then some ⟨.comment, top, below⟩
  else if c = '\x7b' then some ⟨.plain, .empty, top :: below⟩
  else if c = '\x7d' then
    match below with
    | []        => none
    | f :: rest => some ⟨.plain, f.push (.block top.endStmt.stmts), rest⟩
  else some ⟨.plain, top.push (.sym c), below⟩

def step (s : State) (c : Char) : Option State :=
  match s.mode with
  | .plain   => readPlain s.top s.below c
  | .word cs =>
    if isWordChar c then some { s with mode := .word (cs ++ [c]) }
    else readPlain (s.top.push (.word cs)) s.below c
  | .str cs  =>
    if c = '"' then some ⟨.plain, s.top.push (.str cs), s.below⟩
    else some { s with mode := .str (cs ++ [c]) }
  | .comment =>
    if c = '\n' then readPlain s.top s.below c else some s

def feed (s : State) (cs : List Char) : Option State :=
  cs.foldlM step s

def init : State :=
  ⟨.plain, .empty, []⟩

-- At the end of the text every brace and every string has to be closed.
def finish (s : State) : Option (List Stmt) :=
  match s.below, s.mode with
  | [], .plain | [], .comment => some s.top.endStmt.stmts
  | [], .word cs              => some (s.top.push (.word cs)).endStmt.stmts
  | _, _                      => none

def parse (cs : List Char) : Option (List Stmt) :=
  (feed init cs).bind finish

-- Every word that a script can be read into, at any depth, is made of word characters.
inductive Item.Lexical : Item → Prop
  | word (h : cs.all isWordChar) : Lexical (.word cs)
  | str : Lexical (.str cs)
  | sym : Lexical (.sym c)
  | block (h : ∀ stmt ∈ stmts, ∀ i ∈ stmt, Lexical i) : Lexical (.block stmts)

structure Frame.Lexical (f : Frame) : Prop where
  stmts : ∀ stmt ∈ f.stmts, ∀ i ∈ stmt, i.Lexical
  cur   : ∀ i ∈ f.cur, i.Lexical

structure State.Lexical (s : State) : Prop where
  mode  : ∀ cs, s.mode = .word cs → cs.all isWordChar
  top   : s.top.Lexical
  below : ∀ f ∈ s.below, f.Lexical

variable {s t : State} {cs ds : List Char} {top : Frame} {below : List Frame}

@[simp]
theorem feed_nil (s : State) : feed s [] = some s :=
  rfl

theorem feed_append : feed s (cs ++ ds) = (feed s cs).bind (feed · ds) :=
  List.foldlM_append

theorem feed_cons : feed s (c :: cs) = (step s c).bind (feed · cs) :=
  List.foldlM_cons

-- Texts are read piece by piece.
theorem feed_trans (h₁ : feed s cs = some t) (h₂ : feed t ds = some u) :
    feed s (cs ++ ds) = some u := by
  rw [feed_append, h₁]
  exact h₂

theorem feed_word_more (h : ds.all isWordChar) :
    feed ⟨.word cs, top, below⟩ ds = some ⟨.word (cs ++ ds), top, below⟩ := by
  induction ds generalizing cs
  case nil => simp
  case cons c ds ih =>
    simp only [List.all_cons, Bool.and_eq_true] at h
    simp [feed_cons, step, h.1, ih h.2]

theorem feed_word (h : cs.all isWordChar) (hne : cs ≠ []) :
    feed ⟨.plain, top, below⟩ cs = some ⟨.word cs, top, below⟩ := by
  cases cs
  case nil => contradiction
  case cons c cs =>
    simp only [List.all_cons, Bool.and_eq_true] at h
    simp [feed_cons, step, readPlain, h.1, feed_word_more h.2]

theorem feed_str_more (h : '"' ∉ ds) :
    feed ⟨.str cs, top, below⟩ ds = some ⟨.str (cs ++ ds), top, below⟩ := by
  induction ds generalizing cs
  case nil => simp
  case cons c ds ih =>
    simp only [List.mem_cons, not_or] at h
    simp [feed_cons, step, Ne.symm h.1, ih h.2]

theorem quote_not_mem (h : cs.all isWordChar) : '"' ∉ cs :=
  fun hq => absurd (List.all_eq_true.mp h _ hq) (by decide)

-- A word ends at any character that does not belong to it, and that character is then read as usual.
theorem feed_word_then (h : cs.all isWordChar) (hne : cs ≠ []) (hc : isWordChar c = false) :
    feed ⟨.plain, top, below⟩ (cs ++ c :: ds) =
      feed ⟨.plain, top.push (.word cs), below⟩ (c :: ds) := by
  rw [feed_append, feed_word h hne, feed_cons]
  simp [feed, step, hc]

theorem feed_word_newline :
    feed ⟨.word cs, top, below⟩ ['\n'] = some ⟨.plain, (top.push (.word cs)).endStmt, below⟩ := by
  simp [feed_cons, step, readPlain, isWordChar]

theorem feed_close (f : Frame) :
    feed ⟨.plain, ⟨stmts, []⟩, f :: below⟩ ['\x7d', '\n'] =
      some ⟨.plain, (f.push (.block stmts)).endStmt, below⟩ := by
  simp [feed_cons, step, readPlain, isWordChar, Frame.endStmt]

def words (l : List String) : List Item :=
  l.map fun s => .word s.toList

-- The items of words between commas.
def commaItems : List (List Char) → List Item
  | []           => []
  | [w]          => [.word w]
  | w :: w' :: ws => .word w :: .sym ',' :: commaItems (w' :: ws)

theorem commaItems_ne_nil (h : ws ≠ []) : commaItems ws ≠ [] := by
  fun_cases commaItems <;> simp_all

theorem feed_commaItems (h : ∀ w ∈ ws, w.all isWordChar ∧ w ≠ []) :
    feed ⟨.plain, ⟨stmts, cur⟩, below⟩ ([',', ' '].intercalate ws ++ [' ']) =
      some ⟨.plain, ⟨stmts, cur ++ commaItems ws⟩, below⟩ := by
  induction ws generalizing cur
  case nil => simp [feed_cons, step, readPlain, isWordChar, commaItems]
  case cons w ws ih =>
    have ⟨⟨hw, hne⟩, hws⟩ := List.forall_mem_cons.mp h
    cases ws
    case nil =>
      simp only [List.intercalate_singleton]
      rw [feed_word_then hw hne (by decide)]
      rfl
    case cons w' ws =>
      simp only [List.intercalate_cons_cons, List.append_assoc, List.cons_append, List.nil_append]
      rw [feed_word_then hw hne (by decide)]
      have comma : feed ⟨.plain, ⟨stmts, cur ++ [.word w]⟩, below⟩ [',', ' '] =
          some ⟨.plain, ⟨stmts, cur ++ [.word w] ++ [.sym ',']⟩, below⟩ := rfl
      have h := feed_trans comma (ih hws)
      simpa [commaItems, Frame.push] using h

-- The text is read as whole statements, wherever a statement can begin.
def Reads (cs : List Char) (stmts : List Stmt) : Prop :=
  ∀ read below, feed ⟨.plain, ⟨read, []⟩, below⟩ cs = some ⟨.plain, ⟨read ++ stmts, []⟩, below⟩

namespace Reads

theorem nil : Reads [] [] :=
  fun _ _ => by simp

theorem append (h₁ : Reads cs l₁) (h₂ : Reads ds l₂) : Reads (cs ++ ds) (l₁ ++ l₂) :=
  fun read below => feed_trans (h₁ read below) (by simpa using h₂ (read ++ l₁) below)

theorem flatMap {l : List α} {f : α → List Char} {g : α → Stmt} (h : ∀ a ∈ l, Reads (f a) [g a]) :
    Reads (l.flatMap f) (l.map g) := by
  induction l
  case nil => exact nil
  case cons a l ih =>
    have ⟨ha, hl⟩ := List.forall_mem_cons.mp h
    exact ha.append (ih hl)

-- A statement that ends with a block, from what is read before the block and of the blanks before its
-- closing brace.
theorem block (ds : List Char) (hs : Reads body stmts)
    (ho : ∀ read below, feed ⟨.plain, ⟨read, []⟩, below⟩ cs = some ⟨.plain, .empty, ⟨read, items⟩ :: below⟩)
    (hb : ∀ f below, feed ⟨.plain, f, below⟩ ds = some ⟨.plain, f, below⟩) :
    Reads (cs ++ (body ++ (ds ++ ['\x7d', '\n']))) [items ++ [.block stmts]] := by
  intro read below
  have hb := feed_trans (hs [] (⟨read, items⟩ :: below)) (feed_trans (hb _ _) (feed_close ⟨read, items⟩))
  have h := feed_trans (ho read below) hb
  simpa [Frame.push, Frame.endStmt] using h

theorem parse (h : Reads cs stmts) : parse cs = some stmts := by
  have hf := h [] []
  simp only [List.nil_append] at hf
  simp [Script.parse, init, Frame.empty, hf, finish, Frame.endStmt]

end Reads

theorem Frame.Lexical.push {f : Frame} (h : f.Lexical) (hi : i.Lexical) : (f.push i).Lexical where
  stmts := h.stmts
  cur   := by
    intro j hj
    cases List.mem_append.mp hj
    case inl hj => exact h.cur j hj
    case inr hj => exact List.mem_singleton.mp hj ▸ hi

theorem Frame.Lexical.endStmt {f : Frame} (h : f.Lexical) : f.endStmt.Lexical := by
  unfold Frame.endStmt
  split
  case isTrue => exact h
  case isFalse =>
    refine ⟨fun stmt hs => ?_, by simp⟩
    cases List.mem_append.mp hs
    case inl hs => exact h.stmts stmt hs
    case inr hs => exact List.mem_singleton.mp hs ▸ h.cur

theorem readPlain_lexical (ht : top.Lexical) (hb : ∀ f ∈ below, f.Lexical)
    (h : readPlain top below c = some t) : t.Lexical := by
  unfold readPlain at h
  split_ifs at h with hw hblank hend hquote hhash hopen hclose
  case pos => cases h; exact ⟨by rintro _ ⟨⟩; simpa using hw, ht, hb⟩
  case pos => cases h; exact ⟨nofun, ht, hb⟩
  case pos => cases h; exact ⟨nofun, ht.endStmt, hb⟩
  case pos => cases h; exact ⟨nofun, ht, hb⟩
  case pos => cases h; exact ⟨nofun, ht, hb⟩
  case pos =>
    cases h
    exact ⟨nofun, ⟨by simp [Frame.empty], by simp [Frame.empty]⟩, List.forall_mem_cons.mpr ⟨ht, hb⟩⟩
  case pos =>
    split at h
    case h_1 => cases h
    case h_2 =>
      cases h
      have ⟨hf, hr⟩ := List.forall_mem_cons.mp hb
      exact ⟨nofun, hf.push (.block ht.endStmt.stmts), hr⟩
  case neg => cases h; exact ⟨nofun, ht.push .sym, hb⟩

theorem step_lexical (hs : s.Lexical) (h : step s c = some t) : t.Lexical := by
  unfold step at h
  split at h
  case h_1 => exact readPlain_lexical hs.top hs.below h
  case h_2 cs hm =>
    split at h
    case isTrue hc =>
      cases h
      refine ⟨?_, hs.top, hs.below⟩
      rintro _ ⟨⟩
      simpa [hc] using hs.mode cs hm
    case isFalse => exact readPlain_lexical (hs.top.push (.word (hs.mode cs hm))) hs.below h
  case h_3 =>
    split at h
    case isTrue  => cases h; exact ⟨nofun, hs.top.push .str, hs.below⟩
    case isFalse => cases h; exact ⟨nofun, hs.top, hs.below⟩
  case h_4 =>
    split at h
    case isTrue  => exact readPlain_lexical hs.top hs.below h
    case isFalse => cases h; exact hs

theorem feed_lexical (hs : s.Lexical) (h : feed s cs = some t) : t.Lexical := by
  induction cs generalizing s
  case nil => cases h; exact hs
  case cons c cs ih =>
    rw [feed_cons] at h
    have ⟨u, hu, ht⟩ := Option.bind_eq_some_iff.mp h
    exact ih (step_lexical hs hu) ht

theorem parse_lexical (h : parse cs = some stmts) : ∀ stmt ∈ stmts, ∀ i ∈ stmt, i.Lexical := by
  have ⟨s, hs, hf⟩ := Option.bind_eq_some_iff.mp h
  have empty : Frame.empty.Lexical := ⟨by simp [Frame.empty], by simp [Frame.empty]⟩
  have hs := feed_lexical (s := init) ⟨nofun, empty, by simp [init]⟩ hs
  unfold finish at hf
  split at hf
  case h_1 => cases hf; exact hs.top.endStmt.stmts
  case h_2 => cases hf; exact hs.top.endStmt.stmts
  case h_3 cs _ hm => cases hf; exact (hs.top.push (.word (hs.mode cs hm))).endStmt.stmts
  case h_4 => cases hf

end Script
