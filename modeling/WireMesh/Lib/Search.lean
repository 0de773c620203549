import WireMesh.Lib.Fields

-- Texts that are cut where a field of some name comes first, and lines that are kept with their breaks.
namespace Text

def cutBefore (pat : List Char) : List Char → List Char × List Char
  | []      => ([], [])
  | c :: cs =>
    if pat.isPrefixOf (c :: cs) then ([], c :: cs)
    else
      let (before, rest) := cutBefore pat cs
      (c :: before, rest)

def splitInclusive (sep : Char) : List Char → List (List Char)
  | []      => []
  | c :: cs =>
    if c = sep then [c] :: splitInclusive sep cs
    else
      match splitInclusive sep cs with
      | []      => [[c]]
      | l :: ls => (c :: l) :: ls

section Cut

variable {pat l r name : List Char} {f : Field}

theorem cutBefore_of_isPrefix (h : pat <+: c :: r) : cutBefore pat (c :: r) = ([], c :: r) := by
  rw [cutBefore, if_pos (List.isPrefixOf_iff_prefix.mpr h)]

-- Where it does not occur, the search goes on.
theorem cutBefore_append (h : ∀ s, s <:+ l → s ≠ [] → ¬ pat <+: s ++ r) :
    cutBefore pat (l ++ r) = (l ++ (cutBefore pat r).1, (cutBefore pat r).2) := by
  induction l
  case nil => rfl
  case cons c l ih =>
    have hn : ¬pat.isPrefixOf (c :: (l ++ r)) := fun hp =>
      h (c :: l) (List.suffix_refl _) (List.cons_ne_nil _ _) (List.isPrefixOf_iff_prefix.mp hp)
    have ih := ih fun s hs => h s (hs.trans (List.suffix_cons c l))
    rw [List.cons_append, cutBefore, if_neg hn, ih]
    rfl

theorem append_cons_inj {sep : Char} (hl : sep ∉ l) (hn : sep ∉ name)
    (h : l ++ sep :: r = name ++ sep :: t) : l = name ∧ r = t := by
  have hs := splitOnce_append hl r
  rw [h, splitOnce_append hn t] at hs
  cases hs
  exact ⟨rfl, rfl⟩

theorem break_mem_of_suffix (hs : s <:+ writeField f) (h₀ : s ≠ []) : '\n' ∈ s := by
  have ⟨_, ht⟩ := hs
  have hl := congrArg List.getLast? ht
  rw [List.getLast?_append_of_ne_nil _ h₀, writeField, List.getLast?_concat] at hl
  exact List.mem_of_getLast? hl

theorem suffix_name (hf : '=' ∉ f.1 ∧ '=' ∉ f.2) (hs : l ++ '=' :: r <:+ writeField f) :
    l <:+ f.1 := by
  obtain ⟨u, hu⟩ := hs
  have hc : (u ++ (l ++ '=' :: r)).count '=' = (writeField f).count '=' := by rw [hu]
  simp only [writeField, List.count_append, List.count_cons_self, List.count_eq_zero.mpr hf.1,
    List.count_eq_zero.mpr hf.2, List.count_singleton] at hc
  have hl : '=' ∉ u ++ l := by
    rw [← List.count_eq_zero, List.count_append]
    simp at hc
    omega
  rw [writeField, List.append_assoc, ← List.append_assoc u] at hu
  obtain ⟨he, _⟩ := append_cons_inj hl hf.1 hu
  exact ⟨u, he⟩

-- A name that is sought ends where the name of the line ends, and so it is not found in its value.
theorem not_isPrefix_line (hn : '=' ∉ name ∧ '\n' ∉ name) (hf : '=' ∉ f.1 ∧ '=' ∉ f.2)
    (hne : ¬ name <:+ f.1) (hs : s <:+ writeField f) (h₀ : s ≠ []) :
    ¬ (name ++ ['=']) <+: s ++ r := by
  intro ⟨t, ht⟩
  rw [List.append_assoc, List.singleton_append] at ht
  have hb := break_mem_of_suffix hs h₀
  by_cases he : '=' ∈ s
  case pos =>
    have ⟨s₁, s₂, he, h₁⟩ := List.eq_append_cons_of_mem he
    rw [he, List.append_assoc, List.cons_append] at ht
    have ⟨hl, _⟩ := append_cons_inj hn.1 h₁ ht
    exact hne (hl ▸ suffix_name hf (he ▸ hs))
  case neg =>
    cases List.append_eq_append_iff.mp ht
    case inl h =>
      have ⟨a, h₁, h₂⟩ := h
      cases a
      case nil => exact hn.2 (by simpa [h₁] using hb)
      case cons c a =>
        cases h₂
        exact he (h₁ ▸ by simp)
    case inr h =>
      have ⟨a, h₁, _⟩ := h
      exact hn.2 (h₁ ▸ List.mem_append_left _ hb)

theorem cutBefore_field (hn : '=' ∉ name ∧ '\n' ∉ name) (hf : '=' ∉ f.1 ∧ '=' ∉ f.2)
    (hne : ¬ name <:+ f.1) : cutBefore (name ++ ['=']) (writeField f ++ r) =
      (writeField f ++ (cutBefore (name ++ ['=']) r).1, (cutBefore (name ++ ['=']) r).2) :=
  cutBefore_append fun _ => not_isPrefix_line hn hf hne

end Cut

section Lines

theorem splitInclusive_line {l : List Char} (h : sep ∉ l) (r : List Char) :
    splitInclusive sep (l ++ sep :: r) = (l ++ [sep]) :: splitInclusive sep r := by
  induction l
  case nil => rw [List.nil_append, splitInclusive, if_pos rfl, List.nil_append]
  case cons c l ih =>
    have ⟨hc, hl⟩ := not_or.mp (h ∘ List.mem_cons.mpr)
    rw [List.cons_append, splitInclusive, if_neg (Ne.symm hc), ih hl, List.cons_append]

theorem Plain.splitInclusive {f : Field} (h : Plain f) (r : List Char) :
    splitInclusive '\n' (writeField f ++ r) = writeField f :: splitInclusive '\n' r := by
  rw [writeField, List.append_assoc, List.singleton_append]
  exact splitInclusive_line (by simp [h.name.2, h.value]) r

end Lines
end Text
