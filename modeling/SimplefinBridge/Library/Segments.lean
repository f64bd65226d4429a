import Mathlib.Data.List.Infix

/-!
# Segments of a path

A path is split into segments by a separator.  A pattern that looks for a root
and, anywhere behind it, a separator in front of one of some words finds
exactly the words among the segments behind the root but the first of them
(`laterWord_iff`): the separator at the end of the root is used up by the root.
-/

universe u

namespace Segments

variable {α : Type u} [DecidableEq α]

/-- What follows each occurrence of a root in a text. -/
def behind (root text : List α) : List (List α) := text.tails.filterMap (·.dropPrefix? root)

theorem mem_behind {root text rest : List α} :
    rest ∈ behind root text ↔ root ++ rest <:+ text := by
  unfold behind
  rw [List.mem_filterMap]
  constructor
  · rintro ⟨suffix, hsuffix, hdrop⟩
    obtain ⟨found, rfl, hfound⟩ := List.dropPrefix?_eq_some_iff.mp hdrop
    rw [beq_iff_eq] at hfound
    rw [← hfound]
    exact (List.mem_tails _ _).mp hsuffix
  · intro h
    exact ⟨root ++ rest, (List.mem_tails _ _).mpr h,
      List.dropPrefix?_eq_some_iff.mpr ⟨root, rfl, beq_self_eq_true root⟩⟩

/-- `(?:word|…)(?:sep|$)` at the beginning of a text. -/
def wordFirst (sep : α) (words : List (List α)) (text : List α) : Bool :=
  words.any fun word =>
    match text.dropPrefix? word with
    | some rest => rest.head?.all (· = sep)
    | none => false

/-- `.*sep(?:word|…)(?:sep|$)` at the beginning of a text, where the dot is for
some characters only. -/
def laterWord (sep : α) (dot : α → Bool) (words : List (List α)) : List α → Bool
  | [] => false
  | c :: rest => (c = sep && wordFirst sep words rest) || (dot c && laterWord sep dot words rest)

variable {sep : α} {words : List (List α)} {text : List α}

/-- The first segment stands before the first separator. -/
theorem head_splitOn (sep : α) (text : List α) :
    ∃ rest, text.splitOn sep = text.takeWhile (· ≠ sep) :: rest := by
  induction text with
  | nil => exact ⟨[], rfl⟩
  | cons c text ih =>
      obtain ⟨rest, hrest⟩ := ih
      rw [List.splitOn_cons_eq_if_modifyHead]
      by_cases hc : c = sep
      · refine ⟨text.splitOn sep, ?_⟩
        rw [if_pos (beq_iff_eq.mpr hc), List.takeWhile_cons_of_neg (by simpa using hc)]
      · refine ⟨rest, ?_⟩
        rw [if_neg (by simpa using hc), hrest, List.modifyHead_cons,
          List.takeWhile_cons_of_pos (by simpa using hc)]

theorem takeWhile_eq_word {word : List α} (hword : sep ∉ word) :
    text.takeWhile (· ≠ sep) = word ↔
      ∃ rest, text = word ++ rest ∧ rest.head?.all (· = sep) = true := by
  constructor
  · intro h
    refine ⟨text.dropWhile (· ≠ sep), ?_, ?_⟩
    · rw [← h, List.takeWhile_append_dropWhile]
    · cases hrest : text.dropWhile (· ≠ sep) with
      | nil => rfl
      | cons c rest =>
          have hhead := List.head?_dropWhile_not (fun c => decide (c ≠ sep)) text
          rw [hrest] at hhead
          simpa using hhead
  · rintro ⟨rest, rfl, hrest⟩
    have hall : ∀ c ∈ word, decide (c ≠ sep) = true := fun c hc =>
      decide_eq_true fun hsame => hword (hsame ▸ hc)
    rw [List.takeWhile_append_of_pos hall]
    cases rest with
    | nil => exact List.append_nil _
    | cons c rest =>
        have hc : c = sep := of_decide_eq_true hrest
        rw [List.takeWhile_cons_of_neg (by simpa using hc), List.append_nil]

theorem wordFirst_iff (hwords : ∀ word ∈ words, sep ∉ word) :
    wordFirst sep words text = true ↔ text.takeWhile (· ≠ sep) ∈ words := by
  have hone : ∀ word ∈ words, (match text.dropPrefix? word with
      | some rest => rest.head?.all (· = sep)
      | none => false) = true ↔ text.takeWhile (· ≠ sep) = word := by
    intro word hword
    rw [takeWhile_eq_word (hwords word hword)]
    cases hdrop : text.dropPrefix? word with
    | none =>
        constructor
        · intro h
          cases h
        · rintro ⟨rest, rfl, -⟩
          rw [List.dropPrefix?_append_of_beq rest (beq_self_eq_true word)] at hdrop
          cases hdrop
    | some rest =>
        obtain ⟨found, rfl, hfound⟩ := List.dropPrefix?_eq_some_iff.mp hdrop
        rw [beq_iff_eq] at hfound
        constructor
        · intro h
          exact ⟨rest, by rw [hfound], h⟩
        · rintro ⟨other, hother, h⟩
          rw [hfound] at hother
          rw [List.append_cancel_left hother]
          exact h
  unfold wordFirst
  rw [List.any_eq_true]
  constructor
  · rintro ⟨word, hword, hfirst⟩
    rw [(hone word hword).mp hfirst]
    exact hword
  · intro h
    exact ⟨_, h, (hone _ h).mpr rfl⟩

/-- **A later word** is one of the segments but the first. -/
theorem laterWord_iff {dot : α → Bool} (hwords : ∀ word ∈ words, sep ∉ word)
    (hdot : ∀ c ∈ text, dot c = true) :
    laterWord sep dot words text = true ↔ ∃ word ∈ (text.splitOn sep).tail, word ∈ words := by
  induction text with
  | nil =>
      constructor
      · intro h
        cases h
      · rintro ⟨word, hword, -⟩
        cases hword
  | cons c text ih =>
      obtain ⟨hc, hrest⟩ := List.forall_mem_cons.mp hdot
      obtain ⟨rest, hsplit⟩ := head_splitOn sep text
      have hlater : laterWord sep dot words text = true ↔ ∃ word ∈ rest, word ∈ words := by
        rw [ih hrest, hsplit, List.tail_cons]
      unfold laterWord
      rw [Bool.or_eq_true, Bool.and_eq_true, Bool.and_eq_true, hlater, wordFirst_iff hwords,
        decide_eq_true_eq, List.splitOn_cons_eq_if_modifyHead]
      by_cases hsep : c = sep
      · rw [if_pos (beq_iff_eq.mpr hsep), List.tail_cons, hsplit]
        rw [← hsep, hc]
        simp only [true_and, List.mem_cons, or_and_right, exists_or, exists_eq_left]
      · rw [if_neg (by simpa using hsep), hsplit, List.modifyHead_cons, List.tail_cons]
        simp only [hsep, hc, true_and, false_and, false_or]

end Segments
