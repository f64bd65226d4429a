import Mathlib.Data.List.Infix

/-!
# Replacing a pattern in a text

`pieces` are the parts of a text between the occurrences of a pattern, taken
from the left; `replaceAll` puts a replacement between them.  No piece has the
pattern in it (`pattern_not_in_piece`).

A *fence* is an element that no pattern has.  An occurrence of a pattern lies on
one side of each fence (`infix_of_fence`), and replacing goes on behind it as if
the text began there (`replaceAll_fence`).  So when a replacement begins and
ends with a fence and has no pattern between them, replacing one pattern after
another leaves none of them in the text (`replaceEach_clean`), and keeps a part
between two fences that has none of them (`replaceEach_keeps`).
-/

universe u

namespace Replacements

variable {α : Type u}

/-! ## Fences -/

section
variable {s a b : List α} {x : α}

/-- What has no fence ends before one. -/
theorem prefix_of_fence (hx : x ∉ s) (h : s <+: a ++ x :: b) : s <+: a := by
  induction a generalizing s with
  | nil =>
      rcases List.prefix_cons_iff.mp h with rfl | ⟨rest, rfl, -⟩
      · exact List.nil_prefix
      · exact absurd List.mem_cons_self hx
  | cons c a ih =>
      rcases List.prefix_cons_iff.mp h with rfl | ⟨rest, rfl, hrest⟩
      · exact List.nil_prefix
      · exact (List.prefix_cons_inj c).mpr (ih (fun hmem => hx (List.mem_cons_of_mem _ hmem)) hrest)

/-- What has no fence is on one side of it. -/
theorem infix_of_fence (hx : x ∉ s) (h : s <:+: a ++ x :: b) : s <:+: a ∨ s <:+: b := by
  induction a with
  | nil =>
      rcases List.infix_cons_iff.mp h with hprefix | hinside
      · have hnil := List.prefix_nil.mp (@prefix_of_fence _ s [] b x hx hprefix)
        rw [hnil]
        exact .inl (List.infix_refl [])
      · exact .inr hinside
  | cons c a ih =>
      rcases List.infix_cons_iff.mp h with hprefix | hinside
      · exact .inl (@prefix_of_fence _ s (c :: a) b x hx hprefix).isInfix
      · rcases ih hinside with ha | hb
        · exact .inl (ha.trans (List.suffix_cons c a).isInfix)
        · exact .inr hb

variable {first last : α} {body rest : List α}

/-- A pattern that has no fence and does not occur in the replacement. -/
structure Admissible (first : α) (body : List α) (last : α) (pattern : List α) : Prop where
  nonempty : pattern ≠ []
  no_first : first ∉ pattern
  no_last : last ∉ pattern
  not_replacement : ¬ pattern <:+: first :: (body ++ [last])

/-- Nothing occurs in a replacement and the text after it that does not occur in
the text. -/
theorem Admissible.infix_rest (h : Admissible first body last s)
    (hinside : s <:+: (first :: (body ++ [last])) ++ rest) : s <:+: rest := by
  have hsplit : (first :: (body ++ [last])) ++ rest = [] ++ first :: (body ++ last :: rest) := by
    rw [List.cons_append, List.append_assoc]
    rfl
  rw [hsplit] at hinside
  rcases infix_of_fence h.no_first hinside with hnil | hinside
  · exact absurd (List.infix_nil.mp hnil) h.nonempty
  rcases infix_of_fence h.no_last hinside with hbody | hinside
  · exact absurd (hbody.trans ⟨[first], [last], rfl⟩) h.not_replacement
  · exact hinside

end

/-! ## Replacing -/

variable [DecidableEq α]

/-- `text.split(pattern)`; `skip` elements are left of an occurrence. -/
def piecesFrom (pattern : List α) (skip : Nat) : List α → List (List α)
  | [] => [[]]
  | c :: rest =>
      if 0 < skip then piecesFrom pattern (skip - 1) rest
      else if pattern <+: c :: rest then [] :: piecesFrom pattern (pattern.length - 1) rest
      else match piecesFrom pattern 0 rest with
        | [] => [[c]]
        | piece :: others => (c :: piece) :: others

/-- What stands between the occurrences. -/
def pieces (pattern text : List α) : List (List α) := piecesFrom pattern 0 text

/-- `text.split(pattern).join(replacement)` -/
def replaceAll (pattern replacement text : List α) : List α :=
  replacement.intercalate (pieces pattern text)

/-- One pattern after another. -/
def replaceEach (replacement : List α) (patterns : List (List α)) (text : List α) : List α :=
  patterns.foldl (fun out pattern => replaceAll pattern replacement out) text

section
variable {pattern text rest replacement : List α} {c : α}

/-- What an occurrence has taken is skipped. -/
theorem piecesFrom_skip (skip : Nat) (text : List α) :
    piecesFrom pattern skip text = pieces pattern (text.drop skip) := by
  induction text generalizing skip with
  | nil =>
      rw [List.drop_nil]
      rfl
  | cons c text ih =>
      cases skip with
      | zero => rfl
      | succ skip =>
          rw [List.drop_succ_cons, ← ih skip]
          exact if_pos (Nat.succ_pos skip)

/-- At an occurrence a piece ends. -/
theorem pieces_occurrence (hne : pattern ≠ []) :
    pieces pattern (pattern ++ rest) = [] :: pieces pattern rest := by
  obtain ⟨first, others, rfl⟩ := List.exists_cons_of_ne_nil hne
  have hprefix : first :: others <+: first :: (others ++ rest) := ⟨rest, rfl⟩
  have hstep : pieces (first :: others) (first :: (others ++ rest)) =
      if first :: others <+: first :: (others ++ rest) then
        [] :: piecesFrom (first :: others) (first :: others).length.pred (others ++ rest)
      else _ := rfl
  rw [List.cons_append, hstep, if_pos hprefix, piecesFrom_skip, List.length_cons, Nat.pred_succ,
    List.drop_left]

/-- There is one piece at least. -/
theorem pieces_ne_nil (pattern text : List α) : pieces pattern text ≠ [] := by
  cases text with
  | nil => exact List.cons_ne_nil _ _
  | cons c rest =>
      intro hnil
      unfold pieces piecesFrom at hnil
      rw [if_neg (lt_irrefl 0)] at hnil
      split_ifs at hnil
      cases hpieces : piecesFrom pattern 0 rest with
      | nil =>
          rw [hpieces] at hnil
          cases hnil
      | cons piece others =>
          rw [hpieces] at hnil
          cases hnil

/-- Elsewhere the first piece goes on. -/
theorem pieces_step (h : ¬ pattern <+: c :: rest) :
    ∃ piece others, pieces pattern rest = piece :: others ∧
      pieces pattern (c :: rest) = (c :: piece) :: others := by
  obtain ⟨piece, others, hpieces⟩ := List.exists_cons_of_ne_nil (pieces_ne_nil pattern rest)
  refine ⟨piece, others, hpieces, ?_⟩
  change piecesFrom pattern 0 rest = _ at hpieces
  unfold pieces piecesFrom
  rw [if_neg (lt_irrefl 0), if_neg h, hpieces]

/-- Nothing is replaced in nothing. -/
theorem replaceAll_nil : replaceAll pattern replacement [] = [] := List.intercalate_singleton

/-- An occurrence is replaced, -/
theorem replaceAll_occurrence (hne : pattern ≠ []) :
    replaceAll pattern replacement (pattern ++ rest) =
      replacement ++ replaceAll pattern replacement rest := by
  obtain ⟨piece, others, hpieces⟩ := List.exists_cons_of_ne_nil (pieces_ne_nil pattern rest)
  unfold replaceAll
  rw [pieces_occurrence hne, hpieces, List.intercalate_cons_cons, List.nil_append]

/-- and any other character kept. -/
theorem replaceAll_step (h : ¬ pattern <+: c :: rest) :
    replaceAll pattern replacement (c :: rest) = c :: replaceAll pattern replacement rest := by
  obtain ⟨piece, others, hpieces, hstep⟩ := pieces_step h
  unfold replaceAll
  rw [hstep, hpieces]
  cases others with
  | nil => rw [List.intercalate_singleton, List.intercalate_singleton]
  | cons next others =>
      rw [List.intercalate_cons_cons, List.intercalate_cons_cons]
      rfl

/-- **Induction** along the reading of a text. -/
theorem reading_induction (hne : pattern ≠ []) {P : List α → Prop} (nil : P [])
    (occurrence : ∀ rest, P rest → P (pattern ++ rest))
    (step : ∀ c rest, ¬ pattern <+: c :: rest → P rest → P (c :: rest)) (text : List α) :
    P text := by
  induction hlength : text.length using Nat.strong_induction_on generalizing text with
  | _ length ih =>
      by_cases hprefix : pattern <+: text
      · obtain ⟨rest, rfl⟩ := hprefix
        have hpositive := List.length_pos_iff.mpr hne
        rw [List.length_append] at hlength
        exact occurrence rest (ih rest.length (by omega) rest rfl)
      · cases text with
        | nil => exact nil
        | cons c rest =>
            rw [List.length_cons] at hlength
            exact step c rest hprefix (ih rest.length (by omega) rest rfl)

variable {s a b body : List α} {x first last : α}

/-- Behind a fence the reading begins anew. -/
theorem replaceAll_fence (hne : pattern ≠ []) (hx : x ∉ pattern) :
    replaceAll pattern replacement (a ++ x :: b) =
      replaceAll pattern replacement a ++ x :: replaceAll pattern replacement b := by
  induction a using reading_induction hne with
  | nil =>
      rw [replaceAll_nil, List.nil_append, List.nil_append]
      refine replaceAll_step fun hprefix => ?_
      exact hne (List.prefix_nil.mp (@prefix_of_fence _ pattern [] b x hx hprefix))
  | occurrence rest ih =>
      rw [List.append_assoc, replaceAll_occurrence hne, replaceAll_occurrence hne, ih,
        List.append_assoc]
  | step c rest hprefix ih =>
      have hnot : ¬ pattern <+: c :: (rest ++ x :: b) := fun h =>
        hprefix (@prefix_of_fence _ pattern (c :: rest) b x hx h)
      rw [List.cons_append, replaceAll_step hnot, ih, replaceAll_step hprefix, List.cons_append]

/-- Without an occurrence the text is kept. -/
theorem replaceAll_of_not_infix (h : ¬ pattern <:+: text) :
    replaceAll pattern replacement text = text := by
  induction text with
  | nil => exact replaceAll_nil
  | cons c rest ih =>
      rw [replaceAll_step fun hprefix => h hprefix.isInfix,
        ih fun hinside => h (hinside.trans (List.suffix_cons c rest).isInfix)]

/-! ## Replacements between fences -/

/-- What begins without the fence began so before. -/
theorem prefix_of_replaceAll (hne : pattern ≠ []) (hs : first ∉ s)
    (h : s <+: replaceAll pattern (first :: (body ++ [last])) text) : s <+: text := by
  induction text using reading_induction hne generalizing s with
  | nil =>
      rw [replaceAll_nil] at h
      exact h
  | occurrence rest ih =>
      rw [replaceAll_occurrence hne, List.cons_append] at h
      have hnil := List.prefix_nil.mp (@prefix_of_fence _ s [] _ first hs h)
      rw [hnil]
      exact List.nil_prefix
  | step c rest hprefix ih =>
      rw [replaceAll_step hprefix] at h
      rcases List.prefix_cons_iff.mp h with rfl | ⟨others, rfl, hothers⟩
      · exact List.nil_prefix
      · exact (List.prefix_cons_inj c).mpr
          (ih (fun hmem => hs (List.mem_cons_of_mem _ hmem)) hothers)

/-- Replacing brings no other pattern into the text. -/
theorem infix_of_replaceAll (hne : pattern ≠ []) (hs : Admissible first body last s)
    (h : s <:+: replaceAll pattern (first :: (body ++ [last])) text) : s <:+: text := by
  induction text using reading_induction hne with
  | nil =>
      rw [replaceAll_nil] at h
      exact h
  | occurrence rest ih =>
      rw [replaceAll_occurrence hne] at h
      exact (ih (hs.infix_rest h)).trans (List.suffix_append _ _).isInfix
  | step c rest hprefix ih =>
      rw [replaceAll_step hprefix] at h
      rcases List.infix_cons_iff.mp h with hhead | hinside
      · refine List.IsPrefix.isInfix ?_
        rw [← replaceAll_step hprefix] at hhead
        exact prefix_of_replaceAll hne hs.no_first hhead
      · exact (ih hinside).trans (List.suffix_cons c rest).isInfix

/-- No occurrence of the pattern is left. -/
theorem replaceAll_clean (hs : Admissible first body last s) :
    ¬ s <:+: replaceAll s (first :: (body ++ [last])) text := by
  induction text using reading_induction hs.nonempty with
  | nil =>
      intro h
      rw [replaceAll_nil] at h
      exact hs.nonempty (List.infix_nil.mp h)
  | occurrence rest ih =>
      intro h
      rw [replaceAll_occurrence hs.nonempty] at h
      exact ih (hs.infix_rest h)
  | step c rest hprefix ih =>
      intro h
      rw [replaceAll_step hprefix] at h
      rcases List.infix_cons_iff.mp h with hhead | hinside
      · rw [← replaceAll_step hprefix] at hhead
        exact hprefix (prefix_of_replaceAll hs.nonempty hs.no_first hhead)
      · exact ih hinside

variable {patterns : List (List α)}

/-- What occurs afterwards occurred before. -/
theorem infix_of_replaceEach (hall : ∀ p ∈ patterns, p ≠ []) (hs : Admissible first body last s)
    (h : s <:+: replaceEach (first :: (body ++ [last])) patterns text) : s <:+: text := by
  induction patterns generalizing text with
  | nil => exact h
  | cons p patterns ih =>
      have hrest := ih (fun q hq => hall q (List.mem_cons_of_mem _ hq)) h
      exact infix_of_replaceAll (hall p List.mem_cons_self) hs hrest

/-- **None of the patterns** is left when each is replaced in turn. -/
theorem replaceEach_clean (hall : ∀ p ∈ patterns, Admissible first body last p)
    (hs : s ∈ patterns) (text : List α) :
    ¬ s <:+: replaceEach (first :: (body ++ [last])) patterns text := by
  induction patterns generalizing text with
  | nil => cases hs
  | cons p patterns ih =>
      have hrest := fun q hq => hall q (List.mem_cons_of_mem _ hq)
      rcases List.mem_cons.mp hs with rfl | hs
      · intro h
        exact replaceAll_clean (hall s List.mem_cons_self)
          (infix_of_replaceEach (fun q hq => (hrest q hq).nonempty)
            (hall s List.mem_cons_self) h)
      · exact ih hrest hs _

/-- **A part between fences** is kept when no pattern occurs in it. -/
theorem replaceEach_keeps (hall : ∀ p ∈ patterns, p ≠ [] ∧ x ∉ p ∧ ¬ p <:+: s) (a b : List α) :
    ∃ a' b', replaceEach replacement patterns (a ++ x :: (s ++ x :: b)) =
      a' ++ x :: (s ++ x :: b') := by
  induction patterns generalizing a b with
  | nil => exact ⟨a, b, rfl⟩
  | cons p patterns ih =>
      obtain ⟨hne, hx, hs⟩ := hall p List.mem_cons_self
      have hstep : replaceAll p replacement (a ++ x :: (s ++ x :: b)) =
          replaceAll p replacement a ++ x :: (s ++ x :: replaceAll p replacement b) := by
        rw [replaceAll_fence hne hx, replaceAll_fence hne hx, replaceAll_of_not_infix hs]
      obtain ⟨a', b', hrest⟩ := ih (fun q hq => hall q (List.mem_cons_of_mem _ hq))
        (replaceAll p replacement a) (replaceAll p replacement b)
      refine ⟨a', b', ?_⟩
      rw [← hrest, ← hstep]
      rfl

end

end Replacements
