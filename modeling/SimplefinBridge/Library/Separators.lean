import Mathlib.Data.List.Basic

/-!
# Fields joined by a separator

When does a text `a ++ sep :: x` determine its two fields?  It does when the
separator is in neither first field (`first_field_inj`) or in neither last one
(`last_field_inj`).  Without such a promise the only other reading moves the
boundary to another separator (`fields_shift`).
-/

universe u

namespace Separators

variable {α : Type u} {sep : α} {a b x y : List α}

/-- The part before the first separator. -/
theorem first_field_inj (ha : sep ∉ a) (hb : sep ∉ b) :
    a ++ sep :: x = b ++ sep :: y ↔ a = b ∧ x = y := by
  constructor
  · intro h
    induction a generalizing b with
    | nil =>
        cases b with
        | nil => exact ⟨rfl, (List.cons.inj h).2⟩
        | cons c cs =>
            obtain ⟨rfl, -⟩ := List.cons.inj h
            exact absurd List.mem_cons_self hb
    | cons c cs ih =>
        cases b with
        | nil =>
            obtain ⟨rfl, -⟩ := List.cons.inj h
            exact absurd List.mem_cons_self ha
        | cons d ds =>
            obtain ⟨rfl, htail⟩ := List.cons.inj h
            obtain ⟨rfl, rfl⟩ := ih (fun hc => ha (List.mem_cons_of_mem _ hc))
              (fun hd => hb (List.mem_cons_of_mem _ hd)) htail
            exact ⟨rfl, rfl⟩
  · rintro ⟨rfl, rfl⟩
    rfl

/-- The part after the last separator. -/
theorem last_field_inj (hx : sep ∉ x) (hy : sep ∉ y) :
    a ++ sep :: x = b ++ sep :: y ↔ a = b ∧ x = y := by
  have hreversed : ∀ u v : List α, (u ++ sep :: v).reverse = v.reverse ++ sep :: u.reverse := by
    intro u v
    rw [List.reverse_append, List.reverse_cons, List.append_assoc, List.singleton_append]
  rw [← List.reverse_inj, hreversed, hreversed,
    first_field_inj (fun h => hx (List.mem_reverse.mp h)) (fun h => hy (List.mem_reverse.mp h)),
    List.reverse_inj, List.reverse_inj, and_comm]

/-- The text with the boundary at an earlier separator has the rest of the
first field, and that separator, in front of its second field. -/
def Shifted (sep : α) (a x b y : List α) : Prop :=
  ∃ m, a = b ++ sep :: m ∧ y = m ++ sep :: x

/-- Two readings of one text are the same, or one is the other shifted. -/
theorem fields_shift :
    a ++ sep :: x = b ++ sep :: y ↔
      (a = b ∧ x = y) ∨ Shifted sep a x b y ∨ Shifted sep b y a x := by
  constructor
  · intro h
    rcases List.append_eq_append_iff.mp h with ⟨m, hb, hx⟩ | ⟨m, ha, hy⟩
    · cases m with
      | nil =>
          rw [List.append_nil] at hb
          exact .inl ⟨hb.symm, (List.cons.inj hx).2⟩
      | cons c m =>
          obtain ⟨rfl, rfl⟩ := List.cons.inj hx
          exact .inr (.inr ⟨m, hb, rfl⟩)
    · cases m with
      | nil =>
          rw [List.append_nil] at ha
          exact .inl ⟨ha, (List.cons.inj hy).2.symm⟩
      | cons c m =>
          obtain ⟨rfl, rfl⟩ := List.cons.inj hy
          exact .inr (.inl ⟨m, ha, rfl⟩)
  · rintro (⟨rfl, rfl⟩ | ⟨m, rfl, rfl⟩ | ⟨m, rfl, rfl⟩)
    · rfl
    · rw [List.append_assoc, List.cons_append]
    · rw [List.append_assoc, List.cons_append]

/-- A shifted reading is another one. -/
theorem Shifted.ne (h : Shifted sep a x b y) : a ≠ b := by
  obtain ⟨m, rfl, -⟩ := h
  intro heq
  have hlength := congrArg List.length heq
  rw [List.length_append, List.length_cons] at hlength
  omega

end Separators
