import Mathlib.Data.List.Destutter

/-!
# Histories without consecutive repeats

A history grows at its end.  Leaving out the entries that repeat the one
before commutes with that: a new entry is left out exactly when it repeats the
last one.
-/

namespace Histories

variable {α : Type*} [DecidableEq α]

theorem destutter'_concat (a x : α) (entries : List α) :
    (entries ++ [x]).destutter' (· ≠ ·) a =
      if (a :: entries).getLast? = some x then entries.destutter' (· ≠ ·) a
      else entries.destutter' (· ≠ ·) a ++ [x] := by
  induction entries generalizing a with
  | nil =>
      by_cases h : a = x
      · simp [h]
      · simp [h]
  | cons b entries ih =>
      rw [List.cons_append, List.getLast?_cons_cons]
      by_cases h : a = b
      · subst h
        rw [List.destutter'_cons_neg _ (by simp), List.destutter'_cons_neg _ (by simp), ih]
      · rw [List.destutter'_cons_pos _ h, List.destutter'_cons_pos _ h, ih]
        split_ifs
        · rfl
        · rfl

/-- **A new entry** is kept unless it repeats the last one. -/
theorem destutter_concat (entries : List α) (x : α) :
    (entries ++ [x]).destutter (· ≠ ·) =
      if entries.getLast? = some x then entries.destutter (· ≠ ·)
      else entries.destutter (· ≠ ·) ++ [x] := by
  cases entries with
  | nil => rfl
  | cons a entries => exact destutter'_concat a x entries

end Histories
