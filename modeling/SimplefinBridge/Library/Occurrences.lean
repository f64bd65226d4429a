import Mathlib.Data.List.Perm.Subperm
import Mathlib.Data.List.Range
import Mathlib.Data.List.Sort

/-!
# Numbering the occurrences of a key

Elements of a list share keys; `earlier` is the number of elements with the
same key that an order puts before a given one.  It does not depend on how the
list is arranged (`earlier_perm`); in an arrangement that follows the order it
is what a counter per key reads when the element is reached
(`earlier_of_pairwise`), and the elements of one key are numbered from zero
without gaps (`map_earlier_group`).
-/

universe u v w

namespace Occurrences

variable {α : Type u} {κ : Type v} [DecidableEq κ] (key : α → κ) (lt : α → α → Bool)

/-- The number of elements of the key of `a` before it. -/
def earlier (items : List α) (a : α) : Nat :=
  items.countP fun b => key b = key a && lt b a

/-- The elements of a key. -/
def group (k : κ) (items : List α) : List α := items.filter fun a => key a = k

variable {key lt}

theorem earlier_perm {items items' : List α} (h : items.Perm items') (a : α) :
    earlier key lt items a = earlier key lt items' a := h.countP_eq _

/-- What comes after does not count. -/
theorem earlier_append {before rest : List α} {a : α} (h : ∀ b ∈ rest, lt b a = false) :
    earlier key lt (before ++ rest) a = earlier key lt before a := by
  unfold earlier
  rw [List.countP_append, Nat.add_eq_left, List.countP_eq_zero]
  intro b hb
  rw [h b hb, Bool.and_false]
  exact Bool.false_ne_true

/-- In an arrangement along the order, `earlier` counts what has passed. -/
theorem earlier_of_pairwise (hasymm : ∀ a b, lt a b = true → lt b a = false)
    {before rest : List α} {a : α} (h : (before ++ a :: rest).Pairwise fun x y => lt x y = true) :
    earlier key lt (before ++ a :: rest) a = (group key (key a) before).length := by
  rw [List.pairwise_append, List.pairwise_cons] at h
  obtain ⟨-, ⟨hrest, -⟩, hbefore⟩ := h
  rw [earlier_append]
  · unfold earlier group
    rw [← List.countP_eq_length_filter]
    apply List.countP_congr
    intro b hb
    rw [hbefore b hb a List.mem_cons_self, Bool.and_true]
  · intro b hb
    rcases List.mem_cons.mp hb with rfl | hafter
    · cases hself : lt b b with
      | false => rfl
      | true => exact hself.symm.trans (hasymm b b hself)
    · exact hasymm a b (hrest b hafter)

/-- **The elements of a key are numbered from zero without gaps.** -/
theorem map_earlier_group (hasymm : ∀ a b, lt a b = true → lt b a = false) (k : κ)
    {items : List α} (h : items.Pairwise fun x y => lt x y = true) :
    (group key k items).map (earlier key lt items) = List.range (group key k items).length := by
  induction items using List.reverseRecOn with
  | nil => rfl
  | append_singleton items a ih =>
      have hall := h
      rw [List.pairwise_append] at h
      obtain ⟨hitems, -, hlast⟩ := h
      have hold : ∀ b ∈ group key k items,
          earlier key lt (items ++ [a]) b = earlier key lt items b := by
        intro b hb
        apply earlier_append
        intro c hc
        rw [List.mem_singleton.mp hc]
        exact hasymm b a (hlast b (List.mem_filter.mp hb).1 a List.mem_cons_self)
      have hgroup : group key k (items ++ [a]) = group key k items ++ group key k [a] :=
        List.filter_append ..
      rw [hgroup, List.map_append, List.map_congr_left hold, ih hitems, List.length_append]
      by_cases hkey : key a = k
      · have hnew : group key k [a] = [a] := by simp [group, hkey]
        have hnumber : earlier key lt (items ++ [a]) a = (group key (key a) items).length :=
          earlier_of_pairwise hasymm hall
        rw [hkey] at hnumber
        rw [hnew, List.map_singleton, hnumber, List.length_singleton, List.range_succ]
      · have hnone : group key k [a] = [] := by simp [group, hkey]
        rw [hnone, List.map_nil, List.append_nil, List.length_nil, Nat.add_zero]

/-! ## Nested collections -/

section
variable {β : Type w}

/-- One of the collections contains the other, counted with multiplicity. -/
def Nested (xs ys : List β) : Prop := xs.Subperm ys ∨ ys.Subperm xs

instance [DecidableEq β] (xs ys : List β) : Decidable (Nested xs ys) :=
  inferInstanceAs (Decidable (xs.Subperm ys ∨ ys.Subperm xs))

/-- Renaming without confusion neither makes nor breaks a nesting. -/
theorem nested_map_iff {γ : Type w} {f : β → γ} (hf : Function.Injective f) {xs ys : List β} :
    Nested (xs.map f) (ys.map f) ↔ Nested xs ys :=
  or_congr (List.map_subperm_map_iff hf) (List.map_subperm_map_iff hf)

theorem nested_perm {xs xs' ys ys' : List β} (hx : xs.Perm xs') (hy : ys.Perm ys') :
    Nested xs ys ↔ Nested xs' ys' := by
  unfold Nested
  rw [hx.subperm_right, hx.subperm_left, hy.subperm_right, hy.subperm_left]

theorem nested_range (m n : Nat) : Nested (List.range m) (List.range n) := by
  rcases Nat.le_total m n with h | h
  · exact .inl (List.range_subset.mpr h |> List.subperm_of_subset List.nodup_range)
  · exact .inr (List.range_subset.mpr h |> List.subperm_of_subset List.nodup_range)

end

/-! ## Counting -/

/-- A count over two kinds that exclude each other. -/
theorem countP_eq_add {α : Type u} {items : List α} {p q r : α → Bool}
    (hkinds : ∀ a ∈ items, p a = true ↔ q a = true ∨ r a = true)
    (hdisjoint : ∀ a ∈ items, q a = true → r a = true → False) :
    items.countP p = items.countP q + items.countP r := by
  induction items with
  | nil => rfl
  | cons a items ih =>
      have hfirst := hkinds a List.mem_cons_self
      have hapart := hdisjoint a List.mem_cons_self
      have hrest := ih (fun b hb => hkinds b (List.mem_cons_of_mem _ hb))
        (fun b hb => hdisjoint b (List.mem_cons_of_mem _ hb))
      rw [List.countP_cons, List.countP_cons, List.countP_cons, hrest]
      by_cases hq : q a = true
      · have hr : ¬ r a = true := fun hr => hapart hq hr
        rw [if_pos (hfirst.mpr (.inl hq)), if_pos hq, if_neg hr]
        omega
      · by_cases hr : r a = true
        · rw [if_pos (hfirst.mpr (.inr hr)), if_neg hq, if_pos hr]
          omega
        · rw [if_neg fun hp => (hfirst.mp hp).elim hq hr, if_neg hq, if_neg hr]
          omega

/-- What is listed before a place is counted among the first items. -/
theorem countP_zipIdx_lt {α : Type u} (items : List α) (p : α → Bool) (place : Nat) :
    (items.zipIdx.countP fun e => p e.1 && decide (e.2 < place)) = (items.take place).countP p := by
  induction items using List.reverseRecOn with
  | nil => simp
  | append_singleton items item ih =>
      rw [List.zipIdx_append, List.countP_append, ih, List.take_append, List.countP_append]
      congr 1
      by_cases hplace : items.length < place
      · obtain ⟨rest, hrest⟩ : ∃ rest, place - items.length = rest + 1 :=
          ⟨place - items.length - 1, by omega⟩
        rw [hrest]
        simp [hplace]
      · have hnone : place - items.length = 0 := by omega
        rw [hnone]
        simp [hplace]

end Occurrences
