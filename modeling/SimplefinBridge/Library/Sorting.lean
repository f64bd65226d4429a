import Mathlib.Data.List.Sort
import Mathlib.Order.Defs.Unbundled

/-!
# Sorting by a comparison function

A comparison by keys, and by one key after another, is a comparison; insertion
sort with it leaves no pair out of order.
-/

universe u v

namespace Sorting

variable {α : Type u} {β : Type v}

/-- Comparing by a key. -/
theorem transCmp_key (cmp : β → β → Ordering) [Std.TransCmp cmp] (f : α → β) :
    Std.TransCmp fun a b => cmp (f a) (f b) where
  eq_swap := Std.OrientedCmp.eq_swap
  isLE_trans := Std.TransCmp.isLE_trans

/-- Comparing by a key and, where it is equal, by another one. -/
theorem transCmp_then (first second : α → α → Ordering) [hfirst : Std.TransCmp first]
    [hsecond : Std.TransCmp second] : Std.TransCmp fun a b => (first a b).then (second a b) :=
  inferInstanceAs (Std.TransCmp (compareLex first second))

/-- **A sorted list** has no pair out of order. -/
theorem pairwise_insertionSort_isLE (cmp : α → α → Ordering) [Std.TransCmp cmp] (items : List α) :
    (items.insertionSort fun a b => (cmp a b).isLE).Pairwise fun a b => (cmp a b).isLE = true := by
  have htotal : Std.Total fun a b : α => (cmp a b).isLE = true := by
    constructor
    intro a b
    cases hcompare : cmp a b with
    | lt => exact .inl rfl
    | eq => exact .inl rfl
    | gt => exact .inr (by rw [Std.OrientedCmp.lt_of_gt hcompare]; rfl)
  have htrans : IsTrans α fun a b => (cmp a b).isLE = true := ⟨fun _ _ _ => Std.TransCmp.isLE_trans⟩
  exact List.pairwise_insertionSort _ _

end Sorting
