import Mathlib.Data.List.Perm.Basic
import Mathlib.Data.List.ReduceOption
import SimplefinBridge.Library.Pairings

/-!
# Lists in another order

`Reordered R as bs` says that `bs` has the elements of `as` in some order, each
of them up to `R`.  Nested lists that are put in another order at every level
are related by nested relations of this kind.  A traversal of a reordered list
fails where the other one fails, and collects reordered results
(`Reordered.alike_mapM`).
-/

universe u

open Transactional (Alike alike_bind mapM_isOk mapM_ok_iff)

/-- The same elements in some order, each of them up to `R`. -/
def Reordered {α β : Type u} (R : α → β → Prop) (as : List α) (bs : List β) : Prop :=
  ∃ middle, as.Perm middle ∧ List.Forall₂ R middle bs

namespace Reordered

variable {α β γ δ ε : Type u} {R : α → β → Prop} {as : List α} {bs : List β}

theorem of_perm {R : α → α → Prop} {as bs : List α} (hrefl : ∀ a, R a a) (h : as.Perm bs) :
    Reordered R as bs :=
  ⟨bs, h, List.forall₂_same.mpr fun a _ => hrefl a⟩

theorem perm {as bs : List α} (h : Reordered (· = ·) as bs) : as.Perm bs := by
  obtain ⟨middle, hperm, heach⟩ := h
  rw [List.forall₂_eq_eq_eq] at heach
  rwa [← heach]

/-- The order can be undone. -/
theorem symm {R : α → α → Prop} {as bs : List α} (hsymm : ∀ a b, R a b → R b a)
    (h : Reordered R as bs) : Reordered R bs as := by
  obtain ⟨middle, hperm, heach⟩ := h
  obtain ⟨other, hother, hpermOther⟩ := List.perm_comp_forall₂ hperm heach
  exact ⟨other, hpermOther.symm, hother.flip.imp fun a b hab => hsymm b a hab⟩

theorem exists_of_right (h : Reordered R as bs) {b : β} (hb : b ∈ bs) : ∃ a ∈ as, R a b := by
  obtain ⟨middle, hperm, heach⟩ := h
  obtain ⟨a, ha, hab⟩ := Pairings.exists_of_right heach hb
  exact ⟨a, hperm.mem_iff.mpr ha, hab⟩

theorem perm_map (h : Reordered R as bs) {f : α → γ} {g : β → γ}
    (hfg : ∀ a b, R a b → f a = g b) : (as.map f).Perm (bs.map g) := by
  obtain ⟨middle, hperm, heach⟩ := h
  rw [← Pairings.map_eq heach hfg]
  exact hperm.map f

theorem perm_flatMap (h : Reordered R as bs) {f : α → List γ} {g : β → List γ}
    (hfg : ∀ a b, R a b → (f a).Perm (g b)) : (as.flatMap f).Perm (bs.flatMap g) := by
  obtain ⟨middle, hperm, heach⟩ := h
  refine (hperm.flatMap_right f).trans ?_
  clear hperm
  induction heach with
  | nil => exact .nil
  | cons hfirst _ ih =>
      rw [List.flatMap_cons, List.flatMap_cons]
      exact (hfg _ _ hfirst).append ih

/-- The values that are there. -/
theorem reduceOption {as : List (Option α)} {bs : List (Option β)}
    (h : Reordered (Option.Rel R) as bs) : Reordered R as.reduceOption bs.reduceOption := by
  obtain ⟨middle, hperm, heach⟩ := h
  refine ⟨middle.reduceOption, hperm.filterMap id, ?_⟩
  clear hperm
  induction heach with
  | nil => exact .nil
  | cons hfirst _ ih =>
      cases hfirst with
      | some hab => exact .cons hab ih
      | none => exact ih

/-- Traversals of a list in two orders. -/
theorem alike_mapM_perm {as bs : List α} (h : as.Perm bs) (f : α → Except ε β) :
    Alike List.Perm (as.mapM f) (bs.mapM f) := by
  have hdone : ∀ {as bs : List α}, as.Perm bs → ∀ {results : List β}, as.mapM f = .ok results →
      ∃ results', bs.mapM f = .ok results' := by
    intro as bs h results hresults
    refine mapM_isOk fun a ha => ?_
    have hmem : f a ∈ as.map f := List.mem_map_of_mem (h.mem_iff.mpr ha)
    rw [mapM_ok_iff.mp hresults] at hmem
    obtain ⟨b, -, hb⟩ := List.mem_map.mp hmem
    exact ⟨b, hb.symm⟩
  cases hfirst : as.mapM f with
  | error e =>
      cases hsecond : bs.mapM f with
      | error e' => exact .threw e e'
      | ok results =>
          obtain ⟨results', hresults'⟩ := hdone h.symm hsecond
          rw [hresults'] at hfirst
          cases hfirst
  | ok results =>
      obtain ⟨results', hresults'⟩ := hdone h hfirst
      rw [hresults']
      refine .returned ?_
      have hmap := h.map f
      rw [mapM_ok_iff.mp hfirst, mapM_ok_iff.mp hresults'] at hmap
      exact (List.map_perm_map_iff fun _ _ => Except.ok.inj).mp hmap

theorem alike_mapM_forall₂ {S : γ → δ → Prop} {f : α → Except ε γ} {g : β → Except ε δ}
    (hfg : ∀ a b, R a b → Alike S (f a) (g b)) (h : List.Forall₂ R as bs) :
    Alike (List.Forall₂ S) (as.mapM f) (bs.mapM g) := by
  induction h with
  | nil => exact .returned .nil
  | cons hfirst _ ih =>
      rw [List.mapM_cons, List.mapM_cons]
      refine alike_bind (hfg _ _ hfirst) fun c d hcd => ?_
      refine alike_bind ih fun cs ds hrest => ?_
      exact .returned (.cons hcd hrest)

/-- **Traversals of a reordered list** fail together, and their results are
reordered. -/
theorem alike_mapM {S : γ → δ → Prop} {f : α → Except ε γ} {g : β → Except ε δ}
    (hfg : ∀ a b, R a b → Alike S (f a) (g b)) (h : Reordered R as bs) :
    Alike (Reordered S) (as.mapM f) (bs.mapM g) := by
  obtain ⟨middle, hperm, heach⟩ := h
  have hfirst := alike_mapM_perm hperm f
  have hsecond := alike_mapM_forall₂ hfg heach
  generalize as.mapM f = x at hfirst
  generalize middle.mapM f = y at hfirst hsecond
  generalize bs.mapM g = z at hsecond
  cases hfirst with
  | threw e e' =>
      cases hsecond with
      | threw _ e'' => exact .threw e e''
  | returned hresults =>
      cases hsecond with
      | returned heach => exact .returned ⟨_, hresults, heach⟩

end Reordered
