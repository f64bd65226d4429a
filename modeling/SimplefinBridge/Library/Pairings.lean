import Mathlib.Data.List.Basic
import Mathlib.Data.List.Dedup
import Mathlib.Data.List.Forall2
import Mathlib.Data.List.Perm.Subperm
import SimplefinBridge.Library.Transactional

/-!
# Lists paired element by element

`List.Forall₂ R as bs` pairs two lists in order.  Every element has its partner
(`exists_of_left`, `exists_of_right`), and a pairing grows at its end (`snoc`).
A traversal that succeeds pairs what it reads with what it makes of it
(`of_mapM_ok`, `of_mapM_some`).
A list is what is found in it and the rest (`perm_of_find`).

Two lists are in one-to-one correspondence (`OneToOne`) when everything on the
one side has exactly one partner on the other.  Where partners have the same
key, it is enough that keys are distinct, that the lists are equally long and
that one side finds its partners (`oneToOne_of_keys`).
-/

universe u

namespace Pairings

variable {α β : Type*} {R : α → β → Prop} {as : List α} {bs : List β}

theorem exists_of_left (h : List.Forall₂ R as bs) {a : α} (ha : a ∈ as) : ∃ b ∈ bs, R a b := by
  induction h with
  | nil => cases ha
  | cons hfirst _ ih =>
      rcases List.mem_cons.mp ha with rfl | ha
      · exact ⟨_, List.mem_cons_self, hfirst⟩
      · obtain ⟨b, hb, hab⟩ := ih ha
        exact ⟨b, List.mem_cons_of_mem _ hb, hab⟩

theorem exists_of_right (h : List.Forall₂ R as bs) {b : β} (hb : b ∈ bs) : ∃ a ∈ as, R a b :=
  exists_of_left h.flip hb

theorem snoc (h : List.Forall₂ R as bs) {a : α} {b : β} (hab : R a b) :
    List.Forall₂ R (as ++ [a]) (bs ++ [b]) := by
  induction h with
  | nil => exact .cons hab .nil
  | cons h' _ ih => exact .cons h' ih

theorem of_mapM_ok {ε α β : Type u} {f : α → Except ε β} {as : List α} {bs : List β}
    (h : as.mapM f = .ok bs) : List.Forall₂ (fun a b => f a = .ok b) as bs := by
  have hmap : List.Forall₂ (· = ·) (as.map f) (bs.map Except.ok) := by
    rw [List.forall₂_eq_eq_eq]
    exact Transactional.mapM_ok_iff.mp h
  exact List.forall₂_map_right_iff.mp (List.forall₂_map_left_iff.mp hmap)

theorem of_mapM_some {α β : Type u} {f : α → Option β} {as : List α} {bs : List β}
    (h : as.mapM f = some bs) : List.Forall₂ (fun a b => f a = some b) as bs := by
  induction as generalizing bs with
  | nil =>
      cases h
      exact .nil
  | cons a as ih =>
      rw [List.mapM_cons] at h
      obtain ⟨b, hb, h⟩ := Option.bind_eq_some_iff.mp h
      obtain ⟨rest, hrest, h⟩ := Option.bind_eq_some_iff.mp h
      cases h
      exact .cons hb (ih hrest)

/-- Partners that have something in common have it in the same order. -/
theorem map_eq {γ : Type*} {f : α → γ} {g : β → γ} (h : List.Forall₂ R as bs)
    (hfg : ∀ a b, R a b → f a = g b) : as.map f = bs.map g := by
  induction h with
  | nil => rfl
  | cons hfirst _ ih => rw [List.map_cons, List.map_cons, hfg _ _ hfirst, ih]

/-- What is found in a list, and what is left when it is taken out. -/
theorem perm_of_find {p : α → Bool} {items : List α} {a : α} (h : items.find? p = some a) :
    items.Perm (a :: items.eraseP p) := by
  induction items with
  | nil => cases h
  | cons first items ih =>
      by_cases hfirst : p first = true
      · rw [List.find?_cons_of_pos hfirst] at h
        rw [List.eraseP_cons_of_pos hfirst, Option.some.inj h]
      · rw [List.find?_cons_of_neg hfirst] at h
        rw [List.eraseP_cons_of_neg hfirst]
        exact ((ih h).cons first).trans (List.Perm.swap _ _ _)

/-! ## One-to-one correspondence -/

structure OneToOne (R : α → β → Prop) (as : List α) (bs : List β) : Prop where
  leftNodup : as.Nodup
  rightNodup : bs.Nodup
  ofLeft : ∀ a ∈ as, ∃! b, b ∈ bs ∧ R a b
  ofRight : ∀ b ∈ bs, ∃! a, a ∈ as ∧ R a b

/-- As many different keys as there are items: no two items share one. -/
theorem nodup_of_dedup_length {α : Type} [DecidableEq α] {items : List α}
    (h : items.dedup.length = items.length) : items.Nodup := by
  rw [← List.Sublist.eq_of_length (List.dedup_sublist items) h]
  exact List.nodup_dedup items

/-- Distinct keys that are all found among as many keys are all of them. -/
theorem subset_of_length {κ : Type*} {keys found : List κ} (hfound : found.Nodup)
    (hsubset : found ⊆ keys) (hlength : keys.length ≤ found.length) : keys ⊆ found :=
  ((hfound.subperm hsubset).perm_of_length_le hlength).symm.subset

/-- **Counting**: distinct keys on both sides, equally many of them, and a
partner for everything on the right. -/
theorem oneToOne_of_keys {κ : Type*} {leftKey : α → κ} {rightKey : β → κ}
    (hkey : ∀ a b, R a b → leftKey a = rightKey b) (hleft : (as.map leftKey).Nodup)
    (hright : (bs.map rightKey).Nodup) (hlength : as.length ≤ bs.length)
    (hfound : ∀ b ∈ bs, ∃ a ∈ as, R a b) : OneToOne R as bs := by
  have hleftInj := List.inj_on_of_nodup_map hleft
  have hrightInj := List.inj_on_of_nodup_map hright
  have hsubset : bs.map rightKey ⊆ as.map leftKey := by
    intro key hmem
    obtain ⟨b, hb, rfl⟩ := List.mem_map.mp hmem
    obtain ⟨a, ha, hab⟩ := hfound b hb
    exact List.mem_map.mpr ⟨a, ha, hkey a b hab⟩
  have hall : as.map leftKey ⊆ bs.map rightKey :=
    subset_of_length hright hsubset (by rwa [List.length_map, List.length_map])
  refine ⟨hleft.of_map, hright.of_map, ?_, ?_⟩
  · intro a ha
    obtain ⟨b, hb, hsame⟩ := List.mem_map.mp (hall (List.mem_map_of_mem ha))
    obtain ⟨a', ha', hab⟩ := hfound b hb
    -- the partner that the right side found is this one
    have hpartner : a' = a := hleftInj ha' ha ((hkey a' b hab).trans hsame)
    rw [hpartner] at hab
    refine ⟨b, ⟨hb, hab⟩, ?_⟩
    intro b' hb'
    exact hrightInj hb'.1 hb ((hkey a b' hb'.2).symm.trans (hkey a b hab))
  · intro b hb
    obtain ⟨a, ha, hab⟩ := hfound b hb
    refine ⟨a, ⟨ha, hab⟩, ?_⟩
    intro a' ha'
    exact hleftInj ha'.1 ha ((hkey a' b ha'.2).trans (hkey a b hab).symm)

end Pairings
