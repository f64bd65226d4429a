import Mathlib.Data.List.Nodup
import Mathlib.Data.List.Basic

/-!
# Tables with a primary key

A table is the list of its rows in insertion order, no two of them with the
same key.  `put` is `INSERT … ON CONFLICT DO UPDATE`: it replaces the row
with the same key where it stands, or appends a new row at the end.  `erase`
deletes by key.

Every operation is characterised by what `find` returns afterwards
(`find_put`, `find_erase`), so that later proofs never look at the list.
-/

universe u v

/-- A list of rows with pairwise distinct keys. -/
structure KeyedTable (α : Type u) {κ : Type v} (key : α → κ) where
  rows : List α
  nodup : (rows.map key).Nodup

namespace KeyedTable

variable {α : Type u} {κ : Type v} [DecidableEq κ] {key : α → κ}

/-- The table without rows. -/
def empty : KeyedTable α key := ⟨[], List.nodup_nil⟩

/-- The row with the given key. -/
def find (t : KeyedTable α key) (k : κ) : Option α := t.rows.find? fun a => key a = k

/-- The row that is found has the key. -/
theorem key_of_find {t : KeyedTable α key} {k : κ} {a : α} (h : t.find k = some a) :
    key a = k := by
  simpa using List.find?_some h

/-- It is a row of the table. -/
theorem mem_of_find {t : KeyedTable α key} {k : κ} {a : α} (h : t.find k = some a) :
    a ∈ t.rows := List.mem_of_find?_eq_some h

/-- A stored row is the one found under its key. -/
theorem find_of_mem {t : KeyedTable α key} {a : α} (h : a ∈ t.rows) :
    t.find (key a) = some a := by
  obtain ⟨rows, hnodup⟩ := t
  simp only [find]
  induction rows with
  | nil => cases h
  | cons b rows ih =>
      rw [List.map_cons, List.nodup_cons] at hnodup
      rcases List.mem_cons.mp h with rfl | h
      · simp
      · have hne : key b ≠ key a := fun heq =>
          hnodup.1 (heq ▸ List.mem_map_of_mem h)
        simpa [List.find?_cons, hne] using ih hnodup.2 h

/-- A row is found under its key. -/
theorem mem_iff_find {t : KeyedTable α key} {a : α} :
    a ∈ t.rows ↔ t.find (key a) = some a :=
  ⟨find_of_mem, mem_of_find⟩

/-- Nothing is found under a key that no row has. -/
theorem find_eq_none {t : KeyedTable α key} {k : κ} :
    t.find k = none ↔ ∀ a ∈ t.rows, key a ≠ k := by
  simp [find]

/-- Something is found under a key that is there. -/
theorem find_isSome {t : KeyedTable α key} {k : κ} :
    (t.find k).isSome ↔ k ∈ t.rows.map key := by
  simp only [find, List.find?_isSome, List.mem_map, decide_eq_true_eq]

/-- Two stored rows with one key are the same row. -/
theorem eq_of_key_eq {t : KeyedTable α key} {a b : α} (ha : a ∈ t.rows) (hb : b ∈ t.rows)
    (h : key a = key b) : a = b :=
  Option.some.inj ((find_of_mem ha).symm.trans (h ▸ find_of_mem hb))

/-- Looking a key up among some of the rows. -/
theorem find?_filter_eq_some {t : KeyedTable α key} {p : α → Bool} {k : κ} {a : α} :
    (t.rows.filter p).find? (fun b => key b = k) = some a ↔ t.find k = some a ∧ p a = true := by
  constructor
  · intro h
    have hkey : key a = k := by simpa using List.find?_some h
    obtain ⟨hmem, hp⟩ := List.mem_filter.mp (List.mem_of_find?_eq_some h)
    exact ⟨hkey ▸ find_of_mem hmem, hp⟩
  · intro h
    obtain ⟨hfind, hp⟩ := h
    have hmem : a ∈ t.rows.filter p := List.mem_filter.mpr ⟨mem_of_find hfind, hp⟩
    cases hfound : (t.rows.filter p).find? fun b => key b = k with
    | none =>
        have hne := List.find?_eq_none.mp hfound a hmem
        exact absurd (key_of_find hfind) (by simpa using hne)
    | some b =>
        have hkey : key b = k := by simpa using List.find?_some hfound
        have hb := (List.mem_filter.mp (List.mem_of_find?_eq_some hfound)).1
        rw [eq_of_key_eq hb (mem_of_find hfind) (hkey.trans (key_of_find hfind).symm)]

/-- Overwrite the row with the key of `a` where it stands. -/
def overwrite (key : α → κ) (a : α) (rows : List α) : List α :=
  rows.map fun b => if key b = key a then a else b

/-- Overwriting leaves the keys alone. -/
theorem map_key_overwrite (a : α) (rows : List α) :
    (overwrite key a rows).map key = rows.map key := by
  simp only [overwrite, List.map_map]
  refine List.map_congr_left fun b _ => ?_
  by_cases h : key b = key a <;> simp [h]

/-- Insert a row, or overwrite the row that has its key. -/
def put (t : KeyedTable α key) (a : α) : KeyedTable α key :=
  if h : (t.find (key a)).isSome then
    ⟨overwrite key a t.rows, by rw [map_key_overwrite]; exact t.nodup⟩
  else
    ⟨t.rows ++ [a], by
      rw [List.map_append, List.map_singleton, ← List.concat_eq_append]
      exact t.nodup.concat fun hmem => h (find_isSome.mpr hmem)⟩

/-- What is found after a row was overwritten. -/
theorem find_overwrite (a : α) (rows : List α) (k : κ) :
    (overwrite key a rows).find? (fun b => key b = k) =
      if k = key a then (rows.find? fun b => key b = k).map fun _ => a
      else rows.find? fun b => key b = k := by
  induction rows with
  | nil => simp [overwrite]
  | cons b rows ih =>
      simp only [overwrite, List.map_cons, List.find?_cons] at ih ⊢
      rw [ih]
      by_cases hb : key b = key a <;> by_cases hk : k = key a <;> by_cases hbk : key b = k <;>
        simp_all

/-- What a table holds after `put`. -/
theorem find_put (t : KeyedTable α key) (a : α) (k : κ) :
    (t.put a).find k = if k = key a then some a else t.find k := by
  unfold put
  split_ifs with hex hk hk
  · subst hk
    obtain ⟨b, hb⟩ := Option.isSome_iff_exists.mp hex
    simp only [find] at hb
    simp [find, find_overwrite, hb]
  · simp [find, find_overwrite, hk]
  · subst hk
    have hnone : t.find (key a) = none := by simpa using hex
    simp only [find] at hnone
    simp [find, List.find?_append, hnone]
  · have hk' : key a ≠ k := fun h => hk h.symm
    simp [find, List.find?_append, hk']

/-- The row that was put is found. -/
@[simp] theorem find_put_self (t : KeyedTable α key) (a : α) :
    (t.put a).find (key a) = some a := by simp [find_put]

/-- The others are found as before. -/
theorem find_put_other (t : KeyedTable α key) {a : α} {k : κ} (h : k ≠ key a) :
    (t.put a).find k = t.find k := by simp [find_put, h]

/-- A stored row after `put` is the new row or an old one with another key. -/
theorem mem_put {t : KeyedTable α key} {a b : α} :
    b ∈ (t.put a).rows ↔ b = a ∨ (b ∈ t.rows ∧ key b ≠ key a) := by
  rw [mem_iff_find, find_put]
  split_ifs with h
  · simp only [Option.some.injEq, h, ne_eq, not_true_eq_false, and_false, or_false]
    exact eq_comm
  · constructor
    · exact fun hfind => Or.inr ⟨mem_of_find hfind, h⟩
    · rintro (rfl | ⟨hb, -⟩)
      · exact absurd rfl h
      · exact find_of_mem hb

/-- A row with a new key is appended. -/
theorem rows_put_of_find_none {t : KeyedTable α key} {a : α} (h : t.find (key a) = none) :
    (t.put a).rows = t.rows ++ [a] := by
  unfold put
  rw [dif_neg]
  rw [h]
  exact Bool.false_ne_true

/-- The keys after `put`: a new key is appended. -/
theorem map_key_put (t : KeyedTable α key) (a : α) :
    (t.put a).rows.map key =
      if (t.find (key a)).isSome then t.rows.map key else t.rows.map key ++ [key a] := by
  unfold put
  split_ifs
  · exact map_key_overwrite a t.rows
  · rw [List.map_append, List.map_singleton]

/-- Rows were only appended, each under a key that was free. -/
def Appends (t t' : KeyedTable α key) : Prop :=
  ∃ new, t'.rows = t.rows ++ new ∧ ∀ a ∈ new, t.find (key a) = none

/-- The keys of appended rows were free, since a table has every key once. -/
theorem appends_of_rows {t t' : KeyedTable α key} {new : List α} (h : t'.rows = t.rows ++ new) :
    Appends t t' := by
  refine ⟨new, h, fun a ha => ?_⟩
  rw [find_eq_none]
  intro b hb hkey
  have hnodup := t'.nodup
  rw [h, List.map_append, List.nodup_append] at hnodup
  exact hnodup.2.2 (key b) (List.mem_map_of_mem hb) (key a) (List.mem_map_of_mem ha) hkey

/-- Nothing was appended. -/
theorem Appends.refl (t : KeyedTable α key) : Appends t t :=
  appends_of_rows (List.append_nil _).symm

/-- Rows appended behind rows. -/
theorem Appends.trans {t₁ t₂ t₃ : KeyedTable α key} (h₁ : Appends t₁ t₂) (h₂ : Appends t₂ t₃) :
    Appends t₁ t₃ := by
  obtain ⟨new₁, hnew₁, -⟩ := h₁
  obtain ⟨new₂, hnew₂, -⟩ := h₂
  rw [hnew₁, List.append_assoc] at hnew₂
  exact appends_of_rows hnew₂

/-- A row with a new key is appended. -/
theorem appends_put {t : KeyedTable α key} {a : α} (h : t.find (key a) = none) :
    Appends t (t.put a) :=
  appends_of_rows (rows_put_of_find_none h)

/-- What was found is still found. -/
theorem Appends.find {t t' : KeyedTable α key} (h : Appends t t') {k : κ} {a : α}
    (hfind : t.find k = some a) : t'.find k = some a := by
  obtain ⟨new, hnew, -⟩ := h
  have hmem : a ∈ t'.rows := by
    rw [hnew]
    exact List.mem_append_left new (mem_of_find hfind)
  rw [← key_of_find hfind]
  exact find_of_mem hmem

/-- Delete the row with the given key. -/
def erase (t : KeyedTable α key) (k : κ) : KeyedTable α key :=
  ⟨t.rows.filter fun a => key a ≠ k, t.nodup.sublist (List.filter_sublist.map key)⟩

/-- All other rows are kept. -/
theorem mem_erase {t : KeyedTable α key} {k : κ} {a : α} :
    a ∈ (t.erase k).rows ↔ a ∈ t.rows ∧ key a ≠ k := by
  simp [erase]

/-- What a table holds after `erase`. -/
theorem find_erase (t : KeyedTable α key) (k k' : κ) :
    (t.erase k).find k' = if k' = k then none else t.find k' := by
  by_cases h : k' = k
  · rw [if_pos h, find_eq_none]
    intro a ha
    rw [h]
    exact (mem_erase.mp ha).2
  · rw [if_neg h]
    cases hfind : t.find k' with
    | none =>
        rw [find_eq_none] at hfind ⊢
        intro a ha
        exact hfind a (mem_erase.mp ha).1
    | some a =>
        have hkey := key_of_find hfind
        have hmem : a ∈ (t.erase k).rows :=
          mem_erase.mpr ⟨mem_of_find hfind, fun heq => h (hkey.symm.trans heq)⟩
        rw [← hkey]
        exact find_of_mem hmem

/-- Nothing is found in an empty table. -/
@[simp] theorem find_empty (k : κ) : (empty : KeyedTable α key).find k = none := rfl

/-! ## Many rows -/

/-- Putting a stored row changes nothing. -/
theorem put_of_mem {t : KeyedTable α key} {a : α} (h : a ∈ t.rows) : t.put a = t := by
  have hfound : (t.find (key a)).isSome := by
    rw [find_of_mem h]
    rfl
  have hrows : overwrite key a t.rows = t.rows := by
    conv => rhs; rw [← List.map_id t.rows]
    refine List.map_congr_left fun b hb => ?_
    by_cases hkey : key b = key a
    · rw [if_pos hkey, eq_of_key_eq hb h hkey, id]
    · rw [if_neg hkey, id]
  obtain ⟨rows, hnodup⟩ := t
  unfold put
  rw [dif_pos hfound]
  congr

/-- Putting rows that are there changes nothing. -/
theorem foldl_put_of_mem {t : KeyedTable α key} {rows : List α} (h : ∀ a ∈ rows, a ∈ t.rows) :
    rows.foldl put t = t := by
  induction rows with
  | nil => rfl
  | cons a rows ih =>
      rw [List.foldl_cons, put_of_mem (h a List.mem_cons_self)]
      exact ih fun b hb => h b (List.mem_cons_of_mem _ hb)

/-- Rows with new keys are appended in their order. -/
theorem rows_foldl_put {t : KeyedTable α key} {rows : List α}
    (h : ((t.rows ++ rows).map key).Nodup) : (rows.foldl put t).rows = t.rows ++ rows := by
  induction rows generalizing t with
  | nil => rw [List.foldl_nil, List.append_nil]
  | cons a rows ih =>
      have hfree : t.find (key a) = none := by
        rw [find_eq_none]
        intro b hb hkey
        rw [List.map_append, List.nodup_append] at h
        exact h.2.2 (key b) (List.mem_map_of_mem hb) (key a) List.mem_cons_self hkey
      have hput : (t.put a).rows ++ rows = t.rows ++ a :: rows := by
        rw [rows_put_of_find_none hfree, List.append_assoc, List.singleton_append]
      rw [List.foldl_cons, ih (by rwa [hput]), hput]

/-- A row comes from the table or from the rows that were put. -/
theorem mem_of_mem_foldl_put {t : KeyedTable α key} {rows : List α} {a : α}
    (h : a ∈ (rows.foldl put t).rows) : a ∈ t.rows ∨ a ∈ rows := by
  induction rows generalizing t with
  | nil => exact .inl h
  | cons b rows ih =>
      rcases ih h with hput | hmem
      · rcases mem_put.mp hput with rfl | ⟨hold, -⟩
        · exact .inr List.mem_cons_self
        · exact .inl hold
      · exact .inr (List.mem_cons_of_mem _ hmem)

/-- A row stays while rows with other keys are put. -/
theorem mem_foldl_put_of_other {t : KeyedTable α key} {rows : List α} {a : α} (ha : a ∈ t.rows)
    (h : key a ∉ rows.map key) : a ∈ (rows.foldl put t).rows := by
  induction rows generalizing t with
  | nil => exact ha
  | cons b rows ih =>
      rw [List.map_cons, List.mem_cons, not_or] at h
      exact ih (mem_put.mpr (.inr ⟨ha, h.1⟩)) h.2

/-- The last rows put stand in the table. -/
theorem mem_foldl_put {t : KeyedTable α key} {rows : List α} (h : (rows.map key).Nodup) {a : α}
    (ha : a ∈ rows) : a ∈ (rows.foldl put t).rows := by
  induction rows generalizing t with
  | nil => cases ha
  | cons b rows ih =>
      rw [List.map_cons, List.nodup_cons] at h
      rw [List.foldl_cons]
      rcases List.mem_cons.mp ha with rfl | ha
      · exact mem_foldl_put_of_other (mem_put.mpr (.inl rfl)) h.1
      · exact ih h.2 ha

end KeyedTable
