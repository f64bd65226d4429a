import SimplefinBridge.Library.Transactional

/-!
# Items that are to agree

An item is added to a list unless the list has one of its key already, which
must then have its value.  A run of additions goes through exactly when all
items of one key have one value (`addAll_isOk`), and what it leaves are items
that were there or were added, exactly one for every key (`addAll_kept`,
`addAll_nodup`).
-/

namespace Agreements

open Transactional (except_bind_ok)

universe u v

variable {α ε : Type u} {κ β : Type v} [DecidableEq κ] [DecidableEq β]
  (key : α → κ) (val : α → β) (conflict : ε)

/-- Items of one key have one value. -/
def Agree (items : List α) : Prop :=
  ∀ a ∈ items, ∀ b ∈ items, key a = key b → val a = val b

/-- Add an item, unless there is one of its key. -/
def add (rows : List α) (item : α) : Except ε (List α) :=
  match rows.find? fun row => key row = key item with
  | some row => if val row ≠ val item then .error conflict else .ok rows
  | none => .ok (rows ++ [item])

/-- Add the items one after another. -/
def addAll (rows items : List α) : Except ε (List α) := items.foldlM (add key val conflict) rows

variable {key val conflict} {rows rows' items : List α} {item : α}

omit [DecidableEq κ] [DecidableEq β] in
theorem Agree.of_subset (h : Agree key val items) (hsubset : rows ⊆ items) : Agree key val rows :=
  fun a ha b hb => h a (hsubset ha) b (hsubset hb)

/-- What one addition leaves. -/
theorem add_ok (h : add key val conflict rows item = .ok rows') :
    (rows' = rows ∧ ∃ row ∈ rows, key row = key item ∧ val row = val item) ∨
      (rows' = rows ++ [item] ∧ ∀ row ∈ rows, key row ≠ key item) := by
  unfold add at h
  cases hfind : rows.find? fun row => key row = key item with
  | some row =>
      rw [hfind] at h
      dsimp only at h
      by_cases hval : val row = val item
      · rw [if_neg (not_not.mpr hval)] at h
        have hkey := List.find?_some hfind
        exact .inl ⟨(Except.ok.inj h).symm, row, List.mem_of_find?_eq_some hfind,
          of_decide_eq_true hkey, hval⟩
      · rw [if_pos hval] at h
        cases h
  | none =>
      rw [hfind] at h
      refine .inr ⟨(Except.ok.inj h).symm, fun row hrow => ?_⟩
      exact of_decide_eq_false (Bool.eq_false_iff.mpr (List.find?_eq_none.mp hfind row hrow))

/-- An addition goes through where the item agrees with those of its key. -/
theorem add_isOk (h : ∀ row ∈ rows, key row = key item → val row = val item) :
    ∃ rows', add key val conflict rows item = .ok rows' := by
  unfold add
  cases hfind : rows.find? fun row => key row = key item with
  | some row =>
      have hkey := List.find?_some hfind
      have hval := h row (List.mem_of_find?_eq_some hfind) (of_decide_eq_true hkey)
      exact ⟨rows, if_neg (not_not.mpr hval)⟩
  | none => exact ⟨rows ++ [item], rfl⟩

theorem addAll_cons : addAll key val conflict rows (item :: items) =
    (add key val conflict rows item >>= fun mid => addAll key val conflict mid items) :=
  List.foldlM_cons

/-- **What a run leaves**: rows and items only, all rows, one for every key. -/
theorem addAll_kept (h : addAll key val conflict rows items = .ok rows') :
    (∀ a ∈ rows', a ∈ rows ∨ a ∈ items) ∧ rows <+: rows' ∧
      ∀ item ∈ items, ∃ row ∈ rows', key row = key item ∧ val row = val item := by
  induction items generalizing rows with
  | nil =>
      obtain rfl : rows = rows' := Except.ok.inj h
      exact ⟨fun a ha => .inl ha, List.prefix_refl _, fun item hitem => absurd hitem List.not_mem_nil⟩
  | cons item items ih =>
      rw [addAll_cons] at h
      obtain ⟨mid, hadd, hrest⟩ := except_bind_ok.mp h
      obtain ⟨hfrom, hfront, heach⟩ := ih hrest
      have hmid : (∀ a ∈ mid, a ∈ rows ∨ a = item) ∧ rows <+: mid ∧
          ∃ row ∈ mid, key row = key item ∧ val row = val item := by
        rcases add_ok hadd with ⟨rfl, hrow⟩ | ⟨rfl, -⟩
        · exact ⟨fun a ha => .inl ha, List.prefix_refl _, hrow⟩
        · refine ⟨fun a ha => ?_, List.prefix_append _ _, item,
            List.mem_append_right _ (List.mem_singleton_self _), rfl, rfl⟩
          rcases List.mem_append.mp ha with hold | hnew
          · exact .inl hold
          · exact .inr (List.mem_singleton.mp hnew)
      obtain ⟨hmidFrom, hmidFront, row, hrow, hsame⟩ := hmid
      refine ⟨fun a ha => ?_, hmidFront.trans hfront, fun other hother => ?_⟩
      · rcases hfrom a ha with hold | hnew
        · rcases hmidFrom a hold with hold | rfl
          · exact .inl hold
          · exact .inr List.mem_cons_self
        · exact .inr (List.mem_cons_of_mem _ hnew)
      · rcases List.mem_cons.mp hother with rfl | hother
        · exact ⟨row, hfront.subset hrow, hsame⟩
        · exact heach other hother

/-- A run leaves no key twice. -/
theorem addAll_nodup (h : addAll key val conflict rows items = .ok rows')
    (hrows : (rows.map key).Nodup) : (rows'.map key).Nodup := by
  induction items generalizing rows with
  | nil =>
      obtain rfl : rows = rows' := Except.ok.inj h
      exact hrows
  | cons item items ih =>
      rw [addAll_cons] at h
      obtain ⟨mid, hadd, hrest⟩ := except_bind_ok.mp h
      refine ih hrest ?_
      rcases add_ok hadd with ⟨rfl, -⟩ | ⟨rfl, hnew⟩
      · exact hrows
      · rw [List.map_append, List.map_singleton]
        refine List.nodup_append.mpr ⟨hrows, List.nodup_cons.mpr ⟨List.not_mem_nil, .nil⟩, ?_⟩
        intro k hmem k' hk
        obtain ⟨row, hrow, hkey⟩ := List.mem_map.mp hmem
        rw [List.mem_singleton.mp hk, ← hkey]
        exact hnew row hrow

/-- **A run goes through** exactly when the rows and the items agree. -/
theorem addAll_isOk (hrows : Agree key val rows) :
    (∃ rows', addAll key val conflict rows items = .ok rows') ↔ Agree key val (rows ++ items) := by
  induction items generalizing rows with
  | nil =>
      rw [List.append_nil]
      exact iff_of_true ⟨rows, rfl⟩ hrows
  | cons item items ih =>
      constructor
      · rintro ⟨rows', h⟩
        rw [addAll_cons] at h
        obtain ⟨mid, hadd, hrest⟩ := except_bind_ok.mp h
        rcases add_ok hadd with ⟨rfl, row, hrow, hkey, hval⟩ | ⟨rfl, hnew⟩
        · have hagree := (ih hrows).mp ⟨rows', hrest⟩
          have hfrom : ∀ a ∈ mid ++ item :: items,
              ∃ b ∈ mid ++ items, key a = key b ∧ val a = val b := by
            intro a ha
            rcases List.mem_append.mp ha with hold | hmem
            · exact ⟨a, List.mem_append_left _ hold, rfl, rfl⟩
            · rcases List.mem_cons.mp hmem with rfl | hmem
              · exact ⟨row, List.mem_append_left _ hrow, hkey.symm, hval.symm⟩
              · exact ⟨a, List.mem_append_right _ hmem, rfl, rfl⟩
          intro a ha b hb hsame
          obtain ⟨a', ha', hkeyA, hvalA⟩ := hfrom a ha
          obtain ⟨b', hb', hkeyB, hvalB⟩ := hfrom b hb
          rw [hvalA, hvalB]
          exact hagree a' ha' b' hb' (hkeyA.symm.trans (hsame.trans hkeyB))
        · have hmid : Agree key val (rows ++ [item]) := by
            intro a ha b hb hsame
            rcases List.mem_append.mp ha with holdA | hnewA
            · rcases List.mem_append.mp hb with holdB | hnewB
              · exact hrows a holdA b holdB hsame
              · rw [List.mem_singleton.mp hnewB] at hsame
                exact absurd hsame (hnew a holdA)
            · rcases List.mem_append.mp hb with holdB | hnewB
              · rw [List.mem_singleton.mp hnewA] at hsame
                exact absurd hsame.symm (hnew b holdB)
              · rw [List.mem_singleton.mp hnewA, List.mem_singleton.mp hnewB]
          have hagree := (ih hmid).mp ⟨rows', hrest⟩
          rwa [List.append_assoc, List.singleton_append] at hagree
      · intro hagree
        have hitem : ∀ row ∈ rows, key row = key item → val row = val item := fun row hrow =>
          hagree row (List.mem_append_left _ hrow) item (List.mem_append_right _ List.mem_cons_self)
        obtain ⟨mid, hadd⟩ := @add_isOk _ ε _ _ _ _ key val conflict _ _ hitem
        have hmid : ∀ a ∈ mid, a ∈ rows ++ item :: items := by
          intro a ha
          rcases add_ok hadd with ⟨rfl, -⟩ | ⟨rfl, -⟩
          · exact List.mem_append_left _ ha
          · rcases List.mem_append.mp ha with hold | hnew
            · exact List.mem_append_left _ hold
            · rw [List.mem_singleton.mp hnew]
              exact List.mem_append_right _ List.mem_cons_self
        have hall : Agree key val (mid ++ items) := by
          refine hagree.of_subset fun a ha => ?_
          rcases List.mem_append.mp ha with hold | hnew
          · exact hmid a hold
          · exact List.mem_append_right _ (List.mem_cons_of_mem _ hnew)
        obtain ⟨rows', hrest⟩ := (ih (hall.of_subset (List.subset_append_left _ _))).mpr hall
        refine ⟨rows', ?_⟩
        rw [addAll_cons]
        exact except_bind_ok.mpr ⟨mid, hadd, hrest⟩

end Agreements
