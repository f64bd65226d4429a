import Mathlib.Algebra.BigOperators.Group.List.Basic
import Mathlib.Data.List.Induction
import Mathlib.Data.List.Perm.Basic
import SimplefinBridge.Library.KeyedTable
import SimplefinBridge.Library.Transactional

/-!
# Grouped totals

Items are added one after another to the group of their key.  The first item of
a key makes the value of its group, which may fail; every later one only adds
its amount.  Where items of one key make the same value, the groups do not
depend on the order of the items (`IsTally.perm`), and the totals of the groups
that satisfy a condition are the amounts of the items that do
(`IsTally.sum_totals`).
-/

universe u

/-- A group: its key, the value its first item made, and what it adds up to. -/
structure Tally (κ α M : Type u) where
  key : κ
  value : α
  total : M

abbrev Tallies (κ α M : Type u) := KeyedTable (Tally κ α M) Tally.key

namespace Tallies

variable {κ α M ε ι : Type u} [DecidableEq κ] [AddCommMonoid M]

/-- Add an amount to the group of a key, or make the group. -/
def add (groups : Tallies κ α M) (key : κ) (make : Except ε α) (amount : M) :
    Except ε (Tallies κ α M) :=
  match groups.find key with
  | some group => .ok (groups.put { group with total := group.total + amount })
  | none => make.map fun value => groups.put ⟨key, value, amount⟩

variable (key : ι → κ) (make : ι → Except ε α) (amount : ι → M)

/-- Add items one after another. -/
def addAll (groups : Tallies κ α M) (items : List ι) : Except ε (Tallies κ α M) :=
  items.foldlM (fun groups item => add groups (key item) (make item) (amount item)) groups

/-- What the items of a key add up to. -/
def totalOf (items : List ι) (k : κ) : M := ((items.filter (key · = k)).map amount).sum

/-- Items of one key make the same value. -/
def Determined (items : List ι) : Prop :=
  ∀ a ∈ items, ∀ b ∈ items, key a = key b → make a = make b

/-- The groups of a list of items. -/
structure IsTally (items : List ι) (groups : Tallies κ α M) : Prop where
  group : ∀ g ∈ groups.rows, g.total = totalOf key amount items g.key ∧
    ∃ item ∈ items, key item = g.key ∧ make item = .ok g.value
  each : ∀ item ∈ items, ∃ g ∈ groups.rows, g.key = key item

variable {key make amount} {items items' : List ι} {groups groups' : Tallies κ α M}

theorem totalOf_append (item : ι) (k : κ) :
    totalOf key amount (items ++ [item]) k =
      totalOf key amount items k + if key item = k then amount item else 0 := by
  unfold totalOf
  rw [List.filter_append, List.map_append, List.sum_append]
  by_cases hkey : key item = k
  · simp [hkey]
  · simp [hkey]

theorem totalOf_perm (h : items.Perm items') (k : κ) :
    totalOf key amount items k = totalOf key amount items' k :=
  ((h.filter _).map amount).sum_eq

omit [DecidableEq κ] in
theorem Determined.of_perm (h : Determined key make items) (hperm : items.Perm items') :
    Determined key make items' := fun a ha b hb =>
  h a (hperm.mem_iff.mpr ha) b (hperm.mem_iff.mpr hb)

/-! ## One item -/

/-- An item of a known key adds its amount. -/
theorem IsTally.add_known {item : ι} {g : Tally κ α M} (h : IsTally key make amount items groups)
    (hfind : groups.find (key item) = some g) :
    IsTally key make amount (items ++ [item])
      (groups.put { g with total := g.total + amount item }) := by
  have hkey : g.key = key item := KeyedTable.key_of_find hfind
  obtain ⟨htotal, source, hsource, hsourceKey, hmake⟩ := h.group g (KeyedTable.mem_of_find hfind)
  constructor
  · intro g' hg'
    rcases KeyedTable.mem_put.mp hg' with rfl | ⟨hg', hother⟩
    · refine ⟨?_, source, List.mem_append_left _ hsource, hsourceKey, hmake⟩
      change g.total + amount item = totalOf key amount (items ++ [item]) g.key
      rw [totalOf_append, htotal, if_pos hkey.symm]
    · obtain ⟨htotal', source', hsource', hsourceKey', hmake'⟩ := h.group g' hg'
      have hne : key item ≠ g'.key := fun heq => hother (heq.symm.trans hkey.symm)
      refine ⟨?_, source', List.mem_append_left _ hsource', hsourceKey', hmake'⟩
      rw [totalOf_append, if_neg hne, add_zero, htotal']
  · intro other hother
    have hnew : ∃ g' ∈ (groups.put { g with total := g.total + amount item }).rows,
        g'.key = g.key := ⟨_, KeyedTable.mem_put.mpr (.inl rfl), rfl⟩
    rcases List.mem_append.mp hother with hother | hother
    · obtain ⟨g', hg', hkey'⟩ := h.each other hother
      by_cases hsame : g'.key = g.key
      · rw [← hkey', hsame]
        exact hnew
      · exact ⟨g', KeyedTable.mem_put.mpr (.inr ⟨hg', hsame⟩), hkey'⟩
    · rw [List.mem_singleton.mp hother, ← hkey]
      exact hnew

/-- An item of a new key makes its group. -/
theorem IsTally.add_new {item : ι} {value : α} (h : IsTally key make amount items groups)
    (hfind : groups.find (key item) = none) (hmake : make item = .ok value) :
    IsTally key make amount (items ++ [item]) (groups.put ⟨key item, value, amount item⟩) := by
  have hfree : ∀ other ∈ items, key other ≠ key item := by
    intro other hother heq
    obtain ⟨g, hg, hkey⟩ := h.each other hother
    exact KeyedTable.find_eq_none.mp hfind g hg (hkey.trans heq)
  have hzero : totalOf key amount items (key item) = 0 := by
    unfold totalOf
    rw [List.filter_eq_nil_iff.mpr, List.map_nil, List.sum_nil]
    intro other hother hkey
    exact hfree other hother (of_decide_eq_true hkey)
  constructor
  · intro g hg
    rcases KeyedTable.mem_put.mp hg with rfl | ⟨hg, hother⟩
    · refine ⟨?_, item, List.mem_append_right _ List.mem_cons_self, rfl, hmake⟩
      change amount item = _
      rw [totalOf_append, hzero, if_pos rfl, zero_add]
    · obtain ⟨htotal, source, hsource, hkey, hsourceMake⟩ := h.group g hg
      have hne : key item ≠ g.key := fun heq => hother heq.symm
      refine ⟨?_, source, List.mem_append_left _ hsource, hkey, hsourceMake⟩
      rw [totalOf_append, if_neg hne, add_zero, htotal]
  · intro other hother
    rcases List.mem_append.mp hother with hother | hother
    · obtain ⟨g, hg, hkey⟩ := h.each other hother
      have hne : g.key ≠ key item := by
        rw [hkey]
        exact hfree other hother
      exact ⟨g, KeyedTable.mem_put.mpr (.inr ⟨hg, hne⟩), hkey⟩
    · rw [List.mem_singleton.mp hother]
      exact ⟨_, KeyedTable.mem_put.mpr (.inl rfl), rfl⟩

theorem isTally_nil : IsTally key make amount [] (KeyedTable.empty : Tallies κ α M) :=
  ⟨fun _ hg => absurd hg List.not_mem_nil, fun _ hi => absurd hi List.not_mem_nil⟩

/-! ## Runs -/

/-- **A run** has the groups of its items. -/
theorem addAll_isTally (h : addAll key make amount .empty items = .ok groups) :
    IsTally key make amount items groups := by
  induction items using List.reverseRecOn generalizing groups with
  | nil =>
      obtain rfl := Except.ok.inj h
      exact isTally_nil
  | append_singleton items item ih =>
      unfold addAll at h
      rw [List.foldlM_append] at h
      obtain ⟨before, hbefore, h⟩ := Transactional.except_bind_ok.mp h
      rw [List.foldlM_cons] at h
      obtain ⟨after, hafter, h⟩ := Transactional.except_bind_ok.mp h
      obtain rfl := Except.ok.inj h
      have hitems := ih hbefore
      unfold add at hafter
      cases hfind : before.find (key item) with
      | some g =>
          rw [hfind] at hafter
          rw [← Except.ok.inj hafter]
          exact hitems.add_known hfind
      | none =>
          rw [hfind] at hafter
          cases hmake : make item with
          | error e =>
              rw [hmake] at hafter
              cases hafter
          | ok value =>
              rw [hmake] at hafter
              rw [← Except.ok.inj hafter]
              exact hitems.add_new hfind hmake

/-- **A run succeeds** exactly when every item can make its group. -/
theorem addAll_isOk (hdetermined : Determined key make items) :
    (∃ groups : Tallies κ α M, addAll key make amount .empty items = .ok groups) ↔
      ∀ item ∈ items, ∃ value, make item = .ok value := by
  constructor
  · intro h item hitem
    obtain ⟨groups, hgroups⟩ := h
    have htally := addAll_isTally hgroups
    obtain ⟨g, hg, hkey⟩ := htally.each item hitem
    obtain ⟨-, source, hsource, hsourceKey, hmake⟩ := htally.group g hg
    refine ⟨g.value, ?_⟩
    rw [hdetermined item hitem source hsource (hkey.symm.trans hsourceKey.symm), hmake]
  · intro h
    have hrun : ∀ groups : Tallies κ α M, ∃ groups', addAll key make amount groups items =
        .ok groups' := by
      clear hdetermined
      induction items with
      | nil => exact fun groups => ⟨groups, rfl⟩
      | cons item items ih =>
          intro groups
          obtain ⟨value, hmake⟩ := h item List.mem_cons_self
          have hstep : ∃ next, add groups (key item) (make item) (amount item) = .ok next := by
            unfold add
            cases groups.find (key item) with
            | some g => exact ⟨_, rfl⟩
            | none =>
                rw [hmake]
                exact ⟨_, rfl⟩
          obtain ⟨next, hnext⟩ := hstep
          obtain ⟨groups', hgroups'⟩ := ih (fun i hi => h i (List.mem_cons_of_mem _ hi)) next
          refine ⟨groups', ?_⟩
          unfold addAll
          rw [List.foldlM_cons, hnext]
          exact hgroups'
    exact hrun .empty

/-! ## Order and sums -/

/-- **The order** of the items does not matter. -/
theorem IsTally.perm (h : IsTally key make amount items groups)
    (h' : IsTally key make amount items' groups') (hdetermined : Determined key make items)
    (hperm : items.Perm items') : groups.rows.Perm groups'.rows := by
  have hsame : ∀ {items items' : List ι} {groups groups' : Tallies κ α M},
      IsTally key make amount items groups → IsTally key make amount items' groups' →
        Determined key make items → items.Perm items' → ∀ g ∈ groups.rows, g ∈ groups'.rows := by
    intro items items' groups groups' h h' hdetermined hperm g hg
    obtain ⟨htotal, item, hitem, hkey, hmake⟩ := h.group g hg
    obtain ⟨g', hg', hkey'⟩ := h'.each item (hperm.mem_iff.mp hitem)
    obtain ⟨htotal', item', hitem', hitemKey', hmake'⟩ := h'.group g' hg'
    have hgroup : g'.key = g.key := hkey'.trans hkey
    have hvalue : g'.value = g.value := by
      have hmakes := hdetermined item hitem item' (hperm.mem_iff.mpr hitem')
        (hkey'.symm.trans hitemKey'.symm)
      rw [hmake, hmake'] at hmakes
      exact (Except.ok.inj hmakes).symm
    have htotals : g'.total = g.total := by
      rw [htotal, htotal', hgroup, totalOf_perm hperm]
    have heq : g' = g := by
      cases g
      cases g'
      congr
    rwa [← heq]
  refine (List.perm_ext_iff_of_nodup groups.nodup.of_map groups'.nodup.of_map).mpr fun g => ?_
  exact ⟨hsame h h' hdetermined hperm g, hsame h' h (hdetermined.of_perm hperm) hperm.symm g⟩

theorem sum_indicator {keys : List κ} (hnodup : keys.Nodup) (k : κ) (m : M) :
    (keys.map fun other => if k = other then m else 0).sum = if k ∈ keys then m else 0 := by
  induction keys with
  | nil => rfl
  | cons first keys ih =>
      rw [List.nodup_cons] at hnodup
      rw [List.map_cons, List.sum_cons, ih hnodup.2]
      by_cases hfirst : k = first
      · rw [← hfirst] at hnodup
        rw [if_pos hfirst, if_neg hnodup.1, if_pos (List.mem_cons.mpr (.inl hfirst)), add_zero]
      · by_cases hmem : k ∈ keys
        · rw [if_neg hfirst, if_pos hmem, if_pos (List.mem_cons_of_mem _ hmem), zero_add]
        · have hnot : k ∉ first :: keys := fun h =>
            (List.mem_cons.mp h).elim hfirst hmem
          rw [if_neg hfirst, if_neg hmem, if_neg hnot, zero_add]

/-- The totals of distinct keys are the amounts of the items of these keys. -/
theorem sum_totalOf {keys : List κ} (hnodup : keys.Nodup) :
    (keys.map (totalOf key amount items)).sum =
      ((items.filter fun item => key item ∈ keys).map amount).sum := by
  induction items using List.reverseRecOn with
  | nil =>
      have hzero : keys.map (totalOf key amount ([] : List ι)) = keys.map fun _ => (0 : M) := rfl
      rw [hzero, List.filter_nil, List.map_nil, List.sum_nil]
      exact List.sum_eq_zero fun m hm => by
        obtain ⟨k, -, rfl⟩ := List.mem_map.mp hm
        rfl
  | append_singleton items item ih =>
      have hsplit : keys.map (totalOf key amount (items ++ [item])) = keys.map fun k =>
          totalOf key amount items k + if key item = k then amount item else 0 :=
        List.map_congr_left fun k _ => totalOf_append item k
      rw [hsplit, List.sum_map_add, ih, sum_indicator hnodup, List.filter_append,
        List.map_append, List.sum_append]
      by_cases hmem : key item ∈ keys
      · simp [hmem]
      · simp [hmem]

/-- **The groups that satisfy a condition** add up to the items that do. -/
theorem IsTally.sum_totals (h : IsTally key make amount items groups)
    (hdetermined : Determined key make items) {P : α → Bool} {Q : ι → Bool}
    (hcondition : ∀ item ∈ items, ∀ value, make item = .ok value → P value = Q item) :
    ((groups.rows.filter fun g => P g.value).map Tally.total).sum =
      ((items.filter Q).map amount).sum := by
  have htotals : (groups.rows.filter fun g => P g.value).map Tally.total =
      ((groups.rows.filter fun g => P g.value).map Tally.key).map (totalOf key amount items) := by
    rw [List.map_map]
    exact List.map_congr_left fun g hg => (h.group g (List.mem_of_mem_filter hg)).1
  have hnodup : ((groups.rows.filter fun g => P g.value).map Tally.key).Nodup :=
    groups.nodup.sublist (List.filter_sublist.map Tally.key)
  rw [htotals, sum_totalOf hnodup]
  congr 2
  refine List.filter_congr fun item hitem => ?_
  obtain ⟨g, hg, hkey⟩ := h.each item hitem
  obtain ⟨-, source, hsource, hsourceKey, hmake⟩ := h.group g hg
  have hown : make item = .ok g.value := by
    rw [hdetermined item hitem source hsource (hkey.symm.trans hsourceKey.symm), hmake]
  rw [← hcondition item hitem g.value hown]
  by_cases hvalue : P g.value = true
  · rw [hvalue, decide_eq_true_eq, ← hkey]
    exact List.mem_map_of_mem (List.mem_filter.mpr ⟨hg, hvalue⟩)
  · rw [Bool.not_eq_true] at hvalue
    rw [hvalue, decide_eq_false_iff_not]
    intro hmem
    obtain ⟨other, hother, hsame⟩ := List.mem_map.mp hmem
    obtain ⟨hotherMem, hotherValue⟩ := List.mem_filter.mp hother
    rw [KeyedTable.eq_of_key_eq hotherMem hg (hsame.trans hkey.symm), hvalue] at hotherValue
    cases hotherValue

end Tallies
