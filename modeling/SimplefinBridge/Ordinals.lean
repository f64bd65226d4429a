import SimplefinBridge.Ids
import SimplefinBridge.Library.Occurrences
import SimplefinBridge.Library.Sorting
import SimplefinBridge.Library.Transactional
import Mathlib.Data.List.ReduceOption

/-!
# Ordinals

`assignTransactionIds` runs through the rows in an order of its own, with a
counter for every base id, and writes each row back to its place.  Seen from
a single row this is simple: its ordinal is one more than the number of rows
with its base id that come before it in the order, and the batch gets ids
exactly when every row does (`assignTransactionIds_ok_iff`).
-/

namespace SimplefinBridge

open Occurrences Sorting Transactional

section
variable (host : Host)

/-! ## The order -/

/-- `a` comes before `b`. -/
def precedes (a b : IndexedRow) : Bool := (compareForOrdinals host a b).isLT

/-- How many rows with the same base id come before the row. -/
def earlierTwins (rows : List TransactionFields) (entry : IndexedRow) : Nat :=
  earlier (fun e => baseTransactionId host e.1) (precedes host) rows.zipIdx entry

/-- The row with the id that its base id and its earlier twins give it. -/
def numberedRow (rows : List TransactionFields) (entry : IndexedRow) :
    Except BridgeError LedgerTransaction := do
  let base ← baseTransactionId host entry.1
  let ordinal := earlierTwins host rows entry + 1
  let id ← if ordinal ≥ 2 then assertId (ordinalId base ordinal) else .ok base
  return { entry.1 with id }

instance transCmp_compareForOrdinals : Std.TransCmp (compareForOrdinals host) := by
  have hcharge := transCmp_key host.localeCompare fun e : IndexedRow =>
    e.1.chargeDate.getD ""
  have hidentifier := transCmp_key host.localeCompare fun e : IndexedRow =>
    e.1.identifier.getD ""
  have hindex := transCmp_key compare fun e : IndexedRow => e.2
  have hrest := transCmp_then (fun a b : IndexedRow =>
    host.localeCompare (a.1.identifier.getD "") (b.1.identifier.getD "")) fun a b => compare a.2 b.2
  exact transCmp_then _ _

theorem precedes_asymm (a b : IndexedRow) (h : precedes host a b = true) :
    precedes host b a = false := by
  unfold precedes at h ⊢
  rw [@Std.OrientedCmp.eq_swap _ (compareForOrdinals host), Ordering.isLT_swap]
  grind [Ordering.isLT, Ordering.isGT]

/-- Only one place of the scrape compares as equal. -/
theorem place_eq_of_compare_eq {a b : IndexedRow} (h : compareForOrdinals host a b = .eq) :
    a.2 = b.2 := by
  unfold compareForOrdinals at h
  rw [Ordering.then_eq_eq, Ordering.then_eq_eq] at h
  exact compare_eq_iff_eq.mp h.2.2

/-- The rows in the order of ordinal assignment. -/
def ordered (rows : List TransactionFields) : List IndexedRow :=
  rows.zipIdx.insertionSort fun a b => (compareForOrdinals host a b).isLE

theorem ordered_perm (rows : List TransactionFields) : (ordered host rows).Perm rows.zipIdx :=
  List.perm_insertionSort _ _

theorem ordered_pairwise (rows : List TransactionFields) :
    (ordered host rows).Pairwise fun a b => precedes host a b = true := by
  have hplaces : rows.zipIdx.Pairwise fun a b => a.2 ≠ b.2 := by
    have hnodup : (rows.zipIdx.map Prod.snd).Nodup := by
      rw [List.zipIdx_map_snd]
      exact List.nodup_range'
    exact List.pairwise_map.mp hnodup
  have hdistinct : (ordered host rows).Pairwise fun a b => a.2 ≠ b.2 :=
    ((ordered_perm host rows).pairwise_iff fun h => h.symm).mpr hplaces
  have hsorted : (ordered host rows).Pairwise fun a b => (compareForOrdinals host a b).isLE :=
    pairwise_insertionSort_isLE _ _
  apply (hsorted.and hdistinct).imp
  intro a b h
  obtain ⟨hle, hne⟩ := h
  unfold precedes
  cases hcompare : compareForOrdinals host a b with
  | lt => rfl
  | eq => exact absurd (place_eq_of_compare_eq host hcompare) hne
  | gt =>
      rw [hcompare] at hle
      cases hle

/-! ## Running through the order -/

variable {host} {rows : List TransactionFields}

/-- What has been assigned once `done` has passed: the counters count it, and
its rows stand numbered in their places. -/
structure Filled (host : Host) (rows : List TransactionFields) (done : List IndexedRow)
    (assignment : Assignment) : Prop where
  numbered : ∀ entry ∈ done, ∃ row, numberedRow host rows entry = .ok row
  seen : ∀ base, (assignment.seen.lookup base).getD 0 =
    (group (fun e : IndexedRow => baseTransactionId host e.1) (.ok base) done).length
  result : assignment.result = rows.zipIdx.map fun entry =>
    if entry ∈ done then (numberedRow host rows entry).toOption else none

theorem filled_start : Filled host rows [] ⟨[], List.replicate rows.length none⟩ where
  numbered := fun _ h => absurd h List.not_mem_nil
  seen _ := rfl
  result := by simp

/-- The counter reads the earlier twins when a row is reached. -/
theorem Filled.ordinal {done rest : List IndexedRow} {entry : IndexedRow} {assignment : Assignment}
    (h : Filled host rows done assignment) (hsplit : ordered host rows = done ++ entry :: rest)
    {base : String} (hbase : baseTransactionId host entry.1 = .ok base) :
    (assignment.seen.lookup base).getD 0 = earlierTwins host rows entry := by
  have hsorted := ordered_pairwise host rows
  rw [hsplit] at hsorted
  unfold earlierTwins
  rw [h.seen, ← earlier_perm (ordered_perm host rows), hsplit,
    earlier_of_pairwise (precedes_asymm host) hsorted, hbase]

/-- Writing a row to its place. -/
theorem set_place {γ : Type} {entry : IndexedRow} (hentry : entry ∈ rows.zipIdx) (f : IndexedRow → γ)
    (c : γ) : (rows.zipIdx.map f).set entry.2 c =
      rows.zipIdx.map fun e => if e = entry then c else f e := by
  obtain ⟨fields, place⟩ := entry
  have hfields : rows[place]? = some fields := List.mem_zipIdx_iff_getElem?.mp hentry
  apply List.ext_getElem
  · simp
  · intro i hi hi'
    simp only [List.getElem_set, List.getElem_map, List.getElem_zipIdx, Nat.zero_add]
    by_cases hplace : place = i
    · subst hplace
      obtain ⟨hlt, hsame⟩ := List.getElem?_eq_some_iff.mp hfields
      rw [if_pos rfl, if_pos (by rw [hsame])]
    · rw [if_neg hplace, if_neg fun h => hplace (congrArg Prod.snd h).symm]

/-- A row whose base id is known takes the next number of its counter. -/
theorem Filled.assignId_eq {done rest : List IndexedRow} {entry : IndexedRow}
    {assignment : Assignment} (h : Filled host rows done assignment)
    (hsplit : ordered host rows = done ++ entry :: rest) {base : String}
    (hbase : baseTransactionId host entry.1 = .ok base) :
    assignId host assignment entry = (numberedRow host rows entry).map fun row =>
      { seen := (base, earlierTwins host rows entry + 1) :: assignment.seen
        result := assignment.result.set entry.2 (some row) } := by
  unfold assignId numberedRow
  rw [hbase]
  dsimp only [bind, Except.bind]
  rw [h.ordinal hsplit hbase]
  by_cases hordinal : earlierTwins host rows entry + 1 ≥ 2
  · rw [if_pos hordinal, if_pos hordinal]
    cases assertId (ordinalId base (earlierTwins host rows entry + 1)) with
    | ok id => rfl
    | error e => rfl
  · rw [if_neg hordinal, if_neg hordinal]
    rfl

theorem Filled.step {done rest : List IndexedRow} {entry : IndexedRow} {assignment : Assignment}
    {row : LedgerTransaction} (h : Filled host rows done assignment)
    (hsplit : ordered host rows = done ++ entry :: rest)
    (hrow : numberedRow host rows entry = .ok row) :
    ∃ next, assignId host assignment entry = .ok next ∧
      Filled host rows (done ++ [entry]) next := by
  obtain ⟨base, hbase, -⟩ := except_bind_ok.mp hrow
  refine ⟨_, by rw [h.assignId_eq hsplit hbase, hrow]; rfl, ?_, ?_, ?_⟩
  · intro other hother
    rcases List.mem_append.mp hother with hold | hnew
    · exact h.numbered other hold
    · rw [List.mem_singleton.mp hnew]
      exact ⟨row, hrow⟩
  · intro other
    have hgroup : group (fun e : IndexedRow => baseTransactionId host e.1) (.ok other)
        (done ++ [entry]) = group (fun e : IndexedRow => baseTransactionId host e.1) (.ok other) done ++
          group (fun e : IndexedRow => baseTransactionId host e.1) (.ok other) [entry] :=
      List.filter_append ..
    rw [hgroup, List.length_append, ← h.seen]
    by_cases hsame : other = base
    · subst hsame
      rw [List.lookup_cons_self, ← h.ordinal hsplit hbase]
      simp [group, hbase]
    · have hother : (other == base) = false := by simpa using hsame
      rw [List.lookup_cons, hother]
      simp [group, hbase, Ne.symm hsame]
  · have hentry : entry ∈ rows.zipIdx := by
      rw [← (ordered_perm host rows).mem_iff, hsplit]
      exact List.mem_append_right _ List.mem_cons_self
    rw [h.result]
    dsimp only
    rw [set_place hentry]
    apply List.map_congr_left
    intro other _
    by_cases hsame : other = entry
    · subst hsame
      rw [if_pos rfl, if_pos (List.mem_append_right _ List.mem_cons_self), hrow]
      rfl
    · rw [if_neg hsame]
      simp [hsame]

theorem Filled.refused {done rest : List IndexedRow} {entry : IndexedRow} {assignment : Assignment}
    {e : BridgeError} (h : Filled host rows done assignment)
    (hsplit : ordered host rows = done ++ entry :: rest)
    (hrow : numberedRow host rows entry = .error e) :
    assignId host assignment entry = .error e := by
  cases hbase : baseTransactionId host entry.1 with
  | ok base =>
      rw [h.assignId_eq hsplit hbase, hrow]
      rfl
  | error e' =>
      unfold assignId
      unfold numberedRow at hrow
      rw [hbase] at hrow ⊢
      cases hrow
      rfl

/-- The first refused row of the order, if a row is refused. -/
structure FirstRefused (host : Host) (rows : List TransactionFields) (done : List IndexedRow)
    (entry : IndexedRow) (rest : List IndexedRow) (e : BridgeError) : Prop where
  split : ordered host rows = done ++ entry :: rest
  accepted : ∀ other ∈ done, ∃ row, numberedRow host rows other = .ok row
  refused : numberedRow host rows entry = .error e

theorem FirstRefused.mem {done rest : List IndexedRow} {entry : IndexedRow} {e : BridgeError}
    (h : FirstRefused host rows done entry rest e) : entry ∈ rows.zipIdx := by
  rw [← (ordered_perm host rows).mem_iff, h.split]
  exact List.mem_append_right _ List.mem_cons_self

/-- The run through the order ends filled, or at the first refused row. -/
theorem Filled.run {done rest : List IndexedRow} {assignment : Assignment}
    (h : Filled host rows done assignment) (hsplit : ordered host rows = done ++ rest) :
    (∃ final, rest.foldlM (assignId host) assignment = .ok final ∧
      Filled host rows (ordered host rows) final) ∨
    ∃ e, rest.foldlM (assignId host) assignment = .error e ∧
      ∃ before entry after, FirstRefused host rows before entry after e := by
  induction rest generalizing done assignment with
  | nil =>
      rw [List.append_nil] at hsplit
      rw [hsplit]
      exact .inl ⟨assignment, rfl, h⟩
  | cons entry rest ih =>
      rw [List.foldlM_cons]
      cases hrow : numberedRow host rows entry with
      | ok row =>
          obtain ⟨next, hnext, hfilled⟩ := h.step hsplit hrow
          have hrest : ordered host rows = done ++ [entry] ++ rest := by
            rw [List.append_assoc, List.singleton_append, hsplit]
          rw [hnext]
          exact ih hfilled hrest
      | error e =>
          rw [h.refused hsplit hrow]
          exact .inr ⟨e, rfl, done, entry, rest, hsplit, h.numbered, hrow⟩

/-- All rows filled in, in the order of the input. -/
theorem Filled.final {assignment : Assignment}
    (h : Filled host rows (ordered host rows) assignment) :
    rows.zipIdx.map (numberedRow host rows) = assignment.result.reduceOption.map .ok := by
  have hnumbered : ∀ entry ∈ rows.zipIdx, ∃ row, numberedRow host rows entry = .ok row := by
    intro entry hentry
    exact h.numbered entry ((ordered_perm host rows).mem_iff.mpr hentry)
  have hall : assignment.result = rows.zipIdx.map fun e => (numberedRow host rows e).toOption := by
    rw [h.result]
    apply List.map_congr_left
    intro entry hentry
    rw [if_pos ((ordered_perm host rows).mem_iff.mpr hentry)]
  rw [hall]
  clear hall h
  revert hnumbered
  generalize rows.zipIdx = entries
  intro hnumbered
  induction entries with
  | nil => rfl
  | cons entry rest ih =>
      obtain ⟨row, hrow⟩ := hnumbered entry List.mem_cons_self
      rw [List.map_cons, List.map_cons, hrow]
      change _ = List.map _ (List.reduceOption (some row :: _))
      rw [List.reduceOption_cons_of_some, List.map_cons,
        ih fun other hother => hnumbered other (List.mem_cons_of_mem _ hother)]

/-- **Ids row by row.**  A batch gets ids exactly when every row does, and then
each row has the id of its base and its earlier twins. -/
theorem assignTransactionIds_ok_iff {result : List LedgerTransaction} :
    assignTransactionIds host rows = .ok result ↔
      rows.zipIdx.map (numberedRow host rows) = result.map .ok := by
  have hstart : Filled host rows [] ⟨[], List.replicate rows.length none⟩ := filled_start
  have hrun := hstart.run (show ordered host rows = [] ++ ordered host rows from rfl)
  unfold assignTransactionIds
  change (ordered host rows).foldlM (assignId host) ⟨[], List.replicate rows.length none⟩ >>= _ = _ ↔ _
  rcases hrun with hok | hrefused
  · obtain ⟨final, hfold, hfilled⟩ := hok
    rw [hfold, hfilled.final]
    have hinjective : Function.Injective (Except.ok : LedgerTransaction → Except BridgeError _) :=
      fun _ _ h => Except.ok.inj h
    rw [(List.map_injective_iff.mpr hinjective).eq_iff]
    constructor
    · exact Except.ok.inj
    · exact congrArg Except.ok
  · obtain ⟨e, hfold, before, entry, after, hfirst⟩ := hrefused
    rw [hfold]
    constructor
    · intro h
      cases h
    · intro h
      have hmem : Except.error e ∈ result.map .ok := by
        rw [← h, ← hfirst.refused]
        exact List.mem_map_of_mem hfirst.mem
      obtain ⟨row, -, hrow⟩ := List.mem_map.mp hmem
      cases hrow

/-- A refused batch is refused for the first refused row of the order. -/
theorem assignTransactionIds_error {e : BridgeError}
    (h : assignTransactionIds host rows = .error e) :
    ∃ before entry after, FirstRefused host rows before entry after e := by
  have hstart : Filled host rows [] ⟨[], List.replicate rows.length none⟩ := filled_start
  unfold assignTransactionIds at h
  change (ordered host rows).foldlM (assignId host) ⟨[], List.replicate rows.length none⟩ >>= _ = _
    at h
  rcases hstart.run (show ordered host rows = [] ++ ordered host rows from rfl) with
    ⟨final, hfold, -⟩ | ⟨e', hfold, hfirst⟩
  · rw [hfold] at h
    cases h
  · rw [hfold] at h
    obtain rfl := Except.error.inj h
    exact hfirst

end

end SimplefinBridge
