import SimplefinBridge.ClalAcceptance
import SimplefinBridge.Library.Reorderings

/-!
# Deposit histories in another order

Neither the rows of a year nor the years of a history need to come in any
order.  Answers that differ in these orders only (`ReorderedInput`) are read
alike (`readInput_alike`), with the same cells in another order, so that the
source groups and with them the activities are the same.
-/

namespace SimplefinBridge

open Transactional (Alike alike_bind alike_after except_bind_ok)

/-! ## Answers in another order -/

/-- The fields of one key are related, and all others are the same. -/
structure FieldsBut (key : String) (R : JsValue → JsValue → Prop) (fields fields' : JsFields) :
    Prop where
  field : R (JsValue.get fields key) (JsValue.get fields' key)
  other : ∀ other, other ≠ key → JsValue.get fields' other = JsValue.get fields other

/-- Objects that are the same up to the field of a key. -/
inductive SameBut (key : String) (R : JsValue → JsValue → Prop) : JsValue → JsValue → Prop
  | same (value : JsValue) : SameBut key R value value
  | object {fields fields' : JsFields} (h : FieldsBut key R fields fields') :
      SameBut key R (.object fields) (.object fields')

/-- Arrays with the same items in some order. -/
inductive SameItems (R : JsValue → JsValue → Prop) : JsValue → JsValue → Prop
  | same (value : JsValue) : SameItems R value value
  | array {items items' : List JsValue} (h : Reordered R items items') :
      SameItems R (.array items) (.array items')

/-- Years of a pension with the same rows. -/
def SamePensionYear : JsValue → JsValue → Prop :=
  SameBut "TransactionsData" (SameBut "DepositingPerMonthList" (SameItems (· = ·)))

/-- Years of a hishtalmut fund with the same rows. -/
def SameGemelYear : JsValue → JsValue → Prop :=
  SameBut "TransactionsData" (SameBut "GetFundTransPerYearList" (SameItems (· = ·)))

/-- Histories with the same years. -/
def SameYears : ClalFamily → JsValue → JsValue → Prop
  | .pension => SameBut "NDepositingList" (SameItems SamePensionYear)
  | .hishtalmut => SameBut "TransactionsTab"
      (SameBut "TransactionsList" (SameItems SameGemelYear))

/-- A response with its years and rows in another order. -/
structure ReorderedResponse (family : ClalFamily) (response response' : ClalApiResponse) :
    Prop where
  status : response'.status = response.status
  data : SameYears family response.data response'.data

/-- The rows of every year and the years of every history in another order. -/
structure ReorderedInput (input input' : ClalHistoryInput) : Prop where
  pensions : List.Forall₂ (ReorderedResponse .pension) input.pensionDetails input'.pensionDetails
  funds : List.Forall₂ (ReorderedResponse .hishtalmut) input.gemelDetails input'.gemelDetails

/-! ## Readings in another order -/

/-- A year read in another order. -/
structure YearReading.SameAs (reading reading' : YearReading) : Prop where
  year : reading.year = reading'.year
  total : reading.total = reading'.total
  rows : reading.rows.Perm reading'.rows

/-- A history read in another order. -/
structure HistoryReading.SameAs (reading reading' : HistoryReading) : Prop where
  family : reading.family = reading'.family
  productId : reading.productId = reading'.productId
  years : Reordered YearReading.SameAs reading.years reading'.years

section
variable {R : JsValue → JsValue → Prop} {key : String} {value value' : JsValue}

/-- Records that differ in one field. -/
theorem sourceRecord_alike (hrefl : ∀ v, R v v) (h : SameBut key R value value') :
    Alike (FieldsBut key R) (sourceRecord value) (sourceRecord value') := by
  cases h with
  | same value =>
      cases value with
      | object fields => exact .returned ⟨hrefl _, fun _ _ => rfl⟩
      | _ => exact .threw _ _
  | object h => exact .returned h

/-- The checks of success do not look at that field. -/
theorem requireClalSuccess_alike (hrefl : ∀ v, R v v)
    (hkey : key ∉ ["IsSuccess", "IsGeneralError", "ResponseIsAppErrorIsAppError",
      "GetDailyBalanceItemFailed"]) (h : SameBut key R value value') :
    Alike (FieldsBut key R) (requireClalSuccess value) (requireClalSuccess value') := by
  refine alike_bind (sourceRecord_alike hrefl h) fun fields fields' hfields => ?_
  have hsame : ∀ flag ∈ ["IsSuccess", "IsGeneralError", "ResponseIsAppErrorIsAppError",
      "GetDailyBalanceItemFailed"], JsValue.get fields' flag = JsValue.get fields flag := by
    intro flag hflag
    refine hfields.other flag fun heq => hkey ?_
    rwa [← heq]
  have hflags : ["IsGeneralError", "ResponseIsAppErrorIsAppError", "GetDailyBalanceItemFailed"].all
      (fun flag => isOff (JsValue.get fields' flag)) =
      ["IsGeneralError", "ResponseIsAppErrorIsAppError", "GetDailyBalanceItemFailed"].all
        (fun flag => isOff (JsValue.get fields flag)) := by
    rw [Bool.eq_iff_iff, List.all_eq_true, List.all_eq_true]
    refine forall₂_congr fun flag hflag => ?_
    rw [hsame flag (List.mem_cons_of_mem _ hflag)]
  rw [hflags, hsame "IsSuccess" List.mem_cons_self]
  split
  · exact .returned hfields
  · exact .threw _ _

/-- Arrays in another order. -/
theorem sourceArray_alike (hrefl : ∀ v, R v v) (h : SameItems R value value') :
    Alike (Reordered R) (sourceArray value) (sourceArray value') := by
  cases h with
  | same value =>
      cases value with
      | array items => exact .returned (Reordered.of_perm hrefl (List.Perm.refl items))
      | _ => exact .threw _ _
  | array h => exact .returned h

end

section
variable {host : Host}

/-- A pension's year is read alike in any order of its rows, -/
theorem readPensionYear_alike {productId : String} {raw raw' : JsValue}
    (h : SamePensionYear raw raw') :
    Alike (Option.Rel YearReading.SameAs) (readPensionYear host productId raw)
      (readPensionYear host productId raw') := by
  refine alike_bind (sourceRecord_alike SameBut.same h) fun block block' hblock => ?_
  rw [hblock.other "BeginYear" (by decide), hblock.other "Total" (by decide)]
  refine alike_after _ fun year => ?_
  have hdata := requireClalSuccess_alike SameItems.same (by decide) hblock.field
  refine alike_bind hdata fun data data' hdata => ?_
  refine alike_bind (sourceArray_alike Eq.refl hdata.field) fun rawRows rawRows' hrows => ?_
  refine alike_bind (Reordered.alike_mapM_perm hrows.perm _) fun rows rows' hrows => ?_
  refine alike_after _ fun total => ?_
  exact .returned (.some ⟨rfl, rfl, hrows⟩)

/-- and so is a fund's. -/
theorem readGemelYear_alike {details : JsFields} {productId : String} {raw raw' : JsValue}
    (h : SameGemelYear raw raw') :
    Alike (Option.Rel YearReading.SameAs) (readGemelYear host details productId raw)
      (readGemelYear host details productId raw') := by
  refine alike_bind (sourceRecord_alike SameBut.same h) fun block block' hblock => ?_
  rw [hblock.other "Year" (by decide), hblock.other "Sum" (by decide)]
  refine alike_bind (sourceRecord_alike SameItems.same hblock.field) fun data data' hdata => ?_
  refine alike_bind (sourceArray_alike Eq.refl hdata.field) fun rawRows rawRows' hrows => ?_
  rw [hrows.perm.length_eq, hdata.other "GetFundTransPerYearNotIncludedList" (by decide)]
  by_cases hfooter : isNull (JsValue.get block "Year") = true ∧ rawRows'.length = 0
  · rw [if_pos hfooter, if_pos hfooter]
    exact .returned .none
  rw [if_neg hfooter, if_neg hfooter]
  refine alike_after _ fun year => ?_
  have hsuccess := requireClalSuccess_alike SameItems.same (by decide) (.object hdata)
  refine alike_bind hsuccess fun _ _ _ => ?_
  refine alike_after _ fun notIncluded => ?_
  by_cases hexcluded : notIncluded.length > 0
  · rw [if_pos hexcluded, if_pos hexcluded]
    exact .threw _ _
  rw [if_neg hexcluded, if_neg hexcluded]
  refine alike_bind (Reordered.alike_mapM_perm hrows.perm _) fun rows rows' hrows => ?_
  refine alike_after _ fun total => ?_
  exact .returned (.some ⟨rfl, rfl, hrows⟩)

/-- So is what a response holds. -/
theorem responseData_alike {response response' : ClalApiResponse}
    {key : String} {R : JsValue → JsValue → Prop} (hrefl : ∀ v, R v v)
    (hkey : key ∉ ["IsSuccess", "IsGeneralError", "ResponseIsAppErrorIsAppError",
      "GetDailyBalanceItemFailed"]) (hstatus : response'.status = response.status)
    (hdata : SameBut key R response.data response'.data) :
    Alike (FieldsBut key R) (responseData response) (responseData response') := by
  unfold responseData
  rw [hstatus]
  cases response.status with
  | none => exact .threw _ _
  | some status =>
      dsimp only
      split
      · exact requireClalSuccess_alike hrefl hkey hdata
      · exact .threw _ _

/-- **A history is read alike** in any order. -/
theorem readHistory_alike {family : ClalFamily} {response response' : ClalApiResponse}
    (h : ReorderedResponse family response response') :
    Alike HistoryReading.SameAs (readHistory host family response)
      (readHistory host family response') := by
  cases family with
  | pension =>
      have hresponse := responseData_alike SameItems.same (by decide) h.status h.data
      refine alike_bind hresponse fun data data' hdata => ?_
      unfold readPensionHistory
      rw [hdata.other "PolicyDetails" (by decide)]
      refine alike_after _ fun details => alike_after _ fun identity => ?_
      refine alike_bind (sourceArray_alike SameBut.same hdata.field) fun blocks blocks' hblocks => ?_
      have hyears : Alike (Reordered (Option.Rel YearReading.SameAs))
          (blocks.mapM (readPensionYear host identity.1))
          (blocks'.mapM (readPensionYear host identity.1)) :=
        Reordered.alike_mapM (fun _ _ => readPensionYear_alike) hblocks
      refine alike_bind hyears fun years years' hyears => ?_
      exact .returned ⟨rfl, rfl, hyears.reduceOption⟩
  | hishtalmut =>
      have hresponse := responseData_alike SameBut.same (by decide) h.status h.data
      refine alike_bind hresponse fun data data' hdata => ?_
      unfold readGemelHistory
      rw [hdata.other "IsHishtalmut" (by decide), hdata.other "FundDetails" (by decide)]
      by_cases hflag : isTrue (JsValue.get data "IsHishtalmut") = true
      swap
      · rw [if_neg hflag, if_neg hflag]
        exact .threw _ _
      rw [if_pos hflag, if_pos hflag]
      refine alike_after _ fun details => alike_after _ fun identity => ?_
      refine alike_bind (sourceRecord_alike SameItems.same hdata.field) fun tab tab' htab => ?_
      refine alike_bind (sourceArray_alike SameBut.same htab.field) fun blocks blocks' hblocks => ?_
      have hyears : Alike (Reordered (Option.Rel YearReading.SameAs))
          (blocks.mapM (readGemelYear host details identity.1))
          (blocks'.mapM (readGemelYear host details identity.1)) :=
        Reordered.alike_mapM (fun _ _ => readGemelYear_alike) hblocks
      refine alike_bind hyears fun years years' hyears => ?_
      exact .returned ⟨rfl, rfl, hyears.reduceOption⟩

end

/-- **The readings** of answers in another order. -/
theorem readInput_alike {host : Host} {input input' : ClalHistoryInput}
    (h : ReorderedInput input input') :
    Alike (List.Forall₂ HistoryReading.SameAs) (readInput host input) (readInput host input') := by
  refine alike_bind (Reordered.alike_mapM_forall₂ (fun _ _ => readHistory_alike) h.pensions)
    fun pensions pensions' hpensions => ?_
  refine alike_bind (Reordered.alike_mapM_forall₂ (fun _ _ => readHistory_alike) h.funds)
    fun funds funds' hfunds => ?_
  exact .returned (List.rel_append hpensions hfunds)

/-! ## What readings in another order have in common -/

/-- The order may be changed back, -/
theorem YearReading.SameAs.symm {reading reading' : YearReading} (h : reading.SameAs reading') :
    reading'.SameAs reading := ⟨h.year.symm, h.total.symm, h.rows.symm⟩

/-- of a year and of a history. -/
theorem HistoryReading.SameAs.symm {reading reading' : HistoryReading}
    (h : reading.SameAs reading') : reading'.SameAs reading :=
  ⟨h.family.symm, h.productId.symm, h.years.symm fun _ _ => YearReading.SameAs.symm⟩

/-- Two rows may be added in either order. -/
theorem zipWith_add_right_comm (sums amounts others : List Int) :
    List.zipWith (· + ·) (List.zipWith (· + ·) sums amounts) others =
      List.zipWith (· + ·) (List.zipWith (· + ·) sums others) amounts := by
  induction sums generalizing amounts others with
  | nil => rfl
  | cons sum sums ih =>
      cases amounts with
      | nil => cases others <;> rfl
      | cons amount amounts =>
          cases others with
          | nil => rfl
          | cons other others =>
              rw [List.zipWith_cons_cons, List.zipWith_cons_cons, List.zipWith_cons_cons,
                List.zipWith_cons_cons, ih, add_right_comm]

/-- The sums of the columns do not depend on the order of the deposits. -/
theorem columnSums_perm {start : List Int} {deposits deposits' : List Deposit}
    (h : deposits.Perm deposits') : columnSums start deposits = columnSums start deposits' :=
  h.foldl_eq' (fun _ _ _ _ sums => zipWith_add_right_comm sums _ _) start

/-- Of one item at most there is only one order. -/
theorem eq_of_perm_of_length {α : Type} {as bs : List α} (h : as.Perm bs) (hlength : as.length ≤ 1) :
    as = bs := by
  cases as with
  | nil => exact h.nil_eq
  | cons a as =>
      cases as with
      | nil => exact List.singleton_perm.mp h
      | cons b as =>
          rw [List.length_cons, List.length_cons] at hlength
          omega

/-- A year stays balanced, -/
theorem YearReading.SameAs.balanced {components : List DepositComponent}
    {reading reading' : YearReading} (h : reading.SameAs reading')
    (hbalanced : reading.Balanced components) : reading'.Balanced components := by
  have hsubtotals : subtotalsOf reading.rows = subtotalsOf reading'.rows :=
    eq_of_perm_of_length (h.rows.filterMap _) hbalanced.one
  have hdeposits : (depositsOf reading.rows).Perm (depositsOf reading'.rows) :=
    h.rows.filterMap _
  obtain ⟨hone, hchecked⟩ := hbalanced
  rw [h.total, columnSums_perm hdeposits, hsubtotals] at hchecked
  rw [hsubtotals] at hone
  exact ⟨hone, hchecked⟩

/-- and so does a history. -/
theorem HistoryReading.SameAs.balanced {reading reading' : HistoryReading}
    (h : reading.SameAs reading') (hbalanced : reading.Balanced) : reading'.Balanced := by
  constructor
  · have hyears := h.years.perm_map (f := fun year => year.year) (g := fun year => year.year)
      fun _ _ hyear => hyear.year
    exact hyears.nodup_iff.mp hbalanced.years
  · intro year hyear
    obtain ⟨other, hother, hsame⟩ := h.years.exists_of_right hyear
    rw [← h.family]
    exact hsame.balanced (hbalanced.each other hother)

/-- Its deposits are the same in another order, -/
theorem HistoryReading.SameAs.deposits_perm {reading reading' : HistoryReading}
    (h : reading.SameAs reading') : reading.deposits.Perm reading'.deposits :=
  h.years.perm_flatMap fun _ _ hyear => hyear.rows.filterMap _

/-- and its cells are. -/
theorem HistoryReading.SameAs.cells_perm {reading reading' : HistoryReading}
    (h : reading.SameAs reading') : reading.cells.Perm reading'.cells := by
  unfold HistoryReading.cells
  rw [h.family]
  exact h.deposits_perm.flatMap_right _

section
variable {readings readings' : List HistoryReading}
  (h : List.Forall₂ HistoryReading.SameAs readings readings')
include h

/-- The products are read in the same order. -/
theorem sameAs_productIds : readings.map (·.productId) = readings'.map (·.productId) :=
  Pairings.map_eq h fun _ _ hreading => hreading.productId

/-- The cells of all histories are the same in another order. -/
theorem sameAs_cells : (cellsOf readings).Perm (cellsOf readings') :=
  Reordered.perm_flatMap ⟨readings, .refl readings, h⟩ fun _ _ hreading => hreading.cells_perm

/-- What could be accepted still can. -/
theorem sameAs_acceptable {snapshot : InvestmentSnapshot} (haccepted : Acceptable snapshot readings) :
    Acceptable snapshot readings' := by
  have hsource : ∀ reading' ∈ readings', ∃ reading ∈ readings, reading.SameAs reading' :=
    fun _ => Pairings.exists_of_right h
  constructor
  · rw [← sameAs_productIds h]
    exact haccepted.distinct
  · intro reading' hreading'
    obtain ⟨reading, hreading, hsame⟩ := hsource reading' hreading'
    rw [← hsame.productId]
    exact haccepted.known reading hreading
  · intro reading' hreading'
    obtain ⟨reading, hreading, hsame⟩ := hsource reading' hreading'
    exact hsame.balanced (haccepted.balanced reading hreading)
  · intro reading' hreading' deposit hdeposit
    obtain ⟨reading, hreading, hsame⟩ := hsource reading' hreading'
    exact haccepted.dated reading hreading deposit (hsame.deposits_perm.mem_iff.mpr hdeposit)

end

/-! ## The same groups -/

section
variable {host : Host} {observedAt : String} {cells cells' : List Cell} {groups : SourceGroups}

/-- Cells in another order are added to the same groups. -/
theorem Settles.of_perm (h : Settles host observedAt cells groups) (hperm : cells.Perm cells') :
    ∃ groups', Settles host observedAt cells' groups' ∧ groups.rows.Perm groups'.rows := by
  have hdetermined := h.determined.of_perm hperm
  have hmakes : ∃ groups : SourceGroups, addCells host observedAt .empty cells = .ok groups :=
    ⟨groups, h.added⟩
  unfold addCells at hmakes
  rw [Tallies.addAll_isOk h.determined] at hmakes
  have hadds : ∃ groups : SourceGroups, addCells host observedAt .empty cells' = .ok groups :=
    (Tallies.addAll_isOk hdetermined).mpr fun cell hcell =>
      hmakes cell (hperm.mem_iff.mpr hcell)
  obtain ⟨groups', hadded⟩ := hadds
  have hsettles : Settles host observedAt cells' groups' := by
    refine ⟨h.hashes, ?_, ?_, ?_, hadded⟩
    · exact fun a ha b hb => h.free a (hperm.mem_iff.mpr ha) b (hperm.mem_iff.mpr hb)
    · exact fun cell hcell => h.products cell (hperm.mem_iff.mpr hcell)
    · exact fun cell hcell => h.components cell (hperm.mem_iff.mpr hcell)
  exact ⟨groups', hsettles, h.isTally.perm hsettles.isTally h.determined hperm⟩

/-- Activities with distinct ids have one sorted order. -/
theorem sortActivities_perm {activities activities' : List InvestmentActivity}
    (hcollation : ∀ a b, IsIdText a → IsIdText b → host.localeCompare a b = .eq → a = b)
    (hids : ∀ activity ∈ activities, IsIdText activity.id)
    (hnodup : (activities.map (·.id)).Nodup) (hperm : activities.Perm activities') :
    sortActivities host activities = sortActivities host activities' := by
  have hsorted := List.mergeSort_perm activities fun left right =>
    (host.localeCompare left.id right.id).isLE
  have hsorted' := List.mergeSort_perm activities' fun left right =>
    (host.localeCompare left.id right.id).isLE
  refine List.Perm.eq_of_pairwise ?_ (host.sorted_mergeSort InvestmentActivity.id activities)
    (host.sorted_mergeSort InvestmentActivity.id activities')
    (hsorted.trans (hperm.trans hsorted'.symm))
  intro a b ha hb hab hba
  have haMem := hsorted.mem_iff.mp ha
  have hbMem := hperm.mem_iff.mpr (hsorted'.mem_iff.mp hb)
  have heq : host.localeCompare a.id b.id = .eq := by
    have hswap : host.localeCompare b.id a.id = (host.localeCompare a.id b.id).swap :=
      Std.OrientedCmp.eq_swap
    rw [hswap] at hba
    cases hcompare : host.localeCompare a.id b.id with
    | eq => rfl
    | lt =>
        rw [hcompare] at hba
        cases hba
    | gt =>
        rw [hcompare] at hab
        cases hab
  exact List.inj_on_of_nodup_map hnodup haMem hbMem
    (hcollation _ _ (hids a haMem) (hids b hbMem) heq)

end

section
variable {host : Host} {snapshot result : InvestmentSnapshot} {input input' : ClalHistoryInput}
  (hhash : HexDigests host) (hnone : snapshot.activities = [])
  (hfree : ∀ readings, readInput host input = .ok readings → CollisionFree host (cellsOf readings))
include hhash hnone hfree

/-- **Another order** of the rows and years is accepted with the same result. -/
theorem enrichClalActivities_reordered
    (hcollation : ∀ a b, IsIdText a → IsIdText b → host.localeCompare a b = .eq → a = b)
    (hsame : Alike (List.Forall₂ HistoryReading.SameAs) (readInput host input)
      (readInput host input'))
    (h : enrichClalActivities host snapshot input = .ok result) :
    enrichClalActivities host snapshot input' = .ok result := by
  obtain ⟨readings, groups, hread, haccepted, hadded, hparse⟩ := enrichClalActivities_ok_iff.mp h
  have hsettles := settles_of_read hhash hread (hfree readings hread) hadded
  rw [hread] at hsame
  generalize hread' : readInput host input' = reading' at hsame
  cases hsame with
  | @returned _ readings' hreadings =>
      obtain ⟨groups', hsettles', hperm⟩ := hsettles.of_perm (sameAs_cells hreadings)
      have hactivities : sortActivities host (settled groups) =
          sortActivities host (settled groups') :=
        sortActivities_perm hcollation (fun _ => hsettles.isIdText) hsettles.nodup_ids
          (hperm.map settledActivity)
      have hsnapshot : enrichedSnapshot host snapshot groups' (readings'.map (·.productId)) =
          enrichedSnapshot host snapshot groups (readings.map (·.productId)) := by
        have hrows := enrichedSnapshot_activities hnone hsettles (readings.map (·.productId))
        have hrows' := enrichedSnapshot_activities hnone hsettles' (readings.map (·.productId))
        rw [← sameAs_productIds hreadings]
        unfold enrichedSnapshot at hrows hrows' ⊢
        dsimp only at hrows hrows'
        rw [hrows, hrows', hactivities]
      refine enrichClalActivities_ok_iff.mpr ⟨readings', groups', hread',
        sameAs_acceptable hreadings haccepted, hsettles'.added, ?_⟩
      rw [hsnapshot]
      exact hparse

end

/-! ## The same histories again -/

section
variable {host : Host} {observedAt : String} {cells : List Cell} {groups : SourceGroups}
  {snapshot : InvestmentSnapshot} {covered : List String}

/-- Sorted activities are sorted. -/
theorem sortActivities_sorted (activities : List InvestmentActivity) :
    sortActivities host (sortActivities host activities) = sortActivities host activities :=
  List.mergeSort_of_pairwise (host.sorted_mergeSort InvestmentActivity.id activities)

/-- The activities of the groups are put over themselves. -/
theorem Settles.put_again (h : Settles host observedAt cells groups) :
    ((sortActivities host (settled groups) ++ settled groups).foldl KeyedTable.put
      (.empty : KeyedTable InvestmentActivity InvestmentActivity.id)).rows =
        sortActivities host (settled groups) := by
  have hperm : (sortActivities host (settled groups)).Perm (settled groups) :=
    List.mergeSort_perm _ _
  have hrows : ((sortActivities host (settled groups)).foldl KeyedTable.put
      (.empty : KeyedTable InvestmentActivity InvestmentActivity.id)).rows =
        sortActivities host (settled groups) :=
    KeyedTable.rows_foldl_put ((hperm.map _).nodup_iff.mpr h.nodup_ids)
  rw [List.foldl_append, KeyedTable.foldl_put_of_mem, hrows]
  intro activity hactivity
  rw [hrows]
  exact hperm.mem_iff.mpr hactivity

/-- A product is covered once. -/
theorem coverActivities_again {product : InvestmentProduct}
    (hid : jsTrim product.id = product.id) :
    coverActivities covered (coverActivities covered product).trimmed =
      (coverActivities covered product).trimmed := by
  by_cases hcovered : product.id ∈ covered
  · have hfirst : coverActivities covered product =
        { product with coverage := { product.coverage with activities := .partially } } :=
      if_pos hcovered
    have hsame : jsTrim product.id ∈ covered := by
      rwa [hid]
    rw [hfirst]
    exact if_pos hsame
  · have hfirst : coverActivities covered product = product := if_neg hcovered
    have hsame : jsTrim product.id ∉ covered := by
      rwa [hid]
    rw [hfirst]
    exact if_neg hsame

/-- Covering leaves its id alone. -/
theorem coverActivities_id (product : InvestmentProduct) :
    (coverActivities covered product).id = product.id := by
  unfold coverActivities
  split_ifs <;> rfl

variable (hids : ∀ product ∈ snapshot.products, jsTrim product.id = product.id)
include hids

/-- So the products keep their ids. -/
theorem enrichedSnapshot_productIds :
    (enrichedSnapshot host snapshot groups covered).trimmed.products.map (·.id) =
      snapshot.products.map (·.id) := by
  change ((snapshot.products.map (coverActivities covered)).map (·.trimmed)).map (·.id) = _
  rw [List.map_map, List.map_map]
  refine List.map_congr_left fun product hproduct => ?_
  change jsTrim (coverActivities covered product).id = product.id
  rw [coverActivities_id, hids product hproduct]

/-- An enriched snapshot is enriched to itself. -/
theorem enrichedSnapshot_again (hnone : snapshot.activities = [])
    (h : Settles host observedAt cells groups) :
    enrichedSnapshot host (enrichedSnapshot host snapshot groups covered).trimmed groups covered =
      (enrichedSnapshot host snapshot groups covered).trimmed := by
  have hperm : (sortActivities host (settled groups)).Perm (settled groups) :=
    List.mergeSort_perm _ _
  have hactivities : (enrichedSnapshot host snapshot groups covered).trimmed.activities =
      sortActivities host (settled groups) := by
    change (enrichedSnapshot host snapshot groups covered).activities.map (·.trimmed) = _
    rw [enrichedSnapshot_activities hnone h]
    conv => rhs; rw [← List.map_id (sortActivities host (settled groups))]
    exact List.map_congr_left fun activity hactivity => h.trimmed (hperm.mem_iff.mp hactivity)
  have hproducts : (enrichedSnapshot host snapshot groups covered).trimmed.products.map
      (coverActivities covered) =
        (enrichedSnapshot host snapshot groups covered).trimmed.products := by
    change ((snapshot.products.map (coverActivities covered)).map (·.trimmed)).map
      (coverActivities covered) = (snapshot.products.map (coverActivities covered)).map (·.trimmed)
    rw [List.map_map, List.map_map, List.map_map]
    exact List.map_congr_left fun product hproduct => coverActivities_again (hids product hproduct)
  have hagain : sortActivities host (((enrichedSnapshot host snapshot groups covered).trimmed.activities ++
      settled groups).foldl KeyedTable.put
        (.empty : KeyedTable InvestmentActivity InvestmentActivity.id)).rows =
      (enrichedSnapshot host snapshot groups covered).trimmed.activities := by
    rw [hactivities, h.put_again, sortActivities_sorted]
  generalize (enrichedSnapshot host snapshot groups covered).trimmed = enriched at hproducts hagain ⊢
  cases enriched
  unfold enrichedSnapshot
  dsimp only at hproducts hagain ⊢
  rw [hproducts]
  congr

end

section
variable {host : Host} {snapshot result : InvestmentSnapshot} {input : ClalHistoryInput}
  (hhash : HexDigests host) (hnone : snapshot.activities = [])
  (hfree : ∀ readings, readInput host input = .ok readings → CollisionFree host (cellsOf readings))
  (h : enrichClalActivities host snapshot input = .ok result)
include hhash hnone hfree h

/-- **The same histories again** change nothing. -/
theorem enrichClalActivities_again
    (hids : ∀ product ∈ snapshot.products, jsTrim product.id = product.id) :
    enrichClalActivities host result input = .ok result := by
  obtain ⟨readings, groups, hread, haccepted, hadded, hparse⟩ := enrichClalActivities_ok_iff.mp h
  have hsettles := settles_of_read hhash hread (hfree readings hread) hadded
  obtain ⟨rfl, hschema⟩ := parseSnapshot_ok hparse
  refine enrichClalActivities_ok_iff.mpr ⟨readings, groups, hread, ⟨haccepted.distinct, ?_,
    haccepted.balanced, haccepted.dated⟩, hadded, ?_⟩
  · rw [enrichedSnapshot_productIds hids]
    exact haccepted.known
  · rw [enrichedSnapshot_again hids hnone hsettles]
    unfold parseSnapshot
    rw [trimmed_trimmed_snapshot, if_pos hschema]

/-- **Deposits are conserved** by an enrichment. -/
theorem enrichClalActivities_conserves :
    ∃ readings, readInput host input = .ok readings ∧
      Conserves host readings result.activities := by
  obtain ⟨readings, groups, hread, haccepted, hadded, hparse⟩ := enrichClalActivities_ok_iff.mp h
  have hsettles := settles_of_read hhash hread (hfree readings hread) hadded
  obtain ⟨rfl, -⟩ := parseSnapshot_ok hparse
  refine ⟨readings, hread, conserves_settled hread haccepted.distinct hsettles ?_ haccepted.balanced⟩
  change ((enrichedSnapshot host snapshot groups _).activities.map (·.trimmed)).Perm _
  rw [enrichedSnapshot_activities hnone hsettles]
  have hperm : (sortActivities host (settled groups)).Perm (settled groups) :=
    List.mergeSort_perm _ _
  have htrimmed : (settled groups).map (·.trimmed) = settled groups := by
    conv => rhs; rw [← List.map_id (settled groups)]
    exact List.map_congr_left fun activity hactivity => hsettles.trimmed hactivity
  exact (hperm.map InvestmentActivity.trimmed).trans (.of_eq htrimmed)

end

/-! ## Conservation and order -/

/-- Collisions do not depend on the order. -/
theorem CollisionFree.of_perm {host : Host} {cells cells' : List Cell}
    (h : CollisionFree host cells) (hperm : cells.Perm cells') : CollisionFree host cells' :=
  fun a ha b hb => h a (hperm.mem_iff.mpr ha) b (hperm.mem_iff.mpr hb)

section
variable {host : Host} {snapshot : InvestmentSnapshot} {input : ClalHistoryInput}

/-- **Clal activities.**  Where the hash tells the source groups apart, the
activities of an accepted enrichment conserve the deposits of the histories;
enriching the result once more changes nothing; and histories whose rows and
years come in another order are accepted alike, with the same result.  The collation
has to tell ids apart; a parsed snapshot has no white space at the ends of its
product ids. -/
theorem clalActivities_conserved (hhash : HexDigests host)
    (hcollation : ∀ a b, IsIdText a → IsIdText b → host.localeCompare a b = .eq → a = b)
    (hfree : ∀ readings, readInput host input = .ok readings →
      CollisionFree host (cellsOf readings))
    (hnone : snapshot.activities = []) :
    (∀ result, enrichClalActivities host snapshot input = .ok result →
      (∃ readings, readInput host input = .ok readings ∧
        Conserves host readings result.activities) ∧
      ((∀ product ∈ snapshot.products, jsTrim product.id = product.id) →
        enrichClalActivities host result input = .ok result)) ∧
    ∀ input', ReorderedInput input input' →
      (enrichClalActivities host snapshot input').toOption =
        (enrichClalActivities host snapshot input).toOption := by
  constructor
  · intro result h
    exact ⟨enrichClalActivities_conserves hhash hnone hfree h,
      enrichClalActivities_again hhash hnone hfree h⟩
  intro input' hreordered
  have hsame := @readInput_alike host _ _ hreordered
  have hfree' : ∀ readings', readInput host input' = .ok readings' →
      CollisionFree host (cellsOf readings') := by
    intro readings' hread'
    rw [hread'] at hsame
    generalize hread : readInput host input = read at hsame
    cases hsame with
    | returned hreadings => exact (hfree _ hread).of_perm (sameAs_cells hreadings)
  have hback : Alike (List.Forall₂ HistoryReading.SameAs) (readInput host input')
      (readInput host input) :=
    hsame.symm fun _ _ hreadings => hreadings.flip.imp fun _ _ => HistoryReading.SameAs.symm
  have hresults : ∀ result, enrichClalActivities host snapshot input' = .ok result ↔
      enrichClalActivities host snapshot input = .ok result := by
    intro result
    constructor
    · exact enrichClalActivities_reordered hhash hnone hfree' hcollation hback
    · exact enrichClalActivities_reordered hhash hnone hfree hcollation hsame
  cases hresult : enrichClalActivities host snapshot input with
  | ok result =>
      rw [(hresults result).mpr hresult]
  | error e =>
      cases hresult' : enrichClalActivities host snapshot input' with
      | error e' => rfl
      | ok result =>
          rw [(hresults result).mp hresult'] at hresult
          cases hresult

end

/-- Objects whose last fields are related. -/
theorem sameBut_last (key : String) {R : JsValue → JsValue → Prop} {value value' : JsValue}
    (fields : JsFields) (h : R value value') :
    SameBut key R (.object (fields ++ [(key, value)])) (.object (fields ++ [(key, value')])) := by
  have hlast : ∀ last : JsValue, JsValue.get (fields ++ [(key, last)]) key = last := by
    intro last
    unfold JsValue.get
    have hkey : decide (key = key) = true := decide_eq_true rfl
    rw [List.reverse_append, List.reverse_singleton, List.singleton_append, List.find?_cons, hkey]
    rfl
  have hother : ∀ (last : JsValue) (other : String), other ≠ key →
      JsValue.get (fields ++ [(key, last)]) other = JsValue.get fields other := by
    intro last other hne
    unfold JsValue.get
    rw [List.reverse_append, List.reverse_singleton, List.singleton_append,
      List.find?_cons_of_neg (by rw [decide_eq_true_eq]; exact hne.symm)]
  refine .object ⟨?_, fun other hne => ?_⟩
  · rw [hlast, hlast]
    exact h
  · rw [hother _ _ hne, hother _ _ hne]

/-- The example in another order of rows. -/
theorem depositHistory_reordered {rows rows' : List JsValue} (h : rows.Perm rows') :
    ReorderedInput (depositHistory rows) (depositHistory rows') := by
  have hrows : SameItems (· = ·) (.array rows) (.array rows') :=
    .array (.of_perm Eq.refl h)
  have hdata : SameBut "DepositingPerMonthList" (SameItems (· = ·))
      (.object ([("IsSuccess", .bool true)] ++ [("DepositingPerMonthList", .array rows)]))
      (.object ([("IsSuccess", .bool true)] ++ [("DepositingPerMonthList", .array rows')])) :=
    sameBut_last _ _ hrows
  have hyears : ∀ {year year' : JsValue}, SamePensionYear year year' →
      SameItems SamePensionYear (.array [year]) (.array [year']) := fun hyear =>
    .array ⟨_, .refl _, .cons hyear .nil⟩
  have hhistory := hyears (sameBut_last "TransactionsData" [("BeginYear", .string "2026"),
    ("Total", .string "180.00")] hdata)
  have hresponse := sameBut_last "NDepositingList" [("IsSuccess", .bool true),
    ("PolicyDetails", .object [("PolicyId", .string "P")])] hhistory
  exact ⟨.cons ⟨rfl, hresponse⟩ .nil, .nil⟩

/-- Two deposits of one month become one activity for each column. -/
theorem clalActivities_conserved_example :
    ∃ result, enrichClalActivities depositHost depositSnapshot
        (depositHistory [depositRow, depositRow, subtotalRow]) = .ok result ∧
      (∃ readings, readInput depositHost
          (depositHistory [depositRow, depositRow, subtotalRow]) = .ok readings ∧
        Conserves depositHost readings result.activities) ∧
      enrichClalActivities depositHost result
        (depositHistory [depositRow, depositRow, subtotalRow]) = .ok result ∧
      (enrichClalActivities depositHost depositSnapshot
        (depositHistory [subtotalRow, depositRow, depositRow])).toOption = some result := by
  have hcollation : ∀ a b, IsIdText a → IsIdText b → depositHost.localeCompare a b = .eq → a = b :=
    fun _ _ _ _ h => Std.LawfulEqOrd.eq_of_compare h
  have hids : ∀ product ∈ depositSnapshot.products, jsTrim product.id = product.id := by
    decide +kernel
  have hnone : depositSnapshot.activities = [] := rfl
  have hperm : [depositRow, depositRow, subtotalRow].Perm [subtotalRow, depositRow, depositRow] :=
    @List.perm_append_comm _ [depositRow, depositRow] [subtotalRow]
  obtain ⟨readings, hread, hacceptable, hcells⟩ := deposit_read
  obtain ⟨result, hresult⟩ := enrichClalActivities_of_postable hexDigests_depositHost hnone
    parseSnapshot_deposit collisionFree_depositReadings hread hacceptable
      fun cell hcell => postable_deposit (hcells cell hcell)
  obtain ⟨hconserved, horder⟩ := clalActivities_conserved hexDigests_depositHost hcollation
    collisionFree_depositReadings hnone
  obtain ⟨hsums, hagain⟩ := hconserved result hresult
  refine ⟨result, hresult, hsums, hagain hids, ?_⟩
  rw [horder _ (depositHistory_reordered hperm), hresult]
  rfl

end SimplefinBridge
