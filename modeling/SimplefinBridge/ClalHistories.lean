import SimplefinBridge.ClalActivities

/-!
# Histories of Clal

What the deposit histories say apart from what is done with them: a *reading*
has the product of a response, its years, their totals and their rows
(`readHistory`).  An enrichment accepts the readings whose years are distinct
and add up, and it adds the cells of their deposits to the source groups one
after another (`enrichClalActivities_ok_iff`).
-/

namespace SimplefinBridge

open Transactional (except_bind_ok)

/-! ## Readings -/

/-- A deposit row. -/
structure Deposit where
  row : JsFields
  dimensions : Dimensions
  amounts : List Int

/-- The deposit that a row reports. -/
def SourceRow.asDeposit : SourceRow → Option Deposit
  | .deposit row dimensions amounts => some ⟨row, dimensions, amounts⟩
  | .subtotal _ => none

/-- The subtotal that it reports. -/
def SourceRow.asSubtotal : SourceRow → Option (List Int)
  | .deposit _ _ _ => none
  | .subtotal amounts => some amounts

/-- The deposits of some rows. -/
def depositsOf (rows : List SourceRow) : List Deposit := rows.filterMap (·.asDeposit)

/-- Their subtotals. -/
def subtotalsOf (rows : List SourceRow) : List (List Int) := rows.filterMap (·.asSubtotal)

/-- What is read of a year. -/
structure YearReading where
  year : String
  total : Int
  rows : List SourceRow

/-- What is read of a product. -/
structure HistoryReading where
  family : ClalFamily
  productId : String
  years : List YearReading

/-- All its deposits. -/
def HistoryReading.deposits (reading : HistoryReading) : List Deposit :=
  reading.years.flatMap fun year => depositsOf year.rows

/-- An amount of a deposit row, with what it is an amount of. -/
structure Cell where
  dimensions : Dimensions
  component : DepositComponent
  amount : Int

/-- The amounts of a deposit, each with its column. -/
def Deposit.cells (components : List DepositComponent) (deposit : Deposit) : List Cell :=
  (components.zip deposit.amounts).map fun pair => ⟨deposit.dimensions, pair.1, pair.2⟩

/-- All amounts of a product. -/
def HistoryReading.cells (reading : HistoryReading) : List Cell :=
  reading.deposits.flatMap (·.cells (componentsOf reading.family))

section
variable (host : Host)

/-- A year of a pension, if it has rows. -/
def readPensionYear (productId : String) (raw : JsValue) :
    Except ParseError (Option YearReading) := do
  let block ← sourceRecord raw
  let year ← yearText (JsValue.get block "BeginYear")
  let data ← requireClalSuccess (JsValue.get block "TransactionsData")
  let rawRows ← sourceArray (JsValue.get data "DepositingPerMonthList")
  let rows ← rawRows.mapM (pensionRow host productId year)
  let total ← clalCents (JsValue.get block "Total")
  return some ⟨year, total, rows⟩

/-- A year of a fund, if it has rows. -/
def readGemelYear (details : JsFields) (productId : String) (raw : JsValue) :
    Except ParseError (Option YearReading) := do
  let block ← sourceRecord raw
  let transactionData ← sourceRecord (JsValue.get block "TransactionsData")
  let rawRows ← sourceArray (JsValue.get transactionData "GetFundTransPerYearList")
  if isNull (JsValue.get block "Year") ∧ rawRows.length = 0 then return none
  else
    let year ← yearText (JsValue.get block "Year")
    let _ ← requireClalSuccess (.object transactionData)
    let notIncluded ← sourceArray
      (JsValue.get transactionData "GetFundTransPerYearNotIncludedList")
    if notIncluded.length > 0 then .error .INVALID_RESPONSE
    else
      let rows ← rawRows.mapM (gemelRow host details productId year)
      let total ← clalCents (JsValue.get block "Sum")
      return some ⟨year, total, rows⟩

/-- The history of a pension. -/
def readPensionHistory (data : JsFields) : Except ParseError HistoryReading := do
  let details ← sourceRecord (JsValue.get data "PolicyDetails")
  let (productId, _) ← clalProductIdentity .pension (JsValue.get details "PolicyId")
  let blocks ← sourceArray (JsValue.get data "NDepositingList")
  let years ← blocks.mapM (readPensionYear host productId)
  return ⟨.pension, productId, years.reduceOption⟩

/-- The history of a fund, if it is a hishtalmut. -/
def readGemelHistory (data : JsFields) : Except ParseError HistoryReading :=
  if isTrue (JsValue.get data "IsHishtalmut") then do
    let details ← sourceRecord (JsValue.get data "FundDetails")
    let (productId, _) ← clalProductIdentity .hishtalmut (JsValue.get details "FundNumber")
    let tab ← sourceRecord (JsValue.get data "TransactionsTab")
    let blocks ← sourceArray (JsValue.get tab "TransactionsList")
    let years ← blocks.mapM (readGemelYear host details productId)
    return ⟨.hishtalmut, productId, years.reduceOption⟩
  else .error .INVALID_RESPONSE

/-- The history in a response. -/
def readHistory (family : ClalFamily) (response : ClalApiResponse) :
    Except ParseError HistoryReading := do
  let data ← responseData response
  match family with
  | .pension => readPensionHistory host data
  | .hishtalmut => readGemelHistory host data

/-- The readings of all responses. -/
def readInput (input : ClalHistoryInput) : Except ParseError (List HistoryReading) := do
  let pensions ← input.pensionDetails.mapM (readHistory host .pension)
  let funds ← input.gemelDetails.mapM (readHistory host .hishtalmut)
  return pensions ++ funds

end

/-! ## Years that add up -/

/-- The sum of every column over the deposits. -/
def columnSums (start : List Int) (deposits : List Deposit) : List Int :=
  deposits.foldl (fun sums deposit => List.zipWith (· + ·) sums deposit.amounts) start

/-- There is one subtotal at most, and the deposits add up to it and to the
total of the year. -/
structure YearReading.Balanced (components : List DepositComponent) (reading : YearReading) :
    Prop where
  one : (subtotalsOf reading.rows).length ≤ 1
  checked : checkAnnualTotals reading.total
    (columnSums (components.map fun _ => 0) (depositsOf reading.rows))
    (subtotalsOf reading.rows).head? = .ok ()

/-- Every year adds up to its total and its subtotals. -/
structure HistoryReading.Balanced (reading : HistoryReading) : Prop where
  years : (reading.years.map (·.year)).Nodup
  each : ∀ year ∈ reading.years, year.Balanced (componentsOf reading.family)

/-- A deposit has a booking date or a salary month. -/
def Dimensions.Dated (dimensions : Dimensions) : Prop :=
  dimensions.bookingDate.or dimensions.salaryMonth ≠ none

section
variable (host : Host) (observedAt : String)

/-- The deposits of a history, one after another. -/
def addDeposits (components : List DepositComponent) (groups : SourceGroups)
    (deposits : List Deposit) : Except ParseError SourceGroups :=
  deposits.foldlM (fun groups deposit =>
    addGroups host observedAt groups deposit.dimensions components deposit.amounts) groups

/-- The cells of all histories, one after another. -/
def addCells (groups : SourceGroups) (cells : List Cell) : Except ParseError SourceGroups :=
  Tallies.addAll (fun cell => groupSourceId host cell.dimensions cell.component)
    (fun cell => groupActivity host observedAt cell.dimensions cell.component) (·.amount) groups
    cells

end

/-! ## Reading and adding -/

/-- A loop that reads an item and adds it reads all items and adds them. -/
theorem foldlM_read_ok {α β σ : Type} {step : σ → α → Except ParseError σ}
    {read : α → Except ParseError β} {add : σ → β → Except ParseError σ}
    (hstep : ∀ s a s', step s a = .ok s' ↔ ∃ b, read a = .ok b ∧ add s b = .ok s')
    {items : List α} {s s' : σ} :
    items.foldlM step s = .ok s' ↔ ∃ bs, items.mapM read = .ok bs ∧ bs.foldlM add s = .ok s' := by
  induction items generalizing s with
  | nil =>
      constructor
      · intro h
        exact ⟨[], rfl, h⟩
      · rintro ⟨bs, hread, h⟩
        rw [← Except.ok.inj hread] at h
        exact h
  | cons a items ih =>
      rw [List.foldlM_cons, List.mapM_cons]
      constructor
      · intro h
        obtain ⟨middle, hfirst, hrest⟩ := except_bind_ok.mp h
        obtain ⟨b, hread, hadd⟩ := (hstep s a middle).mp hfirst
        obtain ⟨bs, hreads, hadds⟩ := ih.mp hrest
        refine ⟨b :: bs, ?_, ?_⟩
        · exact except_bind_ok.mpr ⟨b, hread, except_bind_ok.mpr ⟨bs, hreads, rfl⟩⟩
        · rw [List.foldlM_cons]
          exact except_bind_ok.mpr ⟨middle, hadd, hadds⟩
      · rintro ⟨all, hread, h⟩
        obtain ⟨b, hfirst, hread⟩ := except_bind_ok.mp hread
        obtain ⟨bs, hreads, hread⟩ := except_bind_ok.mp hread
        rw [← Except.ok.inj hread, List.foldlM_cons] at h
        obtain ⟨middle, hadd, hadds⟩ := except_bind_ok.mp h
        exact except_bind_ok.mpr ⟨middle, (hstep s a middle).mpr ⟨b, hfirst, hadd⟩,
          ih.mpr ⟨bs, hreads, hadds⟩⟩

section
variable {host : Host} {observedAt : String} {components : List DepositComponent}

/-- The rows of a year, once they are read. -/
theorem addRows_ok {rows : List SourceRow} {state state' : YearSums} :
    rows.foldlM (addRow host observedAt components) state = .ok state' ↔
      (state.subtotal.toList ++ subtotalsOf rows).length ≤ 1 ∧
        state'.subtotal = (state.subtotal.toList ++ subtotalsOf rows).head? ∧
        state'.sums = columnSums state.sums (depositsOf rows) ∧
        addDeposits host observedAt components state.groups (depositsOf rows) =
          .ok state'.groups := by
  induction rows generalizing state with
  | nil =>
      have hnil : ([] : List SourceRow).foldlM (addRow host observedAt components) state =
          .ok state := rfl
      have hdeposits : addDeposits host observedAt components state.groups (depositsOf []) =
          .ok state.groups := rfl
      rw [hnil, hdeposits]
      change _ ↔ (state.subtotal.toList ++ []).length ≤ 1 ∧
        state'.subtotal = (state.subtotal.toList ++ []).head? ∧ state'.sums = state.sums ∧ _
      rw [List.append_nil]
      obtain ⟨groups, sums, subtotal⟩ := state
      obtain ⟨groups', sums', subtotal'⟩ := state'
      constructor
      · intro h
        cases Except.ok.inj h
        cases subtotal with
        | none => exact ⟨Nat.zero_le 1, rfl, rfl, rfl⟩
        | some amounts => exact ⟨Nat.le_refl 1, rfl, rfl, rfl⟩
      · rintro ⟨-, hsubtotal, hsums, hgroups⟩
        dsimp only at hsubtotal hsums hgroups
        rw [hsubtotal, hsums, Except.ok.inj hgroups]
        cases subtotal <;> rfl
  | cons row rows ih =>
      rw [List.foldlM_cons]
      cases row with
      | subtotal amounts =>
          have hdeposits : depositsOf (.subtotal amounts :: rows) = depositsOf rows := rfl
          have hsubtotals : subtotalsOf (.subtotal amounts :: rows) = amounts :: subtotalsOf rows :=
            rfl
          rw [hdeposits, hsubtotals]
          obtain ⟨groups, sums, subtotal⟩ := state
          cases subtotal with
          | some earlier =>
              constructor
              · intro h
                cases h
              · rintro ⟨hlength, -⟩
                simp at hlength
          | none =>
              change rows.foldlM (addRow host observedAt components)
                ⟨groups, sums, some amounts⟩ = .ok state' ↔ _
              rw [ih]
              rfl
      | deposit raw dimensions amounts =>
          have hdeposits : depositsOf (.deposit raw dimensions amounts :: rows) =
              ⟨raw, dimensions, amounts⟩ :: depositsOf rows := rfl
          have hsubtotals : subtotalsOf (.deposit raw dimensions amounts :: rows) =
              subtotalsOf rows := rfl
          rw [hdeposits, hsubtotals]
          unfold addDeposits
          rw [List.foldlM_cons]
          constructor
          · intro h
            obtain ⟨middle, hmiddle, h⟩ := except_bind_ok.mp h
            obtain ⟨groups, hgroups, hmiddle⟩ := except_bind_ok.mp hmiddle
            rw [← Except.ok.inj hmiddle] at h
            obtain ⟨hlength, hsubtotal, hsums, hrest⟩ := ih.mp h
            exact ⟨hlength, hsubtotal, hsums, except_bind_ok.mpr ⟨groups, hgroups, hrest⟩⟩
          · rintro ⟨hlength, hsubtotal, hsums, h⟩
            obtain ⟨groups, hgroups, hrest⟩ := except_bind_ok.mp h
            refine except_bind_ok.mpr ⟨_, except_bind_ok.mpr ⟨groups, hgroups, rfl⟩, ?_⟩
            exact ih.mpr ⟨hlength, hsubtotal, hsums, hrest⟩

/-- A year, once its rows are read. -/
theorem addYear_ok {readRow : JsValue → Except ParseError SourceRow} {rows : List JsValue}
    {rawTotal : JsValue} {groups groups' : SourceGroups} (year : String) :
    addYear host observedAt components readRow rows rawTotal groups = .ok groups' ↔
      ∃ parsed total, rows.mapM readRow = .ok parsed ∧ clalCents rawTotal = .ok total ∧
        YearReading.Balanced components ⟨year, total, parsed⟩ ∧
        addDeposits host observedAt components groups (depositsOf parsed) = .ok groups' := by
  have hread : ∀ state raw state', (do
      let row ← readRow raw
      addRow host observedAt components state row) = Except.ok state' ↔
        ∃ row, readRow raw = .ok row ∧ addRow host observedAt components state row = .ok state' :=
    fun _ _ _ => except_bind_ok
  unfold addYear
  constructor
  · intro h
    obtain ⟨state, hstate, h⟩ := except_bind_ok.mp h
    obtain ⟨total, htotal, h⟩ := except_bind_ok.mp h
    obtain ⟨checked, hchecked, h⟩ := except_bind_ok.mp h
    obtain ⟨parsed, hparsed, hadded⟩ := (foldlM_read_ok hread).mp hstate
    obtain ⟨hone, hsubtotal, hsums, hdeposits⟩ := addRows_ok.mp hadded
    rw [hsubtotal, hsums] at hchecked
    rw [← Except.ok.inj h]
    exact ⟨parsed, total, hparsed, htotal, ⟨hone, hchecked⟩, hdeposits⟩
  · rintro ⟨parsed, total, hparsed, htotal, ⟨hone, hchecked⟩, hdeposits⟩
    refine except_bind_ok.mpr ⟨⟨groups', _, _⟩, (foldlM_read_ok hread).mpr ⟨parsed, hparsed,
      addRows_ok.mpr ⟨hone, rfl, rfl, hdeposits⟩⟩, ?_⟩
    exact except_bind_ok.mpr ⟨total, htotal, except_bind_ok.mpr ⟨(), hchecked, rfl⟩⟩

end

/-! ## Years and histories -/

section
variable {host : Host} {observedAt : String} {components : List DepositComponent}

/-- Deposits behind deposits. -/
theorem addDeposits_append {groups groups' : SourceGroups} {deposits others : List Deposit} :
    addDeposits host observedAt components groups (deposits ++ others) = .ok groups' ↔
      ∃ middle, addDeposits host observedAt components groups deposits = .ok middle ∧
        addDeposits host observedAt components middle others = .ok groups' := by
  unfold addDeposits
  rw [List.foldlM_append]
  exact except_bind_ok

variable (host observedAt components) in
/-- What a block adds: a year that is new and adds up, or nothing. -/
def AddsYear (state : YearsState) (reading : Option YearReading) (state' : YearsState) : Prop :=
  match reading with
  | none => state' = state
  | some year => year.year ∉ state.1 ∧ year.Balanced components ∧ ∃ groups,
      addDeposits host observedAt components state.2 (depositsOf year.rows) = .ok groups ∧
        state' = (state.1 ++ [year.year], groups)

/-- A year of a pension is read and then added, -/
theorem pensionYear_ok {productId : String} (state : YearsState) (raw : JsValue)
    (state' : YearsState) :
    pensionYear host observedAt productId state raw = .ok state' ↔
      ∃ reading, readPensionYear host productId raw = .ok reading ∧
        AddsYear host observedAt pensionComponents state reading state' := by
  constructor
  · intro h
    obtain ⟨block, hblock, h⟩ := except_bind_ok.mp h
    obtain ⟨year, hyear, h⟩ := except_bind_ok.mp h
    by_cases hseen : year ∈ state.1
    · rw [if_pos hseen] at h
      cases h
    rw [if_neg hseen] at h
    obtain ⟨data, hdata, h⟩ := except_bind_ok.mp h
    obtain ⟨rows, hrows, h⟩ := except_bind_ok.mp h
    obtain ⟨groups, hgroups, h⟩ := except_bind_ok.mp h
    obtain ⟨parsed, total, hparsed, htotal, hbalanced, hdeposits⟩ := (addYear_ok year).mp hgroups
    refine ⟨some ⟨year, total, parsed⟩, ?_, hseen, hbalanced, groups, hdeposits,
      (Except.ok.inj h).symm⟩
    exact except_bind_ok.mpr ⟨block, hblock, except_bind_ok.mpr ⟨year, hyear,
      except_bind_ok.mpr ⟨data, hdata, except_bind_ok.mpr ⟨rows, hrows,
        except_bind_ok.mpr ⟨parsed, hparsed, except_bind_ok.mpr ⟨total, htotal, rfl⟩⟩⟩⟩⟩⟩
  · rintro ⟨reading, hread, hadds⟩
    obtain ⟨block, hblock, hread⟩ := except_bind_ok.mp hread
    obtain ⟨year, hyear, hread⟩ := except_bind_ok.mp hread
    obtain ⟨data, hdata, hread⟩ := except_bind_ok.mp hread
    obtain ⟨rows, hrows, hread⟩ := except_bind_ok.mp hread
    obtain ⟨parsed, hparsed, hread⟩ := except_bind_ok.mp hread
    obtain ⟨total, htotal, hread⟩ := except_bind_ok.mp hread
    rw [← Except.ok.inj hread] at hadds
    obtain ⟨hseen, hbalanced, groups, hdeposits, rfl⟩ := hadds
    refine except_bind_ok.mpr ⟨block, hblock, except_bind_ok.mpr ⟨year, hyear, ?_⟩⟩
    rw [if_neg hseen]
    exact except_bind_ok.mpr ⟨data, hdata, except_bind_ok.mpr ⟨rows, hrows,
      except_bind_ok.mpr ⟨groups,
        (addYear_ok year).mpr ⟨parsed, total, hparsed, htotal, hbalanced, hdeposits⟩, rfl⟩⟩⟩

/-- and so is one of a fund. -/
theorem gemelYear_ok {details : JsFields} {productId : String} (state : YearsState)
    (raw : JsValue) (state' : YearsState) :
    gemelYear host observedAt details productId state raw = .ok state' ↔
      ∃ reading, readGemelYear host details productId raw = .ok reading ∧
        AddsYear host observedAt gemelComponents state reading state' := by
  constructor
  · intro h
    obtain ⟨block, hblock, h⟩ := except_bind_ok.mp h
    obtain ⟨transactionData, hdata, h⟩ := except_bind_ok.mp h
    obtain ⟨rows, hrows, h⟩ := except_bind_ok.mp h
    by_cases hfooter : isNull (JsValue.get block "Year") = true ∧ rows.length = 0
    · rw [if_pos hfooter] at h
      refine ⟨none, ?_, (Except.ok.inj h).symm⟩
      refine except_bind_ok.mpr ⟨block, hblock, except_bind_ok.mpr ⟨transactionData, hdata,
        except_bind_ok.mpr ⟨rows, hrows, ?_⟩⟩⟩
      rw [if_pos hfooter]
      rfl
    rw [if_neg hfooter] at h
    obtain ⟨year, hyear, h⟩ := except_bind_ok.mp h
    by_cases hseen : year ∈ state.1
    · rw [if_pos hseen] at h
      cases h
    rw [if_neg hseen] at h
    obtain ⟨success, hsuccess, h⟩ := except_bind_ok.mp h
    obtain ⟨notIncluded, hnotIncluded, h⟩ := except_bind_ok.mp h
    by_cases hexcluded : notIncluded.length > 0
    · rw [if_pos hexcluded] at h
      cases h
    rw [if_neg hexcluded] at h
    obtain ⟨groups, hgroups, h⟩ := except_bind_ok.mp h
    obtain ⟨parsed, total, hparsed, htotal, hbalanced, hdeposits⟩ := (addYear_ok year).mp hgroups
    refine ⟨some ⟨year, total, parsed⟩, ?_, hseen, hbalanced, groups, hdeposits,
      (Except.ok.inj h).symm⟩
    refine except_bind_ok.mpr ⟨block, hblock, except_bind_ok.mpr ⟨transactionData, hdata,
      except_bind_ok.mpr ⟨rows, hrows, ?_⟩⟩⟩
    rw [if_neg hfooter]
    refine except_bind_ok.mpr ⟨year, hyear, except_bind_ok.mpr ⟨success, hsuccess,
      except_bind_ok.mpr ⟨notIncluded, hnotIncluded, ?_⟩⟩⟩
    rw [if_neg hexcluded]
    exact except_bind_ok.mpr ⟨parsed, hparsed, except_bind_ok.mpr ⟨total, htotal, rfl⟩⟩
  · rintro ⟨reading, hread, hadds⟩
    obtain ⟨block, hblock, hread⟩ := except_bind_ok.mp hread
    obtain ⟨transactionData, hdata, hread⟩ := except_bind_ok.mp hread
    obtain ⟨rows, hrows, hread⟩ := except_bind_ok.mp hread
    refine except_bind_ok.mpr ⟨block, hblock, except_bind_ok.mpr ⟨transactionData, hdata,
      except_bind_ok.mpr ⟨rows, hrows, ?_⟩⟩⟩
    by_cases hfooter : isNull (JsValue.get block "Year") = true ∧ rows.length = 0
    · rw [if_pos hfooter] at hread ⊢
      rw [← Except.ok.inj hread] at hadds
      rw [show state' = state from hadds]
      rfl
    rw [if_neg hfooter] at hread ⊢
    obtain ⟨year, hyear, hread⟩ := except_bind_ok.mp hread
    obtain ⟨success, hsuccess, hread⟩ := except_bind_ok.mp hread
    obtain ⟨notIncluded, hnotIncluded, hread⟩ := except_bind_ok.mp hread
    by_cases hexcluded : notIncluded.length > 0
    · rw [if_pos hexcluded] at hread
      cases hread
    rw [if_neg hexcluded] at hread
    obtain ⟨parsed, hparsed, hread⟩ := except_bind_ok.mp hread
    obtain ⟨total, htotal, hread⟩ := except_bind_ok.mp hread
    rw [← Except.ok.inj hread] at hadds
    obtain ⟨hseen, hbalanced, groups, hdeposits, rfl⟩ := hadds
    refine except_bind_ok.mpr ⟨year, hyear, ?_⟩
    rw [if_neg hseen]
    refine except_bind_ok.mpr ⟨success, hsuccess, except_bind_ok.mpr ⟨notIncluded, hnotIncluded, ?_⟩⟩
    rw [if_neg hexcluded]
    exact except_bind_ok.mpr ⟨groups,
      (addYear_ok year).mpr ⟨parsed, total, hparsed, htotal, hbalanced, hdeposits⟩, rfl⟩

/-- The years of a history, once they are read. -/
theorem years_ok {step : YearsState → JsValue → Except ParseError YearsState}
    {read : JsValue → Except ParseError (Option YearReading)}
    (hstep : ∀ state raw state', step state raw = .ok state' ↔
      ∃ reading, read raw = .ok reading ∧ AddsYear host observedAt components state reading state')
    {blocks : List JsValue} {seen : List String} {groups : SourceGroups} (hseen : seen.Nodup)
    {groups' : SourceGroups} :
    (∃ seen', blocks.foldlM step (seen, groups) = .ok (seen', groups')) ↔
      ∃ readings, blocks.mapM read = .ok readings ∧
        (seen ++ readings.reduceOption.map (·.year)).Nodup ∧
        (∀ year ∈ readings.reduceOption, year.Balanced components) ∧
        addDeposits host observedAt components groups
          (readings.reduceOption.flatMap fun year => depositsOf year.rows) = .ok groups' := by
  induction blocks generalizing seen groups with
  | nil =>
      constructor
      · rintro ⟨seen', h⟩
        obtain ⟨rfl, rfl⟩ := Prod.mk.inj (Except.ok.inj h)
        refine ⟨[], rfl, ?_, fun _ hy => absurd hy List.not_mem_nil, rfl⟩
        change (seen ++ []).Nodup
        rwa [List.append_nil]
      · rintro ⟨readings, hread, -, -, h⟩
        rw [← Except.ok.inj hread] at h
        exact ⟨seen, congrArg (fun groups => Except.ok (seen, groups)) (Except.ok.inj h)⟩
  | cons raw blocks ih =>
      constructor
      · rintro ⟨seen', h⟩
        rw [List.foldlM_cons] at h
        obtain ⟨middle, hmiddle, h⟩ := except_bind_ok.mp h
        obtain ⟨reading, hreading, hadds⟩ := (hstep _ raw middle).mp hmiddle
        have hall : ∀ {readings}, blocks.mapM read = .ok readings →
            (raw :: blocks).mapM read = .ok (reading :: readings) := by
          intro readings hreadings
          rw [List.mapM_cons]
          exact except_bind_ok.mpr ⟨reading, hreading, except_bind_ok.mpr ⟨readings, hreadings, rfl⟩⟩
        cases reading with
        | none =>
            rw [show middle = (seen, groups) from hadds] at h
            obtain ⟨readings, hreadings, hrest⟩ := (ih hseen).mp ⟨seen', h⟩
            exact ⟨none :: readings, hall hreadings, hrest⟩
        | some year =>
            obtain ⟨hnew, hbalanced, added, hadded, rfl⟩ := hadds
            have hnodup : (seen ++ [year.year]).Nodup := by
              rw [← List.concat_eq_append]
              exact hseen.concat hnew
            obtain ⟨readings, hreadings, hyears, heach, hdeposits⟩ := (ih hnodup).mp ⟨seen', h⟩
            refine ⟨some year :: readings, hall hreadings, ?_, ?_, ?_⟩
            · rw [List.append_assoc] at hyears
              exact hyears
            · intro other hother
              rcases List.mem_cons.mp hother with rfl | hother
              · exact hbalanced
              · exact heach other hother
            · exact addDeposits_append.mpr ⟨added, hadded, hdeposits⟩
      · rintro ⟨all, hread, hyears, heach, hdeposits⟩
        rw [List.mapM_cons] at hread
        obtain ⟨reading, hreading, hread⟩ := except_bind_ok.mp hread
        obtain ⟨readings, hreadings, hread⟩ := except_bind_ok.mp hread
        rw [← Except.ok.inj hread] at hyears heach hdeposits
        cases reading with
        | none =>
            obtain ⟨seen', h⟩ := (ih hseen).mpr ⟨readings, hreadings, hyears, heach, hdeposits⟩
            refine ⟨seen', ?_⟩
            rw [List.foldlM_cons]
            exact except_bind_ok.mpr ⟨(seen, groups), (hstep _ raw _).mpr ⟨none, hreading, rfl⟩, h⟩
        | some year =>
            obtain ⟨added, hadded, hrest⟩ := addDeposits_append.mp hdeposits
            change (seen ++ ([year.year] ++ readings.reduceOption.map (·.year))).Nodup at hyears
            rw [← List.append_assoc] at hyears
            have hnodup := (List.nodup_append.mp hyears).1
            have hnew : year.year ∉ seen := by
              intro hmem
              exact (List.nodup_append.mp hnodup).2.2 _ hmem _ List.mem_cons_self rfl
            obtain ⟨seen', h⟩ := (ih hnodup).mpr ⟨readings, hreadings, hyears,
              fun other hother => heach other (List.mem_cons_of_mem _ hother), hrest⟩
            refine ⟨seen', ?_⟩
            rw [List.foldlM_cons]
            exact except_bind_ok.mpr ⟨(seen ++ [year.year], added), (hstep _ raw _).mpr
              ⟨some year, hreading, hnew, heach year List.mem_cons_self, added, hadded, rfl⟩, h⟩

end

section
variable {host : Host} {observedAt : String}

/-- A pension is read and then added, -/
theorem pensionHistory_ok {data : JsFields} {groups groups' : SourceGroups} {productId : String} :
    pensionHistory host observedAt data groups = .ok (productId, groups') ↔
      ∃ reading, readPensionHistory host data = .ok reading ∧ reading.productId = productId ∧
        reading.Balanced ∧ addDeposits host observedAt (componentsOf reading.family) groups
          reading.deposits = .ok groups' := by
  constructor
  · intro h
    obtain ⟨details, hdetails, h⟩ := except_bind_ok.mp h
    obtain ⟨⟨id, providerProductId⟩, hid, h⟩ := except_bind_ok.mp h
    obtain ⟨blocks, hblocks, h⟩ := except_bind_ok.mp h
    obtain ⟨⟨seen, added⟩, hadded, h⟩ := except_bind_ok.mp h
    obtain ⟨rfl, rfl⟩ := Prod.mk.inj (Except.ok.inj h)
    obtain ⟨years, hyears, hnodup, heach, hdeposits⟩ :=
      (years_ok pensionYear_ok List.nodup_nil).mp ⟨seen, hadded⟩
    refine ⟨⟨.pension, id, years.reduceOption⟩, ?_, rfl, ⟨hnodup, heach⟩, hdeposits⟩
    exact except_bind_ok.mpr ⟨details, hdetails, except_bind_ok.mpr ⟨(id, providerProductId), hid,
      except_bind_ok.mpr ⟨blocks, hblocks, except_bind_ok.mpr ⟨years, hyears, rfl⟩⟩⟩⟩
  · rintro ⟨reading, hread, rfl, hbalanced, hdeposits⟩
    obtain ⟨details, hdetails, hread⟩ := except_bind_ok.mp hread
    obtain ⟨⟨id, providerProductId⟩, hid, hread⟩ := except_bind_ok.mp hread
    obtain ⟨blocks, hblocks, hread⟩ := except_bind_ok.mp hread
    obtain ⟨years, hyears, hread⟩ := except_bind_ok.mp hread
    obtain rfl := Except.ok.inj hread
    obtain ⟨seen, hrun⟩ := (years_ok pensionYear_ok List.nodup_nil).mpr
      ⟨years, hyears, hbalanced.years, hbalanced.each, hdeposits⟩
    exact except_bind_ok.mpr ⟨details, hdetails, except_bind_ok.mpr ⟨(id, providerProductId), hid,
      except_bind_ok.mpr ⟨blocks, hblocks, except_bind_ok.mpr ⟨(seen, groups'), hrun, rfl⟩⟩⟩⟩

/-- and so is a fund. -/
theorem gemelHistory_ok {data : JsFields} {groups groups' : SourceGroups} {productId : String} :
    gemelHistory host observedAt data groups = .ok (productId, groups') ↔
      ∃ reading, readGemelHistory host data = .ok reading ∧ reading.productId = productId ∧
        reading.Balanced ∧ addDeposits host observedAt (componentsOf reading.family) groups
          reading.deposits = .ok groups' := by
  unfold gemelHistory readGemelHistory
  by_cases hflag : isTrue (JsValue.get data "IsHishtalmut") = true
  swap
  · rw [if_neg hflag, if_neg hflag]
    constructor
    · intro h
      cases h
    · rintro ⟨reading, hread, -⟩
      cases hread
  rw [if_pos hflag, if_pos hflag]
  constructor
  · intro h
    obtain ⟨details, hdetails, h⟩ := except_bind_ok.mp h
    obtain ⟨⟨id, providerProductId⟩, hid, h⟩ := except_bind_ok.mp h
    obtain ⟨tab, htab, h⟩ := except_bind_ok.mp h
    obtain ⟨blocks, hblocks, h⟩ := except_bind_ok.mp h
    obtain ⟨⟨seen, added⟩, hadded, h⟩ := except_bind_ok.mp h
    obtain ⟨rfl, rfl⟩ := Prod.mk.inj (Except.ok.inj h)
    obtain ⟨years, hyears, hnodup, heach, hdeposits⟩ :=
      (years_ok gemelYear_ok List.nodup_nil).mp ⟨seen, hadded⟩
    refine ⟨⟨.hishtalmut, id, years.reduceOption⟩, ?_, rfl, ⟨hnodup, heach⟩, hdeposits⟩
    exact except_bind_ok.mpr ⟨details, hdetails, except_bind_ok.mpr ⟨(id, providerProductId), hid,
      except_bind_ok.mpr ⟨tab, htab, except_bind_ok.mpr ⟨blocks, hblocks,
        except_bind_ok.mpr ⟨years, hyears, rfl⟩⟩⟩⟩⟩
  · rintro ⟨reading, hread, rfl, hbalanced, hdeposits⟩
    obtain ⟨details, hdetails, hread⟩ := except_bind_ok.mp hread
    obtain ⟨⟨id, providerProductId⟩, hid, hread⟩ := except_bind_ok.mp hread
    obtain ⟨tab, htab, hread⟩ := except_bind_ok.mp hread
    obtain ⟨blocks, hblocks, hread⟩ := except_bind_ok.mp hread
    obtain ⟨years, hyears, hread⟩ := except_bind_ok.mp hread
    obtain rfl := Except.ok.inj hread
    obtain ⟨seen, hrun⟩ := (years_ok gemelYear_ok List.nodup_nil).mpr
      ⟨years, hyears, hbalanced.years, hbalanced.each, hdeposits⟩
    exact except_bind_ok.mpr ⟨details, hdetails, except_bind_ok.mpr ⟨(id, providerProductId), hid,
      except_bind_ok.mpr ⟨tab, htab, except_bind_ok.mpr ⟨blocks, hblocks,
        except_bind_ok.mpr ⟨(seen, groups'), hrun, rfl⟩⟩⟩⟩⟩

variable {snapshot : InvestmentSnapshot} {family : ClalFamily}

/-- A response, once it is read. -/
theorem addHistory_ok {state state' : HistoriesState} {response : ClalApiResponse} :
    addHistory host snapshot family state response = .ok state' ↔
      ∃ reading, readHistory host family response = .ok reading ∧
        reading.productId ∉ state.2 ∧ reading.productId ∈ snapshot.products.map (·.id) ∧
        reading.Balanced ∧ ∃ groups, addDeposits host snapshot.observedAt
          (componentsOf reading.family) state.1 reading.deposits = .ok groups ∧
            state' = (groups, state.2 ++ [reading.productId]) := by
  have hhistory : ∀ {data : JsFields} {productId : String} {groups : SourceGroups},
      history host family snapshot.observedAt data state.1 = .ok (productId, groups) ↔
        ∃ reading : HistoryReading, (match family with
          | .pension => readPensionHistory host data
          | .hishtalmut => readGemelHistory host data) = .ok reading ∧
          reading.productId = productId ∧ reading.Balanced ∧
          addDeposits host snapshot.observedAt (componentsOf reading.family) state.1
            reading.deposits = .ok groups := by
    intro data productId groups
    cases family with
    | pension => exact pensionHistory_ok
    | hishtalmut => exact gemelHistory_ok
  constructor
  · intro h
    obtain ⟨data, hdata, h⟩ := except_bind_ok.mp h
    obtain ⟨⟨productId, groups⟩, hgroups, h⟩ := except_bind_ok.mp h
    obtain ⟨reading, hread, rfl, hbalanced, hdeposits⟩ := hhistory.mp hgroups
    dsimp only at h
    by_cases hrefused : reading.productId ∈ state.2 ∨
        reading.productId ∉ snapshot.products.map (·.id)
    · rw [if_pos hrefused] at h
      cases h
    rw [if_neg hrefused] at h
    rw [not_or, not_not] at hrefused
    exact ⟨reading, except_bind_ok.mpr ⟨data, hdata, hread⟩, hrefused.1, hrefused.2, hbalanced,
      groups, hdeposits, (Except.ok.inj h).symm⟩
  · rintro ⟨reading, hread, hnew, hknown, hbalanced, groups, hdeposits, rfl⟩
    obtain ⟨data, hdata, hread⟩ := except_bind_ok.mp hread
    refine except_bind_ok.mpr ⟨data, hdata, except_bind_ok.mpr ⟨(reading.productId, groups),
      hhistory.mpr ⟨reading, hread, rfl, hbalanced, hdeposits⟩, ?_⟩⟩
    dsimp only
    rw [if_neg (not_or.mpr ⟨hnew, not_not.mpr hknown⟩)]
    rfl

variable (host observedAt) in
/-- The deposits of all histories, one after another. -/
def addReadings (groups : SourceGroups) (readings : List HistoryReading) :
    Except ParseError SourceGroups :=
  readings.foldlM (fun groups reading =>
    addDeposits host observedAt (componentsOf reading.family) groups reading.deposits) groups

/-- The responses of a family, once they are read. -/
theorem histories_ok {responses : List ClalApiResponse} {state state' : HistoriesState}
    (hcovered : state.2.Nodup) :
    responses.foldlM (addHistory host snapshot family) state = .ok state' ↔
      ∃ readings, responses.mapM (readHistory host family) = .ok readings ∧
        (state.2 ++ readings.map (·.productId)).Nodup ∧
        (∀ reading ∈ readings, reading.productId ∈ snapshot.products.map (·.id)) ∧
        (∀ reading ∈ readings, reading.Balanced) ∧
        addReadings host snapshot.observedAt state.1 readings = .ok state'.1 ∧
        state'.2 = state.2 ++ readings.map (·.productId) := by
  induction responses generalizing state with
  | nil =>
      constructor
      · intro h
        obtain rfl := Except.ok.inj h
        refine ⟨[], rfl, ?_, fun _ hr => absurd hr List.not_mem_nil,
          fun _ hr => absurd hr List.not_mem_nil, rfl, (List.append_nil _).symm⟩
        rw [List.map_nil, List.append_nil]
        exact hcovered
      · rintro ⟨readings, hread, -, -, -, hgroups, hids⟩
        obtain rfl : [] = readings := Except.ok.inj hread
        rw [List.map_nil, List.append_nil] at hids
        exact congrArg Except.ok (Prod.ext (Except.ok.inj hgroups) hids.symm)
  | cons response responses ih =>
      have happend : ∀ (first : HistoryReading) (rest : List HistoryReading),
          state.2 ++ [first.productId] ++ rest.map (·.productId) =
            state.2 ++ (first :: rest).map (·.productId) := by
        intro first rest
        rw [List.append_assoc, List.singleton_append, List.map_cons]
      constructor
      · intro h
        rw [List.foldlM_cons] at h
        obtain ⟨middle, hmiddle, h⟩ := except_bind_ok.mp h
        obtain ⟨reading, hreading, hnew, hknown, hbalanced, groups, hdeposits, rfl⟩ :=
          addHistory_ok.mp hmiddle
        have hnodup : (state.2 ++ [reading.productId]).Nodup := by
          rw [← List.concat_eq_append]
          exact hcovered.concat hnew
        obtain ⟨readings, hreadings, hids, hall, hbalancedAll, hgroups, hcovers⟩ :=
          (ih hnodup).mp h
        rw [happend] at hids hcovers
        refine ⟨reading :: readings, ?_, hids, ?_, ?_, ?_, hcovers⟩
        · rw [List.mapM_cons]
          exact except_bind_ok.mpr ⟨reading, hreading,
            except_bind_ok.mpr ⟨readings, hreadings, rfl⟩⟩
        · exact List.forall_mem_cons.mpr ⟨hknown, hall⟩
        · exact List.forall_mem_cons.mpr ⟨hbalanced, hbalancedAll⟩
        · unfold addReadings
          rw [List.foldlM_cons]
          exact except_bind_ok.mpr ⟨groups, hdeposits, hgroups⟩
      · rintro ⟨all, hread, hids, hknown, hbalanced, hgroups, hcovers⟩
        rw [List.mapM_cons] at hread
        obtain ⟨reading, hreading, hread⟩ := except_bind_ok.mp hread
        obtain ⟨readings, hreadings, hread⟩ := except_bind_ok.mp hread
        rw [← Except.ok.inj hread] at hids hknown hbalanced hgroups hcovers
        unfold addReadings at hgroups
        rw [List.foldlM_cons] at hgroups
        obtain ⟨groups, hdeposits, hrest⟩ := except_bind_ok.mp hgroups
        rw [← happend] at hids hcovers
        have hnodup := (List.nodup_append.mp hids).1
        have hnew : reading.productId ∉ state.2 := by
          intro hmem
          exact (List.nodup_append.mp hnodup).2.2 _ hmem _ List.mem_cons_self rfl
        obtain ⟨hknownFirst, hknownRest⟩ := List.forall_mem_cons.mp hknown
        obtain ⟨hbalancedFirst, hbalancedRest⟩ := List.forall_mem_cons.mp hbalanced
        rw [List.foldlM_cons]
        refine except_bind_ok.mpr ⟨(groups, state.2 ++ [reading.productId]), addHistory_ok.mpr
          ⟨reading, hreading, hnew, hknownFirst, hbalancedFirst, groups, hdeposits, rfl⟩, ?_⟩
        exact (ih hnodup).mpr ⟨readings, hreadings, hids, hknownRest, hbalancedRest, hrest, hcovers⟩

end

/-! ## Cells -/

section
variable {host : Host} {observedAt : String}

/-- Cells behind cells. -/
theorem addCells_append {groups groups' : SourceGroups} {cells others : List Cell} :
    addCells host observedAt groups (cells ++ others) = .ok groups' ↔
      ∃ middle, addCells host observedAt groups cells = .ok middle ∧
        addCells host observedAt middle others = .ok groups' := by
  unfold addCells Tallies.addAll
  rw [List.foldlM_append]
  exact except_bind_ok

/-- The groups of a deposit are those of its cells. -/
theorem addGroups_ok {components : List DepositComponent} {groups groups' : SourceGroups}
    {deposit : Deposit} :
    addGroups host observedAt groups deposit.dimensions components deposit.amounts = .ok groups' ↔
      deposit.dimensions.Dated ∧
        addCells host observedAt groups (deposit.cells components) = .ok groups' := by
  have hcells : addCells host observedAt groups (deposit.cells components) =
      Tallies.addAll (fun cell => groupSourceId host deposit.dimensions cell.1)
        (fun cell => groupActivity host observedAt deposit.dimensions cell.1) (fun cell => cell.2)
        groups (components.zip deposit.amounts) := by
    unfold addCells Tallies.addAll Deposit.cells
    rw [List.foldlM_map]
  rw [hcells]
  unfold addGroups
  by_cases hdated : deposit.dimensions.bookingDate.or deposit.dimensions.salaryMonth = none
  · rw [if_pos hdated]
    constructor
    · intro h
      cases h
    · intro h
      exact absurd hdated h.1
  · rw [if_neg hdated]
    constructor
    · intro h
      exact ⟨hdated, h⟩
    · intro h
      exact h.2

/-- Deposits are added cell by cell. -/
theorem addDeposits_ok {components : List DepositComponent} {groups groups' : SourceGroups}
    {deposits : List Deposit} :
    addDeposits host observedAt components groups deposits = .ok groups' ↔
      (∀ deposit ∈ deposits, deposit.dimensions.Dated) ∧
        addCells host observedAt groups (deposits.flatMap (·.cells components)) = .ok groups' := by
  induction deposits generalizing groups with
  | nil =>
      constructor
      · intro h
        exact ⟨fun _ hd => absurd hd List.not_mem_nil, h⟩
      · intro h
        exact h.2
  | cons deposit deposits ih =>
      rw [List.flatMap_cons, addCells_append, List.forall_mem_cons]
      unfold addDeposits
      rw [List.foldlM_cons]
      constructor
      · intro h
        obtain ⟨middle, hfirst, hrest⟩ := except_bind_ok.mp h
        obtain ⟨hdated, hcells⟩ := addGroups_ok.mp hfirst
        obtain ⟨hdatedRest, hcellsRest⟩ := ih.mp hrest
        exact ⟨⟨hdated, hdatedRest⟩, middle, hcells, hcellsRest⟩
      · rintro ⟨⟨hdated, hdatedRest⟩, middle, hcells, hcellsRest⟩
        exact except_bind_ok.mpr ⟨middle, addGroups_ok.mpr ⟨hdated, hcells⟩,
          ih.mpr ⟨hdatedRest, hcellsRest⟩⟩

/-- Histories are added where they add up. -/
theorem addReadings_ok {groups groups' : SourceGroups} {readings : List HistoryReading} :
    addReadings host observedAt groups readings = .ok groups' ↔
      (∀ reading ∈ readings, ∀ deposit ∈ reading.deposits, deposit.dimensions.Dated) ∧
        addCells host observedAt groups (readings.flatMap (·.cells)) = .ok groups' := by
  induction readings generalizing groups with
  | nil =>
      constructor
      · intro h
        exact ⟨fun _ hr => absurd hr List.not_mem_nil, h⟩
      · intro h
        exact h.2
  | cons reading readings ih =>
      rw [List.flatMap_cons, addCells_append, List.forall_mem_cons]
      unfold addReadings
      rw [List.foldlM_cons]
      constructor
      · intro h
        obtain ⟨middle, hfirst, hrest⟩ := except_bind_ok.mp h
        obtain ⟨hdated, hcells⟩ := addDeposits_ok.mp hfirst
        obtain ⟨hdatedRest, hcellsRest⟩ := ih.mp hrest
        exact ⟨⟨hdated, hdatedRest⟩, middle, hcells, hcellsRest⟩
      · rintro ⟨⟨hdated, hdatedRest⟩, middle, hcells, hcellsRest⟩
        exact except_bind_ok.mpr ⟨middle, addDeposits_ok.mpr ⟨hdated, hcells⟩,
          ih.mpr ⟨hdatedRest, hcellsRest⟩⟩

/-- Histories behind histories. -/
theorem addReadings_append {groups groups' : SourceGroups} {readings others : List HistoryReading} :
    addReadings host observedAt groups (readings ++ others) = .ok groups' ↔
      ∃ middle, addReadings host observedAt groups readings = .ok middle ∧
        addReadings host observedAt middle others = .ok groups' := by
  unfold addReadings
  rw [List.foldlM_append]
  exact except_bind_ok

end

/-! ## Acceptance -/

/-- The readings that an enrichment accepts: one for each of some products of
the snapshot, which add up and whose deposits have dates. -/
structure Acceptable (snapshot : InvestmentSnapshot) (readings : List HistoryReading) : Prop where
  distinct : (readings.map (·.productId)).Nodup
  known : ∀ reading ∈ readings, reading.productId ∈ snapshot.products.map (·.id)
  balanced : ∀ reading ∈ readings, reading.Balanced
  dated : ∀ reading ∈ readings, ∀ deposit ∈ reading.deposits, deposit.dimensions.Dated

section
variable (host : Host)

/-- A snapshot with the activities of some groups, before it is parsed. -/
def enrichedSnapshot (snapshot : InvestmentSnapshot) (groups : SourceGroups)
    (covered : List String) : InvestmentSnapshot :=
  { snapshot with
    activities := sortActivities host ((snapshot.activities ++ groups.rows.map settledActivity).foldl
      KeyedTable.put (.empty : KeyedTable InvestmentActivity InvestmentActivity.id)).rows
    products := snapshot.products.map (coverActivities covered) }

variable {host} {snapshot result : InvestmentSnapshot} {input : ClalHistoryInput}

/-- **All histories are read first.** -/
theorem readInput_ok {readings : List HistoryReading} :
    readInput host input = .ok readings ↔ ∃ pensions funds,
      input.pensionDetails.mapM (readHistory host .pension) = .ok pensions ∧
        input.gemelDetails.mapM (readHistory host .hishtalmut) = .ok funds ∧
        readings = pensions ++ funds := by
  constructor
  · intro h
    obtain ⟨pensions, hpensions, h⟩ := except_bind_ok.mp h
    obtain ⟨funds, hfunds, h⟩ := except_bind_ok.mp h
    exact ⟨pensions, funds, hpensions, hfunds, (Except.ok.inj h).symm⟩
  · rintro ⟨pensions, funds, hpensions, hfunds, rfl⟩
    exact except_bind_ok.mpr ⟨pensions, hpensions, except_bind_ok.mpr ⟨funds, hfunds, rfl⟩⟩

/-- **What an enrichment accepts**, and what it returns. -/
theorem enrichClalActivities_ok_iff :
    enrichClalActivities host snapshot input = .ok result ↔ ∃ readings groups,
      readInput host input = .ok readings ∧ Acceptable snapshot readings ∧
        addCells host snapshot.observedAt .empty (readings.flatMap (·.cells)) = .ok groups ∧
        parseSnapshot host (enrichedSnapshot host snapshot groups (readings.map (·.productId))) =
          .ok result := by
  constructor
  · intro h
    obtain ⟨⟨before, coveredBefore⟩, hpensions, h⟩ := except_bind_ok.mp h
    obtain ⟨⟨groups, covered⟩, hfunds, h⟩ := except_bind_ok.mp h
    obtain ⟨pensions, hreadPensions, hidsPensions, hknownPensions, hbalancedPensions, haddPensions,
      hcoveredPensions⟩ := (histories_ok List.nodup_nil).mp hpensions
    dsimp only at hcoveredPensions
    subst hcoveredPensions
    obtain ⟨funds, hreadFunds, hids, hknownFunds, hbalancedFunds, haddFunds, hcovered⟩ :=
      (histories_ok hidsPensions).mp hfunds
    dsimp only at hcovered hids
    subst hcovered
    have hcells := addReadings_ok.mp (addReadings_append.mpr ⟨before, haddPensions, haddFunds⟩)
    rw [List.nil_append, ← List.map_append] at hids h
    refine ⟨pensions ++ funds, groups, readInput_ok.mpr ⟨pensions, funds, hreadPensions, hreadFunds,
      rfl⟩, ⟨hids, ?_, ?_, hcells.1⟩, hcells.2, orThrow_ok h⟩
    · exact List.forall_mem_append.mpr ⟨hknownPensions, hknownFunds⟩
    · exact List.forall_mem_append.mpr ⟨hbalancedPensions, hbalancedFunds⟩
  · rintro ⟨readings, groups, hread, haccepted, hcells, hparse⟩
    obtain ⟨pensions, funds, hpensions, hfunds, rfl⟩ := readInput_ok.mp hread
    obtain ⟨before, haddPensions, haddFunds⟩ := addReadings_append.mp
      (addReadings_ok.mpr ⟨haccepted.dated, hcells⟩)
    have hids := haccepted.distinct
    rw [List.map_append] at hids
    obtain ⟨hknownPensions, hknownFunds⟩ := List.forall_mem_append.mp haccepted.known
    obtain ⟨hbalancedPensions, hbalancedFunds⟩ := List.forall_mem_append.mp haccepted.balanced
    have hcoveredPensions : ([] : List String) ++ pensions.map (·.productId) =
        pensions.map (·.productId) := List.nil_append _
    refine except_bind_ok.mpr ⟨(before, pensions.map (·.productId)),
      (histories_ok List.nodup_nil).mpr ⟨pensions, hpensions, ?_, hknownPensions,
        hbalancedPensions, haddPensions, hcoveredPensions.symm⟩, ?_⟩
    · rw [hcoveredPensions]
      exact (List.nodup_append.mp hids).1
    refine except_bind_ok.mpr ⟨(groups, (pensions ++ funds).map (·.productId)),
      (histories_ok (List.nodup_append.mp hids).1).mpr ⟨funds, hfunds, hids, hknownFunds,
        hbalancedFunds, haddFunds, List.map_append⟩, ?_⟩
    change orThrow (parseSnapshot host (enrichedSnapshot host snapshot groups
      ((pensions ++ funds).map (·.productId)))) = _
    rw [hparse]
    rfl

end

end SimplefinBridge
