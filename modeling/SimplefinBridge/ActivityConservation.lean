import SimplefinBridge.ClalHistories

/-!
# Conservation of deposits

An enrichment neither loses nor invents money: the activities of a product add
up to its annual totals, those of a component to its column over the deposit
rows, and every activity to the deposit rows that agree in all dimensions.
-/

namespace SimplefinBridge

open Decimals
open Transactional (except_bind_ok exists_of_mapM_ok)

/-! ## Deposits of a reading -/

/-- The cents in the column of a component. -/
def Deposit.columnCents (deposit : Deposit) (component : DepositComponent) : Int :=
  (clalCents (JsValue.get deposit.row component.column)).toOption.getD 0

/-- A deposit is of a product, and its amounts are those of its row. -/
structure Deposit.IsOf (deposit : Deposit) (family : ClalFamily) (productId : String) : Prop where
  product : deposit.dimensions.productId = productId
  amounts : (componentsOf family).mapM (fun component =>
    clalCents (JsValue.get deposit.row component.column)) = .ok deposit.amounts

section
variable {host : Host}

/-- The amounts of a row are the cents of its columns. -/
theorem componentAmounts_ok {row : JsFields} {components : List DepositComponent}
    {totalColumn : String} {amounts : List Int}
    (h : componentAmounts row components totalColumn = .ok amounts) :
    components.mapM (fun component => clalCents (JsValue.get row component.column)) =
      .ok amounts := by
  obtain ⟨read, hread, h⟩ := except_bind_ok.mp h
  obtain ⟨total, -, h⟩ := except_bind_ok.mp h
  by_cases htotal : read.sum ≠ total
  · rw [if_pos htotal] at h
    cases h
  · rw [if_neg htotal] at h
    rw [hread, ← Except.ok.inj h]

/-- A deposit that a row of a pension reports has its columns. -/
theorem pensionRow_deposit {productId year : String} {raw : JsValue} {row : SourceRow}
    {deposit : Deposit} (h : pensionRow host productId year raw = .ok row)
    (hdeposit : row.asDeposit = some deposit) : deposit.IsOf .pension productId := by
  obtain ⟨fields, -, h⟩ := except_bind_ok.mp h
  obtain ⟨amounts, hamounts, h⟩ := except_bind_ok.mp h
  obtain ⟨companyName, -, h⟩ := except_bind_ok.mp h
  obtain ⟨salary, -, h⟩ := except_bind_ok.mp h
  obtain ⟨booked, -, h⟩ := except_bind_ok.mp h
  split_ifs at h
  · rw [← Except.ok.inj h] at hdeposit
    cases hdeposit
  · rw [← Except.ok.inj h] at hdeposit
    rw [← Option.some.inj hdeposit]
    exact ⟨rfl, componentAmounts_ok hamounts⟩

/-- So has a deposit of a fund. -/
theorem gemelRow_deposit {details : JsFields} {productId year : String} {raw : JsValue}
    {row : SourceRow} {deposit : Deposit} (h : gemelRow host details productId year raw = .ok row)
    (hdeposit : row.asDeposit = some deposit) : deposit.IsOf .hishtalmut productId := by
  obtain ⟨fields, -, h⟩ := except_bind_ok.mp h
  obtain ⟨amounts, hamounts, h⟩ := except_bind_ok.mp h
  obtain ⟨description, -, h⟩ := except_bind_ok.mp h
  obtain ⟨salary, -, h⟩ := except_bind_ok.mp h
  obtain ⟨booked, -, h⟩ := except_bind_ok.mp h
  obtain ⟨track, -, h⟩ := except_bind_ok.mp h
  split_ifs at h
  · rw [← Except.ok.inj h] at hdeposit
    cases hdeposit
  · obtain ⟨employerId, -, h⟩ := except_bind_ok.mp h
    obtain ⟨employerName, -, h⟩ := except_bind_ok.mp h
    rw [← Except.ok.inj h] at hdeposit
    rw [← Option.some.inj hdeposit]
    exact ⟨rfl, componentAmounts_ok hamounts⟩

/-- The deposits of the rows that a reader reads. -/
theorem depositsOf_read {family : ClalFamily} {productId : String}
    {read : JsValue → Except ParseError SourceRow}
    (hread : ∀ raw row deposit, read raw = .ok row → row.asDeposit = some deposit →
      deposit.IsOf family productId)
    {rawRows : List JsValue} {rows : List SourceRow} (h : rawRows.mapM read = .ok rows) :
    ∀ deposit ∈ depositsOf rows, deposit.IsOf family productId := by
  intro deposit hdeposit
  obtain ⟨row, hrow, hsome⟩ := List.mem_filterMap.mp hdeposit
  obtain ⟨raw, -, hraw⟩ := exists_of_mapM_ok h hrow
  exact hread raw row deposit hraw hsome

/-- The deposits of a pension's year, -/
theorem readPensionYear_deposits {productId : String} {raw : JsValue} {year : YearReading}
    (h : readPensionYear host productId raw = .ok (some year)) :
    ∀ deposit ∈ depositsOf year.rows, deposit.IsOf .pension productId := by
  obtain ⟨block, -, h⟩ := except_bind_ok.mp h
  obtain ⟨name, -, h⟩ := except_bind_ok.mp h
  obtain ⟨data, -, h⟩ := except_bind_ok.mp h
  obtain ⟨rawRows, -, h⟩ := except_bind_ok.mp h
  obtain ⟨rows, hrows, h⟩ := except_bind_ok.mp h
  obtain ⟨total, -, h⟩ := except_bind_ok.mp h
  rw [← Option.some.inj (Except.ok.inj h)]
  exact depositsOf_read (fun _ _ _ => pensionRow_deposit) hrows

/-- and those of a fund's. -/
theorem readGemelYear_deposits {details : JsFields} {productId : String} {raw : JsValue}
    {year : YearReading} (h : readGemelYear host details productId raw = .ok (some year)) :
    ∀ deposit ∈ depositsOf year.rows, deposit.IsOf .hishtalmut productId := by
  obtain ⟨block, -, h⟩ := except_bind_ok.mp h
  obtain ⟨transactionData, -, h⟩ := except_bind_ok.mp h
  obtain ⟨rawRows, -, h⟩ := except_bind_ok.mp h
  split_ifs at h
  · cases h
  obtain ⟨name, -, h⟩ := except_bind_ok.mp h
  obtain ⟨success, -, h⟩ := except_bind_ok.mp h
  obtain ⟨notIncluded, -, h⟩ := except_bind_ok.mp h
  split_ifs at h
  obtain ⟨rows, hrows, h⟩ := except_bind_ok.mp h
  obtain ⟨total, -, h⟩ := except_bind_ok.mp h
  rw [← Option.some.inj (Except.ok.inj h)]
  exact depositsOf_read (fun _ _ _ => gemelRow_deposit) hrows

/-- What holds of each year's deposits holds of all that a reading has. -/
theorem deposits_of_years {family : ClalFamily} {productId : String}
    {read : JsValue → Except ParseError (Option YearReading)}
    (hread : ∀ raw year, read raw = .ok (some year) →
      ∀ deposit ∈ depositsOf year.rows, deposit.IsOf family productId)
    {blocks : List JsValue} {years : List (Option YearReading)}
    (h : blocks.mapM read = .ok years) :
    ∀ deposit ∈ HistoryReading.deposits ⟨family, productId, years.reduceOption⟩,
      deposit.IsOf family productId := by
  intro deposit hdeposit
  obtain ⟨year, hyear, hmem⟩ := List.mem_flatMap.mp hdeposit
  obtain ⟨raw, -, hraw⟩ := exists_of_mapM_ok h (List.reduceOption_mem_iff.mp hyear)
  exact hread raw year hraw deposit hmem

/-- What a response says is about one product. -/
theorem readHistory_ok {family : ClalFamily} {response : ClalApiResponse}
    {reading : HistoryReading} (h : readHistory host family response = .ok reading) :
    IsProductId .clal reading.productId ∧
      ∀ deposit ∈ reading.deposits, deposit.IsOf reading.family reading.productId := by
  obtain ⟨data, -, h⟩ := except_bind_ok.mp h
  cases family with
  | pension =>
      obtain ⟨details, -, h⟩ := except_bind_ok.mp h
      obtain ⟨⟨id, providerProductId⟩, hid, h⟩ := except_bind_ok.mp h
      obtain ⟨blocks, -, h⟩ := except_bind_ok.mp h
      obtain ⟨years, hyears, h⟩ := except_bind_ok.mp h
      rw [← Except.ok.inj h]
      exact ⟨clalProductIdentity_ok hid,
        deposits_of_years (fun _ _ => readPensionYear_deposits) hyears⟩
  | hishtalmut =>
      dsimp only at h
      unfold readGemelHistory at h
      split_ifs at h
      obtain ⟨details, -, h⟩ := except_bind_ok.mp h
      obtain ⟨⟨id, providerProductId⟩, hid, h⟩ := except_bind_ok.mp h
      obtain ⟨tab, -, h⟩ := except_bind_ok.mp h
      obtain ⟨blocks, -, h⟩ := except_bind_ok.mp h
      obtain ⟨years, hyears, h⟩ := except_bind_ok.mp h
      rw [← Except.ok.inj h]
      exact ⟨clalProductIdentity_ok hid,
        deposits_of_years (fun _ _ => readGemelYear_deposits) hyears⟩

/-- What the responses say is about one product each. -/
theorem readInput_each {input : ClalHistoryInput} {readings : List HistoryReading}
    (h : readInput host input = .ok readings) :
    ∀ reading ∈ readings, IsProductId .clal reading.productId ∧
      ∀ deposit ∈ reading.deposits, deposit.IsOf reading.family reading.productId := by
  obtain ⟨pensions, funds, hpensions, hfunds, rfl⟩ := readInput_ok.mp h
  intro reading hreading
  rcases List.mem_append.mp hreading with hmem | hmem
  · obtain ⟨response, -, hread⟩ := exists_of_mapM_ok hpensions hmem
    exact readHistory_ok hread
  · obtain ⟨response, -, hread⟩ := exists_of_mapM_ok hfunds hmem
    exact readHistory_ok hread

end

/-! ## Cells of a deposit -/

section
variable {family : ClalFamily} {productId : String} {deposit : Deposit}

/-- The amounts of a deposit, column by column. -/
theorem Deposit.IsOf.amounts_eq (h : deposit.IsOf family productId) :
    deposit.amounts = (componentsOf family).map deposit.columnCents := by
  have hmap := Transactional.mapM_ok_iff.mp h.amounts
  have hcents : (componentsOf family).map deposit.columnCents =
      ((componentsOf family).map fun component =>
        clalCents (JsValue.get deposit.row component.column)).map fun read =>
          read.toOption.getD 0 := by
    rw [List.map_map]
    rfl
  rw [hcents, hmap, List.map_map]
  exact (List.map_id _).symm

/-- A cell for each column. -/
theorem Deposit.IsOf.cells_eq (h : deposit.IsOf family productId) :
    deposit.cells (componentsOf family) = (componentsOf family).map fun component =>
      ⟨deposit.dimensions, component, deposit.columnCents component⟩ := by
  unfold Deposit.cells
  rw [h.amounts_eq, List.zip_map_right, List.map_map]
  induction componentsOf family with
  | nil => rfl
  | cons component components ih =>
      rw [List.zip_cons_cons, List.map_cons, List.map_cons, ih]
      rfl

end

section
variable {reading : HistoryReading}

/-- The cells of a reading, deposit by deposit. -/
theorem HistoryReading.cells_eq
    (h : ∀ deposit ∈ reading.deposits, deposit.IsOf reading.family reading.productId) :
    reading.cells = reading.deposits.flatMap fun deposit => (componentsOf reading.family).map
      fun component => ⟨deposit.dimensions, component, deposit.columnCents component⟩ :=
  List.flatMap_congr fun deposit hdeposit => (h deposit hdeposit).cells_eq

/-- A cell is one column of one deposit. -/
theorem mem_cells (h : ∀ deposit ∈ reading.deposits,
    deposit.IsOf reading.family reading.productId) {cell : Cell} :
    cell ∈ reading.cells ↔ ∃ deposit ∈ reading.deposits, ∃ component ∈ componentsOf reading.family,
      cell = ⟨deposit.dimensions, component, deposit.columnCents component⟩ := by
  rw [HistoryReading.cells_eq h, List.mem_flatMap]
  constructor
  · rintro ⟨deposit, hdeposit, hcell⟩
    obtain ⟨component, hcomponent, rfl⟩ := List.mem_map.mp hcell
    exact ⟨deposit, hdeposit, component, hcomponent, rfl⟩
  · rintro ⟨deposit, hdeposit, component, hcomponent, rfl⟩
    exact ⟨deposit, hdeposit, List.mem_map_of_mem hcomponent⟩

end

/-! ## Annual totals -/

/-- A sum of sums. -/
theorem sum_flatMap {α : Type} (f : α → List Int) (items : List α) :
    (items.flatMap f).sum = (items.map fun a => (f a).sum).sum := by
  rw [List.flatMap_def, List.sum_flatten, List.map_map]
  rfl

/-- The sums of the columns add up to the sum of the deposits. -/
theorem sum_columnSums {start : List Int} {deposits : List Deposit}
    (h : ∀ deposit ∈ deposits, deposit.amounts.length = start.length) :
    (columnSums start deposits).sum =
      start.sum + (deposits.map fun deposit => deposit.amounts.sum).sum := by
  induction deposits generalizing start with
  | nil => exact (add_zero _).symm
  | cons deposit deposits ih =>
      obtain ⟨hfirst, hrest⟩ := List.forall_mem_cons.mp h
      have hlength : (List.zipWith (· + ·) start deposit.amounts).length = start.length := by
        rw [List.length_zipWith, hfirst, Nat.min_self]
      have hsum : (List.zipWith (· + ·) start deposit.amounts).sum =
          start.sum + deposit.amounts.sum :=
        (List.sum_add_sum_eq_sum_zipWith_of_length_eq start deposit.amounts hfirst.symm).symm
      have hstep : columnSums start (deposit :: deposits) =
          columnSums (List.zipWith (· + ·) start deposit.amounts) deposits := rfl
      rw [hstep, ih fun other hother => (hrest other hother).trans hlength.symm, hsum,
        List.map_cons, List.sum_cons, add_assoc]

/-- Annual totals that were accepted are the sum of the columns. -/
theorem checkAnnualTotals_ok {total : Int} {sums : List Int} {subtotal : Option (List Int)}
    (h : checkAnnualTotals total sums subtotal = .ok ()) : sums.sum = total := by
  unfold checkAnnualTotals at h
  split_ifs at h with hfails
  rw [not_or, not_ne_iff] at hfails
  exact hfails.1

/-- The deposits of a year add up to its total. -/
theorem YearReading.Balanced.total_eq {family : ClalFamily} {productId : String}
    {year : YearReading} (h : year.Balanced (componentsOf family))
    (hdeposits : ∀ deposit ∈ depositsOf year.rows, deposit.IsOf family productId) :
    year.total = ((depositsOf year.rows).map fun deposit => deposit.amounts.sum).sum := by
  have hzero : ((componentsOf family).map fun _ => (0 : Int)).sum = 0 := by
    cases family <;> rfl
  rw [← checkAnnualTotals_ok h.checked, sum_columnSums, hzero, zero_add]
  intro deposit hdeposit
  rw [(hdeposits deposit hdeposit).amounts_eq, List.length_map, List.length_map]

/-- **The cells of a history** add up to its annual totals. -/
theorem HistoryReading.Balanced.sum_cells {reading : HistoryReading} (h : reading.Balanced)
    (hdeposits : ∀ deposit ∈ reading.deposits, deposit.IsOf reading.family reading.productId) :
    (reading.cells.map (·.amount)).sum = (reading.years.map (·.total)).sum := by
  have hcells : (reading.cells.map (·.amount)).sum =
      (reading.deposits.map fun deposit => deposit.amounts.sum).sum := by
    unfold HistoryReading.cells
    rw [List.map_flatMap, sum_flatMap]
    refine congrArg List.sum (List.map_congr_left fun deposit hdeposit => ?_)
    have hof := hdeposits deposit hdeposit
    rw [hof.cells_eq, hof.amounts_eq, List.map_map]
    rfl
  rw [hcells]
  unfold HistoryReading.deposits
  rw [List.map_flatMap, sum_flatMap]
  refine congrArg List.sum (List.map_congr_left fun year hyear => ?_)
  have hyearDeposits : ∀ deposit ∈ depositsOf year.rows,
      deposit.IsOf reading.family reading.productId := fun deposit hdeposit =>
    hdeposits deposit (List.mem_flatMap.mpr ⟨year, hyear, hdeposit⟩)
  exact ((h.each year hyear).total_eq hyearDeposits).symm

/-! ## Names of groups -/

/-- Texts and their absence are written differently. -/
theorem jsonOptional_injective : Function.Injective jsonOptional := by
  intro a b h
  cases a with
  | none =>
      cases b with
      | none => rfl
      | some b => cases h
  | some a =>
      cases b with
      | none => cases h
      | some b => rw [Json.str.inj h]

/-- An optional text is a text or null. -/
theorem isTextOrNull_jsonOptional (text : Option String) :
    (jsonOptional text).isTextOrNull = true := by
  cases text <;> rfl

/-- A key names the dimensions, the column and the kind. -/
theorem groupKey_inj {host : Host} {dimensions dimensions' : Dimensions}
    {component component' : DepositComponent}
    (h : groupKey host dimensions component = groupKey host dimensions' component') :
    dimensions = dimensions' ∧ component.column = component'.column := by
  have htexts : ∀ (dimensions : Dimensions) (component : DepositComponent),
      ∀ item ∈ [Json.str "clal-deposit-source-group-v1", .str dimensions.productId,
        jsonOptional dimensions.employerId, jsonOptional dimensions.employerName,
        jsonOptional dimensions.bookingDate, jsonOptional dimensions.salaryMonth,
        .str dimensions.description, jsonOptional dimensions.track, .str component.column,
        .str component.kind.text], item.isTextOrNull = true := by
    intro dimensions component item hitem
    simp only [List.mem_cons, List.not_mem_nil, or_false] at hitem
    rcases hitem with rfl | rfl | rfl | rfl | rfl | rfl | rfl | rfl | rfl | rfl
    all_goals first
      | rfl
      | exact isTextOrNull_jsonOptional _
  have hitems := stringify_texts_inj (htexts dimensions component) (htexts dimensions' component')
    (String.ofList_inj.mp h)
  simp only [List.cons.injEq, Json.str.injEq, jsonOptional_injective.eq_iff] at hitems
  obtain ⟨-, hproduct, hemployerId, hemployerName, hbooking, hsalary, hdescription, htrack,
    hcolumn, -⟩ := hitems
  refine ⟨?_, hcolumn⟩
  cases dimensions
  cases dimensions'
  congr

/-- The columns of all components are distinct. -/
theorem component_of_column {family family' : ClalFamily} {component component' : DepositComponent}
    (h : component ∈ componentsOf family) (h' : component' ∈ componentsOf family')
    (hcolumn : component.column = component'.column) : component = component' := by
  have hall : ∀ c ∈ pensionComponents ++ gemelComponents,
      ∀ c' ∈ pensionComponents ++ gemelComponents, c.column = c'.column → c = c' := by
    decide
  have hmem : ∀ {f : ClalFamily} {c : DepositComponent}, c ∈ componentsOf f →
      c ∈ pensionComponents ++ gemelComponents := by
    intro f c hc
    cases f with
    | pension => exact List.mem_append_left _ hc
    | hishtalmut => exact List.mem_append_right _ hc
  exact hall component (hmem h) component' (hmem h') hcolumn

/-- The hash tells the groups of some cells apart. -/
def CollisionFree (host : Host) (cells : List Cell) : Prop :=
  ∀ a ∈ cells, ∀ b ∈ cells,
    host.sha256 (groupKey host a.dimensions a.component) =
      host.sha256 (groupKey host b.dimensions b.component) →
        groupKey host a.dimensions a.component = groupKey host b.dimensions b.component

section
variable {host : Host} {cells : List Cell}

/-- Cells of one group agree in everything but their amounts. -/
theorem CollisionFree.same_group (h : CollisionFree host cells)
    (hcomponents : ∀ cell ∈ cells, ∃ family, cell.component ∈ componentsOf family) {a b : Cell}
    (ha : a ∈ cells) (hb : b ∈ cells)
    (hsource : groupSourceId host a.dimensions a.component =
      groupSourceId host b.dimensions b.component) :
    a.dimensions = b.dimensions ∧ a.component = b.component := by
  obtain ⟨hdimensions, hcolumn⟩ := groupKey_inj
    (h a ha b hb ((String.append_right_inj "source-group-v1:").mp hsource))
  obtain ⟨family, hfamily⟩ := hcomponents a ha
  obtain ⟨family', hfamily'⟩ := hcomponents b hb
  exact ⟨hdimensions, component_of_column hfamily hfamily' hcolumn⟩

/-- Where no two keys have one digest, a digest determines the activity. -/
theorem CollisionFree.determined (h : CollisionFree host cells)
    (hcomponents : ∀ cell ∈ cells, ∃ family, cell.component ∈ componentsOf family)
    (observedAt : String) :
    Tallies.Determined (fun cell : Cell => groupSourceId host cell.dimensions cell.component)
      (fun cell => groupActivity host observedAt cell.dimensions cell.component) cells := by
  intro a ha b hb hsource
  obtain ⟨hdimensions, hcomponent⟩ := h.same_group hcomponents ha hb hsource
  dsimp only
  rw [hdimensions, hcomponent]

end

/-! ## Activities of groups -/

/-- Both ways to write cents agree. -/
theorem moneyOfCents_eq (n : Int) : moneyOfCents n = fromCents n := by
  have hfraction : ∀ k < 100, List.replicate (2 - (Nat.toDigits 10 k).length) '0' ++
      Nat.toDigits 10 k = [Nat.digitChar (k / 10), Nat.digitChar (k % 10)] := by
    decide
  have htens : n.natAbs % 100 / 10 = n.natAbs / 10 % 10 := by omega
  have hones : n.natAbs % 100 % 10 = n.natAbs % 10 := by omega
  rw [← String.toList_inj, fromCents_eq]
  unfold moneyOfCents
  rw [String.toList_ofList, hfraction _ (Nat.mod_lt _ (by decide)), htens, hones]

/-- Written cents are read back. -/
theorem cents_moneyOfCents (n : Int) : cents (moneyOfCents n) = n := by
  rw [moneyOfCents_eq, cents_fromCents]

section
variable {host : Host} {observedAt : String} {dimensions : Dimensions}
  {component : DepositComponent} {activity : InvestmentActivity}

/-- What an activity has of its group. -/
theorem groupActivity_ok (h : groupActivity host observedAt dimensions component = .ok activity) :
    activity.productId = dimensions.productId ∧ activity.kind = component.kind ∧
      activity.sourceId = groupSourceId host dimensions component ∧
      activity.description = groupDescription dimensions component ∧
      investmentActivityId activity.productId activity.sourceId = .ok activity.id := by
  unfold groupActivity at h
  split at h
  · cases h
  · obtain ⟨id, hid, h⟩ := except_bind_ok.mp h
    rw [← Except.ok.inj h]
    exact ⟨rfl, rfl, rfl, rfl, orThrow_ok hid⟩

/-- A digit of a digest needs no encoding. -/
theorem isEncodedChar_of_hash {c : Char} (h : isHashChar c = true) : isEncodedChar c = true := by
  have hall : ∀ n < 128, isHashChar (Char.ofNat n) = true → isEncodedChar (Char.ofNat n) = true := by
    decide +kernel
  have hsmall : c.toNat < 128 := by
    unfold isHashChar at h
    rcases Bool.or_eq_true_iff.mp h with hdigit | hletter
    · have hbound := (toNat_of_isDigit hdigit).2
      omega
    · have hbound : c ≤ 'f' := of_decide_eq_true (Bool.and_eq_true_iff.mp hletter).2
      have hnat : c.toNat ≤ 102 := hbound
      omega
  have hchar := hall c.toNat hsmall
  rw [Char.ofNat_toNat] at hchar
  exact hchar h

/-- The name of a group may stand in an id. -/
theorem isIdText_groupSourceId (hhash : HexDigests host) :
    IsIdText (groupSourceId host dimensions component) := by
  have hprefix : IsIdText "source-group-v1:" := forall_char_of_all (by decide)
  refine hprefix.append fun c hc => .inl (isEncodedChar_of_hash (hhash _ c hc))

/-- An activity's id is a text of an id. -/
theorem isIdText_activityId {productId sourceId id : String} (hproduct : IsIdText productId)
    (h : investmentActivityId productId sourceId = .ok id) : IsIdText id := by
  obtain ⟨segment, hsegment, hid⟩ := except_bind_ok.mp h
  rw [checked_ok hid]
  have hmark : IsIdText ":activity:" := forall_char_of_all (by decide)
  exact (hproduct.append hmark).append (isIdText_part hsegment)

/-- An activity id names its product and its source id. -/
theorem activityId_inj {productId productId' sourceId sourceId' id : String}
    (hproduct : IsProductId .clal productId) (hproduct' : IsProductId .clal productId')
    (htrimmed : jsTrim sourceId = sourceId) (htrimmed' : jsTrim sourceId' = sourceId')
    (h : investmentActivityId productId sourceId = .ok id)
    (h' : investmentActivityId productId' sourceId' = .ok id) :
    productId = productId' ∧ sourceId = sourceId' := by
  have hchars : ∀ {productId sourceId : String}, jsTrim sourceId = sourceId →
      investmentActivityId productId sourceId = .ok id →
        id.toList = productId.toList ++ ':' :: ("activity:".toList ++
          (encodeURIComponent sourceId).toList) := by
    intro productId sourceId htrimmed h
    obtain ⟨segment, hsegment, hid⟩ := except_bind_ok.mp h
    unfold part at hsegment
    split_ifs at hsegment
    rw [htrimmed] at hsegment
    rw [checked_ok hid, ← Except.ok.inj hsegment, String.toList_append, String.toList_append,
      List.append_assoc]
    rfl
  have hid := hchars htrimmed h
  have hid' := hchars htrimmed' h'
  have hsame := hproduct.eq_of_behind hproduct' hid hid' rfl
  refine ⟨hsame, ?_⟩
  rw [hid, hsame] at hid'
  have hsegment := List.append_cancel_left
    (List.cons.inj (List.append_cancel_left hid')).2
  exact encodeURIComponent_injective (String.toList_inj.mp hsegment)

/-- What joined texts begin and end with. -/
theorem intercalate_ends (sep first last : List Char) (middle : List (List Char)) :
    ∃ between, sep.intercalate (first :: (middle ++ [last])) = first ++ between ++ last := by
  induction middle generalizing first with
  | nil =>
      refine ⟨sep, ?_⟩
      rw [List.nil_append, List.intercalate_cons_cons, List.intercalate_singleton]
  | cons next middle ih =>
      obtain ⟨between, hbetween⟩ := ih next
      refine ⟨sep ++ next ++ between, ?_⟩
      rw [List.cons_append, List.intercalate_cons_cons, hbetween]
      simp only [List.append_assoc]

/-- A description begins with the label of the component and ends with the
words `Source group`. -/
theorem groupDescription_trimmed {family : ClalFamily} (h : component ∈ componentsOf family) :
    jsTrim (groupDescription dimensions component) = groupDescription dimensions component := by
  have hlabels : ∀ family, ∀ c ∈ componentsOf family,
      c.label ≠ "" ∧ c.label.toList.head?.map isJsSpace = some false := by
    intro family
    cases family <;> decide
  obtain ⟨hne, hlabel⟩ := hlabels family component h
  obtain ⟨first, hfirst, hspace⟩ := Option.map_eq_some_iff.mp hlabel
  have htexts : ∃ middle : List String, groupDescription dimensions component =
      "; ".intercalate (component.label :: (middle ++ ["Source group"])) := by
    unfold groupDescription
    have hkept : (some component.label).filter (· ≠ "") = some component.label := by
      simp [Option.filter, hne]
    rw [List.filterMap_cons, hkept]
    refine ⟨[dimensions.employerName, some dimensions.description,
      dimensions.salaryMonth.map ("Salary month " ++ ·), dimensions.track.map ("Track " ++ ·)].filterMap
        fun text => text.filter (· ≠ ""), ?_⟩
    have hlast : [some "Source group"].filterMap (fun text : Option String =>
        text.filter (· ≠ "")) = ["Source group"] := by decide
    rw [← hlast, ← List.filterMap_append]
    rfl
  obtain ⟨middle, hmiddle⟩ := htexts
  obtain ⟨between, hbetween⟩ := intercalate_ends "; ".toList component.label.toList
    "Source group".toList (middle.map String.toList)
  have hchars : (groupDescription dimensions component).toList =
      (component.label.toList ++ between ++ "Source grou".toList) ++ 'p' :: [] := by
    rw [hmiddle, String.toList_intercalate, List.map_cons, List.map_append, List.append_assoc]
    exact hbetween
  have hhead : ∀ d, (component.label.toList ++ between ++ "Source grou".toList).head? = some d →
      isJsSpace d = false := by
    intro d hd
    cases hlist : component.label.toList with
    | nil =>
        rw [hlist] at hfirst
        cases hfirst
    | cons e rest =>
        rw [hlist] at hfirst hd
        rw [← Option.some.inj hd, Option.some.inj hfirst]
        exact hspace
  rw [← String.toList_inj, jsTrim_append rfl hhead hchars, hchars]
  rfl

end

/-! ## Settled groups -/

/-- Some cells, and the groups to which they are added. -/
structure Settles (host : Host) (observedAt : String) (cells : List Cell)
    (groups : SourceGroups) : Prop where
  hashes : HexDigests host
  free : CollisionFree host cells
  products : ∀ cell ∈ cells, IsProductId .clal cell.dimensions.productId
  components : ∀ cell ∈ cells, ∃ family, cell.component ∈ componentsOf family
  added : addCells host observedAt .empty cells = .ok groups

/-- The activities of some groups. -/
def settled (groups : SourceGroups) : List InvestmentActivity := groups.rows.map settledActivity

namespace Settles

variable {host : Host} {observedAt : String} {cells : List Cell} {groups : SourceGroups}
  (h : Settles host observedAt cells groups)
include h

/-- The groups are a tally of the cells. -/
theorem isTally : Tallies.IsTally
    (fun cell : Cell => groupSourceId host cell.dimensions cell.component)
    (fun cell => groupActivity host observedAt cell.dimensions cell.component) (·.amount) cells
    groups := Tallies.addAll_isTally h.added

/-- A cell's key determines its activity. -/
theorem determined : Tallies.Determined
    (fun cell : Cell => groupSourceId host cell.dimensions cell.component)
    (fun cell => groupActivity host observedAt cell.dimensions cell.component) cells :=
  h.free.determined h.components observedAt

/-- Every group is that of a cell. -/
theorem cell_of_group {g : Tally String InvestmentActivity Int} (hg : g ∈ groups.rows) :
    ∃ cell ∈ cells, g.key = groupSourceId host cell.dimensions cell.component ∧
      groupActivity host observedAt cell.dimensions cell.component = .ok g.value := by
  obtain ⟨-, cell, hcell, hkey, hmake⟩ := h.isTally.group g hg
  exact ⟨cell, hcell, hkey.symm, hmake⟩

/-- A group is kept under the name of its activity. -/
theorem sourceId_eq {g : Tally String InvestmentActivity Int} (hg : g ∈ groups.rows) :
    g.value.sourceId = g.key := by
  obtain ⟨cell, -, hkey, hmake⟩ := h.cell_of_group hg
  rw [(groupActivity_ok hmake).2.2.1, hkey]

/-- The texts of an activity have no white space at their ends. -/
theorem trimmed {activity : InvestmentActivity} (hactivity : activity ∈ settled groups) :
    activity.trimmed = activity := by
  obtain ⟨g, hg, rfl⟩ := List.mem_map.mp hactivity
  obtain ⟨cell, hcell, -, hmake⟩ := h.cell_of_group hg
  obtain ⟨hproduct, -, hsource, hdescription, hid⟩ := groupActivity_ok hmake
  obtain ⟨family, hfamily⟩ := h.components cell hcell
  have hproductText : IsIdText g.value.productId := by
    rw [hproduct]
    exact (h.products cell hcell).isIdText
  have hidTrimmed : jsTrim g.value.id = g.value.id := (isIdText_activityId hproductText hid).trimmed
  have hsourceTrimmed : jsTrim g.value.sourceId = g.value.sourceId := by
    rw [hsource]
    exact (isIdText_groupSourceId h.hashes).trimmed
  have hdescriptionTrimmed : jsTrim g.value.description = g.value.description := by
    rw [hdescription]
    exact groupDescription_trimmed hfamily
  unfold InvestmentActivity.trimmed settledActivity
  dsimp only
  rw [hidTrimmed, hproductText.trimmed, hsourceTrimmed, hdescriptionTrimmed]

/-- The activities' ids are texts of ids. -/
theorem isIdText {activity : InvestmentActivity} (hactivity : activity ∈ settled groups) :
    IsIdText activity.id := by
  obtain ⟨g, hg, rfl⟩ := List.mem_map.mp hactivity
  obtain ⟨cell, hcell, -, hmake⟩ := h.cell_of_group hg
  obtain ⟨hproduct, -, -, -, hid⟩ := groupActivity_ok hmake
  refine isIdText_activityId ?_ hid
  rw [hproduct]
  exact (h.products cell hcell).isIdText

/-- Distinct groups have activities with distinct ids. -/
theorem nodup_ids : ((settled groups).map (·.id)).Nodup := by
  have hinjective : ∀ a ∈ groups.rows, ∀ b ∈ groups.rows,
      (settledActivity a).id = (settledActivity b).id → a = b := by
    intro a ha b hb hid
    obtain ⟨cell, hcell, hkey, hmake⟩ := h.cell_of_group ha
    obtain ⟨cell', hcell', hkey', hmake'⟩ := h.cell_of_group hb
    obtain ⟨hproduct, -, hsource, -, hown⟩ := groupActivity_ok hmake
    obtain ⟨hproduct', -, hsource', -, hown'⟩ := groupActivity_ok hmake'
    have hids : a.value.id = b.value.id := hid
    rw [hids, hproduct, hsource] at hown
    rw [hproduct', hsource'] at hown'
    have hsame := (activityId_inj (h.products cell hcell) (h.products cell' hcell')
      (isIdText_groupSourceId h.hashes).trimmed (isIdText_groupSourceId h.hashes).trimmed hown
      hown').2
    exact KeyedTable.eq_of_key_eq ha hb (by rw [hkey, hkey', hsame])
  unfold settled
  rw [List.map_map]
  exact List.Nodup.map_on hinjective groups.nodup.of_map

/-- **The activities that satisfy a condition** add up to the cells that do. -/
theorem sum_cents {P : InvestmentActivity → Bool} {Q : Cell → Bool}
    (hamount : ∀ activity amount, P { activity with amount := amount } = P activity)
    (hcondition : ∀ cell ∈ cells, ∀ activity,
      groupActivity host observedAt cell.dimensions cell.component = .ok activity →
        P activity = Q cell) :
    (((settled groups).filter P).map fun activity => cents activity.amount).sum =
      ((cells.filter Q).map (·.amount)).sum := by
  have hsettled : ((settled groups).filter P).map (fun activity => cents activity.amount) =
      (groups.rows.filter fun g => P g.value).map Tally.total := by
    unfold settled
    rw [List.filter_map, List.map_map]
    have hfilter : (P ∘ settledActivity) = fun g : Tally String InvestmentActivity Int =>
        P g.value := funext fun g => hamount g.value (moneyOfCents g.total)
    rw [hfilter]
    exact List.map_congr_left fun g _ => cents_moneyOfCents g.total
  rw [hsettled]
  exact h.isTally.sum_totals h.determined hcondition

end Settles

/-! ## Conservation -/

/-- The cells of some histories. -/
def cellsOf (readings : List HistoryReading) : List Cell := readings.flatMap (·.cells)

/-- The cents of the activities that satisfy a condition. -/
def activityCents (activities : List InvestmentActivity) (P : InvestmentActivity → Bool) : Int :=
  ((activities.filter P).map fun activity => cents activity.amount).sum

/-- What the activities of some histories add up to, and where they come from. -/
structure Conserves (host : Host) (readings : List HistoryReading)
    (activities : List InvestmentActivity) : Prop where
  /-- The activities of a product add up to its annual totals. -/
  totals : ∀ productId, activityCents activities (·.productId = productId) =
    (((readings.filter (·.productId = productId)).flatMap (·.years)).map (·.total)).sum
  /-- The activities of a kind add up to the column of its component. -/
  columns : ∀ reading ∈ readings, ∀ component ∈ componentsOf reading.family,
    activityCents activities (fun activity => activity.productId = reading.productId ∧
      activity.kind = component.kind) =
        (reading.deposits.map fun deposit => deposit.columnCents component).sum
  /-- All deposit rows of the same dimensions are added. -/
  rows : ∀ reading ∈ readings, ∀ deposit ∈ reading.deposits,
    ∀ component ∈ componentsOf reading.family, ∃ activity ∈ activities,
      activity.sourceId = groupSourceId host deposit.dimensions component ∧
        cents activity.amount =
          ((reading.deposits.filter fun other => other.dimensions = deposit.dimensions).map
            fun other => other.columnCents component).sum
  /-- There is no activity without a deposit row. -/
  only : ∀ activity ∈ activities, ∃ reading ∈ readings, ∃ deposit ∈ reading.deposits,
    ∃ component ∈ componentsOf reading.family, activity.productId = reading.productId ∧
      activity.kind = component.kind ∧
        activity.sourceId = groupSourceId host deposit.dimensions component

/-- The components of a family have distinct kinds. -/
theorem component_of_kind {family : ClalFamily} {component component' : DepositComponent}
    (h : component ∈ componentsOf family) (h' : component' ∈ componentsOf family)
    (hkind : component.kind = component'.kind) : component = component' := by
  have hall : ∀ family, ∀ c ∈ componentsOf family, ∀ c' ∈ componentsOf family,
      c.kind = c'.kind → c = c' := by
    intro family
    cases family <;> decide
  exact hall family component h component' h' hkind

/-- No column is listed twice. -/
theorem nodup_componentsOf (family : ClalFamily) : (componentsOf family).Nodup := by
  cases family <;> decide

/-- The amounts of a component in the cells of a deposit. -/
theorem sum_cells_filter {components : List DepositComponent} (hnodup : components.Nodup)
    {dimensions : Dimensions} {amountOf : DepositComponent → Int} {component : DepositComponent}
    (hmem : component ∈ components) {Q : Cell → Bool}
    (hcondition : ∀ c ∈ components, Q ⟨dimensions, c, amountOf c⟩ = decide (c = component)) :
    (((components.map fun c => (⟨dimensions, c, amountOf c⟩ : Cell)).filter Q).map
      (·.amount)).sum = amountOf component := by
  have hfilter : (components.map fun c => (⟨dimensions, c, amountOf c⟩ : Cell)).filter Q =
      (components.filter fun c => c = component).map fun c => ⟨dimensions, c, amountOf c⟩ := by
    rw [List.filter_map]
    exact congrArg _ (List.filter_congr hcondition)
  rw [hfilter, List.filter_eq, List.count_eq_one_of_mem hnodup hmem]
  exact add_zero _

section
variable {reading : HistoryReading}
  (hdeposits : ∀ deposit ∈ reading.deposits, deposit.IsOf reading.family reading.productId)
include hdeposits

/-- The cells of one column add up to its deposits. -/
theorem sum_cells_of_component {component : DepositComponent}
    (hcomponent : component ∈ componentsOf reading.family) {Q : Cell → Bool}
    {R : Deposit → Bool}
    (hcondition : ∀ deposit ∈ reading.deposits, ∀ c ∈ componentsOf reading.family, ∀ amount,
      Q ⟨deposit.dimensions, c, amount⟩ = (R deposit && decide (c = component))) :
    ((reading.cells.filter Q).map (·.amount)).sum =
      ((reading.deposits.filter R).map fun deposit => deposit.columnCents component).sum := by
  rw [HistoryReading.cells_eq hdeposits]
  generalize reading.deposits = deposits at hcondition
  clear hdeposits
  induction deposits with
  | nil => rfl
  | cons deposit deposits ih =>
      obtain ⟨hfirst, hrest⟩ := List.forall_mem_cons.mp hcondition
      rw [List.flatMap_cons, List.filter_append, List.map_append, List.sum_append, ih hrest]
      cases hkept : R deposit with
      | true =>
          have hkeeps : ∀ c ∈ componentsOf reading.family,
              Q ⟨deposit.dimensions, c, deposit.columnCents c⟩ = decide (c = component) := by
            intro c hc
            rw [hfirst c hc, hkept, Bool.true_and]
          rw [sum_cells_filter (nodup_componentsOf reading.family) hcomponent hkeeps,
            List.filter_cons_of_pos hkept, List.map_cons, List.sum_cons]
      | false =>
          have hnone : ((componentsOf reading.family).map fun c =>
              (⟨deposit.dimensions, c, deposit.columnCents c⟩ : Cell)).filter Q = [] := by
            refine List.filter_eq_nil_iff.mpr fun cell hcell => ?_
            obtain ⟨c, hc, rfl⟩ := List.mem_map.mp hcell
            rw [hfirst c hc, hkept, Bool.false_and]
            exact Bool.false_ne_true
          have hdropped : ¬ R deposit = true := by
            rw [hkept]
            exact Bool.false_ne_true
          rw [hnone, List.filter_cons_of_neg hdropped]
          exact zero_add _

end

section
variable {readings : List HistoryReading}
  (hdeposits : ∀ reading ∈ readings, ∀ deposit ∈ reading.deposits,
    deposit.IsOf reading.family reading.productId)
include hdeposits

/-- A cell belongs to the product of its reading. -/
theorem product_of_cell {reading : HistoryReading} (hreading : reading ∈ readings) {cell : Cell}
    (hcell : cell ∈ reading.cells) : cell.dimensions.productId = reading.productId := by
  obtain ⟨deposit, hdeposit, -, -, rfl⟩ := (mem_cells (hdeposits reading hreading)).mp hcell
  exact (hdeposits reading hreading deposit hdeposit).product

/-- The cells of a product are those of its histories. -/
theorem cellsOf_filter_product (productId : String) :
    (cellsOf readings).filter (·.dimensions.productId = productId) =
      cellsOf (readings.filter (·.productId = productId)) := by
  induction readings with
  | nil => rfl
  | cons reading readings ih =>
      have hrest := ih fun other hother => hdeposits other (List.mem_cons_of_mem _ hother)
      have hown : ∀ cell ∈ reading.cells, cell.dimensions.productId = reading.productId :=
        fun _ => product_of_cell hdeposits List.mem_cons_self
      have hcons : ∀ (first : HistoryReading) rest, cellsOf (first :: rest) =
          first.cells ++ cellsOf rest := fun _ _ => List.flatMap_cons
      rw [hcons, List.filter_append, hrest]
      by_cases hproduct : reading.productId = productId
      · have hkept : (reading :: readings).filter (·.productId = productId) =
            reading :: readings.filter (·.productId = productId) :=
          List.filter_cons_of_pos (decide_eq_true hproduct)
        rw [hkept, hcons]
        refine congrArg (· ++ _) (List.filter_eq_self.mpr fun cell hcell => ?_)
        exact decide_eq_true ((hown cell hcell).trans hproduct)
      · have hnone : reading.cells.filter (·.dimensions.productId = productId) = [] := by
          refine List.filter_eq_nil_iff.mpr fun cell hcell hkept => ?_
          exact hproduct ((hown cell hcell).symm.trans (of_decide_eq_true hkept))
        rw [List.filter_cons_of_neg (by rwa [decide_eq_true_eq]), hnone, List.nil_append]

omit hdeposits in
/-- Each product is read once. -/
theorem filter_product (hdistinct : (readings.map (·.productId)).Nodup) {reading : HistoryReading}
    (hreading : reading ∈ readings) :
    readings.filter (·.productId = reading.productId) = [reading] := by
  induction readings with
  | nil => cases hreading
  | cons first readings ih =>
      rw [List.map_cons, List.nodup_cons] at hdistinct
      rcases List.mem_cons.mp hreading with rfl | hreading
      · have hkept : (reading :: readings).filter (·.productId = reading.productId) =
            reading :: readings.filter (·.productId = reading.productId) :=
          List.filter_cons_of_pos (decide_eq_true rfl)
        rw [hkept]
        refine congrArg _ (List.filter_eq_nil_iff.mpr fun other hother hkept => hdistinct.1 ?_)
        rw [← of_decide_eq_true hkept]
        exact List.mem_map_of_mem hother
      · have hother : ¬ first.productId = reading.productId := by
          intro hsame
          rw [hsame] at hdistinct
          exact hdistinct.1 (List.mem_map_of_mem hreading)
        rw [List.filter_cons_of_neg (by rwa [decide_eq_true_eq]), ih hdistinct.2 hreading]

/-- A condition that asks for the product of a history is about its cells. -/
theorem cellsOf_filter (hdistinct : (readings.map (·.productId)).Nodup) {reading : HistoryReading}
    (hreading : reading ∈ readings) {Q : Cell → Bool}
    (hproduct : ∀ cell, Q cell = true → cell.dimensions.productId = reading.productId) :
    (cellsOf readings).filter Q = reading.cells.filter Q := by
  have hboth : (cellsOf readings).filter Q =
      ((cellsOf readings).filter (·.dimensions.productId = reading.productId)).filter Q := by
    rw [List.filter_filter]
    refine List.filter_congr fun cell _ => ?_
    cases hkept : Q cell with
    | true =>
        rw [Bool.true_and]
        exact (decide_eq_true (hproduct cell hkept)).symm
    | false => rw [Bool.false_and]
  rw [hboth, cellsOf_filter_product hdeposits, filter_product hdistinct hreading]
  unfold cellsOf
  rw [List.flatMap_cons, List.flatMap_nil, List.append_nil]

/-- All cells add up to the annual totals. -/
theorem sum_cellsOf (hbalanced : ∀ reading ∈ readings, reading.Balanced) :
    ((cellsOf readings).map (·.amount)).sum =
      ((readings.flatMap (·.years)).map (·.total)).sum := by
  unfold cellsOf
  rw [List.map_flatMap, List.map_flatMap, sum_flatMap, sum_flatMap]
  exact congrArg List.sum (List.map_congr_left fun reading hreading =>
    (hbalanced reading hreading).sum_cells (hdeposits reading hreading))

end

section
variable {host : Host} {input : ClalHistoryInput} {readings : List HistoryReading}
  {observedAt : String} {groups : SourceGroups}

/-- The cells of all readings. -/
theorem mem_cellsOf (hread : readInput host input = .ok readings) {cell : Cell} :
    cell ∈ cellsOf readings ↔ ∃ reading ∈ readings, ∃ deposit ∈ reading.deposits,
      ∃ component ∈ componentsOf reading.family,
        cell = ⟨deposit.dimensions, component, deposit.columnCents component⟩ := by
  unfold cellsOf
  rw [List.mem_flatMap]
  exact exists_congr fun reading => and_congr_right fun hreading =>
    mem_cells (readInput_each hread reading hreading).2

/-- The groups of some histories settle their cells. -/
theorem settles_of_read (hhash : HexDigests host) (hread : readInput host input = .ok readings)
    (hfree : CollisionFree host (cellsOf readings))
    (hadded : addCells host observedAt .empty (cellsOf readings) = .ok groups) :
    Settles host observedAt (cellsOf readings) groups := by
  have heach := readInput_each hread
  refine ⟨hhash, hfree, ?_, ?_, hadded⟩
  · intro cell hcell
    obtain ⟨reading, hreading, deposit, hdeposit, -, -, rfl⟩ := (mem_cellsOf hread).mp hcell
    rw [((heach reading hreading).2 deposit hdeposit).product]
    exact (heach reading hreading).1
  · intro cell hcell
    obtain ⟨reading, -, -, -, component, hcomponent, rfl⟩ := (mem_cellsOf hread).mp hcell
    exact ⟨reading.family, hcomponent⟩

/-- The cents of some activities do not depend on their order. -/
theorem activityCents_perm {activities activities' : List InvestmentActivity}
    (h : activities.Perm activities') (P : InvestmentActivity → Bool) :
    activityCents activities P = activityCents activities' P :=
  ((h.filter P).map _).sum_eq

end

section
variable {host : Host} {input : ClalHistoryInput} {readings : List HistoryReading}
  {observedAt : String} {groups : SourceGroups} {activities : List InvestmentActivity}
  (hread : readInput host input = .ok readings) (hdistinct : (readings.map (·.productId)).Nodup)
  (h : Settles host observedAt (cellsOf readings) groups)
  (hactivities : activities.Perm (settled groups))
include hread h hactivities

/-- **The totals of a product** are those of its years. -/
theorem product_totals (hbalanced : ∀ reading ∈ readings, reading.Balanced) (productId : String) :
    activityCents activities (·.productId = productId) =
      (((readings.filter (·.productId = productId)).flatMap (·.years)).map (·.total)).sum := by
  have heach := readInput_each hread
  have hcells := h.sum_cents (P := fun activity => activity.productId = productId)
    (Q := fun cell => cell.dimensions.productId = productId) (fun _ _ => rfl)
    fun cell _ activity hmake => by rw [(groupActivity_ok hmake).1]
  have hdeposits : ∀ reading ∈ readings, ∀ deposit ∈ reading.deposits,
      deposit.IsOf reading.family reading.productId := fun reading hreading =>
    (heach reading hreading).2
  rw [activityCents_perm hactivities]
  refine hcells.trans ?_
  rw [cellsOf_filter_product hdeposits]
  exact sum_cellsOf (fun reading hreading => hdeposits reading (List.mem_of_mem_filter hreading))
    fun reading hreading => hbalanced reading (List.mem_of_mem_filter hreading)

include hdistinct in
/-- **The column of a component** is what its activities add up to. -/
theorem component_columns {reading : HistoryReading} (hreading : reading ∈ readings)
    {component : DepositComponent} (hcomponent : component ∈ componentsOf reading.family) :
    activityCents activities (fun activity => activity.productId = reading.productId ∧
      activity.kind = component.kind) =
        (reading.deposits.map fun deposit => deposit.columnCents component).sum := by
  have hdeposits : ∀ reading ∈ readings, ∀ deposit ∈ reading.deposits,
      deposit.IsOf reading.family reading.productId := fun reading hreading =>
    (readInput_each hread reading hreading).2
  have hcells := h.sum_cents
    (P := fun activity => activity.productId = reading.productId ∧ activity.kind = component.kind)
    (Q := fun cell => cell.dimensions.productId = reading.productId ∧
      cell.component.kind = component.kind) (fun _ _ => rfl)
    fun cell _ activity hmake => by rw [(groupActivity_ok hmake).1, (groupActivity_ok hmake).2.1]
  have hcolumn := sum_cells_of_component (hdeposits reading hreading) hcomponent
    (Q := fun cell => cell.dimensions.productId = reading.productId ∧
      cell.component.kind = component.kind) (R := fun _ => true) fun deposit hdeposit c hc amount => by
        have hproduct := (hdeposits reading hreading deposit hdeposit).product
        have hkind : c.kind = component.kind ↔ c = component :=
          ⟨component_of_kind hc hcomponent, congrArg DepositComponent.kind⟩
        rw [Bool.true_and, decide_eq_decide, hkind]
        exact and_iff_right hproduct
  rw [activityCents_perm hactivities]
  refine hcells.trans ?_
  rw [cellsOf_filter hdeposits hdistinct hreading fun cell hkept => (of_decide_eq_true hkept).1,
    hcolumn, List.filter_true]

omit hactivities in
include hdistinct in
/-- What the rows of the same dimensions add up to. -/
theorem totalOf_deposit {reading : HistoryReading} (hreading : reading ∈ readings)
    {deposit : Deposit} (hdeposit : deposit ∈ reading.deposits) {component : DepositComponent}
    (hcomponent : component ∈ componentsOf reading.family) :
    Tallies.totalOf (fun cell : Cell => groupSourceId host cell.dimensions cell.component)
      (·.amount) (cellsOf readings) (groupSourceId host deposit.dimensions component) =
        ((reading.deposits.filter fun other => other.dimensions = deposit.dimensions).map
          fun other => other.columnCents component).sum := by
  have hdeposits : ∀ reading ∈ readings, ∀ deposit ∈ reading.deposits,
      deposit.IsOf reading.family reading.productId := fun reading hreading =>
    (readInput_each hread reading hreading).2
  have hcell : (⟨deposit.dimensions, component, deposit.columnCents component⟩ : Cell) ∈
      cellsOf readings :=
    (mem_cellsOf hread).mpr ⟨reading, hreading, deposit, hdeposit, component, hcomponent, rfl⟩
  have hsame : ∀ cell ∈ cellsOf readings,
      (groupSourceId host cell.dimensions cell.component =
        groupSourceId host deposit.dimensions component ↔
          cell.dimensions = deposit.dimensions ∧ cell.component = component) := by
    intro cell hother
    constructor
    · intro hsource
      exact h.free.same_group h.components hother hcell hsource
    · intro hsame
      rw [hsame.1, hsame.2]
  have hkept : (cellsOf readings).filter (fun cell =>
      groupSourceId host cell.dimensions cell.component =
        groupSourceId host deposit.dimensions component) =
      (cellsOf readings).filter fun cell =>
        cell.dimensions = deposit.dimensions ∧ cell.component = component :=
    List.filter_congr fun cell hother => decide_eq_decide.mpr (hsame cell hother)
  have hproduct : ∀ cell : Cell, decide (cell.dimensions = deposit.dimensions ∧
      cell.component = component) = true → cell.dimensions.productId = reading.productId := by
    intro cell hkept
    rw [(of_decide_eq_true hkept).1]
    exact (hdeposits reading hreading deposit hdeposit).product
  unfold Tallies.totalOf
  rw [hkept, cellsOf_filter hdeposits hdistinct hreading hproduct]
  exact sum_cells_of_component (hdeposits reading hreading) hcomponent
    fun other _ c _ amount => Bool.decide_and _ _

include hdistinct in
/-- Every deposit is part of an activity for each of its columns. -/
theorem activity_of_deposit {reading : HistoryReading} (hreading : reading ∈ readings)
    {deposit : Deposit} (hdeposit : deposit ∈ reading.deposits) {component : DepositComponent}
    (hcomponent : component ∈ componentsOf reading.family) :
    ∃ activity ∈ activities, activity.sourceId = groupSourceId host deposit.dimensions component ∧
      cents activity.amount =
        ((reading.deposits.filter fun other => other.dimensions = deposit.dimensions).map
          fun other => other.columnCents component).sum := by
  have hcell : (⟨deposit.dimensions, component, deposit.columnCents component⟩ : Cell) ∈
      cellsOf readings :=
    (mem_cellsOf hread).mpr ⟨reading, hreading, deposit, hdeposit, component, hcomponent, rfl⟩
  obtain ⟨g, hg, hkey⟩ := h.isTally.each _ hcell
  have htotal : cents (settledActivity g).amount = g.total := cents_moneyOfCents g.total
  refine ⟨settledActivity g, hactivities.mem_iff.mpr (List.mem_map_of_mem hg),
    (h.sourceId_eq hg).trans hkey, ?_⟩
  rw [htotal, (h.isTally.group g hg).1, hkey]
  exact totalOf_deposit hread hdistinct h hreading hdeposit hcomponent

/-- Every activity comes from a deposit. -/
theorem deposit_of_activity {activity : InvestmentActivity} (hactivity : activity ∈ activities) :
    ∃ reading ∈ readings, ∃ deposit ∈ reading.deposits, ∃ component ∈ componentsOf reading.family,
      activity.productId = reading.productId ∧ activity.kind = component.kind ∧
        activity.sourceId = groupSourceId host deposit.dimensions component := by
  obtain ⟨g, hg, rfl⟩ := List.mem_map.mp (hactivities.mem_iff.mp hactivity)
  obtain ⟨cell, hcell, -, hmake⟩ := h.cell_of_group hg
  obtain ⟨reading, hreading, deposit, hdeposit, component, hcomponent, rfl⟩ :=
    (mem_cellsOf hread).mp hcell
  obtain ⟨hproduct, hkind, hsource, -⟩ := groupActivity_ok hmake
  have hown := ((readInput_each hread reading hreading).2 deposit hdeposit).product
  exact ⟨reading, hreading, deposit, hdeposit, component, hcomponent, hproduct.trans hown, hkind,
    hsource⟩

include hdistinct in
/-- **Deposits are conserved** by the activities of their groups. -/
theorem conserves_settled (hbalanced : ∀ reading ∈ readings, reading.Balanced) :
    Conserves host readings activities where
  totals := product_totals hread h hactivities hbalanced
  columns := fun _ hreading _ hcomponent =>
    component_columns hread hdistinct h hactivities hreading hcomponent
  rows := fun _ hreading _ hdeposit _ hcomponent =>
    activity_of_deposit hread hdistinct h hactivities hreading hdeposit hcomponent
  only := fun _ hactivity => deposit_of_activity hread h hactivities hactivity

end

end SimplefinBridge
