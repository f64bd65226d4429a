import SimplefinBridge.ActivityConservation

/-!
# Histories that are accepted

What the schema asks of the activity of a source group is a condition on the
group alone (`Postable`): its amount is money whatever the deposits add up to.
So an enrichment is accepted exactly when its histories can be read and
reconciled and each of their groups is postable (`enrichClalActivities_isOk`).
-/

namespace SimplefinBridge

open Transactional (except_bind_ok exists_ok_of_any)

/-! ## Lengths and amounts -/

/-- A text that is not empty has a unit. -/
theorem one_le_jsLength {text : String} (h : text ≠ "") : 1 ≤ jsLength text := by
  obtain ⟨c, cs, hchars⟩ := List.exists_cons_of_ne_nil fun hnil =>
    h (String.toList_eq_nil_iff.mp hnil)
  have hsize : 1 ≤ utf16Size c := by
    unfold utf16Size
    split <;> omega
  unfold jsLength
  rw [hchars, List.map_cons, List.sum_cons]
  omega

/-- Printed digits are a whole number. -/
theorem isWhole_toDigits (n : Nat) : isWhole (Nat.toDigits 10 n) = true := by
  obtain ⟨first, rest, hdigits⟩ := List.exists_cons_of_ne_nil (@Nat.toDigits_ne_nil n 10)
  have hdigit : ∀ c ∈ first :: rest, c.isDigit = true := fun c hc =>
    Nat.isDigit_of_mem_toDigits (by decide) (by decide) (hdigits ▸ hc)
  by_cases hzero : first = '0'
  · have hleading := @toDigits_leading n (by rw [hdigits, hzero]; rfl)
    rw [hleading]
    rfl
  · have hform : isWhole (first :: rest) = (first ≠ '0' && first.isDigit && rest.all Char.isDigit) := by
      unfold isWhole
      split
      · contradiction
      · rename_i heq
        exact absurd (List.cons.inj heq).1 hzero
      · rename_i heq
        rw [(List.cons.inj heq).1, (List.cons.inj heq).2]
    have hrest : rest.all Char.isDigit = true :=
      List.all_eq_true.mpr fun c hc => hdigit c (List.mem_cons_of_mem _ hc)
    rw [hdigits, hform, hdigit first List.mem_cons_self, hrest, decide_eq_true hzero]
    rfl

/-- **Every amount of cents** is money. -/
theorem isMoney_fromCents (n : Int) : isMoney (fromCents n) = true := by
  have hdigit : ∀ k < 10, (Nat.digitChar k).isDigit = true ∧ Nat.digitChar k ≠ '.' := by decide
  have htens := hdigit (n.natAbs / 10 % 10) (Nat.mod_lt _ (by decide))
  have hones := hdigit (n.natAbs % 10) (Nat.mod_lt _ (by decide))
  have hchars := fromCents_eq n
  generalize Nat.digitChar (n.natAbs / 10 % 10) = tens at hchars htens
  generalize Nat.digitChar (n.natAbs % 10) = ones at hchars hones
  have hunsigned : (if (fromCents n).toList.head? = some '-' then (fromCents n).toList.tail
      else (fromCents n).toList) = Nat.toDigits 10 (n.natAbs / 100) ++ '.' :: [tens, ones] := by
    by_cases hnegative : n < 0
    · rw [if_pos hnegative] at hchars
      rw [hchars]
      rfl
    · rw [if_neg hnegative, List.nil_append] at hchars
      rw [hchars, if_neg (head_digits _ _)]
  have hdecimal : isDecimal 2 2 false
      (Nat.toDigits 10 (n.natAbs / 100) ++ '.' :: [tens, ones]) = true := by
    have hfraction : '.' ∉ [tens, ones] := by
      rw [List.mem_pair]
      exact fun h => h.elim htens.2.symm hones.2.symm
    unfold isDecimal
    rw [List.splitOn_append_cons_self_of_not_mem (point_not_mem_toDigits _),
      List.splitOn_eq_singleton hfraction]
    dsimp only
    rw [isWhole_toDigits, List.all_cons, List.all_cons, htens.1, hones.1]
    rfl
  have hzero : fromCents n ≠ "-0.00" := by
    intro htext
    have hcents := congrArg cents htext
    rw [cents_fromCents] at hcents
    subst hcents
    exact absurd htext (by decide +kernel)
  unfold isMoney
  dsimp only
  rw [hunsigned, hdecimal, decide_eq_true hzero]
  rfl

/-! ## Groups that can be posted -/

/-- What the schema asks of the activity of a cell's group. -/
structure Postable (host : Host) (cell : Cell) : Prop where
  source : isId (groupSourceId host cell.dimensions cell.component) = true
  named : ∃ id, investmentActivityId cell.dimensions.productId
    (groupSourceId host cell.dimensions cell.component) = .ok id
  described : isText 1000 (groupDescription cell.dimensions cell.component) = true
  /-- The date keeps the precision it was read with. -/
  dated : ∀ date, cell.dimensions.bookingDate.or cell.dimensions.salaryMonth = some date →
    (if cell.dimensions.bookingDate.getD "" = "" then isMonth date else host.isIsoDate date) = true

section
variable {host : Host} {observedAt : String} {dimensions : Dimensions}
  {component : DepositComponent} {activity : InvestmentActivity}

/-- The activity of a group, field by field. -/
theorem groupActivity_eq : groupActivity host observedAt dimensions component = .ok activity ↔
    ∃ date id, dimensions.bookingDate.or dimensions.salaryMonth = some date ∧
      investmentActivityId dimensions.productId (groupSourceId host dimensions component) = .ok id ∧
      activity = {
        id, productId := dimensions.productId, sourceId := groupSourceId host dimensions component
        date
        dateKind := if dimensions.bookingDate.getD "" = "" then .contribution_month else .booking
        kind := component.kind, amount := "0.00", currency := "ILS"
        description := groupDescription dimensions component, observedAt } := by
  unfold groupActivity
  cases hdate : dimensions.bookingDate.or dimensions.salaryMonth with
  | none =>
      constructor
      · intro h
        cases h
      · rintro ⟨date, id, heq, -⟩
        cases heq
  | some date =>
      constructor
      · intro h
        obtain ⟨id, hid, h⟩ := except_bind_ok.mp h
        exact ⟨date, id, rfl, orThrow_ok hid, (Except.ok.inj h).symm⟩
      · rintro ⟨date', id, heq, hid, rfl⟩
        cases heq
        refine except_bind_ok.mpr ⟨id, ?_, rfl⟩
        rw [hid]
        rfl

/-- A checked id that is not empty is an id. -/
theorem isId_checked {value id : String} (h : checked value = .ok id) (hlength : 1 ≤ jsLength value) :
    isId id = true := by
  obtain rfl := checked_ok h
  unfold checked at h
  split at h
  · cases h
  · rename_i hshort
    unfold isId isText
    rw [decide_eq_true hlength, decide_eq_true (not_lt.mp hshort)]
    rfl

/-- So is the id of an activity. -/
theorem isId_activityId {productId sourceId id : String} (hproduct : isId productId = true)
    (h : investmentActivityId productId sourceId = .ok id) : isId id = true := by
  obtain ⟨segment, -, hid⟩ := except_bind_ok.mp h
  refine isId_checked hid ?_
  have hname := one_le_jsLength (ne_empty_of_isId hproduct)
  rw [jsLength_append, jsLength_append]
  omega

end

section
variable {host : Host} {dimensions : Dimensions} {component : DepositComponent}

/-- A digit of a digest needs no escape. -/
theorem isUriUnreserved_of_hash {c : Char} (h : isHashChar c = true) :
    isUriUnreserved c = true := by
  rcases Bool.or_eq_true_iff.mp (isEncodedChar_of_hash h) with hunreserved | hpercent
  · exact hunreserved
  · rw [of_decide_eq_true hpercent] at h
    exact absurd h (by decide)

/-- Texts are encoded one after another. -/
theorem encodeURIComponent_append (a b : String) :
    encodeURIComponent (a ++ b) = encodeURIComponent a ++ encodeURIComponent b := by
  unfold encodeURIComponent
  rw [String.toList_append, List.flatMap_append, String.ofList_append]

/-- A text without escapes is encoded as it is. -/
theorem encodeURIComponent_unreserved {text : String}
    (h : ∀ c ∈ text.toList, isUriUnreserved c = true) : encodeURIComponent text = text := by
  have hchars : ∀ chars : List Char, (∀ c ∈ chars, isUriUnreserved c = true) →
      chars.flatMap (fun c => if isUriUnreserved c then [c] else percentEncode c) = chars := by
    intro chars h
    induction chars with
    | nil => rfl
    | cons c cs ih =>
        rw [List.flatMap_cons, if_pos (h c List.mem_cons_self),
          ih fun c hc => h c (List.mem_cons_of_mem _ hc)]
        rfl
  unfold encodeURIComponent
  rw [hchars _ h, String.ofList_toList]

/-- **Which groups have an id**: those whose product has a short one. -/
theorem activityId_of_group (hhash : HexDigests host)
    (hlength : jsLength dimensions.productId +
      jsLength (host.sha256 (groupKey host dimensions component)) ≤ 227) :
    ∃ id, investmentActivityId dimensions.productId (groupSourceId host dimensions component) =
      .ok id := by
  have htext : IsIdText (groupSourceId host dimensions component) := isIdText_groupSourceId hhash
  have hencoded : encodeURIComponent (groupSourceId host dimensions component) =
      "source-group-v1%3A" ++ host.sha256 (groupKey host dimensions component) := by
    have hmark : encodeURIComponent "source-group-v1:" = "source-group-v1%3A" := by decide +kernel
    unfold groupSourceId
    rw [encodeURIComponent_append, hmark,
      encodeURIComponent_unreserved fun c hc => isUriUnreserved_of_hash (hhash _ c hc)]
  have hpart : part (groupSourceId host dimensions component) =
      .ok ("source-group-v1%3A" ++ host.sha256 (groupKey host dimensions component)) := by
    have hne : groupSourceId host dimensions component ≠ "" := by
      unfold groupSourceId
      intro hempty
      exact absurd (String.append_eq_empty_iff.mp hempty).1 (by decide)
    unfold part
    rw [htext.trimmed, if_neg hne, hencoded]
  have hshort : ¬ jsLength (dimensions.productId ++ ":activity:" ++
      ("source-group-v1%3A" ++ host.sha256 (groupKey host dimensions component))) > 255 := by
    have hmarks : jsLength ":activity:" = 10 ∧ jsLength "source-group-v1%3A" = 18 := by
      decide +kernel
    rw [jsLength_append, jsLength_append, jsLength_append, hmarks.1, hmarks.2]
    omega
  exact ⟨_, except_bind_ok.mpr ⟨_, hpart, if_neg hshort⟩⟩

end

namespace Settles

variable {host : Host} {observedAt : String} {cells : List Cell} {groups : SourceGroups}
  (h : Settles host observedAt cells groups)
include h

/-- **The schema** accepts the activities of postable groups. -/
theorem accepted (hobserved : isTimestamp observedAt = true)
    (hproducts : ∀ cell ∈ cells, isId cell.dimensions.productId = true)
    (hpostable : ∀ cell ∈ cells, Postable host cell) {activity : InvestmentActivity}
    (hactivity : activity ∈ settled groups) : activity.accepted host = true := by
  obtain ⟨g, hg, rfl⟩ := List.mem_map.mp hactivity
  obtain ⟨cell, hcell, -, hmake⟩ := h.cell_of_group hg
  obtain ⟨date, id, hdate, hid, hvalue⟩ := groupActivity_eq.mp hmake
  have hposted := hpostable cell hcell
  have hproduct := hproducts cell hcell
  have hdated := hposted.dated date hdate
  have hown := isId_activityId hproduct hid
  have hmoney : isMoney (moneyOfCents g.total) = true := by
    rw [moneyOfCents_eq]
    exact isMoney_fromCents _
  have hcurrency : isCurrencyCode "ILS" = true := by decide
  unfold settledActivity InvestmentActivity.accepted
  rw [hvalue]
  dsimp only
  rw [hown, hproduct, hposted.source, hmoney, hcurrency, hposted.described, hobserved]
  by_cases hmonth : cell.dimensions.bookingDate.getD "" = ""
  · rw [if_pos hmonth] at hdated ⊢
    exact hdated
  · rw [if_neg hmonth] at hdated ⊢
    exact hdated

/-- Activities the schema accepts are those of postable groups. -/
theorem postable (haccepted : ∀ activity ∈ settled groups, activity.accepted host = true)
    {cell : Cell} (hcell : cell ∈ cells) : Postable host cell := by
  obtain ⟨g, hg, hkey⟩ := h.isTally.each cell hcell
  obtain ⟨-, source, hsource, hsourceKey, hmake⟩ := h.isTally.group g hg
  have hown : groupActivity host observedAt cell.dimensions cell.component = .ok g.value := by
    rw [← hmake]
    exact h.determined cell hcell source hsource (hkey.symm.trans hsourceKey.symm)
  obtain ⟨date, id, hdate, hid, hvalue⟩ := groupActivity_eq.mp hown
  have hall := haccepted _ (List.mem_map_of_mem hg)
  unfold settledActivity InvestmentActivity.accepted at hall
  rw [hvalue] at hall
  simp only [Bool.and_eq_true] at hall
  obtain ⟨⟨⟨⟨⟨⟨⟨-, -⟩, hsourceId⟩, -⟩, -⟩, hdescription⟩, -⟩, hdated⟩ := hall
  refine ⟨hsourceId, ⟨id, hid⟩, hdescription, fun date' hdate' => ?_⟩
  obtain rfl : date = date' := Option.some.inj (hdate.symm.trans hdate')
  by_cases hmonth : cell.dimensions.bookingDate.getD "" = ""
  · rw [if_pos hmonth] at hdated ⊢
    exact hdated
  · rw [if_neg hmonth] at hdated ⊢
    exact hdated

end Settles

/-! ## Enrichments that are accepted -/

instance {components : List DepositComponent} {reading : YearReading} :
    Decidable (reading.Balanced components) :=
  decidable_of_iff (_ ∧ _) ⟨fun h => ⟨h.1, h.2⟩, fun h => ⟨h.one, h.checked⟩⟩

instance {reading : HistoryReading} : Decidable reading.Balanced :=
  decidable_of_iff (_ ∧ _) ⟨fun h => ⟨h.1, h.2⟩, fun h => ⟨h.years, h.each⟩⟩

instance {dimensions : Dimensions} : Decidable dimensions.Dated :=
  inferInstanceAs (Decidable (_ ≠ none))

instance {snapshot : InvestmentSnapshot} {readings : List HistoryReading} :
    Decidable (Acceptable snapshot readings) :=
  decidable_of_iff (_ ∧ _ ∧ _ ∧ _) ⟨fun h => ⟨h.1, h.2.1, h.2.2.1, h.2.2.2⟩,
    fun h => ⟨h.distinct, h.known, h.balanced, h.dated⟩⟩

section
variable {host : Host} {snapshot : InvestmentSnapshot} {input : ClalHistoryInput}
  {readings : List HistoryReading} {groups : SourceGroups} {covered : List String}

/-- Covering a product changes nothing for the schema, -/
theorem coverActivities_accepted (product : InvestmentProduct) :
    (coverActivities covered product).accepted host = product.accepted host := by
  unfold coverActivities
  split <;> rfl

/-- and nothing for trimming. -/
theorem coverActivities_trimmed {product : InvestmentProduct} (h : product.trimmed = product) :
    (coverActivities covered product).trimmed = coverActivities covered product := by
  have hcoverage : ∀ coverage, ({ product with coverage } : InvestmentProduct).trimmed =
      { product with coverage } := fun coverage =>
    congrArg (fun trimmed : InvestmentProduct => { trimmed with coverage }) h
  unfold coverActivities
  split
  · exact hcoverage _
  · exact h

/-- The activities of an enrichment are those of the groups. -/
theorem enrichedSnapshot_activities {observedAt : String} {cells : List Cell}
    (hnone : snapshot.activities = []) (h : Settles host observedAt cells groups)
    (covered : List String) :
    (enrichedSnapshot host snapshot groups covered).activities =
      sortActivities host (settled groups) := by
  have hrows : ((settled groups).foldl KeyedTable.put
      (.empty : KeyedTable InvestmentActivity InvestmentActivity.id)).rows = settled groups :=
    KeyedTable.rows_foldl_put h.nodup_ids
  unfold enrichedSnapshot
  dsimp only
  rw [hnone, List.nil_append]
  exact congrArg (sortActivities host) hrows

/-- The schema accepts an enrichment where it accepts the activities added. -/
theorem enrichedSnapshot_accepted_iff {observedAt : String} {cells : List Cell}
    (hnone : snapshot.activities = []) (hparsed : parseSnapshot host snapshot = .ok snapshot)
    (h : Settles host observedAt cells groups) :
    (enrichedSnapshot host snapshot groups covered).trimmed.accepted host = true ↔
      ∀ activity ∈ settled groups, activity.accepted host = true := by
  obtain ⟨htrimmed, haccepted⟩ := parseSnapshot_ok hparsed
  have hperm : (sortActivities host (settled groups)).Perm (settled groups) :=
    List.mergeSort_perm _ _
  have hactivities : (enrichedSnapshot host snapshot groups covered).trimmed.activities =
      sortActivities host (settled groups) := by
    change (enrichedSnapshot host snapshot groups covered).activities.map (·.trimmed) = _
    rw [enrichedSnapshot_activities hnone h]
    conv => rhs; rw [← List.map_id (sortActivities host (settled groups))]
    exact List.map_congr_left fun activity hactivity => h.trimmed (hperm.mem_iff.mp hactivity)
  have hproducts : (enrichedSnapshot host snapshot groups covered).trimmed.products =
      snapshot.products.map (coverActivities covered) := by
    have hsame : ∀ product ∈ snapshot.products, product.trimmed = product := by
      have hmap : snapshot.products.map (·.trimmed) = snapshot.products.map id := by
        rw [List.map_id]
        exact (congrArg InvestmentSnapshot.products htrimmed).symm
      exact List.map_eq_map_iff.mp hmap
    change (snapshot.products.map (coverActivities covered)).map (·.trimmed) = _
    rw [List.map_map]
    exact List.map_congr_left fun product hproduct => coverActivities_trimmed (hsame product hproduct)
  have hcovered : (snapshot.products.map (coverActivities covered)).all (·.accepted host) =
      snapshot.products.all (·.accepted host) := by
    rw [List.all_map]
    exact congrArg snapshot.products.all (funext coverActivities_accepted)
  have hothers : (enrichedSnapshot host snapshot groups covered).trimmed.accepted host =
      (isTimestamp snapshot.observedAt && snapshot.products.all (·.accepted host) &&
        snapshot.valuations.all (·.accepted host) &&
          (sortActivities host (settled groups)).all (·.accepted host) &&
            snapshot.tracks.all (·.accepted host) && snapshot.executions.all (·.accepted host)) := by
    have hvaluations := congrArg InvestmentSnapshot.valuations htrimmed
    have htracks := congrArg InvestmentSnapshot.tracks htrimmed
    have hexecutions := congrArg InvestmentSnapshot.executions htrimmed
    unfold InvestmentSnapshot.accepted
    rw [hactivities, hproducts, hcovered, hvaluations, htracks, hexecutions]
    rfl
  rw [hothers, hperm.all_eq]
  unfold InvestmentSnapshot.accepted at haccepted
  simp only [Bool.and_eq_true] at haccepted ⊢
  obtain ⟨⟨⟨⟨⟨hobserved, hall⟩, hvaluations⟩, -⟩, htracks⟩, hexecutions⟩ := haccepted
  constructor
  · rintro ⟨⟨⟨-, hsettled⟩, -⟩, -⟩
    exact List.all_eq_true.mp hsettled
  · intro hsettled
    exact ⟨⟨⟨⟨⟨hobserved, hall⟩, hvaluations⟩, List.all_eq_true.mpr hsettled⟩, htracks⟩, hexecutions⟩

variable (hhash : HexDigests host) (hnone : snapshot.activities = [])
  (hparsed : parseSnapshot host snapshot = .ok snapshot)
  (hfree : ∀ readings, readInput host input = .ok readings → CollisionFree host (cellsOf readings))
include hhash hnone hparsed hfree

/-- **What can be posted is posted.** -/
theorem enrichClalActivities_of_postable (hread : readInput host input = .ok readings)
    (hacceptable : Acceptable snapshot readings)
    (hpostable : ∀ cell ∈ cellsOf readings, Postable host cell) :
    ∃ result, enrichClalActivities host snapshot input = .ok result := by
  have haccepted := (parseSnapshot_ok hparsed).2
  unfold InvestmentSnapshot.accepted at haccepted
  simp only [Bool.and_eq_true] at haccepted
  obtain ⟨⟨⟨⟨⟨hobserved, hall⟩, -⟩, -⟩, -⟩, -⟩ := haccepted
  have heach := readInput_each hread
  have hproducts : ∀ cell ∈ cellsOf readings, isId cell.dimensions.productId = true := by
    intro cell hcell
    obtain ⟨reading, hreading, deposit, hdeposit, -, -, rfl⟩ := (mem_cellsOf hread).mp hcell
    obtain ⟨product, hproduct, hid⟩ := List.mem_map.mp (hacceptable.known reading hreading)
    have hvalid := List.all_eq_true.mp hall product hproduct
    unfold InvestmentProduct.accepted at hvalid
    simp only [Bool.and_eq_true] at hvalid
    rw [((heach reading hreading).2 deposit hdeposit).product, ← hid]
    exact hvalid.1.1.1.1.1.1.1.1
  have hmake : ∀ cell ∈ cellsOf readings, ∃ activity,
      groupActivity host snapshot.observedAt cell.dimensions cell.component = .ok activity := by
    intro cell hcell
    obtain ⟨id, hid⟩ := (hpostable cell hcell).named
    obtain ⟨reading, hreading, deposit, hdeposit, component, -, rfl⟩ :=
      (mem_cellsOf hread).mp hcell
    have hdated := hacceptable.dated reading hreading deposit hdeposit
    obtain ⟨date, hdate⟩ := Option.ne_none_iff_exists'.mp hdated
    exact ⟨_, groupActivity_eq.mpr ⟨date, id, hdate, hid, rfl⟩⟩
  have hcomponents : ∀ cell ∈ cellsOf readings, ∃ family, cell.component ∈ componentsOf family := by
    intro cell hcell
    obtain ⟨reading, -, -, -, component, hcomponent, rfl⟩ := (mem_cellsOf hread).mp hcell
    exact ⟨reading.family, hcomponent⟩
  have hadds : ∃ groups, addCells host snapshot.observedAt .empty (cellsOf readings) =
      .ok groups :=
    (Tallies.addAll_isOk
      ((hfree readings hread).determined hcomponents snapshot.observedAt)).mpr hmake
  obtain ⟨groups, hadded⟩ := hadds
  have hsettles := settles_of_read hhash hread (hfree readings hread) hadded
  have hschema : (enrichedSnapshot host snapshot groups
      (readings.map (·.productId))).trimmed.accepted host = true :=
    (enrichedSnapshot_accepted_iff hnone hparsed hsettles).mpr fun activity hactivity =>
      hsettles.accepted hobserved hproducts hpostable hactivity
  have hparse : parseSnapshot host (enrichedSnapshot host snapshot groups
      (readings.map (·.productId))) =
      .ok (enrichedSnapshot host snapshot groups (readings.map (·.productId))).trimmed :=
    if_pos hschema
  exact ⟨_, enrichClalActivities_ok_iff.mpr ⟨readings, groups, hread, hacceptable, hadded, hparse⟩⟩

/-- **Which histories are accepted**: those that can be read and reconciled,
whose products are known, and whose groups can all be posted. -/
theorem enrichClalActivities_isOk :
    (∃ result, enrichClalActivities host snapshot input = .ok result) ↔
      ∃ readings, readInput host input = .ok readings ∧ Acceptable snapshot readings ∧
        ∀ cell ∈ cellsOf readings, Postable host cell := by
  constructor
  · rintro ⟨result, hresult⟩
    obtain ⟨readings, groups, hread, hacceptable, hadded, hparse⟩ :=
      enrichClalActivities_ok_iff.mp hresult
    have hsettles := settles_of_read hhash hread (hfree readings hread) hadded
    obtain ⟨hresult, hschema⟩ := parseSnapshot_ok hparse
    rw [hresult] at hschema
    have heach := (enrichedSnapshot_accepted_iff hnone hparsed hsettles).mp hschema
    exact ⟨readings, hread, hacceptable, fun cell hcell => hsettles.postable heach hcell⟩
  · rintro ⟨readings, hread, hacceptable, hpostable⟩
    exact enrichClalActivities_of_postable hhash hnone hparsed hfree hread hacceptable hpostable

end

/-! ## Two equal deposits -/

/-- The key of a group of the deposit. -/
def depositKey (column kind : String) : String :=
  "[\"clal-deposit-source-group-v1\",\"clal:pension%3AP\",null,\"Employer\",\"2026-03-01\"," ++
    "\"2026-02\",\"Deposit\",null,\"" ++ column ++ "\",\"" ++ kind ++ "\"]"

/-- A host with the digests of the groups of the deposit. -/
def depositHost : Host :=
  { asciiHost with
    sha256 := fun text =>
      if text = depositKey "TigmulimAmit" "employee_contribution" then
        "c4370f759208c7bd385708c919ab492b7fa0118d3f80da07cbc30c476f0f318e"
      else if text = depositKey "TigmulimMaasik" "employer_contribution" then
        "6afe8b4953b053fb226cc0a42ff8c847de58c51b7815e1a3fa80687152f11605"
      else if text = depositKey "Compensation" "severance_contribution" then
        "d1815898cffbcbe87ae093b1556aef03e9d9cf831118183d9d5672175389bf95"
      else "" }

/-- A deposit of March for the salary of February. -/
def depositRow : JsValue := .object [("CompanyName", .string "Employer"),
  ("DepositingDate", .string "01/03/26"), ("SalaryDate", .string "02/2026"),
  ("TigmulimAmit", .string "20.00"), ("TigmulimMaasik", .string "30.00"),
  ("Compensation", .string "40.00"), ("Total", .string "90.00")]

/-- The subtotal of two such deposits. -/
def subtotalRow : JsValue := .object [("CompanyName", .string "All"),
  ("DepositingDate", .null), ("SalaryDate", .null), ("TigmulimAmit", .string "40.00"),
  ("TigmulimMaasik", .string "60.00"), ("Compensation", .string "80.00"),
  ("Total", .string "180.00")]

/-- A pension whose only year has these rows. -/
def depositHistory (rows : List JsValue) : ClalHistoryInput where
  pensionDetails := [⟨some 200, .object [("IsSuccess", .bool true),
    ("PolicyDetails", .object [("PolicyId", .string "P")]),
    ("NDepositingList", .array [.object [("BeginYear", .string "2026"),
      ("Total", .string "180.00"), ("TransactionsData", .object [("IsSuccess", .bool true),
        ("DepositingPerMonthList", .array rows)])]])]⟩]
  gemelDetails := []

/-- The pension before its activities are known. -/
def depositSnapshot : InvestmentSnapshot where
  observedAt := "2026-09-08T10:00:00.000Z"
  complete := true
  inventoryComplete := true
  products := [{
    id := "clal:pension%3AP"
    provider := .clal
    providerProductId := "pension:P"
    kind := .pension
    name := "Example Pension"
    currency := "ILS"
    currentValuationId := none
    liquidity := ⟨.unknown, none, none⟩
    coverage := ⟨.unavailable, .unavailable, .unavailable, none⟩
    forecast := none
    reportSummaries := none }]
  valuations := []
  activities := []
  tracks := []
  executions := []

/-- The example's hash is written in hexadecimal. -/
theorem hexDigests_depositHost : HexDigests depositHost := by
  intro text c hc
  have hdigests : ("c4370f759208c7bd385708c919ab492b7fa0118d3f80da07cbc30c476f0f318e".toList.all isHashChar &&
      ("6afe8b4953b053fb226cc0a42ff8c847de58c51b7815e1a3fa80687152f11605".toList.all isHashChar &&
        "d1815898cffbcbe87ae093b1556aef03e9d9cf831118183d9d5672175389bf95".toList.all isHashChar)) = true := by
    decide +kernel
  obtain ⟨hfirst, hothers⟩ := Bool.and_eq_true_iff.mp hdigests
  obtain ⟨hsecond, hthird⟩ := Bool.and_eq_true_iff.mp hothers
  unfold depositHost at hc
  dsimp only at hc
  split_ifs at hc
  · exact List.all_eq_true.mp hfirst c hc
  · exact List.all_eq_true.mp hsecond c hc
  · exact List.all_eq_true.mp hthird c hc
  · cases hc

/-- The dimensions of the deposit. -/
def depositDimensions : Dimensions where
  productId := "clal:pension%3AP"
  employerId := none
  employerName := some "Employer"
  bookingDate := some "2026-03-01"
  salaryMonth := some "2026-02"
  description := "Deposit"
  track := none

/-- The example's histories are read, and they can be accepted. -/
theorem readInput_deposit : (readInput depositHost
    (depositHistory [depositRow, depositRow, subtotalRow])).toOption.any (fun readings =>
      decide (Acceptable depositSnapshot readings ∧ ∀ cell ∈ cellsOf readings,
        cell.dimensions = depositDimensions ∧ cell.component ∈ pensionComponents)) = true := by
  decide +kernel

/-- The keys of its groups. -/
theorem groupKey_deposit : ∀ component ∈ pensionComponents,
    groupKey depositHost depositDimensions component =
      depositKey component.column component.kind.text := by
  decide +kernel

/-- The digests of the keys differ. -/
theorem sha256_deposit : ∀ component ∈ pensionComponents, ∀ component' ∈ pensionComponents,
    depositHost.sha256 (depositKey component.column component.kind.text) =
      depositHost.sha256 (depositKey component'.column component'.kind.text) →
        depositKey component.column component.kind.text =
          depositKey component'.column component'.kind.text := by
  have hknown : ∀ component ∈ pensionComponents,
      depositKey component.column component.kind.text =
          depositKey "TigmulimAmit" "employee_contribution" ∨
        depositKey component.column component.kind.text =
          depositKey "TigmulimMaasik" "employer_contribution" ∨
        depositKey component.column component.kind.text =
          depositKey "Compensation" "severance_contribution" := by
    unfold pensionComponents
    simp only [List.forall_mem_cons, List.not_mem_nil, false_imp_iff, implies_true, and_true]
    exact ⟨.inl rfl, .inr (.inl rfl), .inr (.inr rfl)⟩
  have hdigests : "c4370f759208c7bd385708c919ab492b7fa0118d3f80da07cbc30c476f0f318e" ≠
      "6afe8b4953b053fb226cc0a42ff8c847de58c51b7815e1a3fa80687152f11605" ∧
    "c4370f759208c7bd385708c919ab492b7fa0118d3f80da07cbc30c476f0f318e" ≠
      "d1815898cffbcbe87ae093b1556aef03e9d9cf831118183d9d5672175389bf95" ∧
    "6afe8b4953b053fb226cc0a42ff8c847de58c51b7815e1a3fa80687152f11605" ≠
      "d1815898cffbcbe87ae093b1556aef03e9d9cf831118183d9d5672175389bf95" := by
    decide +kernel
  intro component hcomponent component' hcomponent' hdigest
  have hkey := hknown component hcomponent
  have hkey' := hknown component' hcomponent'
  generalize depositKey component.column component.kind.text = key at hdigest hkey ⊢
  generalize depositKey component'.column component'.kind.text = key' at hdigest hkey' ⊢
  unfold depositHost at hdigest
  dsimp only at hdigest
  split_ifs at hdigest <;> simp_all

/-- A digest has at most 64 digits. -/
theorem jsLength_digest (text : String) : jsLength (depositHost.sha256 text) ≤ 64 := by
  have hdigests : (jsLength "c4370f759208c7bd385708c919ab492b7fa0118d3f80da07cbc30c476f0f318e" = 64 ∧
      jsLength "6afe8b4953b053fb226cc0a42ff8c847de58c51b7815e1a3fa80687152f11605" = 64) ∧
        jsLength "d1815898cffbcbe87ae093b1556aef03e9d9cf831118183d9d5672175389bf95" = 64 := by
    decide +kernel
  unfold depositHost
  dsimp only
  split_ifs
  · exact hdigests.1.1.le
  · exact hdigests.1.2.le
  · exact hdigests.2.le
  · decide

/-- What the histories of the deposit are read as. -/
theorem deposit_read : ∃ readings, readInput depositHost
    (depositHistory [depositRow, depositRow, subtotalRow]) = .ok readings ∧
      Acceptable depositSnapshot readings ∧ ∀ cell ∈ cellsOf readings,
        cell.dimensions = depositDimensions ∧ cell.component ∈ pensionComponents := by
  obtain ⟨readings, hread, hdecided⟩ := exists_ok_of_any readInput_deposit
  obtain ⟨hacceptable, hcells⟩ := of_decide_eq_true hdecided
  exact ⟨readings, hread, hacceptable, hcells⟩

/-- The example has no collisions. -/
theorem collisionFree_deposit {cells : List Cell} (hcells : ∀ cell ∈ cells,
    cell.dimensions = depositDimensions ∧ cell.component ∈ pensionComponents) :
    CollisionFree depositHost cells := by
  intro a ha b hb
  obtain ⟨hdimensions, hcomponent⟩ := hcells a ha
  obtain ⟨hdimensions', hcomponent'⟩ := hcells b hb
  rw [hdimensions, hdimensions', groupKey_deposit _ hcomponent, groupKey_deposit _ hcomponent']
  exact sha256_deposit _ hcomponent _ hcomponent'

/-- Its cells can be posted. -/
theorem postable_deposit {cell : Cell}
    (hcell : cell.dimensions = depositDimensions ∧ cell.component ∈ pensionComponents) :
    Postable depositHost cell := by
  obtain ⟨hdimensions, hcomponent⟩ := hcell
  have hdigest := jsLength_digest (groupKey depositHost depositDimensions cell.component)
  have hproduct : jsLength depositDimensions.productId = 16 := by decide +kernel
  have hdescription : ∀ component ∈ pensionComponents,
      isText 1000 (groupDescription depositDimensions component) = true := by
    decide +kernel
  constructor
  · have hmark : jsLength "source-group-v1:" = 16 := by decide +kernel
    have hlength : jsLength (groupSourceId depositHost cell.dimensions cell.component) ≤ 255 ∧
        1 ≤ jsLength (groupSourceId depositHost cell.dimensions cell.component) := by
      unfold groupSourceId
      rw [hdimensions, jsLength_append, hmark]
      omega
    unfold isId isText
    rw [decide_eq_true hlength.2, decide_eq_true hlength.1]
    rfl
  · refine activityId_of_group hexDigests_depositHost ?_
    rw [hdimensions, hproduct]
    omega
  · rw [hdimensions]
    exact hdescription _ hcomponent
  · rw [hdimensions]
    intro date hdate
    cases hdate
    decide +kernel

/-- So whatever is read of it has none. -/
theorem collisionFree_depositReadings : ∀ readings, readInput depositHost
    (depositHistory [depositRow, depositRow, subtotalRow]) = .ok readings →
      CollisionFree depositHost (cellsOf readings) := by
  obtain ⟨readings, hread, -, hcells⟩ := deposit_read
  intro readings' hread'
  obtain rfl : readings = readings' := Except.ok.inj (hread.symm.trans hread')
  exact collisionFree_deposit hcells

/-- The schema accepts the pension as it is. -/
theorem parseSnapshot_deposit : parseSnapshot depositHost depositSnapshot = .ok depositSnapshot := by
  decide +kernel

/-- The deposits are added to the pension. -/
theorem enrichClalActivities_isOk_example :
    ∃ result, enrichClalActivities depositHost depositSnapshot
      (depositHistory [depositRow, depositRow, subtotalRow]) = .ok result := by
  obtain ⟨readings, hread, hacceptable, hcells⟩ := deposit_read
  exact (enrichClalActivities_isOk hexDigests_depositHost rfl parseSnapshot_deposit
    collisionFree_depositReadings).mpr
      ⟨readings, hread, hacceptable, fun cell hcell => postable_deposit (hcells cell hcell)⟩

end SimplefinBridge
