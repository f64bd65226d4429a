import SimplefinBridge.CollectedSnapshots
import SimplefinBridge.HapoalimExecutions

/-!
# What the collectors read

Best Invest's policies, Clal's portfolio and Hapoalim's executions are each
read into a snapshot one product after another.  A round adds a product of its
own with its value and its tracks, so the whole snapshot is well made.
-/

namespace SimplefinBridge

open Transactional (except_bind_ok except_foldlM_keeps exists_of_mapM_ok)

/-! ## Best Invest -/

section
variable {host : Host}

/-- A track of Best Invest belongs to its product, -/
theorem trackOf_row {observedAt : String} {product : InvestmentProduct} {asOf : Option IsoDate}
    {allocations : List (List (String × JsValue))} {raw : JsValue} {track : InvestmentTrack}
    {amount : Int} (hcurrency : product.currency = "ILS")
    (h : trackOfRow host observedAt product asOf allocations raw = .ok (.ok (some track, amount))) :
    TrackOf product track := by
  obtain ⟨row, -, h⟩ := except_bind_ok.mp h
  by_cases hmissing : missing (JsValue.get row "TotalTzvira") = true
  · rw [if_pos hmissing] at h
    cases h
  rw [if_neg hmissing] at h
  obtain ⟨text, -, h⟩ := except_bind_ok.mp h
  by_cases hzero : text = "0.00"
  · rw [if_pos hzero] at h
    cases h
  rw [if_neg hzero] at h
  obtain ⟨house, -, h⟩ := except_bind_ok.mp h
  obtain ⟨route, -, h⟩ := except_bind_ok.mp h
  obtain ⟨found, -, h⟩ := except_bind_ok.mp h
  rcases found with _ | ⟨allocation, _ | ⟨next, others⟩⟩
  · cases h
  · dsimp only at h
    split_ifs at h
    · cases h
    obtain ⟨houseId, -, h⟩ := except_bind_ok.mp h
    obtain ⟨routeId, -, h⟩ := except_bind_ok.mp h
    obtain ⟨id, hid, h⟩ := except_bind_ok.mp h
    obtain ⟨htrack, -⟩ := Prod.mk.inj (Except.ok.inj (Except.ok.inj h))
    obtain rfl := Option.some.inj htrack
    exact ⟨rfl, hcurrency.symm, _, orThrow_ok hid⟩
  · cases h

/-- and so do all. -/
theorem tracksOf_rows {observedAt : String} {product : InvestmentProduct} {asOf : Option IsoDate}
    {allocations : List (List (String × JsValue))} (hcurrency : product.currency = "ILS")
    {rows : List JsValue} {tracks : List InvestmentTrack} {sum : Int}
    (h : tracksOfRows host observedAt product asOf allocations rows = .ok (.ok (tracks, sum))) :
    ∀ track ∈ tracks, TrackOf product track := by
  induction rows generalizing tracks sum with
  | nil =>
      obtain ⟨rfl, -⟩ := Prod.mk.inj (Except.ok.inj (Except.ok.inj h))
      exact nofun
  | cons raw rows ih =>
      obtain ⟨first, hfirst, h⟩ := except_bind_ok.mp h
      cases first with
      | error reason => cases h
      | ok pair =>
          obtain ⟨track, amount⟩ := pair
          obtain ⟨others, hothers, h⟩ := except_bind_ok.mp h
          cases others with
          | error reason => cases h
          | ok rest =>
              obtain ⟨rest, total⟩ := rest
              obtain ⟨rfl, -⟩ := Prod.mk.inj (Except.ok.inj (Except.ok.inj h))
              intro found hfound
              rcases List.mem_append.mp hfound with hnew | hold
              · rw [Option.mem_toList] at hnew
                rw [Option.mem_def.mp hnew] at hfirst
                exact trackOf_row hcurrency hfirst
              · exact ih hothers found hold

/-- The tracks of a policy are added all together, or not at all. -/
theorem addTracks_own {building building' : Building} {product product' : InvestmentProduct}
    {details : List (String × JsValue)} {asOf : Option IsoDate} {balance : String}
    (hcurrency : product.currency = "ILS")
    (h : addTracks host building product details asOf balance = .ok (building', product')) :
    SameValue product product' ∧ ∃ tracks, building'.snapshot = { building.snapshot with
        complete := building'.snapshot.complete
        tracks := building.snapshot.tracks ++ tracks } ∧
      (tracks.map (·.id)).Nodup ∧ ∀ track ∈ tracks, TrackOf product track := by
  have hlower : ∀ {reason}, (Except.ok (incomplete building reason, product) :
      Except ParseError (Building × InvestmentProduct)) = .ok (building', product') →
        SameValue product product' ∧ ∃ tracks, building'.snapshot = { building.snapshot with
            complete := building'.snapshot.complete
            tracks := building.snapshot.tracks ++ tracks } ∧
          (tracks.map (·.id)).Nodup ∧ ∀ track ∈ tracks, TrackOf product track := by
    intro reason h
    obtain ⟨rfl, rfl⟩ := Prod.mk.inj (Except.ok.inj h)
    refine ⟨.refl _, [], ?_, List.nodup_nil, nofun⟩
    rw [List.append_nil]
    rfl
  unfold addTracks at h
  by_cases haccumulated : missing (JsValue.get details "PidyonTzvira") = true
  · rw [if_pos haccumulated] at h
    exact hlower h
  rw [if_neg haccumulated] at h
  by_cases hallocated : missing (JsValue.get details "InvestmentPolicy") = true
  · rw [if_pos hallocated] at h
    exact hlower h
  rw [if_neg hallocated] at h
  obtain ⟨accumulation, -, h⟩ := except_bind_ok.mp h
  obtain ⟨investment, -, h⟩ := except_bind_ok.mp h
  split at h
  · split_ifs at h
    · exact hlower h
    obtain ⟨allocations, -, h⟩ := except_bind_ok.mp h
    obtain ⟨result, hresult, h⟩ := except_bind_ok.mp h
    cases result with
    | error reason => exact hlower h
    | ok pair =>
        obtain ⟨tracks, sum⟩ := pair
        dsimp only at h
        split_ifs at h with hnodup hsum
        · exact hlower h
        obtain ⟨total, -, h⟩ := except_bind_ok.mp h
        split_ifs at h with hbalance
        · exact hlower h
        obtain ⟨rfl, rfl⟩ := Prod.mk.inj (Except.ok.inj h)
        exact ⟨⟨⟨rfl, rfl, rfl, rfl⟩, rfl, rfl⟩, tracks, rfl, hnodup,
          tracksOf_rows hcurrency hresult⟩
  · exact hlower h
  · exact hlower h

/-- Deposits add no records. -/
theorem addDepositSummary_own {building building' : Building} {product product' : InvestmentProduct}
    {capture : BestInvestCapturedPolicy}
    (h : addDepositSummary host building product capture = .ok (building', product')) :
    SameValue product product' ∧ building'.snapshot = { building.snapshot with
      complete := building'.snapshot.complete } := by
  have hlower : ∀ {reason}, (Except.ok (incomplete building reason, product) :
      Except ParseError (Building × InvestmentProduct)) = .ok (building', product') →
        SameValue product product' ∧ building'.snapshot = { building.snapshot with
          complete := building'.snapshot.complete } := by
    intro reason h
    obtain ⟨rfl, rfl⟩ := Prod.mk.inj (Except.ok.inj h)
    exact ⟨.refl _, rfl⟩
  unfold addDepositSummary at h
  split at h
  · obtain ⟨rfl, rfl⟩ := Prod.mk.inj (Except.ok.inj h)
    exact ⟨.refl _, rfl⟩
  · obtain ⟨year, -, h⟩ := except_bind_ok.mp h
    split_ifs at h
    · exact hlower h
    obtain ⟨data, -, h⟩ := except_bind_ok.mp h
    split at h
    · split_ifs at h
      · exact hlower h
      obtain ⟨result, -, h⟩ := except_bind_ok.mp h
      cases result with
      | none => exact hlower h
      | some sum =>
          obtain ⟨total, -, h⟩ := except_bind_ok.mp h
          split_ifs at h with hsum
          · exact hlower h
          obtain ⟨rfl, rfl⟩ := Prod.mk.inj (Except.ok.inj h)
          exact ⟨⟨⟨rfl, rfl, rfl, rfl⟩, rfl, rfl⟩, rfl⟩
    · exact hlower h

/-- What the details say of a product. -/
structure FreshProduct (provider : InvestmentProvider) (product : InvestmentProduct) : Prop where
  provided : product.provider = provider
  id : investmentProductId product.providerProductId provider = .ok product.id
  currency : product.currency = "ILS"
  current : product.currentValuationId = none
  coverage : product.coverage.valuations = .unavailable

/-- A product of a snapshot that has no value of it. -/
theorem FreshProduct.unvalued {provider : InvestmentProvider} {before : InvestmentSnapshot}
    {product : InvestmentProduct} (h : FreshProduct provider product) (complete : Bool) :
    AddsProduct provider before
      { before with complete, products := before.products ++ [product] } product none [] := by
  refine ⟨?_, h.provided, h.id, h.current, fun _ => h.coverage, nofun, nofun⟩
  rw [Option.toList_none, List.append_nil, List.append_nil]

/-- A policy makes a new product. -/
theorem policyProduct_fresh {details : List (String × JsValue)} {product : InvestmentProduct}
    (h : policyProduct host details = .ok product) :
    FreshProduct .hachshara_best_invest product := by
  obtain ⟨policyId, -, h⟩ := except_bind_ok.mp h
  obtain ⟨id, hid, h⟩ := except_bind_ok.mp h
  obtain ⟨name, -, h⟩ := except_bind_ok.mp h
  obtain rfl := Except.ok.inj h
  exact ⟨rfl, orThrow_ok hid, rfl, rfl, rfl⟩

/-- The value of a policy, its tracks and its deposits. -/
theorem addValuation_adds {building building' : Building} {product : InvestmentProduct}
    {details : List (String × JsValue)} {capture : BestInvestCapturedPolicy}
    (hproduct : FreshProduct .hachshara_best_invest product)
    (h : addValuation host building product details capture = .ok building') :
    ∃ item value tracks, item.id = product.id ∧ (tracks.map (·.id)).Nodup ∧
      AddsProduct .hachshara_best_invest building.snapshot building'.snapshot item (some value)
        tracks := by
  obtain ⟨amount, -, h⟩ := except_bind_ok.mp h
  obtain ⟨rawDate, -, h⟩ := except_bind_ok.mp h
  obtain ⟨asOf, hdate, h⟩ := except_bind_ok.mp h
  obtain ⟨id, hid, h⟩ := except_bind_ok.mp h
  obtain ⟨⟨tracked, product'⟩, htracked, h⟩ := except_bind_ok.mp h
  obtain ⟨⟨summarized, product''⟩, hsummarized, h⟩ := except_bind_ok.mp h
  obtain rfl := Except.ok.inj h
  obtain ⟨hsame, tracks, hsnapshot, hnodup, htracks⟩ :=
    @addTracks_own host _ _ { product with
      currentValuationId := some id
      coverage := { product.coverage with valuations := .partially } } _ _ _ _ hproduct.currency
      htracked
  obtain ⟨hsame', hsnapshot'⟩ := addDepositSummary_own hsummarized
  have hitem := hsame.trans hsame'
  have hown : IsProductId .hachshara_best_invest product.id := ⟨_, hproduct.id⟩
  refine ⟨product'', ⟨id, product.id, asOf, building.snapshot.observedAt, amount, "ILS", none⟩,
    tracks, hitem.id, hnodup, ?_⟩
  have hsource := hitem.source
  dsimp only at hsource
  refine ⟨?_, hitem.provider.trans hproduct.provided, ?_, hitem.current, nofun, ?_, ?_⟩
  · dsimp only
    rw [hsnapshot', hsnapshot]
    rfl
  · rw [hsource, hitem.id]
    exact hproduct.id
  · intro value hvalue
    obtain rfl := Option.some.inj hvalue
    refine ⟨hitem.id.symm, ?_, rfl, ?_, ?_⟩
    · exact (hitem.currency.trans hproduct.currency).symm
    · exact valuationId_trimmed hown.isIdText (parseBestInvestDate_trimmed hdate) (orThrow_ok hid)
    · rw [hitem.id]
      exact orThrow_ok hid
  · intro track htrack
    have hbefore : TrackOf product track := htracks track htrack
    exact hbefore.of_same ⟨hitem.provider, hitem.source, hitem.id, hitem.currency⟩

/-- **One policy** keeps what a collector makes. -/
theorem addPolicy_collected {building building' : Building} {capture : BestInvestCapturedPolicy}
    (h : Collected .hachshara_best_invest building.snapshot) (hdistinct : Distinct building.snapshot)
    (hstep : addPolicy host building capture = .ok building') :
    Collected .hachshara_best_invest building'.snapshot ∧ Distinct building'.snapshot := by
  have hsame : ∀ {start : Building} {reason : BestInvestIncompleteReason},
      Collected .hachshara_best_invest start.snapshot ∧ Distinct start.snapshot →
        (Except.ok (incomplete start reason) : Except ParseError Building) = .ok building' →
          Collected .hachshara_best_invest building'.snapshot ∧ Distinct building'.snapshot := by
    rintro start reason ⟨hcollected, hids⟩ hlowered
    obtain rfl := Except.ok.inj hlowered
    obtain ⟨hproduct, hcoverage, hcurrent, hvalue, hactivity, htrack, hexecution⟩ := hcollected
    obtain ⟨hproducts, hvaluations, hactivities, htracks, hexecutions⟩ := hids
    exact ⟨⟨hproduct, hcoverage, hcurrent, hvalue, hactivity, htrack, hexecution⟩,
      hproducts, hvaluations, hactivities, htracks, hexecutions⟩
  unfold addPolicy at hstep
  by_cases hcapture : missing capture.details = true
  · rw [if_pos hcapture] at hstep
    exact hsame ⟨h, hdistinct⟩ hstep
  rw [if_neg hcapture] at hstep
  obtain ⟨details, -, hstep⟩ := except_bind_ok.mp hstep
  by_cases hpolicy : missing (JsValue.get details "PolicyId") = true
  · rw [if_pos hpolicy] at hstep
    exact hsame ⟨h, hdistinct⟩ hstep
  rw [if_neg hpolicy] at hstep
  by_cases hname : missing (JsValue.get details "ProductName") = true
  · rw [if_pos hname] at hstep
    exact hsame ⟨h, hdistinct⟩ hstep
  rw [if_neg hname] at hstep
  obtain ⟨product, hproduct, hstep⟩ := except_bind_ok.mp hstep
  obtain ⟨checked, -, hstep⟩ := except_bind_ok.mp hstep
  by_cases hknown : product.id ∈ building.snapshot.products.map (·.id)
  · rw [if_pos hknown] at hstep
    cases hstep
  rw [if_neg hknown] at hstep
  have hfresh := policyProduct_fresh hproduct
  by_cases hsavings : missing (JsValue.get details "TotalSavings") = true
  · rw [if_pos hsavings] at hstep
    have hadds := @FreshProduct.unvalued _ building.snapshot _ hfresh building.snapshot.complete
    have hnone : (([] : List InvestmentTrack).map (·.id)).Nodup := List.nodup_nil
    exact hsame ⟨h.addsProduct hadds, hdistinct.addsProduct h hadds hknown hnone⟩ hstep
  · rw [if_neg hsavings] at hstep
    obtain ⟨item, value, tracks, hid, hnodup, hadds⟩ := addValuation_adds hfresh hstep
    rw [← hid] at hknown
    exact ⟨h.addsProduct hadds, hdistinct.addsProduct h hadds hknown hnodup⟩

end

section
variable {host : Host} {result : InvestmentSnapshot}

/-- **A snapshot of Best Invest is well made.** -/
theorem buildBestInvestSnapshot_wellMade {input : BuildBestInvestSnapshotInput}
    {reasons : List BestInvestIncompleteReason}
    (h : buildBestInvestSnapshot host input = .ok (result, reasons)) :
    WellMade host .hachshara_best_invest result := by
  unfold buildBestInvestSnapshot at h
  by_cases htime : isTimestamp input.observedAt = true
  swap
  · rw [if_neg htime] at h
    cases h
  rw [if_pos htime] at h
  obtain ⟨building, hloop, h⟩ := except_bind_ok.mp h
  have hstart : Collected .hachshara_best_invest (startBuilding input).snapshot ∧
      Distinct (startBuilding input).snapshot := by
    unfold startBuilding
    dsimp only
    split_ifs
    all_goals exact ⟨collected_empty _ _ _, distinct_empty _ _ _⟩
  obtain ⟨hcollected, hdistinct⟩ := @except_foldlM_keeps _ _ _ _
    (fun building : Building => Collected .hachshara_best_invest building.snapshot ∧
      Distinct building.snapshot) _
    (fun b a b' hb hstep => addPolicy_collected hb.1 hb.2 hstep) _ _ hstart hloop
  cases hparse : parseSnapshot host { building.snapshot with
      inventoryComplete := input.inventoryComplete && building.snapshot.complete } with
  | error e =>
      rw [hparse] at h
      cases h
  | ok parsed =>
      rw [hparse] at h
      obtain rfl : parsed = result := (Prod.mk.inj (Except.ok.inj h)).1
      exact (hcollected.flagged _ _).wellMade (hdistinct.flagged _ _) hparse

end

/-! ## The Clal portfolio -/

section
variable {host : Host} {snapshot snapshot' : InvestmentSnapshot} {item item' : InvestmentProduct}

/-- A row of Clal makes a new product. -/
theorem clalProduct_fresh {family : ClalFamily} {rawId name : JsValue}
    (h : clalProduct family rawId name = .ok item) : FreshProduct .clal item := by
  obtain ⟨⟨id, providerProductId⟩, hidentity, h⟩ := except_bind_ok.mp h
  obtain ⟨text, -, h⟩ := except_bind_ok.mp h
  obtain rfl := Except.ok.inj h
  obtain ⟨number, -, hidentity⟩ := except_bind_ok.mp hidentity
  obtain ⟨own, hown, hidentity⟩ := except_bind_ok.mp hidentity
  obtain ⟨rfl, rfl⟩ := Prod.mk.inj (Except.ok.inj hidentity)
  exact ⟨rfl, orThrow_ok hown, rfl, rfl, rfl⟩

/-- A product with the value that was found for it, if any was. -/
structure ValuedOwn (before after : InvestmentSnapshot) (item item' : InvestmentProduct)
    (value : Option InvestmentValuation) : Prop extends SameIdentity item item' where
  snapshot : after = { before with
    complete := after.complete, valuations := before.valuations ++ value.toList }
  current : item'.currentValuationId = value.map (·.id)
  coverage : value = none → item'.coverage.valuations = .unavailable
  value : ∀ v ∈ value, ValueOf item v

/-- Its value is its own. -/
theorem currentValue_own {rawAmount rawDate : JsValue} (hitem : FreshProduct .clal item)
    (h : currentValue host snapshot item rawAmount rawDate = .ok (snapshot', item')) :
    ∃ value, ValuedOwn snapshot snapshot' item item' value := by
  unfold currentValue at h
  by_cases hempty : isEmptyValue rawAmount = true
  · rw [if_pos hempty] at h
    obtain ⟨rfl, rfl⟩ := Prod.mk.inj (Except.ok.inj h)
    refine ⟨none, ⟨rfl, rfl, rfl, rfl⟩, ?_, hitem.current, fun _ => hitem.coverage, nofun⟩
    rw [Option.toList_none, List.append_nil]
  rw [if_neg hempty] at h
  obtain ⟨amount, -, h⟩ := except_bind_ok.mp h
  obtain ⟨asOf, hdate, h⟩ := except_bind_ok.mp h
  obtain ⟨id, hid, h⟩ := except_bind_ok.mp h
  obtain ⟨rfl, rfl⟩ := Prod.mk.inj (Except.ok.inj h)
  have hown : IsProductId .clal item.id := ⟨_, hitem.id⟩
  refine ⟨some _, ⟨rfl, rfl, rfl, rfl⟩, rfl, rfl, nofun, ?_⟩
  intro v hv
  obtain rfl := Option.some.inj hv
  exact ⟨rfl, hitem.currency.symm, rfl,
    valuationId_trimmed hown.isIdText (parseClalDate_trimmed hdate) (orThrow_ok hid), orThrow_ok hid⟩

/-- A detail only checks it. -/
theorem verifyCurrentValue_own {amount date : JsValue}
    (h : verifyCurrentValue host snapshot item amount date = .ok snapshot') :
    snapshot' = { snapshot with complete := snapshot'.complete } := by
  obtain ⟨expected, -, h⟩ := except_bind_ok.mp h
  by_cases hamount : (snapshot.valuations.find? fun row =>
      item.currentValuationId = some row.id).map (·.amount) ≠ some expected
  · rw [if_pos hamount] at h
    obtain rfl := Except.ok.inj h
    rfl
  rw [if_neg hamount] at h
  obtain ⟨expectedDate, -, h⟩ := except_bind_ok.mp h
  split_ifs at h
  all_goals
    obtain rfl := Except.ok.inj h
    rfl

/-- A track of a pension belongs to it, -/
theorem pensionTrack_own {observedAt : String} {raw : JsValue} {track : InvestmentTrack}
    (hcurrency : item.currency = "ILS") (h : pensionTrack observedAt item raw = .ok track) :
    TrackOf item track := by
  obtain ⟨row, -, h⟩ := except_bind_ok.mp h
  obtain ⟨number, -, h⟩ := except_bind_ok.mp h
  obtain ⟨id, hid, h⟩ := except_bind_ok.mp h
  obtain ⟨name, -, h⟩ := except_bind_ok.mp h
  obtain rfl := Except.ok.inj h
  exact ⟨rfl, hcurrency.symm, number, orThrow_ok hid⟩

/-- and so does one of a fund, -/
theorem gemelTrack_own {observedAt : String} {date : Option IsoDate} {raw : JsValue}
    {track : InvestmentTrack} {amount : Int} (hcurrency : item.currency = "ILS")
    (h : gemelTrack host observedAt item date raw = .ok (some track, amount)) :
    TrackOf item track := by
  obtain ⟨row, -, h⟩ := except_bind_ok.mp h
  obtain ⟨text, -, h⟩ := except_bind_ok.mp h
  by_cases hzero : text = "0.00"
  · rw [if_pos hzero] at h
    cases h
  rw [if_neg hzero] at h
  obtain ⟨confirmation, -, h⟩ := except_bind_ok.mp h
  obtain ⟨product, -, h⟩ := except_bind_ok.mp h
  obtain ⟨kupa, -, h⟩ := except_bind_ok.mp h
  obtain ⟨id, hid, h⟩ := except_bind_ok.mp h
  obtain ⟨name, -, h⟩ := except_bind_ok.mp h
  obtain ⟨asOf, -, h⟩ := except_bind_ok.mp h
  obtain ⟨hsome, -⟩ := Prod.mk.inj (Except.ok.inj h)
  obtain rfl := Option.some.inj hsome
  exact ⟨rfl, hcurrency.symm, _, orThrow_ok hid⟩

/-- or several. -/
theorem gemelTracks_own {observedAt : String} {date : Option IsoDate} {rows : List JsValue}
    {tracks : List InvestmentTrack} {sum : Int} (hcurrency : item.currency = "ILS")
    (h : gemelTracks host observedAt item date rows = .ok (tracks, sum)) :
    ∀ track ∈ tracks, TrackOf item track := by
  induction rows generalizing tracks sum with
  | nil =>
      obtain ⟨rfl, -⟩ := Prod.mk.inj (Except.ok.inj h)
      exact nofun
  | cons raw rows ih =>
      obtain ⟨⟨first, amount⟩, hfirst, h⟩ := except_bind_ok.mp h
      obtain ⟨⟨others, rest⟩, hothers, h⟩ := except_bind_ok.mp h
      obtain ⟨rfl, -⟩ := Prod.mk.inj (Except.ok.inj h)
      intro track htrack
      rcases List.mem_append.mp htrack with hnew | hold
      · rw [Option.mem_toList] at hnew
        rw [Option.mem_def.mp hnew] at hfirst
        exact gemelTrack_own hcurrency hfirst
      · exact ih hothers track hold

/-- The metadata of a product add tracks and nothing else. -/
theorem metadata_own {family : ClalFamily} {data : JsFields} (hcurrency : item.currency = "ILS")
    (h : metadata host family snapshot item data = .ok (snapshot', item')) :
    SameValue item item' ∧ ∃ tracks, snapshot' = { snapshot with
        complete := snapshot'.complete, tracks := snapshot.tracks ++ tracks } ∧
      ∀ track ∈ tracks, TrackOf item track := by
  cases family with
  | pension =>
      obtain ⟨details, -, h⟩ := except_bind_ok.mp h
      obtain ⟨period, -, h⟩ := except_bind_ok.mp h
      obtain ⟨verified, hverified, h⟩ := except_bind_ok.mp h
      obtain ⟨forecast, -, h⟩ := except_bind_ok.mp h
      obtain ⟨investments, -, h⟩ := except_bind_ok.mp h
      obtain ⟨rows, -, h⟩ := except_bind_ok.mp h
      obtain ⟨tracks, htracks, h⟩ := except_bind_ok.mp h
      obtain ⟨rfl, rfl⟩ := Prod.mk.inj (Except.ok.inj h)
      have hsame := verifyCurrentValue_own hverified
      refine ⟨⟨⟨rfl, rfl, rfl, rfl⟩, rfl, rfl⟩, tracks, ?_, ?_⟩
      · rw [hsame]
      · intro track htrack
        obtain ⟨raw, -, hraw⟩ := exists_of_mapM_ok htracks htrack
        exact pensionTrack_own hcurrency hraw
  | hishtalmut =>
      change gemelMetadata host snapshot item data = _ at h
      unfold gemelMetadata at h
      by_cases hflags : isTrue (JsValue.get data "IsHishtalmut") = true ∧
          isTrue (JsValue.get data "IsGemelDailyBalanceSuccess") = true
      swap
      · rw [if_neg hflags] at h
        cases h
      rw [if_pos hflags] at h
      obtain ⟨details, -, h⟩ := except_bind_ok.mp h
      obtain ⟨date, -, h⟩ := except_bind_ok.mp h
      obtain ⟨balance, -, h⟩ := except_bind_ok.mp h
      obtain ⟨verified, hverified, h⟩ := except_bind_ok.mp h
      obtain ⟨availableFrom, -, h⟩ := except_bind_ok.mp h
      obtain ⟨tab, -, h⟩ := except_bind_ok.mp h
      obtain ⟨rows, -, h⟩ := except_bind_ok.mp h
      obtain ⟨⟨tracks, sum⟩, htracks, h⟩ := except_bind_ok.mp h
      have hsame := verifyCurrentValue_own hverified
      have hnone : SameValue item item ∧ ∃ tracks, { verified with complete := false } =
          { snapshot with complete := false, tracks := snapshot.tracks ++ tracks } ∧
            ∀ track ∈ tracks, TrackOf item track := by
        refine ⟨.refl _, [], ?_, nofun⟩
        rw [hsame, List.append_nil]
      dsimp only at h
      by_cases hsum : sum ≠ cents balance
      · rw [if_pos hsum] at h
        obtain ⟨rfl, rfl⟩ := Prod.mk.inj (Except.ok.inj h)
        exact ⟨⟨⟨rfl, rfl, rfl, rfl⟩, rfl, rfl⟩, hnone.2⟩
      rw [if_neg hsum] at h
      obtain ⟨total, -, h⟩ := except_bind_ok.mp h
      by_cases htotal : total ≠ balance
      · rw [if_pos htotal] at h
        obtain ⟨rfl, rfl⟩ := Prod.mk.inj (Except.ok.inj h)
        exact ⟨⟨⟨rfl, rfl, rfl, rfl⟩, rfl, rfl⟩, hnone.2⟩
      rw [if_neg htotal] at h
      obtain ⟨rfl, rfl⟩ := Prod.mk.inj (Except.ok.inj h)
      refine ⟨⟨⟨rfl, rfl, rfl, rfl⟩, rfl, rfl⟩, tracks, ?_, ?_⟩
      · rw [hsame]
      · intro track htrack
        have hown := @gemelTracks_own host { item with
          liquidity := gemelLiquidity host verified.observedAt item.liquidity availableFrom } _ _ _ _
          _ hcurrency htracks track htrack
        exact hown

end

section
variable {host : Host}

/-- What is collected so far, of which no activity and no execution. -/
structure PortfolioSoFar (snapshot : InvestmentSnapshot) : Prop where
  collected : Collected .clal snapshot
  shekels : ∀ product ∈ snapshot.products, product.currency = "ILS"
  activities : snapshot.activities = []
  executions : snapshot.executions = []

/-- One more product with what belongs to it. -/
theorem PortfolioSoFar.addsProduct {before after : InvestmentSnapshot} {item : InvestmentProduct}
    {value : Option InvestmentValuation} {tracks : List InvestmentTrack}
    (h : PortfolioSoFar before) (hcurrency : item.currency = "ILS")
    (hadds : AddsProduct .clal before after item value tracks) : PortfolioSoFar after := by
  refine ⟨h.collected.addsProduct hadds, ?_, ?_, ?_⟩
  · rw [hadds.snapshot]
    intro product hproduct
    rcases List.mem_append.mp hproduct with hold | hnew
    · exact h.shekels product hold
    · rwa [List.mem_singleton.mp hnew]
  · rw [hadds.snapshot]
    exact h.activities
  · rw [hadds.snapshot]
    exact h.executions

/-- A product is added with its value and the tracks of its detail. -/
theorem addDetail_adds {family : ClalFamily} {building building' : ClalBuilding}
    {snapshot : InvestmentSnapshot} {product item : InvestmentProduct}
    {value : Option InvestmentValuation} (hproduct : FreshProduct .clal product)
    (hvalued : ValuedOwn building.snapshot snapshot product item value)
    (h : addDetail host family building item snapshot = .ok building') :
    ∃ item' tracks, item'.currency = "ILS" ∧
      AddsProduct .clal building.snapshot building'.snapshot item' value tracks := by
  have hadds : ∀ {item' : InvestmentProduct} {tracks : List InvestmentTrack}
      {after : InvestmentSnapshot}, SameValue item item' →
      after = { building.snapshot with
        complete := after.complete
        products := building.snapshot.products ++ [item']
        valuations := building.snapshot.valuations ++ value.toList
        tracks := building.snapshot.tracks ++ tracks } → (∀ track ∈ tracks, TrackOf item track) →
        AddsProduct .clal building.snapshot after item' value tracks := by
    intro item' tracks after hsame hafter htracks
    have hall := hvalued.toSameIdentity.trans hsame.toSameIdentity
    refine ⟨hafter, hall.provider.trans hproduct.provided, ?_, hsame.current.trans
      hvalued.current, fun hnone => hsame.coverage.trans (hvalued.coverage hnone), ?_, ?_⟩
    · rw [hall.source, hall.id]
      exact hproduct.id
    · exact fun v hv => (hvalued.value v hv).of_same hall
    · exact fun track htrack => (htracks track htrack).of_same hsame.toSameIdentity
  have hcurrency : item.currency = "ILS" := hvalued.currency.trans hproduct.currency
  have hsnapshot := hvalued.snapshot
  unfold addDetail at h
  cases hdetail : lookupId building.details item.id with
  | none =>
      rw [hdetail] at h
      obtain rfl := Except.ok.inj h
      refine ⟨item, [], hcurrency, hadds (.refl _) ?_ nofun⟩
      dsimp only
      rw [hsnapshot, List.append_nil]
  | some detail =>
      rw [hdetail] at h
      obtain ⟨⟨after, item'⟩, hmetadata, h⟩ := except_bind_ok.mp h
      obtain rfl := Except.ok.inj h
      obtain ⟨hsame, tracks, hafter, htracks⟩ := metadata_own hcurrency hmetadata
      refine ⟨item', tracks, hsame.currency.trans hcurrency, hadds hsame ?_ htracks⟩
      dsimp only
      rw [hafter, hsnapshot]

/-- A pension is added, -/
theorem addPension_soFar {building building' : ClalBuilding} {raw : JsValue}
    (h : PortfolioSoFar building.snapshot) (hstep : addPension host building raw = .ok building') :
    PortfolioSoFar building'.snapshot := by
  obtain ⟨row, -, hstep⟩ := except_bind_ok.mp hstep
  obtain ⟨item, hitem, hstep⟩ := except_bind_ok.mp hstep
  obtain ⟨⟨snapshot, item'⟩, hvalue, hstep⟩ := except_bind_ok.mp hstep
  have hfresh := clalProduct_fresh hitem
  obtain ⟨value, hvalued⟩ := currentValue_own hfresh hvalue
  obtain ⟨item'', tracks, hcurrency, hadds⟩ := addDetail_adds hfresh hvalued hstep
  exact h.addsProduct hcurrency hadds

/-- or a fund. -/
theorem addHishtalmut_soFar {daily : List (String × JsFields)} {building building' : ClalBuilding}
    {row : JsFields} (h : PortfolioSoFar building.snapshot)
    (hstep : addHishtalmut host daily building row = .ok building') :
    PortfolioSoFar building'.snapshot := by
  obtain ⟨item, hitem, hstep⟩ := except_bind_ok.mp hstep
  obtain ⟨⟨snapshot, item'⟩, hvalue, hstep⟩ := except_bind_ok.mp hstep
  have hfresh := clalProduct_fresh hitem
  obtain ⟨value, hvalued⟩ := currentValue_own hfresh hvalue
  obtain ⟨item'', tracks, hcurrency, hadds⟩ := addDetail_adds hfresh hvalued hstep
  exact h.addsProduct hcurrency hadds

/-- What is made of Clal's portfolio: all of it is in shekels. -/
structure ClalMade (host : Host) (snapshot : InvestmentSnapshot) : Prop
    extends WellMade host .clal snapshot where
  shekels : ∀ product ∈ snapshot.products, product.currency = "ILS"

/-- The schema keeps the currency of a product. -/
theorem ClalMade.of_parsed {snapshot result : InvestmentSnapshot} (h : Collected .clal snapshot)
    (hdistinct : Distinct snapshot)
    (hshekels : ∀ product ∈ snapshot.products, product.currency = "ILS")
    (hparse : parseSnapshot host snapshot = .ok result) : ClalMade host result := by
  refine ⟨h.wellMade hdistinct hparse, ?_⟩
  rw [(parseSnapshot_ok hparse).1]
  intro product hproduct
  obtain ⟨old, hold, rfl⟩ := List.mem_map.mp hproduct
  exact hshekels old hold

/-- **A portfolio of Clal is well made.** -/
theorem parseClalPortfolioSnapshot_made {input : ClalPortfolioInput}
    {result : InvestmentSnapshot} (h : parseClalPortfolioSnapshot host input = .ok result) :
    ClalMade host result := by
  unfold parseClalPortfolioSnapshot at h
  by_cases htime : isTimestamp input.observedAt = true
  swap
  · rw [if_neg htime] at h
    cases h
  rw [if_pos htime] at h
  obtain ⟨home, -, h⟩ := except_bind_ok.mp h
  obtain ⟨pensionDetails, -, h⟩ := except_bind_ok.mp h
  obtain ⟨gemelDetails, -, h⟩ := except_bind_ok.mp h
  obtain ⟨pensionRows, -, h⟩ := except_bind_ok.mp h
  obtain ⟨gemelRows, -, h⟩ := except_bind_ok.mp h
  obtain ⟨gemelRecords, -, h⟩ := except_bind_ok.mp h
  obtain ⟨hishtalmutRows, -, h⟩ := except_bind_ok.mp h
  obtain ⟨⟨daily, found⟩, -, h⟩ := except_bind_ok.mp h
  obtain ⟨pensions, hpensions, h⟩ := except_bind_ok.mp h
  obtain ⟨all, hall, h⟩ := except_bind_ok.mp h
  have hstart : PortfolioSoFar ⟨input.observedAt, found, true, [], [], [], [], []⟩ :=
    ⟨collected_empty _ _ _, fun _ hrow => absurd hrow List.not_mem_nil, rfl, rfl⟩
  have hafterPensions : PortfolioSoFar pensions.snapshot :=
    @except_foldlM_keeps _ _ _ _ (fun building : ClalBuilding => PortfolioSoFar building.snapshot) _
      (fun b a b' hb hstep => addPension_soFar hb hstep) _ _ hstart hpensions
  have hafter : PortfolioSoFar all.snapshot :=
    @except_foldlM_keeps _ _ _ _ (fun building : ClalBuilding => PortfolioSoFar building.snapshot) _
      (fun b a b' hb hstep => addHishtalmut_soFar hb hstep) ⟨pensions.snapshot, gemelDetails⟩ _
      hafterPensions hall
  dsimp only at h
  by_cases hleft : pensions.details ≠ [] ∨ all.details ≠ [] ∨ all.snapshot.products = []
  · rw [if_pos hleft] at h
    cases h
  rw [if_neg hleft] at h
  by_cases hids : (all.snapshot.products.map (·.id)).Nodup ∧
      (all.snapshot.valuations.map (·.id)).Nodup ∧ (all.snapshot.tracks.map (·.id)).Nodup
  swap
  · rw [if_neg hids] at h
    cases h
  rw [if_pos hids] at h
  have hdistinct : Distinct all.snapshot := by
    refine ⟨hids.1, hids.2.1, ?_, hids.2.2, ?_⟩
    · rw [hafter.activities]
      exact .nil
    · rw [hafter.executions]
      exact .nil
  cases hparse : parseSnapshot host { all.snapshot with
      inventoryComplete := all.snapshot.complete } with
  | error e =>
      rw [hparse] at h
      cases h
  | ok parsed =>
      rw [hparse] at h
      obtain rfl : parsed = result := Except.ok.inj h
      exact ClalMade.of_parsed
        (hafter.collected.flagged all.snapshot.complete all.snapshot.complete)
        (hdistinct.flagged all.snapshot.complete all.snapshot.complete) hafter.shekels hparse

end

/-! ## Hapoalim -/

section
variable {host : Host} {window : HapoalimWindow}

/-- A result does not depend on what errors are called. -/
theorem mapError_ok {ε ε' α : Type} {f : ε → ε'} {result : Except ε α} {a : α}
    (h : result.mapError f = .ok a) : result = .ok a := by
  cases result with
  | ok b => exact congrArg Except.ok (Except.ok.inj h)
  | error e => cases h

/-- A row gives an execution of the securities account, under its own id. -/
theorem readExecution_own {value : JsValue} {execution : InvestmentExecution} {productId : String}
    (hproduct : investmentProductId window.securities .hapoalim = .ok productId)
    (h : readExecution host window value = .ok execution) :
    execution.productId = productId ∧
      investmentExecutionId execution.productId execution.sourceId = .ok execution.id := by
  obtain ⟨row, -, h⟩ := except_bind_ok.mp h
  by_cases hown : ¬ isOwnRow host window row
  · rw [if_pos hown] at h
    cases h
  rw [if_neg hown, hproduct] at h
  obtain ⟨own, hsame, h⟩ := except_bind_ok.mp h
  obtain rfl : productId = own := Except.ok.inj hsame
  obtain ⟨tradeDate, -, h⟩ := except_bind_ok.mp h
  by_cases houtside : (jsLess tradeDate window.fromDate || jsLess window.toDate tradeDate) = true
  · rw [if_pos houtside] at h
    cases h
  rw [if_neg houtside] at h
  obtain ⟨cancelled, -, h⟩ := except_bind_ok.mp h
  obtain ⟨valueDate, -, h⟩ := except_bind_ok.mp h
  obtain ⟨settlementDate, -, h⟩ := except_bind_ok.mp h
  obtain ⟨cancelDate, -, h⟩ := except_bind_ok.mp h
  by_cases hundated : cancelled = true ∧ cancelDate = none
  · rw [if_pos hundated] at h
    cases h
  rw [if_neg hundated] at h
  obtain ⟨securityId, -, h⟩ := except_bind_ok.mp h
  obtain ⟨sourceTradeType, -, h⟩ := except_bind_ok.mp h
  obtain ⟨sourceTransactionType, -, h⟩ := except_bind_ok.mp h
  obtain ⟨sourcePaymentType, -, h⟩ := except_bind_ok.mp h
  obtain ⟨quantity, -, h⟩ := except_bind_ok.mp h
  obtain ⟨unitPrice, -, h⟩ := except_bind_ok.mp h
  obtain ⟨netCashAmount, -, h⟩ := except_bind_ok.mp h
  obtain ⟨paymentDate, -, h⟩ := except_bind_ok.mp h
  obtain ⟨exDate, -, h⟩ := except_bind_ok.mp h
  obtain ⟨id, hid, h⟩ := except_bind_ok.mp h
  obtain ⟨isin, -, h⟩ := except_bind_ok.mp h
  obtain ⟨symbol, -, h⟩ := except_bind_ok.mp h
  obtain ⟨name, -, h⟩ := except_bind_ok.mp h
  obtain ⟨currency, -, h⟩ := except_bind_ok.mp h
  obtain ⟨settlementNetCashAmount, -, h⟩ := except_bind_ok.mp h
  obtain ⟨settlementCurrency, -, h⟩ := except_bind_ok.mp h
  rw [← Except.ok.inj h]
  exact ⟨rfl, mapError_ok hid⟩

/-- An execution belongs to the securities of the account. -/
theorem parseHapoalimExecution_own {value : JsValue} {execution : InvestmentExecution}
    {productId : String}
    (hproduct : investmentProductId window.securities .hapoalim = .ok productId)
    (h : parseHapoalimExecution host window value = .ok execution) :
    execution.productId = productId ∧
      investmentExecutionId execution.productId execution.sourceId = .ok execution.id := by
  obtain ⟨fields, hfields, h⟩ := except_bind_ok.mp h
  obtain ⟨hown, hid⟩ := readExecution_own hproduct hfields
  have hproductId : IsProductId .hapoalim productId := ⟨_, hproduct⟩
  obtain ⟨hidTrimmed, hproductTrimmed⟩ := executionId_trimmed (hown ▸ hproductId.isIdText) hid
  unfold parseExecution at h
  split_ifs at h
  rw [← Except.ok.inj h, hidTrimmed, hproductTrimmed]
  exact ⟨hown, hid⟩

/-- **A snapshot of Hapoalim is well made.** -/
theorem buildHapoalimSnapshot_wellMade {read : HapoalimSecuritiesRead}
    {result : InvestmentSnapshot} (h : buildHapoalimSnapshot host read window = .ok result) :
    WellMade host .hapoalim result := by
  obtain ⟨-, -, h⟩ := except_bind_ok.mp h
  obtain ⟨productId, hproduct, h⟩ := except_bind_ok.mp h
  obtain ⟨executions, hread, h⟩ := except_bind_ok.mp h
  have hid := mapError_ok hproduct
  by_cases hrefused : ¬ (executions.map (·.id)).Nodup ∨ read.history.paginationComplete = false
  · rw [if_pos hrefused] at h
    cases h
  rw [if_neg hrefused] at h
  rw [not_or, not_not] at hrefused
  have hcollected : Collected .hapoalim ⟨window.observedAt, true, false,
      [securitiesProduct window productId], [], [], [], executions⟩ := by
    have hnone : ∀ {α : Type} {P : α → Prop}, ∀ row ∈ ([] : List α), P row :=
      fun _ hrow => absurd hrow List.not_mem_nil
    refine ⟨?_, ?_, ?_, hnone, hnone, hnone, ?_⟩
    · intro product hmem
      rw [List.mem_singleton.mp hmem]
      exact ⟨rfl, hid⟩
    · intro product hmem
      rw [List.mem_singleton.mp hmem]
      exact .inl rfl
    · intro product hmem current hcurrent
      rw [List.mem_singleton.mp hmem] at hcurrent
      cases hcurrent
    · intro execution hexecution
      obtain ⟨row, -, hrow⟩ := exists_of_mapM_ok hread hexecution
      obtain ⟨hown, hidentity⟩ := parseHapoalimExecution_own hid hrow
      exact ⟨rfl, hidentity, _, List.mem_singleton_self _, hown.symm⟩
  exact hcollected.wellMade
    ⟨List.nodup_singleton _, List.nodup_nil, List.nodup_nil, List.nodup_nil, hrefused.1⟩
    (mapError_ok h)

end

end SimplefinBridge
