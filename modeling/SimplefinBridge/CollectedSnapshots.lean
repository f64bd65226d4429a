import Mathlib.Data.List.DropRight
import SimplefinBridge.BestInvestSnapshot
import SimplefinBridge.ClalPortfolio
import SimplefinBridge.InvestmentRelations

/-!
# Snapshots that collectors make

A collector gives every record the id that the store recomputes for it, names
products of its own snapshot only, and gives their records their currency
(`Collected`).  A snapshot of this kind whose ids differ passes the relations of
the store, so nothing but its date keeps the store from applying it.
-/

namespace SimplefinBridge

open Statements
open Transactional (except_bind_ok except_foldlM_keeps exists_of_mapM_ok)

/-! ## What a collector makes -/

/-- Every record has its own id, and the currency of its product. -/
structure Collected (provider : InvestmentProvider) (snapshot : InvestmentSnapshot) : Prop where
  product : ∀ product ∈ snapshot.products, product.provider = provider ∧
    investmentProductId product.providerProductId provider = .ok product.id
  coverage : ∀ product ∈ snapshot.products, product.coverage.valuations = .unavailable ∨
    ∃ value ∈ snapshot.valuations, value.productId = product.id
  current : ∀ product ∈ snapshot.products, ∀ current ∈ product.currentValuationId,
    ∃ value ∈ snapshot.valuations, value.productId = product.id ∧ value.id = current
  value : ∀ value ∈ snapshot.valuations, value.provenance = none ∧ jsTrim value.id = value.id ∧
    investmentValuationId value.productId value.asOf = .ok value.id ∧
    ∃ product ∈ snapshot.products, product.id = value.productId ∧ product.currency = value.currency
  activity : ∀ activity ∈ snapshot.activities,
    investmentActivityId activity.productId activity.sourceId = .ok activity.id ∧
    ∃ product ∈ snapshot.products, product.id = activity.productId ∧
      product.currency = activity.currency
  track : ∀ track ∈ snapshot.tracks,
    (∃ sourceId, investmentTrackId track.productId sourceId = .ok track.id) ∧
    ∃ product ∈ snapshot.products, product.id = track.productId ∧ product.currency = track.currency
  execution : ∀ execution ∈ snapshot.executions, provider = .hapoalim ∧
    investmentExecutionId execution.productId execution.sourceId = .ok execution.id ∧
    ∃ product ∈ snapshot.products, product.id = execution.productId

/-- No id is given twice. -/
structure Distinct (snapshot : InvestmentSnapshot) : Prop where
  products : (snapshot.products.map (·.id)).Nodup
  valuations : (snapshot.valuations.map (·.id)).Nodup
  activities : (snapshot.activities.map (·.id)).Nodup
  tracks : (snapshot.tracks.map (·.id)).Nodup
  executions : (snapshot.executions.map (·.id)).Nodup

section
variable {provider : InvestmentProvider} {snapshot : InvestmentSnapshot}

/-- A collected product is named by its provider. -/
theorem Collected.isProductId (h : Collected provider snapshot) {product : InvestmentProduct}
    (hproduct : product ∈ snapshot.products) : IsProductId provider product.id :=
  ⟨_, (h.product product hproduct).2⟩

/-- A product that is referred to has such a name. -/
theorem isIdText_of_named (h : Collected provider snapshot) {productId currency : String}
    (hnamed : ∃ product ∈ snapshot.products, product.id = productId ∧ product.currency = currency) :
    IsIdText productId := by
  obtain ⟨product, hproduct, rfl, -⟩ := hnamed
  exact (h.isProductId hproduct).isIdText

/-- A record that names a product of the snapshot has its currency. -/
theorem Distinct.currency (h : Distinct snapshot) {productId currency : String}
    (hnamed : ∃ product ∈ snapshot.products, product.id = productId ∧ product.currency = currency) :
    validateCurrency snapshot productId currency = .ok ⟨⟩ := by
  obtain ⟨product, hproduct, rfl, rfl⟩ := hnamed
  refine require_ok.mpr ?_
  unfold InvestmentSnapshot.product?
  cases hfind : snapshot.products.find? (·.id = product.id) with
  | none =>
      have hnone := List.find?_eq_none.mp hfind product hproduct
      exact absurd (decide_eq_true rfl) hnone
  | some found =>
      have hid : decide (found.id = product.id) = true := by simpa using List.find?_some hfind
      rw [List.inj_on_of_nodup_map h.products (List.mem_of_find?_eq_some hfind) hproduct
        (of_decide_eq_true hid)]
      rfl

/-- **What a collector makes passes the relations** of the store. -/
theorem Collected.related (h : Collected provider snapshot) (hdistinct : Distinct snapshot) :
    validateRelations provider snapshot = .ok ⟨⟩ := by
  have hproducts : snapshot.products.forM (validateProduct provider snapshot) = .ok ⟨⟩ := by
    refine forM_ok.mpr fun product hproduct => ?_
    obtain ⟨hprovider, hid⟩ := h.product product hproduct
    refine except_bind_ok.mpr ⟨product.id, ?_, ?_⟩
    · exact hid
    · refine except_bind_ok.mpr ⟨⟨⟩, require_ok.mpr ⟨hprovider, rfl⟩, ?_⟩
      refine except_bind_ok.mpr ⟨⟨⟩, require_ok.mpr (h.coverage product hproduct), ?_⟩
      exact require_ok.mpr fun current hcurrent _ => h.current product hproduct current hcurrent
  have hvaluations : snapshot.valuations.forM (validateValuation provider snapshot) = .ok ⟨⟩ := by
    refine forM_ok.mpr fun value hvalue => ?_
    obtain ⟨hprovenance, -, hid, -⟩ := h.value value hvalue
    unfold validateValuation
    rw [hprovenance]
    exact except_bind_ok.mpr ⟨value.id, hid, require_ok.mpr rfl⟩
  have hactivities : snapshot.activities.forM validateActivity = .ok ⟨⟩ := by
    refine forM_ok.mpr fun activity hactivity => ?_
    exact except_bind_ok.mpr ⟨activity.id, (h.activity activity hactivity).1, require_ok.mpr rfl⟩
  have htracks : snapshot.tracks.forM validateTrack = .ok ⟨⟩ := by
    refine forM_ok.mpr fun track htrack => require_ok.mpr ?_
    obtain ⟨⟨sourceId, hid⟩, -⟩ := h.track track htrack
    obtain ⟨segment, -, hid⟩ := except_bind_ok.mp hid
    rw [checked_ok hid, @String.toList_append (track.productId ++ ":track:")]
    exact List.prefix_append _ _
  have hexecutions : snapshot.executions.forM (validateExecution provider snapshot) = .ok ⟨⟩ := by
    refine forM_ok.mpr fun execution hexecution => ?_
    obtain ⟨hprovider, hid, product, hproduct, hown⟩ := h.execution execution hexecution
    refine except_bind_ok.mpr ⟨⟨⟩, require_ok.mpr ⟨hprovider, ?_⟩, except_bind_ok.mpr
      ⟨execution.id, hid, require_ok.mpr rfl⟩⟩
    exact List.find?_isSome.mpr ⟨product, hproduct, decide_eq_true hown⟩
  refine except_bind_ok.mpr ⟨⟨⟩, require_ok.mpr ⟨hdistinct.products, hdistinct.valuations,
    hdistinct.activities, hdistinct.tracks, hdistinct.executions⟩, ?_⟩
  refine except_bind_ok.mpr ⟨⟨⟩, hproducts, except_bind_ok.mpr ⟨⟨⟩, forM_ok.mpr fun row hrow =>
    hdistinct.currency (h.value row hrow).2.2.2, ?_⟩⟩
  refine except_bind_ok.mpr ⟨⟨⟩, forM_ok.mpr fun row hrow =>
    hdistinct.currency (h.activity row hrow).2, ?_⟩
  refine except_bind_ok.mpr ⟨⟨⟩, forM_ok.mpr fun row hrow =>
    hdistinct.currency (h.track row hrow).2, ?_⟩
  exact except_bind_ok.mpr ⟨⟨⟩, hvaluations, except_bind_ok.mpr ⟨⟨⟩, hactivities,
    except_bind_ok.mpr ⟨⟨⟩, htracks, hexecutions⟩⟩⟩

/-! ## The schema changes no id -/

/-- White space at the ends of a source's name makes no other id. -/
theorem part_trimmed (value : String) : part (jsTrim value) = part value := by
  unfold part
  rw [jsTrim_jsTrim]

/-- Trimming leaves the names of products alone, -/
theorem Collected.product_trimmed (h : Collected provider snapshot) {product : InvestmentProduct}
    (hproduct : product ∈ snapshot.products) : product.trimmed.id = product.id :=
  (h.isProductId hproduct).isIdText.trimmed

/-- valuations as they are, -/
theorem Collected.value_trimmed (h : Collected provider snapshot) {value : InvestmentValuation}
    (hvalue : value ∈ snapshot.valuations) : value.trimmed = value := by
  obtain ⟨-, hid, -, hnamed⟩ := h.value value hvalue
  unfold InvestmentValuation.trimmed
  rw [hid, (isIdText_of_named h hnamed).trimmed]

/-- the names of activities, -/
theorem Collected.activity_trimmed (h : Collected provider snapshot) {activity : InvestmentActivity}
    (hactivity : activity ∈ snapshot.activities) : activity.trimmed.id = activity.id ∧
      activity.trimmed.productId = activity.productId := by
  obtain ⟨hid, hnamed⟩ := h.activity activity hactivity
  have hproduct := isIdText_of_named h hnamed
  obtain ⟨segment, hsegment, hid⟩ := except_bind_ok.mp hid
  have hmark : IsIdText ":activity:" := forall_char_of_all (by decide)
  have htext : IsIdText activity.id := by
    rw [checked_ok hid]
    exact (hproduct.append hmark).append (isIdText_part hsegment)
  exact ⟨htext.trimmed, hproduct.trimmed⟩

/-- those of tracks -/
theorem Collected.track_trimmed (h : Collected provider snapshot) {track : InvestmentTrack}
    (htrack : track ∈ snapshot.tracks) : track.trimmed.id = track.id ∧
      track.trimmed.productId = track.productId := by
  obtain ⟨⟨sourceId, hid⟩, hnamed⟩ := h.track track htrack
  have hproduct := isIdText_of_named h hnamed
  exact ⟨((trackId_spec hid).2 hproduct).trimmed, hproduct.trimmed⟩

/-- An execution that names a product has its own id. -/
theorem executionId_trimmed {execution : InvestmentExecution}
    (hproduct : IsIdText execution.productId)
    (hid : investmentExecutionId execution.productId execution.sourceId = .ok execution.id) :
    execution.trimmed.id = execution.id ∧ execution.trimmed.productId = execution.productId := by
  obtain ⟨segment, hsegment, hid⟩ := except_bind_ok.mp hid
  have hmark : IsIdText ":execution:" := forall_char_of_all (by decide)
  have htext : IsIdText execution.id := by
    rw [checked_ok hid]
    exact (hproduct.append hmark).append (isIdText_part hsegment)
  exact ⟨htext.trimmed, hproduct.trimmed⟩

/-- and those of executions. -/
theorem Collected.execution_trimmed (h : Collected provider snapshot)
    {execution : InvestmentExecution} (hexecution : execution ∈ snapshot.executions) :
    execution.trimmed.id = execution.id ∧ execution.trimmed.productId = execution.productId := by
  obtain ⟨-, hid, product, hproduct, hown⟩ := h.execution execution hexecution
  exact executionId_trimmed (hown ▸ (h.isProductId hproduct).isIdText) hid

/-- **The schema keeps** what a collector makes. -/
theorem Collected.trimmed (h : Collected provider snapshot) : Collected provider snapshot.trimmed := by
  have hvalues : snapshot.trimmed.valuations = snapshot.valuations :=
    (List.map_congr_left fun value hvalue => h.value_trimmed hvalue).trans (List.map_id _)
  have hnamed : ∀ {productId currency : String},
      (∃ product ∈ snapshot.products, product.id = productId ∧ product.currency = currency) →
        ∃ product ∈ snapshot.trimmed.products, product.id = productId ∧
          product.currency = currency := by
    rintro productId currency ⟨product, hproduct, hid, hcurrency⟩
    exact ⟨product.trimmed, List.mem_map_of_mem hproduct,
      (h.product_trimmed hproduct).trans hid, hcurrency⟩
  constructor
  · intro product' hproduct'
    obtain ⟨product, hproduct, rfl⟩ := List.mem_map.mp hproduct'
    obtain ⟨hprovider, hidentity⟩ := h.product product hproduct
    refine ⟨hprovider, ?_⟩
    rw [h.product_trimmed hproduct, ← hidentity]
    unfold investmentProductId InvestmentProduct.trimmed
    rw [part_trimmed]
  · intro product' hproduct'
    obtain ⟨product, hproduct, rfl⟩ := List.mem_map.mp hproduct'
    rw [hvalues, h.product_trimmed hproduct]
    exact h.coverage product hproduct
  · intro product' hproduct' current hcurrent
    obtain ⟨product, hproduct, rfl⟩ := List.mem_map.mp hproduct'
    obtain ⟨stored, hstored, rfl⟩ := Option.map_eq_some_iff.mp hcurrent
    obtain ⟨value, hvalue, hproductId, hid⟩ := h.current product hproduct stored hstored
    rw [hvalues, h.product_trimmed hproduct]
    refine ⟨value, hvalue, hproductId, ?_⟩
    rw [← hid, (h.value value hvalue).2.1]
  · intro value hvalue
    rw [hvalues] at hvalue
    obtain ⟨hprovenance, htrim, hid, hproduct⟩ := h.value value hvalue
    exact ⟨hprovenance, htrim, hid, hnamed hproduct⟩
  · intro activity' hactivity'
    obtain ⟨activity, hactivity, rfl⟩ := List.mem_map.mp hactivity'
    obtain ⟨hid, hproductId⟩ := h.activity_trimmed hactivity
    obtain ⟨hidentity, hproduct⟩ := h.activity activity hactivity
    rw [hid, hproductId, ← hidentity]
    refine ⟨?_, hnamed hproduct⟩
    unfold investmentActivityId InvestmentActivity.trimmed
    rw [part_trimmed]
  · intro track' htrack'
    obtain ⟨track, htrack, rfl⟩ := List.mem_map.mp htrack'
    obtain ⟨hid, hproductId⟩ := h.track_trimmed htrack
    obtain ⟨hidentity, hproduct⟩ := h.track track htrack
    rw [hid, hproductId]
    exact ⟨hidentity, hnamed hproduct⟩
  · intro execution' hexecution'
    obtain ⟨execution, hexecution, rfl⟩ := List.mem_map.mp hexecution'
    obtain ⟨hid, hproductId⟩ := h.execution_trimmed hexecution
    obtain ⟨hprovider, hidentity, product, hproduct, hown⟩ := h.execution execution hexecution
    rw [hid, hproductId]
    exact ⟨hprovider, hidentity, product.trimmed, List.mem_map_of_mem hproduct,
      (h.product_trimmed hproduct).trans hown⟩

/-- So nothing coincides when it is trimmed. -/
theorem Distinct.trimmed (hdistinct : Distinct snapshot) (h : Collected provider snapshot) :
    Distinct snapshot.trimmed := by
  have hids : ∀ {α : Type} {id : α → String} {trim : α → α} {rows : List α},
      (∀ row ∈ rows, id (trim row) = id row) → (rows.map id).Nodup →
        ((rows.map trim).map id).Nodup := by
    intro α id trim rows hsame hnodup
    rw [List.map_map]
    exact (List.map_congr_left hsame).symm ▸ hnodup
  constructor
  · exact hids (fun row hrow => h.product_trimmed hrow) hdistinct.products
  · exact hids (fun row hrow => congrArg _ (h.value_trimmed hrow)) hdistinct.valuations
  · exact hids (fun row hrow => (h.activity_trimmed hrow).1) hdistinct.activities
  · exact hids (fun row hrow => (h.track_trimmed hrow).1) hdistinct.tracks
  · exact hids (fun row hrow => (h.execution_trimmed hrow).1) hdistinct.executions

end


/-! ## The records of one product -/

/-- The identity of a product, which its metadata leave alone. -/
structure SameIdentity (item item' : InvestmentProduct) : Prop where
  provider : item'.provider = item.provider
  source : item'.providerProductId = item.providerProductId
  id : item'.id = item.id
  currency : item'.currency = item.currency

/-- The current value of a product, which its tracks and its reports leave alone. -/
structure SameValue (item item' : InvestmentProduct) : Prop extends SameIdentity item item' where
  current : item'.currentValuationId = item.currentValuationId
  coverage : item'.coverage.valuations = item.coverage.valuations

/-- A product has its own value. -/
theorem SameValue.refl (item : InvestmentProduct) : SameValue item item :=
  ⟨⟨rfl, rfl, rfl, rfl⟩, rfl, rfl⟩

/-- The same product as the same product. -/
theorem SameIdentity.trans {item item' item'' : InvestmentProduct} (h : SameIdentity item item')
    (h' : SameIdentity item' item'') : SameIdentity item item'' :=
  ⟨h'.provider.trans h.provider, h'.source.trans h.source, h'.id.trans h.id,
    h'.currency.trans h.currency⟩

/-- The same value as the same value. -/
theorem SameValue.trans {item item' item'' : InvestmentProduct} (h : SameValue item item')
    (h' : SameValue item' item'') : SameValue item item'' :=
  ⟨h.toSameIdentity.trans h'.toSameIdentity, h'.current.trans h.current,
    h'.coverage.trans h.coverage⟩

/-- A track of a product. -/
def TrackOf (item : InvestmentProduct) (track : InvestmentTrack) : Prop :=
  track.productId = item.id ∧ track.currency = item.currency ∧
    ∃ sourceId, investmentTrackId item.id sourceId = .ok track.id

/-- A valuation of a product. -/
structure ValueOf (item : InvestmentProduct) (value : InvestmentValuation) : Prop where
  product : value.productId = item.id
  currency : value.currency = item.currency
  provenance : value.provenance = none
  trimmed : jsTrim value.id = value.id
  id : investmentValuationId item.id value.asOf = .ok value.id

/-- A track belongs to what is the same product. -/
theorem TrackOf.of_same {item item' : InvestmentProduct} {track : InvestmentTrack}
    (h : TrackOf item track) (hsame : SameIdentity item item') : TrackOf item' track := by
  unfold TrackOf
  rw [hsame.id, hsame.currency]
  exact h

/-- So does a valuation. -/
theorem ValueOf.of_same {item item' : InvestmentProduct} {value : InvestmentValuation}
    (h : ValueOf item value) (hsame : SameIdentity item item') : ValueOf item' value := by
  refine ⟨?_, ?_, h.provenance, h.trimmed, ?_⟩
  · rw [hsame.id]
    exact h.product
  · rw [hsame.currency]
    exact h.currency
  · rw [hsame.id]
    exact h.id

/-- What a round over one product adds to a snapshot: the product, its value if
it has one, and its tracks. -/
structure AddsProduct (provider : InvestmentProvider) (before after : InvestmentSnapshot)
    (item : InvestmentProduct) (value : Option InvestmentValuation) (tracks : List InvestmentTrack) :
    Prop where
  snapshot : after = { before with
    complete := after.complete
    products := before.products ++ [item]
    valuations := before.valuations ++ value.toList
    tracks := before.tracks ++ tracks }
  provided : item.provider = provider
  id : investmentProductId item.providerProductId provider = .ok item.id
  current : item.currentValuationId = value.map (·.id)
  coverage : value = none → item.coverage.valuations = .unavailable
  value : ∀ v ∈ value, ValueOf item v
  tracks : ∀ track ∈ tracks, TrackOf item track

section
variable {provider : InvestmentProvider} {before after : InvestmentSnapshot}
  {item : InvestmentProduct} {value : Option InvestmentValuation} {tracks : List InvestmentTrack}

/-- **One round** adds records that a collector makes. -/
theorem Collected.addsProduct (h : Collected provider before)
    (hadds : AddsProduct provider before after item value tracks) : Collected provider after := by
  have hitem : item ∈ after.products := by
    rw [hadds.snapshot]
    exact List.mem_append_right _ (List.mem_singleton_self _)
  have hproducts : ∀ product ∈ before.products, product ∈ after.products := by
    rw [hadds.snapshot]
    exact fun product hproduct => List.mem_append_left _ hproduct
  have hvalues : ∀ v ∈ before.valuations, v ∈ after.valuations := by
    rw [hadds.snapshot]
    exact fun v hv => List.mem_append_left _ hv
  have hown : ∀ v ∈ value, v ∈ after.valuations := by
    rw [hadds.snapshot]
    exact fun v hv => List.mem_append_right _ (Option.mem_toList.mpr hv)
  have hnamed : ∀ {productId currency : String},
      (∃ product ∈ before.products, product.id = productId ∧ product.currency = currency) →
        ∃ product ∈ after.products, product.id = productId ∧ product.currency = currency :=
    fun ⟨product, hproduct, hsame⟩ => ⟨product, hproducts product hproduct, hsame⟩
  have hcases : ∀ product ∈ after.products, product ∈ before.products ∨ product = item := by
    rw [hadds.snapshot]
    intro product hproduct
    rcases List.mem_append.mp hproduct with hold | hnew
    · exact .inl hold
    · exact .inr (List.mem_singleton.mp hnew)
  constructor
  · intro product hproduct
    rcases hcases product hproduct with hold | rfl
    · exact h.product product hold
    · exact ⟨hadds.provided, hadds.id⟩
  · intro product hproduct
    rcases hcases product hproduct with hold | rfl
    · exact (h.coverage product hold).imp id fun ⟨v, hv, hsame⟩ => ⟨v, hvalues v hv, hsame⟩
    · cases hvalue : value with
      | none => exact .inl (hadds.coverage hvalue)
      | some v => exact .inr ⟨v, hown v hvalue, (hadds.value v hvalue).product⟩
  · intro product hproduct current hcurrent
    rcases hcases product hproduct with hold | rfl
    · obtain ⟨v, hv, hsame⟩ := h.current product hold current hcurrent
      exact ⟨v, hvalues v hv, hsame⟩
    · rw [hadds.current] at hcurrent
      obtain ⟨v, hv, hid⟩ := Option.map_eq_some_iff.mp hcurrent
      exact ⟨v, hown v hv, (hadds.value v hv).product, hid⟩
  · intro v hv
    have hmem : v ∈ before.valuations ∨ v ∈ value := by
      rw [hadds.snapshot] at hv
      exact (List.mem_append.mp hv).imp id Option.mem_toList.mp
    rcases hmem with hold | hnew
    · obtain ⟨hprovenance, htrim, hid, hproduct⟩ := h.value v hold
      exact ⟨hprovenance, htrim, hid, hnamed hproduct⟩
    · obtain ⟨hproduct, hcurrency, hprovenance, htrim, hid⟩ := hadds.value v hnew
      rw [hproduct]
      exact ⟨hprovenance, htrim, hid, item, hitem, rfl, hcurrency.symm⟩
  · intro activity hactivity
    rw [hadds.snapshot] at hactivity
    obtain ⟨hid, hproduct⟩ := h.activity activity hactivity
    exact ⟨hid, hnamed hproduct⟩
  · intro track htrack
    have hmem : track ∈ before.tracks ∨ track ∈ tracks := by
      rw [hadds.snapshot] at htrack
      exact List.mem_append.mp htrack
    rcases hmem with hold | hnew
    · obtain ⟨hid, hproduct⟩ := h.track track hold
      exact ⟨hid, hnamed hproduct⟩
    · obtain ⟨hproduct, hcurrency, hid⟩ := hadds.tracks track hnew
      rw [hproduct]
      exact ⟨hid, item, hitem, rfl, hcurrency.symm⟩
  · intro execution hexecution
    rw [hadds.snapshot] at hexecution
    obtain ⟨hprovider, hid, product, hproduct, hsame⟩ := h.execution execution hexecution
    exact ⟨hprovider, hid, product, hproducts product hproduct, hsame⟩

/-- A round over a new product gives new ids. -/
theorem Distinct.addsProduct (hdistinct : Distinct before) (h : Collected provider before)
    (hadds : AddsProduct provider before after item value tracks)
    (hnew : item.id ∉ before.products.map (·.id)) (htracks : (tracks.map (·.id)).Nodup) :
    Distinct after := by
  have hitem : IsProductId provider item.id := ⟨_, hadds.id⟩
  -- a record of the product begins with its id, and no older record does
  have hother : ∀ {productId id id' : String} {rest rest' : List Char},
      (∃ product ∈ before.products, product.id = productId) →
        id.toList = productId.toList ++ ':' :: rest → id'.toList = item.id.toList ++ ':' :: rest' →
          id ≠ id' := by
    rintro productId id id' rest rest' ⟨product, hproduct, rfl⟩ hbehind hbehind' hsame
    have hown := (h.isProductId hproduct).eq_of_behind hitem hbehind hbehind' hsame
    exact hnew (hown ▸ List.mem_map_of_mem hproduct)
  have hsnapshot := hadds.snapshot
  constructor
  · rw [hsnapshot, List.map_append, List.nodup_append]
    refine ⟨hdistinct.products, List.nodup_singleton _, fun a ha b hb hsame => hnew ?_⟩
    have hb : b = item.id := List.mem_singleton.mp hb
    rwa [← hb, ← hsame]
  · rw [hsnapshot, List.map_append, List.nodup_append]
    refine ⟨hdistinct.valuations, ?_, ?_⟩
    · cases value with
      | none => exact List.nodup_nil
      | some v => exact List.nodup_singleton _
    · intro a ha b hb
      obtain ⟨old, hold, rfl⟩ := List.mem_map.mp ha
      obtain ⟨v, hv, rfl⟩ := List.mem_map.mp hb
      obtain ⟨-, -, hid, product, hproduct, hown, -⟩ := h.value old hold
      obtain ⟨rest, hrest⟩ := valuationId_chars hid
      obtain ⟨rest', hrest'⟩ := valuationId_chars (hadds.value v (Option.mem_toList.mp hv)).id
      exact hother ⟨product, hproduct, hown⟩ hrest hrest'
  · rw [hsnapshot]
    exact hdistinct.activities
  · rw [hsnapshot, List.map_append, List.nodup_append]
    refine ⟨hdistinct.tracks, htracks, ?_⟩
    intro a ha b hb
    obtain ⟨old, hold, rfl⟩ := List.mem_map.mp ha
    obtain ⟨track, htrack, rfl⟩ := List.mem_map.mp hb
    obtain ⟨⟨sourceId, hid⟩, product, hproduct, hown, -⟩ := h.track old hold
    obtain ⟨-, -, sourceId', hid'⟩ := hadds.tracks track htrack
    obtain ⟨rest, hrest⟩ := (trackId_spec hid).1
    obtain ⟨rest', hrest'⟩ := (trackId_spec hid').1
    exact hother ⟨product, hproduct, hown⟩ hrest hrest'
  · rw [hsnapshot]
    exact hdistinct.executions

end


/-! ## Dates -/

/-- A trimmed text has no white space at its end. -/
theorem trimEnd_of_trimmed {text : String} (h : jsTrim text = text) :
    trimEnd text.toList = text.toList := by
  have hend : ∀ chars : List Char, trimEnd (trimEnd chars) = trimEnd chars := by
    intro chars
    unfold trimEnd
    rw [List.reverse_reverse, List.dropWhile_idempotent]
  have hchars : text.toList = trimEnd (text.toList.dropWhile isJsSpace) := by
    conv_lhs => rw [← h, jsTrim_eq, String.toList_ofList]
  rw [hchars]
  exact hend _

/-- The id of a value has no white space at its ends. -/
theorem valuationId_trimmed {productId id : String} {asOf : Option IsoDate}
    (hproduct : IsIdText productId) (hdate : ∀ date ∈ asOf, jsTrim date = date)
    (h : investmentValuationId productId asOf = .ok id) : jsTrim id = id := by
  have hmark : IsIdText ":valuation" := forall_char_of_all (by decide)
  have htext := hproduct.append hmark
  have hsplit : id.toList = (productId ++ ":valuation").toList ++ ':' :: (asOf.getD "undated").toList := by
    rw [checked_ok h]
    simp only [String.toList_append, List.append_assoc]
    rfl
  have htrim : trimEnd (asOf.getD "undated").toList = (asOf.getD "undated").toList := by
    cases asOf with
    | none => exact trimEnd_of_trimmed (by decide +kernel)
    | some date => exact trimEnd_of_trimmed (hdate date rfl)
  rw [← String.toList_inj, trimmed_behind htext hsplit, htrim]
  exact hsplit.symm

section
variable {host : Host} {value : JsValue} {asOf : Option IsoDate}

/-- A date of Clal is trimmed, -/
theorem parseClalDate_trimmed (h : parseClalDate host value = .ok asOf) :
    ∀ date ∈ asOf, jsTrim date = date := by
  unfold parseClalDate at h
  by_cases hmissing : missing value = true
  · rw [if_pos hmissing] at h
    rw [← Except.ok.inj h]
    exact nofun
  rw [if_neg hmissing] at h
  obtain ⟨input, hinput, h⟩ := except_bind_ok.mp h
  obtain ⟨htrim, hfilled⟩ := sourceText_ok hinput
  obtain ⟨candidate, hcandidate, hdate, -⟩ := parsedDate htrim hfilled
  dsimp only at h
  rw [hcandidate] at h
  by_cases hiso : host.isIsoDate candidate = true
  · rw [if_pos hiso] at h
    rw [← Except.ok.inj h]
    intro date hmem
    rwa [← Option.some.inj hmem]
  · rw [if_neg hiso] at h
    cases h

/-- The day of a timestamp is made of digits and dashes. -/
theorem day_of_timestamp {input : List Char} (h : isProviderTimestamp input = true) :
    ∀ c ∈ input.take 10, isJsSpace c = false := by
  unfold isProviderTimestamp at h
  split at h
  · rename_i y y' y'' y''' m m' d d' a b c c' e e' rest
    simp only [Bool.and_eq_true] at h
    have hdigits := List.all_eq_true.mp h.1.1.1.1
    have heach : ∀ x ∈ [y, y', y'', y''', m, m', d, d'], isJsSpace x = false :=
      fun x hx => isJsSpace_of_isDigit (hdigits x hx)
    simp only [List.forall_mem_cons] at heach
    obtain ⟨hy, hy', hy'', hy''', hm, hm', hd, hd', -⟩ := heach
    change ∀ x ∈ [y, y', y'', y''', '-', m, m', '-', d, d'], isJsSpace x = false
    simp only [List.forall_mem_cons]
    exact ⟨hy, hy', hy'', hy''', rfl, hm, hm', rfl, hd, hd', fun _ hx => absurd hx List.not_mem_nil⟩
  · cases h

/-- and so is one of Best Invest. -/
theorem parseBestInvestDate_trimmed (h : parseBestInvestDate host value = .ok asOf) :
    ∀ date ∈ asOf, jsTrim date = date := by
  unfold parseBestInvestDate at h
  by_cases hmissing : missing value = true
  · rw [if_pos hmissing] at h
    rw [← Except.ok.inj h]
    exact nofun
  rw [if_neg hmissing] at h
  obtain ⟨input, hinput, h⟩ := except_bind_ok.mp h
  obtain ⟨htrim, -⟩ := sourceText_ok hinput
  by_cases hblank : "0001-01-01".toList.isPrefixOf input.toList ∧
      (input.toList.drop 10 = [] ∨ (input.toList.drop 10).head? = some 'T')
  · rw [if_pos hblank] at h
    rw [← Except.ok.inj h]
    exact nofun
  rw [if_neg hblank] at h
  dsimp only at h
  split_ifs at h with haccepted
  rw [← Except.ok.inj h]
  intro date hmem
  rw [← Option.some.inj hmem]
  obtain ⟨-, hform⟩ := haccepted
  cases hday : dayFirst input.toList with
  | some day =>
      obtain ⟨-, -, hchars⟩ := dayFirst_dayFirst hday
      refine jsTrim_of_no_space fun c hc => ?_
      rw [Option.getD_some, String.toList_ofList] at hc
      rcases hchars c hc with hdigit | rfl
      · exact isJsSpace_of_isDigit hdigit
      · rfl
  | none =>
      rw [hday, Option.getD_none] at hform
      rw [Option.getD_none]
      rcases hform with hsome | hsame | htime
      · cases hsome
      · rw [← hsame]
        exact htrim
      · refine jsTrim_of_no_space fun c hc => ?_
        rw [String.toList_ofList] at hc
        exact day_of_timestamp htime c hc

end

/-! ## Well-made snapshots -/

/-- A snapshot that a collector made and the schema has parsed. -/
structure WellMade (host : Host) (provider : InvestmentProvider) (snapshot : InvestmentSnapshot) :
    Prop where
  collected : Collected provider snapshot
  distinct : Distinct snapshot
  parsed : parseSnapshot host snapshot = .ok snapshot

section
variable {host : Host} {provider : InvestmentProvider} {snapshot result : InvestmentSnapshot}

/-- The flags of a snapshot do not matter here, -/
theorem Collected.flagged (h : Collected provider snapshot) (complete inventoryComplete : Bool) :
    Collected provider { snapshot with complete, inventoryComplete } :=
  ⟨h.product, h.coverage, h.current, h.value, h.activity, h.track, h.execution⟩

/-- nor here. -/
theorem Distinct.flagged (h : Distinct snapshot) (complete inventoryComplete : Bool) :
    Distinct { snapshot with complete, inventoryComplete } :=
  ⟨h.products, h.valuations, h.activities, h.tracks, h.executions⟩

/-- Nothing has been collected yet. -/
theorem collected_empty (observedAt : String) (complete inventoryComplete : Bool) :
    Collected provider ⟨observedAt, complete, inventoryComplete, [], [], [], [], []⟩ := by
  constructor
  all_goals exact fun _ hrow => absurd hrow List.not_mem_nil

/-- In an empty snapshot nothing coincides. -/
theorem distinct_empty (observedAt : String) (complete inventoryComplete : Bool) :
    Distinct ⟨observedAt, complete, inventoryComplete, [], [], [], [], []⟩ :=
  ⟨.nil, .nil, .nil, .nil, .nil⟩

/-- The schema's last word on what a collector made. -/
theorem Collected.wellMade (h : Collected provider snapshot) (hdistinct : Distinct snapshot)
    (hparse : parseSnapshot host snapshot = .ok result) : WellMade host provider result := by
  obtain ⟨rfl, haccepted⟩ := parseSnapshot_ok hparse
  refine ⟨h.trimmed, hdistinct.trimmed h, ?_⟩
  unfold parseSnapshot
  rw [trimmed_trimmed_snapshot, if_pos haccepted]

end

end SimplefinBridge
