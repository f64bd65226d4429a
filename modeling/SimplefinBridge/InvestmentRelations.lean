import SimplefinBridge.AccessUrl
import SimplefinBridge.InvestmentFrames

/-!
# Referential integrity of the investment store

Relations are checked on every incoming snapshot alone, and the snapshot is
then merged with the records of earlier ones.  Names survive the merge: no
record is deleted, and an id names its product.  Currencies survive it exactly
as long as no snapshot gives a product another currency than the rows it
leaves in the store have (`integrity_iff`).
-/

namespace SimplefinBridge

open Statements Transactional

/-! ## Integrity -/

/-- The currency a row must share with its product. -/
def InvestmentRecord.heldCurrency : InvestmentRecord → Option String
  | valuation row => some row.currency
  | activity row => some row.currency
  | track row => some row.currency
  | _ => none

/-- The stored product with the given id. -/
def InvestmentDb.product? (db : InvestmentDb) (id : String) : Option InvestmentProduct :=
  match db.records.find (.products, id) with
  | some (.product product) => some product
  | _ => none

/-- The stored valuation with the given id. -/
def InvestmentDb.valuation? (db : InvestmentDb) (id : String) : Option InvestmentValuation :=
  match db.records.find (.valuations, id) with
  | some (.valuation row) => some row
  | _ => none

/-- Every valuation, activity and track has a stored product of the source with
its currency, every execution a stored product, and every current value is a
stored valuation of its product. -/
structure Integrity (provider : InvestmentProvider) (db : InvestmentDb) : Prop where
  held : ∀ row ∈ db.records.rows, ∀ currency ∈ row.heldCurrency, ∃ product,
    db.product? row.productId = some product ∧ product.provider = provider ∧
      product.currency = currency
  execution : ∀ row, .execution row ∈ db.records.rows → (db.product? row.productId).isSome
  pointer : ∀ product, .product product ∈ db.records.rows →
    ∀ current ∈ product.currentValuationId, ∃ row,
      db.valuation? current = some row ∧ row.productId = product.id

/-! ## Ids name their product -/

section
variable {provider : InvestmentProvider}

/-- The ids `investmentProductId` makes. -/
def IsProductId (provider : InvestmentProvider) (id : String) : Prop :=
  ∃ providerProductId, investmentProductId providerProductId provider = .ok id

/-- A checked id is the text itself. -/
theorem checked_ok {value id : String} (h : checked value = .ok id) : id = value := by
  unfold checked at h
  split_ifs at h
  exact (Except.ok.inj h).symm

/-- A product id is its provider and a segment without a colon. -/
theorem IsProductId.chars {id : String} (h : IsProductId provider id) :
    ∃ segment : List Char, ':' ∉ segment ∧
      id.toList = provider.text.toList ++ ':' :: segment := by
  obtain ⟨providerProductId, h⟩ := h
  obtain ⟨segment, hsegment, h⟩ := except_bind_ok.mp h
  unfold part at hsegment
  split_ifs at hsegment
  obtain rfl := Except.ok.inj hsegment
  refine ⟨(encodeURIComponent (jsTrim providerProductId)).toList, not_mem_encoded (by decide), ?_⟩
  rw [checked_ok h, String.toList_append, String.toList_append, List.append_assoc]
  rfl

/-- Whatever follows its colon, a product id can be read off a text. -/
theorem IsProductId.unique {id id' : String} {rest rest' : List Char} (h : IsProductId provider id)
    (h' : IsProductId provider id') (hsame : id.toList ++ ':' :: rest = id'.toList ++ ':' :: rest') :
    id = id' := by
  obtain ⟨segment, hsegment, hchars⟩ := h.chars
  obtain ⟨segment', hsegment', hchars'⟩ := h'.chars
  have hsegments : segment ++ ':' :: rest = segment' ++ ':' :: rest' := by
    rw [hchars, hchars', List.append_assoc, List.append_assoc] at hsame
    exact List.tail_eq_of_cons_eq (List.append_cancel_left hsame)
  have htaken := congrArg (List.takeWhile (· ≠ ':')) hsegments
  rw [takeWhile_append_sep hsegment, takeWhile_append_sep hsegment'] at htaken
  rw [← String.toList_inj, hchars, hchars', htaken]

/-- A dated valuation id begins with its product's id. -/
theorem valuationId_chars {productId id : String} {asOf : Option IsoDate}
    (h : investmentValuationId productId asOf = .ok id) :
    ∃ rest, id.toList = productId.toList ++ ':' :: rest := by
  refine ⟨"valuation:".toList ++ (asOf.getD "undated").toList, ?_⟩
  rw [checked_ok h, String.toList_append, String.toList_append, List.append_assoc]
  rfl

/-- No archive id begins with a product id. -/
theorem IsProductId.ne_archive {id : String} {rest : List Char} (h : IsProductId provider id)
    (entry : String) : ("sure:entry:" ++ entry).toList ≠ id.toList ++ ':' :: rest := by
  obtain ⟨segment, -, hchars⟩ := h.chars
  intro hsame
  rw [hchars] at hsame
  have hhead := congrArg List.head? hsame
  cases provider with
  | _ => simp [InvestmentProvider.text, String.toList_append] at hhead

end

/-! ## The products after a snapshot -/

section
variable {host : Host} {provider : InvestmentProvider} {db : InvestmentDb}
  {snapshot : InvestmentSnapshot} {state : InvestmentSourceState}

/-- A product keeps its own identity and currency when it is merged; its
current value is its own or, where it brings none, the stored one. -/
theorem rowOver_product (found : Option InvestmentRecord) (new : InvestmentProduct) :
    ∃ merged, rowOver host provider found (.product new) = .product merged ∧
      merged.id = new.id ∧ merged.provider = new.provider ∧ merged.currency = new.currency ∧
      (merged.currentValuationId = new.currentValuationId ∨
        ∃ old, found = some (.product old) ∧
          merged.currentValuationId = old.currentValuationId) := by
  cases found with
  | none => exact ⟨new, rfl, rfl, rfl, rfl, .inl rfl⟩
  | some old =>
      cases old with
      | product old =>
          refine ⟨accumulateReports host old (keepCurrentValue provider old new), rfl, ?_⟩
          unfold accumulateReports keepCurrentValue
          cases hcurrent : new.currentValuationId with
          | none => split_ifs <;> simp [hcurrent]
          | some current => split_ifs <;> simp [hcurrent]
      | _ => exact ⟨new, rfl, rfl, rfl, rfl, .inl rfl⟩

/-- A product is one of the records. -/
theorem mem_records_product {product : InvestmentProduct} (h : product ∈ snapshot.products) :
    .product product ∈ snapshot.records := by
  simp [InvestmentSnapshot.records, h]

/-- So is a valuation. -/
theorem mem_records_valuation {row : InvestmentValuation} (h : row ∈ snapshot.valuations) :
    .valuation row ∈ snapshot.records := by
  simp [InvestmentSnapshot.records, h]

/-- A product of the snapshot is stored, with its identity and currency. -/
theorem product?_afterSnapshot (hkeys : (snapshot.records.map InvestmentRecord.key).Nodup)
    {new : InvestmentProduct} (hnew : new ∈ snapshot.products) :
    ∃ merged, (db.afterSnapshot host provider snapshot state).product? new.id = some merged ∧
      merged.provider = new.provider ∧ merged.currency = new.currency := by
  obtain ⟨merged, hmerged, -, hprovider, hcurrency, -⟩ := @rowOver_product host
    provider (db.records.find (.products, new.id)) new
  have hfound := @find_afterSnapshot_of_mem host provider db snapshot state hkeys _
    (mem_records_product hnew)
  refine ⟨merged, ?_, hprovider, hcurrency⟩
  unfold InvestmentDb.product?
  rw [show (RecordKind.products, new.id) = (InvestmentRecord.product new).key from rfl, hfound]
  rw [show (InvestmentRecord.product new).key = (RecordKind.products, new.id) from rfl, hmerged]

/-- A product the snapshot does not contain is stored as it was. -/
theorem product?_afterSnapshot_other (hkeys : (snapshot.records.map InvestmentRecord.key).Nodup)
    {id : String} (hid : ∀ product ∈ snapshot.products, product.id ≠ id) :
    (db.afterSnapshot host provider snapshot state).product? id = db.product? id := by
  unfold InvestmentDb.product?
  rw [find_afterSnapshot_of_not_mem hkeys]
  intro hmem
  obtain ⟨row, hrow, hkey⟩ := List.mem_map.mp hmem
  simp only [InvestmentSnapshot.records, List.mem_append, List.mem_map] at hrow
  rcases hrow with (((⟨product, hproduct, rfl⟩ | ⟨r, -, rfl⟩) | ⟨r, -, rfl⟩) | ⟨r, -, rfl⟩) |
    ⟨r, -, rfl⟩
  · exact hid product hproduct (Prod.mk.inj hkey).2
  all_goals cases (Prod.mk.inj hkey).1

end

/-! ## One snapshot -/

section
variable {host : Host} {provider : InvestmentProvider} {db : InvestmentDb}
  {snapshot : InvestmentSnapshot} {state : InvestmentSourceState}

/-- The rows a snapshot leaves in the store have the currency it gives their
product. -/
def FitsStored (db : InvestmentDb) (snapshot : InvestmentSnapshot) : Prop :=
  ∀ row ∈ db.records.rows, row.key ∉ snapshot.records.map InvestmentRecord.key →
    ∀ product ∈ snapshot.products, product.id = row.productId →
      ∀ currency ∈ row.heldCurrency, currency = product.currency

/-- Product ids are well formed, and a current value begins with the id of its
product. -/
structure WellNamed (provider : InvestmentProvider) (db : InvestmentDb) : Prop where
  product : ∀ product, .product product ∈ db.records.rows → IsProductId provider product.id
  pointer : ∀ product, .product product ∈ db.records.rows →
    ∀ current ∈ product.currentValuationId, ∃ rest,
      current.toList = product.id.toList ++ ':' :: rest

/-- The product that an id finds in a snapshot, -/
theorem mem_product? {id : String} {product : InvestmentProduct}
    (h : snapshot.product? id = some product) :
    product ∈ snapshot.products ∧ product.id = id := by
  unfold InvestmentSnapshot.product? at h
  exact ⟨List.mem_of_find?_eq_some h, by simpa using List.find?_some h⟩

/-- and in the database. -/
theorem mem_of_product? {id : String} {product : InvestmentProduct}
    (h : db.product? id = some product) :
    .product product ∈ db.records.rows ∧ product.id = id := by
  unfold InvestmentDb.product? at h
  cases hfind : db.records.find (.products, id) with
  | none =>
      rw [hfind] at h
      cases h
  | some record =>
      rw [hfind] at h
      cases record with
      | product stored =>
          obtain rfl := Option.some.inj h
          have hkey := KeyedTable.key_of_find hfind
          change (RecordKind.products, stored.id) = (RecordKind.products, id) at hkey
          exact ⟨KeyedTable.mem_of_find hfind, (Prod.mk.inj hkey).2⟩
      | _ => cases h

/-- A row of a related snapshot names a product of the snapshot that has its
currency. -/
theorem RelationsHold.held (hrelations : RelationsHold provider snapshot) {row : InvestmentRecord}
    (hrow : row ∈ snapshot.records) {currency : String} (hcurrency : currency ∈ row.heldCurrency) :
    ∃ product ∈ snapshot.products, product.id = row.productId ∧ product.currency = currency := by
  have hnamed : ∀ productId, (snapshot.product? productId).map (·.currency) = some currency →
      ∃ product ∈ snapshot.products, product.id = productId ∧ product.currency = currency := by
    intro productId h
    obtain ⟨product, hproduct, hsame⟩ := Option.map_eq_some_iff.mp h
    exact ⟨product, (mem_product? hproduct).1, (mem_product? hproduct).2, hsame⟩
  simp only [InvestmentSnapshot.records, List.mem_append, List.mem_map] at hrow
  rcases hrow with (((⟨r, hr, rfl⟩ | ⟨r, hr, rfl⟩) | ⟨r, hr, rfl⟩) | ⟨r, hr, rfl⟩) | ⟨r, hr, rfl⟩
  · cases hcurrency
  · obtain rfl := Option.some.inj hcurrency
    exact hnamed r.productId (hrelations.valuationCurrency r hr)
  · obtain rfl := Option.some.inj hcurrency
    exact hnamed r.productId (hrelations.activityCurrency r hr)
  · obtain rfl := Option.some.inj hcurrency
    exact hnamed r.productId (hrelations.trackCurrency r hr)
  · cases hcurrency

/-- A merged row holds what the new one holds, in the same currency. -/
theorem heldCurrency_rowOver (found : Option InvestmentRecord) (row : InvestmentRecord) :
    (rowOver host provider found row).heldCurrency = row.heldCurrency ∧
      (rowOver host provider found row).productId = row.productId := by
  by_cases hkind : row.kind = .products
  · cases row with
    | product new =>
        obtain ⟨merged, hmerged, hid, -⟩ := @rowOver_product host provider found new
        rw [hmerged]
        exact ⟨rfl, hid⟩
    | _ => cases hkind
  · rw [rowOver_of_kind found hkind]
    exact ⟨rfl, rfl⟩

/-- **The rows of every product keep its currency** across a snapshot exactly
when the rows it leaves alone have the currency it gives their product. -/
theorem held_afterSnapshot_iff (hrelations : RelationsHold provider snapshot)
    (hbefore : Integrity provider db) :
    (∀ row ∈ (db.afterSnapshot host provider snapshot state).records.rows,
      ∀ currency ∈ row.heldCurrency, ∃ product,
        (db.afterSnapshot host provider snapshot state).product? row.productId = some product ∧
          product.provider = provider ∧ product.currency = currency) ↔
      FitsStored db snapshot := by
  have hkeys := hrelations.keys
  constructor
  · intro hafter row hrow hkey product hproduct hid currency hcurrency
    have hstays : row ∈ (db.afterSnapshot host provider snapshot state).records.rows :=
      (mem_afterSnapshot hkeys).mpr (.inr ⟨hrow, hkey⟩)
    obtain ⟨stored, hstored, -, hsame⟩ := hafter row hstays currency hcurrency
    obtain ⟨merged, hmerged, -, hmergedCurrency⟩ :=
      @product?_afterSnapshot host provider db snapshot state hkeys product hproduct
    rw [hid, hstored] at hmerged
    obtain rfl := Option.some.inj hmerged
    rw [← hsame, hmergedCurrency]
  · intro hfits row hrow currency hcurrency
    have hof : ∀ new ∈ snapshot.products, new.id = row.productId → new.currency = currency →
        ∃ product,
          (db.afterSnapshot host provider snapshot state).product? row.productId = some product ∧
            product.provider = provider ∧ product.currency = currency := by
      intro new hnew hid hsame
      obtain ⟨merged, hmerged, hprovider, hmergedCurrency⟩ :=
        @product?_afterSnapshot host provider db snapshot state hkeys new hnew
      rw [hid] at hmerged
      exact ⟨merged, hmerged, hprovider.trans (hrelations.product new hnew).1,
        hmergedCurrency.trans hsame⟩
    rcases (mem_afterSnapshot hkeys).mp hrow with ⟨new, hnew, rfl⟩ | ⟨hold, hkey⟩
    · obtain ⟨hheld, hproductId⟩ :=
        @heldCurrency_rowOver host provider (db.records.find new.key) new
      rw [hheld] at hcurrency
      rw [hproductId] at hof ⊢
      obtain ⟨product, hproduct, hid, hsame⟩ := hrelations.held hnew hcurrency
      exact hof product hproduct hid hsame
    · by_cases hnamed : ∃ product ∈ snapshot.products, product.id = row.productId
      · obtain ⟨product, hproduct, hid⟩ := hnamed
        exact hof product hproduct hid (hfits row hold hkey product hproduct hid currency hcurrency).symm
      · rw [product?_afterSnapshot_other hkeys fun product hproduct hid =>
          hnamed ⟨product, hproduct, hid⟩]
        exact hbefore.held row hold currency hcurrency

/-- A product that was stored or comes with the snapshot is stored after it. -/
theorem product?_isSome_afterSnapshot (hkeys : (snapshot.records.map InvestmentRecord.key).Nodup)
    {id : String} (h : (db.product? id).isSome ∨ (snapshot.product? id).isSome) :
    ((db.afterSnapshot host provider snapshot state).product? id).isSome := by
  by_cases hnamed : ∃ product ∈ snapshot.products, product.id = id
  · obtain ⟨product, hproduct, rfl⟩ := hnamed
    obtain ⟨merged, hmerged, -⟩ :=
      @product?_afterSnapshot host provider db snapshot state hkeys product hproduct
    rw [hmerged]
    rfl
  · rw [product?_afterSnapshot_other hkeys fun product hproduct hid =>
      hnamed ⟨product, hproduct, hid⟩]
    rcases h with hstored | hnew
    · exact hstored
    · obtain ⟨product, hproduct⟩ := Option.isSome_iff_exists.mp hnew
      exact absurd ⟨product, mem_product? hproduct⟩ hnamed

/-- Executions of stored products keep their product. -/
theorem execution_afterSnapshot (hrelations : RelationsHold provider snapshot)
    (hbefore : Integrity provider db) {row : InvestmentExecution}
    (hrow : .execution row ∈ (db.afterSnapshot host provider snapshot state).records.rows) :
    ((db.afterSnapshot host provider snapshot state).product? row.productId).isSome := by
  apply product?_isSome_afterSnapshot hrelations.keys
  rcases (mem_afterSnapshot hrelations.keys).mp hrow with ⟨new, hnew, hsame⟩ | ⟨hold, -⟩
  · have hkind : new.kind ≠ .products := by
      intro hproducts
      have hkey := congrArg (Prod.fst ∘ InvestmentRecord.key) hsame
      simp only [Function.comp_apply, rowOver_key] at hkey
      change RecordKind.executions = new.kind at hkey
      rw [hproducts] at hkey
      cases hkey
    rw [rowOver_of_kind _ hkind] at hsame
    subst hsame
    have hmem : row ∈ snapshot.executions := by
      simpa [InvestmentSnapshot.records] using hnew
    exact .inr (hrelations.execution row hmem)
  · exact .inl (hbefore.execution row hold)

end

/-! ## Current values -/

section
variable {host : Host} {provider : InvestmentProvider} {db : InvestmentDb}
  {snapshot : InvestmentSnapshot} {state : InvestmentSourceState}

/-- An id is not empty. -/
theorem ne_empty_of_isId {text : String} (h : isId text = true) : text ≠ "" := by
  rintro rfl
  exact absurd h (by decide)

/-- Nor is the id of a current value. -/
theorem current_ne_empty (haccepted : snapshot.accepted host = true) {product : InvestmentProduct}
    (hproduct : product ∈ snapshot.products) {current : String}
    (hcurrent : current ∈ product.currentValuationId) : current ≠ "" := by
  simp only [InvestmentSnapshot.accepted, Bool.and_eq_true, List.all_eq_true] at haccepted
  have hvalid := haccepted.1.1.1.1.2 product hproduct
  simp only [InvestmentProduct.accepted, Bool.and_eq_true] at hvalid
  have hid := hvalid.1.1.1.1.2
  rw [Option.mem_def.mp hcurrent] at hid
  exact ne_empty_of_isId hid

/-- Products of a related snapshot have different ids. -/
theorem RelationsHold.product_unique (hrelations : RelationsHold provider snapshot)
    {p q : InvestmentProduct} (hp : p ∈ snapshot.products) (hq : q ∈ snapshot.products)
    (hid : p.id = q.id) : p = q := by
  have hsame := @KeyedTable.eq_of_key_eq _ _ _ InvestmentRecord.key
    ⟨snapshot.records, hrelations.keys⟩ _ _ (mem_records_product hp) (mem_records_product hq)
    (congrArg (Prod.mk RecordKind.products) hid)
  exact InvestmentRecord.product.inj hsame

/-- A valuation of a related snapshot names a product of it. -/
theorem RelationsHold.valuation_product (hrelations : RelationsHold provider snapshot)
    {row : InvestmentValuation} (hrow : row ∈ snapshot.valuations) :
    ∃ product, snapshot.product? row.productId = some product ∧
      product ∈ snapshot.products ∧ product.id = row.productId := by
  obtain ⟨product, hproduct, -⟩ := Option.map_eq_some_iff.mp (hrelations.valuationCurrency row hrow)
  exact ⟨product, hproduct, mem_product? hproduct⟩

/-- A checked product has an id of its provider. -/
theorem RelationsHold.isProductId (hrelations : RelationsHold provider snapshot)
    {product : InvestmentProduct} (hproduct : product ∈ snapshot.products) :
    IsProductId provider product.id :=
  ⟨_, (hrelations.product product hproduct).2⟩

/-- A valuation without archive provenance is named after its product; one with
it has an archive id, and is nobody's current value. -/
theorem validateValuation_ok {row : InvestmentValuation}
    (h : validateValuation provider snapshot row = .ok ⟨⟩) :
    (∃ rest, row.id.toList = row.productId.toList ++ ':' :: rest) ∨
      ((∃ entry, row.id = "sure:entry:" ++ entry) ∧
        (snapshot.product? row.productId).bind (·.currentValuationId) ≠ some row.id) := by
  unfold validateValuation at h
  cases hprovenance : row.provenance with
  | none =>
      rw [hprovenance] at h
      obtain ⟨identity, hidentity, hsame⟩ := except_bind_ok.mp h
      rw [← require_ok.mp hsame] at hidentity
      exact .inl (valuationId_chars hidentity)
  | some archived =>
      rw [hprovenance] at h
      obtain ⟨-, hid, -, -, -, hcurrent⟩ := require_ok.mp h
      exact .inr ⟨⟨archived.sourceEntryId, hid⟩, hcurrent⟩

/-- The current value of a product of the snapshot is a valuation of the
snapshot named after the product. -/
theorem current_of_snapshot (hrelations : RelationsHold provider snapshot)
    (haccepted : snapshot.accepted host = true) {product : InvestmentProduct}
    (hproduct : product ∈ snapshot.products) {current : String}
    (hcurrent : current ∈ product.currentValuationId) :
    ∃ row ∈ snapshot.valuations, row.id = current ∧ row.productId = product.id ∧
      ∃ rest, current.toList = product.id.toList ++ ':' :: rest := by
  obtain ⟨row, hrow, hproductId, hid⟩ := hrelations.pointer product hproduct current hcurrent
    (current_ne_empty haccepted hproduct hcurrent)
  refine ⟨row, hrow, hid, hproductId, ?_⟩
  rcases validateValuation_ok (hrelations.valuation row hrow) with hnamed | ⟨-, hnot⟩
  · rwa [hid, hproductId] at hnamed
  · obtain ⟨other, hother, hmem, hsame⟩ := hrelations.valuation_product hrow
    obtain rfl := hrelations.product_unique hmem hproduct (hsame.trans hproductId)
    rw [hother, Option.bind_some, hid] at hnot
    exact absurd (Option.mem_def.mp hcurrent) hnot

/-- A valuation of the snapshot is stored after it. -/
theorem valuation?_afterSnapshot (hkeys : (snapshot.records.map InvestmentRecord.key).Nodup)
    {row : InvestmentValuation} (hrow : row ∈ snapshot.valuations) :
    (db.afterSnapshot host provider snapshot state).valuation? row.id = some row := by
  have hfound := @find_afterSnapshot_of_mem host provider db snapshot state hkeys _
    (mem_records_valuation hrow)
  rw [rowOver_of_kind _ (by simp [InvestmentRecord.kind])] at hfound
  change (db.afterSnapshot host provider snapshot state).records.find (.valuations, row.id) = _
    at hfound
  unfold InvestmentDb.valuation?
  rw [hfound]

/-- Valuations of other ids stay. -/
theorem valuation?_afterSnapshot_other (hkeys : (snapshot.records.map InvestmentRecord.key).Nodup)
    {id : String} (hid : ∀ row ∈ snapshot.valuations, row.id ≠ id) :
    (db.afterSnapshot host provider snapshot state).valuation? id = db.valuation? id := by
  unfold InvestmentDb.valuation?
  rw [find_afterSnapshot_of_not_mem hkeys]
  intro hmem
  obtain ⟨row, hrow, hkey⟩ := List.mem_map.mp hmem
  simp only [InvestmentSnapshot.records, List.mem_append, List.mem_map] at hrow
  rcases hrow with (((⟨r, -, rfl⟩ | ⟨r, hr, rfl⟩) | ⟨r, -, rfl⟩) | ⟨r, -, rfl⟩) | ⟨r, -, rfl⟩
  · cases (Prod.mk.inj hkey).1
  · exact hid r hr (Prod.mk.inj hkey).2
  all_goals cases (Prod.mk.inj hkey).1

/-- A stored current value stays a valuation of its product: a row written over
it has its id, and the id names the product. -/
theorem current_stays (hrelations : RelationsHold provider snapshot)
    (hbefore : Integrity provider db) (hnamed : WellNamed provider db) {old : InvestmentProduct}
    (hold : .product old ∈ db.records.rows) {current : String}
    (hcurrent : current ∈ old.currentValuationId) :
    ∃ row, (db.afterSnapshot host provider snapshot state).valuation? current = some row ∧
      row.productId = old.id := by
  by_cases hwritten : ∃ row ∈ snapshot.valuations, row.id = current
  · obtain ⟨row, hrow, rfl⟩ := hwritten
    refine ⟨row, valuation?_afterSnapshot hrelations.keys hrow, ?_⟩
    obtain ⟨rest, hrest⟩ := hnamed.pointer old hold row.id hcurrent
    have hid := hnamed.product old hold
    rcases validateValuation_ok (hrelations.valuation row hrow) with ⟨rest', hrest'⟩ | ⟨harchive, -⟩
    · obtain ⟨product, -, hmem, hproduct⟩ := hrelations.valuation_product hrow
      have hproductId := hrelations.isProductId hmem
      rw [hproduct] at hproductId
      exact hproductId.unique hid (hrest'.symm.trans hrest)
    · obtain ⟨entry, hentry⟩ := harchive
      rw [hentry] at hrest
      exact absurd hrest (hid.ne_archive entry)
  · rw [valuation?_afterSnapshot_other hrelations.keys fun row hrow hid =>
      hwritten ⟨row, hrow, hid⟩]
    exact hbefore.pointer old hold current hcurrent

/-- A stored product after the snapshot is a merged one of the snapshot or an
old one; its current value comes from one of the two. -/
theorem product_afterSnapshot (hrelations : RelationsHold provider snapshot)
    {product : InvestmentProduct}
    (h : .product product ∈ (db.afterSnapshot host provider snapshot state).records.rows) :
    (∃ new ∈ snapshot.products, product.id = new.id ∧
        product.currentValuationId = new.currentValuationId) ∨
      ((∃ new ∈ snapshot.products, product.id = new.id) ∨ .product product ∈ db.records.rows) ∧
        ∃ old, .product old ∈ db.records.rows ∧ product.id = old.id ∧
          product.currentValuationId = old.currentValuationId := by
  rcases (mem_afterSnapshot hrelations.keys).mp h with ⟨row, hrow, hsame⟩ | ⟨hold, -⟩
  · have hkey := congrArg InvestmentRecord.key hsame
    rw [rowOver_key] at hkey
    cases row with
    | product new =>
        have hnew : new ∈ snapshot.products := by
          simpa [InvestmentSnapshot.records] using hrow
        obtain ⟨merged, hmerged, hid, -, -, hcurrent⟩ := @rowOver_product host provider
          (db.records.find (InvestmentRecord.product new).key) new
        rw [hmerged] at hsame
        obtain rfl := InvestmentRecord.product.inj hsame
        rcases hcurrent with hown | ⟨old, hold, hkept⟩
        · exact .inl ⟨new, hnew, hid, hown⟩
        · have holdKey := KeyedTable.key_of_find hold
          change (RecordKind.products, old.id) = (RecordKind.products, new.id) at holdKey
          refine .inr ⟨.inl ⟨new, hnew, hid⟩, old, KeyedTable.mem_of_find hold, ?_, hkept⟩
          exact hid.trans (Prod.mk.inj holdKey).2.symm
    | _ => cases (Prod.mk.inj hkey).1
  · exact .inr ⟨.inr hold, product, hold, rfl, rfl⟩

/-- **Integrity after a snapshot** is integrity before it and a snapshot that
fits. -/
theorem integrity_afterSnapshot_iff (hrelations : RelationsHold provider snapshot)
    (haccepted : snapshot.accepted host = true) (hbefore : Integrity provider db)
    (hnamed : WellNamed provider db) :
    Integrity provider (db.afterSnapshot host provider snapshot state) ↔
      FitsStored db snapshot := by
  constructor
  · intro h
    exact (held_afterSnapshot_iff hrelations hbefore).mp h.held
  · intro hfits
    refine ⟨(held_afterSnapshot_iff hrelations hbefore).mpr hfits,
      fun row hrow => execution_afterSnapshot hrelations hbefore hrow, ?_⟩
    intro product hproduct current hcurrent
    rcases product_afterSnapshot hrelations hproduct with
      ⟨new, hnew, hid, hsame⟩ | ⟨-, old, hold, hid, hsame⟩
    · rw [hsame] at hcurrent
      obtain ⟨row, hrow, rfl, hproductId, -⟩ :=
        current_of_snapshot hrelations haccepted hnew hcurrent
      exact ⟨row, valuation?_afterSnapshot hrelations.keys hrow, hproductId.trans hid.symm⟩
    · rw [hsame] at hcurrent
      rw [hid]
      exact current_stays hrelations hbefore hnamed hold hcurrent

/-- After a snapshot every record has the id of its product. -/
theorem wellNamed_afterSnapshot (hrelations : RelationsHold provider snapshot)
    (haccepted : snapshot.accepted host = true) (hnamed : WellNamed provider db) :
    WellNamed provider (db.afterSnapshot host provider snapshot state) := by
  constructor
  · intro product hproduct
    rcases product_afterSnapshot hrelations hproduct with
      ⟨new, hnew, hid, -⟩ | ⟨⟨new, hnew, hid⟩ | hold, -⟩
    · rw [hid]
      exact hrelations.isProductId hnew
    · rw [hid]
      exact hrelations.isProductId hnew
    · exact hnamed.product product hold
  · intro product hproduct current hcurrent
    rcases product_afterSnapshot hrelations hproduct with
      ⟨new, hnew, hid, hsame⟩ | ⟨-, old, hold, hid, hsame⟩
    · rw [hsame] at hcurrent
      rw [hid]
      obtain ⟨row, -, -, -, hrest⟩ := current_of_snapshot hrelations haccepted hnew hcurrent
      exact hrest
    · rw [hsame] at hcurrent
      rw [hid]
      exact hnamed.pointer old hold current hcurrent

end

/-! ## The other operations -/

section
variable {host : Host} {provider : InvestmentProvider} {db db' : InvestmentDb}

/-- What every reachable database satisfies, as far as its snapshots fit. -/
structure Related (provider : InvestmentProvider) (db : InvestmentDb) : Prop where
  integrity : Integrity provider db
  wellNamed : WellNamed provider db

/-- Only records are related. -/
theorem Related.of_records_eq (h : Related provider db) (hrecords : db'.records = db.records) :
    Related provider db' := by
  have hproduct : ∀ id, db'.product? id = db.product? id := by
    intro id
    unfold InvestmentDb.product?
    rw [hrecords]
  have hvaluation : ∀ id, db'.valuation? id = db.valuation? id := by
    intro id
    unfold InvestmentDb.valuation?
    rw [hrecords]
  refine ⟨⟨?_, ?_, ?_⟩, ⟨?_, ?_⟩⟩
  · intro row hrow
    simp only [hproduct]
    exact h.integrity.held row (hrecords ▸ hrow)
  · intro row hrow
    rw [hproduct]
    exact h.integrity.execution row (hrecords ▸ hrow)
  · intro product hmem
    simp only [hvaluation]
    exact h.integrity.pointer product (hrecords ▸ hmem)
  · intro product hmem
    exact h.wellNamed.product product (hrecords ▸ hmem)
  · intro product hmem
    exact h.wellNamed.pointer product (hrecords ▸ hmem)

/-- A new database. -/
theorem related_empty : Related provider emptyInvestmentDb := by
  have hnone : ∀ row, row ∉ emptyInvestmentDb.records.rows := fun row => List.not_mem_nil
  refine ⟨⟨?_, ?_, ?_⟩, ⟨?_, ?_⟩⟩
  · intro row hrow
    exact absurd hrow (hnone _)
  · intro row hrow
    exact absurd hrow (hnone _)
  · intro product hmem
    exact absurd hmem (hnone _)
  · intro product hmem
    exact absurd hmem (hnone _)
  · intro product hmem
    exact absurd hmem (hnone _)

/-- What a seeded archive stores was there or is in the archive. -/
theorem seededRecords_mem {rows : List InvestmentRecord} {observedAt : String}
    {start last : InvestmentImportSummary × InvestmentDb}
    (h : seededRecords host provider rows observedAt start = .ok last) {row : InvestmentRecord}
    (hrow : row ∈ last.2.records.rows) : row ∈ start.2.records.rows ∨ row ∈ rows := by
  induction rows generalizing start with
  | nil =>
      cases h
      exact .inl hrow
  | cons first rows ih =>
      unfold seededRecords at h
      rw [List.foldlM_cons] at h
      obtain ⟨mid, hfirst, hrest⟩ := except_bind_ok.mp h
      rcases ih hrest with hmid | hmem
      · cases harchived : archived host provider first observedAt start.2 with
        | error e =>
            rw [harchived] at hfirst
            cases hfirst
        | ok q =>
            rw [harchived] at hfirst
            cases hfirst
            rcases archived_ok.mp harchived with ⟨-, -, hput⟩ | ⟨old, -, -, -, hsame⟩
            · dsimp only at hmid
              rw [hput] at hmid
              rcases KeyedTable.mem_put.mp hmid with rfl | ⟨hold, -⟩
              · exact .inr List.mem_cons_self
              · exact .inl hold
            · dsimp only at hmid
              rw [hsame] at hmid
              exact .inl hmid
      · exact .inr (List.mem_cons_of_mem _ hmem)

/-- A product stays where records are appended. -/
theorem product?_appends (h : KeyedTable.Appends db.records db'.records) {id : String}
    {product : InvestmentProduct} (hproduct : db.product? id = some product) :
    db'.product? id = some product := by
  obtain ⟨hmem, rfl⟩ := mem_of_product? hproduct
  have hfound := h.find (KeyedTable.find_of_mem hmem)
  change db'.records.find (.products, product.id) = _ at hfound
  unfold InvestmentDb.product?
  rw [hfound]

/-- So does a valuation. -/
theorem valuation?_appends (h : KeyedTable.Appends db.records db'.records) {id : String}
    {row : InvestmentValuation} (hrow : db.valuation? id = some row) :
    db'.valuation? id = some row := by
  unfold InvestmentDb.valuation? at hrow ⊢
  cases hfind : db.records.find (.valuations, id) with
  | none =>
      rw [hfind] at hrow
      cases hrow
  | some record =>
      rw [hfind] at hrow
      rw [h.find hfind]
      exact hrow

/-- The product of an archive is stored, with its currency. -/
theorem product?_of_agrees {product : InvestmentProduct}
    (h : AgreesStored provider db (.product product)) :
    ∃ stored, db.product? product.id = some stored ∧ stored.provider = provider ∧
      stored.currency = product.currency := by
  obtain ⟨old, hfound, houtcome⟩ := h
  change db.records.find (.products, product.id) = some old at hfound
  have hkind := KeyedTable.key_of_find hfound
  cases old with
  | product stored =>
      refine ⟨stored, ?_, ?_⟩
      · unfold InvestmentDb.product?
        rw [hfound]
      · change (if stored.provider ≠ provider ∨ stored.currency ≠ product.currency then
          Except.error InvestmentError.archiveProductConflict else _) = _ at houtcome
        split_ifs at houtcome with hconflict
        rw [not_or, not_not, not_not] at hconflict
        exact hconflict
  | _ => cases (Prod.mk.inj hkind).1

/-- What is stored after an archive was seeded. -/
theorem seeded_mem {snapshot : InvestmentSnapshot} {stored : StoredEvidence} {observedAt : String}
    {start summary : InvestmentImportSummary}
    (h : seededRecords host provider snapshot.archiveRecords observedAt
      (start, db.withEvidence stored) = .ok (summary, db')) {row : InvestmentRecord}
    (hrow : row ∈ db'.records.rows) :
    row ∈ db.records.rows ∨ (∃ product ∈ snapshot.products, row = .product product) ∨
      ∃ value ∈ snapshot.valuations, row = .valuation value := by
  rcases seededRecords_mem h hrow with hold | hnew
  · rw [withEvidence_records] at hold
    exact .inl hold
  · simp only [InvestmentSnapshot.archiveRecords, List.mem_append, List.mem_map] at hnew
    rcases hnew with ⟨product, hproduct, rfl⟩ | ⟨value, hvalue, rfl⟩
    · exact .inr (.inl ⟨product, hproduct, rfl⟩)
    · exact .inr (.inr ⟨value, hvalue, rfl⟩)

/-- **A seeded archive keeps the relations**: its product has no current value,
and its valuations the currency of the product stored. -/
theorem related_seeded {input : InvestmentSnapshot} {evidence : SeedEvidence}
    {summary : InvestmentImportSummary} (hbefore : Related provider db)
    (h : seeded host provider input evidence db = .ok (summary, db')) : Related provider db' := by
  obtain ⟨snapshot, stored, hchecked, -, -, hrecords⟩ := seeded_ok.mp h
  obtain ⟨happends, hagain⟩ := seeded_appends h
  obtain ⟨-, hagrees⟩ := hagain snapshot stored hchecked
  obtain ⟨-, hrelations, hpointers, -⟩ := checkArchive_ok hchecked
  have hcases : ∀ row ∈ db'.records.rows, row ∈ db.records.rows ∨
      (∃ product ∈ snapshot.products, row = .product product) ∨
        ∃ value ∈ snapshot.valuations, row = .valuation value :=
    fun row hrow => seeded_mem hrecords hrow
  have hproduct : ∀ product, .product product ∈ db'.records.rows →
      .product product ∈ db.records.rows ∨ product ∈ snapshot.products := by
    intro product hmem
    rcases hcases _ hmem with hold | ⟨new, hnew, hsame⟩ | ⟨value, -, hsame⟩
    · exact .inl hold
    · obtain rfl := InvestmentRecord.product.inj hsame
      exact .inr hnew
    · cases hsame
  refine ⟨⟨?_, ?_, ?_⟩, ⟨?_, ?_⟩⟩
  · intro row hrow currency hcurrency
    rcases hcases row hrow with hold | ⟨product, -, rfl⟩ | ⟨value, hvalue, rfl⟩
    · obtain ⟨product, hfound, hholds⟩ := hbefore.integrity.held row hold currency hcurrency
      exact ⟨product, product?_appends happends.records hfound, hholds⟩
    · cases hcurrency
    · obtain ⟨product, hmem, hid, hsame⟩ := hrelations.held (mem_records_valuation hvalue) hcurrency
      obtain ⟨found, hfound, hprovider, hfoundCurrency⟩ := product?_of_agrees
        (hagrees _ (mem_archiveRecords_product.mpr hmem))
      rw [hid] at hfound
      exact ⟨found, hfound, hprovider, hfoundCurrency.trans hsame⟩
  · intro row hrow
    rcases hcases _ hrow with hold | ⟨product, -, hsame⟩ | ⟨value, -, hsame⟩
    · obtain ⟨product, hfound⟩ := Option.isSome_iff_exists.mp
        (hbefore.integrity.execution row hold)
      rw [product?_appends happends.records hfound]
      rfl
    · cases hsame
    · cases hsame
  · intro product hmem current hcurrent
    rcases hproduct product hmem with hold | hnew
    · obtain ⟨row, hfound, hrow⟩ := hbefore.integrity.pointer product hold current hcurrent
      exact ⟨row, valuation?_appends happends.records hfound, hrow⟩
    · rw [hpointers product hnew] at hcurrent
      cases hcurrent
  · intro product hmem
    rcases hproduct product hmem with hold | hnew
    · exact hbefore.wellNamed.product product hold
    · exact hrelations.isProductId hnew
  · intro product hmem current hcurrent
    rcases hproduct product hmem with hold | hnew
    · exact hbefore.wellNamed.pointer product hold current hcurrent
    · rw [hpointers product hnew] at hcurrent
      cases hcurrent

end

/-! ## Runs -/

section
variable (host : Host) (provider : InvestmentProvider)

/-- The call does not throw. -/
def InvestmentCall.returns (db : InvestmentDb) (call : InvestmentCall) : Bool :=
  match call.result host provider db with
  | .ok _ _ => true
  | .error _ _ => false

/-- A snapshot that is complete and not stale leaves no row in the store whose
currency differs from the one it gives the row's product. -/
def InvestmentCall.keepsCurrencies (db : InvestmentDb) (call : InvestmentCall) : Prop :=
  match call.op with
  | .applySnapshot input =>
      isIncomplete provider input.trimmed = false →
        (∀ state, db.readState provider = .ok state →
          readStaleness provider state input.observedAt db = .ok false) →
        FitsStored db input.trimmed
  | _ => True

/-- **A snapshot keeps the relations** exactly when it keeps the currencies. -/
theorem integrity_applySnapshot {input : InvestmentSnapshot} {db db' : InvestmentDb}
    {summary : InvestmentImportSummary} {faults : List Bool} (hbefore : Related provider db)
    (h : imported host provider input db = .ok (summary, db')) :
    (Integrity provider db' ↔
        InvestmentCall.keepsCurrencies provider db ⟨.applySnapshot input, faults⟩) ∧
      WellNamed provider db' := by
  obtain ⟨snapshot, hparsed, hcases⟩ := imported_ok.mp h
  obtain ⟨rfl, haccepted⟩ := parseSnapshot_ok hparsed
  have hunchanged : db'.records = db.records → Related provider db' :=
    fun hrecords => hbefore.of_records_eq hrecords
  rcases hcases with ⟨hincomplete, -, hfailed⟩ | ⟨hcomplete, hvalid, hobserved⟩
  · have hafter := hunchanged (failed_sameHistory provider hfailed).records
    refine ⟨iff_of_true hafter.integrity ?_, hafter.wellNamed⟩
    intro hcomplete
    rw [hincomplete] at hcomplete
    cases hcomplete
  · have hrelations := relations_of_ok hvalid
    obtain ⟨state, stale, hread, hstale, ⟨rfl, -, rfl⟩ | ⟨rfl, -, -, -, rfl⟩⟩ :=
      observed_ok.mp hobserved
    · refine ⟨iff_of_true hbefore.integrity ?_, hbefore.wellNamed⟩
      intro _ hfresh
      have hfalse := hfresh state hread
      change readStaleness provider state input.observedAt db' = _ at hstale
      rw [hstale] at hfalse
      cases hfalse
    · refine ⟨?_, wellNamed_afterSnapshot hrelations haccepted hbefore.wellNamed⟩
      rw [integrity_afterSnapshot_iff hrelations haccepted hbefore.integrity hbefore.wellNamed]
      constructor
      · exact fun hfits _ _ => hfits
      · intro hkeeps
        refine hkeeps hcomplete fun other hother => ?_
        cases hread.symm.trans hother
        exact hstale

/-- A call that returns is a step. -/
theorem callStep_of_returns {db : InvestmentDb} {call : InvestmentCall}
    (h : call.returns host provider db = true) :
    ∃ answer s, call.op.perform host provider ⟨db, call.faults⟩ = .ok answer s ∧
      callStep host provider db call = s.store := by
  unfold InvestmentCall.returns InvestmentCall.result at h
  unfold callStep InvestmentCall.result
  cases hresult : call.op.perform host provider ⟨db, call.faults⟩ with
  | ok answer s => exact ⟨answer, s, rfl, rfl⟩
  | error e s =>
      rw [hresult] at h
      cases h

/-- One call that returns: it keeps the relations exactly when it keeps the
currencies. -/
theorem integrity_callStep {db : InvestmentDb} {call : InvestmentCall}
    (hbefore : Related provider db) (hreturns : call.returns host provider db = true) :
    (Integrity provider (callStep host provider db call) ↔
        call.keepsCurrencies provider db) ∧
      WellNamed provider (callStep host provider db call) := by
  obtain ⟨answer, s, hresult, hstep⟩ := callStep_of_returns host provider hreturns
  rw [hstep]
  by_cases himports : call.op.imports = true
  · obtain ⟨op, faults⟩ := call
    cases op with
    | applySnapshot input =>
        obtain ⟨summary, -, hrun⟩ := perform_applySnapshot_ok host provider hresult
        exact integrity_applySnapshot host provider hbefore
          ((computes_applySnapshot host provider input).returns _ _ _ hrun)
    | seedArchive input evidence =>
        obtain ⟨summary, mid, hrun, hlast⟩ := bind_ok.mp hresult
        obtain ⟨-, rfl⟩ := pure_ok.mp hlast
        have hafter := related_seeded hbefore
          ((computes_seedArchive host provider input evidence).returns _ _ _ hrun)
        exact ⟨iff_of_true hafter.integrity trivial, hafter.wellNamed⟩
    | _ => cases himports
  · have hsame := leavesHistory_perform host provider (Bool.eq_false_iff.mpr himports)
      ⟨db, call.faults⟩
    rw [hresult] at hsame
    have hafter := hbefore.of_records_eq hsame.records
    refine ⟨iff_of_true hafter.integrity ?_, hafter.wellNamed⟩
    obtain ⟨op, faults⟩ := call
    cases op with
    | applySnapshot input => exact absurd rfl himports
    | _ => trivial

/-- **Referential integrity.**  A run of calls that do not throw keeps the
relations in every state it reaches exactly when every snapshot it applies
keeps the currencies of the rows it does not mention. -/
theorem integrity_iff {calls : List InvestmentCall}
    (hreturns : Runs.Along (callStep host provider)
      (fun db call _ => call.returns host provider db = true) emptyInvestmentDb calls) :
    Runs.Along (callStep host provider) (fun _ _ db' => Integrity provider db')
        emptyInvestmentDb calls ↔
      Runs.Along (callStep host provider) (fun db call _ => call.keepsCurrencies provider db)
        emptyInvestmentDb calls := by
  have hexact := @Runs.along_iff_of_step _ _ (callStep host provider)
    (fun db call _ => call.returns host provider db = true ∧ call.keepsCurrencies provider db)
    (fun db call db' => call.returns host provider db = true ∧ Integrity provider db')
    (Related provider) emptyInvestmentDb related_empty
    (fun db call hbefore => and_congr_right fun hcall =>
      (integrity_callStep host provider hbefore hcall).1)
    (fun db call hbefore hcall => by
      obtain ⟨hiff, hnamed⟩ := integrity_callStep host provider hbefore hcall.1
      exact ⟨hiff.mpr hcall.2, hnamed⟩)
    calls
  have hsplit : ∀ Q : InvestmentDb → InvestmentCall → InvestmentDb → Prop,
      Runs.Along (callStep host provider) Q emptyInvestmentDb calls ↔
        Runs.Along (callStep host provider)
          (fun db call db' => call.returns host provider db = true ∧ Q db call db')
          emptyInvestmentDb calls :=
    fun Q => (Runs.along_and.trans (and_iff_right hreturns)).symm
  rw [hsplit, hexact, ← hsplit]

end

/-- A pension with one valuation, collected in the given currency. -/
def pensionSnapshot (observedAt currency : String) (activities : List InvestmentActivity) :
    InvestmentSnapshot where
  observedAt
  complete := true
  inventoryComplete := true
  products := [{
    id := "clal:P-1"
    provider := .clal
    providerProductId := "P-1"
    kind := .pension
    name := "Example Pension"
    currency
    currentValuationId := some "clal:P-1:valuation:2026-08-31"
    liquidity := ⟨.restricted, none, none⟩
    coverage := ⟨.complete, .complete, .unavailable, none⟩
    forecast := none
    reportSummaries := none }]
  valuations := [{
    id := "clal:P-1:valuation:2026-08-31"
    productId := "clal:P-1"
    asOf := some "2026-08-31"
    observedAt
    amount := "12345.67"
    currency
    provenance := none }]
  activities
  tracks := []
  executions := []

/-- The pension is collected once in shekels and once, without its activity, in
dollars. -/
def currencyChange : List InvestmentCall :=
  [⟨.applySnapshot (pensionSnapshot "2026-09-01T06:00:00.000Z" "ILS" [pensionActivity]), []⟩,
    ⟨.applySnapshot (pensionSnapshot "2026-09-08T06:00:00.000Z" "USD" []), []⟩]

/-- A product that changes its currency leaves its old valuations behind. -/
theorem currency_change_breaks_integrity :
    Runs.Along (callStep asciiHost .clal)
        (fun db call _ => call.returns asciiHost .clal db = true) emptyInvestmentDb
        currencyChange ∧
      ¬Integrity .clal (Runs.run (callStep asciiHost .clal) emptyInvestmentDb currencyChange) := by
  refine ⟨by decide +kernel, fun h => ?_⟩
  have hstored : .activity pensionActivity ∈
      (Runs.run (callStep asciiHost .clal) emptyInvestmentDb currencyChange).records.rows := by
    decide +kernel
  have hproduct : ((Runs.run (callStep asciiHost .clal) emptyInvestmentDb
      currencyChange).product? "clal:P-1").map (·.currency) = some "USD" := by decide +kernel
  obtain ⟨product, hfound, -, hcurrency⟩ := h.held _ hstored "ILS" rfl
  change InvestmentDb.product? _ "clal:P-1" = some product at hfound
  rw [hfound, Option.map_some, hcurrency] at hproduct
  exact absurd hproduct (by decide)

/-- The pension is collected, then a collection fails, and a later one merges with what is
stored. -/
def steadyCollections : List InvestmentCall :=
  [⟨.applySnapshot (pensionSnapshot "2026-09-01T06:00:00.000Z" "ILS" [pensionActivity]), []⟩,
    ⟨.recordFailure ⟨.error, "2026-09-08T06:00:00.000Z", .TIMEOUT⟩, []⟩,
    ⟨.applySnapshot (pensionSnapshot "2026-09-15T06:00:00.000Z" "ILS" []), []⟩]

/-- Two steady collections keep the relations; a change of currency does not. -/
theorem integrity_iff_pension :
    (Runs.Along (callStep asciiHost .clal) (fun _ _ db' => Integrity .clal db') emptyInvestmentDb
        steadyCollections ↔
      Runs.Along (callStep asciiHost .clal) (fun db call _ => call.keepsCurrencies .clal db)
        emptyInvestmentDb steadyCollections) ∧
    (Runs.Along (callStep asciiHost .clal) (fun _ _ db' => Integrity .clal db') emptyInvestmentDb
        currencyChange ↔
      Runs.Along (callStep asciiHost .clal) (fun db call _ => call.keepsCurrencies .clal db)
        emptyInvestmentDb currencyChange) :=
  ⟨integrity_iff asciiHost .clal (by decide +kernel),
    integrity_iff asciiHost .clal (by decide +kernel)⟩

end SimplefinBridge
