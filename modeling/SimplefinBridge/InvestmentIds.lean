import SimplefinBridge.OrdinalLabels
import SimplefinBridge.ProviderValues

/-!
# Ids of investment records

An id is a row of fields between colons: the provider, the encoded id of the
product and, for a record behind the product, a word for its kind and what the
provider calls it.  No field has a colon in it, so the fields can be read off an
id (`InvestmentIdCall.build_fields`), and they name the record.
-/

namespace SimplefinBridge

open Transactional (except_bind_ok)

/-- A call of one of the id builders; a record's product id is built first. -/
inductive InvestmentIdCall
  | product (provider : InvestmentProvider) (providerProductId : String)
  | valuation (provider : InvestmentProvider) (providerProductId : String) (asOf : Option IsoDate)
  | activity (provider : InvestmentProvider) (providerProductId sourceId : String)
  | track (provider : InvestmentProvider) (providerProductId sourceTrackId : String)
  | execution (provider : InvestmentProvider) (providerProductId sourceId : String)
  deriving DecidableEq, Repr

namespace InvestmentIdCall

/-- The id that a call builds. -/
def build : InvestmentIdCall → Except InvestmentError String
  | .product provider providerProductId => investmentProductId providerProductId provider
  | .valuation provider providerProductId asOf => do
      investmentValuationId (← investmentProductId providerProductId provider) asOf
  | .activity provider providerProductId sourceId => do
      investmentActivityId (← investmentProductId providerProductId provider) sourceId
  | .track provider providerProductId sourceTrackId => do
      investmentTrackId (← investmentProductId providerProductId provider) sourceTrackId
  | .execution provider providerProductId sourceId => do
      investmentExecutionId (← investmentProductId providerProductId provider) sourceId

/-- The texts have no white space at their ends, and a date is a day of the
calendar. -/
def Accepted : InvestmentIdCall → Prop
  | .product _ providerProductId => jsTrim providerProductId = providerProductId
  | .valuation _ providerProductId asOf =>
      jsTrim providerProductId = providerProductId ∧ ∀ date ∈ asOf, IsCalendarDate date
  | .activity _ providerProductId sourceId | .track _ providerProductId sourceId
  | .execution _ providerProductId sourceId =>
      jsTrim providerProductId = providerProductId ∧ jsTrim sourceId = sourceId

/-- A text as it stands in an id. -/
def field (text : String) : List Char := (encodeURIComponent (jsTrim text)).toList

/-- What stands between the colons of an id. -/
def fields : InvestmentIdCall → List (List Char)
  | .product provider providerProductId => [provider.text.toList, field providerProductId]
  | .valuation provider providerProductId asOf =>
      [provider.text.toList, field providerProductId, "valuation".toList,
        (asOf.getD "undated").toList]
  | .activity provider providerProductId sourceId =>
      [provider.text.toList, field providerProductId, "activity".toList, field sourceId]
  | .track provider providerProductId sourceTrackId =>
      [provider.text.toList, field providerProductId, "track".toList, field sourceTrackId]
  | .execution provider providerProductId sourceId =>
      [provider.text.toList, field providerProductId, "execution".toList, field sourceId]

/-! ## Fields of an id -/

/-- An encoded field. -/
theorem part_field {value segment : String} (h : part value = .ok segment) :
    segment.toList = field value := by
  unfold part at h
  split_ifs at h
  unfold field
  rw [Except.ok.inj h]

/-- The fields of a product's id. -/
theorem productId_chars {provider : InvestmentProvider} {providerProductId id : String}
    (h : investmentProductId providerProductId provider = .ok id) :
    id.toList = [':'].intercalate [provider.text.toList, field providerProductId] := by
  obtain ⟨segment, hsegment, hid⟩ := except_bind_ok.mp h
  have hcolon : ":".toList = [':'] := rfl
  rw [checked_ok hid, String.toList_append, String.toList_append, part_field hsegment, hcolon,
    List.intercalate_cons_cons, List.intercalate_singleton]

/-- An id behind a product id. -/
theorem behind_chars {provider : InvestmentProvider} {providerProductId productId id : String}
    {word last : List Char} (hproduct : investmentProductId providerProductId provider = .ok productId)
    (hid : id.toList = productId.toList ++ ':' :: (word ++ ':' :: last)) :
    id.toList = [':'].intercalate
      [provider.text.toList, field providerProductId, word, last] := by
  rw [hid, productId_chars hproduct, List.intercalate_cons_cons, List.intercalate_singleton,
    List.intercalate_cons_cons, List.intercalate_cons_cons, List.intercalate_cons_cons,
    List.intercalate_singleton]
  simp only [List.append_assoc, List.cons_append, List.nil_append]

/-- The fields of any id, with colons between them. -/
theorem build_chars {call : InvestmentIdCall} {id : String} (h : call.build = .ok id) :
    id.toList = [':'].intercalate call.fields := by
  cases call with
  | product provider providerProductId => exact productId_chars h
  | valuation provider providerProductId asOf =>
      obtain ⟨productId, hproduct, h⟩ := except_bind_ok.mp h
      refine behind_chars hproduct ?_
      rw [checked_ok h, String.toList_append, String.toList_append, List.append_assoc]
      rfl
  | activity provider providerProductId sourceId | track provider providerProductId sourceId
  | execution provider providerProductId sourceId =>
      obtain ⟨productId, hproduct, h⟩ := except_bind_ok.mp h
      obtain ⟨segment, hsegment, h⟩ := except_bind_ok.mp h
      refine behind_chars hproduct ?_
      rw [checked_ok h, String.toList_append, String.toList_append, part_field hsegment,
        List.append_assoc]
      rfl

/-- The name of a provider has no colon, -/
theorem colon_not_mem_text (provider : InvestmentProvider) : ':' ∉ provider.text.toList := by
  cases provider <;> decide

/-- nor has an encoded field, -/
theorem colon_not_mem_field (text : String) : ':' ∉ field text := not_mem_encoded rfl

/-- a date, -/
theorem colon_not_mem_date {asOf : Option IsoDate} (h : ∀ date ∈ asOf, IsCalendarDate date) :
    ':' ∉ (asOf.getD "undated").toList := by
  cases asOf with
  | none => decide
  | some date =>
      obtain ⟨day, -, rfl⟩ := h date rfl
      intro hmem
      rw [Option.getD_some, CivilDays.CivilDate.text, String.toList_ofList,
        CivilDays.CivilDate.chars] at hmem
      have hdigits : ∀ {width n : Nat}, ':' ∉ CivilDays.padded width n := fun hcolon =>
        absurd (CivilDays.isDigit_of_mem_padded hcolon) (by decide)
      simp only [List.mem_append, List.mem_cons, hdigits, false_or, or_false] at hmem
      revert hmem
      decide

/-- what stands behind a product -/
theorem colon_not_mem_behind {provider : InvestmentProvider} {providerProductId : String}
    {word last : List Char} (hword : ':' ∉ word) (hlast : ':' ∉ last) :
    ∀ part ∈ [provider.text.toList, field providerProductId, word, last], ':' ∉ part :=
  List.forall_mem_cons.mpr ⟨colon_not_mem_text provider, List.forall_mem_cons.mpr
    ⟨colon_not_mem_field providerProductId, List.forall_mem_cons.mpr
      ⟨hword, List.forall_mem_singleton.mpr hlast⟩⟩⟩

/-- or any field at all. -/
theorem colon_not_mem {call : InvestmentIdCall} (h : call.Accepted) :
    ∀ part ∈ call.fields, ':' ∉ part := by
  cases call with
  | product provider providerProductId =>
      exact List.forall_mem_cons.mpr ⟨colon_not_mem_text provider,
        List.forall_mem_singleton.mpr (colon_not_mem_field providerProductId)⟩
  | valuation provider providerProductId asOf =>
      exact colon_not_mem_behind (by decide) (colon_not_mem_date h.2)
  | activity provider providerProductId sourceId | track provider providerProductId sourceId
  | execution provider providerProductId sourceId =>
      exact colon_not_mem_behind (by decide) (colon_not_mem_field sourceId)

/-- **The fields of an id** are those of the call that builds it. -/
theorem build_fields {call : InvestmentIdCall} {id : String} (haccepted : call.Accepted)
    (h : call.build = .ok id) : id.toList.splitOn ':' = call.fields := by
  have hne : call.fields ≠ [] := by
    cases call <;> exact List.cons_ne_nil _ _
  rw [build_chars h]
  exact List.splitOn_intercalate ':' (colon_not_mem haccepted) hne

/-! ## Calls with the same fields -/

/-- Providers have different names. -/
theorem provider_text_inj {provider provider' : InvestmentProvider}
    (h : provider.text.toList = provider'.text.toList) : provider = provider' := by
  revert h
  cases provider <;> cases provider' <;> decide

/-- Different texts have different fields. -/
theorem field_inj {text text' : String} (htrimmed : jsTrim text = text)
    (htrimmed' : jsTrim text' = text') (h : field text = field text') : text = text' := by
  unfold field at h
  rw [htrimmed, htrimmed'] at h
  exact encodeURIComponent_injective (String.toList_inj.mp h)

/-- A day of the calendar is not undated. -/
theorem date_inj {asOf asOf' : Option IsoDate} (hdate : ∀ date ∈ asOf, IsCalendarDate date)
    (hdate' : ∀ date ∈ asOf', IsCalendarDate date)
    (h : (asOf.getD "undated").toList = (asOf'.getD "undated").toList) : asOf = asOf' := by
  have hundated : ∀ date, IsCalendarDate date → date ≠ "undated" := by
    intro date hcalendar hsame
    obtain ⟨day, -, rfl⟩ := hcalendar
    have hdash : '-' ∈ day.text.toList := by
      rw [CivilDays.CivilDate.text, String.toList_ofList, CivilDays.CivilDate.chars]
      exact List.mem_append_right _ List.mem_cons_self
    rw [hsame] at hdash
    revert hdash
    decide
  rw [String.toList_inj] at h
  cases asOf with
  | none =>
      cases asOf' with
      | none => rfl
      | some date' => exact absurd h.symm (hundated date' (hdate' date' rfl))
  | some date =>
      cases asOf' with
      | none => exact absurd h (hundated date (hdate date rfl))
      | some date' => exact congrArg some h

/-- Ids behind products have the same parts only if they are the same. -/
theorem behind_inj {provider provider' : InvestmentProvider}
    {providerProductId providerProductId' : String} {word word' last last' : List Char}
    (htrimmed : jsTrim providerProductId = providerProductId)
    (htrimmed' : jsTrim providerProductId' = providerProductId')
    (h : [provider.text.toList, field providerProductId, word, last] =
      [provider'.text.toList, field providerProductId', word', last']) :
    provider = provider' ∧ providerProductId = providerProductId' ∧ word = word' ∧
      last = last' := by
  obtain ⟨hprovider, h⟩ := List.cons.inj h
  obtain ⟨hproduct, h⟩ := List.cons.inj h
  obtain ⟨hword, h⟩ := List.cons.inj h
  exact ⟨provider_text_inj hprovider, field_inj htrimmed htrimmed' hproduct, hword,
    (List.cons.inj h).1⟩

/-- A product's id has two fields, the others four. -/
theorem product_ne_behind {a b a' b' word last : List Char} (h : [a, b] = [a', b', word, last]) :
    False :=
  absurd (List.cons.inj (List.cons.inj h).2).2.symm (List.cons_ne_nil _ _)

/-- **The fields tell the calls apart.** -/
theorem fields_inj {call call' : InvestmentIdCall} (haccepted : call.Accepted)
    (haccepted' : call'.Accepted) (h : call.fields = call'.fields) : call = call' := by
  cases call with
  | product provider providerProductId =>
      cases call' with
      | product provider' providerProductId' =>
          obtain ⟨hprovider, h⟩ := List.cons.inj h
          rw [provider_text_inj hprovider, field_inj haccepted haccepted' (List.cons.inj h).1]
      | _ => exact (product_ne_behind h).elim
  | valuation provider providerProductId asOf =>
      cases call' with
      | product => exact (product_ne_behind h.symm).elim
      | valuation provider' providerProductId' asOf' =>
          obtain ⟨hprovider, hproduct, -, hdate⟩ := behind_inj haccepted.1 haccepted'.1 h
          rw [hprovider, hproduct, date_inj haccepted.2 haccepted'.2 hdate]
      | _ => exact absurd (behind_inj haccepted.1 haccepted'.1 h).2.2.1 (by decide)
  | activity provider providerProductId sourceId =>
      cases call' with
      | product => exact (product_ne_behind h.symm).elim
      | activity provider' providerProductId' sourceId' =>
          obtain ⟨hprovider, hproduct, -, hsource⟩ := behind_inj haccepted.1 haccepted'.1 h
          rw [hprovider, hproduct, field_inj haccepted.2 haccepted'.2 hsource]
      | _ => exact absurd (behind_inj haccepted.1 haccepted'.1 h).2.2.1 (by decide)
  | track provider providerProductId sourceTrackId =>
      cases call' with
      | product => exact (product_ne_behind h.symm).elim
      | track provider' providerProductId' sourceTrackId' =>
          obtain ⟨hprovider, hproduct, -, hsource⟩ := behind_inj haccepted.1 haccepted'.1 h
          rw [hprovider, hproduct, field_inj haccepted.2 haccepted'.2 hsource]
      | _ => exact absurd (behind_inj haccepted.1 haccepted'.1 h).2.2.1 (by decide)
  | execution provider providerProductId sourceId =>
      cases call' with
      | product => exact (product_ne_behind h.symm).elim
      | execution provider' providerProductId' sourceId' =>
          obtain ⟨hprovider, hproduct, -, hsource⟩ := behind_inj haccepted.1 haccepted'.1 h
          rw [hprovider, hproduct, field_inj haccepted.2 haccepted'.2 hsource]
      | _ => exact absurd (behind_inj haccepted.1 haccepted'.1 h).2.2.1 (by decide)

/-- The provider of an id stands before its first colon. -/
theorem build_provider {call : InvestmentIdCall} {id : String} (h : call.build = .ok id) :
    ∃ (provider : InvestmentProvider) (rest : List Char),
      id.toList = provider.text.toList ++ ':' :: rest := by
  have hhead : ∃ (provider : InvestmentProvider) (second : List Char) (others : List (List Char)),
      call.fields = provider.text.toList :: second :: others := by
    cases call <;> exact ⟨_, _, _, rfl⟩
  obtain ⟨provider, second, others, hfields⟩ := hhead
  refine ⟨provider, [':'].intercalate (second :: others), ?_⟩
  rw [build_chars h, hfields, List.intercalate_cons_cons, List.append_assoc,
    List.singleton_append]

end InvestmentIdCall

/-- The id of an archived valuation. -/
def archiveEntryId (sourceEntryId : String) : String := "sure:entry:" ++ sourceEntryId

/-- No provider is called as an archive entry begins. -/
theorem ne_archiveEntryId {call : InvestmentIdCall} {id : String} (h : call.build = .ok id)
    (sourceEntryId : String) : id ≠ archiveEntryId sourceEntryId := by
  obtain ⟨provider, rest, hid⟩ := InvestmentIdCall.build_provider h
  intro hsame
  have hentry : (archiveEntryId sourceEntryId).toList =
      "sure".toList ++ ':' :: ("entry:".toList ++ sourceEntryId.toList) := by
    unfold archiveEntryId
    rw [String.toList_append]
    rfl
  rw [hsame, hentry] at hid
  have hprovider := ((Separators.first_field_inj (by decide)
    (InvestmentIdCall.colon_not_mem_text provider)).mp hid).1
  revert hprovider
  cases provider <;> decide

/-- **Ids are injective**: two calls of the builders with one id are the same
call, and no id is that of an archive entry. -/
theorem investmentIds_injective {call : InvestmentIdCall} {id : String}
    (haccepted : call.Accepted) (hid : call.build = .ok id) :
    (∀ call' : InvestmentIdCall, call'.Accepted → call'.build = .ok id → call' = call) ∧
      ∀ sourceEntryId, id ≠ archiveEntryId sourceEntryId := by
  constructor
  · intro call' haccepted' hid'
    refine InvestmentIdCall.fields_inj haccepted' haccepted ?_
    rw [← InvestmentIdCall.build_fields haccepted hid,
      ← InvestmentIdCall.build_fields haccepted' hid']
  · exact ne_archiveEntryId hid

/-- No other call builds the id of the activity. -/
theorem investmentIds_injective_activity :
    (∀ call' : InvestmentIdCall, call'.Accepted →
      call'.build = .ok "clal:pension%3A1:activity:a%3Ab" →
        call' = .activity .clal "pension:1" "a:b") ∧
      ∀ sourceEntryId, "clal:pension%3A1:activity:a%3Ab" ≠ archiveEntryId sourceEntryId :=
  @investmentIds_injective (.activity .clal "pension:1" "a:b") _
    ⟨by decide +kernel, by decide +kernel⟩ (by decide +kernel)

end SimplefinBridge
