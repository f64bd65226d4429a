import SimplefinBridge.Fingerprints

/-!
# Ordinals under reordering

The ids of a batch are the base ids with the numbers `1 … n`, where `n` is how
many rows have the base id.  That does not depend on the order of the batch,
so a permutation of it is refused with it or gets the same ids.  Which row gets
which number may change, unless the charge date already tells the row from the
others with its base id.  A refusal is for the length of an id, except where a
row whose texts cannot stand in an id is reached first
(`assignTransactionIds_perm_iff`).
-/

namespace SimplefinBridge

open Occurrences Separators Transactional

/-! ## Ids of a base and a number -/

section
variable {host : Host}

/-- A fingerprint has the form of one. -/
theorem isFingerprint_transactionFingerprint (hhash : HexDigests host) (row : TransactionFields) :
    isFingerprint (transactionFingerprint host row) = true := by
  unfold isFingerprint
  rw [List.all_eq_true]
  intro c hc
  unfold transactionFingerprint at hc
  rw [String.toList_ofList] at hc
  exact hhash _ c (List.mem_of_mem_take hc)

/-- A base id and a number are read back from the id they make. -/
theorem ordinalId_base_inj (hhash : HexDigests host) {p q : TransactionFields} {a b : String}
    (ha : baseTransactionId host p = .ok a) (hb : baseTransactionId host q = .ok b) {j k : Nat}
    (h : ordinalId a (j + 1) = ordinalId b (k + 1)) : a = b ∧ j = k := by
  have hsuffix : ∀ (base : String) (n : Nat),
      ordinalId base (n + 1) = base ++ if n + 1 ≥ 2 then "#" ++ toString (n + 1) else "" := by
    intro base n
    unfold ordinalId
    by_cases htwo : n + 1 ≥ 2
    · rw [if_pos htwo, if_pos htwo, String.append_assoc]
    · rw [if_neg htwo, if_neg htwo, String.append_empty]
  have hcolon : ∀ (row : TransactionFields) (n : Nat), ':' ∉ (transactionFingerprint host row ++
      if n + 1 ≥ 2 then "#" ++ toString (n + 1) else "").toList := by
    intro row n hmem
    rw [String.toList_append] at hmem
    rcases List.mem_append.mp hmem with hprint | hordinal
    · have hchar := List.all_eq_true.mp (isFingerprint_transactionFingerprint hhash row) _ hprint
      revert hchar
      decide
    · by_cases htwo : n + 1 ≥ 2
      · rw [if_pos htwo, String.toList_append] at hordinal
        rcases List.mem_append.mp hordinal with hhash | hdigits
        · revert hhash
          decide
        · change _ ∈ (n + 1).repr.toList at hdigits
          rw [Nat.toList_repr] at hdigits
          have hdigit := Nat.isDigit_of_mem_toDigits (by decide) (by decide) hdigits
          revert hdigit
          decide
      · rw [if_neg htwo] at hordinal
        cases hordinal
  obtain ⟨before, hbefore⟩ := toList_baseTransactionId ha
  obtain ⟨before', hbefore'⟩ := toList_baseTransactionId hb
  have hlist := congrArg String.toList h
  rw [hsuffix, hsuffix, String.toList_append, String.toList_append, hbefore, hbefore',
    List.append_assoc, List.append_assoc, List.cons_append, List.cons_append,
    ← String.toList_append, ← String.toList_append,
    last_field_inj (hcolon p j) (hcolon q k), String.toList_inj] at hlist
  obtain ⟨hbeforeFingerprint, htail⟩ := hlist
  obtain ⟨hprint, hnumber⟩ := fingerprint_suffix_inj (isFingerprint_transactionFingerprint hhash p)
    (isFingerprint_transactionFingerprint hhash q) (by omega) (by omega) htail
  refine ⟨String.toList_inj.mp ?_, Nat.succ.inj hnumber⟩
  rw [hbefore, hbefore', hbeforeFingerprint, hprint]

/-! ## The numbers of a base id -/

/-- How many rows have the base id. -/
def twinCount (host : Host) (rows : List TransactionFields) (base : String) : Nat :=
  rows.countP fun row => baseTransactionId host row = .ok base

/-- The rows with one base id are numbered from zero without gaps. -/
theorem twins_perm_range (host : Host) (rows : List TransactionFields) (base : String) :
    ((group (fun e : IndexedRow => baseTransactionId host e.1) (.ok base) rows.zipIdx).map
        (earlierTwins host rows)).Perm (List.range (twinCount host rows base)) := by
  have hperm : (group (fun e : IndexedRow => baseTransactionId host e.1) (.ok base) rows.zipIdx).Perm
      (group (fun e : IndexedRow => baseTransactionId host e.1) (.ok base) (ordered host rows)) :=
    ((ordered_perm host rows).filter _).symm
  have hnumbers := @map_earlier_group _ _ _ (fun e : IndexedRow => baseTransactionId host e.1) _
    (precedes_asymm host) (.ok base) _ (ordered_pairwise host rows)
  have hsame : earlierTwins host rows = earlier (fun e : IndexedRow => baseTransactionId host e.1)
      (precedes host) (ordered host rows) := by
    funext entry
    exact (earlier_perm (ordered_perm host rows) entry).symm
  have hcount : (group (fun e : IndexedRow => baseTransactionId host e.1) (.ok base)
      (ordered host rows)).length = twinCount host rows base := by
    rw [← hperm.length_eq]
    unfold group twinCount
    rw [← List.countP_eq_length_filter]
    conv_rhs => rw [← List.zipIdx_map_fst 0 rows, List.countP_map]
    rfl
  rw [hsame, ← hcount, ← hnumbers]
  exact hperm.map _

/-- Every number below the count belongs to one row. -/
theorem exists_twin {rows : List TransactionFields} {base : String} {k : Nat}
    (h : k < twinCount host rows base) : ∃ entry ∈ rows.zipIdx,
      baseTransactionId host entry.1 = .ok base ∧ earlierTwins host rows entry = k := by
  have hmem := (twins_perm_range host rows base).mem_iff.mpr (List.mem_range.mpr h)
  obtain ⟨entry, hentry, hk⟩ := List.mem_map.mp hmem
  obtain ⟨hplace, hbase⟩ := List.mem_filter.mp hentry
  exact ⟨entry, hplace, of_decide_eq_true hbase, hk⟩

/-- A row has fewer twins before it than there are. -/
theorem earlierTwins_lt {rows : List TransactionFields} {entry : IndexedRow} {base : String}
    (hentry : entry ∈ rows.zipIdx) (hbase : baseTransactionId host entry.1 = .ok base) :
    earlierTwins host rows entry < twinCount host rows base := by
  apply List.mem_range.mp
  rw [← (twins_perm_range host rows base).mem_iff]
  exact List.mem_map_of_mem (List.mem_filter.mpr ⟨hentry, decide_eq_true hbase⟩)

/-- Two rows with one base id have different numbers. -/
theorem twin_eq {rows : List TransactionFields} {a b : IndexedRow} {base : String}
    (ha : a ∈ rows.zipIdx) (hb : b ∈ rows.zipIdx) (hbase : baseTransactionId host a.1 = .ok base)
    (hbase' : baseTransactionId host b.1 = .ok base)
    (h : earlierTwins host rows a = earlierTwins host rows b) : a = b := by
  have hnodup : ((group (fun e : IndexedRow => baseTransactionId host e.1) (.ok base)
      rows.zipIdx).map (earlierTwins host rows)).Nodup :=
    (twins_perm_range host rows base).nodup_iff.mpr List.nodup_range
  exact List.inj_on_of_nodup_map hnodup (List.mem_filter.mpr ⟨ha, decide_eq_true hbase⟩)
    (List.mem_filter.mpr ⟨hb, decide_eq_true hbase'⟩) h

end

section
variable {host : Host} {rows : List TransactionFields}

/-! ## Which batches get ids -/

/-- A number whose id is not refused. -/
def Fits (base : String) (k : Nat) : Prop :=
  k + 1 ≥ 2 → assertId (ordinalId base (k + 1)) = .ok (ordinalId base (k + 1))

/-- When a row gets its id. -/
theorem numberedRow_ok_iff {entry : IndexedRow} :
    (∃ row, numberedRow host rows entry = .ok row) ↔
      ∃ base, baseTransactionId host entry.1 = .ok base ∧ Fits base (earlierTwins host rows entry) := by
  unfold numberedRow Fits
  constructor
  · rintro ⟨row, hrow⟩
    obtain ⟨base, hbase, hrest⟩ := except_bind_ok.mp hrow
    refine ⟨base, hbase, fun htwo => ?_⟩
    dsimp only at hrest
    rw [if_pos htwo] at hrest
    obtain ⟨id, hid, -⟩ := except_bind_ok.mp hrest
    rw [hid, (assertId_ok hid).1]
  · rintro ⟨base, hbase, hfits⟩
    rw [hbase]
    dsimp only [bind, Except.bind]
    by_cases htwo : earlierTwins host rows entry + 1 ≥ 2
    · rw [if_pos htwo, hfits htwo]
      exact ⟨_, rfl⟩
    · rw [if_neg htwo]
      exact ⟨_, rfl⟩

/-- A traversal whose steps all succeed. -/
theorem exists_results {α β ε : Type} {f : α → Except ε β} (items : List α)
    (h : ∀ a ∈ items, ∃ b, f a = .ok b) : ∃ results : List β, items.map f = results.map .ok := by
  induction items with
  | nil => exact ⟨[], rfl⟩
  | cons a items ih =>
      obtain ⟨b, hb⟩ := h a List.mem_cons_self
      obtain ⟨results, hresults⟩ := ih fun c hc => h c (List.mem_cons_of_mem _ hc)
      exact ⟨b :: results, by rw [List.map_cons, List.map_cons, hb, hresults]⟩

/-- Every row of an accepted batch is in the result, numbered. -/
theorem exists_numbered {result : List LedgerTransaction}
    (h : assignTransactionIds host rows = .ok result) {entry : IndexedRow}
    (hentry : entry ∈ rows.zipIdx) : ∃ row ∈ result, numberedRow host rows entry = .ok row := by
  have hmem : numberedRow host rows entry ∈ result.map .ok := by
    rw [← assignTransactionIds_ok_iff.mp h]
    exact List.mem_map_of_mem hentry
  obtain ⟨row, hrow, hnumbered⟩ := List.mem_map.mp hmem
  exact ⟨row, hrow, hnumbered.symm⟩

/-- **Accepted batches.**  Every row has a base id, and the numbers below the
count of a base id all fit behind it. -/
theorem assigned_iff : (∃ result, assignTransactionIds host rows = .ok result) ↔
    (∀ row ∈ rows, ∃ base, baseTransactionId host row = .ok base) ∧
      ∀ base, ∀ k < twinCount host rows base, Fits base k := by
  constructor
  · rintro ⟨result, hresult⟩
    have hnumbered : ∀ entry ∈ rows.zipIdx, ∃ row, numberedRow host rows entry = .ok row := by
      intro entry hentry
      obtain ⟨row, -, hrow⟩ := exists_numbered hresult hentry
      exact ⟨row, hrow⟩
    constructor
    · intro row hrow
      obtain ⟨place, hplace, hget⟩ := List.getElem_of_mem hrow
      have hentry : (row, place) ∈ rows.zipIdx := by
        rw [List.mem_zipIdx_iff_getElem?]
        exact List.getElem?_eq_some_iff.mpr ⟨hplace, hget⟩
      obtain ⟨base, hbase, -⟩ := numberedRow_ok_iff.mp (hnumbered _ hentry)
      exact ⟨base, hbase⟩
    · intro base k hk
      obtain ⟨entry, hentry, hbase, rfl⟩ := exists_twin hk
      obtain ⟨base', hbase', hfits⟩ := numberedRow_ok_iff.mp (hnumbered entry hentry)
      rw [hbase] at hbase'
      obtain rfl := Except.ok.inj hbase'
      exact hfits
  · rintro ⟨hbases, hfits⟩
    obtain ⟨result, hresult⟩ := exists_results (f := numberedRow host rows) rows.zipIdx (by
      intro entry hentry
      obtain ⟨base, hbase⟩ := hbases entry.1 (List.fst_mem_of_mem_zipIdx hentry)
      exact numberedRow_ok_iff.mpr ⟨base, hbase, hfits base _ (earlierTwins_lt hentry hbase)⟩)
    exact ⟨result, assignTransactionIds_ok_iff.mpr hresult⟩

/-! ## Which rows are refused, and for what -/

/-- The texts of a row can stand in an id: its account id decodes, and no
character of the account number or the identifier takes two code units. -/
structure Encodable (row : TransactionFields) : Prop where
  company : isPrintableAscii row.company = true
  account : ∃ number, accountNumberFromAccountId row.accountId = .ok number ∧
    (jsTrim number).toList.all isBasicChar = true
  identifier : ∀ identifier, row.identifier = some identifier →
    identifier.toList.all isBasicChar = true

instance : DecidablePred Encodable := fun row =>
  decidable_of_iff (isPrintableAscii row.company = true ∧
      ((accountNumberFromAccountId row.accountId).toOption.any fun number =>
        (jsTrim number).toList.all isBasicChar) = true ∧
      (row.identifier.all fun identifier => identifier.toList.all isBasicChar) = true) <| by
    rw [Option.any_eq_true, Option.all_eq_true]
    constructor
    · rintro ⟨hcompany, ⟨number, hnumber, hbasic⟩, hidentifier⟩
      refine ⟨hcompany, ⟨number, ?_, hbasic⟩, hidentifier⟩
      cases haccount : accountNumberFromAccountId row.accountId with
      | ok other =>
          rw [haccount] at hnumber
          rw [Option.some.inj hnumber]
      | error e =>
          rw [haccount] at hnumber
          cases hnumber
    · rintro ⟨hcompany, ⟨number, hnumber, hbasic⟩, hidentifier⟩
      exact ⟨hcompany, ⟨number, by rw [hnumber]; rfl, hbasic⟩, hidentifier⟩

/-- The id of the row's account, whatever its length. -/
def accountIdText (row : TransactionFields) : String :=
  accountText row.company ((accountNumberFromAccountId row.accountId).toOption.getD "")

/-- The base id of a row, whatever its length. -/
def baseIdText (host : Host) (row : TransactionFields) : String :=
  accountIdText row ++ ":" ++ identifierText row.identifier ++ ":" ++
    transactionFingerprint host row

/-- An account id is not empty. -/
theorem accountIdText_ne_empty (row : TransactionFields) : accountIdText row ≠ "" := by
  intro hempty
  have hlist := congrArg String.toList hempty
  unfold accountIdText at hlist
  rw [toList_accountText] at hlist
  exact absurd (List.append_eq_nil_iff.mp hlist).2 (List.cons_ne_nil _ _)

/-- Neither is a text that begins with one. -/
theorem append_ne_empty {a : String} (b : String) (h : a ≠ "") : a ++ b ≠ "" := by
  intro hempty
  have hlist := congrArg String.toList hempty
  rw [String.toList_append] at hlist
  exact h (String.toList_inj.mp (List.append_eq_nil_iff.mp hlist).1)

/-- An identifier's segment can be printed, -/
theorem isPrintableAscii_identifierText (identifier : Option String) :
    isPrintableAscii (identifierText identifier) = true := by
  cases identifier with
  | none => decide
  | some identifier => exact isPrintableAscii_encode identifier

/-- so can a fingerprint, -/
theorem isPrintableAscii_fingerprint (hhash : HexDigests host) (row : TransactionFields) :
    isPrintableAscii (transactionFingerprint host row) = true := by
  rw [isPrintableAscii_eq, List.all_eq_true]
  intro c hc
  have hhex := List.all_eq_true.mp (isFingerprint_transactionFingerprint hhash row) c hc
  apply isPrintableChar_of_encoded
  unfold isEncodedChar isUriUnreserved Char.isAlphanum Char.isAlpha Char.isLower
  unfold isHashChar at hhex
  rcases Bool.or_eq_true_iff.mp hhex with hdigit | hletter
  · rw [hdigit]
    simp
  · have hrange := Bool.and_eq_true_iff.mp hletter
    have hlow : 'a'.val ≤ c.val := of_decide_eq_true hrange.1
    have hhigh : c.val ≤ 'f'.val := of_decide_eq_true hrange.2
    have hlast : 'f'.val ≤ 'z'.val := by decide
    have hz : c.val ≤ 'z'.val := UInt32.le_trans hhigh hlast
    have hlower : (c.val ≥ 'a'.val && c.val ≤ 'z'.val) = true :=
      Bool.and_eq_true_iff.mpr ⟨decide_eq_true hlow, decide_eq_true hz⟩
    rw [hlower]
    simp

/-- an account id, -/
theorem Encodable.isPrintableAscii_account {row : TransactionFields} (h : Encodable row) :
    isPrintableAscii (accountIdText row) = true := by
  unfold accountIdText accountText
  rw [isPrintableAscii_append, isPrintableAscii_append, h.company, isPrintableAscii_encode]
  rfl

/-- a base id -/
theorem Encodable.isPrintableAscii_base (hhash : HexDigests host) {row : TransactionFields}
    (h : Encodable row) : isPrintableAscii (baseIdText host row) = true := by
  have hcolon : isPrintableAscii ":" = true := by decide
  unfold baseIdText
  rw [isPrintableAscii_append, isPrintableAscii_append, isPrintableAscii_append,
    isPrintableAscii_append, h.isPrintableAscii_account, hcolon, isPrintableAscii_identifierText,
    isPrintableAscii_fingerprint hhash]
  rfl

/-- and a numbered id. -/
theorem isPrintableAscii_ordinalId {base : String} (hbase : isPrintableAscii base = true)
    (ordinal : Nat) : isPrintableAscii (ordinalId base ordinal) = true := by
  unfold ordinalId
  by_cases htwo : ordinal ≥ 2
  · rw [if_pos htwo, isPrintableAscii_append, isPrintableAscii_append, hbase,
      isPrintableAscii_eq (toString _)]
    simp only [Bool.true_and, Bool.and_eq_true, List.all_eq_true]
    refine ⟨by decide, fun c hc => ?_⟩
    change c ∈ ordinal.repr.toList at hc
    rw [Nat.toList_repr] at hc
    apply isPrintableChar_of_encoded
    unfold isEncodedChar isUriUnreserved Char.isAlphanum
    rw [Nat.isDigit_of_mem_toDigits (by decide) (by decide) hc]
    simp
  · rw [if_neg htwo]
    exact hbase

/-- **The base id** of a row whose texts can stand in an id is refused for its
length only. -/
theorem Encodable.baseTransactionId_eq (hhash : HexDigests host) {row : TransactionFields}
    (h : Encodable row) : baseTransactionId host row =
      if jsLength (accountIdText row) > maxIdLength then
        .error (.idTooLong (jsLength (accountIdText row)))
      else if jsLength (baseIdText host row) > maxIdLength then
        .error (.idTooLong (jsLength (baseIdText host row)))
      else .ok (baseIdText host row) := by
  obtain ⟨number, hnumber, hbasic⟩ := h.account
  have htext : accountIdText row = row.company ++ ":" ++ encodeURIComponent (jsTrim number) := by
    unfold accountIdText accountText
    rw [hnumber]
    rfl
  have hsegment : identifierSegment row.identifier = .ok (identifierText row.identifier) := by
    cases hidentifier : row.identifier with
    | none => rfl
    | some identifier =>
        change encodeSegment identifier = _
        rw [encodeSegment_eq, if_pos (h.identifier identifier hidentifier)]
        rfl
  have haccount : accountId row.company number =
      if jsLength (accountIdText row) > maxIdLength then
        .error (.idTooLong (jsLength (accountIdText row)))
      else .ok (accountIdText row) := by
    unfold accountId
    rw [encodeSegment_eq, if_pos hbasic]
    dsimp only [bind, Except.bind]
    rw [← htext]
    exact assertId_of_printable (accountIdText_ne_empty row) h.isPrintableAscii_account
  have hbase : baseIdText host row ≠ "" := by
    unfold baseIdText
    exact append_ne_empty _ (append_ne_empty _ (append_ne_empty _ (append_ne_empty _
      (accountIdText_ne_empty row))))
  unfold baseTransactionId transactionId
  rw [hnumber, hsegment]
  dsimp only [bind, Except.bind]
  rw [haccount]
  by_cases hlong : jsLength (accountIdText row) > maxIdLength
  · rw [if_pos hlong, if_pos hlong]
  · rw [if_neg hlong, if_neg hlong]
    have hplain : accountIdText row ++ ":" ++ identifierText row.identifier ++ ":" ++
        transactionFingerprint host row ++ ordinalSuffix none = baseIdText host row :=
      String.append_empty
    dsimp only
    rw [hplain]
    exact assertId_of_printable hbase (h.isPrintableAscii_base hhash)

/-- A row whose texts cannot stand in an id is refused, and not for a length. -/
theorem baseTransactionId_of_not_encodable {row : TransactionFields} (h : ¬ Encodable row) :
    baseTransactionId host row = .error .malformedUri ∨
      baseTransactionId host row = .error .idNotAscii := by
  unfold baseTransactionId transactionId
  cases hnumber : accountNumberFromAccountId row.accountId with
  | error e =>
      left
      have hmalformed : e = .malformedUri := by
        have hdecode : ∀ text e, decodeURIComponent text = .error e → e = .malformedUri := by
          intro text e hdecode
          unfold decodeURIComponent at hdecode
          split at hdecode
          · cases hdecode
          · exact (Except.error.inj hdecode).symm
        unfold accountNumberFromAccountId at hnumber
        split at hnumber
        · exact hdecode _ _ hnumber
        · exact hdecode _ _ hnumber
      rw [hmalformed]
      rfl
  | ok number =>
      dsimp only [bind, Except.bind]
      by_cases hidentifier : ∀ identifier, row.identifier = some identifier →
          identifier.toList.all isBasicChar = true
      · have hsegment : identifierSegment row.identifier = .ok (identifierText row.identifier) := by
          cases hcase : row.identifier with
          | none => rfl
          | some identifier =>
              change encodeSegment identifier = _
              rw [encodeSegment_eq, if_pos (hidentifier identifier hcase)]
              rfl
        rw [hsegment]
        dsimp only
        by_cases hbasic : (jsTrim number).toList.all isBasicChar = true
        · right
          have hcompany : isPrintableAscii row.company = false := by
            rw [Bool.eq_false_iff]
            intro hcompany
            exact h ⟨hcompany, ⟨number, hnumber, hbasic⟩, hidentifier⟩
          have haccount : accountId row.company number = .error .idNotAscii := by
            unfold accountId
            rw [encodeSegment_eq, if_pos hbasic]
            dsimp only [bind, Except.bind]
            unfold assertId
            rw [isPrintableAscii_append, isPrintableAscii_append, hcompany]
            simp
          rw [haccount]
        · left
          have haccount : accountId row.company number = .error .malformedUri := by
            unfold accountId
            rw [encodeSegment_eq, if_neg hbasic]
            rfl
          rw [haccount]
      · left
        push Not at hidentifier
        obtain ⟨identifier, hcase, hastral⟩ := hidentifier
        rw [hcase]
        change (encodeSegment identifier >>= _) = _
        rw [encodeSegment_eq, if_neg hastral]
        rfl

/-- The error names the length of the account id, the base id or the id of a
row, and it is over the limit. -/
def LengthError (host : Host) (rows : List TransactionFields) (e : BridgeError) : Prop :=
  ∃ entry ∈ rows.zipIdx, Encodable entry.1 ∧
    ∃ text ∈ [accountIdText entry.1, baseIdText host entry.1,
        ordinalId (baseIdText host entry.1) (earlierTwins host rows entry + 1)],
      jsLength text > maxIdLength ∧ e = .idTooLong (jsLength text)

/-- **A refused row** whose texts can stand in an id: one of its texts is over
the limit. -/
theorem refused_for_length (hhash : HexDigests host) {entry : IndexedRow} {e : BridgeError}
    (hencodable : Encodable entry.1) (h : numberedRow host rows entry = .error e) :
    ∃ text ∈ [accountIdText entry.1, baseIdText host entry.1,
        ordinalId (baseIdText host entry.1) (earlierTwins host rows entry + 1)],
      jsLength text > maxIdLength ∧ e = .idTooLong (jsLength text) := by
  have hbase := hencodable.baseTransactionId_eq hhash
  unfold numberedRow at h
  by_cases haccount : jsLength (accountIdText entry.1) > maxIdLength
  · rw [hbase, if_pos haccount] at h
    exact ⟨_, List.mem_cons_self, haccount, (Except.error.inj h).symm⟩
  · rw [if_neg haccount] at hbase
    by_cases hlong : jsLength (baseIdText host entry.1) > maxIdLength
    · rw [hbase, if_pos hlong] at h
      exact ⟨_, List.mem_cons_of_mem _ List.mem_cons_self, hlong, (Except.error.inj h).symm⟩
    · rw [hbase, if_neg hlong] at h
      dsimp only [bind, Except.bind] at h
      by_cases htwo : earlierTwins host rows entry + 1 ≥ 2
      · rw [if_pos htwo] at h
        have hne : ordinalId (baseIdText host entry.1) (earlierTwins host rows entry + 1) ≠ "" := by
          unfold ordinalId baseIdText
          rw [if_pos htwo]
          exact append_ne_empty _ (append_ne_empty _ (append_ne_empty _ (append_ne_empty _
            (append_ne_empty _ (append_ne_empty _ (accountIdText_ne_empty entry.1))))))
        rw [assertId_of_printable hne
          (isPrintableAscii_ordinalId (hencodable.isPrintableAscii_base hhash) _)] at h
        by_cases hnumbered : jsLength (ordinalId (baseIdText host entry.1)
            (earlierTwins host rows entry + 1)) > maxIdLength
        · rw [if_pos hnumbered] at h
          exact ⟨_, List.mem_cons_of_mem _ (List.mem_cons_of_mem _ List.mem_cons_self), hnumbered,
            (Except.error.inj h).symm⟩
        · rw [if_neg hnumbered] at h
          cases h
      · rw [if_neg htwo] at h
        cases h

/-- The row's texts can stand in an id, and its id with its number is over the
limit. -/
def OverLimit (host : Host) (rows : List TransactionFields) (entry : IndexedRow) : Prop :=
  Encodable entry.1 ∧
    maxIdLength < jsLength (ordinalId (baseIdText host entry.1) (earlierTwins host rows entry + 1))

/-- A text is not longer than what it begins. -/
theorem jsLength_le_append (a b : String) : jsLength a ≤ jsLength (a ++ b) := by
  rw [jsLength_append]
  exact Nat.le_add_right _ _

/-- A number makes an id longer, -/
theorem jsLength_le_ordinalId (base : String) (ordinal : Nat) :
    jsLength base ≤ jsLength (ordinalId base ordinal) := by
  unfold ordinalId
  split_ifs
  · rw [String.append_assoc]
    exact jsLength_le_append _ _
  · exact le_rfl

/-- and so does all that stands behind the account. -/
theorem jsLength_account_le (row : TransactionFields) :
    jsLength (accountIdText row) ≤ jsLength (baseIdText host row) := by
  unfold baseIdText
  rw [String.append_assoc, String.append_assoc, String.append_assoc]
  exact jsLength_le_append _ _

/-- A row with a base id has texts that can stand in it. -/
theorem encodable_of_base {row : TransactionFields} {base : String}
    (h : baseTransactionId host row = .ok base) : Encodable row := by
  by_contra hnot
  rcases baseTransactionId_of_not_encodable hnot with herror | herror
  · rw [h] at herror
    cases herror
  · rw [h] at herror
    cases herror

/-- A base id is the text of its parts. -/
theorem base_eq_text (hhash : HexDigests host) {row : TransactionFields} {base : String}
    (h : baseTransactionId host row = .ok base) : base = baseIdText host row := by
  have hbase := (encodable_of_base h).baseTransactionId_eq hhash
  rw [h] at hbase
  split_ifs at hbase
  exact Except.ok.inj hbase

/-- An accepted row has an id within the limit. -/
theorem not_overLimit_of_numbered (hhash : HexDigests host) {entry : IndexedRow}
    {row : LedgerTransaction} (h : numberedRow host rows entry = .ok row) :
    ¬ OverLimit host rows entry := by
  rintro ⟨-, hlong⟩
  obtain ⟨base, hbase, hfits⟩ := numberedRow_ok_iff.mp ⟨row, h⟩
  obtain rfl := base_eq_text hhash hbase
  by_cases htwo : earlierTwins host rows entry + 1 ≥ 2
  · have hlength := (assertId_ok (hfits htwo)).2.2
    omega
  · have hplain : ordinalId (baseIdText host entry.1) (earlierTwins host rows entry + 1) =
        baseIdText host entry.1 := by
      unfold ordinalId
      rw [if_neg htwo]
    rw [hplain] at hlong
    have hvalue := (encodable_of_base hbase).baseTransactionId_eq hhash
    rw [hbase] at hvalue
    split_ifs at hvalue

/-- **Accepted rows.**  The texts can stand in an id, and the id with its
number is within the limit. -/
theorem numberedRow_ok_iff_within (hhash : HexDigests host) {entry : IndexedRow} :
    (∃ row, numberedRow host rows entry = .ok row) ↔
      Encodable entry.1 ∧ ¬ OverLimit host rows entry := by
  constructor
  · rintro ⟨row, hrow⟩
    obtain ⟨base, hbase, -⟩ := numberedRow_ok_iff.mp ⟨row, hrow⟩
    exact ⟨encodable_of_base hbase, not_overLimit_of_numbered hhash hrow⟩
  · rintro ⟨hencodable, hwithin⟩
    cases h : numberedRow host rows entry with
    | ok row => exact ⟨row, rfl⟩
    | error e =>
        exfalso
        refine hwithin ⟨hencodable, ?_⟩
        have hnumbered := jsLength_le_ordinalId (baseIdText host entry.1)
          (earlierTwins host rows entry + 1)
        have haccount := @jsLength_account_le host entry.1
        obtain ⟨text, htext, hlong, -⟩ := refused_for_length hhash hencodable h
        simp only [List.mem_cons, List.not_mem_nil, or_false] at htext
        rcases htext with rfl | rfl | rfl
        · omega
        · omega
        · omega

/-! ## The ids of an accepted batch -/

variable {result : List LedgerTransaction}

/-- Assigning ids leaves the rows and their order alone. -/
theorem fields_of_assigned (h : assignTransactionIds host rows = .ok result) :
    result.map LedgerTransaction.toTransactionFields = rows := by
  have hrows := assignTransactionIds_ok_iff.mp h
  have hfields : rows.zipIdx.map (fun entry => (numberedRow host rows entry).map
      LedgerTransaction.toTransactionFields) = rows.zipIdx.map fun entry => .ok entry.1 := by
    apply List.map_congr_left
    intro entry hentry
    obtain ⟨row, -, hrow⟩ := exists_numbered h hentry
    rw [hrow]
    exact congrArg Except.ok (numberedRow_spec hrow).1
  have hresult : result.map (fun row => (.ok row.toTransactionFields : Except BridgeError _)) =
      rows.map .ok := by
    calc result.map (fun row => (.ok row.toTransactionFields : Except BridgeError _))
        = (result.map .ok).map (Except.map LedgerTransaction.toTransactionFields) := by
          rw [List.map_map]
          rfl
      _ = rows.zipIdx.map fun entry => .ok entry.1 := by rw [← hrows, List.map_map, ← hfields]; rfl
      _ = rows.map .ok := by
          conv_rhs => rw [← List.zipIdx_map_fst 0 rows, List.map_map]
          rfl
  have hinjective : Function.Injective (Except.ok : TransactionFields → Except BridgeError _) :=
    fun _ _ h => Except.ok.inj h
  apply List.map_injective_iff.mpr hinjective
  rw [List.map_map]
  exact hresult

/-- The assigned rows are the numbered ones. -/
theorem mem_assigned_iff (h : assignTransactionIds host rows = .ok result)
    {row : LedgerTransaction} : row ∈ result ↔
      ∃ entry ∈ rows.zipIdx, numberedRow host rows entry = .ok row := by
  have hinjective : Function.Injective (Except.ok : LedgerTransaction → Except BridgeError _) :=
    fun _ _ h => Except.ok.inj h
  rw [← List.mem_map_of_injective hinjective, ← assignTransactionIds_ok_iff.mp h, List.mem_map]

/-- The ids are the base ids with the numbers below their counts. -/
theorem mem_ids_iff (h : assignTransactionIds host rows = .ok result) {id : String} :
    id ∈ result.map LedgerTransaction.id ↔
      ∃ base, ∃ k < twinCount host rows base, id = ordinalId base (k + 1) := by
  constructor
  · intro hid
    obtain ⟨row, hrow, rfl⟩ := List.mem_map.mp hid
    obtain ⟨entry, hentry, hnumbered⟩ := (mem_assigned_iff h).mp hrow
    obtain ⟨-, base, hbase, hrowId⟩ := numberedRow_spec hnumbered
    exact ⟨base, _, earlierTwins_lt hentry hbase, hrowId⟩
  · rintro ⟨base, k, hk, rfl⟩
    obtain ⟨entry, hentry, hbase, rfl⟩ := exists_twin hk
    obtain ⟨row, hrow, hnumbered⟩ := exists_numbered h hentry
    obtain ⟨-, base', hbase', hid⟩ := numberedRow_spec hnumbered
    rw [hbase] at hbase'
    obtain rfl := Except.ok.inj hbase'
    exact List.mem_map.mpr ⟨row, hrow, hid⟩

/-- **No two rows get one id.** -/
theorem nodup_ids (hhash : HexDigests host) (h : assignTransactionIds host rows = .ok result) :
    (result.map LedgerTransaction.id).Nodup := by
  have hids : (result.map LedgerTransaction.id).map (Except.ok (ε := BridgeError)) =
      rows.zipIdx.map fun entry => (numberedRow host rows entry).map LedgerTransaction.id := by
    rw [List.map_map]
    change result.map ((Except.map LedgerTransaction.id) ∘ .ok) = _
    rw [← List.map_map, ← assignTransactionIds_ok_iff.mp h, List.map_map]
    rfl
  apply List.Nodup.of_map Except.ok
  rw [hids]
  have hplaces : rows.zipIdx.Nodup := by
    apply List.Nodup.of_map Prod.snd
    rw [List.zipIdx_map_snd]
    exact List.nodup_range'
  apply hplaces.map_on
  intro a ha b hb hsame
  obtain ⟨row, -, hrow⟩ := exists_numbered h ha
  obtain ⟨row', -, hrow'⟩ := exists_numbered h hb
  rw [hrow, hrow'] at hsame
  have hid : row.id = row'.id := Except.ok.inj hsame
  obtain ⟨-, base, hbase, hrowId⟩ := numberedRow_spec hrow
  obtain ⟨-, base', hbase', hrowId'⟩ := numberedRow_spec hrow'
  rw [hrowId, hrowId'] at hid
  obtain ⟨rfl, hnumber⟩ := ordinalId_base_inj hhash hbase hbase' hid
  exact twin_eq ha hb hbase hbase' hnumber

end

/-! ## Reordering -/

/-- The text of a day of the calendar. -/
def IsCalendarDate (date : IsoDate) : Prop := ∃ day : CivilDays.CivilDate, day.Valid ∧ day.text = date

/-- `localeCompare` tells calendar dates apart, and a date from the empty
text. -/
def CollatesDates (host : Host) : Prop :=
  ∀ a b : Option IsoDate, (∀ date ∈ a, IsCalendarDate date) → (∀ date ∈ b, IsCalendarDate date) →
    host.localeCompare (a.getD "") (b.getD "") = .eq → a = b

/-- No other row of the batch has both the base id and the charge date. -/
def UniqueLabel (host : Host) (rows : List TransactionFields) (row : TransactionFields) : Prop :=
  rows.countP (fun other => baseTransactionId host other = baseTransactionId host row &&
    other.chargeDate = row.chargeDate) = 1

section
variable {host : Host} {rows rows' : List TransactionFields}

/-- Counting rows at their places. -/
theorem countP_zipIdx (rows : List TransactionFields) (p : TransactionFields → Bool) :
    (rows.zipIdx.countP fun entry => p entry.1) = rows.countP p := by
  conv_rhs => rw [← List.zipIdx_map_fst 0 rows, List.countP_map]
  rfl

/-- Only one place of the batch has the base id and charge date of a unique
row. -/
theorem UniqueLabel.place_eq {a b : IndexedRow} (h : UniqueLabel host rows a.1)
    (ha : a ∈ rows.zipIdx) (hb : b ∈ rows.zipIdx)
    (hbase : baseTransactionId host b.1 = baseTransactionId host a.1)
    (hdate : b.1.chargeDate = a.1.chargeDate) : b = a := by
  unfold UniqueLabel at h
  rw [← countP_zipIdx, List.countP_eq_length_filter, List.length_eq_one_iff] at h
  obtain ⟨only, honly⟩ := h
  have hmem : ∀ c ∈ rows.zipIdx, baseTransactionId host c.1 = baseTransactionId host a.1 →
      c.1.chargeDate = a.1.chargeDate → c = only := by
    intro c hc hcbase hcdate
    apply List.mem_singleton.mp
    rw [← honly]
    exact List.mem_filter.mpr ⟨hc, by simp [hcbase, hcdate]⟩
  rw [hmem b hb hbase hdate, hmem a ha rfl rfl]

/-- **The number of a unique row** counts the rows with its base id and an
earlier charge date. -/
theorem earlierTwins_of_unique (hcollates : CollatesDates host)
    (hdates : ∀ row ∈ rows, ∀ date ∈ row.chargeDate, IsCalendarDate date) {entry : IndexedRow}
    (hentry : entry ∈ rows.zipIdx) (hunique : UniqueLabel host rows entry.1) :
    earlierTwins host rows entry = rows.countP fun other =>
      baseTransactionId host other = baseTransactionId host entry.1 &&
        (host.localeCompare (other.chargeDate.getD "") (entry.1.chargeDate.getD "")).isLT := by
  unfold earlierTwins earlier
  rw [← countP_zipIdx]
  apply List.countP_congr
  intro b hb
  simp only [Bool.and_eq_true, decide_eq_true_eq]
  refine and_congr_right fun hbase => ?_
  by_cases hdate : b.1.chargeDate = entry.1.chargeDate
  · obtain rfl := hunique.place_eq hentry hb hbase hdate
    have hself : precedes host b b = false := by
      cases hprecedes : precedes host b b with
      | false => rfl
      | true => exact hprecedes.symm.trans (precedes_asymm host b b hprecedes)
    have hequal : host.localeCompare (b.1.chargeDate.getD "") (b.1.chargeDate.getD "") = .eq :=
      Std.ReflCmp.compare_self
    rw [hself, hequal]
    rfl
  · have hne : host.localeCompare (b.1.chargeDate.getD "") (entry.1.chargeDate.getD "") ≠ .eq :=
      fun heq => hdate (hcollates _ _ (hdates _ (List.fst_mem_of_mem_zipIdx hb))
        (hdates _ (List.fst_mem_of_mem_zipIdx hentry)) heq)
    unfold precedes compareForOrdinals
    cases hcompare : host.localeCompare (b.1.chargeDate.getD "") (entry.1.chargeDate.getD "") with
    | lt => rfl
    | eq => exact absurd hcompare hne
    | gt => rfl

/-- The number of twins does not depend on the order. -/
theorem twinCount_perm (h : rows.Perm rows') (base : String) :
    twinCount host rows base = twinCount host rows' base := h.countP_eq _

/-- Neither does whether ids can be assigned. -/
theorem assigned_of_perm (h : rows.Perm rows')
    (hassigned : ∃ result, assignTransactionIds host rows = .ok result) :
    ∃ result, assignTransactionIds host rows' = .ok result := by
  obtain ⟨hbases, hfits⟩ := assigned_iff.mp hassigned
  refine assigned_iff.mpr ⟨fun row hrow => hbases row (h.mem_iff.mpr hrow), ?_⟩
  intro base k hk
  rw [← twinCount_perm h] at hk
  exact hfits base k hk

/-- A unique row of the one order is, with its id, a row of the other. -/
theorem mem_of_unique (hcollates : CollatesDates host) (hperm : rows.Perm rows')
    (hdates : ∀ row ∈ rows, ∀ date ∈ row.chargeDate, IsCalendarDate date)
    {result result' : List LedgerTransaction} (h : assignTransactionIds host rows = .ok result)
    (h' : assignTransactionIds host rows' = .ok result') {row : LedgerTransaction}
    (hrow : row ∈ result) (hunique : UniqueLabel host rows row.toTransactionFields) :
    row ∈ result' := by
  obtain ⟨entry, hentry, hnumbered⟩ := (mem_assigned_iff h).mp hrow
  obtain ⟨hfields, base, hbase, hid⟩ := numberedRow_spec hnumbered
  rw [hfields] at hunique
  have hmem : entry.1 ∈ rows' := hperm.mem_iff.mp (List.fst_mem_of_mem_zipIdx hentry)
  obtain ⟨place, hplace, hget⟩ := List.getElem_of_mem hmem
  have hentry' : (entry.1, place) ∈ rows'.zipIdx := by
    rw [List.mem_zipIdx_iff_getElem?]
    exact List.getElem?_eq_some_iff.mpr ⟨hplace, hget⟩
  have hunique' : UniqueLabel host rows' entry.1 := by
    unfold UniqueLabel at hunique ⊢
    rw [← hperm.countP_eq, hunique]
  have hsame : earlierTwins host rows' (entry.1, place) = earlierTwins host rows entry := by
    rw [earlierTwins_of_unique hcollates
        (fun other hother => hdates other (hperm.mem_iff.mpr hother)) hentry' hunique',
      earlierTwins_of_unique hcollates hdates hentry hunique]
    exact (hperm.countP_eq _).symm
  obtain ⟨row', hrow', hnumbered'⟩ := exists_numbered h' hentry'
  obtain ⟨hfields', base', hbase', hid'⟩ := numberedRow_spec hnumbered'
  rw [hbase] at hbase'
  obtain rfl := Except.ok.inj hbase'
  have heq : row = row' := by
    obtain ⟨fields, id⟩ := row
    obtain ⟨fields', id'⟩ := row'
    dsimp only at hfields hfields' hid hid'
    rw [hfields, hfields', hid, hid', hsame]
  rw [heq]
  exact hrow'

end

/-- Both orders are refused for the length of an id; or both keep the rows and
their order, and give the same pairwise distinct ids, each row that is told
apart by base id and charge date getting the same id. -/
def SameLabels (host : Host) (rows rows' : List TransactionFields) : Prop :=
  (∃ e e', assignTransactionIds host rows = .error e ∧ assignTransactionIds host rows' = .error e' ∧
      LengthError host rows e ∧ LengthError host rows' e') ∨
    ∃ result result', assignTransactionIds host rows = .ok result ∧
      assignTransactionIds host rows' = .ok result' ∧
      result.map LedgerTransaction.toTransactionFields = rows ∧
      result'.map LedgerTransaction.toTransactionFields = rows' ∧
      (result.map LedgerTransaction.id).Nodup ∧
      (result.map LedgerTransaction.id).Perm (result'.map LedgerTransaction.id) ∧
      ∀ row ∈ result, UniqueLabel host rows row.toTransactionFields → row ∈ result'

/-- Before every row whose texts cannot stand in an id comes, by charge date,
identifier and place, one whose id is over the limit. -/
def LengthFirst (host : Host) (rows : List TransactionFields) : Prop :=
  ∀ other ∈ rows.zipIdx, ¬ Encodable other.1 →
    ∃ entry ∈ rows.zipIdx, OverLimit host rows entry ∧ precedes host entry other = true

section
variable {host : Host} {rows rows' : List TransactionFields}

/-- What comes before an entry of the order stands before it. -/
theorem mem_before {done rest : List IndexedRow} {entry other : IndexedRow}
    (hsplit : ordered host rows = done ++ entry :: rest) (hother : other ∈ rows.zipIdx)
    (h : precedes host other entry = true) : other ∈ done := by
  have hsorted := ordered_pairwise host rows
  rw [← (ordered_perm host rows).mem_iff, hsplit] at hother
  rw [hsplit, List.pairwise_append] at hsorted
  have hbehind := (List.pairwise_cons.mp hsorted.2.1).1
  rcases List.mem_append.mp hother with hdone | hrest
  · exact hdone
  · rcases List.mem_cons.mp hrest with rfl | hrest
    · rw [precedes_asymm host other other h] at h
      cases h
    · have hlater := hbehind other hrest
      rw [precedes_asymm host other entry h] at hlater
      cases hlater

/-- **A refused batch** is refused for a length exactly when an id over the
limit comes before every row whose texts cannot stand in an id. -/
theorem lengthError_iff (hhash : HexDigests host) {e : BridgeError}
    (h : assignTransactionIds host rows = .error e) :
    LengthError host rows e ↔ LengthFirst host rows := by
  obtain ⟨done, entry, rest, hfirst⟩ := assignTransactionIds_error h
  constructor
  · rintro ⟨-, -, -, text, -, -, hlength⟩
    have hencodable : Encodable entry.1 := by
      by_contra hnot
      have hrefused := hfirst.refused
      unfold numberedRow at hrefused
      rcases baseTransactionId_of_not_encodable hnot with hbase | hbase
      · rw [hbase, hlength] at hrefused
        cases hrefused
      · rw [hbase, hlength] at hrefused
        cases hrefused
    have hover : OverLimit host rows entry := by
      by_contra hwithin
      obtain ⟨row, hrow⟩ := (numberedRow_ok_iff_within hhash).mpr ⟨hencodable, hwithin⟩
      rw [hfirst.refused] at hrow
      cases hrow
    intro other hother hnot
    refine ⟨entry, hfirst.mem, hover, ?_⟩
    have hsorted := ordered_pairwise host rows
    rw [hfirst.split, List.pairwise_append] at hsorted
    rw [← (ordered_perm host rows).mem_iff, hfirst.split] at hother
    rcases List.mem_append.mp hother with hdone | hrest
    · exact absurd ((numberedRow_ok_iff_within hhash).mp (hfirst.accepted other hdone)).1 hnot
    · rcases List.mem_cons.mp hrest with rfl | hrest
      · exact absurd hencodable hnot
      · exact (List.pairwise_cons.mp hsorted.2.1).1 other hrest
  · intro hlengths
    have hencodable : Encodable entry.1 := by
      by_contra hnot
      obtain ⟨long, hlong, hover, hbefore⟩ := hlengths entry hfirst.mem hnot
      have haccepted := hfirst.accepted long (mem_before hfirst.split hlong hbefore)
      exact ((numberedRow_ok_iff_within hhash).mp haccepted).2 hover
    exact ⟨entry, hfirst.mem, hencodable, refused_for_length hhash hencodable hfirst.refused⟩

/-- The rows of an accepted batch have texts that can stand in an id. -/
theorem lengthFirst_of_assigned {result : List LedgerTransaction}
    (h : assignTransactionIds host rows = .ok result) : LengthFirst host rows := by
  intro other hother hnot
  obtain ⟨row, -, hrow⟩ := exists_numbered h hother
  obtain ⟨base, hbase, -⟩ := numberedRow_ok_iff.mp ⟨row, hrow⟩
  exact absurd (encodable_of_base hbase) hnot

end

/-- **Reordering a batch** gives the same labels exactly when, in both orders,
an id over the limit comes before every row whose texts cannot stand in an id. -/
theorem assignTransactionIds_perm_iff (host : Host) (hhash : HexDigests host)
    (hcollates : CollatesDates host) (rows rows' : List TransactionFields) (hperm : rows.Perm rows')
    (hdates : ∀ row ∈ rows, ∀ date ∈ row.chargeDate, IsCalendarDate date) :
    SameLabels host rows rows' ↔ LengthFirst host rows ∧ LengthFirst host rows' := by
  unfold SameLabels
  cases h : assignTransactionIds host rows with
  | error e =>
      cases h' : assignTransactionIds host rows' with
      | error e' =>
          rw [← lengthError_iff hhash h, ← lengthError_iff hhash h']
          constructor
          · rintro (⟨e₁, e₂, hsame, hsame', hlength, hlength'⟩ | ⟨result, -, hresult, -⟩)
            · rw [Except.error.inj hsame, Except.error.inj hsame']
              exact ⟨hlength, hlength'⟩
            · cases hresult
          · intro hlengths
            exact .inl ⟨e, e', rfl, rfl, hlengths⟩
      | ok result' =>
          obtain ⟨result, hresult⟩ := assigned_of_perm hperm.symm ⟨result', h'⟩
          rw [h] at hresult
          cases hresult
  | ok result =>
      obtain ⟨result', h'⟩ := assigned_of_perm hperm ⟨result, h⟩
      refine iff_of_true (.inr ⟨result, result', rfl, h', fields_of_assigned h,
        fields_of_assigned h', nodup_ids hhash h, ?_, fun row hrow hunique =>
          mem_of_unique hcollates hperm hdates h h' hrow hunique⟩)
        ⟨lengthFirst_of_assigned h, lengthFirst_of_assigned h'⟩
      rw [List.perm_ext_iff_of_nodup (nodup_ids hhash h) (nodup_ids hhash h')]
      intro id
      rw [mem_ids_iff h, mem_ids_iff h']
      simp only [twinCount_perm hperm]

/-- The example's hash is written in hexadecimal. -/
theorem hexDigests_digestHost : HexDigests digestHost := by
  intro text c hc
  change c ∈ (if text = "2026-01-05|-50.00|Bookshop|order 51|/" then
      "bd8f6bf7de6cebe3ea22e55eac334eebd8dc4bf3a544343a7623b7f63c308fbc"
    else if text = "2026-01-05|-50.00|Bookshop|order 52|/" then
      "ff494b5ffc4db0b470318378dca2b86ce41ca38a6905aeec3db5fe469300d13a"
    else "").toList at hc
  have hdigests : ("bd8f6bf7de6cebe3ea22e55eac334eebd8dc4bf3a544343a7623b7f63c308fbc".toList.all
      isHashChar && "ff494b5ffc4db0b470318378dca2b86ce41ca38a6905aeec3db5fe469300d13a".toList.all
      isHashChar) = true := by decide +kernel
  obtain ⟨hfirst, hsecond⟩ := Bool.and_eq_true_iff.mp hdigests
  by_cases hone : text = "2026-01-05|-50.00|Bookshop|order 51|/"
  · rw [if_pos hone] at hc
    exact List.all_eq_true.mp hfirst c hc
  · rw [if_neg hone] at hc
    by_cases htwo : text = "2026-01-05|-50.00|Bookshop|order 52|/"
    · rw [if_pos htwo] at hc
      exact List.all_eq_true.mp hsecond c hc
    · rw [if_neg htwo] at hc
      cases hc

/-- Its collation tells dates apart. -/
theorem collatesDates_digestHost : CollatesDates digestHost := by
  intro a b ha hb hcompare
  have hordinary : compare (α := String) (a.getD "") (b.getD "") = .eq := hcompare
  have htext : a.getD "" = b.getD "" := Std.LawfulEqOrd.eq_of_compare hordinary
  have hne : ∀ date, IsCalendarDate date → date ≠ "" := by
    rintro date ⟨day, hday, rfl⟩ hempty
    have hlength := congrArg (fun text : String => text.toList.length) hempty
    unfold CivilDays.CivilDate.text CivilDays.CivilDate.chars at hlength
    rw [String.toList_ofList] at hlength
    simp at hlength
  cases a with
  | none =>
      cases b with
      | none => rfl
      | some date => exact absurd htext.symm (hne date (hb date rfl))
  | some date =>
      cases b with
      | none => exact absurd htext (hne date (ha date rfl))
      | some date' => exact congrArg some htext

/-- Its rows can be named. -/
theorem encodable_transferRow (description memo : JsText) :
    Encodable (transferRow description memo) where
  company := show isPrintableAscii "visaCal" = true by decide +kernel
  account := ⟨"1234", show accountNumberFromAccountId "visaCal:1234" = .ok "1234" by decide +kernel,
    by decide +kernel⟩
  identifier := by
    intro identifier h
    cases h

/-- Three transfers in two orders get the same labels. -/
theorem assignTransactionIds_perm_orders :
    SameLabels digestHost
      [transferRow "Bookshop" "order 51", transferRow "Bookshop" "order 51",
        transferRow "Bookshop" "order 52"]
      [transferRow "Bookshop" "order 52", transferRow "Bookshop" "order 51",
        transferRow "Bookshop" "order 51"] := by
  have hencodable : ∀ rows : List TransactionFields,
      (∀ row ∈ rows, row = transferRow "Bookshop" "order 51" ∨
        row = transferRow "Bookshop" "order 52") → LengthFirst digestHost rows := by
    intro rows hrows other hother hnot
    rcases hrows other.1 (List.fst_mem_of_mem_zipIdx hother) with hrow | hrow
    · rw [hrow] at hnot
      exact absurd (encodable_transferRow _ _) hnot
    · rw [hrow] at hnot
      exact absurd (encodable_transferRow _ _) hnot
  refine (assignTransactionIds_perm_iff digestHost hexDigests_digestHost collatesDates_digestHost
    _ _ (by decide +kernel) ?_).mpr ⟨hencodable _ ?_, hencodable _ ?_⟩
  · intro row hrow date hdate
    simp only [List.mem_cons, List.not_mem_nil, or_false] at hrow
    rcases hrow with rfl | rfl | rfl <;> cases hdate
  · intro row hrow
    simp only [List.mem_cons, List.not_mem_nil, or_false] at hrow
    rcases hrow with rfl | rfl | rfl
    · exact .inl rfl
    · exact .inl rfl
    · exact .inr rfl
  · intro row hrow
    simp only [List.mem_cons, List.not_mem_nil, or_false] at hrow
    rcases hrow with rfl | rfl | rfl
    · exact .inr rfl
    · exact .inl rfl
    · exact .inl rfl

/-- A transfer whose reference has an emoji. -/
def emojiTransfer : TransactionFields :=
  { transferRow "Bookshop" "order 51" with identifier := some "51😀" }

/-- Such a row is refused in every order, and not for the length of an id. -/
theorem emoji_reference_refused :
    assignTransactionIds digestHost [emojiTransfer] = .error .malformedUri ∧
      ¬ SameLabels digestHost [emojiTransfer] [emojiTransfer] := by
  have hrefused : assignTransactionIds digestHost [emojiTransfer] = .error .malformedUri := by
    decide +kernel
  refine ⟨hrefused, ?_⟩
  rintro (⟨e, e', herror, -, hlength, -⟩ | ⟨result, -, hresult, -⟩)
  · rw [hrefused] at herror
    obtain rfl := Except.error.inj herror
    obtain ⟨-, -, -, text, -, -, htext⟩ := hlength
    cases htext
  · rw [hrefused] at hresult
    cases hresult

end SimplefinBridge
