import SimplefinBridge.AccessUrl
import SimplefinBridge.Library.Separators
import SimplefinBridge.PaymentsInStep

/-!
# Reading ids back

An id joins percent-encoded segments with colons.  The encoding refuses a
character outside the basic plane (`encodeSegment_eq`) and is otherwise undone
by `decodeURIComponent`, so an account id gives the account number back.  A
transaction id determines its parts, except that the text `-` is both an
identifier and the mark of a missing one (`transactionId_eq_iff`).
-/

namespace SimplefinBridge

open Separators Transactional

/-! ## Segments -/

/-- A character of the basic plane: one UTF-16 unit. -/
def isBasicChar (c : Char) : Bool := c.val < 0x10000

/-- Letters and digits, by their code. -/
theorem isAlphanum_eq (c : Char) : c.isAlphanum =
    ((decide (c.val ≥ 'A'.val ∧ c.val ≤ 'Z'.val) || c.val ≥ 'a'.val && c.val ≤ 'z'.val) ||
      c.val ≥ '0'.val && c.val ≤ '9'.val) := rfl

/-- What a segment may hold needs no escape. -/
theorem isUriUnreserved_of_segment {c : Char} (h : isSegmentChar c = true) :
    isUriUnreserved c = true := by
  unfold isSegmentChar at h
  unfold isUriUnreserved
  simp only [Bool.or_eq_true, decide_eq_true_eq, List.mem_cons, List.not_mem_nil, or_false] at h ⊢
  rcases h with h | rfl | rfl | rfl <;> simp_all

/-- It is of the basic plane. -/
theorem isBasicChar_of_segment {c : Char} (h : isSegmentChar c = true) : isBasicChar c = true := by
  unfold isSegmentChar at h
  unfold isBasicChar
  simp only [Bool.or_eq_true, decide_eq_true_eq, List.mem_cons, List.not_mem_nil, or_false] at h
  rcases h with h | rfl | rfl | rfl
  · simp only [isAlphanum_eq, Bool.or_eq_true, Bool.and_eq_true, decide_eq_true_eq] at h
    simp only [decide_eq_true_eq, UInt32.lt_iff_toNat_lt]
    rcases h with (⟨-, h⟩ | ⟨-, h⟩) | ⟨-, h⟩ <;>
      · have hbound := UInt32.le_iff_toNat_le.mp h
        refine Nat.lt_of_le_of_lt hbound ?_
        decide
  all_goals decide

/-- One character of a segment. -/
def encodedPiece (c : Char) : Except BridgeError (List Char) :=
  if isSegmentChar c then .ok [c]
  else if c.val ≥ 0x10000 then .error .malformedUri
  else .ok (encodeURIComponent c.toString).toList

/-- One unit is encoded, unless it is half of a pair. -/
theorem encodedPiece_eq (c : Char) :
    encodedPiece c = if isBasicChar c then .ok (encodeURIComponent c.toString).toList
      else .error .malformedUri := by
  unfold encodedPiece
  by_cases hsegment : isSegmentChar c = true
  · have hplain : encodeURIComponent c.toString = String.ofList [c] := by
      unfold encodeURIComponent
      simp [isUriUnreserved_of_segment hsegment]
    rw [if_pos hsegment, if_pos (isBasicChar_of_segment hsegment), hplain, String.toList_ofList]
  · rw [if_neg hsegment]
    by_cases hbasic : isBasicChar c = true
    · have hlt : c.val < 0x10000 := of_decide_eq_true hbasic
      rw [if_neg (UInt32.not_le.mpr hlt), if_pos hbasic]
    · have hge : c.val ≥ 0x10000 := by
        apply UInt32.not_lt.mp
        intro hlt
        exact hbasic (decide_eq_true hlt)
      rw [if_pos hge, if_neg hbasic]

/-- So is a text, unless it has such halves. -/
theorem mapM_encodedPiece (chars : List Char) :
    chars.mapM encodedPiece = if chars.all isBasicChar then
        .ok (chars.map fun c => (encodeURIComponent c.toString).toList)
      else .error .malformedUri := by
  induction chars with
  | nil => rfl
  | cons c chars ih =>
      rw [List.mapM_cons, ih, encodedPiece_eq, List.all_cons]
      by_cases hbasic : isBasicChar c = true
      · rw [if_pos hbasic, hbasic, Bool.true_and]
        by_cases hall : chars.all isBasicChar = true
        · rw [if_pos hall, if_pos hall]
          rfl
        · rw [if_neg hall, if_neg hall]
          rfl
      · rw [if_neg hbasic, Bool.eq_false_iff.mpr hbasic, Bool.false_and]
        rfl

/-- **A segment** is the percent-encoded text; characters outside the basic
plane are refused. -/
theorem encodeSegment_eq (value : String) :
    encodeSegment value = if value.toList.all isBasicChar then .ok (encodeURIComponent value)
      else .error .malformedUri := by
  unfold encodeSegment
  change value.toList.mapM encodedPiece >>= _ = _
  rw [mapM_encodedPiece]
  by_cases hall : value.toList.all isBasicChar = true
  · rw [if_pos hall, if_pos hall]
    have hpieces : (value.toList.map fun c => (encodeURIComponent c.toString).toList).flatten =
        (encodeURIComponent value).toList := by
      unfold encodeURIComponent
      rw [String.toList_ofList, ← List.flatMap_def]
      refine congrArg value.toList.flatMap (funext fun c => ?_)
      simp
    change Except.ok (String.ofList _) = _
    rw [hpieces, String.ofList_toList]
  · rw [if_neg hall, if_neg hall]
    rfl

/-- A segment is the encoded text. -/
theorem encodeSegment_ok {value segment : String} (h : encodeSegment value = .ok segment) :
    segment = encodeURIComponent value := by
  rw [encodeSegment_eq] at h
  split_ifs at h
  exact (Except.ok.inj h).symm

/-- **Different texts are encoded differently.** -/
theorem encodeURIComponent_injective : Function.Injective encodeURIComponent := by
  intro a b h
  have hdecoded := congrArg decodeURIComponent h
  rw [decodeURIComponent_encode, decodeURIComponent_encode] at hdecoded
  exact Except.ok.inj hdecoded

/-! ## Ids -/

/-- A printable character. -/
def isPrintableChar (c : Char) : Bool := 0x20 ≤ c.val && c.val ≤ 0x7E

/-- Encoded texts can be printed. -/
theorem isPrintableChar_of_encoded {c : Char} (h : isEncodedChar c = true) :
    isPrintableChar c = true := by
  unfold isEncodedChar isUriUnreserved at h
  unfold isPrintableChar
  simp only [Bool.or_eq_true, decide_eq_true_eq, List.mem_cons, List.not_mem_nil, or_false] at h
  rcases h with (h | hmark) | rfl
  · simp only [isAlphanum_eq, Bool.or_eq_true, Bool.and_eq_true, decide_eq_true_eq,
      UInt32.le_iff_toNat_le, ge_iff_le] at h
    simp only [Bool.and_eq_true, decide_eq_true_eq, UInt32.le_iff_toNat_le]
    have hA : 'A'.val.toNat = 65 := rfl
    have hZ : 'Z'.val.toNat = 90 := rfl
    have ha : 'a'.val.toNat = 97 := rfl
    have hz : 'z'.val.toNat = 122 := rfl
    have h0 : '0'.val.toNat = 48 := rfl
    have h9 : '9'.val.toNat = 57 := rfl
    have hlow : UInt32.toNat 0x20 = 32 := rfl
    have hhigh : UInt32.toNat 0x7E = 126 := rfl
    omega
  · rcases hmark with rfl | rfl | rfl | rfl | rfl | rfl | rfl | rfl | rfl <;> decide
  · decide

/-- Printable texts, character by character. -/
theorem isPrintableAscii_eq (value : String) :
    isPrintableAscii value = value.toList.all isPrintableChar := rfl

/-- Two printable texts. -/
@[simp] theorem isPrintableAscii_append (a b : String) :
    isPrintableAscii (a ++ b) = (isPrintableAscii a && isPrintableAscii b) := by
  rw [isPrintableAscii_eq, String.toList_append, List.all_append]
  rfl

/-- An encoded text can be printed. -/
theorem isPrintableAscii_encode (text : String) : isPrintableAscii (encodeURIComponent text) = true := by
  rw [isPrintableAscii_eq, List.all_eq_true]
  intro c hc
  exact isPrintableChar_of_encoded (mem_encodeURIComponent hc)

/-- An id that can be printed is refused for its length only. -/
theorem assertId_of_printable {id : String} (hne : id ≠ "") (h : isPrintableAscii id = true) :
    assertId id = if jsLength id > maxIdLength then .error (.idTooLong (jsLength id)) else .ok id := by
  unfold assertId
  rw [if_neg]
  simp [hne, h]

/-- An id that passes is printable and short. -/
theorem assertId_ok {id text : String} (h : assertId id = .ok text) :
    text = id ∧ isPrintableAscii id = true ∧ jsLength id ≤ maxIdLength := by
  unfold assertId at h
  split_ifs at h with hascii hlength
  simp only [Bool.or_eq_true, Bool.not_eq_true', not_or, decide_eq_true_eq, Bool.not_eq_false] at hascii
  exact ⟨(Except.ok.inj h).symm, hascii.2, Nat.le_of_not_lt hlength⟩

/-- The company names of the scraper library: letters and digits. -/
def isCompanyId (company : CompanyId) : Bool := company ≠ "" && company.toList.all Char.isAlphanum

/-- The name of a company is of letters and digits. -/
theorem not_mem_companyId {company : CompanyId} (h : isCompanyId company = true) {c : Char}
    (hc : c.isAlphanum = false) : c ∉ company.toList := by
  intro hmem
  rw [List.all_eq_true.mp (Bool.and_eq_true_iff.mp h).2 c hmem] at hc
  cases hc

/-- It can be printed. -/
theorem isPrintableAscii_companyId {company : CompanyId} (h : isCompanyId company = true) :
    isPrintableAscii company = true := by
  rw [isPrintableAscii_eq, List.all_eq_true]
  intro c hc
  apply isPrintableChar_of_encoded
  unfold isEncodedChar isUriUnreserved
  rw [List.all_eq_true.mp (Bool.and_eq_true_iff.mp h).2 c hc]
  rfl

/-- The account id of an account number that is not refused. -/
def accountText (company : CompanyId) (accountNumber : String) : String :=
  company ++ ":" ++ encodeURIComponent (jsTrim accountNumber)

/-- The characters of an account id. -/
theorem toList_accountText (company : CompanyId) (accountNumber : String) :
    (accountText company accountNumber).toList =
      company.toList ++ ':' :: (encodeURIComponent (jsTrim accountNumber)).toList := by
  unfold accountText
  simp [String.toList_append]

/-- **When an account has an id**, and which. -/
theorem accountId_eq {company : CompanyId} (hcompany : isCompanyId company = true)
    (accountNumber : String) :
    accountId company accountNumber = if (jsTrim accountNumber).toList.all isBasicChar then
        if jsLength (accountText company accountNumber) > maxIdLength then
          .error (.idTooLong (jsLength (accountText company accountNumber)))
        else .ok (accountText company accountNumber)
      else .error .malformedUri := by
  unfold accountId
  rw [encodeSegment_eq]
  by_cases hbasic : (jsTrim accountNumber).toList.all isBasicChar = true
  · rw [if_pos hbasic, if_pos hbasic]
    have hne : accountText company accountNumber ≠ "" := by
      intro hempty
      have hlist := toList_accountText company accountNumber
      rw [hempty] at hlist
      have hlength := congrArg List.length hlist
      rw [List.length_append, List.length_cons] at hlength
      simp at hlength
    refine assertId_of_printable hne ?_
    rw [isPrintableAscii_append, isPrintableAscii_append, isPrintableAscii_companyId hcompany,
      isPrintableAscii_encode]
    rfl
  · rw [if_neg hbasic, if_neg hbasic]
    rfl

/-- It is the text that names the account. -/
theorem accountId_ok {company : CompanyId} {accountNumber id : String}
    (h : accountId company accountNumber = .ok id) : id = accountText company accountNumber := by
  unfold accountId at h
  obtain ⟨segment, hsegment, hid⟩ := except_bind_ok.mp h
  rw [(assertId_ok hid).1, encodeSegment_ok hsegment]
  rfl

/-- Decoding an account id. -/
theorem accountNumberFromAccountId_text {company : CompanyId} (hcompany : isCompanyId company = true)
    (accountNumber : String) :
    accountNumberFromAccountId (accountText company accountNumber) = .ok (jsTrim accountNumber) := by
  unfold accountNumberFromAccountId
  rw [toList_accountText, dropWhile_append_sep (not_mem_companyId hcompany rfl)]
  change decodeURIComponent (String.ofList (String.toList _)) = _
  rw [String.ofList_toList, decodeURIComponent_encode]

/-- The account id is refused for its length, or it is printable and gives the
trimmed account number back. -/
def AccountIdLossless (company : CompanyId) (accountNumber : String) : Prop :=
  (∃ length > maxIdLength, accountId company accountNumber = .error (.idTooLong length)) ∨
    ∃ id, accountId company accountNumber = .ok id ∧
      accountNumberFromAccountId id = .ok (jsTrim accountNumber) ∧
      isPrintableAscii id = true ∧ jsLength id ≤ maxIdLength

/-- An account id gives its number back where one can be made. -/
theorem accountIdLossless_iff {company : CompanyId} (hcompany : isCompanyId company = true)
    (accountNumber : String) :
    AccountIdLossless company accountNumber ↔
      (jsTrim accountNumber).toList.all isBasicChar = true := by
  unfold AccountIdLossless
  constructor
  · intro h
    by_contra hbasic
    rw [accountId_eq hcompany, if_neg hbasic] at h
    rcases h with ⟨length, -, herror⟩ | ⟨id, hid, -⟩
    · cases herror
    · cases hid
  · intro hbasic
    have hid := accountId_eq hcompany accountNumber
    rw [if_pos hbasic] at hid
    by_cases hlength : jsLength (accountText company accountNumber) > maxIdLength
    · rw [if_pos hlength] at hid
      exact .inl ⟨_, hlength, hid⟩
    · rw [if_neg hlength] at hid
      have hasserted := hid
      unfold accountId at hasserted
      obtain ⟨segment, -, hassert⟩ := except_bind_ok.mp hasserted
      obtain ⟨hsame, hprintable, -⟩ := assertId_ok hassert
      rw [← hsame] at hprintable
      exact .inr ⟨_, hid, accountNumberFromAccountId_text hcompany accountNumber, hprintable,
        Nat.le_of_not_lt hlength⟩

/-! ## Transaction ids -/

/-- The hexadecimal digits of a fingerprint. -/
def isFingerprint (fingerprint : String) : Bool := fingerprint.toList.all isHashChar

/-- What a transaction id is made of. -/
structure TransactionIdParts where
  company : CompanyId
  accountNumber : String
  identifier : Option String
  fingerprint : String
  ordinal : Option Nat

namespace TransactionIdParts

/-- The id that the parts make. -/
def id (parts : TransactionIdParts) : Except BridgeError String :=
  transactionId parts.company parts.accountNumber parts.identifier parts.fingerprint parts.ordinal

/-- A company of the scraper library and a fingerprint in hexadecimal. -/
def wellFormed (parts : TransactionIdParts) : Bool :=
  isCompanyId parts.company && isFingerprint parts.fingerprint

/-- The first row with a base id has no ordinal, or the ordinal 1. -/
def rank (parts : TransactionIdParts) : Nat := max 1 (parts.ordinal.getD 1)

/-- The same parts, up to the identifier. -/
def SameOwner (a b : TransactionIdParts) : Prop :=
  a.company = b.company ∧ jsTrim a.accountNumber = jsTrim b.accountNumber ∧
    a.fingerprint = b.fingerprint ∧ a.rank = b.rank

/-- The same parts: account numbers are trimmed, and a row without an ordinal
is the first. -/
def Same (a b : TransactionIdParts) : Prop := a.SameOwner b ∧ a.identifier = b.identifier

/-- One row has the identifier `-`, the other one none. -/
def DashForMissing (a b : TransactionIdParts) : Prop :=
  a.SameOwner b ∧ (a.identifier = none ∧ b.identifier = some "-" ∨
    a.identifier = some "-" ∧ b.identifier = none)

end TransactionIdParts

/-- The segment of an identifier that is not refused. -/
def identifierText (identifier : Option String) : String :=
  (identifier.map encodeURIComponent).getD "-"

/-- The segment of an identifier. -/
theorem identifierSegment_ok {identifier : Option String} {segment : String}
    (h : identifierSegment identifier = .ok segment) : segment = identifierText identifier := by
  cases identifier with
  | none => exact (Except.ok.inj h).symm
  | some identifier => exact encodeSegment_ok h

/-- A missing identifier is a dash. -/
theorem identifierSegment_dash : identifierSegment (some "-") = identifierSegment none := by
  decide +kernel

/-- Only `-` is spelled as a missing identifier. -/
theorem identifierText_eq_iff {a b : Option String} :
    identifierText a = identifierText b ↔
      a = b ∨ (a = none ∧ b = some "-" ∨ a = some "-" ∧ b = none) := by
  have hdash : encodeURIComponent "-" = "-" := by decide +kernel
  have hsome : ∀ identifier, encodeURIComponent identifier = "-" ↔ identifier = "-" := by
    intro identifier
    constructor
    · intro h
      rw [← hdash] at h
      exact encodeURIComponent_injective h
    · rintro rfl
      exact hdash
  cases a with
  | none =>
      cases b with
      | none => simp
      | some b =>
          simp only [identifierText, Option.map_none, Option.getD_none, Option.map_some,
            Option.getD_some, eq_comm (a := "-"), hsome]
          simp
  | some a =>
      cases b with
      | none =>
          simp only [identifierText, Option.map_none, Option.getD_none, Option.map_some,
            Option.getD_some, hsome]
          simp
      | some b =>
          simp only [identifierText, Option.map_some, Option.getD_some,
            encodeURIComponent_injective.eq_iff]
          simp

/-- A segment has no separator. -/
theorem colon_not_mem_identifierText (identifier : Option String) :
    ':' ∉ (identifierText identifier).toList := by
  cases identifier with
  | none => decide
  | some identifier => exact not_mem_encoded rfl

/-- The first of some twins has no number. -/
theorem ordinalSuffix_eq (parts : TransactionIdParts) :
    ordinalSuffix parts.ordinal = if parts.rank ≥ 2 then "#" ++ toString parts.rank else "" := by
  unfold TransactionIdParts.rank
  cases parts.ordinal with
  | none => rfl
  | some ordinal =>
      change (if ordinal ≥ 2 then _ else _) = _
      by_cases h : ordinal ≥ 2
      · have hmax : max 1 ordinal = ordinal := by omega
        rw [if_pos h, Option.getD_some, hmax, if_pos h]
      · rw [if_neg h, Option.getD_some, if_neg (by omega)]

/-- A fingerprint and its ordinal are read apart at the hash sign. -/
theorem fingerprint_suffix_inj {a b : String} {j k : Nat} (ha : isFingerprint a = true)
    (hb : isFingerprint b = true) (hj : 1 ≤ j) (hk : 1 ≤ k)
    (h : a ++ (if j ≥ 2 then "#" ++ toString j else "") =
      b ++ (if k ≥ 2 then "#" ++ toString k else "")) : a = b ∧ j = k := by
  have hhash : ∀ {text : String}, isFingerprint text = true → '#' ∉ text.toList := by
    intro text htext hmem
    have hchar := List.all_eq_true.mp htext _ hmem
    revert hchar
    decide
  have hlist : ∀ (text : String) (n : Nat), (text ++ ("#" ++ toString n)).toList =
      text.toList ++ '#' :: (toString n).toList := by
    intro text n
    simp [String.toList_append]
  have hlists := congrArg String.toList h
  by_cases htwo : j ≥ 2
  · by_cases htwo' : k ≥ 2
    · rw [if_pos htwo, if_pos htwo', hlist, hlist] at hlists
      obtain ⟨htext, hnumber⟩ := (first_field_inj (hhash ha) (hhash hb)).mp hlists
      exact ⟨String.toList_inj.mp htext, repr_injective (String.toList_inj.mp hnumber)⟩
    · rw [if_pos htwo, if_neg htwo', hlist, String.append_empty] at hlists
      refine absurd ?_ (hhash hb)
      rw [← hlists]
      exact List.mem_append_right _ List.mem_cons_self
  · by_cases htwo' : k ≥ 2
    · rw [if_neg htwo, if_pos htwo', hlist, String.append_empty] at hlists
      refine absurd ?_ (hhash ha)
      rw [hlists]
      exact List.mem_append_right _ List.mem_cons_self
    · rw [if_neg htwo, if_neg htwo', String.append_empty, String.append_empty] at hlists
      exact ⟨String.toList_inj.mp hlists, by omega⟩

/-- The transaction id of parts that are not refused. -/
def TransactionIdParts.text (parts : TransactionIdParts) : String :=
  accountText parts.company parts.accountNumber ++ ":" ++ identifierText parts.identifier ++ ":" ++
    parts.fingerprint ++ ordinalSuffix parts.ordinal

/-- A transaction's id is the text of its parts. -/
theorem TransactionIdParts.id_ok {parts : TransactionIdParts} {id : String}
    (h : parts.id = .ok id) : id = parts.text := by
  unfold TransactionIdParts.id transactionId at h
  obtain ⟨segment, hsegment, hrest⟩ := except_bind_ok.mp h
  obtain ⟨account, haccount, hid⟩ := except_bind_ok.mp hrest
  rw [(assertId_ok hid).1, identifierSegment_ok hsegment, accountId_ok haccount]
  rfl

/-- The characters of a transaction's id. -/
theorem TransactionIdParts.toList_text (parts : TransactionIdParts) :
    parts.text.toList = parts.company.toList ++ ':' ::
      ((encodeURIComponent (jsTrim parts.accountNumber)).toList ++ ':' ::
        ((identifierText parts.identifier).toList ++ ':' ::
          (parts.fingerprint ++ ordinalSuffix parts.ordinal).toList)) := by
  unfold TransactionIdParts.text
  rw [String.append_assoc, String.toList_append, String.toList_append, String.toList_append,
    String.toList_append, toList_accountText]
  have hcolon : ":".toList = [':'] := rfl
  simp [hcolon, List.append_assoc]

/-- **Reading a transaction id.**  Its text determines its parts, but for a
missing identifier and the identifier `-`. -/
theorem text_eq_iff {a b : TransactionIdParts} (ha : a.wellFormed = true) (hb : b.wellFormed = true) :
    a.text = b.text ↔ a.Same b ∨ a.DashForMissing b := by
  obtain ⟨hcompany, hfingerprint⟩ := Bool.and_eq_true_iff.mp ha
  obtain ⟨hcompany', hfingerprint'⟩ := Bool.and_eq_true_iff.mp hb
  have hsplit : a.text = b.text ↔ a.SameOwner b ∧
      identifierText a.identifier = identifierText b.identifier := by
    rw [← String.toList_inj, a.toList_text, b.toList_text,
      first_field_inj (not_mem_companyId hcompany rfl) (not_mem_companyId hcompany' rfl),
      first_field_inj (not_mem_encoded rfl) (not_mem_encoded rfl),
      first_field_inj (colon_not_mem_identifierText _) (colon_not_mem_identifierText _),
      String.toList_inj, String.toList_inj, String.toList_inj, String.toList_inj,
      encodeURIComponent_injective.eq_iff, ordinalSuffix_eq, ordinalSuffix_eq]
    constructor
    · rintro ⟨hsame, haccount, hsegment, htail⟩
      obtain ⟨hprint, hrank⟩ := fingerprint_suffix_inj hfingerprint hfingerprint'
        (Nat.le_max_left ..) (Nat.le_max_left ..) htail
      exact ⟨⟨hsame, haccount, hprint, hrank⟩, hsegment⟩
    · rintro ⟨⟨hsame, haccount, hprint, hrank⟩, hsegment⟩
      rw [hprint, hrank]
      exact ⟨hsame, haccount, hsegment, rfl⟩
  rw [hsplit, identifierText_eq_iff, and_or_left]
  rfl

/-- Parts with the same text are accepted and refused together. -/
theorem id_eq_of_related {a b : TransactionIdParts} (h : a.Same b ∨ a.DashForMissing b) :
    a.id = b.id := by
  have howner : a.SameOwner b := h.elim And.left And.left
  obtain ⟨hcompany, haccount, hfingerprint, hrank⟩ := howner
  have hsegment : identifierSegment a.identifier = identifierSegment b.identifier := by
    rcases h with ⟨-, hsame⟩ | ⟨-, ⟨hnone, hdash⟩ | ⟨hdash, hnone⟩⟩
    · rw [hsame]
    · rw [hnone, hdash, identifierSegment_dash]
    · rw [hnone, hdash, identifierSegment_dash]
  have haccountId : accountId a.company a.accountNumber = accountId b.company b.accountNumber := by
    unfold accountId
    rw [hcompany, haccount]
  unfold TransactionIdParts.id transactionId
  rw [hsegment, haccountId, hfingerprint, ordinalSuffix_eq, ordinalSuffix_eq, hrank]

/-- A transaction id does not end in a calendar date. -/
theorem not_isPaymentId_of_parts {parts : TransactionIdParts} (h : parts.wellFormed = true)
    {id : String} (hid : parts.id = .ok id) : ¬ IsPaymentId id := by
  intro hpayment
  have htail : ∀ c ∈ (parts.fingerprint ++ ordinalSuffix parts.ordinal).toList,
      c ≠ ':' ∧ c ≠ '-' := by
    intro c hc
    rw [String.toList_append] at hc
    rcases List.mem_append.mp hc with hc | hc
    · have hhex := List.all_eq_true.mp (Bool.and_eq_true_iff.mp h).2 c hc
      constructor <;> rintro rfl <;> revert hhex <;> decide
    · obtain ⟨suffix, hsuffix, hordinal⟩ := toList_ordinalId "" parts.rank
      have hshape : c = '#' ∨ c.isDigit = true := by
        apply hordinal
        rw [ordinalSuffix_eq] at hc
        unfold ordinalId at hsuffix
        by_cases htwo : parts.rank ≥ 2
        · rw [if_pos htwo] at hc hsuffix
          rw [String.empty_append] at hsuffix
          rw [hsuffix] at hc
          exact hc
        · rw [if_neg htwo] at hc
          cases hc
      constructor <;> rintro rfl <;> revert hshape <;> decide
  have hdate := hpayment.lastSegment
  have hsplit : id.toList = (accountText parts.company parts.accountNumber ++ ":" ++
      identifierText parts.identifier).toList ++ ':' ::
        (parts.fingerprint ++ ordinalSuffix parts.ordinal).toList := by
    rw [TransactionIdParts.id_ok hid]
    unfold TransactionIdParts.text
    simp [String.toList_append]
  rw [hsplit, lastSegment_append (fun hmem => (htail _ hmem).1 rfl)] at hdate
  unfold isDateText at hdate
  rw [String.toList_ofList] at hdate
  have hdash := of_decide_eq_true (Bool.and_eq_true_iff.mp hdate).2
  exact (htail _ hdash).2 rfl

/-- **Lossless ids.**  An account id gives its account number back exactly when
the number stays in the basic plane; accepted transaction ids determine their
parts exactly when the one does not have the identifier `-` where the other has
none; and no transaction id is a payment id. -/
theorem ids_lossless_iff (company accountNumber : String) :
    (isCompanyId company = true → (AccountIdLossless company accountNumber ↔
      (jsTrim accountNumber).toList.all isBasicChar = true)) ∧
    (∀ (a b : TransactionIdParts) (id : String), a.wellFormed = true → b.wellFormed = true →
      a.id = .ok id → ((b.id = .ok id → a.Same b) ↔ ¬ a.DashForMissing b)) ∧
    ∀ (parts : TransactionIdParts) (chargeDate : String),
      parts.wellFormed = true → isDateText chargeDate = true → ∀ id, parts.id = .ok id →
        syntheticPaymentId company accountNumber chargeDate ≠ .ok id := by
  refine ⟨fun hcompany => accountIdLossless_iff hcompany accountNumber, ?_, ?_⟩
  · intro a b id ha hb hid
    constructor
    · intro hsame hdash
      have hidentifier := (hsame (by rw [← id_eq_of_related (.inr hdash), hid])).2
      rcases hdash.2 with ⟨hnone, hsome⟩ | ⟨hsome, hnone⟩
      · rw [hnone, hsome] at hidentifier
        cases hidentifier
      · rw [hnone, hsome] at hidentifier
        cases hidentifier
    · intro hdash hid'
      have htext : a.text = b.text := by
        rw [← TransactionIdParts.id_ok hid, ← TransactionIdParts.id_ok hid']
      exact ((text_eq_iff ha hb).mp htext).resolve_right hdash
  · intro parts chargeDate hparts hdate id hid hpayment
    exact not_isPaymentId_of_parts hparts hid ⟨company, accountNumber, chargeDate, hdate, hpayment⟩

/-- An account of Hebrew letters, and twins that a dash cannot mix up. -/
theorem ids_lossless_voucher :
    AccountIdLossless "leumi" "חשבון:1/2" ∧
      (TransactionIdParts.mk "max" "5678" (some "51") "abcdef0123456789" (some 2)).id ≠
        (TransactionIdParts.mk "max" "5678" none "abcdef0123456789" (some 2)).id ∧
      syntheticPaymentId "max" "5678" "2024-03-02" ≠
        .ok "max:5678:51:abcdef0123456789#2" := by
  refine ⟨((ids_lossless_iff "leumi" "חשבון:1/2").1 (by decide +kernel)).mpr (by decide +kernel),
    ?_, ?_⟩
  · have hid : (TransactionIdParts.mk "max" "5678" (some "51") "abcdef0123456789" (some 2)).id =
        .ok "max:5678:51:abcdef0123456789#2" := by decide +kernel
    intro hsame
    rw [hid] at hsame
    have hidentifier := (((ids_lossless_iff "max" "5678").2.1 _ _ _ (by decide +kernel)
      (by decide +kernel) hid).mpr
      (by rintro ⟨-, ⟨h, -⟩ | ⟨h, -⟩⟩ <;> revert h <;> decide) hsame.symm).2
    cases hidentifier
  · exact (ids_lossless_iff "max" "5678").2.2
      ⟨"max", "5678", some "51", "abcdef0123456789", some 2⟩ _ (by decide +kernel)
      (by decide +kernel) _ (by decide +kernel)

/-- An account named with an emoji, and two rows of one account that differ in
the identifier only. -/
theorem emoji_and_dash_break_ids :
    ¬ AccountIdLossless "visaCal" "Savings 😀" ∧
      ∃ id, (TransactionIdParts.mk "visaCal" "1234" none "abcdef0123456789" none).id = .ok id ∧
        (TransactionIdParts.mk "visaCal" "1234" (some "-") "abcdef0123456789" none).id = .ok id ∧
        normalizeIdentifier asciiHost (some (.str "-")) = some "-" := by
  constructor
  · rintro (⟨length, -, h⟩ | ⟨id, h, -⟩)
    · have herror : accountId "visaCal" "Savings 😀" = .error .malformedUri := by decide +kernel
      rw [herror] at h
      cases h
    · have herror : accountId "visaCal" "Savings 😀" = .error .malformedUri := by decide +kernel
      rw [herror] at h
      cases h
  · exact ⟨"visaCal:1234:-:abcdef0123456789", by decide +kernel, by decide +kernel, by decide +kernel⟩

end SimplefinBridge
