import SimplefinBridge.Dates
import Mathlib.Data.List.Sort

/-!
# The id scheme

Ids are built from percent-encoded segments, so that `:` and `#` separate.
Rows of one scrape with the same base id are told apart by an ordinal, the
rank of the row among them in a fixed order.
-/

namespace SimplefinBridge

/-- `MAX_ID_LENGTH` -/
def maxIdLength : Nat := 255

/-- `[\w\-.]` -/
def isSegmentChar (c : Char) : Bool := c.isAlphanum || c ∈ ['_', '-', '.']

/-- `encodeSegment`.  The expression replaces one UTF-16 unit at a time, so a
character outside the basic plane is encoded as two lone surrogates, which
`encodeURIComponent` refuses. -/
def encodeSegment (value : String) : Except BridgeError String := do
  let pieces ← value.toList.mapM fun c =>
    if isSegmentChar c then .ok [c]
    else if c.val ≥ 0x10000 then .error .malformedUri
    else .ok (encodeURIComponent c.toString).toList
  return String.ofList pieces.flatten

def isPrintableAscii (value : String) : Bool := value.toList.all fun c => 0x20 ≤ c.val && c.val ≤ 0x7E

def assertId (id : String) : Except BridgeError String :=
  if id = "" || !isPrintableAscii id then .error .idNotAscii
  else if jsLength id > maxIdLength then .error (.idTooLong (jsLength id))
  else .ok id

/-- `<company>:<accountNumber>` -/
def accountId (company : CompanyId) (accountNumber : String) : Except BridgeError String := do
  let segment ← encodeSegment (jsTrim accountNumber)
  assertId (company ++ ":" ++ segment)

/-! ## Decoding -/

def hexValue (c : Char) : Option Nat :=
  if c.isDigit then some (c.toNat - 48)
  else if 'a' ≤ c ∧ c ≤ 'f' then some (c.toNat - 87)
  else if 'A' ≤ c ∧ c ≤ 'F' then some (c.toNat - 55)
  else none

/-- The text as a list of escaped bytes and plain characters. -/
def escapedBytes : List Char → Option (List (Nat ⊕ Char))
  | '%' :: a :: b :: rest => do
      let high ← hexValue a
      let low ← hexValue b
      let rest ← escapedBytes rest
      return .inl (high * 16 + low) :: rest
  | '%' :: _ => none
  | c :: rest => (escapedBytes rest).map (.inr c :: ·)
  | [] => some []

/-- A UTF-8 sequence being read: bytes still missing, the code point so far
and the least one its length allows. -/
structure Sequence where
  missing : Nat
  code : Nat
  least : Nat

/-- The sequence a leading byte opens. -/
def openSequence (byte : Nat) : Option Sequence :=
  if byte < 0xC0 then none
  else if byte < 0xE0 then some ⟨1, byte - 0xC0, 0x80⟩
  else if byte < 0xF0 then some ⟨2, byte - 0xE0, 0x800⟩
  else if byte < 0xF8 then some ⟨3, byte - 0xF0, 0x10000⟩
  else none

/-- Decode the UTF-8 sequences among escaped bytes. -/
def decodeBytes : Option Sequence → List (Nat ⊕ Char) → Option (List Char)
  | none, [] => some []
  | none, .inr c :: rest => (decodeBytes none rest).map (c :: ·)
  | none, .inl byte :: rest =>
      if byte < 0x80 then (decodeBytes none rest).map (Char.ofNat byte :: ·)
      else match openSequence byte with
        | some sequence => decodeBytes (some sequence) rest
        | none => none
  | some sequence, .inl byte :: rest =>
      let code := sequence.code * 64 + (byte - 0x80)
      if byte < 0x80 ∨ 0xC0 ≤ byte then none
      else if 1 < sequence.missing then
        decodeBytes (some ⟨sequence.missing - 1, code, sequence.least⟩) rest
      else if sequence.least ≤ code ∧ code.isValidChar then
        (decodeBytes none rest).map (Char.ofNat code :: ·)
      else none
  | some _, _ => none

/-- `decodeURIComponent` -/
def decodeURIComponent (text : String) : Except BridgeError String :=
  match (escapedBytes text.toList).bind (decodeBytes none) with
  | some chars => .ok (String.ofList chars)
  | none => .error .malformedUri

/-- Inverse of `accountId`: the raw account number carried by an account id. -/
def accountNumberFromAccountId (id : String) : Except BridgeError String :=
  match id.toList.dropWhile (· ≠ ':') with
  | ':' :: rest => decodeURIComponent (String.ofList rest)
  | _ => decodeURIComponent id

/-! ## Transaction ids -/

section
variable (host : Host)

/-- The identifier as a trimmed text, or nothing when it is missing or
unusable. -/
def normalizeIdentifier (identifier : Option Json) : Option String :=
  match identifier with
  | some (.num x) => if x = 0 then none else some (host.numberToString x)
  | some (.str text) =>
      let trimmed := jsTrim text
      if trimmed.toList.all (· = '0') || "undefined".toList.isPrefixOf trimmed.toList then none
      else some trimmed
  | _ => none

/-- The number as a template literal prints it, or nothing. -/
def numberText (x : Option ℚ) : String := (x.map host.numberToString).getD ""

/-- `FINGERPRINT_LENGTH` -/
def fingerprintLength : Nat := 16

/-- `transactionFingerprint`: sixteen hexadecimal digits over the frozen row
fields.  What is hashed is the text as UTF-8 writes it. -/
def transactionFingerprint (row : TransactionFields) : String :=
  let material := JsText.join "|"
    [row.bookedDate, host.toFixed2 row.amount, row.description.trim,
      (row.memo.map JsText.trim).getD "",
      numberText host row.installmentNumber ++ "/" ++ numberText host row.installmentTotal]
  String.ofList ((host.sha256 material.toWellFormed).toList.take fingerprintLength)

/-- The id of the `ordinal`-th row with a base id. -/
def ordinalId (base : String) (ordinal : Nat) : String :=
  if ordinal ≥ 2 then base ++ "#" ++ toString ordinal else base

/-- The segment of an identifier, or `-`. -/
def identifierSegment (identifier : Option String) : Except BridgeError String :=
  match identifier with
  | none => .ok "-"
  | some identifier => encodeSegment identifier

def ordinalSuffix (ordinal : Option Nat) : String :=
  match ordinal with
  | some ordinal => if ordinal ≥ 2 then "#" ++ toString ordinal else ""
  | none => ""

/-- `<company>:<accountNumber>:<identifier|->:<fingerprint>[#ordinal]` -/
def transactionId (company : CompanyId) (accountNumber : String) (identifier : Option String)
    (fingerprint : String) (ordinal : Option Nat) : Except BridgeError String := do
  let segment ← identifierSegment identifier
  let account ← accountId company accountNumber
  assertId (account ++ ":" ++ segment ++ ":" ++ fingerprint ++ ordinalSuffix ordinal)

def baseTransactionId (row : TransactionFields) : Except BridgeError String := do
  let accountNumber ← accountNumberFromAccountId row.accountId
  transactionId row.company accountNumber row.identifier (transactionFingerprint host row) none

/-- A row with its place in the scrape. -/
abbrev IndexedRow := TransactionFields × Nat

/-- Stable order for ordinal assignment: charge date, identifier, then the
scraper's own order. -/
def compareForOrdinals (a b : IndexedRow) : Ordering :=
  (host.localeCompare (a.1.chargeDate.getD "") (b.1.chargeDate.getD "")).then
    ((host.localeCompare (a.1.identifier.getD "") (b.1.identifier.getD "")).then
      (compare a.2 b.2))

/-- The map of ordinals seen and the array of rows filled so far. -/
structure Assignment where
  seen : List (String × Nat)
  result : List (Option LedgerTransaction)

def assignId (assignment : Assignment) (entry : IndexedRow) : Except BridgeError Assignment := do
  let base ← baseTransactionId host entry.1
  let ordinal := (assignment.seen.lookup base).getD 0 + 1
  let id ← if ordinal ≥ 2 then assertId (ordinalId base ordinal) else .ok base
  return { seen := (base, ordinal) :: assignment.seen
           result := assignment.result.set entry.2 (some { entry.1 with id }) }

/-- Assign ids to a batch of rows from one scrape.  Rows that would collide
get ordinal suffixes in the order of `compareForOrdinals`; the result keeps
the input order. -/
def assignTransactionIds (rows : List TransactionFields) :
    Except BridgeError (List LedgerTransaction) := do
  let ordered := rows.zipIdx.insertionSort fun a b => (compareForOrdinals host a b).isLE
  let assignment ← ordered.foldlM (assignId host) ⟨[], List.replicate rows.length none⟩
  return assignment.result.reduceOption

/-- `<company>:<accountNumber>:payment:<chargeDate>` -/
def syntheticPaymentId (company : CompanyId) (accountNumber : String) (chargeDate : IsoDate) :
    Except BridgeError String := do
  assertId ((← accountId company accountNumber) ++ ":payment:" ++ chargeDate)

end

example : accountNumberFromAccountId "visaCal:%D7%90%3A12" = .ok "א:12" := by decide +kernel

end SimplefinBridge
