import SimplefinBridge.ArchiveInstallments
import SimplefinBridge.Dates

/-!
# Dates of the feed

`posted` is 12:00 UTC of the transaction's calendar date, and the bounds of a
window are mapped back onto calendar dates with the same convention.  The
transaction's date is the one its source evidence shows, else the frozen
booked date.
-/

namespace SimplefinBridge

open CivilDays

/-! ## Calendar dates and epochs -/

/-- 12:00 UTC of 9999-12-31. -/
def maxEpochSeconds : Nat := 253402257600

/-- Epoch seconds as a query accepts them. -/
abbrev Epoch := { seconds : Nat // seconds ≤ maxEpochSeconds }

def secondsPerDay : Int := 86400

def noonOffset : Int := 43200

/-- `Date.UTC(…, 12) / 1000` of a day; `none` is `NaN`. -/
def noonOfDay (day : Int) : Option Int :=
  if |day * 86400000 + 43200000| ≤ 8640000000000000 then some (day * secondsPerDay + noonOffset)
  else none

/-- A part of a split date: `parts[i] ?? missing`. -/
def datePart (parts : List (Option ℚ)) (i : Nat) (missing : ℚ) : Option ℚ :=
  (parts[i]?).getD (some missing)

/-- Epoch seconds of 12:00 UTC on a calendar date. -/
def calendarDateToPostedEpoch (host : Host) (date : IsoDate) : Option Int := do
  let parts := dateParts host date
  let year ← datePart parts 0 1970
  let month ← datePart parts 1 1
  let day ← datePart parts 2 1
  noonOfDay (dateUtcDay year (month - 1) day)

/-- The first day whose noon is at or after the epoch:
`Math.ceil((epochSeconds - noonOffset) / secondsPerDay)`. -/
def windowDay (epoch : Epoch) : Int := -((noonOffset - epoch.val) / secondsPerDay)

/-- Earliest calendar date whose posted epoch is at or after the epoch. -/
def windowStartDate (epoch : Epoch) : IsoDate :=
  String.ofList ((isoDatePart (windowDay epoch)).take 10)

/-- As an exclusive upper bound it excludes exactly the dates posted at or
after the end. -/
def windowEndDate (epoch : Epoch) : IsoDate := windowStartDate epoch

/-- Epoch seconds of an instant. -/
def toEpochSeconds (instant : Instant) : Int := instant / 1000

/-- An accepted epoch never makes `toISOString` throw. -/
theorem dayIndexToDate_windowDay (epoch : Epoch) :
    dayIndexToDate (windowDay epoch) = .ok (windowStartDate epoch) := by
  obtain ⟨seconds, hseconds⟩ := epoch
  unfold maxEpochSeconds at hseconds
  unfold dayIndexToDate windowStartDate windowDay noonOffset secondsPerDay
  rw [if_pos]
  rw [abs_le]
  constructor
  · dsimp only
    omega
  · dsimp only
    omega

/-! ## Transaction dates -/

inductive TransactionDateKind
  | purchase | installment_occurrence | archive_purchase_or_occurrence
  deriving DecidableEq, Repr

structure TransactionDate where
  date : IsoDate
  kind : Option TransactionDateKind
  chargeDate : Option IsoDate
  deriving DecidableEq, Repr

section
variable (host : Host)

/-- The calendar date of a source timestamp. -/
def sourceDate (value : Option Json) (timezone : String) : Option IsoDate :=
  occurrenceDate host value timezone

/-- The charge date the evidence shows. -/
def evidencedChargeDate (row : LedgerTransaction) (timezone : String) : Option IsoDate :=
  (sourceDate host (row.raw.field "processedDate") timezone).or <|
    match (row.raw.field "archiveMigration").filter (·.object.isSome) with
    | some migration =>
        if migration.field "dateBasis" = some (.str "source_processed_date") then
          sourceDate host ((migration.field "sourceRecord").bind (·.field "booked_date")) timezone
        else none
    | none => row.chargeDate

/-- Recover presentation dates from retained evidence without changing frozen
ledger dates or ids. -/
def transactionDate (row : LedgerTransaction) (timezone : String) (creditCard : Bool) :
    TransactionDate :=
  if !creditCard || row.synthetic then ⟨row.bookedDate, none, row.chargeDate⟩
  else
    let chargeDate := evidencedChargeDate host row timezone
    match sourceDate host (row.raw.field "date") timezone with
    | some purchase =>
        let installment :=
          Json.asNumber ((row.raw.field "installments").bind (·.field "number"))
        let shifted := row.company = "visaCal" && installment.any (1 < ·)
        ⟨purchase, some (if shifted then .installment_occurrence else .purchase), chargeDate⟩
    | none =>
        let migration := row.raw.field "archiveMigration"
        match sourceDate host (migration.bind (·.field "purchaseOrEventDate")) timezone with
        | some archived => ⟨archived, some .archive_purchase_or_occurrence, chargeDate⟩
        | none => ⟨row.bookedDate, none, chargeDate⟩

end

end SimplefinBridge
