import SimplefinBridge.InvestmentSchema
import SimplefinBridge.JsValues
import SimplefinBridge.Library.Paging

/-!
# Pages of executions

The bank answers with pages of executions and an opaque cursor for the next
page.  `readExecutionPages` follows the cursors one after another, without
retries, until a page has no cursor, a cursor comes back or too many pages were
read.
-/

namespace SimplefinBridge

open Transactional (except_bind_ok)

/-- What the reader and the parser throw. -/
inductive HapoalimError
  | code (code : InvestmentErrorCode)
  | identifier (error : InvestmentError)
  /-- `signal.throwIfAborted()` -/
  | aborted
  /-- `toISOString` of an invalid date -/
  | rangeError
  /-- A value the schema does not accept. -/
  | schema
  deriving DecidableEq, Repr

def invalid {α : Type} : Except HapoalimError α := .error (.code .INVALID_RESPONSE)

abbrev HapoalimFields := List (String × JsValue)

/-- A value that counts as true; a number that is not finite is infinite, as
JSON has no NaN. -/
def isTruthy (value : JsValue) : Bool :=
  match value with
  | .undefined | .null | .bool false => false
  | .number (some x) => x ≠ 0
  | .string text => text ≠ ""
  | _ => true

/-- `exception?.['-ExceptionType']` -/
def exceptionType (exception : JsValue) : Option String :=
  match exception with
  | .object fields => (JsValue.get fields "-ExceptionType").asText
  | _ => none

/-- `value === 0` -/
def isZero (value : JsValue) : Bool :=
  match value with
  | .number (some x) => x = 0
  | _ => false

/-- `record` of the browser, which reads the error messages of the bank. -/
def bankRecord (value : JsValue) : Except HapoalimError HapoalimFields :=
  match value with
  | .object fields =>
      let exception := JsValue.get fields "Exception"
      if isTruthy exception ∨ (isZero (JsValue.get fields "messageCode") ∧
          (JsValue.get fields "severity").asText = some "E") then
        .error (.code (if exceptionType exception = some "InvalidSessionException" then
          .COLLECTION_FAILED else .INVALID_RESPONSE))
      else .ok fields
  | _ => invalid

/-- The executions of a page, and its cursor. -/
abbrev HistoryPage := Paging.Page String JsValue

/-- `account.Execution`, if it is undefined or an array. -/
def pageExecutions (value : JsValue) : Except HapoalimError (List JsValue) :=
  match value with
  | .undefined => .ok []
  | .array rows => .ok rows
  | _ => invalid

/-- `account.PageState`; a blank one is no cursor. -/
def pageCursor (value : JsValue) : Except HapoalimError (Option String) :=
  match value with
  | .undefined | .null => .ok none
  | .string text => .ok (if jsTrim text = "" then none else some text)
  | _ => invalid

def historyPage (value : JsValue) : Except HapoalimError HistoryPage := do
  let account ← bankRecord (JsValue.get (← bankRecord value) "Account")
  let executions ← pageExecutions (JsValue.get account "Execution")
  let cursor ← pageCursor (JsValue.get account "PageState")
  return ⟨executions, cursor⟩

def HAPOALIM_HISTORY_MAX_PAGES : Nat := 100

/-- What the pages have said; `paginationComplete` only proves that the chain
of cursors ended. -/
structure HistoryRead where
  executions : List JsValue
  paginationComplete : Bool
  historyPages : Nat

/-- The bank's answer to the last of some requests, each for a cursor. -/
abbrev FetchPage := List (Option String) → Except HapoalimError JsValue

/-- One request, unless the run is cancelled. -/
def fetchHistoryPage (fetchPage : FetchPage) (aborted : List (Option String) → Bool) :
    Paging.Server String JsValue HapoalimError := fun asked =>
  if aborted asked then .error .aborted else fetchPage asked >>= historyPage

/-- What is read of the pages, and the cursors that were fetched. -/
def readExecutionPages (fetchPage : FetchPage) (aborted : List (Option String) → Bool) :
    Except HapoalimError (HistoryRead × List (Option String)) := do
  let outcome ← Paging.follow (fetchHistoryPage fetchPage aborted) (.code .INCOMPLETE_RESPONSE)
    HAPOALIM_HISTORY_MAX_PAGES
  return (⟨outcome.items, outcome.complete, outcome.asked.length⟩, outcome.asked)

/-! ## Reading ends -/

/-- What was read of some pages: each page but the first was asked for with the
cursor of the page before it. -/
structure ReadsPages (fetchPage : FetchPage) (aborted : List (Option String) → Bool)
    (read : HistoryRead) (asked : List (Option String)) (pages : List HistoryPage) : Prop where
  answers : Paging.Answers (fetchHistoryPage fetchPage aborted) asked pages
  requests : asked = none :: pages.dropLast.map (·.next)
  distinct : asked.Nodup
  counted : read.historyPages = pages.length
  bounded : pages.length ≤ HAPOALIM_HISTORY_MAX_PAGES
  executions : read.executions = pages.flatMap (·.items)
  complete : read.paginationComplete = true ↔ ∃ page ∈ pages, page.next = none

section
variable {fetchPage : FetchPage} {aborted : List (Option String) → Bool} {read : HistoryRead}
  {asked : List (Option String)}

theorem readExecutionPages_ok (h : readExecutionPages fetchPage aborted = .ok (read, asked)) :
    ∃ pages, ReadsPages fetchPage aborted read asked pages := by
  obtain ⟨outcome, houtcome, h⟩ := except_bind_ok.mp h
  obtain ⟨pages, hpages⟩ := Paging.follow_spec houtcome
  obtain ⟨rfl, rfl⟩ := Prod.mk.inj (Except.ok.inj h)
  have hlength := hpages.answers.length_eq
  refine ⟨pages, hpages.answers, hpages.requests, hpages.distinct, hlength, ?_, hpages.items,
    hpages.complete⟩
  rw [← hlength]
  exact hpages.bounded

/-- Pages that are well formed are read to an end. -/
theorem readExecutionPages_isOk
    (hfetch : ∀ asked, ∃ value page, fetchPage asked = .ok value ∧ historyPage value = .ok page)
    (hrunning : ∀ asked, aborted asked = false) :
    ∃ read asked, readExecutionPages fetchPage aborted = .ok (read, asked) := by
  have hserver : ∀ asked, ∃ page, fetchHistoryPage fetchPage aborted asked = .ok page := by
    intro asked
    obtain ⟨value, page, hvalue, hpage⟩ := hfetch asked
    refine ⟨page, ?_⟩
    unfold fetchHistoryPage
    rw [hrunning asked, if_neg Bool.false_ne_true]
    exact except_bind_ok.mpr ⟨value, hvalue, hpage⟩
  have hmost : 0 < HAPOALIM_HISTORY_MAX_PAGES := by decide
  obtain ⟨outcome, houtcome⟩ := Paging.follow_isOk hmost hserver
  exact ⟨_, _, except_bind_ok.mpr ⟨outcome, houtcome, rfl⟩⟩

end

end SimplefinBridge
