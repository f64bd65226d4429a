import Mathlib.Data.List.Basic
import SimplefinBridge.Library.Runs

/-!
# Hidden entry of a one-time code

The code is typed into a terminal whose echo is off, and arrives in chunks of
any size.  Line editing, the end of the input, its errors and a cancellation can
all end the entry, and so can a failing restoration of the terminal.  What the
entry comes to depends on the characters typed and on what ended it, never on
the chunks; a code that is accepted has six digits, and it is never written out.
-/

namespace SimplefinBridge

/-! ## The line that is typed -/

/-- What the characters typed so far amount to. -/
inductive TypedLine
  | typing (code : List Char)
  | entered (code : List Char)
  | canceled
  | invalid
  deriving DecidableEq, Repr

/-- A key that enters the line. -/
def isBreak (c : Char) : Bool := c = '\r' || c = '\n'

/-- Control-C and Control-D. -/
def isInterrupt (c : Char) : Bool := c = Char.ofNat 3 || c = Char.ofNat 4

/-- A key that takes a character back. -/
def isErase (c : Char) : Bool := c = Char.ofNat 8 || c = Char.ofNat 127

/-- One more character; a finished line takes none. -/
def TypedLine.typeChar (isTTY : Bool) (line : TypedLine) (c : Char) : TypedLine :=
  match line with
  | typing code =>
      if isBreak c then .entered code
      else if isInterrupt c then .canceled
      else if isTTY && isErase c then .typing code.dropLast
      else if !c.isDigit || 6 ≤ code.length then .invalid
      else .typing (code ++ [c])
  | line => line

/-- What ends an entry beside the characters typed. -/
inductive EntryEnd
  | ended | failed | aborted
  deriving DecidableEq, Repr

/-- Only six digits are a code. -/
def sixDigits (code : List Char) : Except String String :=
  if code.length = 6 then .ok (String.ofList code) else .error "Enter exactly six digits"

/-- What an entry comes to, from the line that was typed and what ended it. -/
def entryOutcome : TypedLine → Option EntryEnd → Option (Except String String)
  | .entered code, _ => some (sixDigits code)
  | .canceled, _ => some (.error "OTP entry canceled")
  | .invalid, _ => some (.error "Enter exactly six digits")
  | .typing code, some .ended => some (sixDigits code)
  | .typing _, some .failed => some (.error "Could not read OTP input")
  | .typing _, some .aborted => some (.error "OTP entry canceled")
  | .typing _, none => none

/-! ## The entry as it is programmed -/

/-- The terminal that the code is typed at. -/
structure EntryTerminal where
  isTTY : Bool
  /-- `setRawMode` exists. -/
  canHide : Bool
  /-- `isRaw ?? false` -/
  wasRaw : Bool
  /-- `readableFlowing === true` -/
  wasFlowing : Bool
  deriving DecidableEq, Repr

/-- The call of the cleanup that throws. -/
inductive CleanupFault
  | rawMode | pause | newline
  deriving DecidableEq, Repr

/-- The call of the setup that throws. -/
inductive SetupFault
  | rawMode | prompt | resume
  deriving DecidableEq, Repr

/-- What has been typed, and what became of it. -/
structure CodeEntry where
  code : List Char
  /-- What the promise was settled with. -/
  outcome : Option (Except String String)
  listening : Bool
  changedRawMode : Bool
  raw : Bool
  flowing : Bool
  written : List String

/-- Input, or an end of it. -/
inductive EntryEvent
  | data (chunk : List Char)
  | finishes (reason : EntryEnd)
  deriving DecidableEq, Repr

section
variable (t : EntryTerminal) (fault : Option CleanupFault)

/-- The calls that restore the terminal, up to one that throws. -/
def restoreTerminal (s : CodeEntry) : CodeEntry × Bool :=
  if s.changedRawMode ∧ fault = some .rawMode then (s, true)
  else
    let s := if s.changedRawMode then { s with raw := t.wasRaw } else s
    if t.wasFlowing = false ∧ fault = some .pause then (s, true)
    else
      let s := if t.wasFlowing then s else { s with flowing := false }
      if t.isTTY ∧ fault = some .newline then (s, true)
      else (if t.isTTY then { s with written := s.written ++ ["\n"] } else s, false)

/-- `finish(error)`: the first call settles the promise. -/
def finishEntry (error : Option String) (s : CodeEntry) : CodeEntry :=
  if s.outcome.isSome then s
  else
    let restored := restoreTerminal t fault { s with listening := false }
    let error := error.or (if restored.2 then some "Could not restore terminal input" else none)
    { restored.1 with
      code := []
      outcome := some (match error with
        | some message => .error message
        | none => .ok (String.ofList s.code)) }

/-- `onEnd` -/
def entryEnds (s : CodeEntry) : CodeEntry :=
  finishEntry t fault (if s.code.length = 6 then none else some "Enter exactly six digits") s

/-- `onData(chunk)` -/
def entryData : List Char → CodeEntry → CodeEntry
  | [], s => s
  | c :: rest, s =>
      if isBreak c then entryEnds t fault s
      else if isInterrupt c then finishEntry t fault (some "OTP entry canceled") s
      else if t.isTTY && isErase c then entryData rest { s with code := s.code.dropLast }
      else if !c.isDigit || 6 ≤ s.code.length then
        finishEntry t fault (some "Enter exactly six digits") s
      else entryData rest { s with code := s.code ++ [c] }

/-- An event reaches the entry while it listens. -/
def entryStep (s : CodeEntry) (event : EntryEvent × Option CleanupFault) : CodeEntry :=
  if s.listening then
    match event with
    | (.data chunk, fault) => entryData t fault chunk s
    | (.finishes .ended, fault) => entryEnds t fault s
    | (.finishes .failed, fault) => finishEntry t fault (some "Could not read OTP input") s
    | (.finishes .aborted, fault) => finishEntry t fault (some "OTP entry canceled") s
  else s

end

/-- How an entry begins. -/
structure EntrySetup where
  aborted : Bool
  /-- The input has ended or is destroyed. -/
  ended : Bool
  fault : Option SetupFault
  cleanupFault : Option CleanupFault
  provider : String

/-- The line that asks for the code. -/
def EntrySetup.prompt (setup : EntrySetup) : String :=
  setup.provider ++ " sent a verification code. Enter the 6-digit code (hidden): "

section
variable (t : EntryTerminal) (setup : EntrySetup)

/-- The input before anybody listens to it. -/
def untouchedEntry : CodeEntry where
  code := []
  outcome := none
  listening := false
  changedRawMode := false
  raw := t.wasRaw
  flowing := t.wasFlowing
  written := []

/-- The prompt and the start of the input, behind the change of its mode. -/
def promptEntry (s : CodeEntry) : CodeEntry :=
  if setup.fault = some .prompt then
    finishEntry t setup.cleanupFault (some "Could not initialize hidden OTP input") s
  else
    let s := { s with written := s.written ++ [setup.prompt] }
    if setup.fault = some .resume then
      finishEntry t setup.cleanupFault (some "Could not initialize hidden OTP input") s
    else
      let s := { s with flowing := true }
      if setup.ended then entryEnds t setup.cleanupFault s else s

/-- `readOneTimeCode`, up to where it waits. -/
def readOneTimeCode : CodeEntry :=
  let s := untouchedEntry t
  if setup.aborted then { s with outcome := some (.error "OTP entry canceled") }
  else
    let s := { s with listening := true }
    if t.isTTY then
      if t.canHide = false then
        finishEntry t setup.cleanupFault (some "Terminal does not support hidden OTP entry") s
      else if setup.fault = some .rawMode then
        finishEntry t setup.cleanupFault (some "Could not initialize hidden OTP input") s
      else promptEntry t setup { s with raw := true, changedRawMode := true }
    else promptEntry t setup s

/-- What the setup alone comes to. -/
def setupOutcome : Option (Except String String) :=
  if setup.aborted then some (.error "OTP entry canceled")
  else if t.isTTY ∧ t.canHide = false then
    some (.error "Terminal does not support hidden OTP entry")
  else if (t.isTTY ∧ setup.fault = some .rawMode) ∨ setup.fault = some .prompt ∨
      setup.fault = some .resume then
    some (.error "Could not initialize hidden OTP input")
  else if setup.ended then some (.error "Enter exactly six digits")
  else none

end


/-! ## What ends an entry, and how it is left -/

/-- The promise is settled as it should be; where the terminal is not restored,
a code is withheld. -/
def SettledAs (result actual : Except String String) : Prop :=
  actual = result ∨ (∃ code, result = .ok code) ∧ actual = .error "Could not restore terminal input"

/-- The mode of the input is the old one or can be set back to it. -/
structure Restorable (t : EntryTerminal) (s : CodeEntry) : Prop where
  raw : s.changedRawMode = false → s.raw = t.wasRaw
  flowing : t.wasFlowing = true → s.flowing = true

/-- An entry that has been settled with a result. -/
structure FinishedEntry (t : EntryTerminal) (fault : Option CleanupFault)
    (result : Except String String) (s s' : CodeEntry) : Prop where
  settled : ∃ actual, s'.outcome = some actual ∧ SettledAs result actual
  silent : s'.listening = false
  /-- The code is not kept. -/
  forgotten : s'.code = []
  written : ∀ text ∈ s'.written, text ∈ s.written ∨ text = "\n"
  restored : fault = none → s'.outcome = some result ∧ s'.raw = t.wasRaw ∧ s'.flowing = t.wasFlowing

section
variable {t : EntryTerminal} {fault : Option CleanupFault} {s : CodeEntry}

/-- Restoring writes a line break at most. -/
theorem restoreTerminal_written :
    ∀ text ∈ (restoreTerminal t fault s).1.written, text ∈ s.written ∨ text = "\n" := by
  intro text htext
  unfold restoreTerminal at htext
  dsimp only at htext
  split_ifs at htext
  all_goals
    first
    | exact .inl htext
    | exact (List.mem_append.mp htext).imp id List.mem_singleton.mp

/-- Where nothing fails, the terminal is as it was. -/
theorem restoreTerminal_none (h : Restorable t s) :
    (restoreTerminal t none s).2 = false ∧ (restoreTerminal t none s).1.raw = t.wasRaw ∧
      (restoreTerminal t none s).1.flowing = t.wasFlowing := by
  unfold restoreTerminal
  rw [if_neg (by simp)]
  dsimp only
  rw [if_neg (by simp), if_neg (by simp)]
  refine ⟨rfl, ?_⟩
  have hraw := h.raw
  have hflowing := h.flowing
  cases hchanged : s.changedRawMode with
  | false =>
      cases hwas : t.wasFlowing with
      | false => cases t.isTTY <;> exact ⟨hraw hchanged, rfl⟩
      | true => cases t.isTTY <;> exact ⟨hraw hchanged, hflowing hwas⟩
  | true =>
      cases hwas : t.wasFlowing with
      | false => cases t.isTTY <;> exact ⟨rfl, rfl⟩
      | true => cases t.isTTY <;> exact ⟨rfl, hflowing hwas⟩

/-- Restoring does not stop the listeners. -/
theorem restoreTerminal_listening :
    (restoreTerminal t fault s).1.listening = s.listening := by
  unfold restoreTerminal
  dsimp only
  split_ifs <;> rfl

/-- The result that a call of `finish` asks for. -/
def askedResult (error : Option String) (code : List Char) : Except String String :=
  match error with
  | some message => .error message
  | none => .ok (String.ofList code)

/-- **The first call of `finish`.** -/
theorem finishEntry_spec {error : Option String} (hopen : s.outcome = none) (h : Restorable t s) :
    FinishedEntry t fault (askedResult error s.code) s (finishEntry t fault error s) := by
  have hopened : ¬ s.outcome.isSome = true := by
    rw [hopen]
    exact Bool.false_ne_true
  have hquiet : Restorable t { s with listening := false } := ⟨h.raw, h.flowing⟩
  unfold finishEntry
  rw [if_neg hopened]
  dsimp only
  refine ⟨⟨_, rfl, ?_⟩, restoreTerminal_listening, rfl, restoreTerminal_written, ?_⟩
  · cases error with
    | some message => exact .inl rfl
    | none =>
        cases (restoreTerminal t fault { s with listening := false }).2 with
        | false => exact .inl rfl
        | true => exact .inr ⟨⟨_, rfl⟩, rfl⟩
  · rintro rfl
    obtain ⟨hthrown, hraw, hflowing⟩ := restoreTerminal_none hquiet
    rw [hthrown]
    refine ⟨?_, hraw, hflowing⟩
    cases error <;> rfl

/-- An entry that is given up ends with its error. -/
theorem finishEntry_error {message : String} (hopen : s.outcome = none) (h : Restorable t s) :
    FinishedEntry t fault (.error message) s (finishEntry t fault (some message) s) :=
  @finishEntry_spec t fault s (some message) hopen h

/-- An entered line ends with its code, or is refused. -/
theorem entryEnds_spec (hopen : s.outcome = none) (h : Restorable t s) :
    FinishedEntry t fault (sixDigits s.code) s (entryEnds t fault s) := by
  have hfinished := @finishEntry_spec t fault s
    (if s.code.length = 6 then none else some "Enter exactly six digits") hopen h
  have hsame : askedResult (if s.code.length = 6 then none else some "Enter exactly six digits")
      s.code = sixDigits s.code := by
    unfold sixDigits
    by_cases hsix : s.code.length = 6
    · rw [if_pos hsix, if_pos hsix]
      rfl
    · rw [if_neg hsix, if_neg hsix]
      rfl
  rwa [hsame] at hfinished

/-- What was typed does not matter for the end. -/
theorem FinishedEntry.of_code {result : Except String String} {code : List Char} {s' : CodeEntry}
    (h : FinishedEntry t fault result { s with code } s') : FinishedEntry t fault result s s' :=
  ⟨h.settled, h.silent, h.forgotten, h.written, h.restored⟩

/-- A finished line takes no more characters. -/
theorem foldl_finished {line : TypedLine} (h : ∀ code, line ≠ .typing code) (isTTY : Bool)
    (chars : List Char) : chars.foldl (TypedLine.typeChar isTTY) line = line := by
  induction chars with
  | nil => rfl
  | cons c chars ih =>
      cases line with
      | typing code => exact absurd rfl (h code)
      | entered code => exact ih
      | canceled => exact ih
      | invalid => exact ih

/-- What a key does to an open line. -/
theorem TypedLine.typeChar_typing {isTTY : Bool} {code : List Char} {c : Char} :
    (TypedLine.typing code).typeChar isTTY c =
      if isBreak c then .entered code
      else if isInterrupt c then .canceled
      else if isTTY && isErase c then .typing code.dropLast
      else if !c.isDigit || 6 ≤ code.length then .invalid
      else .typing (code ++ [c]) :=
  rfl

/-- Input is taken one character after another. -/
theorem entryData_cons {c : Char} {rest : List Char} :
    entryData t fault (c :: rest) s =
      if isBreak c then entryEnds t fault s
      else if isInterrupt c then finishEntry t fault (some "OTP entry canceled") s
      else if t.isTTY && isErase c then entryData t fault rest { s with code := s.code.dropLast }
      else if !c.isDigit || 6 ≤ s.code.length then
        finishEntry t fault (some "Enter exactly six digits") s
      else entryData t fault rest { s with code := s.code ++ [c] } :=
  rfl

/-- **One chunk**: the line grows, or it is finished and with it the entry. -/
theorem entryData_spec (chunk : List Char) (hopen : s.outcome = none) (h : Restorable t s) :
    (∃ code, chunk.foldl (TypedLine.typeChar t.isTTY) (.typing s.code) = .typing code ∧
        entryData t fault chunk s = { s with code }) ∨
      ∃ result, (∀ reason, entryOutcome
          (chunk.foldl (TypedLine.typeChar t.isTTY) (.typing s.code)) reason = some result) ∧
        (∀ code, chunk.foldl (TypedLine.typeChar t.isTTY) (.typing s.code) ≠ .typing code) ∧
          FinishedEntry t fault result s (entryData t fault chunk s) := by
  induction chunk generalizing s with
  | nil => exact .inl ⟨s.code, rfl, rfl⟩
  | cons c rest ih =>
      rw [List.foldl_cons, TypedLine.typeChar_typing, entryData_cons]
      by_cases hbreak : isBreak c = true
      · rw [if_pos hbreak, if_pos hbreak, foldl_finished fun _ h => TypedLine.noConfusion h]
        exact .inr ⟨_, fun _ => rfl, fun _ h => TypedLine.noConfusion h, entryEnds_spec hopen h⟩
      rw [if_neg hbreak, if_neg hbreak]
      by_cases hinterrupt : isInterrupt c = true
      · rw [if_pos hinterrupt, if_pos hinterrupt, foldl_finished fun _ h => TypedLine.noConfusion h]
        exact .inr ⟨_, fun _ => rfl, fun _ h => TypedLine.noConfusion h, finishEntry_error hopen h⟩
      rw [if_neg hinterrupt, if_neg hinterrupt]
      by_cases herase : (t.isTTY && isErase c) = true
      · rw [if_pos herase, if_pos herase]
        rcases @ih { s with code := s.code.dropLast } hopen ⟨h.raw, h.flowing⟩ with
          ⟨code, hline, hdata⟩ | ⟨result, houtcome, hdone, hfinished⟩
        · exact .inl ⟨code, hline, hdata⟩
        · exact .inr ⟨result, houtcome, hdone, hfinished.of_code⟩
      rw [if_neg herase, if_neg herase]
      by_cases hrefused : (!c.isDigit || 6 ≤ s.code.length) = true
      · rw [if_pos hrefused, if_pos hrefused, foldl_finished fun _ h => TypedLine.noConfusion h]
        exact .inr ⟨_, fun _ => rfl, fun _ h => TypedLine.noConfusion h, finishEntry_error hopen h⟩
      rw [if_neg hrefused, if_neg hrefused]
      rcases @ih { s with code := s.code ++ [c] } hopen ⟨h.raw, h.flowing⟩ with
        ⟨code, hline, hdata⟩ | ⟨result, houtcome, hdone, hfinished⟩
      · exact .inl ⟨code, hline, hdata⟩
      · exact .inr ⟨result, houtcome, hdone, hfinished.of_code⟩

end

/-! ## Whole entries -/

/-- The characters typed before anything else ends the entry, and what does. -/
def typedBefore : List EntryEvent → List Char × Option EntryEnd
  | [] => ([], none)
  | .data chunk :: events => (chunk ++ (typedBefore events).1, (typedBefore events).2)
  | .finishes reason :: _ => ([], some reason)

/-- The line that a list of events types behind a beginning of it. -/
def lineAfter (isTTY : Bool) (code : List Char) (events : List EntryEvent) : TypedLine :=
  (typedBefore events).1.foldl (TypedLine.typeChar isTTY) (.typing code)

/-- What an entry comes to. -/
def expectedOutcome (t : EntryTerminal) (setup : EntrySetup) (events : List EntryEvent) :
    Option (Except String String) :=
  (setupOutcome t setup).or
    (entryOutcome (lineAfter t.isTTY [] events) (typedBefore events).2)

/-- The entry waits for more. -/
structure OpenEntry (t : EntryTerminal) (setup : EntrySetup) (s : CodeEntry) : Prop where
  outcome : s.outcome = none
  listening : s.listening = true
  restorable : Restorable t s
  written : ∀ text ∈ s.written, text = setup.prompt ∨ text = "\n"

/-- The entry is over; `faultless` says that every cleanup has worked. -/
structure ClosedEntry (t : EntryTerminal) (setup : EntrySetup) (faultless : Prop)
    (result : Except String String) (s : CodeEntry) : Prop where
  settled : ∃ actual, s.outcome = some actual ∧ SettledAs result actual
  silent : s.listening = false
  forgotten : s.code = []
  written : ∀ text ∈ s.written, text = setup.prompt ∨ text = "\n"
  restored : faultless → s.outcome = some result ∧ s.raw = t.wasRaw ∧ s.flowing = t.wasFlowing

section
variable {t : EntryTerminal} {setup : EntrySetup} {s : CodeEntry}

/-- A finished entry is closed. -/
theorem FinishedEntry.closed {fault : Option CleanupFault} {result : Except String String}
    {faultless : Prop} {s' : CodeEntry} (h : FinishedEntry t fault result s s')
    (hwritten : ∀ text ∈ s.written, text = setup.prompt ∨ text = "\n")
    (hfault : faultless → fault = none) : ClosedEntry t setup faultless result s' := by
  refine ⟨h.settled, h.silent, h.forgotten, fun text htext => ?_, fun hworks =>
    h.restored (hfault hworks)⟩
  rcases h.written text htext with hold | hnew
  · exact hwritten text hold
  · exact .inr hnew

/-- Nothing reaches an entry that is over. -/
theorem run_silent (h : s.listening = false) (events : List (EntryEvent × Option CleanupFault)) :
    Runs.run (entryStep t) s events = s := by
  induction events with
  | nil => rfl
  | cons event events ih =>
      have hstep : entryStep t s event = s := by
        unfold entryStep
        rw [h]
        exact if_neg Bool.false_ne_true
      rw [Runs.run_cons, hstep]
      exact ih

/-- What an event does to an open entry. -/
theorem OpenEntry.step (h : OpenEntry t setup s) (event : EntryEvent × Option CleanupFault) :
    entryStep t s event = match event with
      | (.data chunk, fault) => entryData t fault chunk s
      | (.finishes .ended, fault) => entryEnds t fault s
      | (.finishes .failed, fault) => finishEntry t fault (some "Could not read OTP input") s
      | (.finishes .aborted, fault) => finishEntry t fault (some "OTP entry canceled") s := by
  unfold entryStep
  rw [if_pos h.listening]

/-- What is left of an entry after some events. -/
def LeftAfter (t : EntryTerminal) (setup : EntrySetup)
    (events : List (EntryEvent × Option CleanupFault)) (expected : Option (Except String String))
    (s : CodeEntry) : Prop :=
  match expected with
  | some result => ClosedEntry t setup (∀ event ∈ events, event.2 = none) result s
  | none => OpenEntry t setup s

/-- **Every run of events** on an entry that waits: chunks do not matter. -/
theorem OpenEntry.run (h : OpenEntry t setup s)
    (events : List (EntryEvent × Option CleanupFault)) :
    LeftAfter t setup events (entryOutcome (lineAfter t.isTTY s.code (events.map (·.1)))
      (typedBefore (events.map (·.1))).2) (Runs.run (entryStep t) s events) := by
  induction events generalizing s with
  | nil => exact h
  | cons event events ih =>
      obtain ⟨event, fault⟩ := event
      have hfirst : (∀ e ∈ (event, fault) :: events, e.2 = none) → fault = none :=
        fun hall => hall _ List.mem_cons_self
      have hclosed : ∀ {result s'}, FinishedEntry t fault result s s' →
          LeftAfter t setup ((event, fault) :: events) (some result)
            (Runs.run (entryStep t) s' events) := by
        intro result s' hfinished
        rw [run_silent hfinished.silent]
        exact hfinished.closed h.written hfirst
      rw [Runs.run_cons, h.step]
      cases event with
      | finishes reason =>
          cases reason with
          | ended => exact hclosed (entryEnds_spec h.outcome h.restorable)
          | failed => exact hclosed (finishEntry_error h.outcome h.restorable)
          | aborted => exact hclosed (finishEntry_error h.outcome h.restorable)
      | data chunk =>
          have hline : lineAfter t.isTTY s.code
              (((EntryEvent.data chunk, fault) :: events).map (·.1)) =
              (typedBefore (events.map (·.1))).1.foldl (TypedLine.typeChar t.isTTY)
                (chunk.foldl (TypedLine.typeChar t.isTTY) (.typing s.code)) :=
            List.foldl_append
          rcases @entryData_spec t fault s chunk h.outcome h.restorable with
            ⟨code, htyped, hdata⟩ | ⟨result, houtcome, hdone, hfinished⟩
          · rw [hline, htyped]
            dsimp only
            rw [hdata]
            have hopen : OpenEntry t setup { s with code } :=
              ⟨h.outcome, h.listening, ⟨h.restorable.raw, h.restorable.flowing⟩, h.written⟩
            have hrest := ih hopen
            change LeftAfter t setup _ (entryOutcome
              (lineAfter t.isTTY code (events.map (·.1))) (typedBefore (events.map (·.1))).2) _
            unfold LeftAfter at hrest ⊢
            cases hexpected : entryOutcome (lineAfter t.isTTY code (events.map (·.1)))
              (typedBefore (events.map (·.1))).2 with
            | none =>
                rw [hexpected] at hrest
                exact hrest
            | some result =>
                rw [hexpected] at hrest
                refine ⟨hrest.settled, hrest.silent, hrest.forgotten, hrest.written, fun hall => ?_⟩
                exact hrest.restored fun e he => hall e (List.mem_cons_of_mem _ he)
          · rw [hline, foldl_finished hdone, houtcome]
            exact hclosed hfinished

/-! ## The setup -/

/-- What the setup leaves. -/
def LeftBySetup (t : EntryTerminal) (setup : EntrySetup)
    (expected : Option (Except String String)) (s : CodeEntry) : Prop :=
  match expected with
  | some result => ClosedEntry t setup (setup.cleanupFault = none) result s
  | none => OpenEntry t setup s ∧ s.code = []

/-- What the prompt leaves behind. -/
theorem promptEntry_spec (hopen : s.outcome = none) (hlistening : s.listening = true)
    (hcode : s.code = []) (hrestorable : Restorable t s) (hwritten : s.written = []) :
    LeftBySetup t setup
      (if setup.fault = some .prompt ∨ setup.fault = some .resume then
          some (.error "Could not initialize hidden OTP input")
        else if setup.ended then some (.error "Enter exactly six digits") else none)
      (promptEntry t setup s) := by
  have hnone : ∀ text ∈ s.written, text = setup.prompt ∨ text = "\n" := by
    rw [hwritten]
    exact fun _ hrow => absurd hrow List.not_mem_nil
  have hprompt : ∀ text ∈ s.written ++ [setup.prompt], text = setup.prompt ∨ text = "\n" := by
    intro text htext
    rcases List.mem_append.mp htext with hold | hnew
    · exact hnone text hold
    · exact .inl (List.mem_singleton.mp hnew)
  unfold promptEntry
  by_cases hfirst : setup.fault = some .prompt
  · rw [if_pos hfirst, if_pos (.inl hfirst)]
    exact (finishEntry_error hopen hrestorable).closed hnone id
  rw [if_neg hfirst]
  dsimp only
  by_cases hresume : setup.fault = some .resume
  · rw [if_pos hresume, if_pos (.inr hresume)]
    have hfinished := @finishEntry_error t setup.cleanupFault
      { s with written := s.written ++ [setup.prompt] } "Could not initialize hidden OTP input"
      hopen ⟨hrestorable.raw, hrestorable.flowing⟩
    exact hfinished.closed hprompt id
  rw [if_neg hresume, if_neg (not_or.mpr ⟨hfirst, hresume⟩)]
  have hflowing : Restorable t { s with written := s.written ++ [setup.prompt], flowing := true } :=
    ⟨hrestorable.raw, fun _ => rfl⟩
  by_cases hended : setup.ended = true
  · rw [if_pos hended, if_pos hended]
    have hfinished := @entryEnds_spec t setup.cleanupFault
      { s with written := s.written ++ [setup.prompt], flowing := true } hopen hflowing
    have hempty : sixDigits s.code = .error "Enter exactly six digits" := by
      rw [hcode]
      rfl
    dsimp only at hfinished
    rw [hempty] at hfinished
    exact hfinished.closed hprompt id
  · rw [if_neg hended, if_neg hended]
    exact ⟨⟨hopen, hlistening, hflowing, hprompt⟩, hcode⟩

/-- **What asking for a code leaves behind.** -/
theorem readOneTimeCode_spec :
    LeftBySetup t setup (setupOutcome t setup) (readOneTimeCode t setup) := by
  have hnone : ∀ text ∈ ([] : List String), text = setup.prompt ∨ text = "\n" :=
    fun _ hrow => absurd hrow List.not_mem_nil
  have huntouched : Restorable t { untouchedEntry t with listening := true } :=
    ⟨fun _ => rfl, id⟩
  unfold setupOutcome readOneTimeCode
  by_cases haborted : setup.aborted = true
  · rw [if_pos haborted, if_pos haborted]
    exact ⟨⟨_, rfl, .inl rfl⟩, rfl, rfl, hnone, fun _ => ⟨rfl, rfl, rfl⟩⟩
  rw [if_neg haborted, if_neg haborted]
  dsimp only
  by_cases htty : t.isTTY = true
  swap
  · rw [if_neg htty, if_neg fun h => htty h.1]
    have hprompted := @promptEntry_spec t setup { untouchedEntry t with listening := true } rfl rfl
      rfl huntouched rfl
    simpa only [htty, false_and, false_or, Bool.false_eq_true] using hprompted
  rw [if_pos htty]
  by_cases hhide : t.canHide = false
  · rw [if_pos hhide, if_pos ⟨htty, hhide⟩]
    exact (@finishEntry_error t setup.cleanupFault { untouchedEntry t with listening := true }
      _ rfl huntouched).closed hnone id
  rw [if_neg hhide, if_neg fun h => hhide h.2]
  by_cases hraw : setup.fault = some .rawMode
  · rw [if_pos hraw, if_pos (.inl ⟨htty, hraw⟩)]
    exact (@finishEntry_error t setup.cleanupFault { untouchedEntry t with listening := true }
      _ rfl huntouched).closed hnone id
  rw [if_neg hraw]
  have hprompted := @promptEntry_spec t setup
    { untouchedEntry t with listening := true, raw := true, changedRawMode := true } rfl rfl rfl
    ⟨fun hfalse => Bool.noConfusion hfalse, id⟩ rfl
  simpa only [hraw, and_false, false_or] using hprompted

/-! ## The law of an entry -/

/-- The digits typed so far. -/
def TypedLine.Digits : TypedLine → Prop
  | typing code | entered code => ∀ c ∈ code, c.isDigit = true
  | _ => True

/-- Only digits are kept. -/
theorem TypedLine.Digits.typeChar {line : TypedLine} (h : line.Digits) (isTTY : Bool) (c : Char) :
    (line.typeChar isTTY c).Digits := by
  cases line with
  | entered code => exact h
  | canceled => exact h
  | invalid => exact h
  | typing code =>
      unfold TypedLine.typeChar
      dsimp only
      split_ifs with hbreak hinterrupt herase hrefused
      · exact h
      · trivial
      · exact fun d hd => h d (List.mem_of_mem_dropLast hd)
      · trivial
      · intro d hd
        rcases List.mem_append.mp hd with hold | hnew
        · exact h d hold
        · rw [List.mem_singleton.mp hnew]
          rw [Bool.or_eq_true, not_or] at hrefused
          simpa using hrefused.1

/-- A code is six digits. -/
theorem digits_of_sixDigits {code : List Char} {text : String}
    (hdigits : ∀ c ∈ code, c.isDigit = true) (h : sixDigits code = .ok text) :
    text.toList.length = 6 ∧ ∀ c ∈ text.toList, c.isDigit = true := by
  unfold sixDigits at h
  split_ifs at h with hsix
  rw [← Except.ok.inj h, String.toList_ofList]
  exact ⟨hsix, hdigits⟩

/-- Only six digits are accepted. -/
theorem digits_of_expected {events : List EntryEvent} {code : String}
    (h : expectedOutcome t setup events = some (.ok code)) :
    code.toList.length = 6 ∧ ∀ c ∈ code.toList, c.isDigit = true := by
  unfold expectedOutcome at h
  rcases Option.or_eq_some_iff.mp h with hsetup | ⟨-, hline⟩
  · unfold setupOutcome at hsetup
    split_ifs at hsetup
    all_goals cases hsetup
  · have hdigits : (lineAfter t.isTTY [] events).Digits := by
      have hstart : (TypedLine.typing []).Digits := fun _ hrow => absurd hrow List.not_mem_nil
      unfold lineAfter
      generalize (typedBefore events).1 = chars
      generalize TypedLine.typing [] = line at hstart ⊢
      induction chars generalizing line with
      | nil => exact hstart
      | cons c chars ih => exact ih _ (hstart.typeChar t.isTTY c)
    generalize lineAfter t.isTTY [] events = line at hline hdigits
    cases line with
    | entered typed => exact digits_of_sixDigits hdigits (Option.some.inj hline)
    | canceled => cases hline
    | invalid => cases hline
    | typing typed =>
        generalize (typedBefore events).2 = reason at hline
        rcases reason with _ | _ | _ | _
        · cases hline
        · exact digits_of_sixDigits hdigits (Option.some.inj hline)
        · cases hline
        · cases hline

end

/-- What an entry is like after some events. -/
structure EntryLaw (t : EntryTerminal) (setup : EntrySetup)
    (events : List (EntryEvent × Option CleanupFault)) (s : CodeEntry) : Prop where
  /-- It is settled with what the characters typed come to, or it waits. -/
  outcome : match expectedOutcome t setup (events.map (·.1)) with
    | some result => ∃ actual, s.outcome = some actual ∧ SettledAs result actual
    | none => s.outcome = none
  digits : ∀ code, s.outcome = some (.ok code) →
    code.toList.length = 6 ∧ ∀ c ∈ code.toList, c.isDigit = true
  ended : s.outcome.isSome = true → s.listening = false ∧ s.code = []
  written : ∀ text ∈ s.written, text = setup.prompt ∨ text = "\n"
  /-- Where no cleanup throws, the terminal is as it was. -/
  restored : setup.cleanupFault = none → (∀ event ∈ events, event.2 = none) →
    s.outcome = expectedOutcome t setup (events.map (·.1)) ∧
      (s.outcome.isSome = true → s.raw = t.wasRaw ∧ s.flowing = t.wasFlowing)

section
variable {t : EntryTerminal} {setup : EntrySetup} {s : CodeEntry}
  {events : List (EntryEvent × Option CleanupFault)}

/-- A closed entry obeys the law, -/
theorem ClosedEntry.law {faultless : Prop} {result : Except String String}
    (h : ClosedEntry t setup faultless result s)
    (hexpected : expectedOutcome t setup (events.map (·.1)) = some result)
    (hfaultless : setup.cleanupFault = none → (∀ event ∈ events, event.2 = none) → faultless) :
    EntryLaw t setup events s := by
  refine ⟨?_, ?_, fun _ => ⟨h.silent, h.forgotten⟩, h.written, fun hsetup hevents => ?_⟩
  · rw [hexpected]
    exact h.settled
  · intro code hcode
    obtain ⟨actual, hactual, rfl | ⟨-, hwithheld⟩⟩ := h.settled
    · rw [hactual] at hcode
      rw [Option.some.inj hcode] at hexpected
      exact digits_of_expected hexpected
    · rw [hactual, hwithheld] at hcode
      cases hcode
  · obtain ⟨houtcome, hraw, hflowing⟩ := h.restored (hfaultless hsetup hevents)
    rw [hexpected]
    exact ⟨houtcome, fun _ => ⟨hraw, hflowing⟩⟩

/-- and so does an open one. -/
theorem OpenEntry.law (h : OpenEntry t setup s)
    (hexpected : expectedOutcome t setup (events.map (·.1)) = none) : EntryLaw t setup events s := by
  refine ⟨?_, ?_, ?_, h.written, fun _ _ => ?_⟩
  · rw [hexpected]
    exact h.outcome
  · intro code hcode
    rw [h.outcome] at hcode
    cases hcode
  · intro hsome
    rw [h.outcome] at hsome
    cases hsome
  · rw [hexpected, h.outcome]
    exact ⟨rfl, fun hsome => by cases hsome⟩

/-- **Entry of a code**: however the characters are cut into chunks, and
whatever of the input ends, fails, is cancelled or throws. -/
theorem one_time_code_entry (t : EntryTerminal) (setup : EntrySetup)
    (events : List (EntryEvent × Option CleanupFault)) :
    EntryLaw t setup events (Runs.run (entryStep t) (readOneTimeCode t setup) events) := by
  have hsetup := @readOneTimeCode_spec t setup
  cases houtcome : setupOutcome t setup with
  | some result =>
      rw [houtcome] at hsetup
      have hclosed : ClosedEntry t setup (setup.cleanupFault = none) result
        (readOneTimeCode t setup) := hsetup
      rw [run_silent hclosed.silent]
      refine hclosed.law ?_ fun hworks _ => hworks
      unfold expectedOutcome
      rw [houtcome]
      rfl
  | none =>
      rw [houtcome] at hsetup
      obtain ⟨hopen, hcode⟩ : OpenEntry t setup (readOneTimeCode t setup) ∧
        (readOneTimeCode t setup).code = [] := hsetup
      have hrun := hopen.run events
      have hsame : expectedOutcome t setup (events.map (·.1)) =
          entryOutcome (lineAfter t.isTTY [] (events.map (·.1)))
            (typedBefore (events.map (·.1))).2 := by
        unfold expectedOutcome
        rw [houtcome]
        rfl
      rw [hcode, ← hsame] at hrun
      cases hexpected : expectedOutcome t setup (events.map (·.1)) with
      | some result =>
          rw [hexpected] at hrun
          exact ClosedEntry.law hrun hexpected fun _ hevents => hevents
      | none =>
          rw [hexpected] at hrun
          exact OpenEntry.law hrun hexpected

end

/-- A code typed in two chunks, one digit of it taken back. -/
example : (Runs.run (entryStep ⟨true, true, false, false⟩)
    (readOneTimeCode ⟨true, true, false, false⟩ ⟨false, false, none, none, "Clal"⟩)
    [(.data "123".toList, none), (.data ['4', Char.ofNat 8, '4', '5', '6', '\r', '7'], none)]).outcome =
      some (.ok "123456") := by
  decide +kernel

end SimplefinBridge
