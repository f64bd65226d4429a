import Mathlib.Data.List.Basic

/-!
# CSV texts of RFC 4180

A text is read one character at a time: fields are separated by commas and
records by CRLF, a quoted field may hold anything and doubles its quotes, and
the last record may end with CRLF or without.  `document` writes records in
this format, and reading it gives the records back (`parse_document`).
-/

namespace Csv

/-- The characters with a meaning, in an alphabet of characters or of code
units. -/
structure Marks (α : Type*) where
  comma : α
  quote : α
  cr : α
  lf : α
  distinct : [comma, quote, cr, lf].Nodup

namespace Marks

variable {α : Type*} (m : Marks α)

/-- The marks differ: a comma is no quote, -/
@[simp] theorem comma_ne_quote : m.comma ≠ m.quote := by
  have h := m.distinct
  simp only [List.nodup_cons, List.mem_cons, not_or] at h
  exact h.1.1

/-- and no line end; -/
@[simp] theorem comma_ne_cr : m.comma ≠ m.cr := by
  have h := m.distinct
  simp only [List.nodup_cons, List.mem_cons, not_or] at h
  exact h.1.2.1

/-- a line end is no comma -/
@[simp] theorem cr_ne_comma : m.cr ≠ m.comma := m.comma_ne_cr.symm

/-- and no quote. -/
@[simp] theorem cr_ne_quote : m.cr ≠ m.quote := by
  have h := m.distinct
  simp only [List.nodup_cons, List.mem_cons, not_or] at h
  exact fun heq => h.2.1.1 heq.symm

end Marks

/-- A field of a record. -/
abbrev Field (α : Type*) := List α

/-- The fields of a line. -/
abbrev Record (α : Type*) := List (Field α)

section
variable {α : Type*}

/-! ## Reading -/

/-- Where in a field the reader is. -/
inductive Mode
  /-- Nothing of the field has been read. -/
  | start
  | bare
  | quoted
  /-- After a quote inside a quoted field. -/
  | closed
  /-- After the CR that ends a record. -/
  | lineBreak
  deriving DecidableEq, Repr

/-- The records that are complete, and what has been read of the next one. -/
structure Reader (α : Type*) where
  mode : Mode
  field : Field α
  record : Record α
  records : List (Record α)
  deriving DecidableEq, Repr

namespace Reader

/-- Nothing has been read. -/
def initial : Reader α := ⟨.start, [], [], []⟩

/-- A field ends. -/
def endField (r : Reader α) : Reader α := ⟨.start, [], r.record ++ [r.field], r.records⟩

/-- A record ends. -/
def endRecord (r : Reader α) : Reader α := ⟨.start, [], [], r.records ++ [r.record ++ [r.field]]⟩

/-- A character belongs to the field. -/
def push (r : Reader α) (mode : Mode) (c : α) : Reader α :=
  { r with mode, field := r.field ++ [c] }

variable [DecidableEq α] (m : Marks α)

/-- A field ends here: at a comma or at a line break. -/
def leave (r : Reader α) (c : α) : Option (Reader α) :=
  if c = m.comma then some r.endField
  else if c = m.cr then some { r with mode := .lineBreak }
  else none

/-- One character is read. -/
def step (r : Reader α) (c : α) : Option (Reader α) :=
  match r.mode with
  | .start =>
      if c = m.quote then some { r with mode := .quoted }
      else if c = m.comma ∨ c = m.cr then r.leave m c
      else if c = m.lf then none
      else some (r.push .bare c)
  | .bare =>
      if c = m.comma ∨ c = m.cr then r.leave m c
      else if c = m.quote ∨ c = m.lf then none
      else some (r.push .bare c)
  | .quoted =>
      if c = m.quote then some { r with mode := .closed } else some (r.push .quoted c)
  | .closed => if c = m.quote then some (r.push .quoted c) else r.leave m c
  | .lineBreak => if c = m.lf then some r.endRecord else none

/-- The records at the end of the text. -/
def finish (r : Reader α) : Option (List (Record α)) :=
  match r.mode with
  | .start => if r.record = [] then some r.records else some r.endRecord.records
  | .bare | .closed => some r.endRecord.records
  | .quoted | .lineBreak => none

/-- Read a text on. -/
def read (r : Reader α) (text : List α) : Option (Reader α) := text.foldlM (step m) r

/-- Text behind text. -/
theorem read_append (r : Reader α) (a b : List α) :
    r.read m (a ++ b) = (r.read m a).bind fun mid => mid.read m b := List.foldlM_append

/-- The first character, and then the others. -/
theorem read_cons (r : Reader α) (c : α) (text : List α) :
    r.read m (c :: text) = (r.step m c).bind fun mid => mid.read m text := List.foldlM_cons

end Reader

variable [DecidableEq α] (m : Marks α)

/-- The records of a text; `none` for a text that RFC 4180 does not allow. -/
def parse (text : List α) : Option (List (Record α)) :=
  (Reader.initial.read m text).bind Reader.finish

/-! ## Writing -/

/-- The character needs a quoted field. -/
def isSpecial (c : α) : Bool := c ∈ [m.lf, m.cr, m.quote, m.comma]

/-- Double the quotes. -/
def doubled (value : Field α) : List α :=
  value.flatMap fun c => if c = m.quote then [m.quote, m.quote] else [c]

/-- A field in quotes. -/
def quote (value : Field α) : List α := m.quote :: (doubled m value ++ [m.quote])

/-- A field, in quotes where it needs them. -/
def field (value : Field α) : List α := if value.any (isSpecial m) then quote m value else value

/-- Fields with commas between them. -/
def record (fields : Record α) : List α := [m.comma].intercalate (fields.map (field m))

/-- The end of a line. -/
def crlf : List α := [m.cr, m.lf]

/-- The records, each ended by CRLF. -/
def document (records : List (Record α)) : List α :=
  records.flatMap fun fields => record m fields ++ crlf m

/-! ## Reading what was written -/

/-- A whole field has been read. -/
def Reader.Holds (r after : Reader α) (value : Field α) : Prop :=
  after.field = value ∧ after.record = r.record ∧ after.records = r.records ∧
    (after.mode = .bare ∨ after.mode = .closed ∨ after.mode = .start ∧ value = [])

/-- A field without quotes is read as it is. -/
theorem read_bare {r : Reader α} (hmode : r.mode = .bare) {value : Field α}
    (hplain : value.any (isSpecial m) = false) :
    r.read m value = some { r with field := r.field ++ value } := by
  induction value generalizing r with
  | nil =>
      rw [List.append_nil]
      rfl
  | cons c value ih =>
      rw [List.any_cons, Bool.or_eq_false_iff] at hplain
      obtain ⟨hc, hvalue⟩ := hplain
      have hsteps : r.step m c = some (r.push .bare c) := by
        unfold isSpecial at hc
        simp only [List.mem_cons, List.not_mem_nil, or_false, decide_eq_false_iff_not,
          not_or] at hc
        obtain ⟨hline, hreturn, hquote, hcomma⟩ := hc
        unfold Reader.step
        rw [hmode]
        dsimp only
        rw [if_neg (not_or.mpr ⟨hcomma, hreturn⟩), if_neg (not_or.mpr ⟨hquote, hline⟩)]
      rw [Reader.read_cons, hsteps, Option.bind_some, ih rfl hvalue]
      simp only [Reader.push, List.append_assoc, List.cons_append, List.nil_append, hmode]

/-- So is what stands in quotes, with its quotes doubled. -/
theorem read_doubled {r : Reader α} (hmode : r.mode = .quoted) (value : Field α) :
    r.read m (doubled m value) = some { r with field := r.field ++ value } := by
  induction value generalizing r with
  | nil =>
      rw [List.append_nil]
      rfl
  | cons c value ih =>
      have hsplit : doubled m (c :: value) =
          (if c = m.quote then [m.quote, m.quote] else [c]) ++ doubled m value := List.flatMap_cons
      have hread : r.read m (if c = m.quote then [m.quote, m.quote] else [c]) = some (r.push .quoted c) := by
        by_cases hquote : c = m.quote
        · rw [if_pos hquote, hquote]
          simp [Reader.read, Reader.step, hmode, Reader.push]
        · rw [if_neg hquote]
          simp [Reader.read, Reader.step, hmode, hquote]
      rw [hsplit, Reader.read_append, hread, Option.bind_some, ih rfl]
      simp only [Reader.push, List.append_assoc, List.cons_append, List.nil_append, hmode]

/-- **A field** is read back whole. -/
theorem read_field {r : Reader α} (hmode : r.mode = .start) (hfield : r.field = []) (value : Field α) :
    ∃ after, r.read m (field m value) = some after ∧ r.Holds after value := by
  unfold field
  by_cases hspecial : value.any (isSpecial m) = true
  · rw [if_pos hspecial]
    have hopen : r.step m m.quote = some { r with mode := .quoted } := by
      unfold Reader.step
      rw [hmode]
      exact if_pos rfl
    refine ⟨{ r with mode := .closed, field := value }, ?_, rfl, rfl, rfl, .inr (.inl rfl)⟩
    unfold quote
    rw [Reader.read_cons, hopen, Option.bind_some, Reader.read_append, read_doubled m rfl,
      Option.bind_some]
    simp [Reader.read, Reader.step, hfield]
  · rw [if_neg hspecial]
    cases value with
    | nil => exact ⟨r, rfl, hfield, rfl, rfl, .inr (.inr ⟨hmode, rfl⟩)⟩
    | cons c value =>
        have hplain := Bool.eq_false_iff.mpr hspecial
        rw [List.any_cons, Bool.or_eq_false_iff] at hplain
        obtain ⟨hc, hvalue⟩ := hplain
        have hsteps : r.step m c = some (r.push .bare c) := by
          unfold isSpecial at hc
          simp only [List.mem_cons, List.not_mem_nil, or_false, decide_eq_false_iff_not,
            not_or] at hc
          obtain ⟨hline, hreturn, hquote, hcomma⟩ := hc
          unfold Reader.step
          rw [hmode]
          dsimp only
          rw [if_neg hquote, if_neg (not_or.mpr ⟨hcomma, hreturn⟩), if_neg hline]
        refine ⟨{ r with mode := .bare, field := c :: value }, ?_, rfl, rfl, rfl, .inl rfl⟩
        rw [Reader.read_cons, hsteps, Option.bind_some, read_bare m rfl hvalue]
        simp [Reader.push, hfield]

/-- A comma ends the field, -/
theorem Reader.Holds.step_comma {r after : Reader α} {value : Field α} (h : r.Holds after value) :
    after.step m m.comma = some ⟨.start, [], r.record ++ [value], r.records⟩ := by
  obtain ⟨hfield, hrecord, hrecords, hmode⟩ := h
  unfold Reader.step
  rcases hmode with hmode | hmode | ⟨hmode, -⟩
  · simp [hmode, Reader.leave, Reader.endField, hfield, hrecord, hrecords]
  · simp [hmode, Reader.leave, Reader.endField, hfield, hrecord, hrecords]
  · simp [hmode, Reader.leave, Reader.endField, hfield, hrecord, hrecords]

/-- and a line end ends the record. -/
theorem Reader.Holds.read_crlf {r after : Reader α} {value : Field α} (h : r.Holds after value) :
    after.read m (crlf m) = some ⟨.start, [], [], r.records ++ [r.record ++ [value]]⟩ := by
  obtain ⟨hfield, hrecord, hrecords, hmode⟩ := h
  have hreturn : after.step m m.cr = some { after with mode := .lineBreak } := by
    unfold Reader.step
    rcases hmode with hmode | hmode | ⟨hmode, -⟩
    · simp [hmode, Reader.leave]
    · simp [hmode, Reader.leave]
    · simp [hmode, Reader.leave]
  unfold crlf
  rw [Reader.read_cons, hreturn, Option.bind_some, Reader.read_cons]
  simp [Reader.step, Reader.endRecord, Reader.read, hfield, hrecord, hrecords]

/-- **A record** is read back whole. -/
theorem read_record {r : Reader α} (hmode : r.mode = .start) (hfield : r.field = [])
    {fields : Record α} (hfields : fields ≠ []) :
    r.read m (record m fields ++ crlf m) =
      some ⟨.start, [], [], r.records ++ [r.record ++ fields]⟩ := by
  induction fields generalizing r with
  | nil => exact absurd rfl hfields
  | cons value fields ih =>
      obtain ⟨after, hread, hholds⟩ := read_field m hmode hfield value
      cases fields with
      | nil =>
          have hone : record m [value] = field m value := by simp [record, List.intercalate]
          rw [hone, Reader.read_append, hread, Option.bind_some, hholds.read_crlf m]
      | cons next fields =>
          have hsplit : record m (value :: next :: fields) ++ crlf m =
              field m value ++ m.comma :: (record m (next :: fields) ++ crlf m) := by
            simp [record, List.intercalate]
          rw [hsplit, Reader.read_append, hread, Option.bind_some, Reader.read_cons,
            hholds.step_comma m, Option.bind_some, ih rfl rfl (List.cons_ne_nil _ _)]
          simp

/-- Records are read one after another. -/
theorem read_document {r : Reader α} (hmode : r.mode = .start) (hfield : r.field = [])
    (hrecord : r.record = []) {records : List (Record α)} (hrecords : ∀ fields ∈ records, fields ≠ []) :
    r.read m (document m records) = some ⟨.start, [], [], r.records ++ records⟩ := by
  induction records generalizing r with
  | nil =>
      rw [List.append_nil]
      obtain ⟨mode, value, fields, before⟩ := r
      dsimp only at hmode hfield hrecord
      rw [hmode, hfield, hrecord]
      rfl
  | cons fields records ih =>
      have hsplit : document m (fields :: records) = (record m fields ++ crlf m) ++ document m records :=
        List.flatMap_cons
      obtain ⟨hfirst, hrest⟩ := List.forall_mem_cons.mp hrecords
      rw [hsplit, Reader.read_append, read_record m hmode hfield hfirst, Option.bind_some,
        ih rfl rfl rfl hrest, hrecord]
      simp

/-- **Round trip.** -/
theorem parse_document {records : List (Record α)} (hrecords : ∀ fields ∈ records, fields ≠ []) :
    parse m (document m records) = some records := by
  unfold parse
  rw [read_document m rfl rfl rfl hrecords]
  simp [Reader.finish, Reader.initial]

end

end Csv
