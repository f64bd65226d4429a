import SimplefinBridge.Dates
import SimplefinBridge.JsonStrings
import SimplefinBridge.Library.Replacements

/-!
# Log lines

Secrets are registered with `redact`, and every line is scrubbed of them after
it is put together.  A registered secret that has no bracket and does not occur
in `[redacted]` is in no line (`scrub_clean`), whatever the other secrets are.

The extra object of a line is written as JSON before the line is scrubbed, so a
secret with a quotation mark, a backslash or a control character stands in the
line escaped, and scrubbing does not look for that form.  It is out of every
line exactly when it contains a registered secret itself (`redaction_complete_iff`).
-/

namespace SimplefinBridge

open Replacements

inductive Level
  | info | warn | error | debug
  deriving DecidableEq, Repr

def Level.text : Level → String
  | .info => "info"
  | .warn => "warn"
  | .error => "error"
  | .debug => "debug"

/-- Register a secret value so it never appears in logs. Short values (< 4
chars) are ignored. -/
def redact (secrets : List String) (value : Option String) : List String :=
  match value with
  | none => secrets
  | some secret =>
      if (jsUnits secret).length < 4 ∨ secret ∈ secrets then secrets else secrets ++ [secret]

/-- The secrets after a run of registrations, in insertion order. -/
def registered (values : List (Option String)) : List String := values.foldl redact []

def redacted : List Char := "[redacted]".toList

def scrub (secrets : List String) (text : List Char) : List Char :=
  replaceEach redacted (secrets.map String.toList) text

/-- `level.padEnd(5)` -/
def padLevel (level : Level) : List Char :=
  level.text.toList ++ List.replicate (5 - level.text.toList.length) ' '

section
variable (host : Host)

/-- The extra object; a field whose value is `undefined` is not written. -/
def suffix (extra : Option (List (String × Option Json))) : List Char :=
  match extra with
  | none => []
  | some fields =>
      if fields.length = 0 then []
      else ' ' :: (Json.obj (fields.filterMap fun (key, value) =>
        value.map fun value => (key, value))).stringify host

/-- A line before it is scrubbed. -/
def unscrubbed (now : Instant) (level : Level) (scope message : String)
    (extra : Option (List (String × Option Json))) : List Char :=
  (toIsoString now).toList ++ ' ' :: (padLevel level ++ " [".toList ++ scope.toList ++
    "] ".toList ++ message.toList ++ suffix host extra)

def format (secrets : List String) (now : Instant) (level : Level) (scope message : String)
    (extra : Option (List (String × Option Json))) : List Char :=
  scrub secrets (unscrubbed host now level scope message extra)

/-- The line that the logger writes; a debug line only when lines are verbose. -/
def emitLine (verbose : Bool) (secrets : List String) (now : Instant) (level : Level)
    (scope message : String) (extra : Option (List (String × Option Json))) :
    Option (List Char) :=
  if level = .debug ∧ verbose = false then none
  else some (format host secrets now level scope message extra)

end

/-! ## Secrets as they are -/

/-- A secret that the replacement neither has nor resembles. -/
structure Scrubbable (secret : String) : Prop where
  no_open : '[' ∉ secret.toList
  no_close : ']' ∉ secret.toList
  not_redacted : ¬ secret.toList <:+: redacted

theorem four_le_of_registered {values : List (Option String)} {secret : String}
    (h : secret ∈ registered values) : 4 ≤ (jsUnits secret).length := by
  induction values using List.reverseRecOn with
  | nil => cases h
  | append_singleton values value ih =>
      unfold registered at h
      rw [List.foldl_append] at h
      change secret ∈ redact (registered values) value at h
      cases value with
      | none => exact ih h
      | some other =>
          unfold redact at h
          dsimp only at h
          split_ifs at h with hskip
          · exact ih h
          · rcases List.mem_append.mp h with h | h
            · exact ih h
            · rw [List.mem_singleton.mp h]
              exact not_lt.mp fun hshort => hskip (.inl hshort)

theorem admissible_of_registered {values : List (Option String)} {secret : String}
    (hmem : secret ∈ registered values) (h : Scrubbable secret) :
    Admissible '[' "redacted".toList ']' secret.toList := by
  refine ⟨?_, h.no_open, h.no_close, h.not_redacted⟩
  intro hnil
  have hlength := four_le_of_registered hmem
  unfold jsUnits at hlength
  rw [hnil] at hlength
  cases hlength

/-- **Scrubbed.**  No registered secret is left in a text, whatever the text and
the other secrets are. -/
theorem scrub_clean {values : List (Option String)}
    (h : ∀ secret ∈ registered values, Scrubbable secret) {secret : String}
    (hsecret : secret ∈ registered values) (text : List Char) :
    ¬ secret.toList <:+: scrub (registered values) text := by
  have hall : ∀ pattern ∈ (registered values).map String.toList,
      Admissible '[' "redacted".toList ']' pattern := by
    intro pattern hpattern
    obtain ⟨other, hother, rfl⟩ := List.mem_map.mp hpattern
    exact admissible_of_registered hother (h other hother)
  exact replaceEach_clean hall (List.mem_map_of_mem hsecret) text

/-! ## Secrets in JSON -/

/-- `JSON.stringify(secret)`, without its quotation marks. -/
def escaped (secret : String) : List Char := secret.toList.flatMap jsonChar

/-- A text in the extra object is in the line, escaped. -/
theorem escaped_in_line (host : Host) (now : Instant) (level : Level) (scope message text : String) :
    ∃ a b, unscrubbed host now level scope message (some [("note", some (.str text))]) =
      a ++ (escaped text ++ b) := by
  refine ⟨(toIsoString now).toList ++ ' ' :: (padLevel level ++ " [".toList ++ scope.toList ++
    "] ".toList ++ message.toList ++ ' ' :: '\x7b' :: (jsonText "note" ++ [':', '\x22'])),
    ['\x22', '\x7d'], ?_⟩
  have hjson : suffix host (some [("note", some (.str text))]) =
      ' ' :: '\x7b' :: (jsonText "note" ++ ':' :: ('\x22' :: (escaped text ++ ['\x22'])) ++
        ['\x7d']) := by
    change ' ' :: '\x7b' :: ([','].intercalate [jsonText "note" ++ ':' :: jsonText text] ++ _) = _
    rw [List.intercalate_singleton]
    rfl
  unfold unscrubbed
  rw [hjson]
  simp only [List.append_assoc, List.cons_append, List.nil_append]

theorem escaped_fenced (secret : String) :
    escaped (String.ofList ('[' :: (secret.toList ++ ['[']))) =
      '[' :: (escaped secret ++ ['[']) := by
  unfold escaped
  rw [String.toList_ofList, List.flatMap_cons, List.flatMap_append]
  rfl

/-- **Redaction is complete** for the secrets whose escaped form has a
registered secret in it, and only for them. -/
theorem redaction_complete_iff (host : Host) (values : List (Option String))
    (h : ∀ secret ∈ registered values, Scrubbable secret) :
    (∀ verbose now level scope message extra line,
        emitLine host verbose (registered values) now level scope message extra = some line →
          ∀ secret ∈ registered values,
            ¬ secret.toList <:+: line ∧ ¬ escaped secret <:+: line) ↔
      ∀ secret ∈ registered values, ∃ other ∈ registered values,
        other.toList <:+: escaped secret := by
  constructor
  · intro hclean secret hsecret
    by_contra hnone
    -- a line with the secret between two brackets, which no secret has
    have hemit : emitLine host false (registered values) 0 .info "" "" (some [("note", some (.str
        (String.ofList ('[' :: (secret.toList ++ ['['])))))]) =
          some (format host (registered values) 0 .info "" "" _) := rfl
    refine (hclean false 0 .info "" "" _ _ hemit secret hsecret).2 ?_
    obtain ⟨a, b, htext⟩ := escaped_in_line host 0 .info "" ""
      (String.ofList ('[' :: (secret.toList ++ ['['])))
    rw [escaped_fenced, List.cons_append, List.append_assoc] at htext
    have hall : ∀ pattern ∈ (registered values).map String.toList,
        pattern ≠ [] ∧ '[' ∉ pattern ∧ ¬ pattern <:+: escaped secret := by
      intro pattern hpattern
      obtain ⟨other, hother, rfl⟩ := List.mem_map.mp hpattern
      have hadmissible := admissible_of_registered hother (h other hother)
      exact ⟨hadmissible.nonempty, hadmissible.no_first,
        fun hinside => hnone ⟨other, hother, hinside⟩⟩
    obtain ⟨a', b', hkept⟩ := @replaceEach_keeps _ _ redacted _ '[' _ hall a b
    unfold format scrub
    rw [htext]
    change escaped secret <:+: replaceEach redacted _ (a ++ '[' :: (escaped secret ++ '[' :: b))
    rw [hkept]
    refine ⟨a' ++ ['['], '[' :: b', ?_⟩
    simp only [List.append_assoc, List.cons_append, List.nil_append]
  · intro hcovered verbose now level scope message extra line hline secret hsecret
    unfold emitLine at hline
    split_ifs at hline
    rw [← Option.some.inj hline]
    refine ⟨scrub_clean h hsecret _, fun hescaped => ?_⟩
    obtain ⟨other, hother, hinside⟩ := hcovered secret hsecret
    exact scrub_clean h hother _ (hinside.trans hescaped)

theorem redaction_complete_plain :
    (∀ verbose now level scope message extra line,
        emitLine asciiHost verbose (registered [some "hunter22"]) now level scope message extra =
          some line → ∀ secret ∈ registered [some "hunter22"],
            ¬ secret.toList <:+: line ∧ ¬ escaped secret <:+: line) ↔
      ∀ secret ∈ registered [some "hunter22"], ∃ other ∈ registered [some "hunter22"],
        other.toList <:+: escaped secret := by
  refine redaction_complete_iff asciiHost [some "hunter22"] fun secret hsecret => ?_
  have heq : secret = "hunter22" := List.mem_singleton.mp hsecret
  rw [heq]
  exact ⟨by decide, by decide, by decide⟩

/-- A secret with a quotation mark, in the extra object of a line. -/
theorem escaped_secret_in_line :
    (∀ secret ∈ registered [some "pa\x22ss"], Scrubbable secret) ∧
      ¬ ∀ extra line, emitLine asciiHost false (registered [some "pa\x22ss"]) 0 .info "bank"
        "login" extra = some line → ∀ secret ∈ registered [some "pa\x22ss"],
          ¬ secret.toList <:+: line ∧ ¬ escaped secret <:+: line := by
  constructor
  · intro secret hsecret
    have heq : secret = "pa\x22ss" := List.mem_singleton.mp hsecret
    rw [heq]
    exact ⟨by decide, by decide, by decide⟩
  intro hclean
  have hline := hclean (some [("note", some (.str "pa\x22ss"))]) _ rfl "pa\x22ss" (by decide)
  exact hline.2 (by decide +kernel)

end SimplefinBridge
