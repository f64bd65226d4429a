import SimplefinBridge.InvestmentSchema
import SimplefinBridge.JsonStrings
import SimplefinBridge.Library.JsonTexts

/-!
# Numbers of the Best Invest source

The amounts of Best Invest arrive as JSON numbers, which `JSON.parse` would
round.  `parseBestInvestJson` therefore puts every number outside a string in
quotation marks before it parses the text.

Token by token the rewritten text is the old one with its numbers quoted
(`lex_rewriteNumbers`), so on a JSON text the result is the value of the text
with each number replaced by its lexeme.  It is not only on JSON texts that the
rewritten text parses: a number in the place of a member name becomes a name.
-/

namespace SimplefinBridge

open Decimals JsonTexts

/-- The loop of `parseBestInvestJson` from one character on; `skip` characters
are left of a number that was taken. -/
def rewriteNumbers (quoted escaped : Bool) (skip : Nat) : List Char → Option (List Char)
  | [] => some []
  | character :: rest =>
      if 0 < skip then rewriteNumbers quoted escaped (skip - 1) rest
      else if quoted then
        if escaped then (rewriteNumbers true false 0 rest).map (character :: ·)
        else if character = '\x5c' then (rewriteNumbers true true 0 rest).map (character :: ·)
        else if character = '\x22' then (rewriteNumbers false false 0 rest).map (character :: ·)
        else (rewriteNumbers true false 0 rest).map (character :: ·)
      else if character = '\x22' then (rewriteNumbers true escaped 0 rest).map (character :: ·)
      else if character = '-' ∨ character.isDigit then
        match scanNumber (character :: rest) with
        | none => none
        | some (number, _) =>
            (rewriteNumbers false escaped (number.text.length - 1) rest).map
              (jsonText (String.ofList number.text) ++ ·)
      else (rewriteNumbers false escaped 0 rest).map (character :: ·)

/-- Preserve JSON number lexemes before any binary conversion. -/
def parseBestInvestJson (input : List Char) : Except InvestmentErrorCode Tree :=
  match (rewriteNumbers false false 0 input).bind parseText with
  | some value => .ok value
  | none => .error .INVALID_RESPONSE

/-! ## The scanner keeps the tokens -/

section
variable {text rest : List Char} {c : Char}

/-- Characters that a number has taken are skipped. -/
theorem rewriteNumbers_skip (quoted escaped : Bool) (skip : Nat) (text : List Char) :
    rewriteNumbers quoted escaped skip text =
      rewriteNumbers quoted escaped 0 (text.drop skip) := by
  induction text generalizing skip with
  | nil =>
      rw [List.drop_nil]
      rfl
  | cons c text ih =>
      cases skip with
      | zero => rfl
      | succ skip =>
          rw [List.drop_succ_cons, ← ih skip]
          exact if_pos (Nat.succ_pos skip)

/-- Outside a string. -/
def requote (text : List Char) : Option (List Char) := rewriteNumbers false false 0 text

/-- The rewriter at a character outside a string, -/
theorem requote_cons : requote (c :: rest) =
    if c = '\x22' then (rewriteNumbers true false 0 rest).map (c :: ·)
    else if c = '-' ∨ c.isDigit then
      match scanNumber (c :: rest) with
      | none => none
      | some (number, _) => (rewriteNumbers false false (number.text.length - 1) rest).map
          (jsonText (String.ofList number.text) ++ ·)
    else (requote rest).map (c :: ·) := rfl

/-- and inside one. -/
theorem quoted_cons (escaped : Bool) : rewriteNumbers true escaped 0 (c :: rest) =
    if escaped then (rewriteNumbers true false 0 rest).map (c :: ·)
    else if c = '\x5c' then (rewriteNumbers true true 0 rest).map (c :: ·)
    else if c = '\x22' then (requote rest).map (c :: ·)
    else (rewriteNumbers true false 0 rest).map (c :: ·) := rfl

/-- A character that begins neither is kept. -/
theorem requote_plain (hquote : c ≠ '\x22') (hnumber : ¬ (c = '-' ∨ c.isDigit = true)) :
    requote (c :: rest) = (requote rest).map (c :: ·) := by
  rw [requote_cons, if_neg hquote, if_neg hnumber]

/-- The rewritten text begins as the text does, or with a mark. -/
theorem requote_head {copied : List Char} (h : requote (c :: rest) = some copied) :
    ∃ first others, copied = first :: others ∧ (first = c ∨ first = '\x22') := by
  have hmap : ∀ {copied' : Option (List Char)}, copied'.map (c :: ·) = some copied →
      ∃ first others, copied = first :: others ∧ (first = c ∨ first = '\x22') := by
    intro copied' h
    obtain ⟨others, -, rfl⟩ := Option.map_eq_some_iff.mp h
    exact ⟨c, others, rfl, .inl rfl⟩
  rw [requote_cons] at h
  by_cases hquote : c = '\x22'
  · rw [if_pos hquote] at h
    exact hmap h
  rw [if_neg hquote] at h
  by_cases hnumber : c = '-' ∨ c.isDigit = true
  · rw [if_pos hnumber] at h
    cases hscan : scanNumber (c :: rest) with
    | none =>
        rw [hscan] at h
        cases h
    | some read =>
        rw [hscan] at h
        obtain ⟨others, -, rfl⟩ := Option.map_eq_some_iff.mp h
        exact ⟨'\x22', _, rfl, .inr rfl⟩
  · rw [if_neg hnumber] at h
    exact hmap h

/-- A string begins. -/
theorem requote_quote :
    requote ('\x22' :: rest) = (rewriteNumbers true false 0 rest).map ('\x22' :: ·) := rfl

/-- A number is quoted as it is written. -/
theorem requote_number (hnumber : c = '-' ∨ c.isDigit = true) :
    requote (c :: rest) = (scanNumber (c :: rest)).bind fun (number, rest) =>
      (requote rest).map (jsonText (String.ofList number.text) ++ ·) := by
  have hquote : c ≠ '\x22' := by
    rintro rfl
    revert hnumber
    decide
  rw [requote_cons, if_neg hquote, if_pos hnumber]
  cases hscan : scanNumber (c :: rest) with
  | none => rfl
  | some read =>
      obtain ⟨number, after⟩ := read
      obtain ⟨hform, htext⟩ := scanNumber_spec hscan
      have hdrop : rest.drop (number.text.length - 1) = after := by
        obtain ⟨first, others, hcons⟩ := List.exists_cons_of_ne_nil hform.text_ne_nil
        rw [hcons, List.cons_append] at htext
        rw [hcons, List.length_cons, Nat.add_sub_cancel, ← (List.cons.inj htext).2,
          List.drop_left]
      dsimp only
      rw [rewriteNumbers_skip, hdrop]
      rfl

/-- The scanner's flag in a state of the reader of strings. -/
def escapedIn : InString → Bool
  | .escape => true
  | _ => false

/-- What is copied and read again is what is read and then copied. -/
def CopiesString (state : InString) (text : List Char) : Prop :=
  (rewriteNumbers true (escapedIn state) 0 text).bind (scanString state) =
    (scanString state text).bind fun (units, rest) => (requote rest).map (units, ·)

/-- One character of a string that both readers pass over. -/
theorem CopiesString.cons {state state' : InString} {f : List Nat → List Nat}
    (hcopy : rewriteNumbers true (escapedIn state) 0 (c :: text) =
      (rewriteNumbers true (escapedIn state') 0 text).map (c :: ·))
    (hscan : ∀ text, scanString state (c :: text) =
      (scanString state' text).map fun (units, rest) => (f units, rest))
    (h : CopiesString state' text) : CopiesString state (c :: text) := by
  unfold CopiesString at h ⊢
  have hread : ((rewriteNumbers true (escapedIn state') 0 text).map (c :: ·)).bind
      (scanString state) =
        ((rewriteNumbers true (escapedIn state') 0 text).bind (scanString state')).map
          fun (units, rest) => (f units, rest) := by
    cases rewriteNumbers true (escapedIn state') 0 text with
    | none => rfl
    | some copied => exact hscan copied
  rw [hcopy, hread, h, hscan]
  cases scanString state' text with
  | none => rfl
  | some read =>
      obtain ⟨units, after⟩ := read
      change ((requote after).map (units, ·)).map _ = (requote after).map (f units, ·)
      rw [Option.map_map]
      rfl

/-- A character that no string has where it stands. -/
theorem CopiesString.stop {state : InString} {copied : Option (List Char)}
    (hcopy : rewriteNumbers true (escapedIn state) 0 (c :: text) = copied.map (c :: ·))
    (hscan : ∀ text, scanString state (c :: text) = none) : CopiesString state (c :: text) := by
  unfold CopiesString
  rw [hcopy, hscan]
  cases copied with
  | none => rfl
  | some copied => exact hscan copied

/-- Nothing is put before what was read. -/
theorem map_same (read : Option (List Nat × List Char)) :
    (read.map fun (units, rest) => (id units, rest)) = read := by
  cases read <;> rfl

/-- A hexadecimal digit neither ends nor escapes. -/
theorem ne_marks_of_hexValue {digit : Nat} (h : JsonTexts.hexValue c = some digit) :
    c ≠ '\x22' ∧ c ≠ '\x5c' := by
  constructor
  · rintro rfl
    cases h
  · rintro rfl
    cases h

/-- **Inside a string** the scanner copies up to the closing mark. -/
theorem copiesString (text : List Char) (state : InString) : CopiesString state text := by
  induction text generalizing state with
  | nil => cases state <;> rfl
  | cons c text ih =>
      cases state with
      | plain =>
          have hcopy := @quoted_cons text c false
          rw [if_neg Bool.false_ne_true] at hcopy
          by_cases hclose : c = '\x22'
          · subst hclose
            change ((requote text).map ('\x22' :: ·)).bind (scanString .plain) =
              (requote text).map ([], ·)
            cases requote text <;> rfl
          by_cases hescape : c = '\x5c'
          · rw [if_pos hescape] at hcopy
            refine @CopiesString.cons text c .plain .escape id hcopy (fun text => ?_) (ih .escape)
            rw [scan_plain, if_neg hclose, if_pos hescape]
            exact (map_same _).symm
          rw [if_neg hescape, if_neg hclose] at hcopy
          by_cases hcontrol : c.toNat < 0x20
          · refine CopiesString.stop hcopy fun text => ?_
            rw [scan_plain, if_neg hclose, if_neg hescape, if_pos hcontrol]
          · refine @CopiesString.cons text c .plain .plain (charUnits c ++ ·) hcopy
              (fun text => ?_) (ih .plain)
            rw [scan_plain, if_neg hclose, if_neg hescape, if_neg hcontrol]
      | escape =>
          have hcopy := @quoted_cons text c true
          rw [if_pos rfl] at hcopy
          by_cases hhex : c = 'u'
          · refine @CopiesString.cons text c .escape (.hex 3 0) id hcopy (fun text => ?_)
              (ih (.hex 3 0))
            rw [scan_escape, if_pos hhex]
            exact (map_same _).symm
          · cases hunit : escapeUnit c with
            | none =>
                refine CopiesString.stop hcopy fun text => ?_
                rw [scan_escape, if_neg hhex, hunit]
                rfl
            | some unit =>
                refine @CopiesString.cons text c .escape .plain (unit :: ·) hcopy
                  (fun text => ?_) (ih .plain)
                rw [scan_escape, if_neg hhex, hunit]
                rfl
      | hex left unit =>
          have hcopy := @quoted_cons text c false
          rw [if_neg Bool.false_ne_true] at hcopy
          cases hdigit : JsonTexts.hexValue c with
          | none =>
              have hstop : ∀ text, scanString (.hex left unit) (c :: text) = none := by
                intro text
                rw [scan_hex, hdigit]
                rfl
              split_ifs at hcopy
              · exact CopiesString.stop hcopy hstop
              · exact CopiesString.stop hcopy hstop
              · exact CopiesString.stop hcopy hstop
          | some digit =>
              obtain ⟨hclose, hescape⟩ := ne_marks_of_hexValue hdigit
              rw [if_neg hescape, if_neg hclose] at hcopy
              cases left with
              | zero =>
                  refine @CopiesString.cons text c (.hex 0 unit) .plain
                    ((unit * 16 + digit) :: ·) hcopy (fun text => ?_) (ih .plain)
                  rw [scan_hex, hdigit]
                  rfl
              | succ left =>
                  refine @CopiesString.cons text c (.hex (left + 1) unit)
                    (.hex left (unit * 16 + digit)) id hcopy (fun text => ?_) (ih _)
                  rw [scan_hex, hdigit]
                  exact (map_same _).symm

end

/-! ## Numbers and words -/

section
variable {text rest : List Char} {c : Char}

/-- A character that a string has as it is. -/
def IsPlain (c : Char) : Prop := c ≠ '\x22' ∧ c ≠ '\x5c' ∧ 0x20 ≤ c.toNat

/-- A plain string is its characters. -/
theorem scanString_plain (h : ∀ c ∈ text, IsPlain c) :
    scanString .plain (text ++ '\x22' :: rest) = some (text.flatMap charUnits, rest) := by
  induction text with
  | nil => rfl
  | cons c text ih =>
      obtain ⟨hclose, hescape, hcontrol⟩ := h c List.mem_cons_self
      rw [List.cons_append, scan_plain, if_neg hclose, if_neg hescape, if_neg (not_lt.mpr hcontrol),
        ih fun c hc => h c (List.mem_cons_of_mem _ hc)]
      rfl

/-- A plain character is written as it is. -/
theorem jsonChar_plain (h : IsPlain c) : jsonChar c = [c] := by
  obtain ⟨hclose, hescape, hcontrol⟩ := h
  have hval : c.val.toNat = c.toNat := rfl
  have hne : ∀ n : UInt32, n.toNat < 0x20 → c.val ≠ n := by
    intro n hn heq
    rw [← heq, hval] at hn
    omega
  have hlarge : ¬ c.val < 0x20 := by
    rw [UInt32.lt_iff_toNat_lt, hval]
    exact not_lt.mpr hcontrol
  unfold jsonChar
  rw [if_neg hclose, if_neg hescape, if_neg (hne _ (by decide)), if_neg (hne _ (by decide)),
    if_neg (hne _ (by decide)), if_neg (hne _ (by decide)), if_neg (hne _ (by decide)),
    if_neg hlarge]

/-- So is a plain text. -/
theorem jsonText_plain (h : ∀ c ∈ text, IsPlain c) :
    jsonText (String.ofList text) = '\x22' :: (text ++ ['\x22']) := by
  have hsame : text.flatMap jsonChar = text := by
    induction text with
    | nil => rfl
    | cons c text ih =>
        rw [List.flatMap_cons, jsonChar_plain (h c List.mem_cons_self),
          ih fun c hc => h c (List.mem_cons_of_mem _ hc)]
        rfl
  unfold jsonText
  rw [String.toList_ofList, hsame]

/-- A number is a plain text. -/
theorem isPlain_number {number : NumberParts} (h : number.WellFormed) :
    ∀ c ∈ number.text, IsPlain c := by
  intro c hc
  rcases h.mem_text hc with hdigit | hmark
  · obtain ⟨hlow, -⟩ := toNat_of_isDigit hdigit
    refine ⟨?_, ?_, by omega⟩
    · rintro rfl
      cases hdigit
    · rintro rfl
      cases hdigit
  · have hall : ∀ c ∈ ['-', '+', '.', 'e', 'E'], c ≠ '\x22' ∧ c ≠ '\x5c' ∧ 0x20 ≤ c.toNat :=
      forall_char_of_all (by decide)
    exact hall c hmark

/-- A word is in the rewritten text where it is in the text. -/
theorem stripWord_requote {word : List Char}
    (hword : ∀ c ∈ word, c ≠ '\x22' ∧ ¬ (c = '-' ∨ c.isDigit = true)) (text : List Char) :
    (requote text).bind (stripWord word) = (stripWord word text).bind requote := by
  induction word generalizing text with
  | nil =>
      change (requote text).bind some = requote text
      cases requote text <;> rfl
  | cons a word ih =>
      obtain ⟨hquote, hnumber⟩ := hword a List.mem_cons_self
      have hih := ih fun c hc => hword c (List.mem_cons_of_mem _ hc)
      have hstrip : ∀ (c : Char) (text : List Char), stripWord (a :: word) (c :: text) =
          if c = a then stripWord word text else none := fun _ _ => rfl
      cases text with
      | nil => rfl
      | cons c text =>
          rw [hstrip]
          by_cases hc : c = a
          · subst hc
            rw [if_pos rfl, ← hih, requote_plain hquote hnumber]
            cases requote text with
            | none => rfl
            | some copied => exact (hstrip c copied).trans (if_pos rfl)
          · rw [if_neg hc]
            -- the rewritten text begins with this character or with a mark
            cases hcopy : requote (c :: text) with
            | none => rfl
            | some copied =>
                obtain ⟨first, others, rfl, hfirst⟩ := requote_head hcopy
                have hne : first ≠ a := by
                  rcases hfirst with rfl | rfl
                  · exact hc
                  · exact fun heq => hquote heq.symm
                exact (hstrip first others).trans (if_neg hne)

/-! ## The tokens of the rewritten text -/

/-- Punctuation is kept by the rewriter, -/
theorem punctuation_spec {token : Token} (h : punctuation c = some token) :
    c ≠ '\x22' ∧ ¬ (c = '-' ∨ c.isDigit = true) ∧ token.quote = token := by
  unfold punctuation at h
  split_ifs at h with h1 h2 h3 h4 h5 h6
  all_goals
    subst_vars
    cases h
    exact ⟨by decide, by decide, rfl⟩

/-- and so are keywords. -/
theorem keyword_spec {word : List Char} {token : Token} (h : keyword c = some (word, token)) :
    (∀ c ∈ word, c ≠ '\x22' ∧ ¬ (c = '-' ∨ c.isDigit = true)) ∧ token.quote = token := by
  unfold keyword at h
  split_ifs at h
  all_goals
    cases h
    exact ⟨forall_char_of_all (by decide), rfl⟩

/-- The first token of a text. -/
theorem readFirst_cons (hspace : isSpace c = false) :
    readFirst (c :: rest) = readToken c rest := by
  change (if isSpace c then _ else _) = _
  rw [hspace, if_neg Bool.false_ne_true]

/-- **One token** of the rewritten text is the token of the text, quoted. -/
theorem readFirst_requote (hspace : isSpace c = false) :
    (requote (c :: rest)).bind readFirst =
      (readToken c rest).bind fun (token, rest) => (requote rest).map (token.quote, ·) := by
  have hplain : c ≠ '\x22' → ¬ (c = '-' ∨ c.isDigit = true) →
      (requote (c :: rest)).bind readFirst = (requote rest).bind (readToken c) := by
    intro hquote hnumber
    rw [requote_plain hquote hnumber]
    cases requote rest with
    | none => rfl
    | some copied => exact readFirst_cons hspace
  cases hpunctuation : punctuation c with
  | some token =>
      obtain ⟨hquote, hnumber, htoken⟩ := punctuation_spec hpunctuation
      have hread : ∀ rest, readToken c rest = some (token, rest) := by
        intro rest
        unfold readToken
        rw [hpunctuation]
      rw [hplain hquote hnumber, hread, Option.bind_some]
      dsimp only
      rw [htoken]
      cases requote rest with
      | none => rfl
      | some copied => exact hread copied
  | none =>
      have hread := fun after => @readToken_of_none c after hpunctuation
      by_cases hquote : c = '\x22'
      · subst hquote
        have hstring := copiesString rest .plain
        unfold CopiesString at hstring
        change (rewriteNumbers true false 0 rest).bind (scanString .plain) = _ at hstring
        have hcopy : ((rewriteNumbers true false 0 rest).map ('\x22' :: ·)).bind readFirst =
            ((rewriteNumbers true false 0 rest).bind (scanString .plain)).map
              fun read => (Token.string read.1, read.2) := by
          cases rewriteNumbers true false 0 rest <;> rfl
        rw [requote_quote, hcopy, hstring, hread, if_pos rfl]
        cases scanString .plain rest with
        | none => rfl
        | some read =>
            obtain ⟨units, after⟩ := read
            change ((requote after).map (units, ·)).map _ = (requote after).map _
            rw [Option.map_map]
            rfl
      by_cases hnumber : c = '-' ∨ c.isDigit = true
      · rw [requote_number hnumber, hread, if_neg hquote, if_pos hnumber]
        cases hscan : scanNumber (c :: rest) with
        | none => rfl
        | some read =>
            obtain ⟨number, after⟩ := read
            have hall := isPlain_number (scanNumber_spec hscan).1
            rw [Option.bind_some, Option.map_some, Option.bind_some]
            dsimp only
            rw [jsonText_plain hall]
            cases requote after with
            | none => rfl
            | some copied =>
                have hscanned := @scanString_plain number.text copied hall
                have htext : ('\x22' :: (number.text ++ ['\x22'])) ++ copied =
                    '\x22' :: (number.text ++ '\x22' :: copied) := by
                  rw [List.cons_append, List.append_assoc]
                  rfl
                change readFirst (('\x22' :: (number.text ++ ['\x22'])) ++ copied) = some _
                rw [htext]
                change (scanString .plain (number.text ++ '\x22' :: copied)).map _ = _
                rw [hscanned]
                rfl
      · rw [hplain hquote hnumber, hread, if_neg hquote, if_neg hnumber]
        cases hword : keyword c with
        | none =>
            cases requote rest with
            | none => rfl
            | some copied =>
                change readToken c copied = none
                rw [hread, if_neg hquote, if_neg hnumber, hword]
                rfl
        | some pair =>
            obtain ⟨word, token⟩ := pair
            obtain ⟨hletters, htoken⟩ := keyword_spec hword
            have hstrip := stripWord_requote hletters rest
            have hcopy : (requote rest).bind (readToken c) =
                ((requote rest).bind (stripWord word)).map (token, ·) := by
              cases requote rest with
              | none => rfl
              | some copied =>
                  change readToken c copied = _
                  rw [hread, if_neg hquote, if_neg hnumber, hword]
                  rfl
            rw [hcopy, hstrip, Option.bind_some]
            dsimp only
            cases stripWord word rest with
            | none => rfl
            | some after =>
                change (requote after).map (token, ·) = (requote after).map (token.quote, ·)
                rw [htoken]

/-- **The tokens** of the rewritten text are the tokens of the text, with its
numbers quoted. -/
theorem lex_requote (text : List Char) :
    (requote text).bind lex = (lex text).map fun tokens => tokens.map Token.quote := by
  induction hlength : text.length using Nat.strong_induction_on generalizing text with
  | _ length ih =>
      cases text with
      | nil => rfl
      | cons c rest =>
          have hrest : rest.length < length := by
            rw [← hlength]
            exact Nat.lt_succ_self _
          cases hspace : isSpace c with
          | true =>
              have hquote : c ≠ '\x22' := by
                rintro rfl
                cases hspace
              have hnumber : ¬ (c = '-' ∨ c.isDigit = true) := by
                rcases of_decide_eq_true hspace with rfl | rfl | rfl | rfl
                all_goals decide
              rw [requote_plain hquote hnumber, lex_space hspace, ← ih _ hrest rest rfl]
              cases requote rest with
              | none => rfl
              | some copied => exact lex_space hspace
          | false =>
              have hfirst := @readFirst_requote rest c hspace
              have hlex : (requote (c :: rest)).bind lex =
                  ((requote (c :: rest)).bind readFirst).bind
                    fun (token, rest) => (lex rest).map (token :: ·) := by
                cases hcopy : requote (c :: rest) with
                | none => rfl
                | some copied =>
                    obtain ⟨first, others, rfl, hfirst⟩ := requote_head hcopy
                    have hopen : isSpace first = false := by
                      rcases hfirst with rfl | rfl
                      · exact hspace
                      · rfl
                    change lex (first :: others) = (readFirst (first :: others)).bind _
                    rw [lex_token hopen, readFirst_cons hopen]
              rw [hlex, hfirst, lex_token hspace]
              cases htoken : readToken c rest with
              | none => rfl
              | some read =>
                  obtain ⟨token, after⟩ := read
                  have hafter := (readToken_length htoken).trans_lt hrest
                  have hih := ih _ hafter after rfl
                  change ((requote after).map (token.quote, ·)).bind _ =
                    ((lex after).map (token :: ·)).map _
                  rw [Option.map_map]
                  have hstep : ((requote after).map (token.quote, ·)).bind
                      (fun read : Token × List Char => (lex read.2).map (read.1 :: ·)) =
                        ((requote after).bind lex).map (token.quote :: ·) := by
                    cases requote after <;> rfl
                  rw [hstep, hih, Option.map_map]
                  rfl

end

/-! ## Which texts are accepted -/

/-- The names that a member may have when numbers count as their strings. -/
def isStringOrNumber : Token → Bool := Token.isString ∘ Token.quote

/-- Some member of an object has a number in the place of its name: the text is
no JSON text, and would be one with the number in quotation marks. -/
def HasNumberName (text : List Char) : Prop :=
  ∃ tree : Tree, tree.WellFormed isStringOrNumber ∧ ¬ tree.WellFormed Token.isString ∧
    lex text = some tree.tokens

/-- **The parser reads the tokens of the text** with quoted numbers. -/
theorem parseBestInvestJson_eq (text : List Char) : parseBestInvestJson text =
    match (lex text).bind (parse isStringOrNumber) with
    | some tree => .ok tree.quote
    | none => .error .INVALID_RESPONSE := by
  have hparse : (rewriteNumbers false false 0 text).bind parseText =
      ((lex text).bind (parse isStringOrNumber)).map Tree.quote := by
    have hlex := lex_requote text
    have hsplit : (requote text).bind parseText =
        ((requote text).bind lex).bind (parse Token.isString) := by
      cases requote text <;> rfl
    change (requote text).bind parseText = _
    rw [hsplit, hlex]
    cases lex text with
    | none => rfl
    | some tokens => exact parse_quote Token.isString tokens
  unfold parseBestInvestJson
  rw [hparse]
  cases (lex text).bind (parse isStringOrNumber) <;> rfl

/-- What it accepts, and what it makes of it. -/
theorem parseBestInvestJson_ok_iff {text : List Char} {value : Tree} :
    parseBestInvestJson text = .ok value ↔
      ∃ tree : Tree, tree.WellFormed isStringOrNumber ∧ lex text = some tree.tokens ∧
        value = tree.quote := by
  rw [parseBestInvestJson_eq]
  constructor
  · intro h
    cases hparse : (lex text).bind (parse isStringOrNumber) with
    | none =>
        rw [hparse] at h
        cases h
    | some tree =>
        rw [hparse] at h
        obtain ⟨tokens, hlex, hparse⟩ := Option.bind_eq_some_iff.mp hparse
        obtain ⟨hform, rfl⟩ := (parse_eq_some_iff rfl).mp hparse
        exact ⟨tree, hform, hlex, (Except.ok.inj h).symm⟩
  · rintro ⟨tree, hform, hlex, rfl⟩
    have hparse : parse isStringOrNumber tree.tokens = some tree :=
      (parse_eq_some_iff rfl).mpr ⟨hform, rfl⟩
    rw [hlex, Option.bind_some, hparse]

/-- Where names are strings, they are strings or numbers. -/
theorem wellFormed_stringOrNumber {tree : Tree} (h : tree.WellFormed Token.isString) :
    tree.WellFormed isStringOrNumber := by
  refine h.mono fun token htoken => ?_
  cases token with
  | string units => rfl
  | _ => cases htoken

/-- JSON is read as it is meant, with its numbers as texts. -/
theorem parseBestInvestJson_of_denotes {text : List Char} {tree : Tree} (h : Denotes text tree) :
    parseBestInvestJson text = .ok tree.quote :=
  parseBestInvestJson_ok_iff.mpr ⟨tree, wellFormed_stringOrNumber h.1, h.2, rfl⟩

/-- **Accepted texts.**  The JSON texts are accepted and no others, with the
value of the standard parser in which each number is replaced by its lexeme,
exactly for the texts in which no member has a number for its name. -/
theorem parseBestInvestJson_exact_iff (text : List Char) :
    (((∃ value, parseBestInvestJson text = .ok value) ↔ ∃ tree, Denotes text tree) ∧
        ∀ tree, Denotes text tree → parseBestInvestJson text = .ok tree.quote) ↔
      ¬ HasNumberName text := by
  constructor
  · rintro ⟨haccepts, -⟩ ⟨tree, hform, hstrict, hlex⟩
    obtain ⟨other, hother, hlex'⟩ :=
      haccepts.mp ⟨_, parseBestInvestJson_ok_iff.mpr ⟨tree, hform, hlex, rfl⟩⟩
    -- the tokens have one derivation only
    have htokens : other.tokens = tree.tokens := Option.some.inj (hlex'.symm.trans hlex)
    have hparse : parse isStringOrNumber tree.tokens = some tree :=
      (parse_eq_some_iff rfl).mpr ⟨hform, rfl⟩
    have hparse' : parse isStringOrNumber tree.tokens = some other :=
      (parse_eq_some_iff rfl).mpr ⟨wellFormed_stringOrNumber hother, htokens⟩
    have hsame : other = tree := Option.some.inj (hparse'.symm.trans hparse)
    exact hstrict (hsame ▸ hother)
  · intro hnames
    refine ⟨⟨?_, ?_⟩, fun tree => parseBestInvestJson_of_denotes⟩
    · rintro ⟨value, hvalue⟩
      obtain ⟨tree, hform, hlex, -⟩ := parseBestInvestJson_ok_iff.mp hvalue
      by_cases hstrict : tree.WellFormed Token.isString
      · exact ⟨tree, hstrict, hlex⟩
      · exact absurd ⟨tree, hform, hstrict, hlex⟩ hnames
    · rintro ⟨tree, htree⟩
      exact ⟨_, parseBestInvestJson_of_denotes htree⟩

/-- The text `{1:2}` is no JSON text, and is accepted. -/
theorem number_name_accepted :
    ¬ ((∃ value, parseBestInvestJson "\x7b1:2\x7d".toList = .ok value) ↔
      ∃ tree, Denotes "\x7b1:2\x7d".toList tree) := by
  have haccepted : ∃ value, parseBestInvestJson "\x7b1:2\x7d".toList = .ok value := by
    refine ⟨_, parseBestInvestJson_ok_iff.mpr
      ⟨.object [(.number ['1'], .scalar (.number ['2']))], ?_, by decide, rfl⟩⟩
    refine .object ?_ ?_
    · intro member hmember
      rw [List.mem_singleton.mp hmember]
      rfl
    · intro member hmember
      rw [List.mem_singleton.mp hmember]
      exact .scalar rfl
  intro hiff
  obtain ⟨tree, htree⟩ := hiff.mp haccepted
  have hnone : parseText "\x7b1:2\x7d".toList = none := rfl
  rw [parseText_eq_some_iff.mpr htree] at hnone
  cases hnone

end SimplefinBridge
