import Mathlib.Data.List.Basic
import SimplefinBridge.Library.Decimals

/-!
# JSON texts

A JSON text is a sequence of tokens, with white space between them, that the
JSON grammar derives.  The tokens of a text are read by `lex`; a derivation is a
`Tree`, and the tokens that it derives are `Tree.tokens`.

The reader `parse` takes the tokens one after another and keeps, on a stack, the
arrays and objects that are still open.  It accepts exactly what the grammar
derives, with the one derivation there is (`parse_eq_some_iff`).

What may stand as the name of a member is a parameter `isName`: in the standard
grammar only a string.  A grammar that also takes numbers is what a text is read
by when its numbers are put in quotation marks first (`parse_quote`).
-/

namespace JsonTexts

open Decimals

/-! ## Tokens -/

/-- A string is its UTF-16 code units, a number its lexeme. -/
inductive Token
  | openBrace | closeBrace | openBracket | closeBracket | colon | comma
  | string (units : List Nat)
  | number (lexeme : List Char)
  | bool (value : Bool)
  | null
  deriving DecidableEq, Repr

namespace Token

/-- A token that is a value by itself. -/
def isScalar : Token → Bool
  | .string _ | .number _ | .bool _ | .null => true
  | _ => false

/-- A token that is a string. -/
def isString : Token → Bool
  | .string _ => true
  | _ => false

end Token

/-- The UTF-16 code units of a character. -/
def charUnits (c : Char) : List Nat :=
  if c.toNat < 0x10000 then [c.toNat]
  else [0xD800 + (c.toNat - 0x10000) / 0x400, 0xDC00 + (c.toNat - 0x10000) % 0x400]

/-- White space between tokens. -/
def isSpace (c : Char) : Bool := c = ' ' ∨ c = '\t' ∨ c = '\n' ∨ c = '\r'

/-- The code unit that a one-letter escape stands for. -/
def escapeUnit (c : Char) : Option Nat :=
  if c = '\x22' ∨ c = '\x5c' ∨ c = '/' then some c.toNat
  else if c = 'b' then some 8
  else if c = 'f' then some 12
  else if c = 'n' then some 10
  else if c = 'r' then some 13
  else if c = 't' then some 9
  else none

/-- The value of a hexadecimal digit. -/
def hexValue (c : Char) : Option Nat :=
  if c.isDigit then some (c.toNat - 48)
  else if 97 ≤ c.toNat ∧ c.toNat ≤ 102 then some (c.toNat - 87)
  else if 65 ≤ c.toNat ∧ c.toNat ≤ 70 then some (c.toNat - 55)
  else none

/-- Where the reader of a string stands: between characters, after a backslash,
or in a numeric escape of which `left + 1` digits are to come. -/
inductive InString
  | plain
  | escape
  | hex (left : Nat) (unit : Nat)

/-- The rest of a string, from inside it, and what follows its closing mark. -/
def scanString : InString → List Char → Option (List Nat × List Char)
  | _, [] => none
  | .plain, c :: rest =>
      if c = '\x22' then some ([], rest)
      else if c = '\x5c' then scanString .escape rest
      else if c.toNat < 0x20 then none
      else (scanString .plain rest).map fun (units, rest) => (charUnits c ++ units, rest)
  | .escape, c :: rest =>
      if c = 'u' then scanString (.hex 3 0) rest
      else (escapeUnit c).bind fun unit =>
        (scanString .plain rest).map fun (units, rest) => (unit :: units, rest)
  | .hex left unit, c :: rest =>
      (hexValue c).bind fun digit =>
        match left with
        | 0 => (scanString .plain rest).map fun (units, rest) => ((unit * 16 + digit) :: units, rest)
        | left + 1 => scanString (.hex left (unit * 16 + digit)) rest

/-- What follows a word at the front of a text. -/
def stripWord : List Char → List Char → Option (List Char)
  | [], text => some text
  | _ :: _, [] => none
  | a :: word, c :: rest => if c = a then stripWord word rest else none

/-- The token of one character. -/
def punctuation (c : Char) : Option Token :=
  if c = '\x7b' then some .openBrace
  else if c = '\x7d' then some .closeBrace
  else if c = '[' then some .openBracket
  else if c = ']' then some .closeBracket
  else if c = ':' then some .colon
  else if c = ',' then some .comma
  else none

/-- The rest of the word that a character begins, and its token. -/
def keyword (c : Char) : Option (List Char × Token) :=
  if c = 't' then some ("rue".toList, .bool true)
  else if c = 'f' then some ("alse".toList, .bool false)
  else if c = 'n' then some ("ull".toList, .null)
  else none

/-- The token at the front of a text, and what follows it. -/
def readToken (c : Char) (rest : List Char) : Option (Token × List Char) :=
  match punctuation c with
  | some token => some (token, rest)
  | none =>
      if c = '\x22' then (scanString .plain rest).map fun (units, rest) => (.string units, rest)
      else if c = '-' ∨ c.isDigit then
        (scanNumber (c :: rest)).map fun (number, rest) => (.number number.text, rest)
      else (keyword c).bind fun (word, token) => (stripWord word rest).map fun rest => (token, rest)

/-- A token that is no punctuation. -/
theorem readToken_of_none {c : Char} {rest : List Char} (h : punctuation c = none) :
    readToken c rest =
      if c = '\x22' then (scanString .plain rest).map fun (units, rest) => (.string units, rest)
      else if c = '-' ∨ c.isDigit then
        (scanNumber (c :: rest)).map fun (number, rest) => (.number number.text, rest)
      else (keyword c).bind fun (word, token) =>
        (stripWord word rest).map fun rest => (token, rest) := by
  unfold readToken
  rw [h]

/-- The tokens of a text; every step takes a character at least. -/
def lexWith : Nat → List Char → Option (List Token)
  | _, [] => some []
  | 0, _ :: _ => none
  | fuel + 1, c :: rest =>
      if isSpace c then lexWith fuel rest
      else match readToken c rest with
        | none => none
        | some (token, rest) => (lexWith fuel rest).map (token :: ·)

/-- The tokens of a text; white space separates them. -/
def lex (text : List Char) : Option (List Token) := lexWith text.length text

/-! ## Reading tokens -/

section
variable {text rest rest' : List Char} {c : Char} {token : Token}

/-- A character of a string outside an escape. -/
theorem scan_plain : scanString .plain (c :: text) =
    if c = '\x22' then some ([], text)
    else if c = '\x5c' then scanString .escape text
    else if c.toNat < 0x20 then none
    else (scanString .plain text).map fun (units, rest) => (charUnits c ++ units, rest) := rfl

/-- The character behind a backslash. -/
theorem scan_escape : scanString .escape (c :: text) =
    if c = 'u' then scanString (.hex 3 0) text
    else (escapeUnit c).bind fun unit =>
      (scanString .plain text).map fun (units, rest) => (unit :: units, rest) := rfl

/-- A digit of `\u`. -/
theorem scan_hex (left unit : Nat) : scanString (.hex left unit) (c :: text) =
    (hexValue c).bind fun digit =>
      match left with
      | 0 => (scanString .plain text).map fun (units, rest) => ((unit * 16 + digit) :: units, rest)
      | left + 1 => scanString (.hex left (unit * 16 + digit)) text := rfl

/-- The closing quote is taken as well. -/
theorem scanString_length {state : InString} {units : List Nat}
    (h : scanString state text = some (units, rest)) : rest.length < text.length := by
  induction text generalizing state units with
  | nil => cases state <;> cases h
  | cons c text ih =>
      have hmapped : ∀ {state : InString} {f : List Nat → List Nat},
          ((scanString state text).map fun (x : List Nat × List Char) => (f x.1, x.2)) =
            some (units, rest) → rest.length < (c :: text).length := by
        intro state f h
        obtain ⟨⟨units', rest'⟩, hscan, heq⟩ := Option.map_eq_some_iff.mp h
        obtain ⟨-, rfl⟩ := Prod.mk.injEq .. ▸ heq
        exact (ih hscan).trans (Nat.lt_succ_self _)
      cases state with
      | plain =>
          unfold scanString at h
          split_ifs at h
          · obtain ⟨-, rfl⟩ := Prod.mk.injEq .. ▸ Option.some.inj h
            exact Nat.lt_succ_self _
          · exact (ih h).trans (Nat.lt_succ_self _)
          · exact hmapped h
      | escape =>
          unfold scanString at h
          split_ifs at h
          · exact (ih h).trans (Nat.lt_succ_self _)
          · obtain ⟨unit, -, hscan⟩ := Option.bind_eq_some_iff.mp h
            exact hmapped hscan
      | hex left unit =>
          unfold scanString at h
          obtain ⟨digit, -, hscan⟩ := Option.bind_eq_some_iff.mp h
          cases left with
          | zero => exact hmapped hscan
          | succ left => exact (ih hscan).trans (Nat.lt_succ_self _)

/-- What is left behind a word. -/
theorem stripWord_eq {word : List Char} (h : stripWord word text = some rest) :
    text = word ++ rest := by
  induction word generalizing text with
  | nil => exact Option.some.inj h
  | cons a word ih =>
      cases text with
      | nil => cases h
      | cons c text =>
          unfold stripWord at h
          split_ifs at h with hc
          rw [hc, ih h]
          rfl

/-- A token takes at least the character that it begins with. -/
theorem readToken_length (h : readToken c rest = some (token, rest')) :
    rest'.length ≤ rest.length := by
  unfold readToken at h
  cases hpunctuation : punctuation c with
  | some token' =>
      rw [hpunctuation] at h
      obtain ⟨-, rfl⟩ := Prod.mk.injEq .. ▸ Option.some.inj h
      exact le_refl _
  | none =>
      rw [hpunctuation] at h
      dsimp only at h
      split_ifs at h
      · obtain ⟨⟨units, after⟩, hscan, heq⟩ := Option.map_eq_some_iff.mp h
        obtain ⟨-, rfl⟩ := Prod.mk.injEq .. ▸ heq
        exact (scanString_length hscan).le
      · obtain ⟨⟨number, after⟩, hscan, heq⟩ := Option.map_eq_some_iff.mp h
        obtain ⟨-, rfl⟩ := Prod.mk.injEq .. ▸ heq
        obtain ⟨hform, htext⟩ := scanNumber_spec hscan
        have hlength := congrArg List.length htext
        have hpositive := List.length_pos_iff.mpr hform.text_ne_nil
        rw [List.length_append, List.length_cons] at hlength
        dsimp only
        omega
      · obtain ⟨⟨word, token'⟩, -, hmap⟩ := Option.bind_eq_some_iff.mp h
        obtain ⟨after, hstrip, heq⟩ := Option.map_eq_some_iff.mp hmap
        obtain ⟨-, rfl⟩ := Prod.mk.injEq .. ▸ heq
        rw [stripWord_eq hstrip, List.length_append]
        omega

/-- Any fuel that the text does not outlast gives its tokens. -/
theorem lexWith_eq {fuel fuel' : Nat} (h : text.length ≤ fuel) (h' : text.length ≤ fuel') :
    lexWith fuel text = lexWith fuel' text := by
  induction fuel generalizing text fuel' with
  | zero =>
      rw [List.length_eq_zero_iff.mp (Nat.le_zero.mp h)]
      cases fuel' <;> rfl
  | succ fuel ih =>
      cases text with
      | nil => cases fuel' <;> rfl
      | cons c rest =>
          cases fuel' with
          | zero => cases h'
          | succ fuel' =>
              have hrest : rest.length ≤ fuel := Nat.succ_le_succ_iff.mp h
              have hrest' : rest.length ≤ fuel' := Nat.succ_le_succ_iff.mp h'
              unfold lexWith
              rw [ih hrest hrest']
              cases htoken : readToken c rest with
              | none => rfl
              | some read =>
                  have hlength := readToken_length htoken
                  dsimp only
                  rw [ih (hlength.trans hrest) (hlength.trans hrest')]

/-- The token of a text that begins with one. -/
def readFirst : List Char → Option (Token × List Char)
  | [] => none
  | c :: rest => if isSpace c then none else readToken c rest

/-- White space makes no token. -/
theorem lex_space (h : isSpace c = true) : lex (c :: rest) = lex rest := by
  change (if isSpace c then lexWith rest.length rest else _) = _
  rw [if_pos h]
  rfl

/-- Any other character begins one. -/
theorem lex_token (h : isSpace c = false) :
    lex (c :: rest) = (readToken c rest).bind fun (token, rest) => (lex rest).map (token :: ·) := by
  have hstep : lex (c :: rest) = if isSpace c then lexWith rest.length rest
      else match readToken c rest with
        | none => none
        | some (token, rest') => (lexWith rest.length rest').map (token :: ·) := rfl
  rw [hstep, h, if_neg Bool.false_ne_true]
  cases htoken : readToken c rest with
  | none => rfl
  | some read =>
      change (lexWith rest.length read.2).map (read.1 :: ·) = (lex read.2).map (read.1 :: ·)
      rw [lexWith_eq (readToken_length htoken) (le_refl _)]
      rfl

end

/-! ## The grammar -/

/-- The derivation of a value. -/
inductive Tree
  | scalar (token : Token)
  | array (items : List Tree)
  | object (members : List (Token × Tree))

namespace Tree

mutual
/-- The tokens that a value derives. -/
def tokens : Tree → List Token
  | .scalar token => [token]
  | .array items => .openBracket :: ([Token.comma].intercalate (itemTokens items) ++ [.closeBracket])
  | .object members =>
      .openBrace :: ([Token.comma].intercalate (memberTokens members) ++ [.closeBrace])

/-- The tokens of each item. -/
def itemTokens : List Tree → List (List Token)
  | [] => []
  | item :: items => tokens item :: itemTokens items

/-- The tokens of each member. -/
def memberTokens : List (Token × Tree) → List (List Token)
  | [] => []
  | (name, value) :: members => (name :: .colon :: tokens value) :: memberTokens members
end

/-- A derivation of the grammar whose member names are `isName`. -/
inductive WellFormed (isName : Token → Bool) : Tree → Prop
  | scalar {token : Token} (h : token.isScalar = true) : WellFormed isName (.scalar token)
  | array {items : List Tree} (h : ∀ item ∈ items, WellFormed isName item) :
      WellFormed isName (.array items)
  | object {members : List (Token × Tree)} (hname : ∀ member ∈ members, isName member.1 = true)
      (h : ∀ member ∈ members, WellFormed isName member.2) : WellFormed isName (.object members)

end Tree

/-! ## Reading a value -/

/-- An array or object that is open. -/
inductive Frame
  | items (done : List Tree)
  | member (done : List (Token × Tree)) (name : Token)

/-- What is read next. -/
inductive Want
  | value
  | firstItem
  | firstName
  | name (done : List (Token × Tree))
  | colon (done : List (Token × Tree)) (name : Token)
  | after (value : Tree)

/-- What has been read, and what may come next. -/
structure State where
  stack : List Frame
  want : Want

section
variable (isName : Token → Bool)

/-- A token where a value is wanted. -/
def startValue (stack : List Frame) (token : Token) : Option State :=
  if token = .openBracket then some ⟨stack, .firstItem⟩
  else if token = .openBrace then some ⟨stack, .firstName⟩
  else if token.isScalar then some ⟨stack, .after (.scalar token)⟩
  else none

/-- A token where a name is wanted. -/
def startMember (stack : List Frame) (done : List (Token × Tree)) (token : Token) : Option State :=
  if isName token then some ⟨stack, .colon done token⟩ else none

/-- A token behind a value. -/
def afterValue (value : Tree) (token : Token) : List Frame → Option State
  | [] => none
  | .items done :: stack =>
      if token = .comma then some ⟨.items (done ++ [value]) :: stack, .value⟩
      else if token = .closeBracket then some ⟨stack, .after (.array (done ++ [value]))⟩
      else none
  | .member done name :: stack =>
      if token = .comma then some ⟨stack, .name (done ++ [(name, value)])⟩
      else if token = .closeBrace then some ⟨stack, .after (.object (done ++ [(name, value)]))⟩
      else none

/-- One token is read. -/
def step (s : State) (token : Token) : Option State :=
  match s.want with
  | .value => startValue s.stack token
  | .firstItem =>
      if token = .closeBracket then some ⟨s.stack, .after (.array [])⟩
      else startValue (.items [] :: s.stack) token
  | .firstName =>
      if token = .closeBrace then some ⟨s.stack, .after (.object [])⟩
      else startMember isName s.stack [] token
  | .name done => startMember isName s.stack done token
  | .colon done name =>
      if token = .colon then some ⟨.member done name :: s.stack, .value⟩ else none
  | .after value => afterValue value token s.stack

/-- All tokens are read. -/
def run (s : State) (tokens : List Token) : Option State := tokens.foldlM (step isName) s

/-- `JSON.parse`, of the tokens of a text. -/
def parse (tokens : List Token) : Option Tree :=
  match run isName ⟨[], .value⟩ tokens with
  | some ⟨[], .after value⟩ => some value
  | _ => none

end

/-! ## Sound and complete -/

namespace Tree

/-- The items one by one. -/
theorem itemTokens_eq_map (items : List Tree) : itemTokens items = items.map tokens := by
  induction items with
  | nil => rfl
  | cons item items ih =>
      unfold itemTokens
      rw [ih]
      rfl

/-- The members one by one. -/
theorem memberTokens_eq_map (members : List (Token × Tree)) :
    memberTokens members = members.map fun m => m.1 :: .colon :: m.2.tokens := by
  induction members with
  | nil => rfl
  | cons member members ih =>
      unfold memberTokens
      rw [ih]
      rfl

/-- A comma stands between two items. -/
theorem itemTokens_cons (item next : Tree) (items : List Tree) :
    [Token.comma].intercalate (itemTokens (item :: next :: items)) =
      item.tokens ++ .comma :: [Token.comma].intercalate (itemTokens (next :: items)) := by
  change [Token.comma].intercalate (_ :: _ :: itemTokens items) = _
  rw [List.intercalate_cons_cons, List.append_assoc]
  rfl

/-- A comma stands between two members. -/
theorem memberTokens_cons (member next : Token × Tree) (members : List (Token × Tree)) :
    [Token.comma].intercalate (memberTokens (member :: next :: members)) =
      member.1 :: .colon :: (member.2.tokens ++
        .comma :: [Token.comma].intercalate (memberTokens (next :: members))) := by
  change [Token.comma].intercalate (_ :: _ :: memberTokens members) = _
  rw [List.intercalate_cons_cons, List.append_assoc]
  rfl

end Tree

/-- The last of some lists has no separator behind it. -/
theorem intercalate_snoc {α : Type*} (a : α) (xs : List (List α)) (x : List α) :
    [a].intercalate (xs ++ [x]) = xs.flatMap (· ++ [a]) ++ x := by
  induction xs with
  | nil => simp
  | cons y ys ih =>
      obtain ⟨z, zs, hz⟩ : ∃ z zs, ys ++ [x] = z :: zs := by
        cases ys with
        | nil => exact ⟨x, [], rfl⟩
        | cons z zs => exact ⟨z, zs ++ [x], rfl⟩
      rw [List.cons_append, hz, List.intercalate_cons_cons, ← hz, ih, List.flatMap_cons]
      simp only [List.append_assoc]

section
variable {isName : Token → Bool}

/-- The tokens of one member. -/
def memberRow (member : Token × Tree) : List Token := member.1 :: .colon :: member.2.tokens

/-- The tokens that were read into a frame. -/
def Frame.tokens : Frame → List Token
  | .items done => .openBracket :: done.flatMap fun item => item.tokens ++ [.comma]
  | .member done name =>
      .openBrace :: (done.flatMap (fun member => memberRow member ++ [.comma]) ++ [name, .colon])

/-- What has been read of the value at hand. -/
def Want.tokens : Want → List Token
  | .value => []
  | .firstItem => [.openBracket]
  | .firstName => [.openBrace]
  | .name done => .openBrace :: done.flatMap fun member => memberRow member ++ [.comma]
  | .colon done key =>
      .openBrace :: (done.flatMap (fun member => memberRow member ++ [.comma]) ++ [key])
  | .after tree => tree.tokens

/-- Nothing has been read of a value that is wanted. -/
@[simp]
theorem tokens_value : Want.value.tokens = [] := rfl

/-- A value that was read, as a whole. -/
@[simp]
theorem tokens_after (tree : Tree) : (Want.after tree).tokens = tree.tokens := rfl

/-- The tokens that were read into a state. -/
def State.tokens (s : State) : List Token :=
  s.stack.reverse.flatMap Frame.tokens ++ s.want.tokens

variable (isName) in
/-- Members whose names may be names. -/
def MembersOk (members : List (Token × Tree)) : Prop :=
  ∀ member ∈ members, isName member.1 = true ∧ member.2.WellFormed isName

variable (isName) in
/-- What an open array or object holds is well formed. -/
def Frame.Ok : Frame → Prop
  | .items done => ∀ item ∈ done, item.WellFormed isName
  | .member done name => MembersOk isName done ∧ isName name = true

variable (isName) in
/-- So is what has been read of the value at hand. -/
def Want.Ok : Want → Prop
  | .name done => MembersOk isName done
  | .colon done key => MembersOk isName done ∧ isName key = true
  | .after tree => tree.WellFormed isName
  | _ => True

variable (isName) in
/-- Everything read so far is part of a derivation. -/
structure State.Ok (s : State) : Prop where
  stack : ∀ frame ∈ s.stack, frame.Ok isName
  want : s.want.Ok isName

/-- An opened value begins behind what was read. -/
theorem tokens_push (frame : Frame) (stack : List Frame) (want : Want) :
    State.tokens ⟨frame :: stack, want⟩ =
      stack.reverse.flatMap Frame.tokens ++ (frame.tokens ++ want.tokens) := by
  unfold State.tokens
  rw [List.reverse_cons, List.flatMap_append, List.flatMap_cons, List.flatMap_nil, List.append_nil,
    List.append_assoc]

/-- An array is closed behind its last item. -/
theorem tokens_array (done : List Tree) (value : Tree) :
    (Tree.array (done ++ [value])).tokens =
      (Frame.items done).tokens ++ value.tokens ++ [.closeBracket] := by
  change Token.openBracket :: ([Token.comma].intercalate (Tree.itemTokens _) ++ [_]) = _
  unfold Frame.tokens
  rw [Tree.itemTokens_eq_map, List.map_append, List.map_cons, List.map_nil, intercalate_snoc,
    List.flatMap_map, List.cons_append, List.cons_append]

/-- An object is closed behind its last member. -/
theorem tokens_object (done : List (Token × Tree)) (name : Token) (value : Tree) :
    (Tree.object (done ++ [(name, value)])).tokens =
      (Frame.member done name).tokens ++ value.tokens ++ [.closeBrace] := by
  change Token.openBrace :: ([Token.comma].intercalate (Tree.memberTokens _) ++ [_]) = _
  unfold Frame.tokens memberRow
  rw [Tree.memberTokens_eq_map, List.map_append, List.map_cons, List.map_nil, intercalate_snoc,
    List.flatMap_map]
  simp only [List.cons_append, List.append_assoc, List.nil_append]

/-- A comma behind an item. -/
theorem tokens_items (done : List Tree) (value : Tree) :
    (Frame.items (done ++ [value])).tokens =
      (Frame.items done).tokens ++ value.tokens ++ [.comma] := by
  dsimp only [Frame.tokens]
  rw [List.flatMap_append, List.flatMap_cons, List.flatMap_nil]
  simp only [List.append_assoc, List.cons_append, List.append_nil]

/-- A comma behind a member. -/
theorem tokens_members (done : List (Token × Tree)) (name : Token) (value : Tree) :
    (Want.name (done ++ [(name, value)])).tokens =
      (Frame.member done name).tokens ++ value.tokens ++ [.comma] := by
  dsimp only [Want.tokens, Frame.tokens, memberRow]
  rw [List.flatMap_append, List.flatMap_cons, List.flatMap_nil]
  simp only [List.append_assoc, List.cons_append, List.append_nil, List.nil_append]

/-- One more member. -/
theorem MembersOk.snoc {done : List (Token × Tree)} {name : Token} {value : Tree}
    (h : MembersOk isName done) (hname : isName name = true) (hvalue : value.WellFormed isName) :
    MembersOk isName (done ++ [(name, value)]) := by
  intro member hmember
  rcases List.mem_append.mp hmember with hmember | hmember
  · exact h member hmember
  · rw [List.mem_singleton.mp hmember]
    exact ⟨hname, hvalue⟩

/-- Good members make a good object. -/
theorem wellFormed_object {members : List (Token × Tree)} (h : MembersOk isName members) :
    (Tree.object members).WellFormed isName :=
  .object (fun m hm => (h m hm).1) fun m hm => (h m hm).2

/-- A value is begun with its token. -/
theorem startValue_ok {stack : List Frame} {token : Token} {s' : State}
    (hstack : ∀ frame ∈ stack, frame.Ok isName) (h : startValue stack token = some s') :
    s'.Ok isName ∧ s'.tokens = stack.reverse.flatMap Frame.tokens ++ [token] := by
  unfold startValue at h
  split_ifs at h with hbracket hbrace hscalar
  · rw [← Option.some.inj h, hbracket]
    exact ⟨⟨hstack, trivial⟩, rfl⟩
  · rw [← Option.some.inj h, hbrace]
    exact ⟨⟨hstack, trivial⟩, rfl⟩
  · rw [← Option.some.inj h]
    exact ⟨⟨hstack, .scalar hscalar⟩, rfl⟩

/-- A member is begun with its name. -/
theorem startMember_ok {stack : List Frame} {done : List (Token × Tree)} {token : Token}
    {s' : State} (hstack : ∀ frame ∈ stack, frame.Ok isName) (hdone : MembersOk isName done)
    (h : startMember isName stack done token = some s') :
    s'.Ok isName ∧ s'.tokens = State.tokens ⟨stack, .name done⟩ ++ [token] := by
  unfold startMember at h
  split_ifs at h with hname
  rw [← Option.some.inj h]
  refine ⟨⟨hstack, hdone, hname⟩, ?_⟩
  unfold State.tokens Want.tokens
  rw [List.append_assoc, List.cons_append]

/-- A value goes into what is open around it. -/
theorem afterValue_ok {stack : List Frame} {value : Tree} {token : Token} {s' : State}
    (hstack : ∀ frame ∈ stack, frame.Ok isName) (hvalue : value.WellFormed isName)
    (h : afterValue value token stack = some s') :
    s'.Ok isName ∧ s'.tokens = State.tokens ⟨stack, .after value⟩ ++ [token] := by
  cases stack with
  | nil => cases h
  | cons frame stack =>
      have hframe := hstack frame List.mem_cons_self
      have hrest := fun f hf => hstack f (List.mem_cons_of_mem _ hf)
      cases frame with
      | items done =>
          have hitems : ∀ item ∈ done ++ [value], item.WellFormed isName := by
            intro item hitem
            rcases List.mem_append.mp hitem with hitem | hitem
            · exact hframe item hitem
            · rw [List.mem_singleton.mp hitem]
              exact hvalue
          dsimp only [afterValue] at h
          split_ifs at h with hcomma hclose
          · rw [← Option.some.inj h, hcomma]
            refine ⟨⟨?_, trivial⟩, ?_⟩
            · intro f hf
              rcases List.mem_cons.mp hf with rfl | hf
              · exact hitems
              · exact hrest f hf
            · rw [tokens_push, tokens_push, tokens_items]
              simp only [tokens_value, tokens_after, List.append_assoc, List.append_nil]
          · rw [← Option.some.inj h, hclose]
            refine ⟨⟨hrest, .array hitems⟩, ?_⟩
            rw [tokens_push]
            change _ ++ Tree.tokens _ = _
            rw [tokens_array, tokens_after]
            simp only [List.append_assoc]
      | member done name =>
          have hmembers := MembersOk.snoc hframe.1 hframe.2 hvalue
          dsimp only [afterValue] at h
          split_ifs at h with hcomma hclose
          · rw [← Option.some.inj h, hcomma]
            refine ⟨⟨hrest, hmembers⟩, ?_⟩
            rw [tokens_push]
            change _ ++ Want.tokens _ = _
            rw [tokens_members, tokens_after]
            simp only [List.append_assoc]
          · rw [← Option.some.inj h, hclose]
            refine ⟨⟨hrest, wellFormed_object hmembers⟩, ?_⟩
            rw [tokens_push]
            change _ ++ Tree.tokens _ = _
            rw [tokens_object, tokens_after]
            simp only [List.append_assoc]

/-- **One token** is added to what was read. -/
theorem step_ok {s s' : State} {token : Token} (hs : s.Ok isName)
    (h : step isName s token = some s') :
    s'.Ok isName ∧ s'.tokens = s.tokens ++ [token] := by
  obtain ⟨stack, want⟩ := s
  obtain ⟨hstack, hwant⟩ := hs
  unfold step at h
  cases want with
  | value =>
      have hstep := startValue_ok hstack h
      rw [hstep.2]
      refine ⟨hstep.1, ?_⟩
      unfold State.tokens Want.tokens
      rw [List.append_nil]
  | firstItem =>
      dsimp only at h
      split_ifs at h with hclose
      · rw [← Option.some.inj h, hclose]
        refine ⟨⟨hstack, .array nofun⟩, ?_⟩
        unfold State.tokens Want.tokens
        rw [List.append_assoc]
        rfl
      · have hframes : ∀ frame ∈ Frame.items [] :: stack, frame.Ok isName := by
          intro frame hframe
          rcases List.mem_cons.mp hframe with rfl | hframe
          · exact nofun
          · exact hstack frame hframe
        have hstep := startValue_ok hframes h
        rw [hstep.2]
        refine ⟨hstep.1, ?_⟩
        rw [List.reverse_cons, List.flatMap_append]
        rfl
  | firstName =>
      dsimp only at h
      split_ifs at h with hclose
      · rw [← Option.some.inj h, hclose]
        refine ⟨⟨hstack, wellFormed_object nofun⟩, ?_⟩
        unfold State.tokens Want.tokens
        rw [List.append_assoc]
        rfl
      · exact startMember_ok hstack (fun _ hm => absurd hm List.not_mem_nil) h
  | name done => exact startMember_ok hstack hwant h
  | colon done name =>
      dsimp only at h
      split_ifs at h with hcolon
      rw [← Option.some.inj h, hcolon]
      refine ⟨⟨?_, trivial⟩, ?_⟩
      · intro frame hframe
        rcases List.mem_cons.mp hframe with rfl | hframe
        · exact hwant
        · exact hstack frame hframe
      · rw [tokens_push, tokens_value]
        change _ = _ ++ Want.tokens (.colon done name) ++ [_]
        unfold Frame.tokens Want.tokens
        simp only [List.append_assoc, List.cons_append, List.append_nil, List.nil_append]
  | after value => exact afterValue_ok hstack hwant h

/-- Everything read by a run is part of the derivation. -/
theorem run_ok {s s' : State} {tokens : List Token} (hs : s.Ok isName)
    (h : run isName s tokens = some s') : s'.Ok isName ∧ s'.tokens = s.tokens ++ tokens := by
  induction tokens generalizing s with
  | nil =>
      rw [← Option.some.inj h, List.append_nil]
      exact ⟨hs, rfl⟩
  | cons token tokens ih =>
      obtain ⟨middle, hstep, hrun⟩ := Option.bind_eq_some_iff.mp h
      obtain ⟨hmiddle, htokens⟩ := step_ok hs hstep
      obtain ⟨hs', htokens'⟩ := ih hmiddle hrun
      refine ⟨hs', ?_⟩
      rw [htokens', htokens, List.append_assoc]
      rfl

/-- The first token, and then the others. -/
@[simp]
theorem run_cons (s : State) (token : Token) (tokens : List Token) :
    run isName s (token :: tokens) = (step isName s token).bind fun s => run isName s tokens := rfl

/-! A derivation is read from any state that wants a value. -/

/-- A first item is read like any other. -/
theorem step_firstItem {stack : List Frame} {token : Token} (h : token ≠ .closeBracket) :
    step isName ⟨stack, .firstItem⟩ token = step isName ⟨.items [] :: stack, .value⟩ token := by
  change (if token = .closeBracket then _ else _) = _
  rw [if_neg h]
  rfl

/-- A first name is read like any other. -/
theorem step_firstName {stack : List Frame} {token : Token} (h : token ≠ .closeBrace) :
    step isName ⟨stack, .firstName⟩ token = step isName ⟨stack, .name []⟩ token := by
  change (if token = .closeBrace then _ else _) = _
  rw [if_neg h]
  rfl

/-- No value begins with a closing mark. -/
theorem tokens_head {tree : Tree} (h : tree.WellFormed isName) :
    ∃ token tokens, tree.tokens = token :: tokens ∧ token ≠ .closeBracket := by
  cases h with
  | scalar h =>
      refine ⟨_, [], rfl, ?_⟩
      rintro rfl
      cases h
  | array h => exact ⟨_, _, rfl, nofun⟩
  | object hname h => exact ⟨_, _, rfl, nofun⟩

/-- A scalar is a value at once. -/
theorem run_scalar {stack : List Frame} {token : Token} (h : token.isScalar = true) :
    step isName ⟨stack, .value⟩ token = some ⟨stack, .after (.scalar token)⟩ := by
  change (if token = .openBracket then _ else _) = _
  cases token <;> first | rfl | cases h

/-- The items of an array, from the first on. -/
theorem run_items {items done : List Tree} {stack : List Frame} {item : Tree}
    {rest : List Token}
    (h : ∀ tree ∈ item :: items, ∀ (stack : List Frame) (rest : List Token),
      run isName ⟨stack, .value⟩ (tree.tokens ++ rest) = run isName ⟨stack, .after tree⟩ rest) :
    run isName ⟨.items done :: stack, .value⟩
        ([Token.comma].intercalate (Tree.itemTokens (item :: items)) ++ .closeBracket :: rest) =
      run isName ⟨stack, .after (.array (done ++ item :: items))⟩ rest := by
  induction items generalizing item done with
  | nil =>
      have hitem := h item List.mem_cons_self
      rw [Tree.itemTokens_eq_map, List.map_cons, List.map_nil, List.intercalate_singleton, hitem]
      rfl
  | cons next items ih =>
      have hitem := h item List.mem_cons_self
      have hrest := fun tree htree => h tree (List.mem_cons_of_mem _ htree)
      have hih := @ih (done ++ [item]) next hrest
      rw [Tree.itemTokens_cons, List.append_assoc, hitem]
      rw [List.append_assoc, List.cons_append, List.nil_append] at hih
      rw [← hih]
      rfl

/-- Members are read one after another. -/
theorem run_members {members done : List (Token × Tree)} {stack : List Frame}
    {member : Token × Tree} {rest : List Token}
    (hname : ∀ m ∈ member :: members, isName m.1 = true)
    (h : ∀ m ∈ member :: members, ∀ (stack : List Frame) (rest : List Token),
      run isName ⟨stack, .value⟩ (m.2.tokens ++ rest) = run isName ⟨stack, .after m.2⟩ rest) :
    run isName ⟨stack, .name done⟩
        ([Token.comma].intercalate (Tree.memberTokens (member :: members)) ++
          .closeBrace :: rest) =
      run isName ⟨stack, .after (.object (done ++ member :: members))⟩ rest := by
  have hstart : ∀ (tokens : List Token) (done : List (Token × Tree)) (m : Token × Tree),
      isName m.1 = true → run isName ⟨stack, .name done⟩ (m.1 :: .colon :: tokens) =
        run isName ⟨.member done m.1 :: stack, .value⟩ tokens := by
    intro tokens done m hm
    have hstep : step isName ⟨stack, .name done⟩ m.1 = some ⟨stack, .colon done m.1⟩ := if_pos hm
    rw [run_cons, hstep]
    rfl
  induction members generalizing member done with
  | nil =>
      have hvalue := h member List.mem_cons_self
      rw [Tree.memberTokens_eq_map, List.map_cons, List.map_nil, List.intercalate_singleton,
        List.cons_append, List.cons_append, hstart _ _ _ (hname member List.mem_cons_self), hvalue]
      rfl
  | cons next members ih =>
      have hvalue := h member List.mem_cons_self
      have hih := @ih (done ++ [member]) next
        (fun m hm => hname m (List.mem_cons_of_mem _ hm))
        (fun m hm => h m (List.mem_cons_of_mem _ hm))
      rw [Tree.memberTokens_cons, List.cons_append, List.cons_append, List.append_assoc,
        hstart _ _ _ (hname member List.mem_cons_self), hvalue]
      rw [List.append_assoc, List.cons_append, List.nil_append] at hih
      rw [← hih]
      rfl

/-- **A derivation is read** from any state that wants a value. -/
theorem run_tokens (hclose : isName .closeBrace = false) {tree : Tree} (h : tree.WellFormed isName) (stack : List Frame)
    (rest : List Token) :
    run isName ⟨stack, .value⟩ (tree.tokens ++ rest) = run isName ⟨stack, .after tree⟩ rest := by
  induction h generalizing stack rest with
  | scalar h =>
      change run isName _ (_ :: rest) = _
      rw [run_cons, run_scalar h]
      rfl
  | @array items h ih =>
      cases items with
      | nil => rfl
      | cons item items =>
          have hitems := @run_items isName items [] stack item rest ih
          rw [List.nil_append] at hitems
          rw [← hitems]
          -- the first item does not begin with the mark that closes the array
          obtain ⟨token, tokens, htokens, hopen⟩ := tokens_head (h item List.mem_cons_self)
          obtain ⟨after, hafter⟩ : ∃ after, [Token.comma].intercalate
              (Tree.itemTokens (item :: items)) = token :: after := by
            cases items with
            | nil =>
                refine ⟨tokens, ?_⟩
                rw [← htokens]
                exact List.intercalate_singleton
            | cons next items =>
                rw [Tree.itemTokens_cons, htokens]
                exact ⟨_, rfl⟩
          change run isName ⟨stack, .firstItem⟩ (([Token.comma].intercalate
            (Tree.itemTokens (item :: items)) ++ [Token.closeBracket]) ++ rest) = _
          rw [List.append_assoc, hafter, List.cons_append, run_cons, step_firstItem hopen]
          rfl
  | @object members hname h ih =>
      cases members with
      | nil => rfl
      | cons member members =>
          have hmembers := @run_members isName members [] stack member rest hname ih
          rw [List.nil_append] at hmembers
          rw [← hmembers]
          obtain ⟨after, hafter⟩ : ∃ after, [Token.comma].intercalate
              (Tree.memberTokens (member :: members)) = member.1 :: after := by
            cases members with
            | nil => exact ⟨_, List.intercalate_singleton⟩
            | cons next members => exact ⟨_, Tree.memberTokens_cons member next members⟩
          have hopen : member.1 ≠ .closeBrace := by
            intro heq
            have hmember := hname member List.mem_cons_self
            rw [heq, hclose] at hmember
            cases hmember
          change run isName ⟨stack, .firstName⟩ (([Token.comma].intercalate
            (Tree.memberTokens (member :: members)) ++ [Token.closeBrace]) ++ rest) = _
          rw [List.append_assoc, hafter, List.cons_append, run_cons, step_firstName hopen]
          rfl

/-- **The reader** accepts what the grammar derives, with its derivation. -/
theorem parse_eq_some_iff (hclose : isName .closeBrace = false) {tokens : List Token}
    {tree : Tree} :
    parse isName tokens = some tree ↔ tree.WellFormed isName ∧ tree.tokens = tokens := by
  constructor
  · intro h
    unfold parse at h
    cases hrun : run isName ⟨[], .value⟩ tokens with
    | none =>
        rw [hrun] at h
        cases h
    | some s =>
        rw [hrun] at h
        have hstart : State.Ok isName ⟨[], .value⟩ :=
          ⟨fun _ hf => absurd hf List.not_mem_nil, trivial⟩
        obtain ⟨hs, htokens⟩ := run_ok hstart hrun
        obtain ⟨stack, want⟩ := s
        cases stack with
        | cons frame stack => cases h
        | nil =>
            cases want with
            | after value =>
                cases h
                exact ⟨hs.want, htokens⟩
            | _ => cases h
  · rintro ⟨h, rfl⟩
    have hrun := run_tokens hclose h [] []
    rw [List.append_nil] at hrun
    unfold parse
    rw [hrun]
    rfl

end

/-- The standard grammar: the name of a member is a string. -/
def Denotes (text : List Char) (tree : Tree) : Prop :=
  tree.WellFormed Token.isString ∧ lex text = some tree.tokens

/-- `JSON.parse` -/
def parseText (text : List Char) : Option Tree := (lex text).bind (parse Token.isString)

/-- **The parser reads what the grammar denotes**, and nothing else. -/
theorem parseText_eq_some_iff {text : List Char} {tree : Tree} :
    parseText text = some tree ↔ Denotes text tree := by
  unfold parseText Denotes
  rw [Option.bind_eq_some_iff]
  constructor
  · rintro ⟨tokens, hlex, hparse⟩
    obtain ⟨hform, rfl⟩ := (parse_eq_some_iff rfl).mp hparse
    exact ⟨hform, hlex⟩
  · rintro ⟨hform, hlex⟩
    exact ⟨_, hlex, (parse_eq_some_iff rfl).mpr ⟨hform, rfl⟩⟩

/-! ## Numbers in quotation marks -/

/-- The string of a number token; any other token is kept. -/
def Token.quote : Token → Token
  | .number lexeme => .string (lexeme.flatMap charUnits)
  | token => token

namespace Tree

mutual
/-- The value with every number replaced by the string of its lexeme. -/
def quote : Tree → Tree
  | .scalar token => .scalar token.quote
  | .array items => .array (quoteItems items)
  | .object members => .object (quoteMembers members)

/-- The items, with their numbers quoted. -/
def quoteItems : List Tree → List Tree
  | [] => []
  | item :: items => quote item :: quoteItems items

/-- The members, with their numbers quoted. -/
def quoteMembers : List (Token × Tree) → List (Token × Tree)
  | [] => []
  | (name, value) :: members => (name.quote, quote value) :: quoteMembers members
end

/-- Items are quoted one by one. -/
theorem quoteItems_snoc (items : List Tree) (item : Tree) :
    quoteItems (items ++ [item]) = quoteItems items ++ [item.quote] := by
  induction items with
  | nil => rfl
  | cons first items ih =>
      change first.quote :: quoteItems (items ++ [item]) = _
      rw [ih]
      rfl

/-- So are members. -/
theorem quoteMembers_snoc (members : List (Token × Tree)) (name : Token) (value : Tree) :
    quoteMembers (members ++ [(name, value)]) =
      quoteMembers members ++ [(name.quote, value.quote)] := by
  induction members with
  | nil => rfl
  | cons first members ih =>
      change (first.1.quote, first.2.quote) :: quoteMembers (members ++ [(name, value)]) = _
      rw [ih]
      rfl

end Tree

/-- An open value with its numbers quoted. -/
def Frame.quote : Frame → Frame
  | .items done => .items (Tree.quoteItems done)
  | .member done name => .member (Tree.quoteMembers done) name.quote

/-- The value at hand with its numbers quoted. -/
def Want.quote : Want → Want
  | .name done => .name (Tree.quoteMembers done)
  | .colon done key => .colon (Tree.quoteMembers done) key.quote
  | .after tree => .after tree.quote
  | want => want

/-- A reading with its numbers quoted. -/
def State.quote (s : State) : State := ⟨s.stack.map Frame.quote, s.want.quote⟩

/-- Only scalars change when they are quoted. -/
theorem quote_eq_iff {token mark : Token} (hmark : mark.isScalar = false) :
    token.quote = mark ↔ token = mark := by
  cases token with
  | number lexeme =>
      constructor
      · rintro rfl
        cases hmark
      · rintro rfl
        cases hmark
  | _ => exact Iff.rfl

section
variable (isName : Token → Bool)

/-- A quoted value is begun like the value. -/
theorem startValue_quote (stack : List Frame) (token : Token) :
    startValue (stack.map Frame.quote) token.quote = (startValue stack token).map State.quote := by
  cases token <;> rfl

/-- A quoted name is begun like the name. -/
theorem startMember_quote (stack : List Frame) (done : List (Token × Tree)) (token : Token) :
    startMember isName (stack.map Frame.quote) (Tree.quoteMembers done) token.quote =
      (startMember (isName ∘ Token.quote) stack done token).map State.quote := by
  change (if isName token.quote then _ else _) = Option.map State.quote
    (if isName token.quote then _ else _)
  by_cases hname : isName token.quote = true
  · rw [if_pos hname, if_pos hname]
    rfl
  · rw [if_neg hname, if_neg hname]
    rfl

/-- A quoted value is closed like the value. -/
theorem afterValue_quote (value : Tree) (token : Token) (stack : List Frame) :
    afterValue value.quote token.quote (stack.map Frame.quote) =
      (afterValue value token stack).map State.quote := by
  cases stack with
  | nil => rfl
  | cons frame stack =>
      cases frame with
      | items done =>
          have hitems := Tree.quoteItems_snoc done value
          cases token with
          | comma =>
              change some (State.mk (.items (Tree.quoteItems done ++ [value.quote]) :: _) _) = _
              rw [← hitems]
              rfl
          | closeBracket =>
              change some (State.mk _ (.after (.array (Tree.quoteItems done ++ [value.quote])))) = _
              rw [← hitems]
              rfl
          | _ => rfl
      | member done name =>
          have hmembers := Tree.quoteMembers_snoc done name value
          cases token with
          | comma =>
              change some (State.mk _
                (.name (Tree.quoteMembers done ++ [(name.quote, value.quote)]))) = _
              rw [← hmembers]
              rfl
          | closeBrace =>
              change some (State.mk _
                (.after (.object (Tree.quoteMembers done ++ [(name.quote, value.quote)])))) = _
              rw [← hmembers]
              rfl
          | _ => rfl

/-- One token of a quoted text. -/
theorem step_quote (s : State) (token : Token) :
    step isName s.quote token.quote =
      (step (isName ∘ Token.quote) s token).map State.quote := by
  obtain ⟨stack, want⟩ := s
  cases want with
  | value => exact startValue_quote stack token
  | firstItem =>
      by_cases hclose : token = .closeBracket
      · rw [hclose]
        rfl
      · have hquote : token.quote ≠ .closeBracket := fun heq => hclose ((quote_eq_iff rfl).mp heq)
        change step isName ⟨stack.map Frame.quote, .firstItem⟩ token.quote = _
        rw [step_firstItem hquote, step_firstItem hclose]
        exact startValue_quote (.items [] :: stack) token
  | firstName =>
      by_cases hclose : token = .closeBrace
      · rw [hclose]
        rfl
      · have hquote : token.quote ≠ .closeBrace := fun heq => hclose ((quote_eq_iff rfl).mp heq)
        change step isName ⟨stack.map Frame.quote, .firstName⟩ token.quote = _
        rw [step_firstName hquote, step_firstName hclose]
        exact startMember_quote isName stack [] token
  | name done => exact startMember_quote isName stack done token
  | colon done name => cases token <;> rfl
  | after value => exact afterValue_quote value token stack

/-- **A quoted text is read like the text**, where numbers may be names. -/
theorem run_quote (s : State) (tokens : List Token) :
    run isName s.quote (tokens.map Token.quote) =
      (run (isName ∘ Token.quote) s tokens).map State.quote := by
  induction tokens generalizing s with
  | nil => rfl
  | cons token tokens ih =>
      rw [List.map_cons, run_cons, run_cons, step_quote]
      cases step (isName ∘ Token.quote) s token with
      | none => rfl
      | some s' => exact ih s'

/-- **Quoted numbers** are read as the grammar reads them that takes a number
for the name of a member where its string would be taken. -/
theorem parse_quote (tokens : List Token) :
    parse isName (tokens.map Token.quote) =
      (parse (isName ∘ Token.quote) tokens).map Tree.quote := by
  have hrun : run isName ⟨[], .value⟩ (tokens.map Token.quote) =
      (run (isName ∘ Token.quote) ⟨[], .value⟩ tokens).map State.quote :=
    run_quote isName ⟨[], .value⟩ tokens
  unfold parse
  rw [hrun]
  cases run (isName ∘ Token.quote) ⟨[], .value⟩ tokens with
  | none => rfl
  | some s =>
      obtain ⟨stack, want⟩ := s
      cases stack with
      | cons frame stack => rfl
      | nil => cases want <;> rfl

end

/-- What is good with fewer names is good with more. -/
theorem Tree.WellFormed.mono {isName isName' : Token → Bool}
    (himp : ∀ token, isName token = true → isName' token = true) {tree : Tree}
    (h : tree.WellFormed isName) : tree.WellFormed isName' := by
  induction h with
  | scalar h => exact .scalar h
  | array _ ih => exact .array ih
  | object hname _ ih => exact .object (fun m hm => himp _ (hname m hm)) ih

end JsonTexts
