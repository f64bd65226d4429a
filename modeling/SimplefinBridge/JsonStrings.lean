import SimplefinBridge.Ids

/-!
# Writing JSON

`JSON.stringify` of a value.  A text is written with escapes and is read back
from whatever it is the beginning of (`jsonText_append_inj`), so an array of
texts and nulls is determined by its text (`stringify_texts_inj`).
-/

namespace SimplefinBridge

section
variable (host : Host)

/-- `JSON.stringify` of one character of a text. -/
def jsonChar (c : Char) : List Char :=
  if c = '\x22' then ['\x5c', '\x22']
  else if c = '\x5c' then ['\x5c', '\x5c']
  else if c.val = 0x08 then ['\x5c', 'b']
  else if c.val = 0x09 then ['\x5c', 't']
  else if c.val = 0x0A then ['\x5c', 'n']
  else if c.val = 0x0C then ['\x5c', 'f']
  else if c.val = 0x0D then ['\x5c', 'r']
  else if c.val < 0x20 then
    ['\x5c', 'u', '0', '0', (hexDigit (c.toNat / 16)).toLower, (hexDigit (c.toNat % 16)).toLower]
  else [c]

def jsonText (s : String) : List Char := '\x22' :: (s.toList.flatMap jsonChar ++ ['\x22'])

/-- `JSON.stringify` of one code unit that is not part of a pair. -/
def jsonUnit (unit : UInt16) : List Char :=
  if JsText.isHigh unit || JsText.isLow unit then
    let digit (n : Nat) := (hexDigit (n % 16)).toLower
    ['\x5c', 'u', digit (unit.toNat / 4096), digit (unit.toNat / 256), digit (unit.toNat / 16),
      digit unit.toNat]
  else jsonChar (Char.ofNat unit.toNat)

/-- `JSON.stringify` of the inside of a text; halves of pairs are escaped. -/
def jsonUnits : List UInt16 → List Char
  | [] => []
  | [unit] => jsonUnit unit
  | high :: low :: rest =>
      if JsText.isHigh high && JsText.isLow low then
        jsonChar (JsText.pairChar high low) ++ jsonUnits rest
      else jsonUnit high ++ jsonUnits (low :: rest)

def JsText.jsonText (text : JsText) : List Char := '\x22' :: (jsonUnits text.units ++ ['\x22'])

namespace Json

mutual
/-- `JSON.stringify` -/
def stringify : Json → List Char
  | .null => "null".toList
  | .bool value => (if value then "true" else "false").toList
  | .num value => (host.numberToString value).toList
  | .str value => jsonText value
  | .arr items => '[' :: ([','].intercalate (stringifyItems items) ++ [']'])
  | .obj fields => '\x7b' :: ([','].intercalate (stringifyFields fields) ++ ['\x7d'])

def stringifyItems : List Json → List (List Char)
  | [] => []
  | item :: items => stringify item :: stringifyItems items

def stringifyFields : List (String × Json) → List (List Char)
  | [] => []
  | (key, value) :: fields => (jsonText key ++ ':' :: stringify value) :: stringifyFields fields
end

end Json

end

/-- `null` or a text. -/
def jsonOptional : Option String → Json
  | some text => .str text
  | none => .null

/-! ## Reading texts back -/

/-- A character that stands at the beginning of the inside of a text. -/
def readJsonChar : List Char → Option (Char × List Char)
  | '\x5c' :: 'u' :: '0' :: '0' :: high :: low :: rest => do
      let high ← hexValue high
      let low ← hexValue low
      return (Char.ofNat (high * 16 + low), rest)
  | '\x5c' :: 'b' :: rest => some ('\x08', rest)
  | '\x5c' :: 't' :: rest => some ('\x09', rest)
  | '\x5c' :: 'n' :: rest => some ('\x0a', rest)
  | '\x5c' :: 'f' :: rest => some ('\x0c', rest)
  | '\x5c' :: 'r' :: rest => some ('\x0d', rest)
  | '\x5c' :: c :: rest => some (c, rest)
  | '\x22' :: _ => none
  | c :: rest => some (c, rest)
  | [] => none

/-- The escape of a control character is read back. -/
theorem readJsonChar_control {n : Nat} (h : n < 32) (rest : List Char) :
    readJsonChar ('\x5c' :: 'u' :: '0' :: '0' :: (hexDigit (n / 16)).toLower ::
      (hexDigit (n % 16)).toLower :: rest) = some (Char.ofNat n, rest) := by
  have hdigits : ∀ n < 32, hexValue (hexDigit (n / 16)).toLower = some (n / 16) ∧
      hexValue (hexDigit (n % 16)).toLower = some (n % 16) := by
    decide
  obtain ⟨hhigh, hlow⟩ := hdigits n h
  change ((hexValue (hexDigit (n / 16)).toLower).bind fun high =>
    (hexValue (hexDigit (n % 16)).toLower).bind fun low =>
      some (Char.ofNat (high * 16 + low), rest)) = _
  rw [hhigh, hlow, Option.bind_some, Option.bind_some, Nat.div_add_mod']

theorem readJsonChar_plain {c : Char} (hquote : c ≠ '\x22') (hslash : c ≠ '\x5c')
    (rest : List Char) : readJsonChar (c :: rest) = some (c, rest) := by
  unfold readJsonChar
  split
  all_goals first
    | rfl
    | simp_all

/-- A written character is read back. -/
theorem readJsonChar_jsonChar (c : Char) (rest : List Char) :
    readJsonChar (jsonChar c ++ rest) = some (c, rest) := by
  unfold jsonChar
  by_cases hquote : c = '\x22'
  · rw [if_pos hquote, hquote]
    rfl
  rw [if_neg hquote]
  by_cases hslash : c = '\x5c'
  · rw [if_pos hslash, hslash]
    rfl
  rw [if_neg hslash]
  have hcontrol : ∀ {d : Char}, c.val = d.val → c = d := fun h => Char.ext h
  by_cases hback : c.val = 0x08
  · rw [if_pos hback, @hcontrol '\x08' hback]
    rfl
  rw [if_neg hback]
  by_cases htab : c.val = 0x09
  · rw [if_pos htab, @hcontrol '\x09' htab]
    rfl
  rw [if_neg htab]
  by_cases hline : c.val = 0x0A
  · rw [if_pos hline, @hcontrol '\x0a' hline]
    rfl
  rw [if_neg hline]
  by_cases hfeed : c.val = 0x0C
  · rw [if_pos hfeed, @hcontrol '\x0c' hfeed]
    rfl
  rw [if_neg hfeed]
  by_cases hreturn : c.val = 0x0D
  · rw [if_pos hreturn, @hcontrol '\x0d' hreturn]
    rfl
  rw [if_neg hreturn]
  by_cases hlow : c.val < 0x20
  · have hnat : c.toNat < 32 := UInt32.lt_iff_toNat_lt.mp hlow
    have hread := readJsonChar_control hnat rest
    rw [Char.ofNat_toNat] at hread
    rw [if_pos hlow]
    exact hread
  · rw [if_neg hlow]
    exact readJsonChar_plain hquote hslash rest

/-- The inside of a text ends at the first quotation mark of its own. -/
theorem jsonChars_append_inj {a b r s : List Char}
    (h : a.flatMap jsonChar ++ '\x22' :: r = b.flatMap jsonChar ++ '\x22' :: s) :
    a = b ∧ r = s := by
  have hend : ∀ (c : Char) (cs t : List Char),
      jsonChar c ++ t ≠ '\x22' :: cs := by
    intro c cs t heq
    have hread := readJsonChar_jsonChar c t
    rw [heq] at hread
    cases hread
  induction a generalizing b with
  | nil =>
      cases b with
      | nil => exact ⟨rfl, (List.cons.inj h).2⟩
      | cons d b =>
          rw [List.flatMap_nil, List.nil_append, List.flatMap_cons, List.append_assoc] at h
          exact absurd h.symm (hend d r _)
  | cons c a ih =>
      cases b with
      | nil =>
          rw [List.flatMap_nil, List.nil_append, List.flatMap_cons, List.append_assoc] at h
          exact absurd h (hend c s _)
      | cons d b =>
          rw [List.flatMap_cons, List.flatMap_cons, List.append_assoc, List.append_assoc] at h
          have hread := congrArg readJsonChar h
          rw [readJsonChar_jsonChar, readJsonChar_jsonChar] at hread
          obtain ⟨rfl, hrest⟩ := Prod.mk.inj (Option.some.inj hread)
          obtain ⟨rfl, hbehind⟩ := ih hrest
          exact ⟨rfl, hbehind⟩

/-- **A written text** is determined by whatever it is the beginning of. -/
theorem jsonText_append_inj {a b : String} {r s : List Char}
    (h : jsonText a ++ r = jsonText b ++ s) : a = b ∧ r = s := by
  unfold jsonText at h
  rw [List.cons_append, List.cons_append, List.append_assoc, List.append_assoc] at h
  obtain ⟨hchars, hrest⟩ := jsonChars_append_inj (List.cons.inj h).2
  exact ⟨String.toList_inj.mp hchars, hrest⟩

/-! ## Arrays of texts -/

/-- A text, or null. -/
def Json.isTextOrNull : Json → Bool
  | .str _ | .null => true
  | _ => false

section
variable {host : Host}

theorem stringify_append_inj {a b : Json} {r s : List Char} (ha : a.isTextOrNull = true)
    (hb : b.isTextOrNull = true) (h : a.stringify host ++ r = b.stringify host ++ s) :
    a = b ∧ r = s := by
  cases a with
  | null =>
      cases b with
      | null => exact ⟨rfl, List.append_cancel_left h⟩
      | str text => exact absurd (List.cons.inj h).1 (by decide)
      | _ => cases hb
  | str text =>
      cases b with
      | null => exact absurd (List.cons.inj h).1 (by decide)
      | str text' =>
          obtain ⟨rfl, hrest⟩ := jsonText_append_inj h
          exact ⟨rfl, hrest⟩
      | _ => cases hb
  | _ => cases ha

/-- The items behind the first one. -/
def stringifyRest (host : Host) (items : List Json) : List Char :=
  items.flatMap fun item => ',' :: item.stringify host

theorem stringify_cons (item : Json) (items : List Json) :
    (Json.arr (item :: items)).stringify host =
      '[' :: (item.stringify host ++ (stringifyRest host items ++ [']'])) := by
  have hitems : ∀ first : List Char, [','].intercalate (first :: Json.stringifyItems host items) =
      first ++ stringifyRest host items := by
    induction items with
    | nil =>
        intro first
        unfold stringifyRest Json.stringifyItems
        simp
    | cons next items ih =>
        intro first
        unfold Json.stringifyItems
        rw [List.intercalate_cons_cons, ih]
        unfold stringifyRest
        simp
  change '[' :: ([','].intercalate (item.stringify host :: Json.stringifyItems host items) ++
    [']']) = _
  rw [hitems, List.append_assoc]

theorem stringifyRest_inj {items items' : List Json}
    (h : ∀ item ∈ items, item.isTextOrNull = true) (h' : ∀ item ∈ items', item.isTextOrNull = true)
    (heq : stringifyRest host items ++ [']'] = stringifyRest host items' ++ [']']) :
    items = items' := by
  induction items generalizing items' with
  | nil =>
      cases items' with
      | nil => rfl
      | cons item' items' => exact absurd (List.cons.inj heq).1 (by decide)
  | cons item items ih =>
      cases items' with
      | nil => exact absurd (List.cons.inj heq).1 (by decide)
      | cons item' items' =>
          unfold stringifyRest at heq
          rw [List.flatMap_cons, List.flatMap_cons, List.append_assoc, List.append_assoc] at heq
          obtain ⟨hfirst, hrest⟩ := stringify_append_inj (h item List.mem_cons_self)
            (h' item' List.mem_cons_self) (List.cons.inj heq).2
          rw [hfirst, ih (fun i hi => h i (List.mem_cons_of_mem _ hi))
            (fun i hi => h' i (List.mem_cons_of_mem _ hi)) hrest]

/-- **An array** of texts and nulls is determined by its text. -/
theorem stringify_texts_inj {item item' : Json} {items items' : List Json}
    (h : ∀ i ∈ item :: items, i.isTextOrNull = true)
    (h' : ∀ i ∈ item' :: items', i.isTextOrNull = true)
    (heq : (Json.arr (item :: items)).stringify host = (Json.arr (item' :: items')).stringify host) :
    item :: items = item' :: items' := by
  rw [stringify_cons, stringify_cons] at heq
  obtain ⟨hfirst, hrest⟩ := stringify_append_inj (h item List.mem_cons_self)
    (h' item' List.mem_cons_self) (List.cons.inj heq).2
  rw [hfirst, stringifyRest_inj (fun i hi => h i (List.mem_cons_of_mem _ hi))
    (fun i hi => h' i (List.mem_cons_of_mem _ hi)) hrest]

end

end SimplefinBridge
