import Mathlib.Data.List.TakeWhile
import SimplefinBridge.Host

/-!
# JavaScript texts

A JavaScript string is any sequence of UTF-16 code units.  `slice` may cut a
character outside the basic plane in two, and the half that is left stands for
no character.  Whatever is written as UTF-8 has U+FFFD in its place
(`toWellFormed`), so a text is written as it is exactly when it is a text of
characters (`wellFormed_iff`).
-/

namespace SimplefinBridge

/-- A text as the host has it: UTF-16 units, paired or not. -/
@[ext] structure JsText where
  units : List UInt16
  deriving DecidableEq, Repr

namespace JsText

/-- The code units of a text of characters. -/
def ofString (s : String) : JsText := ⟨s.toList.flatMap fun c => (utf16Units c).map UInt16.ofNat⟩

instance : Coe String JsText := ⟨ofString⟩

instance : Append JsText := ⟨fun a b => ⟨a.units ++ b.units⟩⟩

/-- The code unit of a character of the basic plane. -/
def unitOf (c : Char) : UInt16 := UInt16.ofNat c.toNat

/-- `text.length` -/
def length (text : JsText) : Nat := text.units.length

/-- `text.slice(0, n)` -/
def slice (text : JsText) (n : Nat) : JsText := ⟨text.units.take n⟩

/-- `a < b`, by code units. -/
def less (a b : JsText) : Bool := a.units < b.units

/-- White space is of the basic plane. -/
def isSpaceUnit (unit : UInt16) : Bool := isJsSpace (Char.ofNat unit.toNat)

/-- `text.trim()` -/
def trim (text : JsText) : JsText :=
  ⟨((text.units.dropWhile isSpaceUnit).reverse.dropWhile isSpaceUnit).reverse⟩

/-- `parts.join(separator)` -/
def join (separator : JsText) (parts : List JsText) : JsText :=
  ⟨separator.units.intercalate (parts.map units)⟩

/-! ## Characters -/

/-- The first half of a pair. -/
def isHigh (unit : UInt16) : Bool := 0xD800 ≤ unit.toNat ∧ unit.toNat < 0xDC00

/-- The second half of a pair. -/
def isLow (unit : UInt16) : Bool := 0xDC00 ≤ unit.toNat ∧ unit.toNat < 0xE000

/-- The character of a pair. -/
def pairChar (high low : UInt16) : Char :=
  Char.ofNat (0x10000 + (high.toNat - 0xD800) * 0x400 + (low.toNat - 0xDC00))

/-- The character of a unit that is no half of a pair, else U+FFFD. -/
def singleChar (unit : UInt16) : Char :=
  if isHigh unit || isLow unit then '\ufffd' else Char.ofNat unit.toNat

/-- The characters of a sequence of units. -/
def charsOf : List UInt16 → List Char
  | [] => []
  | [unit] => [singleChar unit]
  | high :: low :: rest =>
      if isHigh high && isLow low then pairChar high low :: charsOf rest
      else singleChar high :: charsOf (low :: rest)

/-- The text as UTF-8 writes it. -/
def toWellFormed (text : JsText) : String := String.ofList (charsOf text.units)

/-- A text of characters as a column of the database gives it back: the driver reads up to
the first NUL. -/
def columnText (text : String) : String := String.ofList (text.toList.takeWhile (· ≠ '\x00'))

/-- The text as a column of the database gives it back: the driver writes it as UTF-8. -/
def stored (text : JsText) : JsText := ofString (columnText text.toWellFormed)

/-! ## Texts of characters -/

/-- A unit that opens no pair is a character, -/
theorem charsOf_cons {unit : UInt16} (h : isHigh unit = false) (rest : List UInt16) :
    charsOf (unit :: rest) = singleChar unit :: charsOf rest := by
  cases rest with
  | nil => rfl
  | cons low rest =>
      rw [charsOf, h, Bool.false_and, if_neg Bool.false_ne_true]

/-- and a pair is one. -/
theorem charsOf_pair {high low : UInt16} (hhigh : isHigh high = true) (hlow : isLow low = true)
    (rest : List UInt16) : charsOf (high :: low :: rest) = pairChar high low :: charsOf rest := by
  rw [charsOf, hhigh, hlow, Bool.and_self, if_pos rfl]

/-- A half pair before something else than a second half is none. -/
theorem charsOf_append {rest : List UInt16} (h : ∀ unit ∈ rest.head?, isLow unit = false)
    (units : List UInt16) : charsOf (units ++ rest) = charsOf units ++ charsOf rest := by
  induction units using charsOf.induct with
  | case1 => rfl
  | case2 unit =>
      cases rest with
      | nil => rfl
      | cons next rest =>
          have hnext := h next rfl
          change charsOf (unit :: next :: rest) = singleChar unit :: charsOf (next :: rest)
          simp only [charsOf, hnext, Bool.and_false, Bool.false_eq_true, if_false]
  | case3 high low units hpair ih =>
      rw [List.cons_append, List.cons_append, charsOf, charsOf, if_pos hpair, if_pos hpair, ih,
        List.cons_append]
  | case4 high low units hpair ih =>
      rw [List.cons_append, List.cons_append, charsOf, charsOf, if_neg hpair, if_neg hpair,
        ← List.cons_append, ih, List.cons_append]

/-- A small number is its own unit. -/
theorem toNat_ofNat {n : Nat} (h : n < 0x10000) : (UInt16.ofNat n).toNat = n := by
  rw [UInt16.toNat_ofNat', Nat.mod_eq_of_lt h]

/-- The first halves, -/
theorem isHigh_ofNat {n : Nat} (h : n < 0x10000) :
    isHigh (UInt16.ofNat n) = decide (0xD800 ≤ n ∧ n < 0xDC00) := by
  unfold isHigh
  rw [toNat_ofNat h]

/-- and the second halves. -/
theorem isLow_ofNat {n : Nat} (h : n < 0x10000) :
    isLow (UInt16.ofNat n) = decide (0xDC00 ≤ n ∧ n < 0xE000) := by
  unfold isLow
  rw [toNat_ofNat h]

/-- No character is a half of a pair. -/
theorem no_half (c : Char) : ¬ (0xD800 ≤ c.toNat ∧ c.toNat < 0xE000) := by
  intro hc
  rcases c.valid with hlow | ⟨hhigh, -⟩
  · have : c.toNat < 0xD800 := hlow
    omega
  · have : 0xDFFF < c.toNat := hhigh
    omega

/-- The codes of characters end. -/
theorem toNat_lt (c : Char) : c.toNat < 0x110000 := by
  rcases c.valid with hlow | ⟨-, htop⟩
  · have : c.toNat < 0xD800 := hlow
    omega
  · exact htop

/-- The units of a character are read back. -/
theorem charsOf_utf16Units (c : Char) (rest : List UInt16) :
    charsOf ((utf16Units c).map UInt16.ofNat ++ rest) = c :: charsOf rest := by
  have htop := toNat_lt c
  have hhalf := no_half c
  unfold utf16Units
  by_cases hbasic : c.val < 0x10000
  · have hsmall : c.toNat < 0x10000 := UInt32.lt_iff_toNat_lt.mp hbasic
    have hnotHigh : isHigh (UInt16.ofNat c.toNat) = false := by
      rw [isHigh_ofNat hsmall]
      exact decide_eq_false (by omega)
    have hnotLow : isLow (UInt16.ofNat c.toNat) = false := by
      rw [isLow_ofNat hsmall]
      exact decide_eq_false (by omega)
    rw [if_pos hbasic, List.map_singleton, List.singleton_append, charsOf_cons hnotHigh]
    unfold singleChar
    rw [hnotHigh, hnotLow, Bool.or_self, if_neg Bool.false_ne_true, toNat_ofNat hsmall,
      Char.ofNat_toNat]
  · have hlarge : 0x10000 ≤ c.toNat := by
      have := mt UInt32.lt_iff_toNat_lt.mpr hbasic
      exact Nat.le_of_not_lt this
    have hhighBound : 0xD800 + (c.toNat - 0x10000) / 0x400 < 0x10000 := by omega
    have hlowBound : 0xDC00 + (c.toNat - 0x10000) % 0x400 < 0x10000 := by omega
    rw [if_neg hbasic, List.map_cons, List.map_singleton, List.cons_append, List.singleton_append,
      charsOf_pair]
    · unfold pairChar
      rw [toNat_ofNat hhighBound, toNat_ofNat hlowBound]
      have hcode : 0x10000 + (0xD800 + (c.toNat - 0x10000) / 0x400 - 0xD800) * 0x400 +
          (0xDC00 + (c.toNat - 0x10000) % 0x400 - 0xDC00) = c.toNat := by omega
      rw [hcode, Char.ofNat_toNat]
    · rw [isHigh_ofNat hhighBound]
      exact decide_eq_true (by omega)
    · rw [isLow_ofNat hlowBound]
      exact decide_eq_true (by omega)

/-- The characters of a text are read back. -/
theorem charsOf_ofString (s : String) : charsOf (ofString s).units = s.toList := by
  unfold ofString
  induction s.toList with
  | nil => rfl
  | cons c cs ih => rw [List.flatMap_cons, charsOf_utf16Units, ih]

/-- UTF-8 writes a text of characters as it is. -/
@[simp] theorem toWellFormed_ofString (s : String) : (ofString s).toWellFormed = s := by
  unfold toWellFormed
  rw [charsOf_ofString, String.ofList_toList]

/-- Different texts have different units. -/
@[simp] theorem ofString_inj {s t : String} : ofString s = ofString t ↔ s = t := by
  constructor
  · intro h
    rw [← toWellFormed_ofString s, h, toWellFormed_ofString]
  · rintro rfl
    rfl

/-- The text holds no half of a pair on its own. -/
def WellFormed (text : JsText) : Prop := ofString text.toWellFormed = text

instance : DecidablePred WellFormed := fun text =>
  inferInstanceAs (Decidable (ofString text.toWellFormed = text))

/-- A column of the database keeps the text. -/
def Kept (text : JsText) : Prop := text.stored = text

instance : DecidablePred Kept := fun text => inferInstanceAs (Decidable (text.stored = text))

/-- A well-formed text is cut at its first NUL. -/
theorem stored_ofString (s : String) : (ofString s).stored = ofString (columnText s) := by
  unfold stored
  rw [toWellFormed_ofString]

/-- Once only. -/
@[simp] theorem columnText_columnText (text : String) :
    columnText (columnText text) = columnText text := by
  unfold columnText
  rw [String.toList_ofList, List.takeWhile_idem]

/-- What a column gives back it keeps. -/
theorem kept_stored (text : JsText) : text.stored.Kept := by
  unfold Kept stored
  rw [toWellFormed_ofString, columnText_columnText]

/-- What a column gives back, it keeps. -/
@[simp] theorem stored_stored (text : JsText) : text.stored.stored = text.stored := kept_stored text

/-- A column keeps the texts of characters without NUL. -/
theorem kept_iff {text : JsText} :
    text.Kept ↔ ∃ s : String, text = ofString s ∧ '\x00' ∉ s.toList := by
  constructor
  · intro h
    refine ⟨_, h.symm, fun hmem => ?_⟩
    rw [columnText, String.toList_ofList] at hmem
    have hne := List.mem_takeWhile_imp hmem
    simp at hne
  · rintro ⟨s, rfl, hnul⟩
    unfold Kept
    have hall : s.toList.takeWhile (· ≠ '\x00') = s.toList := by
      rw [List.takeWhile_eq_self_iff]
      intro c hc
      have hne : c ≠ '\x00' := fun heq => hnul (heq ▸ hc)
      simpa using hne
    rw [stored_ofString, columnText, hall, String.ofList_toList]

/-! ## Joined texts -/

/-- The units of two texts. -/
theorem units_append (a b : JsText) : (a ++ b).units = a.units ++ b.units := rfl

/-- Texts may be joined before or after. -/
theorem ofString_append (s t : String) : ofString (s ++ t) = ofString s ++ ofString t := by
  apply JsText.ext
  rw [units_append]
  unfold ofString
  rw [String.toList_append, List.flatMap_append]

/-- UTF-8 writes a joined text part by part, where the separator is a character of the basic
plane. -/
theorem charsOf_intercalate {mark : UInt16} (hhigh : isHigh mark = false)
    (hlow : isLow mark = false) (parts : List (List UInt16)) :
    charsOf ([mark].intercalate parts) = [singleChar mark].intercalate (parts.map charsOf) := by
  induction parts with
  | nil => rfl
  | cons part parts ih =>
      cases parts with
      | nil => simp [List.intercalate]
      | cons next parts =>
          have hsplit : ∀ {α : Type} (separator : α) (a b : List α) (rest : List (List α)),
              [separator].intercalate (a :: b :: rest) =
                a ++ separator :: [separator].intercalate (b :: rest) := by
            intro α separator a b rest
            simp [List.intercalate]
          rw [hsplit, charsOf_append, charsOf_cons hhigh, ih, List.map_cons, List.map_cons, List.map_cons, hsplit]
          intro unit hunit
          obtain rfl := Option.some.inj hunit
          exact hlow

end JsText

/-- `text.slice(0, 500)` may end in the first half of a pair. -/
example : ¬ ((JsText.ofString "a😀").slice 2).WellFormed := by decide +kernel

end SimplefinBridge
