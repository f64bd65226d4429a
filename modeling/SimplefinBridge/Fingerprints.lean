import SimplefinBridge.IdEncoding

/-!
# Fingerprints

A fingerprint hashes the frozen fields of a row, joined with `|` and written
as UTF-8.  The date, the amount and the installments have no bar of their own,
so they are read back.  The boundary between description and memo is not, and
neither is the half of a character that `slice(0, 500)` may leave: every one is
written as U+FFFD (`material_eq_iff`).  With a hash that keeps the two texts
apart these are the only ways for two rows to share a fingerprint.
-/

namespace SimplefinBridge

open Separators Transactional

section
variable (host : Host)

/-- The text that is hashed. -/
def fingerprintMaterial (row : TransactionFields) : String :=
  (JsText.join "|"
    [row.bookedDate, host.toFixed2 row.amount, row.description.trim,
      (row.memo.map JsText.trim).getD "",
      numberText host row.installmentNumber ++ "/" ++
        numberText host row.installmentTotal]).toWellFormed

/-- A fingerprint is the front of a digest. -/
theorem transactionFingerprint_eq (row : TransactionFields) :
    transactionFingerprint host row = String.ofList
      ((host.sha256 (fingerprintMaterial host row)).toList.take fingerprintLength) := rfl

/-- `String(x)` gives every number a text of its own, of digits, a sign, a
point and an exponent. -/
structure NumberTexts : Prop where
  injective : Function.Injective host.numberToString
  nonempty : ∀ x, host.numberToString x ≠ ""
  plain : ∀ x, ∀ c ∈ (host.numberToString x).toList, c ≠ '|' ∧ c ≠ '/'

/-! ## The fields of the material -/

variable {host}

/-- An amount has no bar. -/
theorem bar_not_mem_toFixed2 (hnumbers : NumberTexts host) (x : ℚ) :
    '|' ∉ (host.toFixed2 x).toList := by
  intro hmem
  rcases host.mem_toFixed2 hmem with heq | heq | hdigit | htext
  · exact absurd heq (by decide)
  · exact absurd heq (by decide)
  · exact absurd hdigit (by decide)
  · exact (hnumbers.plain x _ htext).1 rfl

/-- A number has neither bar nor slash. -/
theorem not_mem_numberText (hnumbers : NumberTexts host) (x : Option ℚ) {c : Char}
    (h : c ∈ (numberText host x).toList) : c ≠ '|' ∧ c ≠ '/' := by
  cases x with
  | none => cases h
  | some x => exact hnumbers.plain x c h

/-- Different numbers are written differently. -/
theorem numberText_inj (hnumbers : NumberTexts host) {x y : Option ℚ} :
    numberText host x = numberText host y ↔ x = y := by
  constructor
  · intro h
    cases x with
    | none =>
        cases y with
        | none => rfl
        | some y => exact absurd h.symm (hnumbers.nonempty y)
    | some x =>
        cases y with
        | none => exact absurd h (hnumbers.nonempty x)
        | some y => exact congrArg some (hnumbers.injective h)
  · rintro rfl
    rfl

/-- The installments as the material spells them. -/
def installmentText (host : Host) (row : TransactionFields) : String :=
  numberText host row.installmentNumber ++ "/" ++ numberText host row.installmentTotal

/-- An installment's number and how many there are. -/
theorem toList_installmentText (row : TransactionFields) :
    (installmentText host row).toList = (numberText host row.installmentNumber).toList ++
      '/' :: (numberText host row.installmentTotal).toList := by
  unfold installmentText
  simp [String.toList_append]

/-- It has no bar. -/
theorem bar_not_mem_installmentText (hnumbers : NumberTexts host) (row : TransactionFields) :
    '|' ∉ (installmentText host row).toList := by
  intro hmem
  rw [toList_installmentText] at hmem
  rcases List.mem_append.mp hmem with hnumber | htotal
  · exact (not_mem_numberText hnumbers _ hnumber).1 rfl
  · rcases List.mem_cons.mp htotal with hslash | htotal
    · revert hslash
      decide
    · exact (not_mem_numberText hnumbers _ htotal).1 rfl

/-- Different installments are written differently. -/
theorem installmentText_inj (hnumbers : NumberTexts host) {p q : TransactionFields} :
    installmentText host p = installmentText host q ↔
      p.installmentNumber = q.installmentNumber ∧ p.installmentTotal = q.installmentTotal := by
  rw [← String.toList_inj, toList_installmentText, toList_installmentText,
    first_field_inj (fun h => (not_mem_numberText hnumbers _ h).2 rfl)
      (fun h => (not_mem_numberText hnumbers _ h).2 rfl),
    String.toList_inj, String.toList_inj, numberText_inj hnumbers, numberText_inj hnumbers]

/-- The trimmed memo; a missing one is empty. -/
def memoText (row : TransactionFields) : JsText := (row.memo.map JsText.trim).getD ""

/-- The fields of the material, with bars between them. -/
theorem toList_fingerprintMaterial (row : TransactionFields) :
    (fingerprintMaterial host row).toList = row.bookedDate.toList ++ '|' ::
      ((host.toFixed2 row.amount).toList ++ '|' ::
        ((row.description.trim.toWellFormed.toList ++ '|' :: (memoText row).toWellFormed.toList) ++
          '|' :: (installmentText host row).toList)) := by
  have hbar : (JsText.ofString "|").units = [JsText.unitOf '|'] := by decide
  have hchar : JsText.singleChar (JsText.unitOf '|') = '|' := by decide
  have hwritten : ∀ text : JsText, JsText.charsOf text.units = text.toWellFormed.toList :=
    fun text => String.toList_ofList.symm
  unfold fingerprintMaterial
  rw [JsText.toWellFormed, String.toList_ofList, JsText.join, hbar,
    JsText.charsOf_intercalate (by decide) (by decide), hchar]
  simp only [List.map_cons, List.map_nil, hwritten, ← JsText.ofString_append,
    JsText.toWellFormed_ofString]
  simp [List.intercalate, List.intersperse, memoText, installmentText]

/-! ## Which rows share their material -/

/-- What a fingerprint should tell apart. -/
def SameFrozen (host : Host) (p q : TransactionFields) : Prop :=
  p.bookedDate = q.bookedDate ∧ host.toFixed2 p.amount = host.toFixed2 q.amount ∧
    p.description.trim = q.description.trim ∧ memoText p = memoText q ∧
    p.installmentNumber = q.installmentNumber ∧ p.installmentTotal = q.installmentTotal

/-- The description of `p` is that of `q` continued behind a bar, and the memo
of `q` is the continuation, a bar and the memo of `p`, as UTF-8 writes them;
nothing else differs. -/
def BarMoved (host : Host) (p q : TransactionFields) : Prop :=
  p.bookedDate = q.bookedDate ∧ host.toFixed2 p.amount = host.toFixed2 q.amount ∧
    Shifted '|' p.description.trim.toWellFormed.toList (memoText p).toWellFormed.toList
      q.description.trim.toWellFormed.toList (memoText q).toWellFormed.toList ∧
    p.installmentNumber = q.installmentNumber ∧ p.installmentTotal = q.installmentTotal

/-- The rows differ in halves of characters only: UTF-8 writes their
descriptions alike and their memos alike, and one of the two is not the same
text. -/
def HalvesDiffer (host : Host) (p q : TransactionFields) : Prop :=
  p.bookedDate = q.bookedDate ∧ host.toFixed2 p.amount = host.toFixed2 q.amount ∧
    (p.description.trim.toWellFormed = q.description.trim.toWellFormed ∧
      (memoText p).toWellFormed = (memoText q).toWellFormed ∧
      (p.description.trim ≠ q.description.trim ∨ memoText p ≠ memoText q)) ∧
    p.installmentNumber = q.installmentNumber ∧ p.installmentTotal = q.installmentTotal

/-- **Which rows share their material.** -/
theorem material_eq_iff (hnumbers : NumberTexts host) {p q : TransactionFields}
    (hp : '|' ∉ p.bookedDate.toList) (hq : '|' ∉ q.bookedDate.toList) :
    fingerprintMaterial host p = fingerprintMaterial host q ↔
      SameFrozen host p q ∨ HalvesDiffer host p q ∨ BarMoved host p q ∨ BarMoved host q p := by
  rw [← String.toList_inj, toList_fingerprintMaterial, toList_fingerprintMaterial,
    first_field_inj hp hq,
    first_field_inj (bar_not_mem_toFixed2 hnumbers _) (bar_not_mem_toFixed2 hnumbers _),
    last_field_inj (bar_not_mem_installmentText hnumbers _) (bar_not_mem_installmentText hnumbers _),
    fields_shift, String.toList_inj, String.toList_inj, String.toList_inj, String.toList_inj,
    String.toList_inj, installmentText_inj hnumbers]
  unfold SameFrozen BarMoved HalvesDiffer
  constructor
  · rintro ⟨hdate, hamount, ⟨hdescription, hmemo⟩ | hshift | hshift, hnumber, htotal⟩
    · by_cases hsame : p.description.trim = q.description.trim ∧ memoText p = memoText q
      · exact .inl ⟨hdate, hamount, hsame.1, hsame.2, hnumber, htotal⟩
      · refine .inr (.inl ⟨hdate, hamount, ⟨hdescription, hmemo, ?_⟩, hnumber, htotal⟩)
        exact not_and_or.mp hsame
    · exact .inr (.inr (.inl ⟨hdate, hamount, hshift, hnumber, htotal⟩))
    · exact .inr (.inr (.inr ⟨hdate.symm, hamount.symm, hshift, hnumber.symm, htotal.symm⟩))
  · rintro (⟨hdate, hamount, hdescription, hmemo, hnumber, htotal⟩ |
      ⟨hdate, hamount, ⟨hdescription, hmemo, -⟩, hnumber, htotal⟩ |
      ⟨hdate, hamount, hshift, hnumber, htotal⟩ | ⟨hdate, hamount, hshift, hnumber, htotal⟩)
    · exact ⟨hdate, hamount, .inl ⟨by rw [hdescription], by rw [hmemo]⟩, hnumber, htotal⟩
    · exact ⟨hdate, hamount, .inl ⟨hdescription, hmemo⟩, hnumber, htotal⟩
    · exact ⟨hdate, hamount, .inr (.inl hshift), hnumber, htotal⟩
    · exact ⟨hdate.symm, hamount.symm, .inr (.inr hshift), hnumber.symm, htotal.symm⟩

/-- A moved bar is a difference. -/
theorem BarMoved.not_same {p q : TransactionFields} (h : BarMoved host p q) :
    ¬ SameFrozen host p q ∧ ¬ SameFrozen host q p := by
  have hne : p.description.trim ≠ q.description.trim := by
    intro heq
    exact h.2.2.1.ne (by rw [heq])
  exact ⟨fun hsame => hne hsame.2.2.1, fun hsame => hne hsame.2.2.1.symm⟩

/-- Differing halves are a difference. -/
theorem HalvesDiffer.not_same {p q : TransactionFields} (h : HalvesDiffer host p q) :
    ¬ SameFrozen host p q := by
  intro hsame
  rcases h.2.2.1.2.2 with hdescription | hmemo
  · exact hdescription hsame.2.2.1
  · exact hmemo hsame.2.2.2.1

/-- Rows that are written alike though they differ. -/
def WrittenAlike (host : Host) (p q : TransactionFields) : Prop :=
  HalvesDiffer host p q ∨ BarMoved host p q ∨ BarMoved host q p

/-- Rows that are only written alike are not the same. -/
theorem WrittenAlike.not_same {p q : TransactionFields} (h : WrittenAlike host p q) :
    ¬ SameFrozen host p q := by
  rcases h with hhalves | hmoved | hmoved
  · exact hhalves.not_same
  · exact hmoved.not_same.1
  · exact hmoved.not_same.2

end

section
variable (host : Host)

/-- Base ids of rows without identifiers end in their fingerprints. -/
theorem baseTransactionId_eq_iff {p q : TransactionFields} (hcompany : p.company = q.company)
    (haccount : p.accountId = q.accountId) (hp : p.identifier = none) (hq : q.identifier = none)
    {id : String} (hid : baseTransactionId host p = .ok id) :
    baseTransactionId host q = .ok id ↔
      transactionFingerprint host p = transactionFingerprint host q := by
  have hshape : ∀ row : TransactionFields, baseTransactionId host row = .ok id →
      row.identifier = none → ∃ number account, accountNumberFromAccountId row.accountId = .ok number ∧
        accountId row.company number = .ok account ∧
        id = account ++ ":" ++ "-" ++ ":" ++ transactionFingerprint host row ++ "" := by
    intro row hrow hnone
    obtain ⟨number, hnumber, hrest⟩ := except_bind_ok.mp hrow
    obtain ⟨segment, hsegment, hrest⟩ := except_bind_ok.mp hrest
    obtain ⟨account, haccountId, hassert⟩ := except_bind_ok.mp hrest
    rw [hnone] at hsegment
    obtain rfl := Except.ok.inj hsegment
    exact ⟨number, account, hnumber, haccountId, (assertId_ok hassert).1⟩
  constructor
  · intro hid'
    obtain ⟨number, account, hnumber, haccountId, htext⟩ := hshape p hid hp
    obtain ⟨number', account', hnumber', haccountId', htext'⟩ := hshape q hid' hq
    rw [haccount, hnumber'] at hnumber
    obtain rfl := Except.ok.inj hnumber
    rw [hcompany, haccountId'] at haccountId
    obtain rfl := Except.ok.inj haccountId
    rw [htext, String.append_empty, String.append_empty, String.append_right_inj] at htext'
    exact htext'
  · intro hprint
    rw [← hid]
    unfold baseTransactionId
    rw [hcompany, haccount, hp, hq, hprint]

/-- **What a fingerprint tells apart.**  For two rows whose hashes do not
collide, equal fingerprints, or equal base ids without identifiers, mean equal
frozen fields exactly when no bar has moved between description and memo and
the two do not differ in halves of characters only. -/
theorem fingerprint_tells_iff (hnumbers : NumberTexts host) (p q : TransactionFields)
    (hp : isDateText p.bookedDate = true) (hq : isDateText q.bookedDate = true)
    (hhash : transactionFingerprint host p = transactionFingerprint host q →
      fingerprintMaterial host p = fingerprintMaterial host q) :
    ((transactionFingerprint host p = transactionFingerprint host q → SameFrozen host p q) ↔
        ¬ WrittenAlike host p q) ∧
      (p.company = q.company → p.accountId = q.accountId → p.identifier = none →
        q.identifier = none → ∀ id, baseTransactionId host p = .ok id →
          ((baseTransactionId host q = .ok id → SameFrozen host p q) ↔
            ¬ WrittenAlike host p q)) := by
  have hbar : ∀ {row : TransactionFields}, isDateText row.bookedDate = true →
      '|' ∉ row.bookedDate.toList := by
    intro row hrow hmem
    have hchar := List.all_eq_true.mp (Bool.and_eq_true_iff.mp hrow).1 _ hmem
    revert hchar
    decide
  have hmaterial := material_eq_iff hnumbers (hbar hp) (hbar hq)
  have hprint : transactionFingerprint host p = transactionFingerprint host q ↔
      fingerprintMaterial host p = fingerprintMaterial host q := by
    refine ⟨hhash, fun h => ?_⟩
    rw [transactionFingerprint_eq, transactionFingerprint_eq, h]
  have hfingerprint : (transactionFingerprint host p = transactionFingerprint host q →
      SameFrozen host p q) ↔ ¬ WrittenAlike host p q := by
    rw [hprint, hmaterial]
    constructor
    · intro h halike
      exact halike.not_same (h (.inr halike))
    · intro hstill h
      exact h.resolve_right hstill
  refine ⟨hfingerprint, ?_⟩
  intro hcompany haccount hpnone hqnone id hid
  rw [baseTransactionId_eq_iff host hcompany haccount hpnone hqnone hid]
  exact hfingerprint

end

/-- A card transfer without an identifier. -/
def transferRow (description memo : JsText) : TransactionFields where
  accountId := "visaCal:1234"
  company := "visaCal"
  identifier := none
  bookedDate := "2026-01-05"
  chargeDate := none
  amount := -50
  currency := "ILS"
  description
  memo := some memo
  status := .posted
  installmentNumber := none
  installmentTotal := none
  originalAmount := none
  originalCurrency := none
  category := none
  synthetic := false
  firstSeen := 0
  lastSeen := 0
  idSchemeVersion := 1
  raw := .null

/-- A host that prints fractions as numerator and denominator, with the
digests of two texts. -/
def digestHost : Host :=
  { asciiHost with
    formatNumber := fun x => toString x.num ++ "e" ++ toString x.den
    formatNumber_noNul := by
      intro x hmem
      rw [String.toList_append, String.toList_append] at hmem
      rcases List.mem_append.mp hmem with hmem | hden
      · rcases List.mem_append.mp hmem with hnum | he
        · have hchar := mem_toString_int hnum
          revert hchar
          decide
        · revert he
          decide
      · have hchar := mem_toString_nat hden
        revert hchar
        decide
    sha256 := fun text =>
      if text = "2026-01-05|-50.00|Bookshop|order 51|/" then
        "bd8f6bf7de6cebe3ea22e55eac334eebd8dc4bf3a544343a7623b7f63c308fbc"
      else if text = "2026-01-05|-50.00|Bookshop|order 52|/" then
        "ff494b5ffc4db0b470318378dca2b86ce41ca38a6905aeec3db5fe469300d13a"
      else "" }

/-- Different integers are written differently. -/
theorem toString_int_injective : Function.Injective fun n : Int => toString n := by
  have hsign : ∀ m n : Nat, m.repr ≠ "-" ++ (n + 1).repr := by
    intro m n h
    have hmem : '-' ∈ m.repr.toList := by
      rw [h, String.toList_append]
      exact List.mem_append_left _ (List.mem_singleton_self _)
    have hdigit := mem_toString_nat hmem
    revert hdigit
    decide
  intro m n h
  cases m with
  | ofNat m =>
      cases n with
      | ofNat n => exact congrArg Int.ofNat (repr_injective h)
      | negSucc n => exact absurd h (hsign m n)
  | negSucc m =>
      cases n with
      | ofNat n => exact absurd h.symm (hsign n m)
      | negSucc n =>
          have hdigits := (String.append_right_inj "-").mp h
          exact congrArg Int.negSucc (Nat.succ.inj (repr_injective hdigits))

/-- How the example writes a fraction. -/
theorem toList_formatNumber (x : ℚ) : (digestHost.formatNumber x).toList =
    (toString x.num).toList ++ 'e' :: (toString x.den).toList := by
  change (toString x.num ++ "e" ++ toString x.den).toList = _
  simp [String.toList_append]

/-- The example writes numbers like any host. -/
theorem numberTexts_digestHost : NumberTexts digestHost where
  injective x y h := by
    have hexponent : ∀ n : Int, 'e' ∉ (toString n).toList := by
      intro n hmem
      have hchar := mem_toString_int hmem
      revert hchar
      decide
    have hlist : ∀ z : ℚ, ¬ (z.den = 1 ∧ |z| < 10 ^ 21) → (digestHost.numberToString z).toList =
        (toString z.num).toList ++ 'e' :: (toString z.den).toList := by
      intro z hz
      unfold Host.numberToString
      rw [if_neg hz, toList_formatNumber]
    have hwhole : ∀ z : ℚ, z.den = 1 ∧ |z| < 10 ^ 21 →
        digestHost.numberToString z = toString z.num := by
      intro z hz
      unfold Host.numberToString
      rw [if_pos hz]
    by_cases hx : x.den = 1 ∧ |x| < 10 ^ 21
    · by_cases hy : y.den = 1 ∧ |y| < 10 ^ 21
      · rw [hwhole x hx, hwhole y hy] at h
        exact Rat.ext (toString_int_injective h) (hx.1.trans hy.1.symm)
      · have htext := hlist y hy
        rw [← h, hwhole x hx] at htext
        refine absurd ?_ (hexponent x.num)
        rw [htext]
        exact List.mem_append_right _ List.mem_cons_self
    · have htext := hlist x hx
      by_cases hy : y.den = 1 ∧ |y| < 10 ^ 21
      · rw [h, hwhole y hy] at htext
        refine absurd ?_ (hexponent y.num)
        rw [htext]
        exact List.mem_append_right _ List.mem_cons_self
      · rw [h, hlist y hy, first_field_inj (hexponent _) (hexponent _), String.toList_inj,
          String.toList_inj] at htext
        exact Rat.ext (toString_int_injective htext.1.symm) (repr_injective htext.2.symm)
  nonempty x h := by
    have hlist := congrArg String.toList h
    unfold Host.numberToString at hlist
    by_cases hx : x.den = 1 ∧ |x| < 10 ^ 21
    · rw [if_pos hx] at hlist
      cases hnum : x.num with
      | ofNat n =>
          rw [hnum] at hlist
          exact Nat.repr_ne_empty (String.toList_inj.mp hlist)
      | negSucc n =>
          rw [hnum] at hlist
          change ("-" ++ (n + 1).repr).toList = _ at hlist
          rw [String.toList_append] at hlist
          cases hlist
    · rw [if_neg hx, toList_formatNumber] at hlist
      cases (List.append_eq_nil_iff.mp hlist).2
  plain x c hc := by
    have hint : c ∈ (toString x.num).toList → c ≠ '|' ∧ c ≠ '/' := by
      intro hmem
      have hchar := mem_toString_int hmem
      constructor <;> rintro rfl <;> revert hchar <;> decide
    unfold Host.numberToString at hc
    by_cases hx : x.den = 1 ∧ |x| < 10 ^ 21
    · rw [if_pos hx] at hc
      exact hint hc
    · rw [if_neg hx, toList_formatNumber] at hc
      rcases List.mem_append.mp hc with hnum | hden
      · exact hint hnum
      · rcases List.mem_cons.mp hden with rfl | hden
        · decide
        · have hchar := mem_toString_nat hden
          constructor <;> rintro rfl <;> revert hchar <;> decide

/-- Two orders at one shop are told apart. -/
theorem fingerprint_tells_orders :
    (transactionFingerprint digestHost (transferRow "Bookshop" "order 51") =
        transactionFingerprint digestHost (transferRow "Bookshop" "order 52") →
      SameFrozen digestHost (transferRow "Bookshop" "order 51") (transferRow "Bookshop" "order 52")) ↔
    ¬ WrittenAlike digestHost (transferRow "Bookshop" "order 51")
      (transferRow "Bookshop" "order 52") := by
  refine (fingerprint_tells_iff digestHost numberTexts_digestHost _ _ (by decide +kernel)
    (by decide +kernel) ?_).1
  intro hcollision
  revert hcollision
  decide +kernel

/-- Two transfers whose material is one text: a bar has moved, or the description was cut inside
different emojis. -/
theorem moved_bar_shares_id :
    (fingerprintMaterial asciiHost (transferRow "Transfer|Dana" "rent") =
        fingerprintMaterial asciiHost (transferRow "Transfer" "Dana|rent") ∧
      baseTransactionId asciiHost (transferRow "Transfer|Dana" "rent") =
        baseTransactionId asciiHost (transferRow "Transfer" "Dana|rent") ∧
      (baseTransactionId asciiHost (transferRow "Transfer" "Dana|rent")).isOk = true ∧
      ¬ SameFrozen asciiHost (transferRow "Transfer|Dana" "rent")
        (transferRow "Transfer" "Dana|rent")) ∧
      ∃ cut cut' : JsText, cut = (JsText.ofString "Gift 😀").slice 6 ∧
        cut' = (JsText.ofString "Gift 🧀").slice 6 ∧
        fingerprintMaterial asciiHost (transferRow cut "rent") =
          fingerprintMaterial asciiHost (transferRow cut' "rent") ∧
        baseTransactionId asciiHost (transferRow cut "rent") =
          baseTransactionId asciiHost (transferRow cut' "rent") ∧
        (baseTransactionId asciiHost (transferRow cut "rent")).isOk = true ∧
        ¬ SameFrozen asciiHost (transferRow cut "rent") (transferRow cut' "rent") := by
  refine ⟨⟨by decide +kernel, by decide +kernel, by decide +kernel, ?_⟩, _, _, rfl, rfl,
    by decide +kernel, by decide +kernel, by decide +kernel, ?_⟩
  · rintro ⟨-, -, hdescription, -⟩
    revert hdescription
    decide +kernel
  · rintro ⟨-, -, hdescription, -⟩
    revert hdescription
    decide +kernel

end SimplefinBridge
