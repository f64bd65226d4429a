import SimplefinBridge.Library.Transactional

/-!
# Programs of database statements

A program runs statements against a store one after another.  The database
may refuse any of them (`faults` says which), an effect or a check may throw,
and `transaction` puts the store back when its work throws.

`Computes program f` says what such a program computes: whatever the database
refuses, a run that returns has done what the pure function `f` does, and one
that throws has met a refused statement or what `f` throws; with no statement
refused the program returns exactly when `f` does.  One rule per combinator
turns a program into its function.
-/

namespace Statements

open Transactional

universe u

/-- An open store, and which of the next statements the database refuses. -/
structure Session (σ : Type u) where
  store : σ
  faults : List Bool := []

/-- The exception of a refused statement. -/
class Refusal (ε : Type u) where
  refused : ε

variable {ε σ α β : Type u} [Refusal ε]

/-- Run one statement; its effect may throw. -/
def statement (effect : σ → Except ε (α × σ)) : EStateM ε (Session σ) α := fun s =>
  if s.faults.headD false then .error Refusal.refused ⟨s.store, s.faults.tail⟩
  else
    match effect s.store with
    | .ok (a, store) => .ok a ⟨store, s.faults.tail⟩
    | .error e => .error e ⟨s.store, s.faults.tail⟩

/-- Execute one statement that writes. -/
def execute (effect : σ → Except ε σ) : EStateM ε (Session σ) PUnit :=
  statement fun s => (effect s).map fun store => (⟨⟩, store)

/-- Execute one `SELECT`; reading its result may throw. -/
def select (read : σ → Except ε α) : EStateM ε (Session σ) α :=
  statement fun s => (read s).map fun a => (a, s)

omit [Refusal ε] in
/-- Raise the exception of a check. -/
def ensure (result : Except ε α) : EStateM ε (Session σ) α := fun s =>
  match result with
  | .ok a => .ok a s
  | .error e => .error e s

/-- `BEGIN IMMEDIATE … COMMIT`, with `ROLLBACK` on an exception. -/
def transaction (work : EStateM ε (Session σ) α) : EStateM ε (Session σ) α :=
  Transactional.transaction (fun before after => { after with store := before.store }) work

/-! ## What a program computes -/

/-- The program does what `f` does, and stops early only where the database
refuses a statement. -/
structure Computes (program : EStateM ε (Session σ) α) (f : σ → Except ε (α × σ)) : Prop where
  returns : ∀ s a s', program s = .ok a s' → f s.store = .ok (a, s'.store)
  accepted : ∀ s a s', f s = .ok (a, s') → program ⟨s, []⟩ = .ok a ⟨s', []⟩
  threw : ∀ s e, f s = .error e → ∃ s', program ⟨s, []⟩ = .error e ⟨s', []⟩
  fails : ∀ s e s', program s = .error e s' → e = Refusal.refused ∨ f s.store = .error e

/-- An answer is computed without a statement. -/
theorem computes_pure (a : α) :
    Computes (pure a : EStateM ε (Session σ) α) fun s => .ok (a, s) where
  returns := by
    intro s b s' h
    obtain ⟨rfl, rfl⟩ := pure_ok.mp h
    rfl
  accepted := by
    intro s b s' h
    cases h
    rfl
  threw := by
    intro s e h
    cases h
  fails := by
    intro s e s' h
    cases h

/-- So is a check. -/
theorem computes_ensure (result : Except ε α) :
    Computes (ensure result : EStateM ε (Session σ) α) fun s => result.map fun a => (a, s) := by
  cases result with
  | ok a => exact computes_pure a
  | error e =>
      refine ⟨?_, ?_, ?_, ?_⟩
      · intro s a s' h
        cases h
      · intro s a s' h
        cases h
      · intro s e' h
        cases h
        exact ⟨s, rfl⟩
      · intro s e' s' h
        cases h
        exact .inr rfl

/-- A statement computes its effect. -/
theorem computes_statement (effect : σ → Except ε (α × σ)) :
    Computes (statement effect) effect := by
  have hrun : ∀ s, statement effect ⟨s, []⟩ = match effect s with
      | .ok (a, store) => .ok a ⟨store, []⟩
      | .error e => .error e ⟨s, []⟩ := fun _ => rfl
  refine ⟨?_, ?_, ?_, ?_⟩
  · intro s a s' h
    unfold statement at h
    split_ifs at h
    cases heffect : effect s.store with
    | ok p =>
        rw [heffect] at h
        cases h
        rfl
    | error e =>
        rw [heffect] at h
        cases h
  · intro s a s' h
    rw [hrun, h]
  · intro s e h
    rw [hrun, h]
    exact ⟨s, rfl⟩
  · intro s e s' h
    unfold statement at h
    by_cases hrefused : s.faults.headD false = true
    · rw [if_pos hrefused] at h
      cases h
      exact .inl rfl
    · rw [if_neg hrefused] at h
      cases heffect : effect s.store with
      | ok p =>
          rw [heffect] at h
          cases h
      | error e' =>
          rw [heffect] at h
          cases h
          exact .inr rfl

/-- A statement without an answer. -/
theorem computes_execute (effect : σ → Except ε σ) :
    Computes (execute effect) fun s => (effect s).map fun store => (⟨⟩, store) :=
  computes_statement _

/-- A statement that only reads. -/
theorem computes_select (read : σ → Except ε α) :
    Computes (select read) fun s => (read s).map fun a => (a, s) :=
  computes_statement _

/-- Sequencing. -/
theorem Computes.bind {first : EStateM ε (Session σ) α} {rest : α → EStateM ε (Session σ) β}
    {f : σ → Except ε (α × σ)} {g : α → σ → Except ε (β × σ)} (hfirst : Computes first f)
    (hrest : ∀ a, Computes (rest a) (g a)) :
    Computes (first >>= rest) fun s => f s >>= fun p => g p.1 p.2 where
  returns := by
    intro s b s' h
    obtain ⟨a, mid, hmid, hlast⟩ := bind_ok.mp h
    rw [hfirst.returns s a mid hmid]
    exact (hrest a).returns mid b s' hlast
  accepted := by
    intro s b s' h
    obtain ⟨⟨a, mid⟩, hmid, hlast⟩ := except_bind_ok.mp h
    rw [bind_of_ok (hfirst.accepted s a mid hmid)]
    exact (hrest a).accepted mid b s' hlast
  threw := by
    intro s e h
    cases hmid : f s with
    | error e' =>
        rw [hmid] at h
        cases h
        obtain ⟨s', hs'⟩ := hfirst.threw s e hmid
        exact ⟨s', bind_of_error hs'⟩
    | ok p =>
        rw [hmid] at h
        obtain ⟨s', hs'⟩ := (hrest p.1).threw p.2 e h
        refine ⟨s', ?_⟩
        rw [bind_of_ok (hfirst.accepted s p.1 p.2 hmid)]
        exact hs'
  fails := by
    intro s e s' h
    cases hmid : first s with
    | ok a mid =>
        rw [bind_of_ok hmid] at h
        rw [hfirst.returns s a mid hmid]
        exact (hrest a).fails mid e s' h
    | error e' mid =>
        rw [bind_of_error hmid] at h
        cases h
        rcases hfirst.fails s e s' hmid with hrefused | hf
        · exact .inl hrefused
        · rw [hf]
          exact .inr rfl

/-- A program computes what equals the function it computes. -/
theorem Computes.congr {program : EStateM ε (Session σ) α} {f g : σ → Except ε (α × σ)}
    (h : Computes program f) (hfg : ∀ s, f s = g s) : Computes program g := by
  rwa [← funext hfg]

/-- **Loop rule.** -/
theorem computes_foldlM {f : β → α → EStateM ε (Session σ) β}
    {step : β → α → σ → Except ε (β × σ)} (hstep : ∀ b a, Computes (f b a) (step b a))
    (items : List α) (b : β) :
    Computes (items.foldlM f b) fun s =>
      items.foldlM (fun p a => step p.1 a p.2) (b, s) := by
  induction items generalizing b with
  | nil => exact computes_pure b
  | cons a items ih =>
      rw [List.foldlM_cons]
      exact (hstep b a).bind ih

/-- The work of a transaction. -/
theorem Computes.transaction {work : EStateM ε (Session σ) α} {f : σ → Except ε (α × σ)}
    (h : Computes work f) : Computes (Statements.transaction work) f where
  returns := fun s a s' hrun => h.returns s a s' (transaction_ok.mp hrun)
  accepted := fun s a s' hf => transaction_ok.mpr (h.accepted s a s' hf)
  threw := by
    intro s e hf
    obtain ⟨s', hs'⟩ := h.threw s e hf
    refine ⟨s, ?_⟩
    unfold Statements.transaction Transactional.transaction
    rw [hs']
  fails := by
    intro s e s' hrun
    unfold Statements.transaction Transactional.transaction at hrun
    cases hwork : work s with
    | ok a mid =>
        rw [hwork] at hrun
        cases hrun
    | error e' mid =>
        rw [hwork] at hrun
        cases hrun
        exact h.fails s e mid hwork

/-! ## Programs that leave nothing behind when they throw -/

/-- An exception leaves the store as it was. -/
def Atomic (program : EStateM ε (Session σ) α) : Prop :=
  ∀ s e s', program s = .error e s' → s'.store = s.store

/-- The program only reads. -/
def ReadOnly (program : EStateM ε (Session σ) α) : Prop :=
  ∀ s, (storeAfter (program s)).store = s.store

omit [Refusal ε] in
/-- A program that only reads is atomic. -/
theorem ReadOnly.atomic {program : EStateM ε (Session σ) α} (h : ReadOnly program) :
    Atomic program := by
  intro s e s' hrun
  have hstore := h s
  rw [hrun] at hstore
  exact hstore

omit [Refusal ε] in
/-- A check writes nothing. -/
theorem readOnly_ensure (result : Except ε α) :
    ReadOnly (ensure result : EStateM ε (Session σ) α) := by
  intro s
  cases result with
  | ok a => rfl
  | error e => rfl

/-- A refused or throwing statement writes nothing. -/
theorem atomic_statement (effect : σ → Except ε (α × σ)) : Atomic (statement effect) := by
  intro s e s' h
  unfold statement at h
  by_cases hrefused : s.faults.headD false = true
  · rw [if_pos hrefused] at h
    cases h
    rfl
  · rw [if_neg hrefused] at h
    cases heffect : effect s.store with
    | ok p =>
        rw [heffect] at h
        cases h
    | error e' =>
        rw [heffect] at h
        cases h
        rfl

/-- One statement is atomic. -/
theorem atomic_execute (effect : σ → Except ε σ) : Atomic (execute effect) := atomic_statement _

/-- Reading writes nothing. -/
theorem readOnly_select (read : σ → Except ε α) : ReadOnly (select read) := by
  intro s
  cases hrun : select read s with
  | ok a s' =>
      have hread := (computes_select read).returns s a s' hrun
      cases hresult : read s.store with
      | ok b =>
          rw [hresult] at hread
          exact (congrArg Prod.snd (Except.ok.inj hread)).symm
      | error e =>
          rw [hresult] at hread
          cases hread
  | error e s' => exact atomic_statement _ s e s' hrun

omit [Refusal ε] in
/-- **A transaction is atomic**, whatever its work does. -/
theorem atomic_transaction (work : EStateM ε (Session σ) α) : Atomic (transaction work) := by
  intro s e s' h
  obtain ⟨mid, rfl⟩ := transaction_error h
  rfl

omit [Refusal ε] in
/-- Neither does an answer. -/
theorem readOnly_pure (a : α) : ReadOnly (pure a : EStateM ε (Session σ) α) := fun _ => rfl

omit [Refusal ε] in
/-- Nor do two programs that do not. -/
theorem ReadOnly.bind {first : EStateM ε (Session σ) α} {rest : α → EStateM ε (Session σ) β}
    (hfirst : ReadOnly first) (hrest : ∀ a, ReadOnly (rest a)) : ReadOnly (first >>= rest) := by
  intro s
  have h := hfirst s
  cases hrun : first s with
  | ok a mid =>
      rw [hrun] at h
      rw [bind_of_ok hrun]
      have hlast : (storeAfter (rest a mid)).store = mid.store := hrest a mid
      exact hlast.trans h
  | error e mid =>
      rw [hrun] at h
      rw [bind_of_error hrun]
      exact h

omit [Refusal ε] in
/-- Reading before an atomic program. -/
theorem Atomic.after {first : EStateM ε (Session σ) α} {rest : α → EStateM ε (Session σ) β}
    (hfirst : ReadOnly first) (hrest : ∀ a, Atomic (rest a)) : Atomic (first >>= rest) := by
  intro s e s' h
  cases hrun : first s with
  | ok a mid =>
      have hmid := hfirst s
      rw [hrun] at hmid
      rw [bind_of_ok hrun] at h
      exact (hrest a mid e s' h).trans hmid
  | error e' mid =>
      have hmid := hfirst s
      rw [hrun] at hmid
      rw [bind_of_error hrun] at h
      cases h
      exact hmid

omit [Refusal ε] in
/-- Returning something else after an atomic program. -/
theorem Atomic.map {first : EStateM ε (Session σ) α} (hfirst : Atomic first) (f : α → β) :
    Atomic (first >>= fun a => pure (f a)) := by
  intro s e s' h
  cases hrun : first s with
  | ok a mid =>
      rw [bind_of_ok hrun] at h
      cases h
  | error e' mid =>
      rw [bind_of_error hrun] at h
      cases h
      exact hfirst s _ _ hrun

/-- The store after an atomic program is the function's, or the one before. -/
theorem Computes.storeAfter_cases {program : EStateM ε (Session σ) α} {f : σ → Except ε (α × σ)}
    (h : Computes program f) (hatomic : Atomic program) (s : Session σ) :
    (∃ a, f s.store = .ok (a, (storeAfter (program s)).store)) ∨
      (storeAfter (program s)).store = s.store := by
  cases hrun : program s with
  | ok a s' => exact .inl ⟨a, h.returns s a s' hrun⟩
  | error e s' => exact .inr (hatomic s e s' hrun)

/-! ## What a program leaves of the store, however it ends -/

/-- The stores before and after the program are related. -/
abbrev Frames (R : σ → σ → Prop) (program : EStateM ε (Session σ) α) : Prop :=
  Keeps (fun s s' => R s.store s'.store) program

variable {R : σ → σ → Prop}

omit [Refusal ε] in
/-- A program that only reads keeps every relation. -/
theorem ReadOnly.frames {program : EStateM ε (Session σ) α} (h : ReadOnly program)
    (hrefl : ∀ s, R s s) : Frames R program := by
  intro s
  rw [h s]
  exact hrefl s.store

omit [Refusal ε] in
/-- What both programs keep, the two keep one after the other. -/
theorem Frames.bind {first : EStateM ε (Session σ) α} {rest : α → EStateM ε (Session σ) β}
    (hfirst : Frames R first) (hrest : ∀ a, Frames R (rest a))
    (htrans : ∀ {s₁ s₂ s₃}, R s₁ s₂ → R s₂ s₃ → R s₁ s₃) : Frames R (first >>= rest) :=
  Keeps.bind (fun s₁ s₂ s₃ (h₁ : R s₁.store s₂.store) (h₂ : R s₂.store s₃.store) =>
    htrans h₁ h₂) hfirst hrest

omit [Refusal ε] in
/-- A loop keeps what its steps keep. -/
theorem frames_foldlM {f : β → α → EStateM ε (Session σ) β} (items : List α)
    (hf : ∀ b a, Frames R (f b a)) (hrefl : ∀ s, R s s)
    (htrans : ∀ {s₁ s₂ s₃}, R s₁ s₂ → R s₂ s₃ → R s₁ s₃) (b : β) : Frames R (items.foldlM f b) :=
  keeps_foldlM (fun s : Session σ => hrefl s.store)
    (fun s₁ s₂ s₃ (h₁ : R s₁.store s₂.store) (h₂ : R s₂.store s₃.store) => htrans h₁ h₂) items
    (fun b a _ => hf b a) b

/-- An atomic program that does what `f` does. -/
theorem Computes.frames {program : EStateM ε (Session σ) α}
    {f : σ → Except ε (α × σ)} (h : Computes program f) (hatomic : Atomic program)
    (hrefl : ∀ s, R s s) (hf : ∀ s a s', f s = .ok (a, s') → R s s') : Frames R program := by
  intro s
  rcases h.storeAfter_cases hatomic s with ⟨a, hstore⟩ | hstore
  · exact hf _ a _ hstore
  · rw [hstore]
    exact hrefl s.store

/-- A statement keeps what its effect keeps. -/
theorem frames_execute {effect : σ → Except ε σ} (hrefl : ∀ s, R s s)
    (heffect : ∀ s s', effect s = .ok s' → R s s') : Frames R (execute effect) := by
  refine (computes_execute effect).frames (atomic_execute effect) hrefl ?_
  intro s a s' h
  cases hrun : effect s with
  | ok store =>
      rw [hrun] at h
      cases h
      exact heffect s s' hrun
  | error e =>
      rw [hrun] at h
      cases h

omit [Refusal ε] in
/-- A transaction keeps what its work keeps. -/
theorem Frames.transaction {work : EStateM ε (Session σ) α} (h : Frames R work)
    (hrefl : ∀ s, R s s) : Frames R (Statements.transaction work) :=
  Keeps.transaction h fun s _ => hrefl s.store

/-! ## One writing among readings -/

omit [Refusal ε] in
/-- Errors may be renamed. -/
theorem ReadOnly.adaptExcept {ε' : Type u} {program : EStateM ε (Session σ) α}
    (h : ReadOnly program) (f : ε → ε') : ReadOnly (EStateM.adaptExcept f program) := by
  intro s
  rw [storeAfter_adaptExcept]
  exact h s

omit [Refusal ε] in
/-- What a reading that returned leaves. -/
theorem ReadOnly.returned {program : EStateM ε (Session σ) α} (h : ReadOnly program)
    {s s' : Session σ} {a : α} (hrun : program s = .ok a s') : s'.store = s.store := by
  have hstore := h s
  rw [hrun] at hstore
  exact hstore

/-! ## Readings of a part of the store -/

/-- Stores that `R` relates are alike to the program: where it returns from both,
it returns the same. -/
def ReadsAlike (R : σ → σ → Prop) (program : EStateM ε (Session σ) α) : Prop :=
  ∀ s t a b s' t', R s.store t.store → program s = .ok a s' → program t = .ok b t' → a = b

section
variable {R : σ → σ → Prop}

omit [Refusal ε] in
/-- An answer is the same everywhere. -/
theorem readsAlike_pure (a : α) : ReadsAlike R (pure a : EStateM ε (Session σ) α) := by
  intro s t b c s' t' _ hs ht
  rw [(pure_ok.mp hs).1, (pure_ok.mp ht).1]

/-- A result that reads no store is the same for any. -/
theorem readsAlike_ensure (result : Except ε α) :
    ReadsAlike R (ensure result : EStateM ε (Session σ) α) := by
  intro s t a b s' t' _ hs ht
  have ha := (computes_ensure result).returns s a s' hs
  have hb := (computes_ensure result).returns t b t' ht
  cases result with
  | ok c =>
      have hac := (Prod.mk.inj (Except.ok.inj ha)).1
      have hbc := (Prod.mk.inj (Except.ok.inj hb)).1
      rw [← hac, ← hbc]
  | error e => cases ha

/-- So is what is read of the same. -/
theorem readsAlike_select {read : σ → Except ε α} (h : ∀ s t, R s t → read s = read t) :
    ReadsAlike R (select read) := by
  intro s t a b s' t' hR hs ht
  have ha := (computes_select read).returns s a s' hs
  have hb := (computes_select read).returns t b t' ht
  rw [← h _ _ hR] at hb
  cases hread : read s.store with
  | ok c =>
      rw [hread] at ha hb
      have hac := (Prod.mk.inj (Except.ok.inj ha)).1
      have hbc := (Prod.mk.inj (Except.ok.inj hb)).1
      rw [← hac, ← hbc]
  | error e =>
      rw [hread] at ha
      cases ha

omit [Refusal ε] in
/-- Reading after reading. -/
theorem ReadsAlike.bind {first : EStateM ε (Session σ) α} {rest : α → EStateM ε (Session σ) β}
    (hfirst : ReadsAlike R first) (hread : ReadOnly first) (hrest : ∀ a, ReadsAlike R (rest a)) :
    ReadsAlike R (first >>= rest) := by
  intro s t b c s' t' hR hs ht
  obtain ⟨a, mid, ha, hs'⟩ := bind_ok.mp hs
  obtain ⟨a', mid', ha', ht'⟩ := bind_ok.mp ht
  obtain rfl := hfirst s t a a' mid mid' hR ha ha'
  refine hrest a mid mid' b c s' t' ?_ hs' ht'
  rw [hread.returned ha, hread.returned ha']
  exact hR

omit [Refusal ε] in
/-- Errors may be renamed here, too. -/
theorem ReadsAlike.adaptExcept {ε' : Type u} {program : EStateM ε (Session σ) α}
    (h : ReadsAlike R program) (f : ε → ε') : ReadsAlike R (EStateM.adaptExcept f program) :=
  fun s t a b s' t' hR hs ht =>
    h s t a b s' t' hR (adaptExcept_ok.mp hs) (adaptExcept_ok.mp ht)

end

/-! ## One writing -/

/-- The program writes once: it has when it returns, and it may have when it
throws. -/
structure WritesOnce (P : σ → σ → Prop) (program : EStateM ε (Session σ) α) : Prop where
  returned : ∀ s a s', program s = .ok a s' → P s.store s'.store
  threw : ∀ s e s', program s = .error e s' → s'.store = s.store ∨ P s.store s'.store

/-- An atomic program writes what it computes, or nothing. -/
theorem Computes.writesOnce {program : EStateM ε (Session σ) α} {f : σ → Except ε (α × σ)}
    (h : Computes program f) (hatomic : Atomic program) :
    WritesOnce (fun s s' => ∃ a, f s = .ok (a, s')) program where
  returned := fun s a s' hrun => ⟨a, h.returns s a s' hrun⟩
  threw := fun s e s' hrun => .inl (hatomic s e s' hrun)

variable {P : σ → σ → Prop}

omit [Refusal ε] in
/-- Whatever its errors are called. -/
theorem WritesOnce.adaptExcept {ε' : Type u} {program : EStateM ε (Session σ) α}
    (h : WritesOnce P program) (f : ε → ε') : WritesOnce P (EStateM.adaptExcept f program) where
  returned := fun s a s' hrun => h.returned s a s' (adaptExcept_ok.mp hrun)
  threw := by
    intro s e s' hrun
    have hstore := storeAfter_adaptExcept f program s
    rw [hrun] at hstore
    cases hprogram : program s with
    | ok a mid =>
        rw [adaptExcept_ok.mpr hprogram] at hrun
        cases hrun
    | error e' mid =>
        rw [hprogram] at hstore
        rw [show s' = mid from hstore]
        exact h.threw s e' mid hprogram

omit [Refusal ε] in
/-- Reading before. -/
theorem WritesOnce.after {first : EStateM ε (Session σ) α} {rest : α → EStateM ε (Session σ) β}
    (hfirst : ReadOnly first) (hrest : ∀ a, WritesOnce P (rest a)) :
    WritesOnce P (first >>= rest) where
  returned := by
    intro s b s' hrun
    obtain ⟨a, mid, hmid, hlast⟩ := bind_ok.mp hrun
    rw [← hfirst.returned hmid]
    exact (hrest a).returned mid b s' hlast
  threw := by
    intro s e s' hrun
    cases hmid : first s with
    | ok a mid =>
        rw [bind_of_ok hmid] at hrun
        rw [← hfirst.returned hmid]
        exact (hrest a).threw mid e s' hrun
    | error e' mid =>
        rw [bind_of_error hmid] at hrun
        cases hrun
        exact .inl (hfirst.atomic s e s' hmid)

omit [Refusal ε] in
/-- Reading after. -/
theorem WritesOnce.before {first : EStateM ε (Session σ) α} {rest : α → EStateM ε (Session σ) β}
    (hfirst : WritesOnce P first) (hrest : ∀ a, ReadOnly (rest a)) :
    WritesOnce P (first >>= rest) where
  returned := by
    intro s b s' hrun
    obtain ⟨a, mid, hmid, hlast⟩ := bind_ok.mp hrun
    rw [(hrest a).returned hlast]
    exact hfirst.returned s a mid hmid
  threw := by
    intro s e s' hrun
    cases hmid : first s with
    | ok a mid =>
        rw [bind_of_ok hmid] at hrun
        rw [(hrest a).atomic mid e s' hrun]
        exact .inr (hfirst.returned s a mid hmid)
    | error e' mid =>
        rw [bind_of_error hmid] at hrun
        cases hrun
        exact hfirst.threw s e s' hmid

end Statements
