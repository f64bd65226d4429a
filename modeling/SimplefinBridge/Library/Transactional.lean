import Mathlib.Data.List.Basic

/-!
# Programs with a store, exceptions and rollback

A program `EStateM ε σ α` threads a store `σ` and may throw `ε`; what it wrote
before the exception stays written, as in any language with mutable state.
`transaction restore` is the combinator that undoes it: on an exception it
puts back what `restore` takes from the store before.

Proofs about such programs read off successful runs (`bind_ok`, `foldlM_ok`)
or relate the store before and after *whatever* the outcome (`Keeps`).
-/

namespace Transactional

universe u

variable {ε σ α β : Type u}

/-- A successful sequence is a successful first part followed by a successful
rest. -/
theorem bind_ok {first : EStateM ε σ α} {rest : α → EStateM ε σ β} {s s' : σ} {b : β} :
    (first >>= rest) s = .ok b s' ↔
      ∃ a mid, first s = .ok a mid ∧ rest a mid = .ok b s' := by
  change EStateM.bind first rest s = .ok b s' ↔ _
  unfold EStateM.bind
  cases hfirst : first s with
  | ok a mid =>
      constructor
      · intro h
        exact ⟨a, mid, rfl, h⟩
      · rintro ⟨a', mid', heq, h⟩
        cases heq
        exact h
  | error e mid =>
      constructor
      · intro h
        cases h
      · rintro ⟨a', mid', heq, -⟩
        cases heq

/-- Execute the first part. -/
theorem bind_of_ok {first : EStateM ε σ α} {rest : α → EStateM ε σ β} {s mid : σ} {a : α}
    (h : first s = .ok a mid) : (first >>= rest) s = rest a mid := by
  change EStateM.bind first rest s = _
  unfold EStateM.bind
  rw [h]

/-- An exception skips the rest. -/
theorem bind_of_error {first : EStateM ε σ α} {rest : α → EStateM ε σ β} {s mid : σ} {e : ε}
    (h : first s = .error e mid) : (first >>= rest) s = .error e mid := by
  change EStateM.bind first rest s = _
  unfold EStateM.bind
  rw [h]

/-- An answer leaves the state alone. -/
theorem pure_ok {a b : α} {s s' : σ} :
    (pure a : EStateM ε σ α) s = .ok b s' ↔ b = a ∧ s' = s := by
  change EStateM.Result.ok a s = .ok b s' ↔ _
  constructor
  · intro h
    cases h
    exact ⟨rfl, rfl⟩
  · rintro ⟨rfl, rfl⟩
    rfl

/-- **Loop rule.**  A property of the items done, the accumulator and the
store that every successful iteration keeps holds after a successful loop. -/
theorem foldlM_ok {f : β → α → EStateM ε σ β} {items : List α}
    (I : List α → β → σ → Prop)
    (hstep : ∀ done a b s b' s', I done b s → f b a s = .ok b' s' → I (done ++ [a]) b' s')
    {b b' : β} {s s' : σ} (hstart : I [] b s) (hloop : items.foldlM f b s = .ok b' s') :
    I items b' s' := by
  have hgo : ∀ rest done b s, I done b s → rest.foldlM f b s = .ok b' s' →
      I (done ++ rest) b' s' := by
    intro rest
    induction rest with
    | nil =>
        intro done b s hI hrun
        obtain ⟨rfl, rfl⟩ := pure_ok.mp hrun
        rw [List.append_nil]
        exact hI
    | cons a rest ih =>
        intro done b s hI hrun
        rw [List.foldlM_cons] at hrun
        obtain ⟨b₁, s₁, hfirst, hrest⟩ := bind_ok.mp hrun
        have hnext := ih (done ++ [a]) b₁ s₁ (hstep done a b s b₁ s₁ hI hfirst) hrest
        rwa [List.append_assoc, List.singleton_append] at hnext
  exact hgo items [] b s hstart hloop

/-- A loop whose successful iterations act on a view of accumulator and store
as a function does is, when it succeeds, a fold of that function. -/
theorem foldlM_view {γ : Type*} {f : β → α → EStateM ε σ β} {items : List α}
    (view : β → σ → γ) (step : γ → α → γ)
    (hstep : ∀ a b s b' s', f b a s = .ok b' s' → view b' s' = step (view b s) a)
    {b b' : β} {s s' : σ} (hloop : items.foldlM f b s = .ok b' s') :
    view b' s' = items.foldl step (view b s) := by
  refine foldlM_ok (fun done b₁ s₁ => view b₁ s₁ = done.foldl step (view b s)) ?_ rfl hloop
  intro done a b₁ s₁ b₂ s₂ hview hrun
  rw [hstep a b₁ s₁ b₂ s₂ hrun, hview, List.foldl_append]
  rfl

/-- The loop rule for a loop without a store. -/
theorem except_foldlM_ok {f : β → α → Except ε β} {items : List α} (I : List α → β → Prop)
    (hstep : ∀ done a b b', I done b → f b a = .ok b' → I (done ++ [a]) b')
    {b b' : β} (hstart : I [] b) (hloop : items.foldlM f b = .ok b') : I items b' := by
  have hgo : ∀ rest done b, I done b → rest.foldlM f b = .ok b' → I (done ++ rest) b' := by
    intro rest
    induction rest with
    | nil =>
        intro done b hI hrun
        obtain rfl := Except.ok.inj hrun
        rw [List.append_nil]
        exact hI
    | cons a rest ih =>
        intro done b hI hrun
        rw [List.foldlM_cons] at hrun
        cases hfirst : f b a with
        | error e =>
            rw [hfirst] at hrun
            cases hrun
        | ok b₁ =>
            rw [hfirst] at hrun
            have hnext := ih (done ++ [a]) b₁ (hstep done a b b₁ hI hfirst) hrun
            rwa [List.append_assoc, List.singleton_append] at hnext
  exact hgo items [] b hstart hloop

/-! ## What a program leaves behind, whatever its outcome -/

/-- The store after a program, returned from or thrown out of. -/
def storeAfter : EStateM.Result ε σ α → σ
  | .ok _ s => s
  | .error _ s => s

/-- Discarding a result does not touch the store. -/
theorem storeAfter_discard {first : EStateM ε σ α} {b : β} (s : σ) :
    storeAfter ((first >>= fun _ => pure b) s) = storeAfter (first s) := by
  change storeAfter (EStateM.bind first (fun _ => pure b) s) = _
  unfold EStateM.bind
  cases first s with
  | ok a mid => rfl
  | error e mid => rfl

/-- However the program ends, the stores before and after are related. -/
def Keeps (R : σ → σ → Prop) (program : EStateM ε σ α) : Prop :=
  ∀ s, R s (storeAfter (program s))

variable {R : σ → σ → Prop}

/-- So it keeps what is reflexive. -/
theorem keeps_pure (hrefl : ∀ s, R s s) (a : α) : Keeps R (pure a : EStateM ε σ α) :=
  fun s => hrefl s

/-- Two programs keep what is transitive. -/
theorem Keeps.bind (htrans : ∀ s₁ s₂ s₃, R s₁ s₂ → R s₂ s₃ → R s₁ s₃)
    {first : EStateM ε σ α} {rest : α → EStateM ε σ β} (hfirst : Keeps R first)
    (hrest : ∀ a, Keeps R (rest a)) : Keeps R (first >>= rest) := by
  intro s
  have h := hfirst s
  change R s (storeAfter (EStateM.bind first rest s))
  unfold EStateM.bind
  cases hrun : first s with
  | ok a mid =>
      rw [hrun] at h
      exact htrans _ _ _ h (hrest a mid)
  | error e mid =>
      rw [hrun] at h
      exact h

/-- A loop of such programs. -/
theorem keeps_foldlM (hrefl : ∀ s, R s s)
    (htrans : ∀ s₁ s₂ s₃, R s₁ s₂ → R s₂ s₃ → R s₁ s₃) {f : β → α → EStateM ε σ β}
    (items : List α) (hf : ∀ b, ∀ a ∈ items, Keeps R (f b a)) (b : β) :
    Keeps R (items.foldlM f b) := by
  induction items generalizing b with
  | nil => exact keeps_pure hrefl b
  | cons a items ih =>
      rw [List.foldlM_cons]
      apply Keeps.bind htrans
      · exact hf b a List.mem_cons_self
      · intro b'
        exact ih (fun b a ha => hf b a (List.mem_cons_of_mem _ ha)) b'

/-! ## Pre- and postconditions -/

/-- From every store satisfying `P` the program returns in `Q` or throws in
`E`. -/
def Ensures (P : σ → Prop) (program : EStateM ε σ α) (Q : α → σ → Prop) (E : σ → Prop) : Prop :=
  ∀ s, P s → match program s with
    | .ok a s' => Q a s'
    | .error _ s' => E s'

variable {P : σ → Prop} {E : σ → Prop}

/-- What holds of an answer. -/
theorem ensures_pure {Q : α → σ → Prop} {a : α} (h : ∀ s, P s → Q a s) :
    Ensures P (pure a : EStateM ε σ α) Q E :=
  fun s hs => h s hs

/-- Sequencing: what the first part returns in is where the rest starts. -/
theorem Ensures.bind {M : α → σ → Prop} {Q : β → σ → Prop} {first : EStateM ε σ α}
    {rest : α → EStateM ε σ β} (hfirst : Ensures P first M E)
    (hrest : ∀ a, Ensures (M a) (rest a) Q E) : Ensures P (first >>= rest) Q E := by
  intro s hs
  have h := hfirst s hs
  change match EStateM.bind first rest s with
    | .ok b s' => Q b s'
    | .error _ s' => E s'
  unfold EStateM.bind
  cases hrun : first s with
  | ok a mid =>
      rw [hrun] at h
      exact hrest a mid h
  | error e mid =>
      rw [hrun] at h
      exact h

/-- Consequence. -/
theorem Ensures.weaken {P' : σ → Prop} {Q Q' : α → σ → Prop} {E' : σ → Prop}
    {program : EStateM ε σ α} (h : Ensures P program Q E) (hpre : ∀ s, P' s → P s)
    (hpost : ∀ a s, Q a s → Q' a s) (herror : ∀ s, E s → E' s) :
    Ensures P' program Q' E' := by
  intro s hs
  have hrun := h s (hpre s hs)
  cases hprogram : program s with
  | ok a s' =>
      rw [hprogram] at hrun
      exact hpost a s' hrun
  | error e s' =>
      rw [hprogram] at hrun
      exact herror s' hrun

/-- A precondition that does not speak of the store may be assumed. -/
theorem ensures_of_imp {p : Prop} {Q : α → σ → Prop} {program : EStateM ε σ α}
    (h : p → Ensures P program Q E) : Ensures (fun s => p ∧ P s) program Q E :=
  fun s hs => h hs.1 s hs.2

/-- **Loop rule.**  An invariant of the store kept by every iteration holds
after the loop, however it ends. -/
theorem ensures_foldlM {f : β → α → EStateM ε σ β} {Inv : σ → Prop} (items : List α)
    (hf : ∀ b, ∀ a ∈ items, Ensures Inv (f b a) (fun _ => Inv) E) (b : β) :
    Ensures Inv (items.foldlM f b) (fun _ => Inv) E := by
  induction items generalizing b with
  | nil => exact ensures_pure fun _ hs => hs
  | cons a items ih =>
      rw [List.foldlM_cons]
      apply Ensures.bind (hf b a List.mem_cons_self)
      intro b'
      exact ih (fun b a ha => hf b a (List.mem_cons_of_mem _ ha)) b'

/-- **Loop rule with a history.**  What holds of the items done, the
accumulator and the store before an iteration holds after it; an iteration
that throws leaves the error condition. -/
theorem ensures_foldlM_history {f : β → α → EStateM ε σ β} {items : List α}
    (I : List α → β → σ → Prop)
    (hstep : ∀ done a rest b, items = done ++ a :: rest →
      Ensures (I done b) (f b a) (fun b' s => I (done ++ [a]) b' s) E) (b : β) :
    Ensures (I [] b) (items.foldlM f b) (fun b' s => I items b' s) E := by
  have hgo : ∀ rest done b, items = done ++ rest →
      Ensures (I done b) (rest.foldlM f b) (fun b' s => I (done ++ rest) b' s) E := by
    intro rest
    induction rest with
    | nil =>
        intro done b _
        rw [List.append_nil]
        exact ensures_pure fun _ hs => hs
    | cons a rest ih =>
        intro done b hsplit
        rw [List.foldlM_cons]
        apply Ensures.bind (hstep done a rest b hsplit)
        intro b'
        have hrest := ih (done ++ [a]) b' (by rw [hsplit, List.append_assoc, List.singleton_append])
        rwa [List.append_assoc, List.singleton_append] at hrest
  exact hgo items [] b rfl

/-- What a program leaves behind, when both outcomes satisfy one property. -/
theorem Ensures.storeAfter {Q : σ → Prop} {program : EStateM ε σ α}
    (h : Ensures P program (fun _ => Q) Q) {s : σ} (hs : P s) : Q (storeAfter (program s)) := by
  have hrun := h s hs
  cases hprogram : program s with
  | ok a s' =>
      rw [hprogram] at hrun
      exact hrun
  | error e s' =>
      rw [hprogram] at hrun
      exact hrun

/-! ## Transactions -/

/-- Run the work; on an exception put back what `restore before after` takes
from the store before. -/
def transaction (restore : σ → σ → σ) (work : EStateM ε σ α) : EStateM ε σ α := fun s =>
  match work s with
  | .ok a s' => .ok a s'
  | .error e s' => .error e (restore s s')

/-- A transaction that returns has done its work. -/
theorem transaction_ok {restore : σ → σ → σ} {work : EStateM ε σ α} {s s' : σ} {a : α} :
    transaction restore work s = .ok a s' ↔ work s = .ok a s' := by
  unfold transaction
  cases work s with
  | ok b mid => rfl
  | error e mid =>
      constructor
      · intro h
        cases h
      · intro h
        cases h

/-- A transaction keeps a relation that its work keeps and that the restored
store satisfies. -/
theorem Keeps.transaction {restore : σ → σ → σ} {work : EStateM ε σ α} (hwork : Keeps R work)
    (hrestore : ∀ s s', R s (restore s s')) : Keeps R (transaction restore work) := by
  intro s
  have h := hwork s
  unfold Transactional.transaction
  cases hrun : work s with
  | ok a s' =>
      rw [hrun] at h
      exact h
  | error e s' => exact hrestore s s'

/-- A transaction that throws leaves the restored store. -/
theorem transaction_error {restore : σ → σ → σ} {work : EStateM ε σ α} {s s' : σ} {e : ε}
    (h : transaction restore work s = .error e s') : ∃ mid, s' = restore s mid := by
  unfold transaction at h
  cases hwork : work s with
  | ok b mid =>
      rw [hwork] at h
      cases h
  | error e' mid =>
      rw [hwork] at h
      cases h
      exact ⟨mid, rfl⟩

/-! ## Exceptions of another kind -/

/-- Renaming errors changes no result, -/
theorem adaptExcept_ok {ε' : Type u} {f : ε → ε'} {program : EStateM ε σ α} {s s' : σ} {a : α} :
    EStateM.adaptExcept f program s = .ok a s' ↔ program s = .ok a s' := by
  unfold EStateM.adaptExcept
  cases program s with
  | ok b mid =>
      constructor
      · intro h
        cases h
        rfl
      · intro h
        cases h
        rfl
  | error e mid =>
      constructor
      · intro h
        cases h
      · intro h
        cases h

/-- and no state. -/
theorem storeAfter_adaptExcept {ε' : Type u} (f : ε → ε') (program : EStateM ε σ α) (s : σ) :
    storeAfter (EStateM.adaptExcept f program s) = storeAfter (program s) := by
  unfold EStateM.adaptExcept
  cases program s with
  | ok b mid => rfl
  | error e mid => rfl

/-! ## Traversals that may throw -/

/-- Two steps that both succeed. -/
theorem except_bind_ok {first : Except ε α} {rest : α → Except ε β} {b : β} :
    first >>= rest = .ok b ↔ ∃ a, first = .ok a ∧ rest a = .ok b := by
  cases first with
  | ok a =>
      constructor
      · intro h
        exact ⟨a, rfl, h⟩
      · intro h
        obtain ⟨a', hsame, h⟩ := h
        cases hsame
        exact h
  | error e =>
      constructor
      · intro h
        cases h
      · intro h
        obtain ⟨a', hsame, -⟩ := h
        cases hsame

/-- A test that only results pass. -/
theorem exists_ok_of_any {result : Except ε α} {p : α → Bool} (h : result.toOption.any p = true) :
    ∃ a, result = .ok a ∧ p a = true := by
  cases result with
  | ok a => exact ⟨a, rfl, h⟩
  | error e => cases h

/-- A traversal succeeds when every element does, and collects the results. -/
theorem mapM_ok_iff {f : α → Except ε β} {items : List α} {results : List β} :
    items.mapM f = .ok results ↔ items.map f = results.map .ok := by
  induction items generalizing results with
  | nil =>
      cases results with
      | nil => exact ⟨fun _ => rfl, fun _ => rfl⟩
      | cons b results =>
          constructor
          · intro h
            cases h
          · intro h
            cases h
  | cons a items ih =>
      rw [List.mapM_cons, except_bind_ok]
      constructor
      · intro h
        obtain ⟨b, hfirst, hrest⟩ := h
        obtain ⟨rest, hitems, hresults⟩ := except_bind_ok.mp hrest
        cases hresults
        rw [List.map_cons, List.map_cons, hfirst, ih.mp hitems]
      · intro h
        cases results with
        | nil => cases h
        | cons b results =>
            obtain ⟨hfirst, hrest⟩ := List.cons.inj h
            exact ⟨b, hfirst, except_bind_ok.mpr ⟨results, ih.mpr hrest, rfl⟩⟩

/-- What every step of a loop keeps holds at its end. -/
theorem except_foldlM_keeps {f : β → α → Except ε β} {P : β → Prop} {items : List α}
    (hstep : ∀ b a b', P b → f b a = .ok b' → P b') {b b' : β} (hb : P b)
    (h : items.foldlM f b = .ok b') : P b' := by
  induction items generalizing b with
  | nil =>
      obtain rfl : b = b' := Except.ok.inj h
      exact hb
  | cons a items ih =>
      rw [List.foldlM_cons] at h
      obtain ⟨mid, hfirst, hrest⟩ := except_bind_ok.mp h
      exact ih (hstep b a mid hb hfirst) hrest

/-- Every result comes from an element, -/
theorem exists_of_mapM_ok {f : α → Except ε β} {items : List α} {results : List β}
    (h : items.mapM f = .ok results) {b : β} (hb : b ∈ results) : ∃ a ∈ items, f a = .ok b := by
  have hmem : Except.ok b ∈ items.map f := by
    rw [mapM_ok_iff.mp h]
    exact List.mem_map_of_mem hb
  exact List.mem_map.mp hmem

/-- every element has a result, -/
theorem result_of_mapM_ok {f : α → Except ε β} {items : List α} {results : List β}
    (h : items.mapM f = .ok results) {a : α} (ha : a ∈ items) : ∃ b ∈ results, f a = .ok b := by
  have hmem : f a ∈ results.map Except.ok := by
    rw [← mapM_ok_iff.mp h]
    exact List.mem_map_of_mem ha
  obtain ⟨b, hb, hsame⟩ := List.mem_map.mp hmem
  exact ⟨b, hb, hsame.symm⟩

/-- and where each element has one, the traversal succeeds. -/
theorem mapM_isOk {f : α → Except ε β} {items : List α} (h : ∀ a ∈ items, ∃ b, f a = .ok b) :
    ∃ results, items.mapM f = .ok results := by
  induction items with
  | nil => exact ⟨[], rfl⟩
  | cons a items ih =>
      obtain ⟨b, hb⟩ := h a List.mem_cons_self
      obtain ⟨results, hresults⟩ := ih fun other hother => h other (List.mem_cons_of_mem _ hother)
      refine ⟨b :: results, mapM_ok_iff.mpr ?_⟩
      rw [List.map_cons, hb, mapM_ok_iff.mp hresults, List.map_cons]

/-! ## Computations that fail together -/

variable {γ : Type u}

/-- Both computations throw, or both return related values. -/
inductive Alike (R : β → γ → Prop) : Except ε β → Except ε γ → Prop
  | threw (e e' : ε) : Alike R (.error e) (.error e')
  | returned {b : β} {c : γ} (h : R b c) : Alike R (.ok b) (.ok c)

/-- Both directions. -/
theorem Alike.symm {R : β → γ → Prop} {R' : γ → β → Prop} {first : Except ε β}
    {second : Except ε γ} (h : Alike R first second) (hsymm : ∀ b c, R b c → R' c b) :
    Alike R' second first := by
  cases h with
  | threw e e' => exact Alike.threw e' e
  | returned h => exact Alike.returned (hsymm _ _ h)

/-- Computations with the same results. -/
theorem alike_of_ok_iff {first second : Except ε β} (h : ∀ b, first = .ok b ↔ second = .ok b) :
    Alike (· = ·) first second := by
  cases first with
  | ok b =>
      rw [(h b).mp rfl]
      exact Alike.returned rfl
  | error e =>
      cases second with
      | ok b => cases (h b).mpr rfl
      | error e' => exact Alike.threw e e'

/-- Two sequences fail together when their parts do. -/
theorem alike_bind {α β γ δ : Type u} {R : α → γ → Prop} {S : β → δ → Prop} {first : Except ε α}
    {second : Except ε γ} {rest : α → Except ε β} {other : γ → Except ε δ}
    (h : Alike R first second) (hrest : ∀ a c, R a c → Alike S (rest a) (other c)) :
    Alike S (first >>= rest) (second >>= other) := by
  cases h with
  | threw e e' => exact Alike.threw e e'
  | returned h => exact hrest _ _ h

/-- Two sequences with the same first part. -/
theorem alike_after {α β δ : Type u} {S : β → δ → Prop} (first : Except ε α)
    {rest : α → Except ε β} {other : α → Except ε δ} (hrest : ∀ a, Alike S (rest a) (other a)) :
    Alike S (first >>= rest) (first >>= other) := by
  cases first with
  | error e => exact Alike.threw e e
  | ok a => exact hrest a

/-- Two loops over the same items fail together when their iterations do. -/
theorem alike_foldlM {R : β → γ → Prop} {f : β → α → Except ε β} {g : γ → α → Except ε γ}
    {items : List α} (hstep : ∀ a ∈ items, ∀ b c, R b c → Alike R (f b a) (g c a))
    {b : β} {c : γ} (hstart : R b c) : Alike R (items.foldlM f b) (items.foldlM g c) := by
  induction items generalizing b c with
  | nil => exact Alike.returned hstart
  | cons a items ih =>
      rw [List.foldlM_cons, List.foldlM_cons]
      have hfirst := hstep a List.mem_cons_self b c hstart
      generalize f b a = x at hfirst ⊢
      generalize g c a = y at hfirst ⊢
      cases hfirst with
      | threw e e' => exact Alike.threw e e'
      | returned h => exact ih (fun a ha => hstep a (List.mem_cons_of_mem _ ha)) h

/-- Two traversals of the same items that agree element by element. -/
theorem alike_mapM {f g : α → Except ε β} {items : List α}
    (h : ∀ a ∈ items, Alike (· = ·) (f a) (g a)) :
    Alike (· = ·) (items.mapM f) (items.mapM g) := by
  induction items with
  | nil => exact Alike.returned rfl
  | cons a items ih =>
      have hrest := ih fun a ha => h a (List.mem_cons_of_mem _ ha)
      rw [List.mapM_cons, List.mapM_cons]
      have hfirst := h a List.mem_cons_self
      generalize f a = x at hfirst ⊢
      generalize g a = y at hfirst ⊢
      cases hfirst with
      | threw e e' => exact Alike.threw e e'
      | @returned b c hb =>
          subst hb
          generalize items.mapM f = xs at hrest ⊢
          generalize items.mapM g = ys at hrest ⊢
          cases hrest with
          | threw e e' => exact Alike.threw e e'
          | @returned bs cs hbs =>
              subst hbs
              exact Alike.returned rfl

end Transactional
