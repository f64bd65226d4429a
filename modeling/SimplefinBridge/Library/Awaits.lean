import Mathlib.Logic.Basic

/-!
# Programs that await

A program performs effects, each answered at once, and awaits answers from
outside; between two awaits it is not interrupted.  It is a tree: what it does
next depends on the answers alone.

`Meets after I Q` follows a state of the reader's own along every path of a
program: `after` says how an answered effect moves that state, `I` holds of it
at every node and `Q` of it and the outcome at every leaf.  There is one rule
per way of putting programs together.
-/

/-- A program with effects `E`, answered in `R`, that awaits answers in `ι` and
ends with a value in `α` or an exception in `ε`. -/
inductive Async (E : Type) (R : E → Type) (ι ε α : Type) : Type
  | ret (a : α)
  | fail (e : ε)
  | perform (e : E) (next : R e → Async E R ι ε α)
  | await (next : ι → Async E R ι ε α)

namespace Async

variable {E E' : Type} {R : E → Type} {R' : E' → Type} {ι ε ε' α β σ τ : Type}

def bind : Async E R ι ε α → (α → Async E R ι ε β) → Async E R ι ε β
  | ret a, f => f a
  | fail e, _ => fail e
  | perform e next, f => perform e fun r => (next r).bind f
  | await next, f => await fun i => (next i).bind f

instance : Monad (Async E R ι ε) where
  pure := ret
  bind := bind

/-- Perform other effects that answer more. -/
def lift (f : E → E') (back : ∀ e, R' (f e) → R e) : Async E R ι ε α → Async E' R' ι ε α
  | ret a => ret a
  | fail e => fail e
  | perform e next => perform (f e) fun r => (next (back e r)).lift f back
  | await next => await fun i => (next i).lift f back

/-- Run `program` with every effect carried out by `act`, which keeps a state of
its own; exceptions of `program` become values. -/
def interpret (act : σ → (e : E) → Async E' R' ι ε' (R e × σ)) :
    σ → Async E R ι ε α → Async E' R' ι ε' (Except ε α × σ)
  | s, ret a => ret (.ok a, s)
  | s, fail e => ret (.error e, s)
  | s, perform e next => (act s e).bind fun answer => interpret act answer.2 (next answer.1)
  | s, await next => await fun i => interpret act s (next i)

/-- `try`: exceptions become values. -/
def attempt : Async E R ι ε α → Async E R ι ε' (Except ε α)
  | ret a => ret (.ok a)
  | fail e => ret (.error e)
  | perform e next => perform e fun r => (next r).attempt
  | await next => await fun i => (next i).attempt

/-- Along every path of the program the state that `after` moves meets `I`, and
where the path ends it meets `Q` together with the outcome. -/
def Meets (after : σ → (e : E) → R e → σ) (I : σ → Prop) (Q : σ → Except ε α → Prop) :
    σ → Async E R ι ε α → Prop
  | s, ret a => I s ∧ Q s (.ok a)
  | s, fail e => I s ∧ Q s (.error e)
  | s, perform e next => I s ∧ ∀ r, Meets after I Q (after s e r) (next r)
  | s, await next => I s ∧ ∀ i, Meets after I Q s (next i)

section
variable {after : σ → (e : E) → R e → σ} {I : σ → Prop} {Q Q' : σ → Except ε α → Prop} {s : σ}

theorem Meets.here {program : Async E R ι ε α} (h : Meets after I Q s program) : I s := by
  cases program <;> exact h.1

theorem Meets.imp {program : Async E R ι ε α} (h : Meets after I Q s program)
    (himp : ∀ s out, I s → Q s out → Q' s out) : Meets after I Q' s program := by
  induction program generalizing s with
  | ret a => exact ⟨h.1, himp s _ h.1 h.2⟩
  | fail e => exact ⟨h.1, himp s _ h.1 h.2⟩
  | perform e next ih => exact ⟨h.1, fun r => ih r (h.2 r)⟩
  | await next ih => exact ⟨h.1, fun i => ih i (h.2 i)⟩

theorem meets_bind {Q' : σ → Except ε β → Prop} {program : Async E R ι ε α}
    {f : α → Async E R ι ε β} (h : Meets after I Q s program)
    (hok : ∀ s a, I s → Q s (.ok a) → Meets after I Q' s (f a))
    (herror : ∀ s e, I s → Q s (.error e) → Q' s (.error e)) :
    Meets after I Q' s (program.bind f) := by
  induction program generalizing s with
  | ret a => exact hok s a h.1 h.2
  | fail e => exact ⟨h.1, herror s e h.1 h.2⟩
  | perform e next ih => exact ⟨h.1, fun r => ih r (h.2 r)⟩
  | await next ih => exact ⟨h.1, fun i => ih i (h.2 i)⟩

/-- **Interpretation rule.**  Let `Rel` relate the state that an effect moves
before the interpretation, the state of the interpreter and the state moved
after it.  If every action of the interpreter keeps `Rel`, a program keeps it. -/
theorem meets_interpret {before : τ → (e : E) → R e → τ} {J : τ → Prop} {P : τ → Except ε α → Prop}
    {after : σ → (e : E') → R' e → σ} {I : σ → Prop} {μ : Type}
    {act : μ → (e : E) → Async E' R' ι ε' (R e × μ)} {Rel : τ → μ → σ → Prop}
    (hrel : ∀ t m s, Rel t m s → J t → I s)
    (hact : ∀ t m s e, Rel t m s → J t → (∀ r, J (before t e r)) →
      Meets after I (fun s' out => ∃ r m', out = .ok (r, m') ∧ Rel (before t e r) m' s') s (act m e))
    {t : τ} {m : μ} {s : σ} {program : Async E R ι ε α} (h : Meets before J P t program)
    (hstart : Rel t m s) :
    Meets after I
      (fun s' out => ∃ result m' t', out = .ok (result, m') ∧ Rel t' m' s' ∧ J t' ∧ P t' result)
      s (interpret act m program) := by
  induction program generalizing t m s with
  | ret a => exact ⟨hrel t m s hstart h.1, _, m, t, rfl, hstart, h.1, h.2⟩
  | fail e => exact ⟨hrel t m s hstart h.1, _, m, t, rfl, hstart, h.1, h.2⟩
  | perform e next ih =>
      refine meets_bind (hact t m s e hstart h.1 fun r => (h.2 r).here) ?_ ?_
      · rintro s' ⟨r, m'⟩ - ⟨r', m'', hout, hrel'⟩
        obtain ⟨rfl, rfl⟩ := Prod.mk.inj (Except.ok.inj hout)
        exact ih r (h.2 r) hrel'
      · rintro s' e' - ⟨r, m', hout, -⟩
        cases hout
  | await next ih => exact ⟨hrel t m s hstart h.1, fun i => ih i (h.2 i) hstart⟩

/-- A program whose effects do not move the state leaves it where it was. -/
theorem meets_lift {f : E' → E} {back : ∀ e, R (f e) → R' e} (hstill : ∀ s e r, after s (f e) r = s)
    (hI : I s) (hQ : ∀ out, Q s out) (program : Async E' R' ι ε α) :
    Meets after I Q s (program.lift f back) := by
  induction program with
  | ret a => exact ⟨hI, hQ _⟩
  | fail e => exact ⟨hI, hQ _⟩
  | perform e next ih =>
      refine ⟨hI, fun r => ?_⟩
      rw [hstill]
      exact ih (back e r)
  | await next ih => exact ⟨hI, ih⟩

theorem meets_attempt {program : Async E R ι ε α} (h : Meets after I Q s program) :
    Meets after I (fun s' (out : Except ε' (Except ε α)) => ∃ result, out = .ok result ∧ Q s' result)
      s program.attempt := by
  induction program generalizing s with
  | ret a => exact ⟨h.1, _, rfl, h.2⟩
  | fail e => exact ⟨h.1, _, rfl, h.2⟩
  | perform e next ih => exact ⟨h.1, fun r => ih r (h.2 r)⟩
  | await next ih => exact ⟨h.1, fun i => ih i (h.2 i)⟩

end

end Async
