import Mathlib.Data.List.Basic
import Mathlib.Data.List.Infix

/-!
# Runs of a deterministic step function

A system is a total function `step : σ → ι → σ` from a state and an input to
the next state; whatever is nondeterministic about the system (which process
moves, what a collaborator answers, what the clock says) is part of the
input.  A *run* is a finite list of inputs.

`Along step Q s l` says that every transition of the run `l` from `s`
satisfies `Q before input after`.  Claims about runs are stated with it, and
the rules at the end turn them into one-step obligations:

* `Along.of_invariant` — an invariant kept by the steps that meet a condition
  gives a property of every transition of a run whose steps all meet it;
* `along_iff_of_step_mem` — when moreover the property fails *at once* on a step
  that misses the condition, the run has the property **iff** all its steps
  meet the condition.
-/

namespace Runs

variable {σ ι : Type*} (step : σ → ι → σ)

/-- The state after the run `l`. -/
def run (s : σ) (l : List ι) : σ := l.foldl step s

@[simp] theorem run_nil (s : σ) : run step s [] = s := rfl

@[simp] theorem run_cons (s : σ) (a : ι) (l : List ι) :
    run step s (a :: l) = run step (step s a) l := rfl

theorem run_append (s : σ) (l₁ l₂ : List ι) :
    run step s (l₁ ++ l₂) = run step (run step s l₁) l₂ :=
  List.foldl_append

/-- Every transition of the run `l` from `s` satisfies `Q`. -/
def Along (Q : σ → ι → σ → Prop) : σ → List ι → Prop
  | _, [] => True
  | s, a :: l => Q s a (step s a) ∧ Along Q (step s a) l

instance Along.decidable (Q : σ → ι → σ → Prop) [∀ s a s', Decidable (Q s a s')] :
    ∀ (s : σ) (l : List ι), Decidable (Along step Q s l)
  | _, [] => isTrue trivial
  | s, a :: l =>
      have := Along.decidable Q (step s a) l
      inferInstanceAs (Decidable (Q s a (step s a) ∧ Along step Q (step s a) l))

variable {step}

@[simp] theorem along_nil {Q : σ → ι → σ → Prop} (s : σ) : Along step Q s [] :=
  trivial

@[simp] theorem along_cons {Q : σ → ι → σ → Prop} {s : σ} {a : ι} {l : List ι} :
    Along step Q s (a :: l) ↔ Q s a (step s a) ∧ Along step Q (step s a) l :=
  Iff.rfl

theorem along_append {Q : σ → ι → σ → Prop} {s : σ} {l₁ l₂ : List ι} :
    Along step Q s (l₁ ++ l₂) ↔
      Along step Q s l₁ ∧ Along step Q (run step s l₁) l₂ := by
  induction l₁ generalizing s with
  | nil => simp
  | cons a l ih => simp [ih, and_assoc]

/-- `Along` read off the prefixes: the transition taken after any prefix of
the run satisfies `Q`. -/
theorem along_iff_prefix {Q : σ → ι → σ → Prop} {s : σ} {l : List ι} :
    Along step Q s l ↔
      ∀ before a, before ++ [a] <+: l →
        Q (run step s before) a (run step s (before ++ [a])) := by
  constructor
  · rintro h before a ⟨rest, rfl⟩
    have hsplit := along_append.mp (along_append.mp h).1
    simpa [run_append] using hsplit.2
  · intro h
    induction l generalizing s with
    | nil => trivial
    | cons a l ih =>
        refine ⟨by simpa using h [] a ⟨l, rfl⟩, ih ?_⟩
        rintro before b ⟨rest, hrest⟩
        simpa using h (a :: before) b ⟨rest, by simp [← hrest]⟩

theorem along_and {Q Q' : σ → ι → σ → Prop} {s : σ} {l : List ι} :
    Along step (fun s a s' => Q s a s' ∧ Q' s a s') s l ↔ Along step Q s l ∧ Along step Q' s l := by
  induction l generalizing s with
  | nil => simp
  | cons a l ih =>
      rw [along_cons, along_cons, along_cons, ih]
      tauto

/-- What holds of every input of a run may be assumed at every transition. -/
theorem Along.and_inputs {Q : σ → ι → σ → Prop} {P : ι → Prop} {s : σ} {l : List ι}
    (h : Along step Q s l) (hl : ∀ a ∈ l, P a) :
    Along step (fun s a s' => P a ∧ Q s a s') s l := by
  induction l generalizing s with
  | nil => trivial
  | cons a l ih =>
      exact ⟨⟨hl a List.mem_cons_self, h.1⟩, ih h.2 fun b hb => hl b (List.mem_cons_of_mem _ hb)⟩

/-- **Run rule.**  If `Inv` holds initially and every transition that meets
`Q` preserves it, it holds after any run whose transitions all meet `Q`. -/
theorem Along.run_invariant {Q : σ → ι → σ → Prop} {Inv : σ → Prop} {s : σ} {l : List ι}
    (h : Along step Q s l) (hinit : Inv s)
    (hstep : ∀ s a, Inv s → Q s a (step s a) → Inv (step s a)) :
    Inv (run step s l) := by
  induction l generalizing s with
  | nil => exact hinit
  | cons a l ih => exact ih h.2 (hstep s a hinit h.1)

/-- **Run rule, unconditional.** -/
theorem run_invariant {Inv : σ → Prop} {s : σ} (hinit : Inv s)
    (hstep : ∀ s a, Inv s → Inv (step s a)) (l : List ι) : Inv (run step s l) := by
  induction l generalizing s with
  | nil => exact hinit
  | cons a l ih => exact ih (hstep s a hinit)

/-- **History rule.**  A property of the inputs consumed and the state reached
that every step extends holds after the whole run. -/
theorem run_history {I : List ι → σ → Prop} {s : σ} {l : List ι} (hinit : I [] s)
    (hstep : ∀ done a s, done ++ [a] <+: l → I done s → I (done ++ [a]) (step s a)) :
    I l (run step s l) := by
  have hgo : ∀ rest done s, done ++ rest = l → I done s → I l (run step s rest) := by
    intro rest
    induction rest with
    | nil =>
        intro done s hsplit hI
        rw [List.append_nil] at hsplit
        rw [← hsplit]
        exact hI
    | cons a rest ih =>
        intro done s hsplit hI
        have hsplit' : done ++ [a] ++ rest = l := by
          rw [List.append_assoc, List.singleton_append]
          exact hsplit
        apply ih (done ++ [a]) (step s a) hsplit'
        exact hstep done a s ⟨rest, hsplit'⟩ hI
  exact hgo l [] s rfl hinit

/-- **Transition rule.**  An invariant that the steps meeting `C` preserve,
and under which they satisfy `Q`, gives `Q` along any run meeting `C`. -/
theorem Along.of_invariant {C Q : σ → ι → σ → Prop} {Inv : σ → Prop} {s : σ} {l : List ι}
    (h : Along step C s l) (hinit : Inv s)
    (hstep : ∀ s a, Inv s → C s a (step s a) → Inv (step s a) ∧ Q s a (step s a)) :
    Along step Q s l := by
  induction l generalizing s with
  | nil => trivial
  | cons a l ih =>
      obtain ⟨hnext, hq⟩ := hstep s a hinit h.1
      exact ⟨hq, ih h.2 hnext⟩

/-- **Transition rule for inputs.**  As the transition rule, for a condition on
the inputs alone. -/
theorem along_of_inputs {Q : σ → ι → σ → Prop} {P : ι → Prop} {Inv : σ → Prop} {s : σ} {l : List ι}
    (hl : ∀ a ∈ l, P a) (hinit : Inv s)
    (hstep : ∀ s a, Inv s → P a → Inv (step s a) ∧ Q s a (step s a)) : Along step Q s l := by
  induction l generalizing s with
  | nil => trivial
  | cons a l ih =>
      obtain ⟨hnext, hq⟩ := hstep s a hinit (hl a List.mem_cons_self)
      exact ⟨hq, ih (fun b hb => hl b (List.mem_cons_of_mem _ hb)) hnext⟩

/-- **Exactness rule.**  Under an invariant kept by the steps that meet `C`,
if one step satisfies `Q` exactly when it meets `C`, then a run satisfies `Q`
throughout exactly when all its steps meet `C`.  Only the inputs of the run
are looked at. -/
theorem along_iff_of_step_mem {C Q : σ → ι → σ → Prop} {Inv : σ → Prop} {s : σ} {l : List ι}
    (hinit : Inv s)
    (hexact : ∀ a ∈ l, ∀ s, Inv s → (Q s a (step s a) ↔ C s a (step s a)))
    (hkeep : ∀ a ∈ l, ∀ s, Inv s → C s a (step s a) → Inv (step s a)) :
    Along step Q s l ↔ Along step C s l := by
  induction l generalizing s with
  | nil => simp
  | cons a l ih =>
      have hrest := fun hc : C s a (step s a) =>
        ih (hkeep a List.mem_cons_self s hinit hc)
          (fun b hb => hexact b (List.mem_cons_of_mem _ hb))
          (fun b hb => hkeep b (List.mem_cons_of_mem _ hb))
      simp only [along_cons, hexact a List.mem_cons_self s hinit]
      exact and_congr_right hrest

/-- The exactness rule for steps whose inputs need no assumption. -/
theorem along_iff_of_step {C Q : σ → ι → σ → Prop} {Inv : σ → Prop} {s : σ}
    (hinit : Inv s)
    (hexact : ∀ s a, Inv s → (Q s a (step s a) ↔ C s a (step s a)))
    (hkeep : ∀ s a, Inv s → C s a (step s a) → Inv (step s a)) (l : List ι) :
    Along step Q s l ↔ Along step C s l :=
  along_iff_of_step_mem hinit (fun a _ s => hexact s a) (fun a _ s => hkeep s a)

end Runs
