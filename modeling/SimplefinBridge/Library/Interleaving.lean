import Mathlib.Logic.Function.Basic
import SimplefinBridge.Library.Runs

/-!
# Processes interleaved over one shared store

Any number of processes share one store.  A process is known to the others
only through the store; what it remembers between two atomic steps (its
program counter and the values it has read) is its *task*.  One move names
the process that steps and the input of that step, so a run of the system is
an arbitrary interleaving of the processes' steps.

`Interleaving.invariant_step` reduces an invariant of the whole system to
three facts about one step: the store keeps its invariant, the moving process
keeps its own, and no other process loses its own.
-/

namespace Interleaving

/-- The shared store together with the task of every process. -/
structure World (σ π κ : Type*) where
  store : σ
  task : κ → π

variable {σ π κ α : Type*} [DecidableEq κ] (advance : κ → α → σ → π → σ × π)

/-- One atomic step of process `m.1` on input `m.2`. -/
def step (w : World σ π κ) (m : κ × α) : World σ π κ where
  store := (advance m.1 m.2 w.store (w.task m.1)).1
  task := Function.update w.task m.1 (advance m.1 m.2 w.store (w.task m.1)).2

variable {advance}

@[simp] theorem step_store (w : World σ π κ) (m : κ × α) :
    (step advance w m).store = (advance m.1 m.2 w.store (w.task m.1)).1 := rfl

@[simp] theorem step_task_self (w : World σ π κ) (m : κ × α) :
    (step advance w m).task m.1 = (advance m.1 m.2 w.store (w.task m.1)).2 := by
  simp [step]

theorem step_task_other (w : World σ π κ) {m : κ × α} {k : κ} (hk : k ≠ m.1) :
    (step advance w m).task k = w.task k := by
  simp [step, hk]

/-- The store satisfies `S` and every process satisfies `L` with respect to
the store. -/
def Invariant (S : σ → Prop) (L : κ → σ → π → Prop) (w : World σ π κ) : Prop :=
  S w.store ∧ ∀ k, L k w.store (w.task k)

/-- **Step rule for interleavings.** -/
theorem invariant_step {S : σ → Prop} {L : κ → σ → π → Prop} {w : World σ π κ} {m : κ × α}
    (hinv : Invariant S L w)
    (hstore : S (advance m.1 m.2 w.store (w.task m.1)).1)
    (hself : L m.1 (advance m.1 m.2 w.store (w.task m.1)).1
      (advance m.1 m.2 w.store (w.task m.1)).2)
    (hother : ∀ k, k ≠ m.1 → L k w.store (w.task k) →
      L k (advance m.1 m.2 w.store (w.task m.1)).1 (w.task k)) :
    Invariant S L (step advance w m) := by
  refine ⟨hstore, fun k => ?_⟩
  by_cases hk : k = m.1
  · subst hk
    simpa using hself
  · rw [step_task_other w hk]
    exact hother k hk (hinv.2 k)

end Interleaving
