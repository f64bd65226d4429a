import Mathlib.Data.List.Chain
import Mathlib.Order.Lattice

/-!
# Half-open windows

A list of windows is *seamless* when each starts no later than the one before
it stopped.  Then a point that the first window does not start after is in one
of the windows, unless it is ahead of them all.
-/

namespace Windows

variable {α : Type*} [LinearOrder α]

/-- The points from `start` up to `stop`, which is left out. -/
structure Window (α : Type*) where
  start : α
  stop : α

def Window.Has (w : Window α) (x : α) : Prop := w.start ≤ x ∧ x < w.stop

/-- Each window starts no later than the one before it stopped. -/
def Seamless (ws : List (Window α)) : Prop := ws.IsChain fun a b => b.start ≤ a.stop

/-- After a window that stops before `x`, the next has started by `x`. -/
theorem Seamless.tail {w : Window α} {rest : List (Window α)} (h : Seamless (w :: rest)) {x : α}
    (hx : ¬ x < w.stop) (hreached : ∃ w' ∈ w :: rest, x < w'.stop) :
    Seamless rest ∧ (∀ w' ∈ rest.head?, w'.start ≤ x) ∧ ∃ w' ∈ rest, x < w'.stop := by
  obtain ⟨hnext, hrest⟩ := List.isChain_cons.mp h
  obtain ⟨w', hw', hlt⟩ := hreached
  refine ⟨hrest, fun next hmem => (hnext next hmem).trans (not_lt.mp hx), w', ?_, hlt⟩
  rcases List.mem_cons.mp hw' with rfl | hw'
  · exact absurd hlt hx
  · exact hw'

/-- **A point behind the first start is met by the first window that reaches
it.** -/
theorem Seamless.exists_has {ws : List (Window α)} (h : Seamless ws) {x : α}
    (hfirst : ∀ w ∈ ws.head?, w.start ≤ x) (hreached : ∃ w ∈ ws, x < w.stop) :
    ∃ w ∈ ws, w.Has x := by
  induction ws with
  | nil =>
      obtain ⟨w, hw, -⟩ := hreached
      cases hw
  | cons w rest ih =>
      by_cases hx : x < w.stop
      · exact ⟨w, List.mem_cons_self, hfirst w rfl, hx⟩
      · obtain ⟨hrest, hbehind, hlater⟩ := Seamless.tail h hx hreached
        obtain ⟨found, hfound, hhas⟩ := ih hrest hbehind hlater
        exact ⟨found, List.mem_cons_of_mem w hfound, hhas⟩

/-- **Two points.**  If every window stops after `seen`, and the first has
started by `seen` or by `x`, then among the windows that stop after `x` one
has `x` or `seen`. -/
theorem Seamless.exists_has_either {ws : List (Window α)} (h : Seamless ws) {x seen : α}
    (hseen : ∀ w ∈ ws, seen < w.stop)
    (hfirst : ∀ w ∈ ws.head?, w.start ≤ seen ∨ w.start ≤ x) (hreached : ∃ w ∈ ws, x < w.stop) :
    ∃ w ∈ ws, x < w.stop ∧ (w.Has x ∨ w.Has seen) := by
  cases ws with
  | nil =>
      obtain ⟨w, hw, -⟩ := hreached
      cases hw
  | cons w rest =>
      by_cases hx : x < w.stop
      · refine ⟨w, List.mem_cons_self, hx, ?_⟩
        rcases hfirst w rfl with hstart | hstart
        · exact .inr ⟨hstart, hseen w List.mem_cons_self⟩
        · exact .inl ⟨hstart, hx⟩
      · obtain ⟨hrest, hbehind, hlater⟩ := Seamless.tail h hx hreached
        obtain ⟨found, hfound, hhas⟩ := hrest.exists_has hbehind hlater
        exact ⟨found, List.mem_cons_of_mem w hfound, hhas.2, .inl hhas⟩

end Windows
