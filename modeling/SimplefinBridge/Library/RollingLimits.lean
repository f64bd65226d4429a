import Mathlib.Data.List.Basic
import Mathlib.Tactic.Linarith

/-!
# Rolling limits

A limiter remembers the times of at most `limit` attempts.  At a time `t` it
counts the remembered attempts after `t - window`, allows another one when
there are fewer than `limit`, and remembers the ones that counted with the new
one.  A refused attempt changes nothing.

Under a clock that does not go back no half-open window holds more than `limit`
allowed attempts (`admitted_le`), and a full memory that refuses allows again
exactly from its oldest attempt plus `window` on (`allows_iff_of_full`).
-/

namespace RollingLimits

variable (limit : Nat) (window : Int)

/-- The attempts that count at `t`; one that lies ahead of `t` counts too. -/
def recent (t : Int) (times : List Int) : List Int := times.filter (t - window < ·)

/-- There is room for an attempt at `t`. -/
def allows (t : Int) (times : List Int) : Bool := (recent window t times).length < limit

/-- Attempt at `t`. -/
def attempt (times : List Int) (t : Int) : List Int :=
  if allows limit window t times then recent window t times ++ [t] else times

/-- The times of the allowed attempts, in order. -/
def admitted : List Int → List Int → List Int
  | _, [] => []
  | times, t :: rest =>
      (if allows limit window t times then [t] else []) ++
        admitted (attempt limit window times t) rest

/-- The times in the half-open window from `start`. -/
def within (start : Int) (times : List Int) : List Int :=
  times.filter fun t => start ≤ t ∧ t < start + window

section
variable {limit window} {t u start : Int} {times : List Int}

/-- A recent time is one within the window. -/
theorem mem_recent {a : Int} : a ∈ recent window t times ↔ a ∈ times ∧ t - window < a := by
  unfold recent
  rw [List.mem_filter, decide_eq_true_eq]

/-- Recent times of both lists. -/
theorem recent_append (t : Int) (times times' : List Int) :
    recent window t (times ++ times') = recent window t times ++ recent window t times' :=
  List.filter_append ..

/-- What counts later counted before. -/
theorem recent_recent (h : t ≤ u) :
    recent window u (recent window t times) = recent window u times := by
  unfold recent
  rw [List.filter_filter]
  apply List.filter_congr
  intro a _
  rw [Bool.and_eq_decide]
  apply decide_eq_decide.mpr
  simp only [decide_eq_true_eq]
  omega

/-- An attempt is allowed while there is room. -/
theorem allows_iff : allows limit window t times = true ↔
    (recent window t times).length < limit := decide_eq_true_iff

/-! ## Windows -/

/-- The allowed attempts that still count at the time `u` are remembered, for
every `u` from now on. -/
def Remembers (window : Int) (now : Int) (history times : List Int) : Prop :=
  ∀ u, now ≤ u → (recent window u history).Sublist (recent window u times)

/-- Nothing has happened. -/
theorem remembers_nil (window now : Int) (times : List Int) : Remembers window now [] times :=
  fun _ _ => List.nil_sublist _

/-- Later, no more is to be remembered. -/
theorem Remembers.mono {now now' : Int} {history : List Int}
    (h : Remembers window now history times) (hle : now ≤ now') :
    Remembers window now' history times :=
  fun u hu => h u (hle.trans hu)

/-- An attempt is remembered if it was allowed. -/
theorem Remembers.attempt {now : Int} {history : List Int}
    (h : Remembers window now history times) (hnow : now ≤ t) :
    Remembers window t (history ++ if allows limit window t times then [t] else [])
      (attempt limit window times t) := by
  intro u hu
  unfold RollingLimits.attempt
  split_ifs with hroom
  · rw [recent_append, recent_append, recent_recent hu]
    exact (h u (hnow.trans hu)).append (List.Sublist.refl _)
  · rw [List.append_nil]
    exact h u (hnow.trans hu)

/-- One more time may be within the interval. -/
theorem length_within_append (start : Int) (history : List Int) (t : Int) :
    (within window start (history ++ [t])).length =
      (within window start history).length + (within window start [t]).length := by
  unfold within
  rw [List.filter_append, List.length_append]

/-- An allowed attempt leaves its windows within the limit. -/
theorem within_admitted {history : List Int} (hremembers : Remembers window t history times)
    (hroom : allows limit window t times = true) (hin : start ≤ t ∧ t < start + window) :
    (within window start history).length < limit := by
  rw [allows_iff] at hroom
  have hsub : (within window start history).Sublist (recent window t history) := by
    unfold within recent
    apply List.monotone_filter_right
    intro a ha
    simp only [decide_eq_true_eq] at ha ⊢
    omega
  have hlength := hsub.length_le
  have hcount := (hremembers t le_rfl).length_le
  omega

/-- A time outside is not, -/
theorem within_singleton_of_not (h : ¬ (start ≤ t ∧ t < start + window)) :
    within window start [t] = [] := by
  unfold within
  rw [List.filter_cons_of_neg, List.filter_nil]
  rwa [decide_eq_true_eq]

/-- and one time is at most one. -/
theorem within_length_singleton_le : (within window start [t]).length ≤ 1 :=
  List.length_filter_le ..

/-- The windows of a run that continues a history. -/
theorem within_append_admitted {now : Int} {history attempts : List Int}
    (hremembers : Remembers window now history times)
    (hhistory : ∀ start, (within window start history).length ≤ limit)
    (hordered : (now :: attempts).Pairwise (· ≤ ·)) (start : Int) :
    (within window start (history ++ admitted limit window times attempts)).length ≤ limit := by
  induction attempts generalizing now history times with
  | nil =>
      rw [admitted, List.append_nil]
      exact hhistory start
  | cons t attempts ih =>
      obtain ⟨hnow, hrest⟩ := List.pairwise_cons.mp hordered
      have hle : now ≤ t := hnow t (List.mem_cons_self ..)
      rw [admitted, ← List.append_assoc]
      refine ih (hremembers.attempt hle) ?_ hrest
      intro start
      split_ifs with hroom
      · rw [length_within_append]
        by_cases hin : start ≤ t ∧ t < start + window
        · have hless := within_admitted (hremembers.mono hle) hroom hin
          have hone := @within_length_singleton_le window t start
          omega
        · rw [within_singleton_of_not hin]
          exact hhistory start
      · rw [List.append_nil]
        exact hhistory start

/-- **Rolling limit.**  Whatever is remembered at first, a clock that does not
go back lets at most `limit` attempts into any half-open window. -/
theorem admitted_le {attempts : List Int} (hordered : attempts.Pairwise (· ≤ ·)) (start : Int) :
    (within window start (admitted limit window times attempts)).length ≤ limit := by
  cases attempts with
  | nil => exact Nat.zero_le _
  | cons t attempts =>
      have hnow : (t :: t :: attempts).Pairwise (· ≤ ·) := by
        refine List.pairwise_cons.mpr ⟨?_, hordered⟩
        intro a ha
        rcases List.mem_cons.mp ha with rfl | ha
        · exact le_rfl
        · exact (List.pairwise_cons.mp hordered).1 a ha
      exact within_append_admitted (remembers_nil window t times) (fun _ => Nat.zero_le _) hnow
        start

/-! ## The next time -/

/-- A memory within the limit refuses only when it is full and every attempt
counts. -/
theorem recent_eq_of_refused (hlength : times.length ≤ limit)
    (hrefused : allows limit window t times = false) :
    recent window t times = times ∧ times.length = limit := by
  have hcount : limit ≤ (recent window t times).length := by
    by_contra hroom
    rw [allows_iff.mpr (not_le.mp hroom)] at hrefused
    cases hrefused
  have hsub : (recent window t times).Sublist times := List.filter_sublist
  have hle := hsub.length_le
  refine ⟨hsub.eq_of_length (by omega), by omega⟩

/-- **The next time.**  A full memory allows exactly from its oldest attempt
plus the window on. -/
theorem allows_iff_of_full {oldest : Int} (hfull : times.length = limit)
    (holdest : times.min? = some oldest) :
    allows limit window u times = true ↔ oldest + window ≤ u := by
  obtain ⟨hmem, hle⟩ := List.min?_eq_some_iff.mp holdest
  rw [allows_iff, ← hfull]
  constructor
  · intro hless
    by_contra hlate
    have hall : recent window u times = times := by
      unfold recent
      rw [List.filter_eq_self]
      intro a ha
      have := hle a ha
      rw [decide_eq_true_eq]
      omega
    rw [hall] at hless
    omega
  · intro hlate
    unfold recent
    refine List.length_filter_lt_length_iff_exists.mpr ⟨oldest, hmem, ?_⟩
    rw [decide_eq_true_eq]
    omega

/-- A memory that refuses at `t` has an oldest attempt, and it counts. -/
theorem oldest_of_refused (hpos : 0 < limit) (hlength : times.length ≤ limit)
    (hrefused : allows limit window t times = false) :
    ∃ oldest, times.min? = some oldest ∧ t < oldest + window := by
  obtain ⟨hrecent, hfull⟩ := recent_eq_of_refused hlength hrefused
  cases hmin : times.min? with
  | none =>
      rw [List.min?_eq_none_iff] at hmin
      rw [hmin] at hfull
      simp only [List.length_nil] at hfull
      omega
  | some oldest =>
      refine ⟨oldest, rfl, ?_⟩
      obtain ⟨hmem, -⟩ := List.min?_eq_some_iff.mp hmin
      rw [← hrecent] at hmem
      obtain ⟨-, hcounts⟩ := mem_recent.mp hmem
      omega

end

end RollingLimits
