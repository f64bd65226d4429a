import Mathlib.Data.List.Nodup
import Mathlib.Data.Option.Basic
import SimplefinBridge.Library.Transactional

/-!
# Following a chain of pages

A server answers each request with a page: some items, and a cursor with which
the next page is asked for, or none.  `follow` asks until a page has no cursor,
a cursor comes back or a limit is reached.  Nothing is assumed of the server:
what it answers may depend on all requests so far.  Whatever it answers, the
requests are distinct and no more than the limit, the items are those of the
pages in their order, and the chain counts as complete exactly when a page had
no cursor (`follow_spec`).
-/

universe u

namespace Paging

variable {κ ι ε : Type u} [DecidableEq κ]

structure Page (κ ι : Type u) where
  items : List ι
  next : Option κ

/-- What has been asked for and read; the next request is for `cursor`. -/
structure Progress (κ ι : Type u) where
  asked : List (Option κ)
  items : List ι
  seen : List κ
  cursor : Option κ

structure Outcome (κ ι : Type u) where
  items : List ι
  complete : Bool
  asked : List (Option κ)

/-- A page server, given all requests so far. -/
abbrev Server (κ ι ε : Type u) := List (Option κ) → Except ε (Page κ ι)

/-- What one page leads to. -/
inductive Round (κ ι : Type u)
  | done (outcome : Outcome κ ι)
  | more (progress : Progress κ ι)

/-- Read a page, perhaps the last one that may be asked for. -/
def Progress.read (progress : Progress κ ι) (last : Bool) (page : Page κ ι) : Round κ ι :=
  let asked := progress.asked ++ [progress.cursor]
  let items := progress.items ++ page.items
  match page.next with
  | none => .done ⟨items, true, asked⟩
  | some next =>
      if next ∈ progress.seen ∨ last then .done ⟨items, false, asked⟩
      else .more ⟨asked, items, progress.seen ++ [next], some next⟩

/-- Ask for one page and read it. -/
def round (server : Server κ ι ε) (last : Bool) (progress : Progress κ ι) :
    Except ε (Round κ ι) :=
  (server (progress.asked ++ [progress.cursor])).map (progress.read last)

/-- Ask for at most so many more pages. -/
def followFrom (server : Server κ ι ε) (exhausted : ε) :
    Nat → Progress κ ι → Except ε (Outcome κ ι)
  | 0, _ => .error exhausted
  | remaining + 1, progress =>
      match round server (remaining = 0) progress with
      | .error e => .error e
      | .ok (.done outcome) => .ok outcome
      | .ok (.more progress) => followFrom server exhausted remaining progress

def follow (server : Server κ ι ε) (exhausted : ε) (most : Nat) : Except ε (Outcome κ ι) :=
  followFrom server exhausted most ⟨[], [], [], none⟩

/-- The pages with which a server answers some requests. -/
inductive Answers (server : Server κ ι ε) : List (Option κ) → List (Page κ ι) → Prop
  | nil : Answers server [] []
  | snoc {asked : List (Option κ)} {pages : List (Page κ ι)} {cursor : Option κ} {page : Page κ ι} :
      Answers server asked pages → server (asked ++ [cursor]) = .ok page →
        Answers server (asked ++ [cursor]) (pages ++ [page])

/-- The state of a chain while it is followed. -/
structure Follows (server : Server κ ι ε) (progress : Progress κ ι) (pages : List (Page κ ι)) :
    Prop where
  answers : Answers server progress.asked pages
  items : progress.items = pages.flatMap (·.items)
  /-- No page so far was the last. -/
  nexts : ∀ page ∈ pages, page.next ≠ none
  requests : progress.asked ++ [progress.cursor] = none :: pages.map (·.next)
  seen : progress.seen.map some = pages.map (·.next)
  distinct : progress.seen.Nodup

/-- What an outcome says of the pages read. -/
structure Exact (server : Server κ ι ε) (most : Nat) (outcome : Outcome κ ι)
    (pages : List (Page κ ι)) : Prop where
  answers : Answers server outcome.asked pages
  bounded : outcome.asked.length ≤ most
  distinct : outcome.asked.Nodup
  /-- Each request but the first is for the cursor of the page before. -/
  requests : outcome.asked = none :: pages.dropLast.map (·.next)
  items : outcome.items = pages.flatMap (·.items)
  complete : outcome.complete = true ↔ ∃ page ∈ pages, page.next = none

variable {server : Server κ ι ε} {exhausted : ε} {progress : Progress κ ι}
  {pages : List (Page κ ι)} {page : Page κ ι}

omit [DecidableEq κ] in
theorem Answers.length_eq {asked : List (Option κ)} (h : Answers server asked pages) :
    asked.length = pages.length := by
  induction h with
  | nil => rfl
  | snoc h hpage ih => rw [List.length_append, List.length_append, ih]; rfl

omit [DecidableEq κ] in
theorem follows_start : Follows server ⟨[], [], [], none⟩ [] where
  answers := .nil
  items := rfl
  nexts := fun _ hpage => absurd hpage List.not_mem_nil
  requests := rfl
  seen := rfl
  distinct := List.nodup_nil

omit [DecidableEq κ] in
/-- The requests so far, with the next one, are distinct. -/
theorem Follows.nodup (h : Follows server progress pages) :
    (progress.asked ++ [progress.cursor]).Nodup := by
  rw [h.requests, ← h.seen, List.nodup_cons]
  refine ⟨?_, h.distinct.map (fun _ _ => Option.some.inj)⟩
  intro hmem
  obtain ⟨cursor, -, hcursor⟩ := List.mem_map.mp hmem
  cases hcursor

omit [DecidableEq κ] in
/-- A page with a new cursor. -/
theorem Follows.next (h : Follows server progress pages)
    (hpage : server (progress.asked ++ [progress.cursor]) = .ok page) {next : κ}
    (hnext : page.next = some next) (hnew : next ∉ progress.seen) :
    Follows server ⟨progress.asked ++ [progress.cursor], progress.items ++ page.items,
      progress.seen ++ [next], some next⟩ (pages ++ [page]) where
  answers := h.answers.snoc hpage
  items := by rw [List.flatMap_append, List.flatMap_singleton, h.items]
  nexts := by
    refine List.forall_mem_append.mpr ⟨h.nexts, List.forall_mem_singleton.mpr ?_⟩
    rw [hnext]
    exact Option.some_ne_none next
  requests := by
    rw [List.map_append, List.map_singleton, hnext, h.requests, List.cons_append]
  seen := by
    rw [List.map_append, List.map_append, h.seen, List.map_singleton, List.map_singleton, hnext]
  distinct := by
    have hseen : (progress.seen.concat next).Nodup := h.distinct.concat hnew
    rwa [List.concat_eq_append] at hseen

omit [DecidableEq κ] in
/-- A page at which the chain is given up or ends. -/
theorem Follows.stop (h : Follows server progress pages)
    (hpage : server (progress.asked ++ [progress.cursor]) = .ok page) {most : Nat}
    (hmost : progress.asked.length < most) :
    Exact server most
      ⟨progress.items ++ page.items, page.next.isNone, progress.asked ++ [progress.cursor]⟩
      (pages ++ [page]) where
  answers := h.answers.snoc hpage
  bounded := by
    rw [List.length_append, List.length_singleton]
    exact hmost
  distinct := h.nodup
  requests := by rw [List.dropLast_concat, h.requests]
  items := by rw [List.flatMap_append, List.flatMap_singleton, h.items]
  complete := by
    rw [Option.isNone_iff_eq_none]
    constructor
    · intro hlast
      exact ⟨page, List.mem_append_right _ List.mem_cons_self, hlast⟩
    · rintro ⟨other, hother, hnone⟩
      rcases List.mem_append.mp hother with hother | hother
      · exact absurd hnone (h.nexts other hother)
      · rw [List.mem_singleton.mp hother] at hnone
        exact hnone

/-- **One page** ends the chain, or leads on. -/
theorem Follows.round (h : Follows server progress pages) {last : Bool} {next : Round κ ι}
    (hround : Paging.round server last progress = .ok next) {most : Nat}
    (hmost : progress.asked.length < most) :
    ∃ page, match next with
      | .done outcome => Exact server most outcome (pages ++ [page])
      | .more progress' => Follows server progress' (pages ++ [page]) ∧ last = false ∧
          progress'.asked.length = progress.asked.length + 1 := by
  unfold Paging.round at hround
  cases hpage : server (progress.asked ++ [progress.cursor]) with
  | error e =>
      rw [hpage] at hround
      cases hround
  | ok page =>
      have hstop := h.stop hpage hmost
      rw [hpage] at hround
      have hread : progress.read last page = next := Except.ok.inj hround
      unfold Progress.read at hread
      refine ⟨page, ?_⟩
      cases hnext : page.next with
      | none =>
          rw [hnext] at hread hstop
          rw [← hread]
          exact hstop
      | some cursor =>
          rw [hnext] at hread hstop
          dsimp only at hread
          by_cases hend : cursor ∈ progress.seen ∨ last = true
          · rw [if_pos hend] at hread
            rw [← hread]
            exact hstop
          · rw [if_neg hend] at hread
            rw [not_or, Bool.not_eq_true] at hend
            rw [← hread]
            refine ⟨h.next hpage hnext hend.1, hend.2, ?_⟩
            exact List.length_append

/-- What is followed from some progress. -/
theorem followFrom_spec {remaining : Nat} {outcome : Outcome κ ι}
    (h : Follows server progress pages)
    (hfollow : followFrom server exhausted remaining progress = .ok outcome) :
    ∃ all, Exact server (progress.asked.length + remaining) outcome all := by
  induction remaining generalizing progress pages with
  | zero => cases hfollow
  | succ remaining ih =>
      have hmost : progress.asked.length < progress.asked.length + (remaining + 1) := by omega
      unfold followFrom at hfollow
      cases hround : Paging.round server (remaining = 0) progress with
      | error e =>
          rw [hround] at hfollow
          cases hfollow
      | ok next =>
          obtain ⟨page, hnext⟩ := h.round hround hmost
          rw [hround] at hfollow
          cases next with
          | done last =>
              rw [← Except.ok.inj hfollow]
              exact ⟨_, hnext⟩
          | more progress' =>
              obtain ⟨hfollows, -, hlength⟩ := hnext
              obtain ⟨all, hall⟩ := ih hfollows hfollow
              refine ⟨all, ?_⟩
              have hlimit : progress'.asked.length + remaining =
                  progress.asked.length + (remaining + 1) := by omega
              rwa [hlimit] at hall

/-- **A chain that is followed** is read exactly. -/
theorem follow_spec {most : Nat} {outcome : Outcome κ ι}
    (h : follow server exhausted most = .ok outcome) : ∃ pages, Exact server most outcome pages := by
  obtain ⟨pages, hpages⟩ := followFrom_spec follows_start h
  rw [List.length_nil, Nat.zero_add] at hpages
  exact ⟨pages, hpages⟩

/-- **A chain ends** when every request is answered. -/
theorem follow_isOk {most : Nat} (hmost : 0 < most)
    (hserver : ∀ asked, ∃ page, server asked = .ok page) :
    ∃ outcome, follow server exhausted most = .ok outcome := by
  have hround : ∀ last progress, ∃ next, Paging.round server last progress = .ok next ∧
      (last = true → ∃ outcome, next = .done outcome) := by
    intro last progress
    obtain ⟨page, hpage⟩ := hserver (progress.asked ++ [progress.cursor])
    unfold Paging.round
    rw [hpage]
    refine ⟨_, rfl, fun hlast => ?_⟩
    unfold Progress.read
    cases page.next with
    | none => exact ⟨_, rfl⟩
    | some cursor =>
        dsimp only
        rw [if_pos (.inr hlast)]
        exact ⟨_, rfl⟩
  have hrun : ∀ remaining (progress : Progress κ ι), ∃ outcome,
      followFrom server exhausted (remaining + 1) progress = .ok outcome := by
    intro remaining
    induction remaining with
    | zero =>
        intro progress
        obtain ⟨next, hnext, hlast⟩ := hround true progress
        obtain ⟨outcome, rfl⟩ := hlast rfl
        refine ⟨outcome, ?_⟩
        unfold followFrom
        have hstep : Paging.round server (decide ((0 : Nat) = 0)) progress = .ok (.done outcome) :=
          hnext
        rw [hstep]
    | succ remaining ih =>
        intro progress
        obtain ⟨next, hnext, -⟩ := hround (decide (remaining + 1 = 0)) progress
        unfold followFrom
        rw [hnext]
        cases next with
        | done outcome => exact ⟨outcome, rfl⟩
        | more progress' => exact ih progress'
  obtain ⟨remaining, rfl⟩ : ∃ remaining, most = remaining + 1 := ⟨most - 1, by omega⟩
  exact hrun remaining _

end Paging
