import SimplefinBridge.ClalRecovery
import SimplefinBridge.RuntimeExclusion

/-!
# One SMS for an occurrence

An occurrence of the schedule retries while its collections are busy.  It awaits
one collection at a time, so what the reservations made for it add up to is what
that collection has spent; a busy one has spent nothing, and any other ends the
occurrence.
-/

namespace SimplefinBridge

/-- The result defers an occurrence. -/
def IsBusy (result : Settlement) : Prop := result = .ok none ∨ result = .ok (some .skipped)

namespace CollectionPhase

variable {ι : Type}

/-- What a collection in this phase may have spent. -/
def Spends (spent : Nat) : CollectionPhase ι → Prop
  | reserved _ => spent = 0
  | collecting program => program.Meets spends (· ≤ 1) SkipsUnspent spent
  | settled result | returned result => spent ≤ 1 ∧ (IsBusy result → spent = 0)

/-- `collect` is not called. -/
def neverBegan : CollectionPhase ι → Bool
  | reserved _ | settled (.ok none) | returned (.ok none) => true
  | _ => false

end CollectionPhase

namespace RuntimeWork

variable {ι : Type}

/-- The automatic SMS attempts reserved for an occurrence. -/
def smsFor (w : RuntimeWork ι) (k : Nat) : Nat := w.reservations.count (.scheduled k)

/-- The attempt was refused at once, was never begun, or found the profile
busy. -/
def Refused (w : RuntimeWork ι) (a : CollectionAttempt) : Prop :=
  ∀ n, a.collection = some n → ∃ c result, w.collections[n]? = some c ∧
    c.phase = .returned result ∧ (c.begun = false ∨ result = .ok (some .skipped))

/-- What an occurrence in this phase may have spent. -/
def OccurrenceSpends (w : RuntimeWork ι) (k : Nat) : OccurrencePhase → Prop
  | .due | .awaiting none => w.smsFor k = 0
  | .awaiting (some n) => ∃ c, w.collections[n]? = some c ∧ c.caller = .scheduled k ∧
      c.phase.Spends (w.smsFor k)
  | .over => w.smsFor k ≤ 1

/-- What holds of an occurrence. -/
structure OccurrenceInv (w : RuntimeWork ι) (k : Nat) (o : Occurrence) : Prop where
  time : ∀ a ∈ o.attempts, a.startedAt ≤ o.deadline
  spent : w.OccurrenceSpends k o.phase
  earlier : ∀ a ∈ o.attempts.dropLast, w.Refused a
  last : ∀ collection, o.phase = .awaiting collection →
    o.attempts.getLast?.map (·.collection) = some collection
  due : o.phase = .due → ∀ a ∈ o.attempts, w.Refused a

/-- What keeps an occurrence to one SMS. -/
structure ScheduleInv (w : RuntimeWork ι) : Prop where
  awaited : ∀ (n : Nat) (c : Collection ι) (k : Nat), w.collections[n]? = some c →
    c.caller = .scheduled k → c.phase.isLive = true →
    ∃ o, w.occurrences[k]? = some o ∧ o.phase = .awaiting (some n)
  unbegun : ∀ (n : Nat) (c : Collection ι), w.collections[n]? = some c →
    c.phase.neverBegan = true → c.begun = false
  occurrence : ∀ (k : Nat) (o : Occurrence), w.occurrences[k]? = some o → w.OccurrenceInv k o
  fresh : ∀ k, w.occurrences.length ≤ k → w.smsFor k = 0

/-- There is no occurrence. -/
theorem scheduleInv_empty : ScheduleInv ({} : RuntimeWork ι) where
  awaited := by intro n c k hc; cases hc
  unbegun := by intro n c hc; cases hc
  occurrence := by intro k o ho; cases ho
  fresh := fun _ _ => rfl

/-! ## Collections that go on -/

/-- How a collection goes on. -/
structure CollectionGoes (c c' : Collection ι) : Prop where
  caller : c'.caller = c.caller
  live : c'.phase.isLive = true → c.phase.isLive = true
  returned : ∀ result, c.phase = .returned result → c'.phase = .returned result ∧ c'.begun = c.begun
  unbegun : (c.phase.neverBegan = true → c.begun = false) →
    c'.phase.neverBegan = true → c'.begun = false

/-- A collection stays where it is. -/
theorem CollectionGoes.refl (c : Collection ι) : CollectionGoes c c :=
  ⟨rfl, id, fun _ h => ⟨h, rfl⟩, id⟩

/-- A refused collection stays refused. -/
theorem Refused.of_modify {w w' : RuntimeWork ι} {i : Nat} {f : Collection ι → Collection ι}
    (hcollections : w'.collections = w.collections.modify i f)
    (hgoes : ∀ c, w.collections[i]? = some c → CollectionGoes c (f c)) {a : CollectionAttempt}
    (h : w.Refused a) : w'.Refused a := by
  intro n hn
  obtain ⟨c, result, hc, hphase, hbusy⟩ := h n hn
  refine ⟨_, result, hcollections ▸ getElem?_modify_of_some f i hc, ?_⟩
  split_ifs with hi
  · subst hi
    obtain ⟨hphase', hbegun⟩ := (hgoes c hc).returned result hphase
    exact ⟨hphase', hbegun ▸ hbusy⟩
  · exact ⟨hphase, hbusy⟩

/-- **One collection goes on.**  What is reserved then is reserved for the
occurrence that awaits it. -/
theorem ScheduleInv.of_modify {w w' : RuntimeWork ι} (h : ScheduleInv w) {i : Nat}
    {f : Collection ι → Collection ι} (hoccurrences : w'.occurrences = w.occurrences)
    (hcollections : w'.collections = w.collections.modify i f)
    (hgoes : ∀ c, w.collections[i]? = some c → CollectionGoes c (f c))
    (hsms : ∀ k, w'.smsFor k = w.smsFor k ∨
      ∃ c, w.collections[i]? = some c ∧ c.caller = .scheduled k ∧ c.phase.isLive = true)
    (hspends : ∀ c k, w.collections[i]? = some c → c.caller = .scheduled k →
      c.phase.Spends (w.smsFor k) → (f c).phase.Spends (w'.smsFor k)) : ScheduleInv w' := by
  constructor
  · intro n c' k hc' hcaller hlive
    rw [hcollections] at hc'
    rw [hoccurrences]
    obtain ⟨c, hc, rfl⟩ := getElem?_modify_some hc'
    split_ifs at hcaller hlive with hi
    · subst hi
      exact h.awaited i c k hc ((hgoes c hc).caller.symm.trans hcaller) ((hgoes c hc).live hlive)
    · exact h.awaited n c k hc hcaller hlive
  · intro n c' hc'
    rw [hcollections] at hc'
    obtain ⟨c, hc, rfl⟩ := getElem?_modify_some hc'
    split_ifs with hi
    · subst hi
      exact (hgoes c hc).unbegun (h.unbegun i c hc)
    · exact h.unbegun n c hc
  · intro k o ho
    rw [hoccurrences] at ho
    obtain ⟨htime, hspent, hearlier, hlast, hdue⟩ := h.occurrence k o ho
    have hrefused : ∀ a, w.Refused a → w'.Refused a := fun a => Refused.of_modify hcollections hgoes
    -- only the occurrence that awaits the collection has its count changed
    have hsame : ∀ collection, o.phase = collection → collection ≠ .awaiting (some i) →
        w'.smsFor k = w.smsFor k := by
      rintro collection rfl hother
      rcases hsms k with hsame | ⟨c, hc, hcaller, hlive⟩
      · exact hsame
      · obtain ⟨o', ho', hawaiting⟩ := h.awaited i c k hc hcaller hlive
        obtain rfl := Option.some.inj (ho.symm.trans ho')
        exact absurd hawaiting hother
    refine ⟨htime, ?_, fun a ha => hrefused a (hearlier a ha), hlast,
      fun hphase a ha => hrefused a (hdue hphase a ha)⟩
    cases hphase : o.phase with
    | due =>
        rw [hphase] at hspent
        exact (hsame _ hphase nofun).trans hspent
    | «over» =>
        rw [hphase] at hspent
        exact (hsame _ hphase nofun).trans_le hspent
    | awaiting collection =>
        rw [hphase] at hspent
        cases collection with
        | none => exact (hsame _ hphase nofun).trans hspent
        | some n =>
            obtain ⟨c, hc, hcaller, hspends'⟩ := hspent
            refine ⟨_, hcollections ▸ getElem?_modify_of_some f i hc, ?_⟩
            split_ifs with hi
            · subst hi
              exact ⟨(hgoes c hc).caller.trans hcaller, hspends c k hc hcaller hspends'⟩
            · rw [hsame _ hphase fun heq => hi (Option.some.inj (OccurrencePhase.awaiting.inj heq)).symm]
              exact ⟨hcaller, hspends'⟩
  · intro k hk
    rw [hoccurrences] at hk
    rcases hsms k with hsame | ⟨c, hc, hcaller, hlive⟩
    · exact hsame.trans (h.fresh k hk)
    · obtain ⟨o, ho, -⟩ := h.awaited i c k hc hcaller hlive
      exact absurd (List.getElem?_eq_some_iff.mp ho).1 (not_lt.mpr hk)

/-- A collection goes on without an SMS. -/
theorem ScheduleInv.of_phase {w w' : RuntimeWork ι} (h : ScheduleInv w) {i : Nat}
    {f : Collection ι → Collection ι} (hoccurrences : w'.occurrences = w.occurrences)
    (hcollections : w'.collections = w.collections.modify i f)
    (hreservations : w'.reservations = w.reservations)
    (hgoes : ∀ c, w.collections[i]? = some c → CollectionGoes c (f c))
    (hspends : ∀ c spent, w.collections[i]? = some c → c.phase.Spends spent →
      (f c).phase.Spends spent) : ScheduleInv w' := by
  have hsame : ∀ k, w'.smsFor k = w.smsFor k := fun k => congrArg (List.count _) hreservations
  exact h.of_modify hoccurrences hcollections hgoes (fun k => .inl (hsame k))
    fun c k hc _ hspent => (hsame k).symm ▸ hspends c _ hc hspent

/-- Nothing that the invariant is about has changed. -/
theorem ScheduleInv.of_same {w w' : RuntimeWork ι} (h : ScheduleInv w)
    (hoccurrences : w'.occurrences = w.occurrences) (hcollections : w'.collections = w.collections)
    (hreservations : w'.reservations = w.reservations) : ScheduleInv w' :=
  h.of_phase (i := 0) (f := id) hoccurrences (hcollections.trans (List.modify_id 0 _).symm) hreservations
    (fun c _ => .refl c) fun _ _ _ => id

/-! ## Occurrences that go on -/

/-- An occurrence spends what its collections spend. -/
theorem OccurrenceSpends.of_same {w w' : RuntimeWork ι} {k : Nat} {phase : OccurrencePhase}
    (hcollections : w'.collections = w.collections) (hreservations : w'.reservations = w.reservations)
    (h : w.OccurrenceSpends k phase) : w'.OccurrenceSpends k phase := by
  have hsame : w'.smsFor k = w.smsFor k := congrArg (List.count _) hreservations
  cases phase with
  | due => exact hsame.trans h
  | «over» => exact hsame.trans_le h
  | awaiting collection =>
      cases collection with
      | none => exact hsame.trans h
      | some n =>
          obtain ⟨c, hc, hcaller, hspends⟩ := h
          exact ⟨c, hcollections ▸ hc, hcaller, hsame ▸ hspends⟩

/-- Only its own collections matter to an occurrence. -/
theorem OccurrenceInv.of_same {w w' : RuntimeWork ι} {k : Nat} {o : Occurrence}
    (hcollections : w'.collections = w.collections) (hreservations : w'.reservations = w.reservations)
    (h : w.OccurrenceInv k o) : w'.OccurrenceInv k o := by
  have hrefused : ∀ a, w.Refused a → w'.Refused a := fun a ha n hn => by
    obtain ⟨c, result, hc, hrest⟩ := ha n hn
    exact ⟨c, result, hcollections ▸ hc, hrest⟩
  exact ⟨h.time, h.spent.of_same hcollections hreservations, fun a ha => hrefused a (h.earlier a ha),
    h.last, fun hphase a ha => hrefused a (h.due hphase a ha)⟩

/-- **One occurrence goes on.** -/
theorem ScheduleInv.of_occurrence {w w' : RuntimeWork ι} (h : ScheduleInv w) {k : Nat}
    {f : Occurrence → Occurrence} (hoccurrences : w'.occurrences = w.occurrences.modify k f)
    (hcollections : w'.collections = w.collections) (hreservations : w'.reservations = w.reservations)
    (hf : ∀ o, w.occurrences[k]? = some o → w.OccurrenceInv k (f o))
    (hlive : ∀ o n, w.occurrences[k]? = some o → o.phase = .awaiting (some n) →
      (∃ c, w.collections[n]? = some c ∧ c.phase.isLive = true) → (f o).phase = .awaiting (some n)) :
    ScheduleInv w' := by
  constructor
  · intro n c k' hc hcaller hphase
    rw [hcollections] at hc
    obtain ⟨o, ho, hawaiting⟩ := h.awaited n c k' hc hcaller hphase
    refine ⟨_, hoccurrences ▸ getElem?_modify_of_some f k ho, ?_⟩
    split_ifs with hk
    · subst hk
      exact hlive o n ho hawaiting ⟨c, hc, hphase⟩
    · exact hawaiting
  · intro n c hc
    rw [hcollections] at hc
    exact h.unbegun n c hc
  · intro k' o' ho'
    rw [hoccurrences] at ho'
    obtain ⟨o, ho, rfl⟩ := getElem?_modify_some ho'
    refine OccurrenceInv.of_same hcollections hreservations ?_
    split_ifs with hk
    · subst hk
      exact hf o ho
    · exact h.occurrence k' o ho
  · intro k' hk'
    rw [hoccurrences, List.length_modify] at hk'
    exact (congrArg (List.count _) hreservations).trans (h.fresh k' hk')

/-- What the occurrence waits for has returned. -/
theorem awaited_eq_some {w : RuntimeWork ι} {n : Nat} {result : Settlement} :
    w.awaited (some n) = some result ↔
      ∃ c, w.collections[n]? = some c ∧ c.phase = .returned result := by
  unfold awaited phase?
  dsimp only
  cases w.collections[n]? with
  | none => simp
  | some c =>
      rw [Option.map_some]
      cases hphase : c.phase with
      | reserved m => simp [hphase]
      | collecting p => simp [hphase]
      | settled r => simp [hphase]
      | returned r => simp [hphase]

/-- What an occurrence has spent once what it awaits has returned. -/
theorem OccurrenceInv.spent_of_awaited {w : RuntimeWork ι} {k : Nat} {o : Occurrence}
    (h : w.OccurrenceInv k o) {collection : Option Nat} (hphase : o.phase = .awaiting collection)
    {result : Settlement} (hawaited : w.awaited collection = some result) :
    w.smsFor k ≤ 1 ∧ (IsBusy result → w.smsFor k = 0) := by
  have hspent := h.spent
  rw [hphase] at hspent
  cases collection with
  | none =>
      have hzero : w.smsFor k = 0 := hspent
      exact ⟨hzero ▸ Nat.zero_le 1, fun _ => hzero⟩
  | some n =>
      obtain ⟨c, hc, -, hspends⟩ := hspent
      obtain ⟨d, hd, hreturned⟩ := awaited_eq_some.mp hawaited
      obtain rfl := Option.some.inj (hc.symm.trans hd)
      rw [hreturned] at hspends
      exact hspends

/-- The occurrence is over. -/
theorem OccurrenceInv.over {w : RuntimeWork ι} {k : Nat} {o : Occurrence} (h : w.OccurrenceInv k o)
    (hdone : ∀ collection, o.phase = .awaiting collection → (w.awaited collection).isSome) :
    w.OccurrenceInv k { o with phase := .over } := by
  refine ⟨h.time, ?_, h.earlier, nofun, nofun⟩
  change w.smsFor k ≤ 1
  have hspent := h.spent
  cases hphase : o.phase with
  | due =>
      rw [hphase] at hspent
      exact le_of_eq_of_le hspent (Nat.zero_le 1)
  | «over» =>
      rw [hphase] at hspent
      exact hspent
  | awaiting collection =>
      obtain ⟨result, hresult⟩ := Option.isSome_iff_exists.mp (hdone collection hphase)
      exact (h.spent_of_awaited hphase hresult).1

/-- A live collection is not one that an occurrence has done with. -/
theorem not_awaited {w : RuntimeWork ι} {n : Nat}
    (hlive : ∃ c, w.collections[n]? = some c ∧ c.phase.isLive = true) : w.awaited (some n) = none := by
  obtain ⟨c, hc, hlive⟩ := hlive
  cases hawaited : w.awaited (some n) with
  | none => rfl
  | some result =>
      obtain ⟨d, hd, hreturned⟩ := awaited_eq_some.mp hawaited
      obtain rfl := Option.some.inj (hc.symm.trans hd)
      rw [hreturned] at hlive
      cases hlive

/-- An occurrence may be over when its collection is. -/
theorem ScheduleInv.over {w : RuntimeWork ι} (h : ScheduleInv w) {k : Nat} (scheduled : Option Nat)
    (hdone : ∀ o collection, w.occurrences[k]? = some o → o.phase = .awaiting collection →
      (w.awaited collection).isSome) :
    ScheduleInv { w.occurrenceOver k with scheduledCollection := scheduled } := by
  refine h.of_occurrence (k := k) rfl rfl rfl (fun o ho => ?_) fun o n ho hawaiting hlive => ?_
  · exact (h.occurrence k o ho).over fun collection => hdone o collection ho
  · have hsome := hdone o (some n) ho hawaiting
    rw [not_awaited hlive] at hsome
    cases hsome

/-- A busy attempt leaves the occurrence to its timer. -/
theorem ScheduleInv.retries {w : RuntimeWork ι} (h : ScheduleInv w) {k : Nat} {o : Occurrence}
    {collection : Option Nat} {status : Option CollectionStatus} (ho : w.occurrences[k]? = some o)
    (hphase : o.phase = .awaiting collection) (hawaited : w.awaited collection = some (.ok status))
    (hbusy : status = some .skipped ∨ status = none) :
    ScheduleInv (w.onOccurrence k fun o => { o with phase := .due }) := by
  have hinv := h.occurrence k o ho
  have hlast : ∀ a, o.attempts.getLast? = some a → w.Refused a := by
    intro a ha n hn
    have hcollection := hinv.last collection hphase
    rw [ha, Option.map_some, hn] at hcollection
    obtain rfl := Option.some.inj hcollection
    obtain ⟨c, hc, hreturned⟩ := awaited_eq_some.mp hawaited
    refine ⟨c, _, hc, hreturned, ?_⟩
    rcases hbusy with rfl | rfl
    · exact .inr rfl
    · exact .inl (h.unbegun n c hc (by rw [hreturned]; rfl))
  have hall : ∀ a ∈ o.attempts, w.Refused a := by
    intro a ha
    rcases List.eq_nil_or_concat' o.attempts with hnil | ⟨init, final, hconcat⟩
    · rw [hnil] at ha
      cases ha
    · have hearlier := hinv.earlier
      rw [hconcat] at ha hearlier hlast
      rw [List.dropLast_concat] at hearlier
      rcases List.mem_append.mp ha with ha | ha
      · exact hearlier a ha
      · obtain rfl := List.mem_singleton.mp ha
        exact hlast a List.getLast?_concat
  refine h.of_occurrence (k := k) rfl rfl rfl (fun o' ho' => ?_) fun o' n ho' hawaiting hlive => ?_
  · obtain rfl := Option.some.inj (ho.symm.trans ho')
    refine ⟨hinv.time, ?_, hinv.earlier, nofun, fun _ => hall⟩
    refine (hinv.spent_of_awaited hphase hawaited).2 ?_
    rcases hbusy with rfl | rfl
    · exact .inr rfl
    · exact .inl rfl
  · obtain rfl := Option.some.inj (ho.symm.trans ho')
    rw [hphase] at hawaiting
    obtain rfl := OccurrencePhase.awaiting.inj hawaiting
    rw [not_awaited hlive] at hawaited
    cases hawaited

/-- An attempt of an occurrence that is due. -/
theorem OccurrenceInv.attempt {w w' : RuntimeWork ι} {k : Nat} {o : Occurrence}
    (h : w.OccurrenceInv k o) (hdue : o.phase = .due) {now : Instant} (htime : now ≤ o.deadline)
    {collection : Option Nat} (hrefused : ∀ a, w.Refused a → w'.Refused a)
    (hspent : w'.OccurrenceSpends k (.awaiting collection)) :
    w'.OccurrenceInv k { o with
      phase := .awaiting collection, attempts := o.attempts ++ [⟨now, collection⟩] } := by
  refine ⟨?_, hspent, ?_, ?_, nofun⟩
  · intro a ha
    rcases List.mem_append.mp ha with ha | ha
    · exact h.time a ha
    · obtain rfl := List.mem_singleton.mp ha
      exact htime
  · intro a ha
    rw [List.dropLast_concat] at ha
    exact hrefused a (h.due hdue a ha)
  · intro other hother
    cases hother
    rw [List.getLast?_concat]
    rfl

/-- A collection that is added leaves the others alone. -/
theorem Refused.reserve {w : RuntimeWork ι} {a : CollectionAttempt} (h : w.Refused a)
    (caller : Caller) : (w.reserve caller).Refused a := by
  intro n hn
  obtain ⟨c, result, hc, hrest⟩ := h n hn
  refine ⟨c, result, ?_, hrest⟩
  rw [← hc]
  exact List.getElem?_append_left (List.getElem?_eq_some_iff.mp hc).1

/-- Another collection is reserved, -/
theorem OccurrenceInv.reserve {w : RuntimeWork ι} {k : Nat} {o : Occurrence}
    (h : w.OccurrenceInv k o) (caller : Caller) : (w.reserve caller).OccurrenceInv k o := by
  refine ⟨h.time, ?_, fun a ha => (h.earlier a ha).reserve caller, h.last,
    fun hphase a ha => (h.due hphase a ha).reserve caller⟩
  have hspent := h.spent
  cases hphase : o.phase with
  | due => rwa [hphase] at hspent
  | «over» => rwa [hphase] at hspent
  | awaiting collection =>
      rw [hphase] at hspent
      cases collection with
      | none => exact hspent
      | some n =>
          obtain ⟨c, hc, hrest⟩ := hspent
          refine ⟨c, ?_, hrest⟩
          rw [← hc]
          exact List.getElem?_append_left (List.getElem?_eq_some_iff.mp hc).1

/-- not by the schedule. -/
theorem ScheduleInv.reserve {w : RuntimeWork ι} (h : ScheduleInv w) {caller : Caller}
    (hcaller : ∀ k, caller ≠ .scheduled k) : ScheduleInv (w.reserve caller) := by
  constructor
  · intro n c k hc hscheduled hlive
    rcases getElem?_concat_some hc with hc | ⟨rfl, rfl⟩
    · exact h.awaited n c k hc hscheduled hlive
    · exact absurd hscheduled (hcaller k)
  · intro n c hc hnever
    rcases getElem?_concat_some hc with hc | ⟨rfl, rfl⟩
    · exact h.unbegun n c hc hnever
    · rfl
  · exact fun k o ho => (h.occurrence k o ho).reserve caller
  · exact h.fresh

/-- An attempt reserves its collection. -/
theorem ScheduleInv.attemptReserves {w : RuntimeWork ι} (h : ScheduleInv w) {k : Nat}
    {o : Occurrence} (ho : w.occurrences[k]? = some o) (hdue : o.phase = .due) {now : Instant}
    (htime : now ≤ o.deadline) :
    ScheduleInv ((w.reserve (.scheduled k)).attempts k now (some w.collections.length)) := by
  have hinv := h.occurrence k o ho
  have hspent : w.smsFor k = 0 := by
    have hspent := hinv.spent
    rwa [hdue] at hspent
  have hadded : (w.reserve (.scheduled k)).collections[w.collections.length]? =
      some ⟨.scheduled k, w.generation, .reserved w.maintaining, false, false⟩ :=
    List.getElem?_concat_length
  constructor
  · intro n c k' hc hcaller hlive
    rcases getElem?_concat_some hc with hc | ⟨rfl, rfl⟩
    · obtain ⟨o', ho', hawaiting⟩ := h.awaited n c k' hc hcaller hlive
      refine ⟨_, getElem?_modify_of_some _ k ho', ?_⟩
      split_ifs with hk
      · subst hk
        obtain rfl := Option.some.inj (ho.symm.trans ho')
        rw [hdue] at hawaiting
        cases hawaiting
      · exact hawaiting
    · cases hcaller
      refine ⟨_, getElem?_modify_of_some _ k ho, ?_⟩
      rw [if_pos rfl]
  · intro n c hc hnever
    rcases getElem?_concat_some hc with hc | ⟨rfl, rfl⟩
    · exact h.unbegun n c hc hnever
    · rfl
  · intro k' o' ho'
    obtain ⟨o'', ho'', rfl⟩ := getElem?_modify_some ho'
    refine OccurrenceInv.of_same (w := w.reserve (.scheduled k)) rfl rfl ?_
    split_ifs with hk
    · subst hk
      obtain rfl := Option.some.inj (ho.symm.trans ho'')
      exact hinv.attempt hdue htime (fun a ha => ha.reserve _) ⟨_, hadded, rfl, hspent⟩
    · exact (h.occurrence k' o'' ho'').reserve _
  · intro k' hk'
    rw [show ((w.reserve (.scheduled k)).attempts k now (some w.collections.length)).occurrences =
      w.occurrences.modify k _ from rfl, List.length_modify] at hk'
    exact h.fresh k' hk'

/-- A new occurrence. -/
theorem ScheduleInv.occurs {w : RuntimeWork ι} (h : ScheduleInv w) (deadline : Instant) :
    ScheduleInv (w.occurs deadline) := by
  constructor
  · intro n c k hc hcaller hlive
    obtain ⟨o, ho, hawaiting⟩ := h.awaited n c k hc hcaller hlive
    refine ⟨o, ?_, hawaiting⟩
    rw [← ho]
    exact List.getElem?_append_left (List.getElem?_eq_some_iff.mp ho).1
  · exact h.unbegun
  · intro k o ho
    refine OccurrenceInv.of_same (w := w) rfl rfl ?_
    rcases getElem?_concat_some ho with ho | ⟨rfl, rfl⟩
    · exact h.occurrence k o ho
    · exact ⟨nofun, h.fresh _ (le_refl _), nofun, nofun, fun _ => nofun⟩
  · intro k hk
    rw [show (w.occurs deadline).occurrences = w.occurrences ++ _ from rfl,
      List.length_append] at hk
    exact h.fresh k (le_trans (Nat.le_add_right _ _) hk)

/-! ## The changes of the runtime -/

/-- A change of one collection that is in the phase `before`. -/
theorem ScheduleInv.setPhase {w w' : RuntimeWork ι} (h : ScheduleInv w) {n : Nat}
    {before after : CollectionPhase ι} (hphase : w.phase? n = some before)
    (hoccurrences : w'.occurrences = w.occurrences)
    (hcollections : w'.collections = (w.setPhase n after).collections)
    (hreservations : w'.reservations = w.reservations)
    (hlive : before.isLive = true) (hnever : after.neverBegan = true → before.neverBegan = true)
    (hspends : ∀ spent, before.Spends spent → after.Spends spent) : ScheduleInv w' := by
  obtain ⟨b, hb, rfl⟩ := phase?_eq_some.mp hphase
  refine h.of_phase hoccurrences hcollections hreservations (fun c hc => ?_) fun c spent hc => ?_
  · obtain rfl := Option.some.inj (hb.symm.trans hc)
    refine ⟨rfl, fun _ => hlive, fun result hreturned => ?_, fun hbegun hafter => hbegun (hnever hafter)⟩
    rw [hreturned] at hlive
    cases hlive
  · obtain rfl := Option.some.inj (hb.symm.trans hc)
    exact hspends spent

/-- What an answered effect adds to the reservations of an occurrence. -/
theorem smsFor_performed {w : RuntimeWork ι} {n : Nat} {c : Collection ι}
    (hc : w.collections[n]? = some c) (effect : CollectorEffect) (answer : effect.Answer)
    (rest : Collector ι CollectionStatus) (k : Nat) :
    (w.performed n effect answer rest).smsFor k =
      if c.caller = .scheduled k then spends (w.smsFor k) effect answer else w.smsFor k := by
  change (w.reservations ++ if effect.reservesSms answer = true then
    (w.collections[n]?.map (·.caller)).toList else []).count (.scheduled k) = _
  rw [List.count_append, hc, Option.map_some]
  unfold spends smsFor
  by_cases hreserves : effect.reservesSms answer = true
  · rw [if_pos hreserves, if_pos hreserves, Option.toList_some, List.count_singleton]
    by_cases hcaller : c.caller = .scheduled k
    · rw [if_pos hcaller, hcaller, beq_self_eq_true, if_pos rfl]
    · rw [if_neg hcaller, beq_eq_false_iff_ne.mpr hcaller, if_neg Bool.false_ne_true]
      rfl
  · rw [if_neg hreserves, if_neg hreserves]
    split_ifs <;> rfl

/-- A collector asks for one effect. -/
theorem ScheduleInv.performed {w : RuntimeWork ι} (h : ScheduleInv w) {n : Nat}
    {effect : CollectorEffect} (answer : effect.Answer)
    {next : effect.Answer → Collector ι CollectionStatus}
    (hphase : w.phase? n = some (.collecting (.perform effect next))) :
    ScheduleInv (w.performed n effect answer (next answer)) := by
  obtain ⟨b, hb, hcollecting⟩ := phase?_eq_some.mp hphase
  have hlive : b.phase.isLive = true := by rw [hcollecting]; rfl
  refine h.of_modify (i := n) rfl rfl (fun c hc => ?_) (fun k => ?_) fun c k hc hcaller hspent => ?_
  · obtain rfl := Option.some.inj (hb.symm.trans hc)
    refine ⟨rfl, fun _ => hlive, fun result hreturned => ?_, fun _ => nofun⟩
    rw [hreturned] at hlive
    cases hlive
  · rw [smsFor_performed hb]
    by_cases hcaller : b.caller = .scheduled k
    · exact .inr ⟨b, hb, hcaller, hlive⟩
    · exact .inl (if_neg hcaller)
  · obtain rfl := Option.some.inj (hb.symm.trans hc)
    rw [smsFor_performed hb, if_pos hcaller]
    rw [hcollecting] at hspent
    exact hspent.2 answer

/-- A collection is asked to stop. -/
theorem ScheduleInv.abortCollection {w : RuntimeWork ι} (h : ScheduleInv w) :
    ScheduleInv w.abortCollection := by
  cases hcontroller : w.collectionController with
  | none =>
      refine h.of_same rfl ?_ rfl
      unfold RuntimeWork.abortCollection
      rw [hcontroller]
      rfl
  | some i =>
      refine h.of_phase (i := i) (f := fun c => { c with aborted := true }) rfl ?_ rfl
        (fun c _ => ⟨rfl, id, fun _ hreturned => ⟨hreturned, rfl⟩, id⟩) fun _ _ _ => id
      unfold RuntimeWork.abortCollection
      rw [hcontroller]
      rfl

/-- The runtime is stopped. -/
theorem ScheduleInv.stopped {w : RuntimeWork ι} (h : ScheduleInv w) (closed : Bool) :
    ScheduleInv (RuntimeWork.stopped { w with closed }) := by
  have haborted := h.abortCollection
  rcases Option.eq_none_or_eq_some w.scheduledCollection with hscheduled | ⟨k, hscheduled⟩
  · refine haborted.of_same ?_ rfl rfl
    change w.dropSchedule.occurrences = w.occurrences
    unfold dropSchedule
    rw [hscheduled]
    rfl
  · refine haborted.of_occurrence (k := k)
      (f := fun o => { o with phase := if o.phase = .due then .over else o.phase }) ?_ rfl rfl
      (fun o ho => ?_) fun o n ho hawaiting _ => ?_
    · change w.dropSchedule.occurrences = _
      unfold dropSchedule
      rw [hscheduled]
      rfl
    · have hinv := haborted.occurrence k o ho
      by_cases hdue : o.phase = .due
      · rw [if_pos hdue]
        refine hinv.over fun collection hawaiting => ?_
        rw [hdue] at hawaiting
        cases hawaiting
      · rw [if_neg hdue]
        exact hinv
    · dsimp only
      rw [if_neg (by rw [hawaiting]; exact nofun)]
      exact hawaiting

/-- **Every change keeps the invariant**, for a collector that spends at most one
SMS. -/
theorem ScheduleInv.step {options : RuntimeOptions ι}
    (hspends : ∀ collect, options.collect = some collect → ∀ manual, SpendsAtMostOne (collect manual))
    {w w' : RuntimeWork ι} (h : ScheduleInv w) (hstep : WorkStep options w w') : ScheduleInv w' := by
  cases hstep with
  | reserves caller _ _ hcaller => exact h.reserve hcaller
  | attemptReserves k now o _ _ ho hdue htime => exact h.attemptReserves ho hdue htime
  | attemptRefused k now o ho hdue htime =>
      refine h.of_occurrence (k := k) rfl rfl rfl (fun o' ho' => ?_) fun o' n ho' hawaiting _ => ?_
      · obtain rfl := Option.some.inj (ho.symm.trans ho')
        have hinv := h.occurrence k o ho
        refine hinv.attempt hdue htime (fun _ => id) ?_
        have hspent := hinv.spent
        rwa [hdue] at hspent
      · obtain rfl := Option.some.inj (ho.symm.trans ho')
        rw [hdue] at hawaiting
        cases hawaiting
  | begins n c maintaining collect hc hphase _ _ _ _ hcollect =>
      refine h.of_phase (i := n) rfl rfl rfl (fun b hb => ?_) fun b spent hb hspent => ?_
      · obtain rfl := Option.some.inj (hc.symm.trans hb)
        refine ⟨rfl, fun _ => by rw [hphase]; rfl, fun result hreturned => ?_, fun _ => nofun⟩
        rw [hphase] at hreturned
        cases hreturned
      · obtain rfl := Option.some.inj (hc.symm.trans hb)
        rw [hphase] at hspent
        obtain rfl : spent = 0 := hspent
        exact hspends collect hcollect c.caller.isManual
  | refuses n maintaining hphase =>
      refine h.setPhase hphase rfl rfl rfl rfl (fun _ => rfl) fun spent hspent => ?_
      obtain rfl : spent = 0 := hspent
      exact ⟨Nat.zero_le 1, fun _ => rfl⟩
  | performs n effect answer next hphase => exact h.performed answer hphase
  | resumes n answer next hphase =>
      exact h.setPhase hphase rfl rfl rfl rfl nofun fun spent hspent => hspent.2 answer
  | settles n status hphase =>
      refine h.setPhase hphase rfl rfl rfl rfl nofun fun spent hspent => ⟨hspent.1, fun hbusy => ?_⟩
      rcases hbusy with hbusy | hbusy
      · cases hbusy
      · cases hbusy
        exact hspent.2 rfl
  | fails n error result hphase hresult =>
      refine h.setPhase hphase rfl rfl rfl rfl ?_ fun spent hspent => ⟨hspent.1, ?_⟩
      · intro hnever
        cases result with
        | error e => cases hnever
        | ok status =>
            obtain rfl := hresult status rfl
            cases hnever
      · rintro (rfl | rfl)
        · cases hresult none rfl
        · cases hresult (some .skipped) rfl
  | writes op _ => exact h.of_same rfl rfl rfl
  | returns n result hphase =>
      refine h.setPhase hphase rfl rfl rfl rfl (fun hnever => ?_) fun spent hspent => hspent
      cases result with
      | error e => cases hnever
      | ok status => cases status with
        | none => rfl
        | some status => cases hnever
  | renews now _ _ _ => exact h.of_same rfl rfl rfl
  | renewed m result _ => exact h.of_same rfl rfl rfl
  | renewalReturns m r _ _ => exact h.of_same rfl rfl rfl
  | aborts => exact h.abortCollection
  | stops => exact h.stopped w.closed
  | shuts _ => exact h.stopped true
  | closes _ _ => exact h.of_same rfl rfl rfl
  | closeResolves _ _ _ _ _ _ => exact h.of_same rfl rfl rfl
  | closeRejects _ _ _ => exact h.of_same rfl rfl rfl
  | occurs deadline => exact h.occurs deadline
  | «over» k scheduled hphase => exact h.over scheduled hphase
  | retries k o collection status ho hphase hawaited hbusy => exact h.retries ho hphase hawaited hbusy

/-- **Every step keeps the invariant** while no collector spends twice. -/
theorem ScheduleInv.steps {options : RuntimeOptions ι}
    (hspends : ∀ collect, options.collect = some collect → ∀ manual, SpendsAtMostOne (collect manual))
    {w w' : RuntimeWork ι} (h : ScheduleInv w) (hsteps : WorkSteps options w w') : ScheduleInv w' := by
  induction hsteps with
  | refl => exact h
  | tail _ hstep ih => exact ih.step hspends hstep

/-- What holds of an occurrence of the schedule at any time. -/
structure OccurrenceLaw (w : RuntimeWork ι) (k : Nat) (o : Occurrence) : Prop where
  one_sms : w.smsFor k ≤ 1
  in_time : ∀ a ∈ o.attempts, a.startedAt ≤ o.deadline
  after_busy : ∀ a ∈ o.attempts.dropLast, w.Refused a

/-- The invariant gives the law. -/
theorem ScheduleInv.law {w : RuntimeWork ι} (h : ScheduleInv w) {k : Nat} {o : Occurrence}
    (ho : w.occurrences[k]? = some o) : w.OccurrenceLaw k o := by
  have hinv := h.occurrence k o ho
  refine ⟨?_, hinv.time, hinv.earlier⟩
  have hspent := hinv.spent
  cases hphase : o.phase with
  | due =>
      rw [hphase] at hspent
      exact le_of_eq_of_le hspent (Nat.zero_le 1)
  | «over» => rwa [hphase] at hspent
  | awaiting collection =>
      rw [hphase] at hspent
      cases collection with
      | none => exact le_of_eq_of_le hspent (Nat.zero_le 1)
      | some n =>
          obtain ⟨c, -, -, hspends⟩ := hspent
          cases hcase : c.phase with
          | reserved m =>
              rw [hcase] at hspends
              exact le_of_eq_of_le hspends (Nat.zero_le 1)
          | collecting p =>
              rw [hcase] at hspends
              exact hspends.here
          | settled r => rw [hcase] at hspends; exact hspends.1
          | returned r => rw [hcase] at hspends; exact hspends.1

end RuntimeWork

open InvestmentRuntime in
/-- **One SMS for an occurrence.**  With the recovery collector over any provider
collector and any login that asks for its SMS at most once, in every run of the
runtime and for every occurrence of its schedule: at most one automatic SMS
attempt is reserved for it, every attempt starts before its deadline, and an
attempt is followed by another only if it was refused at once, never began, or
found the profile busy. -/
theorem automatic_sms_once {ι : Type} (options : RuntimeOptions ι) (db : InvestmentDb)
    (leases : Finset String) (hasSocket : Bool)
    (collect : Bool → SessionCollector ι CollectionStatus) (login : Bool → ClalLogin ι Unit)
    (honce : ∀ manual, AsksAtMostOnce (login manual)) (events : List (RuntimeEvent ι)) :
    let options := { options with
      collect := some (createClalRecoveryCollector hasSocket collect login) }
    let w := Runs.run (runtimeStep options) (created db leases) events
    ∀ (k : Nat) (o : Occurrence), w.work.occurrences[k]? = some o → w.work.OccurrenceLaw k o := by
  intro options w
  have hspends : ∀ collect, options.collect = some collect →
      ∀ manual, SpendsAtMostOne (collect manual) := by
    intro collector hcollector manual
    obtain rfl := Option.some.inj hcollector
    exact recoveryCollector_spends hasSocket collect honce manual
  have hrun : ∀ (events : List (RuntimeEvent ι)) (w : InvestmentRuntime ι), w.work.Inv →
      Held options w → w.work.ScheduleInv →
      (Runs.run (runtimeStep options) w events).work.ScheduleInv := by
    intro events
    induction events with
    | nil => exact fun w _ _ h => h
    | cons event events ih =>
        intro w hinv hheld h
        have hstep := runtimeStep_progress hinv hheld event
        exact ih _ (hstep.inv hinv) hstep.held (h.steps hspends hstep.work)
  intro k o ho
  exact (hrun events (created db leases) RuntimeWork.inv_empty (created_held db leases)
    RuntimeWork.scheduleInv_empty).law ho

/-- A scheduled collection whose session has expired: the login fills in its form,
finds its receiver ready and asks for an SMS. -/
def expiredSession : InvestmentRuntime PageAnswer :=
  let options : RuntimeOptions PageAnswer := { host := asciiHost }
  Runs.run
    (runtimeStep { options with
      collect := some (createClalRecoveryCollector true (fun _ => .ret .auth_required)
        fun _ => assistedClalLogin) })
    (InvestmentRuntime.created emptyInvestmentDb ∅)
    [⟨.start, 0, []⟩, ⟨.cron, 1000, []⟩, ⟨.answer 0 {}, 2000, []⟩, ⟨.answer 0 {}, 3000, []⟩,
      ⟨.answer 0 {}, 4000, []⟩, ⟨.answer 0 {}, 5000, []⟩]

/-- An expired session is tried again, with one message. -/
theorem automatic_sms_once_expired :
    expiredSession.work.occurrences.length = 1 ∧
      expiredSession.work.reservations = [.scheduled 0] ∧
      ∀ o, expiredSession.work.occurrences[0]? = some o → expiredSession.work.OccurrenceLaw 0 o :=
  ⟨by decide +kernel, by decide +kernel, automatic_sms_once { host := asciiHost } emptyInvestmentDb ∅
    true (fun _ => .ret .auth_required) (fun _ => assistedClalLogin)
    (fun _ => assistedClalLogin_asksAtMostOnce) _ 0⟩

end SimplefinBridge
