import SimplefinBridge.Migrations

/-!
# Processes opening one ledger file concurrently

The server, a CLI command and a health check may all run `openStore` on the
same file.  Each keeps the version it read while it migrates, so a migration
transaction may begin when the file is already ahead of it.

The transaction of migration 1 is idempotent: run over a file of version 2 it
succeeds, changes no table, and stamps version **1** back.  From then on the
file claims one migration while carrying two, and every later opening dies on
the duplicate column.  `opening_safe_iff_no_stale_stamp` shows that this is
the only way to go wrong: a run of openings is safe throughout exactly when
no migration transaction begins on a file that is already past it.
-/

namespace SimplefinBridge

/-- What an opening must be able to rely on: the stamp counts the applied
migrations, and a process that opens the file alone succeeds. -/
def LedgerFile.Safe (file : LedgerFile) : Prop :=
  file.version = file.applied ∧ ∃ opened, openStore file = .ok opened

instance (file : LedgerFile) : Decidable (∃ opened, openStore file = .ok opened) :=
  match h : openStore file with
  | .ok opened => isTrue ⟨opened, rfl⟩
  | .error _ => isFalse (by simp)

instance (file : LedgerFile) : Decidable file.Safe := by
  unfold LedgerFile.Safe; infer_instance

/-- The file together with every process's place in `openStore`. -/
abbrev OpeningWorld := Interleaving.World LedgerFile Opening Nat

/-- Process `p` takes its next atomic step. -/
def openingStep (w : OpeningWorld) (p : Nat) : OpeningWorld :=
  Interleaving.step (fun _ (_ : Unit) => advanceOpening) w (p, ())

/-- Every process is about to start. -/
def startOpening (file : LedgerFile) : OpeningWorld where
  store := file
  task := fun _ => .creatingMeta

/-- The step leaves a safe file and does not lower the stored version. -/
def SafeStep (w : OpeningWorld) (_ : Nat) (w' : OpeningWorld) : Prop :=
  w'.store.Safe ∧ w.store.version ≤ w'.store.version

/-- A run of openings is safe when its first file and all its steps are. -/
def SafeOpening (w : OpeningWorld) (schedule : List Nat) : Prop :=
  w.store.Safe ∧ Runs.Along openingStep SafeStep w schedule

instance (w : OpeningWorld) (schedule : List Nat) : Decidable (SafeOpening w schedule) := by
  unfold SafeOpening SafeStep; infer_instance

/-- The process is about to begin a migration the file is already past. -/
def StaleStamp (file : LedgerFile) : Opening → Prop
  | .migrating version => version < file.version
  | _ => False

instance (file : LedgerFile) (phase : Opening) : Decidable (StaleStamp file phase) := by
  cases phase <;> unfold StaleStamp <;> infer_instance

/-- The process that steps does not begin a stale migration. -/
def FreshStep (w : OpeningWorld) (p : Nat) (_ : OpeningWorld) : Prop :=
  ¬ StaleStamp w.store (w.task p)

/-! ## The ledger files of this build -/

/-- The schema left by the first `n` migrations on a fresh file. -/
def schemaAfter (n : Nat) : Schema :=
  (Schema.execAll ⟨[], []⟩ (metaTable :: (migrations.take n).flatten)).getD ⟨[], []⟩

/-- The schema states a ledger file of this build can be in. -/
inductive SchemaState
  | noMetaTable | unversioned | version1 | version2
  deriving DecidableEq, Repr

/-- The file in each schema state, with or without the id scheme stamp. -/
def ledgerFileAt (state : SchemaState) (stamped : Bool) : LedgerFile :=
  let idScheme := if stamped then some idSchemeVersion else none
  match state with
  | .noMetaTable => ⟨⟨[], []⟩, none, idScheme⟩
  | .unversioned => ⟨schemaAfter 0, none, idScheme⟩
  | .version1 => ⟨schemaAfter 1, some 1, idScheme⟩
  | .version2 => ⟨schemaAfter 2, some 2, idScheme⟩

/-- Every ledger file a safe run of openings can leave. -/
def ledgerFiles : List LedgerFile :=
  [.noMetaTable, .unversioned, .version1, .version2].flatMap fun state =>
    [ledgerFileAt state false, ledgerFileAt state true]

/-- Such a file is one of the list. -/
theorem ledgerFileAt_mem (state : SchemaState) (stamped : Bool) :
    ledgerFileAt state stamped ∈ ledgerFiles := by
  cases state <;> cases stamped <;> decide

/-- All of them are safe. -/
theorem ledgerFiles_safe : ∀ file ∈ ledgerFiles, file.Safe := by decide

/-- What a process inside `openStore` knows about the file. -/
def PhaseFits (file : LedgerFile) : Opening → Prop
  | .readingVersion => (file.schema.columns "meta").isSome
  | .migrating version =>
      (file.schema.columns "meta").isSome ∧ 0 < version ∧ version ≤ migrations.length ∧
        version ≤ file.version + 1
  | .checkingIdScheme | .stampingIdScheme => file.version = migrations.length
  | .creatingMeta | .opened | .failed _ => True

instance (file : LedgerFile) (phase : Opening) : Decidable (PhaseFits file phase) := by
  cases phase <;> unfold PhaseFits <;> infer_instance

/-- How a step may change the file: versions only go up, up to what this
build supports, and the `meta` table stays. -/
def Grows (file file' : LedgerFile) : Prop :=
  file.version ≤ file'.version ∧ file'.version ≤ migrations.length ∧
    ((file.schema.columns "meta").isSome → (file'.schema.columns "meta").isSome)

instance (file file' : LedgerFile) : Decidable (Grows file file') := by
  unfold Grows; infer_instance

/-- What another process knows survives a file that grows. -/
theorem PhaseFits.grows {file file' : LedgerFile} {phase : Opening}
    (h : PhaseFits file phase) (hg : Grows file file') : PhaseFits file' phase := by
  obtain ⟨hle, hmax, hmeta⟩ := hg
  cases phase with
  | readingVersion => exact hmeta h
  | migrating version =>
      obtain ⟨hm, hpos, hlen, hv⟩ := h
      exact ⟨hmeta hm, hpos, hlen, by omega⟩
  | checkingIdScheme => exact Nat.le_antisymm hmax (by simpa [PhaseFits] using h ▸ hle)
  | stampingIdScheme => exact Nat.le_antisymm hmax (by simpa [PhaseFits] using h ▸ hle)
  | creatingMeta | opened | failed e => trivial

/-- The migrations there are. -/
theorem migration_cases {version : Nat} (hpos : 0 < version)
    (hlen : version ≤ migrations.length) : version = 1 ∨ version = 2 := by
  have : migrations.length = 2 := rfl
  omega

/-- A file grows from itself. -/
theorem grows_refl : ∀ file ∈ ledgerFiles, Grows file file := by decide

/-- **One step of one process.**  On a ledger file, a step that does not
begin a stale migration leaves a ledger file that has grown, and the process
still fits it. -/
theorem advanceOpening_fits {phase : Opening} :
    ∀ file ∈ ledgerFiles, PhaseFits file phase → ¬ StaleStamp file phase →
      (advanceOpening file phase).1 ∈ ledgerFiles ∧
      Grows file (advanceOpening file phase).1 ∧
      PhaseFits (advanceOpening file phase).1 (advanceOpening file phase).2 := by
  cases phase with
  | creatingMeta => decide
  | readingVersion => decide
  | migrating version =>
      intro file hfile hfits
      obtain rfl | rfl := migration_cases hfits.2.1 hfits.2.2.1
      all_goals
        revert file
        decide
  | checkingIdScheme => decide
  | stampingIdScheme => decide
  | opened => decide
  | failed e => exact fun file hfile _ _ => ⟨hfile, grows_refl file hfile, trivial⟩

/-- A stale migration lowers the stored version at once. -/
theorem advanceOpening_stale {phase : Opening} :
    ∀ file ∈ ledgerFiles, PhaseFits file phase → StaleStamp file phase →
      (advanceOpening file phase).1.version < file.version := by
  cases phase with
  | migrating version =>
      intro file hfile hfits
      obtain rfl | rfl := migration_cases hfits.2.1 hfits.2.2.1
      all_goals
        revert file
        decide
  | creatingMeta | readingVersion | checkingIdScheme | stampingIdScheme | opened | failed e =>
      exact fun _ _ _ h => h.elim

/-! ## One process alone -/

/-- How a process that has finished ended. -/
def openingResult (end_ : LedgerFile × Opening) : Option (Except OpenError LedgerFile) :=
  match end_.2 with
  | .opened => some (.ok end_.1)
  | .failed e => some (.error e)
  | _ => none

/-- An opening that failed is over, -/
theorem openAlone_failed (n : Nat) (file : LedgerFile) (e : OpenError) :
    openAlone n file (.failed e) = (file, .failed e) := by
  induction n with
  | zero => rfl
  | succ n ih => exact ih

/-- and so is one that is open. -/
theorem openAlone_opened (n : Nat) (file : LedgerFile) :
    openAlone n file .opened = (file, .opened) := by
  induction n with
  | zero => rfl
  | succ n ih => exact ih

/-- From the loop head of `migrate` the atomic steps fold the remaining
migrations, whatever `k` steps come after them. -/
theorem openAlone_migrations (n k v : Nat) (file : LedgerFile)
    (hlen : v + n = migrations.length) :
    openingResult (openAlone (n + k) file (nextMigration (v + 1))) =
      match (List.range' (v + 1) n).foldlM applyMigration file with
      | .ok file => openingResult (openAlone k file .checkingIdScheme)
      | .error e => some (.error e) := by
  induction n generalizing v file with
  | zero =>
      have hend : nextMigration (v + 1) = .checkingIdScheme := by
        simp [nextMigration, ← hlen]
      simp [hend, pure, Except.pure]
  | succ n ih =>
      have hloop : nextMigration (v + 1) = .migrating (v + 1) :=
        if_pos (by omega)
      rw [hloop, Nat.add_right_comm, List.range'_succ, List.foldlM_cons]
      cases hmig : applyMigration file (v + 1) with
      | error e =>
          simp [openAlone, advanceOpening, hmig, openAlone_failed, openingResult,
            bind, Except.bind]
      | ok next =>
          simpa [openAlone, advanceOpening, hmig, bind, Except.bind] using
            ih (v + 1) next (by omega)

/-- The tail of `openStore`: the id scheme is checked and, when absent,
stamped. -/
theorem openAlone_assertIdScheme (file : LedgerFile) (k : Nat) :
    openingResult (openAlone (k + 2) file .checkingIdScheme) = some (assertIdScheme file) := by
  rcases hscheme : file.idScheme with _ | stored
  · simp [openAlone, advanceOpening, hscheme, assertIdScheme, openAlone_opened, openingResult]
  · by_cases hours : stored = idSchemeVersion
    · simp [openAlone, advanceOpening, hscheme, assertIdScheme, hours, openAlone_opened,
        openingResult]
    · simp [openAlone, advanceOpening, hscheme, assertIdScheme, hours, openAlone_failed,
        openingResult]

/-- The first table can be made. -/
theorem createMeta_ok (file : LedgerFile) : ∃ ready, createMeta file = .ok ready := by
  simp only [createMeta, metaTable, Schema.exec]
  split_ifs <;> exact ⟨_, rfl⟩

/-- The head of `migrate`: after creating `meta` and reading the version the
process gives up or enters the loop. -/
theorem openAlone_head (n : Nat) {file ready : LedgerFile} (hready : createMeta file = .ok ready) :
    openAlone (n + 2) file .creatingMeta =
      openAlone n ready (if ready.version > migrations.length
        then .failed (.newerSchema ready.version) else nextMigration (ready.version + 1)) := by
  simp only [openAlone, advanceOpening, hready]
  split_ifs <;> rfl

/-- The atomic steps of one process with nobody else on the file are
`openStore`. -/
theorem openAlone_eq_openStore (file : LedgerFile) :
    openingResult (openAlone (migrations.length + 4) file .creatingMeta) =
      some (openStore file) := by
  obtain ⟨ready, hready⟩ := createMeta_ok file
  rw [openAlone_head (migrations.length + 2) hready]
  by_cases hnewer : ready.version > migrations.length
  · simp [hnewer, openStore, migrate, hready, openAlone_failed, openingResult,
      bind, Except.bind, throw, throwThe, MonadExceptOf.throw]
  · have hsplit : migrations.length + 2 =
        migrations.length - ready.version + (ready.version + 2) := by omega
    rw [if_neg hnewer, hsplit, openAlone_migrations _ _ _ _ (by omega)]
    simp only [openStore, migrate, hready, if_neg hnewer, bind, Except.bind]
    split <;> simp_all [openAlone_assertIdScheme]

/-! ## Whole runs -/

/-- The file is a ledger file and every process fits it. -/
def OpeningInv (w : OpeningWorld) : Prop :=
  Interleaving.Invariant (· ∈ ledgerFiles) (fun _ => PhaseFits) w

/-- All processes begin. -/
theorem openingInv_start (state : SchemaState) (stamped : Bool) :
    OpeningInv (startOpening (ledgerFileAt state stamped)) :=
  ⟨ledgerFileAt_mem state stamped, fun _ => trivial⟩

/-- **A step that is not overtaken keeps the invariant.** -/
theorem openingInv_step {w : OpeningWorld} {p : Nat} (hinv : OpeningInv w)
    (hfresh : FreshStep w p (openingStep w p)) :
    OpeningInv (openingStep w p) ∧ Grows w.store (openingStep w p).store := by
  obtain ⟨hfile, hgrows, hself⟩ :=
    advanceOpening_fits w.store hinv.1 (hinv.2 p) hfresh
  exact ⟨Interleaving.invariant_step hinv hfile hself fun _ _ h => h.grows hgrows, hgrows⟩

/-- A step is safe exactly when it does not begin a stale migration. -/
theorem safeStep_iff_freshStep {w : OpeningWorld} {p : Nat} (hinv : OpeningInv w) :
    SafeStep w p (openingStep w p) ↔ FreshStep w p (openingStep w p) := by
  constructor
  · rintro ⟨-, hle⟩ hstale
    have hlt := advanceOpening_stale w.store hinv.1 (hinv.2 p) hstale
    exact absurd hle (Nat.not_le.mpr hlt)
  · intro hfresh
    obtain ⟨hnext, hgrows⟩ := openingInv_step hinv hfresh
    exact ⟨ledgerFiles_safe _ hnext.1, hgrows.1⟩

/-- **Concurrent opening.**  From every schema state and under every
interleaving of any number of openings, the stamp counts the applied
migrations in every state reached, it never decreases and every later opening
succeeds, **iff** no process begins a migration the file is already past. -/
theorem opening_safe_iff_no_stale_stamp (state : SchemaState) (stamped : Bool)
    (schedule : List Nat) :
    SafeOpening (startOpening (ledgerFileAt state stamped)) schedule ↔
      Runs.Along openingStep FreshStep (startOpening (ledgerFileAt state stamped)) schedule := by
  have hrun : Runs.Along openingStep SafeStep (startOpening (ledgerFileAt state stamped)) schedule ↔
      Runs.Along openingStep FreshStep (startOpening (ledgerFileAt state stamped)) schedule :=
    Runs.along_iff_of_step (openingInv_start state stamped)
    (fun _ _ hinv => safeStep_iff_freshStep hinv)
    (fun _ _ hinv hfresh => (openingInv_step hinv hfresh).1) schedule
  have hfirst := ledgerFiles_safe _ (ledgerFileAt_mem state stamped)
  exact ⟨fun h => hrun.mp h.2, fun h => ⟨hfirst, hrun.mpr h⟩⟩

/-- Two processes on a fresh file: process 0 reads the version and pauses,
process 1 opens the file completely, process 0 runs migration 1. -/
def overtakenSchedule : List Nat := [0, 0, 1, 1, 1, 1, 1, 1, 0]

/-- The overtaken process stamps version 1 on a file that carries both
migrations; nobody can open that file again. -/
theorem overtaken_opening_unsafe :
    ¬ SafeOpening (startOpening (ledgerFileAt .noMetaTable false)) overtakenSchedule ∧
    (Runs.run openingStep (startOpening (ledgerFileAt .noMetaTable false))
      overtakenSchedule).store.version = 1 ∧
    (Runs.run openingStep (startOpening (ledgerFileAt .noMetaTable false))
      overtakenSchedule).store.applied = 2 ∧
    openStore (Runs.run openingStep (startOpening (ledgerFileAt .noMetaTable false))
      overtakenSchedule).store = .error .sql := by
  refine ⟨by decide, by decide, by decide, by decide⟩

end SimplefinBridge
