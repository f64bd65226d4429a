import SimplefinBridge.Consumers
import SimplefinBridge.Library.Interleaving

/-!
# Revocations and rotations against concurrent requests

The server handles one request at a time (its handlers never await between a
ledger read and the write that follows), but `bridge revoke` and `bridge
mint-token` are processes of their own, and scrypt keeps a request busy
between its read and its write.  One ledger read and one ledger write are
atomic; everything else interleaves.

Two ledger-side books record what operators were promised: `retired` holds
the hashes that a committed revoke or rotation took out of service, `minted`
the claim id of the last committed mint.  `Secure` says the promises are kept
in the present state.

A handler that writes back the row it read before the commit re-enables the
old secret and the old claim id.  `secure_of_no_stale_write_back` shows that
nothing else can: whatever the order of steps, the promises are kept as long
as each server write-back finds the credentials it read still stored, and
`randomBytes` never repeats a secret.
-/

namespace SimplefinBridge

/-- The consumers table and the books kept on it. -/
structure CredentialStore where
  consumers : ConsumerTable
  /-- Consumer id and hash of every secret taken out of service. -/
  retired : List (String × String)
  /-- Consumer id and claim id of the last mint not followed by a revoke. -/
  minted : List (String × String)
  /-- Every hash a stored row has carried; a fresh secret matches none. -/
  hashes : List String

/-- The server and the processes of the command line. -/
inductive Party
  | server
  | cli (process : Nat)
  deriving DecidableEq, Repr

/-- What a process remembers between its read and its write. -/
inductive CredentialTask
  | idle
  | touching (consumer : Consumer)
  | claiming (consumer : Option Consumer)
  | sweeping (writes : List Consumer)
  | revoking (consumer : Consumer)
  | minting (id label : String) (existing : Option Consumer)

/-- What a party does next. -/
inductive CredentialMove
  | request (user secret : String)
  | claim (claimId : String)
  | sweep (now : Instant)
  | revoke (label : String)
  | mint (label : String) (rotate : Bool)
  /-- The write of the operation in progress. -/
  | write (now : Instant) (randoms : MintRandoms)

/-- The row a server handler writes next. -/
def serverWrite (task : CredentialTask) (now : Instant) : Option Consumer :=
  match task with
  | .touching c => some (touchedConsumer c now)
  | .claiming c => claimWrite c now
  | .sweeping (row :: _) => some row
  | _ => none

/-- What the server still has to do after that write. -/
def serverRest : CredentialTask → CredentialTask
  | .sweeping (_ :: rest) => .sweeping rest
  | _ => .idle

namespace CredentialStore

/-- `updateConsumer`; a statement that fails writes nothing. -/
def update (s : CredentialStore) (row : Consumer) : CredentialStore :=
  match s.consumers.updateConsumer row with
  | .ok consumers => { s with consumers }
  | .error _ => s

/-- The hash stored for a consumer right now. -/
def storedHash (s : CredentialStore) (id : String) : List (String × String) :=
  ((s.consumers.find id).map fun c => (id, c.secretHash)).toList

/-- A revoke commits. -/
def revoke (s : CredentialStore) (row : Consumer) : CredentialStore :=
  match s.consumers.updateConsumer row with
  | .ok consumers =>
      { s with
        consumers
        retired := (row.id, row.secretHash) :: s.storedHash row.id ++ s.retired
        minted := s.minted.filter fun m => m.1 ≠ row.id }
  | .error _ => s

/-- A mint commits: `updateConsumer` on a rotation, `createConsumer` otherwise. -/
def mint (s : CredentialStore) (existing : Option Consumer) (row : Consumer)
    (claimId : String) : CredentialStore :=
  match if existing.isSome then s.consumers.updateConsumer row
    else s.consumers.createConsumer row with
  | .ok consumers =>
      { consumers
        retired := s.storedHash row.id ++ s.retired
        minted := (row.id, claimId) :: s.minted.filter fun m => m.1 ≠ row.id
        hashes := row.secretHash :: s.hashes }
  | .error _ => s

end CredentialStore

section
variable (host : Host) (hasher : SecretHasher) (config : ServerConfig)

/-- One atomic step of one process. -/
def advanceCredentials (party : Party) (move : CredentialMove) (s : CredentialStore)
    (task : CredentialTask) : CredentialStore × CredentialTask :=
  match party, task, move with
  | .server, .idle, .request user secret =>
      match basicAuth hasher s.consumers user secret with
      | .accepted c => (s, .touching c)
      | .forbidden => (s, .idle)
  | .server, .idle, .claim claimId => (s, .claiming (claimRead s.consumers claimId))
  | .server, .idle, .sweep now => (s, .sweeping (sweepWrites s.consumers.rows now))
  | .server, task, .write now _ =>
      match serverWrite task now with
      | some row => (s.update row, serverRest task)
      | none => (s, .idle)
  | .cli _, .idle, .revoke label =>
      match slug host label with
      | .ok id => (s, ((s.consumers.find id).map .revoking).getD .idle)
      | .error _ => (s, .idle)
  | .cli _, .idle, .mint label rotate =>
      match slug host label with
      | .ok id =>
          let existing := s.consumers.find id
          (s, if existing.isSome && !rotate then .idle else .minting id label existing)
      | .error _ => (s, .idle)
  | .cli _, .revoking c, .write now _ => (s.revoke (revokedConsumer c now), .idle)
  | .cli _, .minting id label existing, .write now randoms =>
      (s.mint existing (mintedConsumer hasher config id label existing randoms now)
        randoms.claimId, .idle)
  | _, task, _ => (s, task)

/-- The table, and what each party is in the middle of. -/
abbrev CredentialWorld := Interleaving.World CredentialStore CredentialTask Party

/-- One party moves. -/
def credentialStep : CredentialWorld → Party × CredentialMove → CredentialWorld :=
  Interleaving.step (advanceCredentials host hasher config)

/-- A ledger at rest: nothing retired yet, nobody in the middle of anything. -/
def quietLedger (consumers : ConsumerTable) : CredentialWorld where
  store := ⟨consumers, [], [], consumers.rows.map (·.secretHash)⟩
  task := fun _ => .idle

/-- Revoked and rotated secrets do not authenticate, and minted claim ids are
the stored ones. -/
def Secure (s : CredentialStore) : Prop :=
  (∀ user secret c, basicAuth hasher s.consumers user secret = .accepted c →
    ∀ h, (c.id, h) ∈ s.retired → hasher.verifySecret h secret = false) ∧
  (∀ m ∈ s.minted, ∃ c, s.consumers.find m.1 = some c ∧ c.claimId = some m.2)

/-- The row about to be written carries the stored hash, claim id and
revocation mark. -/
def CredentialsCurrent (s : CredentialStore) (row : Consumer) : Prop :=
  ∃ stored ∈ s.consumers.find row.id, stored.secretHash = row.secretHash ∧
    stored.claimId = row.claimId ∧ stored.revokedAt = row.revokedAt

instance (s : CredentialStore) (row : Consumer) : Decidable (CredentialsCurrent s row) := by
  unfold CredentialsCurrent; infer_instance

/-- If the step is a server write-back, the credentials it read are still the
stored ones. -/
def CurrentWriteBack (w : CredentialWorld) (m : Party × CredentialMove)
    (_ : CredentialWorld) : Prop :=
  match m with
  | (.server, .write now _) =>
      ∀ row ∈ serverWrite (w.task .server) now, CredentialsCurrent w.store row
  | _ => True

instance (w : CredentialWorld) (m : Party × CredentialMove) (w' : CredentialWorld) :
    Decidable (CurrentWriteBack w m w') := by
  unfold CurrentWriteBack; split <;> infer_instance

/-- The random secret has never been used: no hash in the books verifies it. -/
def FreshSecret (s : CredentialStore) (secret : String) : Prop :=
  ∀ h ∈ s.hashes, hasher.verifySecret h secret = false

instance (s : CredentialStore) (secret : String) : Decidable (FreshSecret hasher s secret) := by
  unfold FreshSecret; infer_instance

/-- `randomBytes`: if the step writes a mint, its secret has never been used. -/
def FreshDraw (w : CredentialWorld) (m : Party × CredentialMove) (_ : CredentialWorld) : Prop :=
  match w.task m.1, m.2 with
  | .minting _ _ _, .write _ randoms => FreshSecret hasher w.store randoms.secret
  | _, _ => True

instance (w : CredentialWorld) (m : Party × CredentialMove) (w' : CredentialWorld) :
    Decidable (FreshDraw hasher w m w') := by
  unfold FreshDraw; split <;> infer_instance

/-! ## What every committed write keeps -/

/-- The books agree with the table: every hash in use or retired is on
record, no live row's secret opens a hash retired for that consumer, and
minted claim ids are stored. -/
structure BooksKept (s : CredentialStore) : Prop where
  stored : ∀ c ∈ s.consumers.rows, c.secretHash ∈ s.hashes
  retired : ∀ r ∈ s.retired, r.2 ∈ s.hashes
  live : ∀ c ∈ s.consumers.rows, c.revokedAt = none → ∀ h, (c.id, h) ∈ s.retired →
    ∀ secret, hasher.verifySecret c.secretHash secret = true →
      hasher.verifySecret h secret = false
  minted : ∀ m ∈ s.minted, ∃ c, s.consumers.find m.1 = some c ∧ c.claimId = some m.2

variable {hasher}

/-- Kept books are secure. -/
theorem BooksKept.secure {s : CredentialStore} (h : BooksKept hasher s) : Secure hasher s := by
  refine ⟨?_, h.minted⟩
  intro user secret c hauth hash hretired
  unfold basicAuth at hauth
  split at hauth
  · cases hauth
  · rename_i stored hfind
    split_ifs at hauth with hrevoked hverify
    obtain rfl := AuthOutcome.accepted.inj hauth
    have hmem : stored ∈ s.consumers.rows := List.mem_of_find?_eq_some hfind
    exact h.live stored hmem (by simpa using hrevoked) hash hretired secret hverify

/-- Nothing has been retired yet. -/
theorem booksKept_quiet (consumers : ConsumerTable) :
    BooksKept hasher (quietLedger consumers).store where
  stored := fun _ hc => List.mem_map_of_mem hc
  retired := fun _ hr => by cases hr
  live := fun _ _ _ _ hr => by cases hr
  minted := fun _ hm => by cases hm

/-- An update puts the row, -/
theorem updateConsumer_ok {t t' : ConsumerTable} {row : Consumer}
    (h : t.updateConsumer row = .ok t') : t' = t.put row := by
  unfold ConsumerTable.updateConsumer at h
  split_ifs at h
  exact (Except.ok.inj h).symm

/-- and so does a new consumer. -/
theorem createConsumer_ok {t t' : ConsumerTable} {row : Consumer}
    (h : t.createConsumer row = .ok t') : t' = t.put row := by
  unfold ConsumerTable.createConsumer at h
  split_ifs at h
  exact updateConsumer_ok h

/-- A write-back of current credentials keeps the books. -/
theorem BooksKept.update {s : CredentialStore} (h : BooksKept hasher s) {row : Consumer}
    (hcurrent : CredentialsCurrent s row) : BooksKept hasher (s.update row) := by
  unfold CredentialStore.update
  split
  case h_2 => exact h
  case h_1 consumers hok =>
    obtain rfl := updateConsumer_ok hok
    obtain ⟨old, hold, hhash, hclaim, hrevoked⟩ := hcurrent
    have hmem : old ∈ s.consumers.rows := KeyedTable.mem_of_find hold
    have hid : old.id = row.id := KeyedTable.key_of_find hold
    refine ⟨?_, h.retired, ?_, ?_⟩
    · intro c hc
      rcases KeyedTable.mem_put.mp hc with rfl | ⟨hc, -⟩
      · exact hhash ▸ h.stored old hmem
      · exact h.stored c hc
    · intro c hc
      rcases KeyedTable.mem_put.mp hc with rfl | ⟨hc, -⟩
      · rw [← hhash, ← hid, ← hrevoked]
        exact h.live old hmem
      · exact h.live c hc
    · intro m hm
      obtain ⟨c, hfind, hc⟩ := h.minted m hm
      by_cases hkey : m.1 = row.id
      · have hsame : c = old := Option.some.inj (hfind.symm.trans (hkey ▸ hold))
        exact ⟨row, by rw [hkey]; exact KeyedTable.find_put_self _ _,
          by rw [← hclaim, ← hsame, hc]⟩
      · exact ⟨c, by rw [KeyedTable.find_put_other _ hkey, hfind], hc⟩

/-- The hash that is stored for a consumer. -/
theorem mem_storedHash {s : CredentialStore} {id : String} {r : String × String} :
    r ∈ s.storedHash id ↔ ∃ c, s.consumers.find id = some c ∧ r = (id, c.secretHash) := by
  simp only [CredentialStore.storedHash, Option.mem_toList, Option.map_eq_some_iff]
  exact exists_congr fun c => and_congr_right fun _ => eq_comm

/-- It is on record. -/
theorem BooksKept.storedHash_mem {s : CredentialStore} (h : BooksKept hasher s) {id : String}
    {r : String × String} (hr : r ∈ s.storedHash id) : r.2 ∈ s.hashes := by
  obtain ⟨c, hfind, rfl⟩ := mem_storedHash.mp hr
  exact h.stored c (KeyedTable.mem_of_find hfind)

/-- Claim ids minted for other consumers stay stored. -/
theorem BooksKept.minted_other {s : CredentialStore} (h : BooksKept hasher s) {row : Consumer}
    {m : String × String} (hm : m ∈ s.minted.filter fun m => m.1 ≠ row.id) :
    ∃ c, (s.consumers.put row).find m.1 = some c ∧ c.claimId = some m.2 := by
  obtain ⟨hmem, hne⟩ := List.mem_filter.mp hm
  rw [KeyedTable.find_put_other _ (by simpa using hne)]
  exact h.minted m hmem

/-- A revoke keeps the books. -/
theorem BooksKept.revoke {s : CredentialStore} (h : BooksKept hasher s) {row : Consumer}
    (hrevoked : row.revokedAt.isSome) (hhash : row.secretHash ∈ s.hashes) :
    BooksKept hasher (s.revoke row) := by
  unfold CredentialStore.revoke
  split
  case h_2 => exact h
  case h_1 consumers hok =>
    obtain rfl := updateConsumer_ok hok
    refine ⟨?_, ?_, ?_, fun m hm => h.minted_other hm⟩
    · intro c hc
      rcases KeyedTable.mem_put.mp hc with rfl | ⟨hc, -⟩
      · exact hhash
      · exact h.stored c hc
    · intro r hr
      rcases List.mem_cons.mp hr with rfl | hr
      · exact hhash
      · rcases List.mem_append.mp hr with hr | hr
        · exact h.storedHash_mem hr
        · exact h.retired r hr
    · intro c hc hlive hash hr
      rcases KeyedTable.mem_put.mp hc with rfl | ⟨hc, hne⟩
      · rw [hlive] at hrevoked
        cases hrevoked
      · -- the new entries are about the revoked consumer, which `c` is not
        have hold : (c.id, hash) ∈ s.retired := by
          rcases List.mem_cons.mp hr with heq | hr
          · exact absurd (congrArg Prod.fst heq) hne
          · rcases List.mem_append.mp hr with hr | hr
            · obtain ⟨_, -, heq⟩ := mem_storedHash.mp hr
              exact absurd (congrArg Prod.fst heq) hne
            · exact hr
        exact h.live c hc hlive hash hold

/-- A mint of a fresh secret keeps the books. -/
theorem BooksKept.mint {s : CredentialStore} (h : BooksKept hasher s)
    {existing : Option Consumer} {row : Consumer} {claimId salt secret : String} (hclaim : row.claimId = some claimId)
    (hhash : row.secretHash = hasher.hashSecret salt secret)
    (hfresh : FreshSecret hasher s secret) : BooksKept hasher (s.mint existing row claimId) := by
  unfold CredentialStore.mint
  split
  case h_2 => exact h
  case h_1 consumers hok =>
    obtain rfl : consumers = s.consumers.put row := by
      split_ifs at hok
      · exact updateConsumer_ok hok
      · exact createConsumer_ok hok
    have hretired : ∀ r ∈ s.storedHash row.id ++ s.retired, r.2 ∈ s.hashes := by
      intro r hr
      rcases List.mem_append.mp hr with hr | hr
      · exact h.storedHash_mem hr
      · exact h.retired r hr
    refine ⟨?_, fun r hr => List.mem_cons_of_mem _ (hretired r hr), ?_, ?_⟩
    · intro c hc
      rcases KeyedTable.mem_put.mp hc with rfl | ⟨hc, -⟩
      · exact List.mem_cons_self
      · exact List.mem_cons_of_mem _ (h.stored c hc)
    · intro c hc hlive hash hr attempt hverify
      rcases KeyedTable.mem_put.mp hc with rfl | ⟨hc, hne⟩
      · -- only the fresh secret opens the new row, and it opens no older hash
        rw [hhash, hasher.verify_hash] at hverify
        subst hverify
        exact hfresh hash (hretired _ hr)
      · have hold : (c.id, hash) ∈ s.retired := by
          rcases List.mem_append.mp hr with hr | hr
          · obtain ⟨_, -, heq⟩ := mem_storedHash.mp hr
            exact absurd (congrArg Prod.fst heq) hne
          · exact hr
        exact h.live c hc hlive hash hold attempt hverify
    · intro m hm
      rcases List.mem_cons.mp hm with rfl | hm
      · exact ⟨row, KeyedTable.find_put_self _ _, hclaim⟩
      · exact h.minted_other hm

/-! ## Every step, every run -/

/-- A revocation in progress retires a hash that is on record. -/
def TaskOnRecord (s : CredentialStore) : CredentialTask → Prop
  | .revoking c => c.secretHash ∈ s.hashes
  | _ => True

/-- An update records no hash, -/
theorem CredentialStore.update_hashes (s : CredentialStore) (row : Consumer) :
    (s.update row).hashes = s.hashes := by
  unfold CredentialStore.update
  split <;> rfl

/-- and neither does a revocation. -/
theorem CredentialStore.revoke_hashes (s : CredentialStore) (row : Consumer) :
    (s.revoke row).hashes = s.hashes := by
  unfold CredentialStore.revoke
  split <;> rfl

/-- Minting forgets none. -/
theorem CredentialStore.subset_mint_hashes (s : CredentialStore) (existing : Option Consumer)
    (row : Consumer) (claimId : String) : s.hashes ⊆ (s.mint existing row claimId).hashes := by
  unfold CredentialStore.mint
  split
  · exact List.subset_cons_self _ _
  · exact List.Subset.refl _

/-- The server keeps no revocation in hand. -/
theorem taskOnRecord_serverRest (s : CredentialStore) (task : CredentialTask) :
    TaskOnRecord s (serverRest task) := by
  unfold serverRest
  split <;> trivial

/-- A task that only a CLI process starts is on record when it starts. -/
theorem taskOnRecord_revoking {s : CredentialStore} (h : BooksKept hasher s) (id : String) :
    TaskOnRecord s (((s.consumers.find id).map CredentialTask.revoking).getD .idle) := by
  cases hfind : s.consumers.find id with
  | none => trivial
  | some c => exact h.stored c (KeyedTable.mem_of_find hfind)

/-- **One step.**  A step that is no stale write-back keeps the books, leaves
its own task on record and forgets no hash. -/
theorem advanceCredentials_keeps {party : Party} {move : CredentialMove} {s : CredentialStore}
    {task : CredentialTask} (hbooks : BooksKept hasher s) (htask : TaskOnRecord s task)
    (hcurrent : party = .server → ∀ now randoms, move = .write now randoms →
      ∀ row, serverWrite task now = some row → CredentialsCurrent s row)
    (hdraws : ∀ id label existing now randoms, task = .minting id label existing →
      move = .write now randoms → FreshSecret hasher s randoms.secret) :
    let next := advanceCredentials host hasher config party move s task
    BooksKept hasher next.1 ∧ TaskOnRecord next.1 next.2 ∧ s.hashes ⊆ next.1.hashes := by
  unfold advanceCredentials
  split
  case h_1 =>
    split <;> exact ⟨hbooks, trivial, List.Subset.refl _⟩
  case h_2 => exact ⟨hbooks, trivial, List.Subset.refl _⟩
  case h_3 => exact ⟨hbooks, trivial, List.Subset.refl _⟩
  case h_4 now randoms =>
    split
    case h_1 row hrow =>
      refine ⟨hbooks.update (hcurrent rfl now randoms rfl row hrow),
        taskOnRecord_serverRest _ _, ?_⟩
      rw [CredentialStore.update_hashes]
      exact List.Subset.refl _
    case h_2 => exact ⟨hbooks, trivial, List.Subset.refl _⟩
  case h_5 label =>
    split
    case h_1 id _ => exact ⟨hbooks, taskOnRecord_revoking hbooks id, List.Subset.refl _⟩
    case h_2 => exact ⟨hbooks, trivial, List.Subset.refl _⟩
  case h_6 label rotate =>
    split
    case h_1 id _ =>
      refine ⟨hbooks, ?_, List.Subset.refl _⟩
      dsimp only
      split_ifs <;> trivial
    case h_2 => exact ⟨hbooks, trivial, List.Subset.refl _⟩
  case h_7 c now _ =>
    have hhash : (revokedConsumer c now).secretHash ∈ s.hashes := htask
    refine ⟨hbooks.revoke rfl hhash, trivial, ?_⟩
    rw [CredentialStore.revoke_hashes]
    exact List.Subset.refl _
  case h_8 id label existing now randoms =>
    have hfresh := hdraws id label existing now randoms rfl rfl
    exact ⟨hbooks.mint rfl rfl hfresh, trivial, CredentialStore.subset_mint_hashes _ _ _ _⟩
  case h_9 => exact ⟨hbooks, htask, List.Subset.refl _⟩

/-- Books kept and every task on record. -/
def CredentialInv (hasher : SecretHasher) (w : CredentialWorld) : Prop :=
  Interleaving.Invariant (BooksKept hasher) (fun _ => TaskOnRecord) w

/-- **A step that meets the conditions keeps the invariant.** -/
theorem credentialInv_step {w : CredentialWorld} {m : Party × CredentialMove}
    (hinv : CredentialInv hasher w)
    (hcurrent : CurrentWriteBack w m (credentialStep host hasher config w m))
    (hfresh : FreshDraw hasher w m (credentialStep host hasher config w m)) :
    CredentialInv hasher (credentialStep host hasher config w m) := by
  obtain ⟨party, move⟩ := m
  have hserver : party = .server → ∀ now randoms, move = .write now randoms →
      ∀ row, serverWrite (w.task party) now = some row → CredentialsCurrent w.store row := by
    rintro rfl now randoms rfl
    exact hcurrent
  have hdraws : ∀ id label existing now randoms, w.task party = .minting id label existing →
      move = .write now randoms → FreshSecret hasher w.store randoms.secret := by
    rintro id label existing now randoms htask rfl
    unfold FreshDraw at hfresh
    dsimp only at hfresh
    rw [htask] at hfresh
    exact hfresh
  obtain ⟨hbooks, htask, hhashes⟩ :=
    advanceCredentials_keeps host config hinv.1 (hinv.2 party) hserver hdraws
  refine Interleaving.invariant_step hinv hbooks htask fun k _ hk => ?_
  cases hk' : w.task k with
  | revoking c =>
      rw [hk'] at hk
      exact hhashes hk
  | idle | touching c | claiming c | sweeping writes | minting id label existing => trivial

/-- **Revocations and rotations stand.**  Under every interleaving of server
requests, claims and sweeps with CLI revokes and mints in which each server
write-back finds the credentials it read still stored, and no random secret is
drawn twice, no revoked or rotated secret authenticates and every minted claim
id stays stored, in every state reached. -/
theorem secure_of_no_stale_write_back (consumers : ConsumerTable)
    (moves : List (Party × CredentialMove))
    (hcurrent : Runs.Along (credentialStep host hasher config) CurrentWriteBack
      (quietLedger consumers) moves)
    (hfresh : Runs.Along (credentialStep host hasher config) (FreshDraw hasher)
      (quietLedger consumers) moves) :
    Runs.Along (credentialStep host hasher config) (fun _ _ w => Secure hasher w.store)
      (quietLedger consumers) moves := by
  have hstart : CredentialInv hasher (quietLedger consumers) :=
    ⟨booksKept_quiet consumers, fun _ => trivial⟩
  refine (Runs.along_and.mpr ⟨hcurrent, hfresh⟩).of_invariant hstart fun w m hinv hm => ?_
  have hnext := credentialInv_step host config hinv hm.1 hm.2
  exact ⟨hnext, hnext.1.secure⟩

end

/-! ## A request that outlives a revoke -/

/-- A hasher whose hash is the secret itself. -/
def plainHasher : SecretHasher where
  hashSecret := fun _ secret => secret
  verifySecret := fun hash attempt => hash == attempt
  verify_hash := fun _ _ _ => by rw [beq_iff_eq, eq_comm]

/-- A consumer that may make requests. -/
def securoConsumer : Consumer where
  id := "securo"
  label := "securo"
  basicUser := "securo-4k2m9x"
  secretHash := "old"
  secretPlain := none
  claimId := some "c0"
  claimExpiresAt := some 0
  claimCount := 1
  maxClaims := 1
  claimedAt := some 0
  firstAuthenticatedAt := some 0
  lastSeenAt := some 0
  createdAt := 0
  revokedAt := none

/-- A table with that consumer only. -/
def securoTable : ConsumerTable := KeyedTable.empty.put securoConsumer

/-- What is drawn for a minted consumer. -/
def drawn (secret claimId : String) : MintRandoms := ⟨secret, "salt", claimId, "4k2m9x"⟩

/-- A server on this machine. -/
def localConfig : ServerConfig := ⟨"http://localhost:8080", 60, 1⟩

/-- Requests that finish before the rotation and the revoke start. -/
def orderlyMoves : List (Party × CredentialMove) :=
  [(.server, .request "securo-4k2m9x" "old"), (.server, .write 1 (drawn "" "")),
   (.cli 0, .mint "securo" true), (.cli 0, .write 2 (drawn "new" "c1")),
   (.server, .request "securo-4k2m9x" "new"), (.server, .write 3 (drawn "" "")),
   (.cli 1, .revoke "securo"), (.cli 1, .write 4 (drawn "" ""))]

/-- Requests, a rotation and a revocation that do not overlap. -/
theorem secure_orderlyMoves :
    Runs.Along (credentialStep asciiHost plainHasher localConfig) CurrentWriteBack
      (quietLedger securoTable) orderlyMoves ∧
    Runs.Along (credentialStep asciiHost plainHasher localConfig)
      (fun _ _ w => Secure plainHasher w.store) (quietLedger securoTable) orderlyMoves := by
  have hcurrent : Runs.Along (credentialStep asciiHost plainHasher localConfig) CurrentWriteBack
      (quietLedger securoTable) orderlyMoves := by decide +kernel
  have hfresh : Runs.Along (credentialStep asciiHost plainHasher localConfig)
      (FreshDraw plainHasher) (quietLedger securoTable) orderlyMoves := by decide +kernel
  exact ⟨hcurrent, secure_of_no_stale_write_back asciiHost localConfig securoTable orderlyMoves
    hcurrent hfresh⟩

/-- The revoke commits while a request sits between its read and its write. -/
def overlappedMoves : List (Party × CredentialMove) :=
  [(.server, .request "securo-4k2m9x" "old"),
   (.cli 0, .revoke "securo"), (.cli 0, .write 1 (drawn "" "")),
   (.server, .write 2 (drawn "" ""))]

/-- The write-back of the request clears the revocation mark, and the next
request gets in with the revoked secret. -/
theorem revoke_undone_by_overlapping_request :
    ("securo", "old") ∈ (Runs.run (credentialStep asciiHost plainHasher localConfig)
      (quietLedger securoTable) overlappedMoves).store.retired ∧
    basicAuth plainHasher (Runs.run (credentialStep asciiHost plainHasher localConfig)
        (quietLedger securoTable) overlappedMoves).store.consumers "securo-4k2m9x" "old" =
      .accepted { securoConsumer with lastSeenAt := some 2 } ∧
    ¬ Runs.Along (credentialStep asciiHost plainHasher localConfig)
      (fun _ _ w => Secure plainHasher w.store) (quietLedger securoTable) overlappedMoves := by
  have hretired : ("securo", "old") ∈ (Runs.run (credentialStep asciiHost plainHasher localConfig)
      (quietLedger securoTable) overlappedMoves).store.retired := by decide +kernel
  have haccepted : basicAuth plainHasher (Runs.run
      (credentialStep asciiHost plainHasher localConfig)
        (quietLedger securoTable) overlappedMoves).store.consumers "securo-4k2m9x" "old" =
      .accepted { securoConsumer with lastSeenAt := some 2 } := by decide +kernel
  refine ⟨hretired, haccepted, ?_⟩
  intro hsecure
  obtain ⟨-, -, -, hlast, -⟩ := hsecure
  have hrejected := hlast.1 _ _ _ haccepted _ hretired
  exact absurd hrejected (by decide)

end SimplefinBridge
