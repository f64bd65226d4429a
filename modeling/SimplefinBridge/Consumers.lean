import SimplefinBridge.Types
import SimplefinBridge.Library.KeyedTable

/-!
# SimpleFIN consumers: setup tokens, claims and Basic authentication

A consumer row carries the scrypt hash of its secret, the claim id of its
setup token with an expiry and a counter, and — only while the claim is open
— the plain secret.  Every operation on it is a read of the row followed by a
write of the **whole** row computed from what was read; each operation below
is therefore split into the row it writes (`claimedConsumer`,
`touchedConsumer`, …) and the function that reads and writes it.
-/

namespace SimplefinBridge

structure Consumer where
  id : String
  label : String
  /-- Basic-auth user name. -/
  basicUser : String
  /-- scrypt hash of the Basic-auth secret. -/
  secretHash : String
  /-- Plain secret, retained only while the claim is open. -/
  secretPlain : Option String
  /-- One-time claim id embedded in the setup token URL. -/
  claimId : Option String
  claimExpiresAt : Option Instant
  claimCount : Nat
  maxClaims : Nat
  claimedAt : Option Instant
  firstAuthenticatedAt : Option Instant
  lastSeenAt : Option Instant
  createdAt : Instant
  revokedAt : Option Instant
  deriving DecidableEq, Repr

structure ServerConfig where
  publicUrl : String
  claimTtlMinutes : Nat
  maxClaims : Nat
  deriving DecidableEq, Repr

/-- `hashSecret` and `verifySecret`: a stored hash verifies exactly the secret
it was made from. -/
structure SecretHasher where
  /-- `hashSecret(secret)` with the given salt. -/
  hashSecret : String → String → String
  verifySecret : String → String → Bool
  verify_hash : ∀ salt secret attempt,
    verifySecret (hashSecret salt secret) attempt = true ↔ attempt = secret

/-! ## The consumers table -/

abbrev ConsumerTable := KeyedTable Consumer Consumer.id

namespace ConsumerTable

/-- Another row has the same `basic_user` or the same `claim_id`. -/
def violatesUnique (t : ConsumerTable) (c : Consumer) : Bool :=
  t.rows.any fun r => r.id ≠ c.id &&
    (r.basicUser = c.basicUser || (c.claimId.isSome && r.claimId = c.claimId))

/-- `ledger.updateConsumer`: insert or overwrite the whole row. -/
def updateConsumer (t : ConsumerTable) (c : Consumer) : Except BridgeError ConsumerTable :=
  if violatesUnique t c then .error .uniqueConstraint else .ok (t.put c)

/-- `ledger.createConsumer` -/
def createConsumer (t : ConsumerTable) (c : Consumer) : Except BridgeError ConsumerTable :=
  if (t.find c.id).isSome then .error .consumerExists else updateConsumer t c

def getConsumerByClaimId (t : ConsumerTable) (claimId : String) : Option Consumer :=
  t.rows.find? fun c => c.claimId = some claimId

def getConsumerByBasicUser (t : ConsumerTable) (user : String) : Option Consumer :=
  t.rows.find? fun c => c.basicUser = user

end ConsumerTable

/-! ## Claims -/

/-- Why a claim is refused. -/
inductive RejectionReason
  | unknown | revoked | expired | max_claims | closed
  deriving DecidableEq, Repr

def rejectionReason (consumer : Option Consumer) (now : Instant) : Option RejectionReason :=
  match consumer with
  | none => some .unknown
  | some c =>
      if c.revokedAt.isSome then some .revoked
      else if c.claimExpiresAt.all (· ≤ now) then some .expired
      else if c.claimCount ≥ c.maxClaims then some .max_claims
      else if c.secretPlain.getD "" = "" then some .closed
      else none

/-- True while the claim can still be exchanged. -/
def isClaimOpen (consumer : Consumer) (now : Instant) : Bool :=
  (rejectionReason (some consumer) now).isNone

/-- The row without its plain secret; the hash keeps authenticating it. -/
def Consumer.wiped (c : Consumer) : Consumer := { c with secretPlain := none }

/-- The row `handleClaim` writes on success; the plain secret goes with the
last allowed claim. -/
def claimedConsumer (c : Consumer) (now : Instant) : Consumer :=
  let claimed := { c with claimCount := c.claimCount + 1, claimedAt := some now }
  if claimed.claimCount ≥ claimed.maxClaims then claimed.wiped else claimed

/-- What `handleClaim` writes after reading `consumer`, if anything. -/
def claimWrite (consumer : Option Consumer) (now : Instant) : Option Consumer :=
  match consumer, rejectionReason consumer now with
  | some c, none => some (claimedConsumer c now)
  | some c, some reason =>
      if reason ≠ .closed ∧ c.secretPlain.isSome then some c.wiped else none
  | none, _ => none

/-- The read of `handleClaim`. -/
def claimRead (t : ConsumerTable) (claimId : String) : Option Consumer :=
  if claimId = "" then none else ConsumerTable.getConsumerByClaimId t claimId

/-! ## Basic authentication -/

/-- What `basicAuth` answers before it touches the consumer. -/
inductive AuthOutcome
  | forbidden
  | accepted (consumer : Consumer)
  deriving DecidableEq, Repr

/-- The read and the verification of `basicAuth`: the consumer must exist,
must not be revoked, and its stored hash must verify the secret. -/
def basicAuth (hasher : SecretHasher) (t : ConsumerTable) (user secret : String) :
    AuthOutcome :=
  match ConsumerTable.getConsumerByBasicUser t user with
  | none => .forbidden
  | some c =>
      if c.revokedAt.isSome then .forbidden
      else if hasher.verifySecret c.secretHash secret then .accepted c
      else .forbidden

/-- The row `touchConsumer` writes. -/
def touchedConsumer (c : Consumer) (now : Instant) : Consumer :=
  { c with
    lastSeenAt := some now
    firstAuthenticatedAt := some (c.firstAuthenticatedAt.getD now)
    secretPlain := if isClaimOpen c now then c.secretPlain else none }

/-! ## Minting, revoking, sweeping -/

/-- Lower-case `[a-z0-9-]` slug of a label: runs of other characters become
one dash, and dashes are cut from both ends. -/
def slug (host : Host) (label : String) : Except BridgeError String :=
  let alnum (c : Char) : Bool := c.isDigit || ('a' ≤ c && c ≤ 'z')
  let words := (host.toLowerNfkd label).toList.splitBy fun a b => alnum a == alnum b
  let kept := words.filter fun word => word.all alnum
  if kept = [] then .error .emptySlug
  else .ok (String.ofList (['-'].intercalate kept))

/-- The random values one mint draws. -/
structure MintRandoms where
  secret : String
  salt : String
  claimId : String
  basicUserSuffix : String
  deriving DecidableEq, Repr

/-- The row `mintConsumerToken` writes: secret, claim and revocation are
replaced, the user name and the creation time of an existing row are kept. -/
def mintedConsumer (hasher : SecretHasher) (config : ServerConfig) (id label : String)
    (existing : Option Consumer) (randoms : MintRandoms) (now : Instant) : Consumer where
  id
  label
  basicUser := (existing.map (·.basicUser)).getD (id ++ "-" ++ randoms.basicUserSuffix)
  secretHash := hasher.hashSecret randoms.salt randoms.secret
  secretPlain := some randoms.secret
  claimId := some randoms.claimId
  claimExpiresAt := some (now + config.claimTtlMinutes * 60000)
  claimCount := 0
  maxClaims := config.maxClaims
  claimedAt := none
  firstAuthenticatedAt := none
  lastSeenAt := existing.bind (·.lastSeenAt)
  createdAt := (existing.map (·.createdAt)).getD now
  revokedAt := none

/-- The row `revokeConsumer` writes. -/
def revokedConsumer (c : Consumer) (now : Instant) : Consumer :=
  { c with revokedAt := some (c.revokedAt.getD now), secretPlain := none }

/-- The rows `sweepClosedClaims` writes after listing the consumers. -/
def sweepWrites (consumers : List Consumer) (now : Instant) : List Consumer :=
  (consumers.filter fun c => c.secretPlain.isSome && !isClaimOpen c now).map Consumer.wiped

end SimplefinBridge
