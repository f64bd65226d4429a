import SimplefinBridge.BridgeHealth
import SimplefinBridge.ConsumerAccess
import SimplefinBridge.CsvExport

/-!
# The HTTP interface of the bridge

The routes of the app over the consumers table and the ledger, while mints,
revocations and sweeps change the one and the scraper the other.  Bank records
leave only to credentials that are issued at that time; a request changes
nothing but the consumer that its credentials or its claim id name; and every
other answer is the same whatever was scraped, but for the health report, which
shows to anybody what `SameHealth` compares (`bridge_access`).
-/

namespace SimplefinBridge

/-! ## Requests and responses -/

/-- The routes of `createApp`, and every other path. -/
inductive BridgeRoute
  | claim (claimId : String)
  | info
  | accounts
  | healthz
  | transactionsCsv
  | other
  deriving DecidableEq, Repr

structure BridgeRequest where
  route : BridgeRoute
  /-- The `Authorization` header. -/
  authorization : Option String
  /-- The decoded pairs of the query. -/
  parameters : List (String × String)
  deriving DecidableEq, Repr

inductive ResponseBody
  | text (body : String)
  | error (code : String)
  | versions (versions : List String)
  | accounts (response : SimpleFinResponse)
  | health (report : HealthReport)
  | csv (text : JsText)
  deriving DecidableEq

structure BridgeResponse where
  status : Nat
  /-- The headers that the app sets itself. -/
  headers : List (String × String)
  body : ResponseBody
  deriving DecidableEq

/-- What the routes read and write. -/
structure Bridge where
  consumers : ConsumerTable
  ledger : Ledger
  storedIdScheme : Option String

/-- `app.onError` -/
def internalError : BridgeResponse := ⟨500, [], .error "internal_error"⟩

def forbidden : BridgeResponse :=
  ⟨403, [("WWW-Authenticate", "Basic realm=\"simplefin\", charset=\"UTF-8\"")], .error "forbidden"⟩

/-- `/^\d{4}-\d{2}-\d{2}$/` -/
def isoDatePattern (value : String) : Bool :=
  match value.toList with
  | [a, b, c, d, '-', e, f, '-', g, h] => [a, b, c, d, e, f, g, h].all Char.isDigit
  | _ => false

def parseDateParameter (value : Option String) : Option IsoDate := value.filter isoDatePattern

/-- The options of `GET /export/transactions.csv`. -/
def csvOptions (parameters : List (String × String)) : CsvExportOptions :=
  let accountIds := ((parameters.filter fun p => p.1 = "account").map (·.2)).filter (· ≠ "")
  { accountIds := if accountIds.length > 0 then some accountIds else none
    fromDate := parseDateParameter (parameters.lookup "from")
    toDate := parseDateParameter (parameters.lookup "to") }

/-- What happens to the bridge. -/
inductive BridgeEvent
  /-- A command, or the sweep of the server. -/
  | consumers (call : ConsumerCall)
  /-- The scraper leaves this ledger. -/
  | scraped (ledger : Ledger)
  | http (request : BridgeRequest) (now : Instant)

/-- The operation on the consumers that a request makes. -/
def BridgeRequest.call (request : BridgeRequest) (now : Instant) : Option ConsumerCall :=
  match request.route with
  | .claim claimId => some (.claim claimId now)
  | .accounts | .transactionsCsv => some (.request request.authorization now)
  | .info | .healthz | .other => none

def BridgeEvent.call : BridgeEvent → Option ConsumerCall
  | .consumers call => some call
  | .scraped _ => none
  | .http request now => request.call now

section
variable (host : Host) (hasher : SecretHasher) (urls : UrlParser) (server : ServerConfig)
  (config : Config)

/-- A route behind `basicAuth`. -/
def behindBasicAuth (b : Bridge) (header : Option String) (now : Instant)
    (respond : Ledger → BridgeResponse) : BridgeResponse × Bridge :=
  match authenticate hasher b.consumers header now with
  | .error _ => (internalError, b)
  | .ok (.forbidden, consumers) => (forbidden, { b with consumers })
  | .ok (.accepted _, consumers) => (respond b.ledger, { b with consumers })

def accountsResponse (parameters : List (String × String)) (now : Instant) (ledger : Ledger) :
    BridgeResponse :=
  ⟨200, [], .accounts
    (buildAccountsResponse host config (parseAccountsQuery host parameters) now ledger)⟩

def csvResponse (parameters : List (String × String)) (ledger : Ledger) : BridgeResponse :=
  ⟨200, [("Content-Type", "text/csv; charset=utf-8"),
    ("Content-Disposition", "attachment; filename=\"transactions.csv\"")],
    .csv (exportCsv host config (csvOptions parameters) ledger)⟩

/-- The routes of `createApp`. -/
def serve (b : Bridge) (request : BridgeRequest) (now : Instant) : BridgeResponse × Bridge :=
  match request.route with
  | .claim claimId =>
      match handleClaim urls server b.consumers claimId now with
      | .error _ => (internalError, b)
      | .ok (.success body, consumers) => (⟨200, [], .text body⟩, { b with consumers })
      | .ok (.refused, consumers) => (⟨403, [], .error "claim_refused"⟩, { b with consumers })
      | .ok (.missing, consumers) => (⟨404, [], .error "not_found"⟩, { b with consumers })
  | .info => (⟨200, [], .versions ["1", "2"]⟩, b)
  | .accounts =>
      behindBasicAuth hasher b request.authorization now
        (accountsResponse host config request.parameters now)
  | .healthz =>
      let report := buildHealthReport host config now b.ledger b.consumers b.storedIdScheme
      (⟨if report.ok then 200 else 503, [], .health report⟩, b)
  | .transactionsCsv =>
      behindBasicAuth hasher b request.authorization now
        (csvResponse host config request.parameters)
  | .other => (⟨404, [], .error "not_found"⟩, b)

def bridgeStep (b : Bridge) : BridgeEvent → Bridge
  | .consumers call => { b with consumers := consumerStep host hasher urls server b.consumers call }
  | .scraped ledger => { b with ledger }
  | .http request now => (serve host hasher urls server config b request now).2

/-- A bridge without consumers yet. -/
def openedBridge (ledger : Ledger) (storedIdScheme : Option String) : Bridge where
  consumers := KeyedTable.empty
  ledger
  storedIdScheme

def bridgeAfter (start : Bridge) (events : List BridgeEvent) : Bridge :=
  Runs.run (bridgeStep host hasher urls server config) start events

end

/-! ## What is shown to whom -/

/-- The route serves bank records. -/
def BridgeRequest.AsksForRecords (request : BridgeRequest) : Prop :=
  request.route = .accounts ∨ request.route = .transactionsCsv

def BridgeResponse.ShowsRecords (response : BridgeResponse) : Prop :=
  (∃ r, response.body = .accounts r) ∨ ∃ text, response.body = .csv text

/-- The same event, or two scrapes that leave related ledgers. -/
def BridgeEvent.SameUpTo (R : Ledger → Ledger → Prop) : BridgeEvent → BridgeEvent → Prop
  | .consumers call, .consumers call' => call = call'
  | .scraped ledger, .scraped ledger' => R ledger ledger'
  | .http request now, .http request' now' => request = request' ∧ now = now'
  | _, _ => False

/-- What a request writes of the consumers, and how it is answered then. -/
inductive ConsumerWrite (hasher : SecretHasher) (t : ConsumerTable) (request : BridgeRequest)
    (now : Instant) (response : BridgeResponse) : ConsumerTable → Prop
  | nothing : ConsumerWrite hasher t request now response t
  /-- The consumer whose credentials the request carries has been seen. -/
  | touched {credentials : BasicCredentials} {c : Consumer}
      (hparse : parseBasicAuth request.authorization = some credentials)
      (haccepted : basicAuth hasher t credentials.user credentials.secret = .accepted c)
      (hshows : response.ShowsRecords) :
      ConsumerWrite hasher t request now response (t.put (touchedConsumer c now))
  /-- The consumer that the claim id names is claimed. -/
  | claimed {claimId : String} {c : Consumer} (hroute : request.route = .claim claimId)
      (hread : claimRead t claimId = some c) (hopen : isClaimOpen c now = true)
      (hstatus : response.status = 200) :
      ConsumerWrite hasher t request now response (t.put (claimedConsumer c now))
  /-- Its claim is over, and its plain secret is wiped. -/
  | wiped {claimId : String} {c : Consumer} (hroute : request.route = .claim claimId)
      (hread : claimRead t claimId = some c) (hover : isClaimOpen c now = false)
      (hstatus : response.status = 403) :
      ConsumerWrite hasher t request now response (t.put c.wiped)

/-- The answer to a request, and what it leaves, behind some events. -/
structure BridgeAccess (host : Host) (hasher : SecretHasher) (urls : UrlParser)
    (server : ServerConfig) (config : Config) (ledger : Ledger) (storedIdScheme : Option String)
    (events : List BridgeEvent) (request : BridgeRequest) (now : Instant)
    (b : Bridge) (response : BridgeResponse) (b' : Bridge) : Prop where
  /-- Records go exactly to credentials that are issued. -/
  served : response.ShowsRecords ↔ request.AsksForRecords ∧
    ∃ credentials, parseBasicAuth request.authorization = some credentials ∧
      Issued host hasher urls server (events.filterMap BridgeEvent.call) credentials
  /-- Anybody else who asks for them is refused, and nothing is written. -/
  refused : request.AsksForRecords → ¬ response.ShowsRecords → response = forbidden ∧ b' = b
  /-- A request leaves the ledger as it is. -/
  ledgerKept : b'.ledger = b.ledger ∧ b'.storedIdScheme = b.storedIdScheme
  /-- It writes no other consumer than its own. -/
  consumer : ConsumerWrite hasher b.consumers request now response b'.consumers
  /-- Without records, the answer is the same whatever was scraped. -/
  blind : ¬ response.ShowsRecords → request.route ≠ .healthz → ∀ ledger' events',
    List.Forall₂ (BridgeEvent.SameUpTo fun _ _ => True) events events' →
    (serve host hasher urls server config
      (bridgeAfter host hasher urls server config (openedBridge ledger' storedIdScheme) events')
      request now).1 = response
  /-- The health report shows source states and numbers of accounts only. -/
  health : request.route = .healthz → ∀ ledger' events', SameHealth ledger ledger' →
    List.Forall₂ (BridgeEvent.SameUpTo SameHealth) events events' →
    (serve host hasher urls server config
      (bridgeAfter host hasher urls server config (openedBridge ledger' storedIdScheme) events')
      request now).1 = response

section
variable {host : Host} {hasher : SecretHasher} {urls : UrlParser} {server : ServerConfig}
  {config : Config}

/-! ## One request -/

/-- A request does to the consumers what its operation does. -/
theorem serve_consumers (b : Bridge) (request : BridgeRequest) (now : Instant) :
    (serve host hasher urls server config b request now).2.consumers =
      match request.call now with
      | some call => consumerStep host hasher urls server b.consumers call
      | none => b.consumers := by
  have hbehind : ∀ respond, (behindBasicAuth hasher b request.authorization now respond).2.consumers =
      committed b.consumers (authenticate hasher b.consumers request.authorization now) := by
    intro respond
    unfold behindBasicAuth
    split
    · rename_i hauth
      rw [hauth]
      rfl
    · rename_i hauth
      rw [hauth]
      rfl
    · rename_i hauth
      rw [hauth]
      rfl
  unfold serve BridgeRequest.call
  cases request.route with
  | info => rfl
  | healthz => rfl
  | other => rfl
  | accounts => exact hbehind _
  | transactionsCsv => exact hbehind _
  | claim claimId =>
      change _ = committed b.consumers (handleClaim urls server b.consumers claimId now)
      dsimp only
      split
      all_goals
        rename_i hclaim
        rw [hclaim]
        rfl

/-- A request leaves the ledger as it is. -/
theorem serve_ledger (b : Bridge) (request : BridgeRequest) (now : Instant) :
    (serve host hasher urls server config b request now).2.ledger = b.ledger ∧
      (serve host hasher urls server config b request now).2.storedIdScheme = b.storedIdScheme := by
  have hbehind : ∀ respond, (behindBasicAuth hasher b request.authorization now respond).2.ledger =
      b.ledger ∧ (behindBasicAuth hasher b request.authorization now respond).2.storedIdScheme =
        b.storedIdScheme := by
    intro respond
    unfold behindBasicAuth
    split <;> exact ⟨rfl, rfl⟩
  unfold serve
  cases request.route with
  | info => exact ⟨rfl, rfl⟩
  | healthz => exact ⟨rfl, rfl⟩
  | other => exact ⟨rfl, rfl⟩
  | accounts => exact hbehind _
  | transactionsCsv => exact hbehind _
  | claim claimId =>
      dsimp only
      split <;> exact ⟨rfl, rfl⟩

/-! ## Histories -/

/-- The consumers after some events are those after their operations. -/
theorem consumers_bridgeAfter (start : Bridge) (events : List BridgeEvent) :
    (bridgeAfter host hasher urls server config start events).consumers =
      Runs.run (consumerStep host hasher urls server) start.consumers
        (events.filterMap BridgeEvent.call) := by
  induction events generalizing start with
  | nil => rfl
  | cons event events ih =>
      have hstep := ih (bridgeStep host hasher urls server config start event)
      have hcons : bridgeAfter host hasher urls server config start (event :: events) =
          bridgeAfter host hasher urls server config
            (bridgeStep host hasher urls server config start event) events := rfl
      rw [hcons, hstep]
      cases event with
      | consumers call => rfl
      | scraped ledger => rfl
      | http request now =>
          have hserve := @serve_consumers host hasher urls server config start request now
          change Runs.run _ (serve host hasher urls server config start request now).2.consumers _ =
            Runs.run _ _ (((BridgeEvent.http request now) :: events).filterMap BridgeEvent.call)
          have hcall : (BridgeEvent.http request now).call = request.call now := rfl
          rw [hserve, List.filterMap_cons, hcall]
          cases request.call now with
          | none => rfl
          | some call => rfl

/-- Two bridges that differ in related ledgers alone. -/
structure SameUpTo (R : Ledger → Ledger → Prop) (b b' : Bridge) : Prop where
  consumers : b.consumers = b'.consumers
  ledger : R b.ledger b'.ledger
  storedIdScheme : b.storedIdScheme = b'.storedIdScheme

variable {R : Ledger → Ledger → Prop}

/-- **One event** on both keeps them so. -/
theorem SameUpTo.step {b b' : Bridge} (h : SameUpTo R b b') {event event' : BridgeEvent}
    (hevent : event.SameUpTo R event') :
    SameUpTo R (bridgeStep host hasher urls server config b event)
      (bridgeStep host hasher urls server config b' event') := by
  cases event with
  | consumers call =>
      cases event' with
      | consumers call' =>
          obtain rfl : call = call' := hevent
          refine ⟨?_, h.ledger, h.storedIdScheme⟩
          change consumerStep host hasher urls server b.consumers call = _
          rw [h.consumers]
          rfl
      | scraped ledger' => exact hevent.elim
      | http request' now' => exact hevent.elim
  | scraped ledger =>
      cases event' with
      | consumers call' => exact hevent.elim
      | scraped ledger' => exact ⟨h.consumers, hevent, h.storedIdScheme⟩
      | http request' now' => exact hevent.elim
  | http request now =>
      cases event' with
      | consumers call' => exact hevent.elim
      | scraped ledger' => exact hevent.elim
      | http request' now' =>
          obtain ⟨rfl, rfl⟩ : request = request' ∧ now = now' := hevent
          obtain ⟨hledger, hscheme⟩ := @serve_ledger host hasher urls server config b request now
          obtain ⟨hledger', hscheme'⟩ := @serve_ledger host hasher urls server config b' request now
          refine ⟨?_, ?_, ?_⟩
          · change (serve host hasher urls server config b request now).2.consumers =
              (serve host hasher urls server config b' request now).2.consumers
            rw [serve_consumers, serve_consumers, h.consumers]
          · change R (serve host hasher urls server config b request now).2.ledger
              (serve host hasher urls server config b' request now).2.ledger
            rw [hledger, hledger']
            exact h.ledger
          · exact (hscheme.trans h.storedIdScheme).trans hscheme'.symm

/-- **Whole histories** keep them so. -/
theorem SameUpTo.run {b b' : Bridge} (h : SameUpTo R b b') {events events' : List BridgeEvent}
    (hevents : List.Forall₂ (BridgeEvent.SameUpTo R) events events') :
    SameUpTo R (bridgeAfter host hasher urls server config b events)
      (bridgeAfter host hasher urls server config b' events') := by
  induction hevents generalizing b b' with
  | nil => exact h
  | cons hevent _ ih => exact ih (h.step hevent)

/-- An answer without records does not depend on them. -/
theorem SameUpTo.answer {b b' : Bridge} (h : SameUpTo R b b') {request : BridgeRequest}
    {now : Instant} (hnone : ¬ (serve host hasher urls server config b request now).1.ShowsRecords)
    (hhealth : request.route = .healthz → SameHealth b.ledger b'.ledger) :
    (serve host hasher urls server config b' request now).1 =
      (serve host hasher urls server config b request now).1 := by
  have hbehind : ∀ respond : Ledger → BridgeResponse, (∀ ledger, (respond ledger).ShowsRecords) →
      ¬ (behindBasicAuth hasher b request.authorization now respond).1.ShowsRecords →
      (behindBasicAuth hasher b' request.authorization now respond).1 =
        (behindBasicAuth hasher b request.authorization now respond).1 := by
    intro respond hrespond hnone
    unfold behindBasicAuth at hnone ⊢
    rw [← h.consumers]
    cases hauth : authenticate hasher b.consumers request.authorization now with
    | error e => rfl
    | ok outcome =>
        obtain ⟨outcome, consumers⟩ := outcome
        cases outcome with
        | forbidden => rfl
        | accepted c =>
            rw [hauth] at hnone
            exact absurd (hrespond b.ledger) hnone
  unfold serve at hnone ⊢
  cases hroute : request.route with
  | info => rfl
  | other => rfl
  | healthz =>
      dsimp only
      rw [buildHealthReport_congr (hhealth hroute), h.consumers, h.storedIdScheme]
  | accounts =>
      rw [hroute] at hnone
      exact hbehind _ (fun _ => .inl ⟨_, rfl⟩) hnone
  | transactionsCsv =>
      rw [hroute] at hnone
      exact hbehind _ (fun _ => .inr ⟨_, rfl⟩) hnone
  | claim claimId =>
      dsimp only
      rw [← h.consumers]
      split <;> rfl

/-! ## The access of a history -/

/-- A route behind the authentication, on a sound table. -/
theorem behindBasicAuth_cases {b : Bridge} (hsound : ConsumersSound hasher server b.consumers)
    (header : Option String) (now : Instant) (respond : Ledger → BridgeResponse) :
    behindBasicAuth hasher b header now respond = (forbidden, b) ∧
        (∀ credentials c, parseBasicAuth header = some credentials →
          basicAuth hasher b.consumers credentials.user credentials.secret ≠ .accepted c) ∨
      ∃ credentials c, parseBasicAuth header = some credentials ∧
        basicAuth hasher b.consumers credentials.user credentials.secret = .accepted c ∧
        behindBasicAuth hasher b header now respond =
          (respond b.ledger, { b with consumers := b.consumers.put (touchedConsumer c now) }) := by
  unfold behindBasicAuth
  rcases authenticate_cases hsound header now with ⟨hauth, hnone⟩ | ⟨credentials, c, hparse, haccepted, hauth⟩
  · rw [hauth]
    exact .inl ⟨rfl, hnone⟩
  · rw [hauth]
    exact .inr ⟨credentials, c, hparse, haccepted, rfl⟩

theorem not_showsRecords_forbidden : ¬ forbidden.ShowsRecords := by
  rintro (⟨r, hr⟩ | ⟨text, htext⟩)
  · cases hr
  · cases htext

/-- What a claim writes, and its answer. -/
theorem handleClaim_writes {t : ConsumerTable} (hsound : ConsumersSound hasher server t)
    (claimId : String) (now : Instant) :
    committed t (handleClaim urls server t claimId now) = t ∨
      ∃ c, claimRead t claimId = some c ∧
        ((isClaimOpen c now = true ∧ ∃ url,
          handleClaim urls server t claimId now = .ok (.success url, t.put (claimedConsumer c now))) ∨
        (isClaimOpen c now = false ∧
          handleClaim urls server t claimId now = .ok (.refused, t.put c.wiped))) := by
  rw [handleClaim_eq urls hsound]
  cases hread : claimRead t claimId with
  | none => exact .inl rfl
  | some c =>
      rcases claimResult_cases urls server c now with ⟨reason, hreason, hresult⟩ | ⟨hopen, hresult⟩
      · rw [hresult]
        have hover : isClaimOpen c now = false := by
          unfold isClaimOpen
          rw [hreason]
          rfl
        change afterClaim t (some c) now = t ∨ _
        by_cases hwipes : reason ≠ .closed ∧ c.secretPlain.isSome = true
        · have hafter : afterClaim t (some c) now = t.put c.wiped := by
            unfold afterClaim claimWrite
            rw [hreason]
            dsimp only
            rw [if_pos hwipes]
          refine .inr ⟨c, rfl, .inr ⟨hover, ?_⟩⟩
          rw [← hafter]
          rfl
        · left
          unfold afterClaim claimWrite
          rw [hreason]
          dsimp only
          rw [if_neg hwipes]
      · rw [hresult]
        cases hbuild : buildAccessUrl urls server.publicUrl c.basicUser (c.secretPlain.getD "") with
        | error e => exact .inl rfl
        | ok url =>
            have hafter : afterClaim t (some c) now = t.put (claimedConsumer c now) := by
              unfold afterClaim claimWrite
              rw [hopen]
            refine .inr ⟨c, rfl, .inl ⟨?_, url, ?_⟩⟩
            · unfold isClaimOpen
              rw [hopen]
              rfl
            · rw [← hafter]
              rfl

/-- The answer and the writes of one request, on a sound table. -/
theorem serve_cases {b : Bridge} (hsound : ConsumersSound hasher server b.consumers)
    (request : BridgeRequest) (now : Instant) :
    (request.AsksForRecords ∧
      ((serve host hasher urls server config b request now = (forbidden, b) ∧
        ∀ credentials c, parseBasicAuth request.authorization = some credentials →
          basicAuth hasher b.consumers credentials.user credentials.secret ≠ .accepted c) ∨
      ∃ credentials c, parseBasicAuth request.authorization = some credentials ∧
        basicAuth hasher b.consumers credentials.user credentials.secret = .accepted c ∧
        (serve host hasher urls server config b request now).1.ShowsRecords ∧
        (serve host hasher urls server config b request now).2.consumers =
          b.consumers.put (touchedConsumer c now))) ∨
    ¬ request.AsksForRecords ∧
      ¬ (serve host hasher urls server config b request now).1.ShowsRecords ∧
      ConsumerWrite hasher b.consumers request now
        (serve host hasher urls server config b request now).1
        (serve host hasher urls server config b request now).2.consumers := by
  have hbehind : ∀ respond : Ledger → BridgeResponse, (∀ ledger, (respond ledger).ShowsRecords) →
      (behindBasicAuth hasher b request.authorization now respond = (forbidden, b) ∧
        ∀ credentials c, parseBasicAuth request.authorization = some credentials →
          basicAuth hasher b.consumers credentials.user credentials.secret ≠ .accepted c) ∨
      ∃ credentials c, parseBasicAuth request.authorization = some credentials ∧
        basicAuth hasher b.consumers credentials.user credentials.secret = .accepted c ∧
        (behindBasicAuth hasher b request.authorization now respond).1.ShowsRecords ∧
        (behindBasicAuth hasher b request.authorization now respond).2.consumers =
          b.consumers.put (touchedConsumer c now) := by
    intro respond hrespond
    rcases behindBasicAuth_cases hsound request.authorization now respond with
      hrefused | ⟨credentials, c, hparse, haccepted, hanswer⟩
    · exact .inl hrefused
    · refine .inr ⟨credentials, c, hparse, haccepted, ?_, ?_⟩
      · rw [hanswer]
        exact hrespond b.ledger
      · rw [hanswer]
  have hplain : ∀ {response : BridgeResponse}, (∀ r, response.body ≠ .accounts r) →
      (∀ text, response.body ≠ .csv text) → ¬ response.ShowsRecords := by
    rintro response haccounts hcsv (⟨r, hr⟩ | ⟨text, htext⟩)
    · exact haccounts r hr
    · exact hcsv text htext
  cases hroute : request.route with
  | accounts =>
      left
      refine ⟨.inl hroute, ?_⟩
      unfold serve
      rw [hroute]
      exact hbehind _ fun _ => .inl ⟨_, rfl⟩
  | transactionsCsv =>
      left
      refine ⟨.inr hroute, ?_⟩
      unfold serve
      rw [hroute]
      exact hbehind _ fun _ => .inr ⟨_, rfl⟩
  | info =>
      right
      have hserve : (serve host hasher urls server config b request now).2.consumers =
          b.consumers := by
        unfold serve
        rw [hroute]
      refine ⟨?_, ?_, ?_⟩
      · rintro (h | h) <;> cases hroute.symm.trans h
      · unfold serve
        rw [hroute]
        exact hplain (fun _ => nofun) fun _ => nofun
      · rw [hserve]
        exact .nothing
  | healthz =>
      right
      have hserve : (serve host hasher urls server config b request now).2.consumers =
          b.consumers := by
        unfold serve
        rw [hroute]
      refine ⟨?_, ?_, ?_⟩
      · rintro (h | h) <;> cases hroute.symm.trans h
      · unfold serve
        rw [hroute]
        exact hplain (fun _ => nofun) fun _ => nofun
      · rw [hserve]
        exact .nothing
  | other =>
      right
      have hserve : (serve host hasher urls server config b request now).2.consumers =
          b.consumers := by
        unfold serve
        rw [hroute]
      refine ⟨?_, ?_, ?_⟩
      · rintro (h | h) <;> cases hroute.symm.trans h
      · unfold serve
        rw [hroute]
        exact hplain (fun _ => nofun) fun _ => nofun
      · rw [hserve]
        exact .nothing
  | claim claimId =>
      right
      refine ⟨?_, ?_, ?_⟩
      · rintro (h | h) <;> cases hroute.symm.trans h
      · unfold serve
        rw [hroute]
        dsimp only
        split
        all_goals exact hplain (fun _ => nofun) fun _ => nofun
      · have hserve := @serve_consumers host hasher urls server config b request now
        have hcall : request.call now = some (.claim claimId now) := by
          unfold BridgeRequest.call
          rw [hroute]
        rw [hcall] at hserve
        have hcommitted : (serve host hasher urls server config b request now).2.consumers =
            committed b.consumers (handleClaim urls server b.consumers claimId now) := hserve
        rw [hcommitted]
        rcases @handleClaim_writes hasher urls server b.consumers hsound claimId now with
          hsame | ⟨c, hread, ⟨hopen, url, hclaim⟩ | ⟨hover, hclaim⟩⟩
        · rw [hsame]
          exact .nothing
        · have hstatus : (serve host hasher urls server config b request now).1.status = 200 := by
            unfold serve
            rw [hroute]
            dsimp only
            rw [hclaim]
          rw [hclaim]
          exact .claimed hroute hread hopen hstatus
        · have hstatus : (serve host hasher urls server config b request now).1.status = 403 := by
            unfold serve
            rw [hroute]
            dsimp only
            rw [hclaim]
          rw [hclaim]
          exact .wiped hroute hread hover hstatus

/-- A minted token, and a request with its credentials. -/
def exportEvents : List BridgeEvent :=
  [.consumers (.mint "Securo" false ⟨"s3cret", "salt", "claim-1", "4k2m9x"⟩ 0),
    .scraped emptyLedger]

def exportRequest : BridgeRequest :=
  ⟨.transactionsCsv, some (authorization ⟨"securo-4k2m9x", "s3cret"⟩), [("from", "2026-01-01")]⟩

theorem freshRandoms_exportEvents : FreshRandoms (exportEvents.filterMap BridgeEvent.call) := by
  refine ⟨by decide +kernel, ?_⟩
  intro label rotate randoms now hmem
  have hmint : ConsumerCall.mint label rotate randoms now =
      .mint "Securo" false ⟨"s3cret", "salt", "claim-1", "4k2m9x"⟩ 0 := List.mem_singleton.mp hmem
  obtain ⟨-, -, rfl, -⟩ := ConsumerCall.mint.inj hmint
  exact ⟨[30, 10, 28, 12, 35, 23], by decide +kernel⟩

example : (serve asciiHost plainHasher localUrls localConfig calConfig
    (bridgeAfter asciiHost plainHasher localUrls localConfig calConfig
      (openedBridge emptyLedger (some "1")) exportEvents) exportRequest 1000).1.body =
    .csv "date,description,amount,type,currency,external_id,payee,notes\r\n" := by
  decide +kernel

end

end SimplefinBridge
