import SimplefinBridge.FeedReadability
import SimplefinBridge.InvestmentRouters

/-!
# Who reaches the investments

What a request to the investment routes can learn and do, over every run of the
runtime with its timers, collectors and requests in any order.
-/

namespace SimplefinBridge

open InvestmentRuntime

/-! ## Bodies -/

/-- White space at the front is skipped. -/
theorem skipSpaces_append {spaces rest : List Char} (hspaces : ∀ c ∈ spaces, isJsSpace c = true)
    (hrest : ∀ c, rest.head? = some c → isJsSpace c = false) : skipSpaces (spaces ++ rest) = rest := by
  unfold skipSpaces
  rw [List.dropWhile_append_of_pos hspaces]
  cases rest with
  | nil => rfl
  | cons c rest => exact List.dropWhile_cons_of_neg (by rw [hrest c rfl]; exact Bool.false_ne_true)

/-- The spaces that are skipped. -/
theorem skipSpaces_eq (text : List Char) :
    ∃ spaces, (∀ c ∈ spaces, isJsSpace c = true) ∧ text = spaces ++ skipSpaces text :=
  ⟨text.takeWhile isJsSpace, fun _ hc => List.mem_takeWhile_imp hc, List.takeWhile_append_dropWhile.symm⟩

/-- A text that begins with a literal. -/
theorem expectText_eq_some {literal text rest : List Char} :
    expectText literal text = some rest ↔ text = literal ++ rest := by
  unfold expectText
  constructor
  · intro h
    split_ifs at h with hprefix
    obtain ⟨tail, rfl⟩ := List.isPrefixOf_iff_prefix.mp hprefix
    rw [← Option.some.inj h, List.drop_left]
  · rintro rfl
    rw [if_pos (List.isPrefixOf_iff_prefix.mpr (List.prefix_append literal rest)), List.drop_left]

/-- What the expression for the body of a submission matches. -/
def SubmitsCode (body : List Char) (code : String) : Prop :=
  (code.toList.length = 6 ∧ ∀ c ∈ code.toList, c.isDigit = true) ∧
    ∃ s₁ s₂ s₃ s₄ s₅ s₆ : List Char, (∀ s ∈ [s₁, s₂, s₃, s₄, s₅, s₆], ∀ c ∈ s, isJsSpace c = true) ∧
      body = s₁ ++ '\x7b' :: (s₂ ++ ("\"code\"".toList ++ (s₃ ++ ':' :: (s₄ ++ '"' ::
        (code.toList ++ '"' :: (s₅ ++ '\x7d' :: s₆))))))

/-- **The body of a submission** is read as the expression matches it. -/
theorem submittedCode_eq_some {body : List Char} {code : String} :
    submittedCode body = some code ↔ SubmitsCode body code := by
  unfold submittedCode SubmitsCode
  constructor
  · intro h
    obtain ⟨r₁, h₁, h⟩ := Option.bind_eq_some_iff.mp h
    obtain ⟨r₂, h₂, h⟩ := Option.bind_eq_some_iff.mp h
    obtain ⟨r₃, h₃, h⟩ := Option.bind_eq_some_iff.mp h
    obtain ⟨r₄, h₄, h⟩ := Option.bind_eq_some_iff.mp h
    obtain ⟨r₅, h₅, h⟩ := Option.bind_eq_some_iff.mp h
    obtain ⟨r₆, h₆, h⟩ := Option.bind_eq_some_iff.mp h
    split_ifs at h with hend
    obtain ⟨hrest, hlength, hdigits⟩ := hend
    rw [← Option.some.inj h, String.toList_ofList]
    refine ⟨⟨hlength, List.all_eq_true.mp hdigits⟩, ?_⟩
    obtain ⟨s₁, hs₁, e₁⟩ := skipSpaces_eq body
    obtain ⟨s₂, hs₂, e₂⟩ := skipSpaces_eq r₁
    obtain ⟨s₃, hs₃, e₃⟩ := skipSpaces_eq r₂
    obtain ⟨s₄, hs₄, e₄⟩ := skipSpaces_eq r₃
    obtain ⟨s₅, hs₅, e₅⟩ := skipSpaces_eq r₅
    obtain ⟨s₆, hs₆, e₆⟩ := skipSpaces_eq r₆
    refine ⟨s₁, s₂, s₃, s₄, s₅, s₆, ?_, ?_⟩
    · intro s hs
      simp only [List.mem_cons, List.not_mem_nil, or_false] at hs
      rcases hs with rfl | rfl | rfl | rfl | rfl | rfl
      · exact hs₁
      · exact hs₂
      · exact hs₃
      · exact hs₄
      · exact hs₅
      · exact hs₆
    · rw [hrest, List.append_nil] at e₆
      rw [expectText_eq_some] at h₁ h₂ h₃ h₄ h₅ h₆
      rw [h₁] at e₁
      rw [h₂] at e₂
      rw [h₃] at e₃
      rw [h₄] at e₄
      rw [h₆, e₆] at e₅
      have hcode : r₄ = r₄.take 6 ++ r₄.drop 6 := (List.take_append_drop 6 r₄).symm
      rw [h₅, e₅] at hcode
      rw [e₁, e₂, e₃, e₄]
      nth_rewrite 1 [hcode]
      simp only [List.cons_append, List.nil_append]
  · rintro ⟨⟨hlength, hdigits⟩, s₁, s₂, s₃, s₄, s₅, s₆, hspaces, rfl⟩
    have hs : ∀ s, s ∈ [s₁, s₂, s₃, s₄, s₅, s₆] → ∀ c ∈ s, isJsSpace c = true := hspaces
    have hquote : isJsSpace '"' = false := by decide
    have hopen : isJsSpace '\x7b' = false := by decide
    have hclose : isJsSpace '\x7d' = false := by decide
    have hcolon : isJsSpace ':' = false := by decide
    have hhead : ∀ {c : Char} {rest : List Char}, isJsSpace c = false →
        ∀ d, (c :: rest).head? = some d → isJsSpace d = false := by
      intro c rest hc d hd
      rw [← Option.some.inj hd]
      exact hc
    have hexpect : ∀ (c : Char) (rest : List Char), expectText [c] (c :: rest) = some rest :=
      fun _ _ => expectText_eq_some.mpr rfl
    have hname : "\"code\"".toList = '"' :: "code\"".toList := by decide
    rw [skipSpaces_append (hs s₁ (by simp)) (hhead hopen)]
    refine Option.bind_eq_some_iff.mpr ⟨_, hexpect '\x7b' _, ?_⟩
    rw [hname, List.cons_append, skipSpaces_append (hs s₂ (by simp)) (hhead hquote)]
    refine Option.bind_eq_some_iff.mpr ⟨s₃ ++ ':' :: (s₄ ++ '"' :: (code.toList ++ '"' ::
      (s₅ ++ '\x7d' :: s₆))), expectText_eq_some.mpr rfl, ?_⟩
    rw [skipSpaces_append (hs s₃ (by simp)) (hhead hcolon)]
    refine Option.bind_eq_some_iff.mpr ⟨_, hexpect ':' _, ?_⟩
    rw [skipSpaces_append (hs s₄ (by simp)) (hhead hquote)]
    refine Option.bind_eq_some_iff.mpr ⟨_, hexpect '"' _, ?_⟩
    dsimp only
    rw [List.drop_left' hlength, List.take_left' hlength]
    refine Option.bind_eq_some_iff.mpr ⟨_, hexpect '"' _, ?_⟩
    rw [skipSpaces_append (hs s₅ (by simp)) (hhead hclose)]
    refine Option.bind_eq_some_iff.mpr ⟨_, hexpect '\x7d' _, ?_⟩
    have hlast : skipSpaces s₆ = [] := by
      have hskip := @skipSpaces_append s₆ [] (hs s₆ (by simp)) nofun
      rwa [List.append_nil] at hskip
    rw [if_pos ⟨hlast, hlength, List.all_eq_true.mpr hdigits⟩, String.ofList_toList]

/-! ## Commands -/

/-- The command is one that the runtime expects. -/
def ControlCommand.WellFormed (host : Host) (request : InvestmentRequest) : ControlCommand → Prop
  | .refresh provider => provider = request.provider.getD "" ∧ request.endpoint = .refresh
  | .start provider requestId => provider = request.provider.getD "" ∧ ∃ id,
      requestedId request.body = some id ∧ host.isUuid id = true ∧ requestId = host.toLowerCase id
  | .submit provider challengeId code => provider = request.provider.getD "" ∧ ∃ id,
      request.endpoint = .submitCode id ∧ host.isUuid id = true ∧ challengeId = host.toLowerCase id ∧
        SubmitsCode request.body code ∧ isSmsCode code = true
  | .cancel provider challengeId => provider = request.provider.getD "" ∧ ∃ id,
      request.endpoint = .cancelRecovery id ∧ host.isUuid id = true ∧ challengeId = host.toLowerCase id

/-- The status and unknown paths spell no command. -/
theorem controlCommand_endpoint {host : Host} {request : InvestmentRequest} {command : ControlCommand}
    (h : controlCommand host request = some command) :
    request.endpoint ≠ .status ∧ request.endpoint ≠ .otherControl := by
  have hnone : ∀ endpoint, request.endpoint = endpoint →
      (endpoint = .status ∨ endpoint = .otherControl) → False := by
    intro endpoint hendpoint hcases
    unfold controlCommand at h
    dsimp only at h
    rw [hendpoint] at h
    by_cases hsize : 128 < (TextCodecs.utf8Encode request.body).length
    · rw [if_pos hsize] at h
      cases h
    · rw [if_neg hsize] at h
      rcases hcases with rfl | rfl
      · cases h
      · cases h
  exact ⟨fun hstatus => hnone _ hstatus (.inl rfl), fun hother => hnone _ hother (.inr rfl)⟩

/-- **What a body spells** is a command that the runtime expects. -/
theorem controlCommand_wellFormed {host : Host} {request : InvestmentRequest} {command : ControlCommand}
    (h : controlCommand host request = some command) : command.WellFormed host request := by
  unfold controlCommand at h
  dsimp only at h
  by_cases hsize : 128 < (TextCodecs.utf8Encode request.body).length
  · rw [if_pos hsize] at h
    cases h
  rw [if_neg hsize] at h
  cases hendpoint : request.endpoint with
  | feed =>
      rw [hendpoint] at h
      cases h
  | sessionStatus =>
      rw [hendpoint] at h
      cases h
  | status =>
      rw [hendpoint] at h
      cases h
  | otherControl =>
      rw [hendpoint] at h
      cases h
  | refresh =>
      rw [hendpoint] at h
      dsimp only at h
      split_ifs at h with hbody
      rw [← Option.some.inj h]
      exact ⟨rfl, hendpoint⟩
  | startRecovery =>
      rw [hendpoint] at h
      obtain ⟨id, hid, hcommand⟩ := Option.map_eq_some_iff.mp h
      obtain ⟨hread, huuid⟩ := Option.filter_eq_some_iff.mp hid
      rw [← hcommand]
      exact ⟨rfl, id, hread, huuid, rfl⟩
  | submitCode challengeId =>
      rw [hendpoint] at h
      dsimp only at h
      split_ifs at h with huuid
      obtain ⟨code, hcode, hcommand⟩ := Option.map_eq_some_iff.mp h
      have hsubmits := submittedCode_eq_some.mp hcode
      rw [← hcommand]
      refine ⟨rfl, challengeId, hendpoint, huuid, rfl, hsubmits, ?_⟩
      unfold isSmsCode
      rw [Bool.and_eq_true, decide_eq_true_eq, List.all_eq_true]
      exact hsubmits.1
  | cancelRecovery challengeId =>
      rw [hendpoint] at h
      dsimp only at h
      split_ifs at h with huuid
      rw [← Option.some.inj h]
      exact ⟨rfl, challengeId, hendpoint, huuid.1, rfl⟩

/-! ## Capabilities -/

/-- A bearer token comes behind its scheme. -/
theorem bearerToken_eq_some {header token : String} (h : bearerToken header = some token) :
    (header.toList.take 7).map Char.toLower = "bearer ".toList := by
  unfold bearerToken at h
  dsimp only at h
  split_ifs at h with hbearer
  exact hbearer.1

/-- The first word of a header that starts with a word and a space. -/
theorem headerWords_head {word rest : List Char} (hne : word ≠ [])
    (hword : ∀ c ∈ word, isJsSpace c = false) :
    (headerWords (String.ofList (word ++ ' ' :: rest))).head? = some word := by
  unfold headerWords
  rw [String.toList_ofList, List.splitOnP_append_cons_of_forall_mem hword _ (by decide +kernel)]
  rw [List.filter_cons_of_pos (by simpa using hne)]
  rfl

/-- Upper-case letters are no spaces. -/
theorem isJsSpace_upper : ∀ n < 91, 65 ≤ n → isJsSpace (Char.ofNat n) = false := by decide +kernel

/-- What has a lower case of its own is an upper-case letter. -/
theorem toLower_cases (c : Char) :
    c.toLower = c ∨ 65 ≤ c.toNat ∧ c.toNat ≤ 90 ∧ c.toLower.toNat = c.toNat + 32 := by
  unfold Char.toLower
  by_cases hupper : c.val ≥ 'A'.val ∧ c.val ≤ 'Z'.val
  · right
    rw [dif_pos hupper]
    obtain ⟨hlow, hhigh⟩ := hupper
    have hlow' : 65 ≤ c.toNat := hlow
    have hhigh' : c.toNat ≤ 90 := hhigh
    refine ⟨hlow', hhigh', ?_⟩
    change (c.val + ('a'.val - 'A'.val)).toNat = c.toNat + 32
    rw [UInt32.toNat_add]
    have hsmall : c.val.toNat = c.toNat := rfl
    have hstep : ('a'.val - 'A'.val).toNat = 32 := by decide
    rw [hsmall, hstep]
    omega
  · left
    exact dif_neg hupper

/-- White space has no case. -/
theorem isJsSpace_toLower (c : Char) : isJsSpace c.toLower = true → c.toLower = c := by
  intro hspace
  rcases toLower_cases c with hsame | ⟨hlow, hhigh, hlower⟩
  · exact hsame
  · exfalso
    have hnone : ∀ n < 123, 97 ≤ n → isJsSpace (Char.ofNat n) = false := by decide +kernel
    have hletter := hnone c.toLower.toNat (by omega) (by omega)
    rw [Char.ofNat_toNat, hspace] at hletter
    cases hletter

/-- So it is its own lower case. -/
theorem toLower_of_space {c : Char} (h : isJsSpace c = true) : c.toLower = c := by
  rcases toLower_cases c with hsame | ⟨hlow, hhigh, -⟩
  · exact hsame
  · have hletter := isJsSpace_upper c.toNat (by omega) hlow
    rw [Char.ofNat_toNat, h] at hletter
    cases hletter

/-- A header is no credential of a consumer and bearer of a token at once. -/
theorem bearerToken_of_basic {header : String} {credentials : BasicCredentials}
    (h : parseBasicAuth (some header) = some credentials) : bearerToken header = none := by
  by_contra hsome
  obtain ⟨token, htoken⟩ := Option.ne_none_iff_exists'.mp hsome
  have hbearer := bearerToken_eq_some htoken
  have hparts : "bearer ".toList = "bearer".toList ++ [' '] := by decide
  rw [hparts] at hbearer
  obtain ⟨word, space, hsplit, hword, hspace⟩ := List.map_eq_append_iff.mp hbearer
  obtain ⟨c, rest, rfl, hlower, hnil⟩ := List.map_eq_cons_iff.mp hspace
  obtain rfl := List.map_eq_nil_iff.mp hnil
  have hblank : isJsSpace ' ' = true := by decide
  have hc : c = ' ' := by
    rw [← hlower]
    exact (isJsSpace_toLower c (by rw [hlower]; exact hblank)).symm
  have hletters : ∀ d ∈ word, isJsSpace d = false := by
    intro d hd
    by_contra hspaced
    rw [Bool.not_eq_false] at hspaced
    have hmem : d.toLower ∈ "bearer".toList := by
      rw [← hword]
      exact List.mem_map_of_mem hd
    rw [toLower_of_space hspaced] at hmem
    have hnone : ∀ e ∈ "bearer".toList, isJsSpace e = false := forall_char_of_all (by decide)
    rw [hnone d hmem] at hspaced
    cases hspaced
  have hne : word ≠ [] := by
    rintro rfl
    cases hword
  have hheader : header = String.ofList (word ++ ' ' :: header.toList.drop 7) := by
    have htext := (List.take_append_drop 7 header.toList).symm
    rw [hsplit, hc, List.append_assoc, List.singleton_append] at htext
    rw [← htext, String.ofList_toList]
  have hhead := @headerWords_head word (header.toList.drop 7) hne hletters
  rw [← hheader] at hhead
  unfold parseBasicAuth at h
  dsimp only [Option.map_some, Option.getD_some] at h
  cases hwords : headerWords header with
  | nil =>
      rw [hwords] at h
      cases h
  | cons scheme tail =>
      rw [hwords] at h hhead
      obtain rfl : scheme = word := Option.some.inj hhead
      cases tail with
      | nil => cases h
      | cons other tail =>
          cases tail with
          | cons third tail => cases h
          | nil =>
              dsimp only at h
              rw [if_pos (by rw [hword]; decide)] at h
              cases h

section
variable {ι : Type} {options : RuntimeOptions ι}

/-- Basic credentials are no bearer token. -/
theorem isAuthorized_basic {header : Option String} {credentials : BasicCredentials}
    (h : parseBasicAuth header = some credentials) (token : Option String) :
    isAuthorized options token header = false := by
  cases header with
  | none => rfl
  | some header =>
      unfold isAuthorized
      rw [Option.bind_some, bearerToken_of_basic h]
      rfl

/-- No token is good for both routers. -/
theorem not_both_authorized {header : Option String} (hconfigured : controlConfigured options = true)
    (hcontrol : isAuthorized options options.controlToken header = true) :
    isAuthorized options options.readToken header = false := by
  unfold controlConfigured at hconfigured
  unfold isAuthorized at hcontrol ⊢
  cases hbearer : header.bind bearerToken with
  | none => rfl
  | some presented =>
      rw [hbearer] at hcontrol
      have hdigest : options.host.sha256 presented =
          options.host.sha256 (options.controlToken.getD "") := of_decide_eq_true hcontrol
      rw [Bool.and_eq_true, decide_eq_true_eq] at hconfigured
      exact decide_eq_false (by rw [hdigest]; exact hconfigured.2)

/-! ## The feed -/

/-- A session that is reported as verified has been seen alive, in the past and
not long ago, and has not expired. -/
def SessionReport.Honest (report : SessionReport) (now : Instant) (intervalMinutes : Nat) : Prop :=
  report.state.status = .active ∧ ∃ checked expires,
    report.state.lastCheckedAt.bind dateParse = some checked ∧ checked ≤ now ∧
    report.state.expiresAt.bind dateParse = some expires ∧ now < expires ∧
    (0 < intervalMinutes → now - checked ≤ intervalMinutes * 60000)

/-- The times of a session are times. -/
def ClalSessionState.Dated (state : ClalSessionState) : Prop :=
  state.lastCheckedAt.all isTimestamp = true ∧ state.expiresAt.all isTimestamp = true

/-- A session that is read has readable dates. -/
theorem readSession_dated {stored : Option ClalSessionState} {state : Option ClalSessionState}
    (h : readSession stored = .ok state) : (state.getD unknownSession).Dated := by
  cases stored with
  | none =>
      rw [← Except.ok.inj h]
      exact ⟨rfl, rfl⟩
  | some stored =>
      unfold readSession parseSessionState at h
      dsimp only at h
      split_ifs at h with hvalid
      · rw [← Except.ok.inj h]
        rw [Bool.and_eq_true, Bool.and_eq_true] at hvalid
        exact ⟨hvalid.1.1, hvalid.2⟩
      · cases h

/-- So has the session of the store. -/
theorem getSessionState_dated {s s' : Statements.Session InvestmentDb} {state : ClalSessionState}
    (h : getSessionState s = .ok state s') : state.Dated := by
  unfold getSessionState at h
  obtain ⟨stored, mid, hselect, hreturn⟩ := Transactional.bind_ok.mp h
  obtain ⟨rfl, -⟩ := Transactional.pure_ok.mp hreturn
  have hread := (Statements.computes_select _).returns s stored mid hselect
  cases hstored : readSession s.store.sessionState with
  | ok value =>
      rw [hstored] at hread
      obtain ⟨rfl, -⟩ := Prod.mk.inj (Except.ok.inj hread)
      exact readSession_dated hstored
  | error e =>
      rw [hstored] at hread
      cases hread

/-- A date that the schema accepts can be read. -/
theorem dated_parse {value : Option String} (h : value.all isTimestamp = true) (hsome : value.isSome = true) :
    ∃ instant, value.bind dateParse = some instant := by
  obtain ⟨text, rfl⟩ := Option.isSome_iff_exists.mp hsome
  exact dateParse_isSome h

/-- **A past observation is never presented as a verified session.** -/
theorem getClalSessionStatus_honest {state : ClalSessionState} (h : state.Dated) (now : Instant)
    (intervalMinutes : Nat)
    (hverified : (getClalSessionStatus state now intervalMinutes).verifiedActive = true) :
    (getClalSessionStatus state now intervalMinutes).Honest now intervalMinutes := by
  unfold getClalSessionStatus at hverified
  dsimp only at hverified
  simp only [Bool.and_eq_true, decide_eq_true_eq, Bool.not_eq_true'] at hverified
  obtain ⟨⟨⟨⟨hactive, hchecked⟩, hexpires⟩, hexpired⟩, hoverdue⟩ := hverified
  obtain ⟨expires, hexpiresAt⟩ := dated_parse h.2 hexpires
  cases hcheckedAt : state.lastCheckedAt.bind dateParse with
  | none =>
      rw [hcheckedAt] at hchecked
      cases hchecked
  | some checked =>
  rw [hcheckedAt] at hchecked
  refine ⟨hactive, checked, expires, hcheckedAt, of_decide_eq_true hchecked, hexpiresAt, ?_, ?_⟩
  · rw [hexpiresAt] at hexpired
    exact Int.not_le.mp (of_decide_eq_false hexpired)
  · intro hinterval
    rw [hcheckedAt, Bool.and_eq_false_iff] at hoverdue
    rcases hoverdue with hnone | hrecent
    · exact absurd hinterval (of_decide_eq_false hnone)
    · rw [Bool.or_eq_false_iff] at hrecent
      exact Int.not_lt.mp (of_decide_eq_false hrecent.2)

/-! ## Reading the store -/

/-- The runtime without the refusals that its next statements meet. -/
def calm (w : InvestmentRuntime ι) : InvestmentRuntime ι := w.facing []

/-- An event does not see the faults of the last. -/
theorem runtimeStep_calm (w : InvestmentRuntime ι) (event : RuntimeEvent ι) :
    runtimeStep options w event = runtimeStep options (calm w) event := rfl

/-- A read of the store leaves the runtime as it is; it fails, or shows what the
program has read. -/
theorem readResponse_spec {ε α : Type} {failure : InvestmentResponse}
    {program : EStateM ε (Statements.Session InvestmentDb) α} {present : α → InvestmentBody}
    (hread : Statements.ReadOnly program) (w : InvestmentRuntime ι) :
    calm (readResponse failure program present w).2 = calm w ∧
      ((readResponse failure program present w).1 = failure ∨
        ∃ a session, program w.session = .ok a session ∧
          (readResponse failure program present w).1 = ⟨200, [], present a⟩) := by
  have hstore := hread w.session
  unfold readResponse
  by_cases hclosed : w.storeClosed = true
  · rw [if_pos hclosed]
    exact ⟨rfl, .inl rfl⟩
  rw [if_neg hclosed]
  cases hrun : program w.session with
  | ok a session =>
      rw [hrun] at hstore
      refine ⟨?_, .inr ⟨a, session, rfl, rfl⟩⟩
      change ({ w with session := ⟨session.store, []⟩ } : InvestmentRuntime ι) = _
      have hsame : session.store = w.session.store := hstore
      rw [hsame]
      rfl
  | error e session =>
      rw [hrun] at hstore
      refine ⟨?_, .inl rfl⟩
      change ({ w with session := ⟨session.store, []⟩ } : InvestmentRuntime ι) = _
      have hsame : session.store = w.session.store := hstore
      rw [hsame]
      rfl

/-- The session is only read, -/
theorem readOnly_getSessionState : Statements.ReadOnly getSessionState :=
  (Statements.readOnly_select _).bind fun _ => Statements.readOnly_pure _

/-- and so is the time of the next message, -/
theorem readOnly_getAutomaticSmsNextAllowedAt (now : String) :
    Statements.ReadOnly (getAutomaticSmsNextAllowedAt now) :=
  (Statements.readOnly_ensure _).bind fun _ =>
    (Statements.readOnly_select _).bind fun _ => Statements.readOnly_pure _

/-- the recovery, -/
theorem readOnly_recoveryShown (w : InvestmentRuntime ι) :
    Statements.ReadOnly (recoveryShown options w) := by
  unfold recoveryShown
  cases w.currentRecovery with
  | some r => exact Statements.readOnly_pure _
  | none => exact (Statements.readOnly_select _).bind fun _ => Statements.readOnly_pure _

/-- the source -/
theorem readOnly_readSource (now : Instant) : Statements.ReadOnly (readSource options now) :=
  (readOnly_getFeed _ _ _ _).bind fun _ => Statements.readOnly_pure _

/-- and the whole status. -/
theorem readOnly_controlStatus (health : GoogleMessagesHealth) (now : Instant) (w : InvestmentRuntime ι) :
    Statements.ReadOnly (controlStatus options health now w) :=
  ((readOnly_getAutomaticSmsNextAllowedAt _).adaptExcept _).bind fun _ =>
    (readOnly_readSource _).bind fun _ =>
      (readOnly_getSessionState.adaptExcept _).bind fun _ =>
        ((readOnly_recoveryShown w).adaptExcept _).bind fun _ => Statements.readOnly_pure _

/-! ## What the status is made of -/

/-- The stores differ in the records of the investments alone, and in what is
kept of their history. -/
structure SameOutsideRecords (db db' : InvestmentDb) : Prop where
  sourceState : db.sourceState = db'.sourceState
  sessionState : db.sessionState = db'.sessionState
  automaticSmsAttempts : db.automaticSmsAttempts = db'.automaticSmsAttempts
  controlRefreshAttempts : db.controlRefreshAttempts = db'.controlRefreshAttempts
  recoveryRequests : db.recoveryRequests = db'.recoveryRequests

/-- The next message does not depend on records, -/
theorem readsAlike_getAutomaticSmsNextAllowedAt (now : String) :
    Statements.ReadsAlike SameOutsideRecords (getAutomaticSmsNextAllowedAt now) :=
  (Statements.readsAlike_ensure _).bind (Statements.readOnly_ensure _) fun _ =>
    (Statements.readsAlike_select fun _ _ hsame => by rw [hsame.automaticSmsAttempts]).bind
      (Statements.readOnly_select _) fun _ => Statements.readsAlike_pure _

/-- nor does the session, -/
theorem readsAlike_getSessionState : Statements.ReadsAlike SameOutsideRecords getSessionState :=
  (Statements.readsAlike_select fun _ _ hsame => by rw [hsame.sessionState]).bind
    (Statements.readOnly_select _) fun _ => Statements.readsAlike_pure _

/-- the recovery -/
theorem readsAlike_recoveryShown (w : InvestmentRuntime ι) :
    Statements.ReadsAlike SameOutsideRecords (recoveryShown options w) := by
  unfold recoveryShown
  cases w.currentRecovery with
  | some r => exact Statements.readsAlike_pure _
  | none =>
      exact (Statements.readsAlike_select fun _ _ hsame => by rw [hsame.recoveryRequests]).bind
        (Statements.readOnly_select _) fun _ => Statements.readsAlike_pure _

/-- The source of a feed is the stored state. -/
theorem readSource_ok {now : Instant} {source : InvestmentSourceState}
    {s s' : Statements.Session InvestmentDb} (h : readSource options now s = .ok source s') :
    ∃ state, s.store.readState options.provider = .ok state ∧
      source = { state with staleAfterHours := options.staleHours } := by
  obtain ⟨feed, mid, hfeed, hreturn⟩ := Transactional.bind_ok.mp h
  obtain ⟨⟨rows, state⟩, before, hread, hbuild⟩ := Transactional.bind_ok.mp hfeed
  have hcomputed := (computes_readFeed options.provider).returns _ _ _
    (Transactional.adaptExcept_ok.mp hread)
  change (s.store.readState options.provider).map (fun state =>
    ((s.store.feedRows, state), s.store)) = _ at hcomputed
  change Statements.ensure (buildFeed options.host rows state now options.staleHours) before = _
    at hbuild
  rw [(Transactional.pure_ok.mp hreturn).1]
  cases hstate : s.store.readState options.provider with
  | error e =>
      rw [hstate] at hcomputed
      cases hcomputed
  | ok found =>
      rw [hstate] at hcomputed
      obtain ⟨-, rfl⟩ := Prod.mk.inj (Prod.mk.inj (Except.ok.inj hcomputed)).1
      refine ⟨found, rfl, ?_⟩
      cases hmade : buildFeed options.host rows found now options.staleHours with
      | error e =>
          rw [hmade] at hbuild
          cases hbuild
      | ok made =>
          rw [hmade] at hbuild
          cases hbuild
          exact buildFeed_source hmade

/-- or the state of the source. -/
theorem readsAlike_readSource (now : Instant) :
    Statements.ReadsAlike SameOutsideRecords (readSource options now) := by
  intro s t a b s' t' hsame hs ht
  obtain ⟨state, hstate, rfl⟩ := readSource_ok hs
  obtain ⟨state', hstate', rfl⟩ := readSource_ok ht
  have hread : s.store.readState options.provider = t.store.readState options.provider := by
    unfold InvestmentDb.readState InvestmentDb.storedState
    rw [hsame.sourceState]
  rw [← hread, hstate] at hstate'
  rw [Except.ok.inj hstate']

/-- **The status is blind to the records.** -/
theorem readsAlike_controlStatus (health : GoogleMessagesHealth) (now : Instant)
    (w : InvestmentRuntime ι) :
    Statements.ReadsAlike SameOutsideRecords (controlStatus options health now w) :=
  ((readsAlike_getAutomaticSmsNextAllowedAt _).adaptExcept _).bind
    ((readOnly_getAutomaticSmsNextAllowedAt _).adaptExcept _) fun _ =>
    (readsAlike_readSource _).bind (readOnly_readSource _) fun _ =>
      (readsAlike_getSessionState.adaptExcept _).bind (readOnly_getSessionState.adaptExcept _) fun _ =>
        ((readsAlike_recoveryShown w).adaptExcept _).bind ((readOnly_recoveryShown w).adaptExcept _)
          fun _ => Statements.readsAlike_pure _

/-- The runtimes differ in the records of their stores alone, and in the
statements that the database refuses. -/
structure RecordsDiffer (v w : InvestmentRuntime ι) : Prop where
  runtime : v = { w with session := v.session }
  store : SameOutsideRecords v.session.store w.session.store

/-- Of the records, a status that is shown says nothing. -/
def SaysNothingOfRecords (respond : InvestmentRuntime ι → Option InvestmentResponse)
    (w : InvestmentRuntime ι) : Prop :=
  ∀ v, RecordsDiffer v w → ∀ response response', respond w = some response →
    respond v = some response' → ∀ status status', response.body = .status status →
      response'.body = .status status' → status' = status

/-- The report of the session that a body shows. -/
def InvestmentBody.report? : InvestmentBody → Option SessionReport
  | .session report => some report
  | .status shown => some shown.session
  | _ => none

/-- What a request for the status learns, the health of the receiver known. -/
structure StatusShown (options : RuntimeOptions ι) (health : GoogleMessagesHealth) (now : Instant)
    (w : InvestmentRuntime ι) : Prop where
  unchanged : calm (statusResponse options health now w).2 = calm w
  shown : (statusResponse options health now w).1 = controlUnavailable ∨ ∃ status,
    (statusResponse options health now w).1 = ⟨200, [], .status status⟩
  honest : ∀ report, (statusResponse options health now w).1.body.report? = some report →
    report.verifiedActive = true → report.Honest now options.sessionKeepAliveMinutes
  /-- Automatic verification is ready where the receiver is. -/
  ready : ∀ status, (statusResponse options health now w).1.body = .status status →
    status.automaticOtp.ready = true → health.ready = true
  blind : SaysNothingOfRecords (fun v => some (statusResponse options health now v).1) w

/-- The status that a response shows was returned by `controlStatus`. -/
theorem statusResponse_status {health : GoogleMessagesHealth} {now : Instant} {w : InvestmentRuntime ι}
    {status : InvestmentControlStatus}
    (h : (statusResponse options health now w).1.body = .status status) :
    ∃ s', controlStatus options health now w w.session = .ok status s' := by
  have hread : Statements.ReadOnly (controlStatus options health now w) :=
    readOnly_controlStatus health now w
  rcases (readResponse_spec hread w).2 with hfailed | ⟨read, session, hrun, hshown⟩
  · have hbody := congrArg InvestmentResponse.body hfailed
    exact nomatch h.symm.trans hbody
  · have hbody := congrArg InvestmentResponse.body hshown
    obtain rfl := InvestmentBody.status.inj (hbody.symm.trans h)
    exact ⟨session, hrun⟩

/-- A status is made of a session state with the times of one. -/
theorem controlStatus_ok {health : GoogleMessagesHealth} {now : Instant} {w : InvestmentRuntime ι}
    {s s' : Statements.Session InvestmentDb} {status : InvestmentControlStatus}
    (h : controlStatus options health now w s = .ok status s') :
    ∃ nextAllowedAt source state recovery, ClalSessionState.Dated state ∧
      status = presentStatus options health now w nextAllowedAt source state recovery := by
  obtain ⟨nextAllowedAt, s₁, -, h⟩ := Transactional.bind_ok.mp h
  obtain ⟨source, s₂, -, h⟩ := Transactional.bind_ok.mp h
  obtain ⟨state, s₃, hstate, h⟩ := Transactional.bind_ok.mp h
  obtain ⟨recovery, s₄, -, h⟩ := Transactional.bind_ok.mp h
  exact ⟨nextAllowedAt, source, state, recovery,
    getSessionState_dated (Transactional.adaptExcept_ok.mp hstate), (Transactional.pure_ok.mp h).1⟩

/-- **The status**, of any runtime. -/
theorem statusResponse_spec (health : GoogleMessagesHealth) (now : Instant) (w : InvestmentRuntime ι) :
    StatusShown options health now w := by
  have hread : Statements.ReadOnly (controlStatus options health now w) :=
    readOnly_controlStatus health now w
  have hspec := @readResponse_spec ι _ _ controlUnavailable _ .status hread w
  have hmade : ∀ status, (statusResponse options health now w).1.body = .status status →
      ∃ nextAllowedAt source state recovery, ClalSessionState.Dated state ∧
        status = presentStatus options health now w nextAllowedAt source state recovery := by
    intro status hstatus
    obtain ⟨s', hrun⟩ := statusResponse_status hstatus
    exact controlStatus_ok hrun
  refine ⟨hspec.1, ?_, ?_, ?_, ?_⟩
  · rcases hspec.2 with hfailed | ⟨status, session, -, hshown⟩
    · exact .inl hfailed
    · exact .inr ⟨status, hshown⟩
  · intro report hreport hverified
    rcases hspec.2 with hfailed | ⟨status, session, -, hshown⟩
    · have hbody := congrArg InvestmentResponse.body hfailed
      change (statusResponse options health now w).1.body = _ at hbody
      rw [hbody] at hreport
      cases hreport
    · have hbody := congrArg InvestmentResponse.body hshown
      change (statusResponse options health now w).1.body = _ at hbody
      obtain ⟨nextAllowedAt, source, state, recovery, hdated, rfl⟩ := hmade status hbody
      rw [hbody] at hreport
      obtain rfl := Option.some.inj hreport
      exact getClalSessionStatus_honest hdated now _ hverified
  · intro status hstatus hready
    obtain ⟨nextAllowedAt, source, state, recovery, -, rfl⟩ := hmade status hstatus
    exact (Bool.and_eq_true_iff.mp hready).1
  · intro v hdiffer response response' hresponse hresponse' status status' hstatus hstatus'
    obtain rfl := Option.some.inj hresponse
    obtain rfl := Option.some.inj hresponse'
    obtain ⟨s, hrun⟩ := statusResponse_status hstatus
    obtain ⟨s', hrun'⟩ := statusResponse_status hstatus'
    -- the programs are the same, as they read no store but through their session
    have hsame : controlStatus options health now v = controlStatus options health now w := by
      rw [hdiffer.runtime]
      rfl
    rw [hsame] at hrun'
    exact readsAlike_controlStatus health now w _ _ _ _ _ _ hdiffer.store hrun' hrun

/-! ## One request -/

/-- The response shows something of the records. -/
def InvestmentResponse.ShowsFeed (response : InvestmentResponse) : Prop :=
  (∃ feed, response.body = .feed feed) ∨ ∃ report, response.body = .session report

/-- The middleware of the control router lets the request through: it has the
control token, and no page of a browser has sent it. -/
structure InvestmentRequest.Admitted (options : RuntimeOptions ι) (request : InvestmentRequest) :
    Prop where
  configured : controlConfigured options = true
  authorized : isAuthorized options options.controlToken request.authorization = true
  origin : request.origin.all (· = "") = true
  search : request.search = ""

/-- What a request that is received learns and does. -/
structure InvestmentAccess (options : RuntimeOptions ι) (request : InvestmentRequest) (now : Instant)
    (w : InvestmentRuntime ι) : Prop where
  /-- Without a capability it learns nothing of the runtime and changes nothing. -/
  stranger : isAuthorized options options.readToken request.authorization = false →
    isAuthorized options options.controlToken request.authorization = false →
    ∃ refusal, ∀ v, serveInvestments options request now v = (some refusal, v)
  /-- The feed is opened by the read token alone, and only for reading. -/
  feed : ∀ response, (serveInvestments options request now w).1 = some response →
    response.ShowsFeed → isUsableToken options.readToken = true ∧
      isAuthorized options options.readToken request.authorization = true ∧
      calm (serveInvestments options request now w).2 = calm w
  /-- The status is opened by the control token alone, and only for reading. -/
  status : ∀ response, (serveInvestments options request now w).1 = some response →
    ∀ status, response.body = .status status → request.Admitted options ∧
      calm (serveInvestments options request now w).2 = calm w
  waits : (serveInvestments options request now w).1 = none → request.Admitted options ∧
    request.endpoint = .status ∧ (serveInvestments options request now w).2 = w
  honest : ∀ response, (serveInvestments options request now w).1 = some response →
    ∀ report, response.body.report? = some report → report.verifiedActive = true →
      report.Honest now options.sessionKeepAliveMinutes
  blind : SaysNothingOfRecords (fun v => (serveInvestments options request now v).1) w
  /-- The runtime is changed by the control token alone, and by the command that
  the request spells. -/
  command : calm (serveInvestments options request now w).2 = calm w ∨ ∃ command,
    admittedCommand options request = some command ∧ command.WellFormed options.host request ∧
      request.Admitted options ∧
      (serveInvestments options request now w).2 = runtimeAct options command.act now w
  /-- A header is good for one purpose. -/
  apart : (controlConfigured options = true →
      isAuthorized options options.controlToken request.authorization = true →
      isAuthorized options options.readToken request.authorization = false) ∧
    ∀ credentials, parseBasicAuth request.authorization = some credentials →
      ∀ token, isAuthorized options token request.authorization = false

/-! ### The feed -/

/-- A response that shows neither the feed nor the status. -/
def InvestmentResponse.Blank (response : InvestmentResponse) : Prop :=
  ¬ response.ShowsFeed ∧ response.body.report? = none

/-- An error says nothing of the store. -/
theorem blank_error {status : Nat} {headers : List (String × String)} {code : String} :
    InvestmentResponse.Blank ⟨status, headers, .error code⟩ := by
  refine ⟨?_, rfl⟩
  rintro (⟨feed, hfeed⟩ | ⟨report, hreport⟩)
  · cases hfeed
  · cases hreport

/-- Nor is it a status. -/
theorem InvestmentResponse.Blank.not_status {response : InvestmentResponse} (h : response.Blank)
    {status : InvestmentControlStatus} : response.body ≠ .status status := by
  intro hbody
  have hreport := h.2
  rw [hbody] at hreport
  cases hreport

/-- What the routes of the feed do. -/
structure FeedServed (options : RuntimeOptions ι) (request : InvestmentRequest) (now : Instant)
    (w : InvestmentRuntime ι) (outcome : InvestmentResponse × InvestmentRuntime ι) : Prop where
  unchanged : calm outcome.2 = calm w
  /-- Only the read token opens the store. -/
  opened : outcome.1.ShowsFeed → isUsableToken options.readToken = true ∧
    isAuthorized options options.readToken request.authorization = true
  noStatus : ∀ status, outcome.1.body ≠ .status status
  honest : ∀ report, outcome.1.body.report? = some report → report.verifiedActive = true →
    report.Honest now options.sessionKeepAliveMinutes

/-- A refusal leaves the runtime as it was. -/
theorem FeedServed.same {request : InvestmentRequest} {now : Instant} {w : InvestmentRuntime ι}
    {status : Nat} {headers : List (String × String)} {code : String} :
    FeedServed options request now w (⟨status, headers, .error code⟩, w) where
  unchanged := rfl
  opened := fun h => absurd h blank_error.1
  noStatus := fun _ => blank_error.not_status
  honest := by
    intro report hreport
    cases hreport

/-- **What the feed router answers**, and what it reads for it. -/
theorem serveFeed_spec (sessionStatus : Bool) (request : InvestmentRequest) (now : Instant)
    (w : InvestmentRuntime ι) :
    FeedServed options request now w (serveFeed options sessionStatus request now w) := by
  unfold serveFeed
  by_cases hmissing : (!isUsableToken options.readToken || !options.storeOpened) = true
  · rw [if_pos hmissing]
    exact FeedServed.same
  rw [if_neg hmissing]
  by_cases hstranger : (!isAuthorized options options.readToken request.authorization) = true
  · rw [if_pos hstranger]
    exact FeedServed.same
  rw [if_neg hstranger]
  rw [Bool.not_eq_true, Bool.or_eq_false_iff, Bool.not_eq_false', Bool.not_eq_false'] at hmissing
  rw [Bool.not_eq_true, Bool.not_eq_false'] at hstranger
  by_cases hsession : sessionStatus = true
  · rw [if_pos hsession]
    obtain ⟨hcalm, hanswer⟩ := @readResponse_spec ι _ _ feedUnavailable _ (fun state => .session
      (getClalSessionStatus state now options.sessionKeepAliveMinutes)) readOnly_getSessionState w
    refine ⟨hcalm, fun _ => ⟨hmissing.1, hstranger⟩, fun status hstatus => ?_,
      fun report hreport hverified => ?_⟩
    · rcases hanswer with hfailed | ⟨state, session, -, hread⟩
      · rw [hfailed] at hstatus
        cases hstatus
      · rw [hread] at hstatus
        cases hstatus
    · rcases hanswer with hfailed | ⟨state, session, hrun, hread⟩
      · rw [hfailed] at hreport
        cases hreport
      · rw [hread] at hreport
        obtain rfl := Option.some.inj hreport
        exact getClalSessionStatus_honest (getSessionState_dated hrun) now _ hverified
  · rw [if_neg hsession]
    obtain ⟨hcalm, hanswer⟩ := @readResponse_spec ι _ _ feedUnavailable _ .feed
      (readOnly_getFeed options.host options.provider now options.staleHours) w
    refine ⟨hcalm, fun _ => ⟨hmissing.1, hstranger⟩, fun status hstatus => ?_,
      fun report hreport _ => ?_⟩
    · rcases hanswer with hfailed | ⟨feed, session, -, hread⟩
      · rw [hfailed] at hstatus
        cases hstatus
      · rw [hread] at hstatus
        cases hstatus
    · rcases hanswer with hfailed | ⟨feed, session, -, hread⟩
      · rw [hfailed] at hreport
        cases hreport
      · rw [hread] at hreport
        cases hreport

/-- A stranger gets the same refusal from every runtime. -/
theorem serveFeed_stranger {request : InvestmentRequest} {now : Instant} {sessionStatus : Bool}
    (h : isAuthorized options options.readToken request.authorization = false) :
    ∃ refusal, ∀ v : InvestmentRuntime ι,
      serveFeed options sessionStatus request now v = (refusal, v) := by
  unfold serveFeed
  by_cases hmissing : (!isUsableToken options.readToken || !options.storeOpened) = true
  · exact ⟨_, fun v => if_pos hmissing⟩
  · refine ⟨bearerForbidden "investments", fun v => ?_⟩
    rw [if_neg hmissing, h, if_pos (by decide)]

/-! ### The control interface -/

/-- A command does to the runtime what its act does. -/
theorem command_run (command : ControlCommand) (now : Instant) (w : InvestmentRuntime ι) :
    (command.run options now w).2 = runtimeAct options command.act now w := by
  cases command <;> rfl

/-- The answer about a recovery says nothing of records, -/
theorem blank_recoveryResponse (success : Nat) (answer : RecoveryAnswer) :
    (recoveryResponse success answer).Blank := by
  refine ⟨?_, ?_⟩
  · rintro (⟨feed, hfeed⟩ | ⟨report, hreport⟩)
    · cases answer with
      | refused error => cases error <;> cases hfeed
      | _ => cases hfeed
    · cases answer with
      | refused error => cases error <;> cases hreport
      | _ => cases hreport
  · cases answer with
    | refused error => cases error <;> rfl
    | _ => rfl

/-- nor does the one about a refresh. -/
theorem blank_refreshResponse (answer : RefreshAnswer) : (refreshResponse answer).Blank := by
  refine ⟨?_, ?_⟩
  · rintro (⟨feed, hfeed⟩ | ⟨report, hreport⟩)
    · cases answer <;> cases hfeed
    · cases answer <;> cases hreport
  · cases answer <;> rfl

/-- A command shows nothing of the store. -/
theorem command_blank (command : ControlCommand) (now : Instant) (w : InvestmentRuntime ι) :
    (command.run options now w).1.Blank := by
  cases command with
  | refresh provider => exact blank_refreshResponse _
  | start provider requestId => exact blank_recoveryResponse _ _
  | submit provider challengeId code => exact blank_recoveryResponse _ _
  | cancel provider challengeId => exact blank_recoveryResponse _ _

/-- What the middleware of the control router lets through. -/
theorem controlRefusal_eq_none {request : InvestmentRequest} (h : controlRefusal options request = none) :
    request.Admitted options := by
  unfold controlRefusal at h
  split_ifs at h with hconfigured hauthorized horigin hsearch
  rw [Bool.not_eq_true, Bool.not_eq_false'] at hconfigured hauthorized
  refine ⟨hconfigured, hauthorized, ?_, not_not.mp hsearch⟩
  cases horiginated : request.origin with
  | none => rfl
  | some origin =>
      rw [horiginated] at horigin
      simpa using horigin

/-- A refusal says nothing of the store. -/
theorem controlRefusal_blank {request : InvestmentRequest} {refusal : InvestmentResponse}
    (h : controlRefusal options request = some refusal) : refusal.Blank := by
  unfold controlRefusal at h
  split_ifs at h <;> rw [← Option.some.inj h] <;> exact blank_error

/-- A stranger is refused before anything is read. -/
theorem controlRefusal_stranger {request : InvestmentRequest}
    (h : isAuthorized options options.controlToken request.authorization = false) :
    ∃ refusal, controlRefusal options request = some refusal := by
  unfold controlRefusal
  by_cases hconfigured : (!controlConfigured options) = true
  · rw [if_pos hconfigured]
    exact ⟨_, rfl⟩
  · rw [if_neg hconfigured, h, if_pos (by decide)]
    exact ⟨_, rfl⟩

/-- A request for the status fails, waits for the receiver, or is answered at
once where none is configured; which one, the flags say. -/
theorem serveStatus_cases (options : RuntimeOptions ι) (now : Instant) (w : InvestmentRuntime ι) :
    (∀ v : InvestmentRuntime ι, v.work = w.work →
        serveStatus options now v = (some controlUnavailable, v)) ∨
      (∀ v : InvestmentRuntime ι, v.work = w.work → serveStatus options now v = (none, v)) ∨
      ∀ v : InvestmentRuntime ι, v.work = w.work → serveStatus options now v =
        (some (statusResponse options ⟨false, .not_configured⟩ now v).1,
          (statusResponse options ⟨false, .not_configured⟩ now v).2) := by
  unfold serveStatus
  by_cases hclosed : (w.work.closed || !options.storeOpened) = true
  · refine .inl fun v hv => ?_
    rw [hv, if_pos hclosed]
  by_cases hsocket : options.googleMessagesOtpSocket.isSome = true
  · refine .inr (.inl fun v hv => ?_)
    rw [hv, if_neg hclosed, if_pos hsocket]
  · refine .inr (.inr fun v hv => ?_)
    rw [hv, if_neg hclosed, if_neg hsocket]

/-- The control router refuses, serves the status or runs a command. -/
theorem serveControl_cases (options : RuntimeOptions ι) (request : InvestmentRequest) (now : Instant) :
    (∃ refusal : InvestmentResponse, refusal.Blank ∧
        ∀ v, serveControl options request now v = (some refusal, v)) ∨
      (controlRefusal options request = none ∧ request.endpoint = .status ∧
        ∀ v, serveControl options request now v = serveStatus options now v) ∨
      controlRefusal options request = none ∧ ∃ command,
        controlCommand options.host request = some command ∧
          ∀ v, serveControl options request now v =
            (some (command.run options now v).1, (command.run options now v).2) := by
  unfold serveControl
  cases hrefusal : controlRefusal options request with
  | some refusal => exact .inl ⟨refusal, controlRefusal_blank hrefusal, fun _ => rfl⟩
  | none =>
      dsimp only
      by_cases hother : request.endpoint = .otherControl
      · exact .inl ⟨_, blank_error, fun v => if_pos hother⟩
      by_cases hstatus : request.endpoint = .status
      · exact .inr (.inl ⟨rfl, hstatus, fun v => by rw [if_neg hother, if_pos hstatus]⟩)
      cases hcommand : controlCommand options.host request with
      | none => exact .inl ⟨invalidRequest, blank_error, fun v => by rw [if_neg hother, if_neg hstatus]⟩
      | some command =>
          exact .inr (.inr ⟨rfl, command, rfl, fun v => by rw [if_neg hother, if_neg hstatus]⟩)

/-- A header is good for one purpose. -/
theorem authorized_apart (request : InvestmentRequest) :
    (controlConfigured options = true →
      isAuthorized options options.controlToken request.authorization = true →
      isAuthorized options options.readToken request.authorization = false) ∧
    ∀ credentials, parseBasicAuth request.authorization = some credentials →
      ∀ token, isAuthorized options token request.authorization = false :=
  ⟨not_both_authorized, fun _ hbasic token => isAuthorized_basic hbasic token⟩

/-- What the routes of the feed let a request learn. -/
theorem feed_access {request : InvestmentRequest}
    (hfeed : request.endpoint = .feed ∨ request.endpoint = .sessionStatus) (now : Instant)
    (w : InvestmentRuntime ι) : InvestmentAccess options request now w := by
  have hserve : ∀ v : InvestmentRuntime ι, serveInvestments options request now v =
      (some (serveFeed options (request.endpoint = .sessionStatus) request now v).1,
        (serveFeed options (request.endpoint = .sessionStatus) request now v).2) :=
    fun v => if_pos hfeed
  have hserved := @serveFeed_spec ι options (request.endpoint = .sessionStatus) request now w
  have hshown : ∀ response, (serveInvestments options request now w).1 = some response →
      response = (serveFeed options (request.endpoint = .sessionStatus) request now w).1 := by
    intro response hresponse
    rw [hserve w] at hresponse
    exact (Option.some.inj hresponse).symm
  have hcalm : calm (serveInvestments options request now w).2 = calm w := by
    rw [hserve w]
    exact hserved.unchanged
  refine ⟨?_, ?_, ?_, ?_, ?_, ?_, .inl hcalm, authorized_apart request⟩
  · intro hstranger _
    obtain ⟨refusal, hrefusal⟩ := @serveFeed_stranger ι options request now
      (request.endpoint = .sessionStatus) hstranger
    exact ⟨refusal, fun v => by rw [hserve v, hrefusal v]⟩
  · intro response hresponse hshows
    rw [hshown response hresponse] at hshows
    obtain ⟨husable, hauthorized⟩ := hserved.opened hshows
    exact ⟨husable, hauthorized, hcalm⟩
  · intro response hresponse status hstatus
    rw [hshown response hresponse] at hstatus
    exact absurd hstatus (hserved.noStatus status)
  · intro hwaits
    rw [hserve w] at hwaits
    cases hwaits
  · intro response hresponse report hreport
    rw [hshown response hresponse] at hreport
    exact hserved.honest report hreport
  · intro v _ response response' hresponse _ status _ hstatus _
    rw [hshown response hresponse] at hstatus
    exact absurd hstatus (hserved.noStatus status)

/-- A request to the control router without its token is refused. -/
theorem serveControl_stranger {request : InvestmentRequest}
    (h : isAuthorized options options.controlToken request.authorization = false) (now : Instant) :
    ∃ refusal, ∀ v : InvestmentRuntime ι,
      serveControl options request now v = (some refusal, v) := by
  obtain ⟨refusal, hrefusal⟩ := controlRefusal_stranger h
  refine ⟨refusal, fun v => ?_⟩
  unfold serveControl
  rw [hrefusal]

/-- Blank responses show nothing; what is left is what they do. -/
theorem access_of_blank {request : InvestmentRequest} {now : Instant} {w : InvestmentRuntime ι}
    (hcontrol : ¬ (request.endpoint = .feed ∨ request.endpoint = .sessionStatus))
    (hblank : ∃ response v, response.Blank ∧
      serveControl options request now w = (some response, v))
    (hcommand : calm (serveControl options request now w).2 = calm w ∨ ∃ command,
      admittedCommand options request = some command ∧ command.WellFormed options.host request ∧
        request.Admitted options ∧
        (serveControl options request now w).2 = runtimeAct options command.act now w) :
    InvestmentAccess options request now w := by
  have hserve : ∀ v : InvestmentRuntime ι, serveInvestments options request now v =
      serveControl options request now v := fun v => if_neg hcontrol
  obtain ⟨response, v, hresponse, hrun⟩ := hblank
  have hshown : ∀ shown, (serveInvestments options request now w).1 = some shown →
      shown = response := by
    intro shown hshown
    rw [hserve w, hrun] at hshown
    exact (Option.some.inj hshown).symm
  refine ⟨?_, ?_, ?_, ?_, ?_, ?_, ?_, authorized_apart request⟩
  · intro _ hstranger
    obtain ⟨refusal, hrefusal⟩ := serveControl_stranger hstranger now
    exact ⟨refusal, fun v => (hserve v).trans (hrefusal v)⟩
  · intro shown hsome hshows
    rw [hshown shown hsome] at hshows
    exact absurd hshows hresponse.1
  · intro shown hsome status hstatus
    rw [hshown shown hsome] at hstatus
    exact absurd hstatus hresponse.not_status
  · intro hwaits
    rw [hserve w, hrun] at hwaits
    cases hwaits
  · intro shown hsome report hreport
    rw [hshown shown hsome, hresponse.2] at hreport
    cases hreport
  · intro _ _ shown _ hsome _ status _ hstatus _
    rw [hshown shown hsome] at hstatus
    exact absurd hstatus hresponse.not_status
  · rw [hserve w]
    exact hcommand

/-- What a request for the status learns. -/
theorem status_access {request : InvestmentRequest} {now : Instant} {w : InvestmentRuntime ι}
    (hrefusal : controlRefusal options request = none) (hendpoint : request.endpoint = .status)
    (hserves : ∀ v : InvestmentRuntime ι,
      serveControl options request now v = serveStatus options now v) :
    InvestmentAccess options request now w := by
  have hadmitted := controlRefusal_eq_none hrefusal
  have hcontrol : ¬ (request.endpoint = .feed ∨ request.endpoint = .sessionStatus) := by
    rw [hendpoint]
    decide
  have hserve : ∀ v : InvestmentRuntime ι, serveInvestments options request now v =
      serveStatus options now v := fun v => (if_neg hcontrol).trans (hserves v)
  have hstranger : isAuthorized options options.readToken request.authorization = false →
      isAuthorized options options.controlToken request.authorization = false →
      ∃ refusal, ∀ v, serveInvestments options request now v = (some refusal, v) := by
    intro _ hstranger
    rw [hadmitted.authorized] at hstranger
    cases hstranger
  rcases serveStatus_cases options now w with hfails | hwaits | hanswers
  · refine access_of_blank hcontrol ⟨controlUnavailable, w, blank_error, ?_⟩ (.inl ?_)
    · rw [hserves w, hfails w rfl]
    · rw [hserves w, hfails w rfl]
  · have hwait := (hserve w).trans (hwaits w rfl)
    have hnone : ∀ response, (serveInvestments options request now w).1 ≠ some response := by
      intro response hresponse
      rw [hwait] at hresponse
      cases hresponse
    refine ⟨hstranger, fun response hresponse => absurd hresponse (hnone response),
      fun response hresponse => absurd hresponse (hnone response), ?_,
      fun response hresponse => absurd hresponse (hnone response),
      fun _ _ response _ hresponse => absurd hresponse (hnone response), .inl ?_,
      authorized_apart request⟩
    · exact fun _ => ⟨hadmitted, hendpoint, by rw [hwait]⟩
    · rw [hwait]
  · have hanswer := fun v hv => (hserve v).trans (hanswers v hv)
    have hspec := @statusResponse_spec ι options ⟨false, .not_configured⟩ now w
    have hshown : ∀ response, (serveInvestments options request now w).1 = some response →
        response = (statusResponse options ⟨false, .not_configured⟩ now w).1 := by
      intro response hresponse
      rw [hanswer w rfl] at hresponse
      exact (Option.some.inj hresponse).symm
    have hcalm : calm (serveInvestments options request now w).2 = calm w := by
      rw [hanswer w rfl]
      exact hspec.unchanged
    refine ⟨hstranger, ?_, ?_, ?_, ?_, ?_, .inl hcalm, authorized_apart request⟩
    · intro response hresponse hshows
      rw [hshown response hresponse] at hshows
      rcases hspec.shown with hfailed | ⟨status, hstatus⟩
      · rw [hfailed] at hshows
        exact absurd hshows blank_error.1
      · rw [hstatus] at hshows
        rcases hshows with ⟨feed, hfeed⟩ | ⟨report, hreport⟩
        · cases hfeed
        · cases hreport
    · exact fun _ _ _ _ => ⟨hadmitted, hcalm⟩
    · intro hnone
      rw [hanswer w rfl] at hnone
      cases hnone
    · intro response hresponse report hreport
      rw [hshown response hresponse] at hreport
      exact hspec.honest report hreport
    · intro v hdiffer response response' hresponse hresponse'
      have hwork : v.work = w.work := by
        rw [hdiffer.runtime]
      refine hspec.blind v hdiffer response response' ?_ ?_
      · rw [hshown response hresponse]
      · dsimp only at hresponse'
        rw [hanswer v hwork] at hresponse'
        exact hresponse'

/-- **One request**, to any runtime. -/
theorem serveInvestments_access (request : InvestmentRequest) (now : Instant) (w : InvestmentRuntime ι) :
    InvestmentAccess options request now w := by
  by_cases hfeed : request.endpoint = .feed ∨ request.endpoint = .sessionStatus
  · exact feed_access hfeed now w
  rcases serveControl_cases options request now with
    ⟨refusal, hblank, hrun⟩ | ⟨hrefusal, hstatus, hserves⟩ | ⟨hrefusal, command, hcommand, hrun⟩
  · refine access_of_blank hfeed ⟨refusal, w, hblank, hrun w⟩ (.inl ?_)
    rw [hrun w]
  · exact status_access hrefusal hstatus hserves
  · refine access_of_blank hfeed ⟨_, _, command_blank command now w, hrun w⟩ (.inr ?_)
    refine ⟨command, ?_, controlCommand_wellFormed hcommand, controlRefusal_eq_none hrefusal, ?_⟩
    · unfold admittedCommand
      rw [if_neg hfeed, hrefusal]
      exact hcommand
    · rw [hrun w]
      exact command_run command now w

/-! ## Runs -/

/-- A request with a command is served by it. -/
theorem serveInvestments_admitted {request : InvestmentRequest} {command : ControlCommand}
    (h : admittedCommand options request = some command) (now : Instant) (w : InvestmentRuntime ι) :
    serveInvestments options request now w =
      (some (command.run options now w).1, (command.run options now w).2) := by
  unfold admittedCommand at h
  split_ifs at h with hfeeds hrefused
  have hrefusal : controlRefusal options request = none := by
    rwa [Bool.not_eq_true, Option.isSome_eq_false_iff, Option.isNone_iff_eq_none] at hrefused
  obtain ⟨hstatus, hother⟩ := controlCommand_endpoint h
  refine (if_neg hfeeds).trans ?_
  unfold serveControl
  rw [hrefusal]
  dsimp only
  rw [if_neg hother, if_neg hstatus, h]

/-- **One event** of the process is an event of the runtime, or none. -/
theorem hostedStep_calm (s : InvestmentServer ι) (event : HostedEvent ι) :
    calm (hostedStep options s event).runtime = match event.runtimeEvent options with
      | some event => calm (runtimeStep options s.runtime event)
      | none => calm s.runtime := by
  cases event with
  | own event => rfl
  | receiverAnswers index health now faults =>
      change calm (hostedStep options s (.receiverAnswers index health now faults)).runtime = calm s.runtime
      unfold hostedStep
      dsimp only
      by_cases hindex : index < s.waiting.length
      · rw [if_pos hindex]
        exact (statusResponse_spec health now (s.runtime.facing faults)).unchanged
      · rw [if_neg hindex]
  | received request now faults =>
      have haccess := @serveInvestments_access ι options request now (s.runtime.facing faults)
      have hevent : (HostedEvent.received request now faults).runtimeEvent options =
          (admittedCommand options request).map fun command => ⟨command.act, now, faults⟩ := rfl
      rw [hevent]
      cases hadmitted : admittedCommand options request with
      | none =>
          rcases haccess.command with hsame | ⟨command, hcommand, -⟩
          · exact hsame
          · rw [hadmitted] at hcommand
            cases hcommand
      | some command =>
          have hserve : (hostedStep options s (.received request now faults)).runtime =
              runtimeStep options s.runtime ⟨command.act, now, faults⟩ := by
            change (serveInvestments options request now (s.runtime.facing faults)).2 = _
            rw [serveInvestments_admitted hadmitted]
            exact command_run command now _
          rw [hserve]
          rfl

/-- **Runs with requests are runs of the runtime.** -/
theorem run_hosted_calm {s : InvestmentServer ι} {v : InvestmentRuntime ι}
    (h : calm s.runtime = calm v) (events : List (HostedEvent ι)) :
    calm (Runs.run (hostedStep options) s events).runtime =
      calm (Runs.run (runtimeStep options) v (events.filterMap fun event => event.runtimeEvent options)) := by
  induction events generalizing s v with
  | nil => exact h
  | cons event events ih =>
      have hstep := @hostedStep_calm ι options s event
      rw [Runs.run_cons, List.filterMap_cons]
      cases hevent : event.runtimeEvent options with
      | none =>
          rw [hevent] at hstep
          exact ih (hstep.trans h)
      | some runtimeEvent =>
          rw [hevent] at hstep
          dsimp only
          rw [Runs.run_cons]
          refine ih ?_
          dsimp only at hstep
          rw [hstep, runtimeStep_calm s.runtime, h, ← runtimeStep_calm v]

/-- **Only requests for the status wait**, and each has the control token. -/
theorem run_waiting (db : InvestmentDb) (leases : Finset String) (events : List (HostedEvent ι)) :
    ∀ request ∈ (Runs.run (hostedStep options) ⟨created db leases, []⟩ events).waiting,
      request.endpoint = .status ∧ request.Admitted options := by
  have hstep : ∀ (s : InvestmentServer ι) (event : HostedEvent ι),
      (∀ request ∈ s.waiting, request.endpoint = .status ∧ request.Admitted options) →
      ∀ request ∈ (hostedStep options s event).waiting,
        request.endpoint = .status ∧ request.Admitted options := by
    intro s event hwaiting request hrequest
    cases event with
    | own event => exact hwaiting request hrequest
    | received received now faults =>
        unfold hostedStep at hrequest
        dsimp only at hrequest
        by_cases hnone : (serveInvestments options received now (s.runtime.facing faults)).1.isNone = true
        · rw [if_pos hnone, List.mem_append, List.mem_singleton] at hrequest
          rcases hrequest with hbefore | rfl
          · exact hwaiting request hbefore
          · obtain ⟨hadmitted, hstatus, -⟩ := (serveInvestments_access request now
              (s.runtime.facing faults)).waits (Option.isNone_iff_eq_none.mp hnone)
            exact ⟨hstatus, hadmitted⟩
        · rw [if_neg hnone] at hrequest
          exact hwaiting request hrequest
    | receiverAnswers index health now faults =>
        unfold hostedStep at hrequest
        dsimp only at hrequest
        by_cases hindex : index < s.waiting.length
        · rw [if_pos hindex] at hrequest
          exact hwaiting request (List.mem_of_mem_eraseIdx hrequest)
        · rw [if_neg hindex] at hrequest
          exact hwaiting request hrequest
  exact Runs.run_invariant (fun request hrequest => absurd hrequest List.not_mem_nil) hstep events

/-- **Access to the investments.**  Over every run of the runtime with its
timers, collectors and requests, what the requests do is what the commands do
that the control token admits, so one collection runs at most; and every request
then learns and does only what its capability allows, and so does one that the
receiver answers later. -/
theorem investment_access (options : RuntimeOptions ι) (db : InvestmentDb) (leases : Finset String)
    (events : List (HostedEvent ι)) (faults : List Bool) (now : Instant) :
    let s := Runs.run (hostedStep options) ⟨created db leases, []⟩ events
    calm s.runtime = calm (Runs.run (runtimeStep options) (created db leases)
        (events.filterMap fun event => event.runtimeEvent options)) ∧
      ExclusionLaw s.runtime ∧
      (∀ request, InvestmentAccess options request now (s.runtime.facing faults)) ∧
      ∀ request ∈ s.waiting, request.endpoint = .status ∧ request.Admitted options ∧
        ∀ health, StatusShown options health now (s.runtime.facing faults) := by
  intro s
  have hruns := @run_hosted_calm ι options ⟨created db leases, []⟩ (created db leases) rfl events
  have hinv := (@run_inv ι options (created db leases) RuntimeWork.inv_empty (created_held db leases)
    (events.filterMap fun event => event.runtimeEvent options)).1
  have hwork := congrArg InvestmentRuntime.work hruns
  change s.runtime.work = (Runs.run (runtimeStep options) (created db leases)
    (events.filterMap fun event => event.runtimeEvent options)).work at hwork
  refine ⟨hruns, exclusionLaw_of_inv ?_, fun request => serveInvestments_access request now _, ?_⟩
  · rw [hwork]
    exact hinv
  · intro request hrequest
    obtain ⟨hendpoint, hadmitted⟩ := run_waiting db leases events request hrequest
    exact ⟨hendpoint, hadmitted, fun health => statusResponse_spec health now _⟩

end

end SimplefinBridge
