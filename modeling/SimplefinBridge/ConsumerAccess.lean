import SimplefinBridge.ClaimLifecycle

/-!
# Who is let in

The credentials that the Basic authentication accepts, over every history of
mints, revocations, claims, requests and sweeps.  They are exactly those that a
successful mint has drawn and that no rotation or revocation has replaced since:
`accepted_iff_issued`.  A claim only hands a mint's credentials out; that they
work is the other half of the claim lifecycle.
-/

namespace SimplefinBridge

section
variable (host : Host) (hasher : SecretHasher) (urls : UrlParser) (config : ServerConfig)

/-- A mint of the run succeeded with this row, and nothing has renewed it since;
the secret is the one it drew. -/
def IssuedBy (calls : List ConsumerCall) (row : Consumer) (secret : String) : Prop :=
  ∃ before label rotate randoms now later result t',
    calls = before ++ .mint label rotate randoms now :: later ∧
    mintConsumerToken host hasher config (consumersAfter host hasher urls config before) label
      rotate randoms now = .ok (result, t') ∧
    result.consumer = row ∧ randoms.secret = secret ∧ ∀ call ∈ later, ¬ call.Renews host row.id

/-- The credentials that a mint has drawn, and that still count. -/
def Issued (calls : List ConsumerCall) (credentials : BasicCredentials) : Prop :=
  ∃ row, IssuedBy host hasher urls config calls row credentials.secret ∧
    row.basicUser = credentials.user

/-- A live row carries the hash of a secret that still counts. -/
def RowsIssued (calls : List ConsumerCall) (t : ConsumerTable) : Prop :=
  ∀ c ∈ t.rows, c.revokedAt = none → ∃ row secret, IssuedBy host hasher urls config calls row secret ∧
    row.id = c.id ∧ row.basicUser = c.basicUser ∧ row.secretHash = c.secretHash ∧
      ∃ salt, c.secretHash = hasher.hashSecret salt secret

end

section
variable {host : Host} {hasher : SecretHasher} {urls : UrlParser} {config : ServerConfig}

/-! ## Mints and revocations -/

/-- **What a successful mint does.** -/
theorem mint_ok {t t' : ConsumerTable} {label : String} {rotate : Bool} {randoms : MintRandoms}
    {now : Instant} {result : MintResult}
    (h : mintConsumerToken host hasher config t label rotate randoms now = .ok (result, t')) :
    ∃ id, slug host label = .ok id ∧
      result.consumer = mintedConsumer hasher config id label (t.find id) randoms now ∧
      t' = t.put result.consumer ∧ ((t.find id).isSome → rotate = true) := by
  obtain ⟨id, hid, hwrite⟩ := Transactional.except_bind_ok.mp h
  refine ⟨id, hid, ?_⟩
  dsimp only at hwrite
  split_ifs at hwrite with hexists hrotate
  · obtain ⟨stored, hstored, hreturn⟩ := Transactional.except_bind_ok.mp hwrite
    obtain ⟨rfl, rfl⟩ := Prod.mk.inj (Except.ok.inj hreturn)
    exact ⟨rfl, updateConsumer_ok hstored, fun _ => hrotate⟩
  · cases hwrite
  · obtain ⟨stored, hstored, hreturn⟩ := Transactional.except_bind_ok.mp hwrite
    obtain ⟨rfl, rfl⟩ := Prod.mk.inj (Except.ok.inj hreturn)
    exact ⟨rfl, createConsumer_ok hstored, fun hsome => absurd hsome hexists⟩

/-- A rotation with a fresh claim id succeeds. -/
theorem mint_rotates {t : ConsumerTable} {label id : String} {randoms : MintRandoms} {now : Instant}
    (hsound : ConsumersSound hasher config t) (hid : slug host label = .ok id) {c : Consumer}
    (hc : c ∈ t.rows) (hkey : c.id = id) (hfresh : ∀ d ∈ t.rows, d.claimId ≠ some randoms.claimId) :
    ∃ outcome, mintConsumerToken host hasher config t label true randoms now = .ok outcome := by
  have hfind : t.find id = some c := by
    rw [← hkey]
    exact KeyedTable.find_of_mem hc
  have haccepted : t.updateConsumer (mintedConsumer hasher config id label (t.find id) randoms now) =
      .ok (t.put (mintedConsumer hasher config id label (t.find id) randoms now)) := by
    unfold ConsumerTable.updateConsumer
    rw [if_neg]
    rw [Bool.not_eq_true, violatesUnique_eq_false]
    intro d hd hother
    rw [hfind]
    refine ⟨fun hsame => hother ?_, fun _ => hfresh d hd⟩
    have hown := hsound.users d hd c hc hsame
    rw [hown]
    exact hkey
  have hexists : (t.find id).isSome = true := by
    rw [hfind]
    rfl
  unfold mintConsumerToken
  simp only [hid, bind, Except.bind, hexists, if_true, haccepted]
  exact ⟨_, rfl⟩

/-- **The rows a call leaves**: minted by it, or older ones, which it has
revoked where it renews them. -/
theorem rows_after (urls : UrlParser) {t : ConsumerTable} {call : ConsumerCall} (hmax : 0 < config.maxClaims)
    (hsound : ConsumersSound hasher config t)
    (hsuffix : ∀ label rotate randoms now, call = .mint label rotate randoms now →
      ∃ bytes, randoms.basicUserSuffix = randomLowerAlnum bytes)
    (hfresh : ∀ claimId, call.drawn = some claimId → ∀ d ∈ t.rows, d.claimId ≠ some claimId) :
    ∀ c' ∈ (consumerStep host hasher urls config t call).rows,
      (∃ label rotate randoms now result t', call = .mint label rotate randoms now ∧
        mintConsumerToken host hasher config t label rotate randoms now = .ok (result, t') ∧
        c' = result.consumer) ∨
      ∃ c ∈ t.rows, Ages c c' ∧ (c'.revokedAt = none → c.revokedAt = none ∧ ¬ call.Renews host c.id) := by
  intro c' hc'
  have hquiet : (∀ id, ¬ call.Renews host id) → call.drawn = none →
      ∃ c ∈ t.rows, Ages c c' ∧
        (c'.revokedAt = none → c.revokedAt = none ∧ ¬ call.Renews host c.id) := by
    intro hrenews hdrawn
    have hkeeps : StepKeeps host hasher config call t
        (consumerStep host hasher urls config t call) := stepKeeps_consumerStep hmax hsound hsuffix
    rcases hkeeps.origin c' hc' with ⟨c, hc, hages⟩ | ⟨claimId, hclaim, -⟩
    · refine ⟨c, hc, hages, fun hlive => ⟨?_, hrenews c.id⟩⟩
      by_contra hrevoked
      have hstill := hages.revokedAt (Option.isSome_iff_ne_none.mpr hrevoked)
      rw [hlive] at hstill
      cases hstill
    · rw [hdrawn] at hclaim
      cases hclaim
  cases call with
  | claim claimId now => exact .inr (hquiet (fun _ h => h) rfl)
  | request header now => exact .inr (hquiet (fun _ h => h) rfl)
  | sweep now => exact .inr (hquiet (fun _ h => h) rfl)
  | revoke label now =>
      right
      change c' ∈ (committed t (revokeConsumer host t label now)).rows at hc'
      unfold revokeConsumer at hc'
      cases hid : slug host label with
      | error e =>
          rw [hid] at hc'
          refine ⟨c', hc', Ages.refl c', fun hlive => ⟨hlive, fun hrenews => ?_⟩⟩
          have hresult := hid.symm.trans hrenews
          cases hresult
      | ok id =>
          cases hfind : t.find id with
          | none =>
              simp only [hid, bind, Except.bind, hfind] at hc'
              refine ⟨c', hc', Ages.refl c', fun hlive => ⟨hlive, fun hrenews => ?_⟩⟩
              have hsame : id = c'.id := Except.ok.inj (hid.symm.trans hrenews)
              exact KeyedTable.find_eq_none.mp hfind c' hc' hsame.symm
          | some c =>
              have hc := KeyedTable.mem_of_find hfind
              have hkey : c.id = id := KeyedTable.key_of_find hfind
              simp only [hid, bind, Except.bind, hfind,
                hsound.accepts hc (ages_revoked c now)] at hc'
              rcases KeyedTable.mem_put.mp hc' with hrow | ⟨hold, hother⟩
              · rw [hrow]
                refine ⟨c, hc, ages_revoked c now, fun hlive => ?_⟩
                cases hlive
              · refine ⟨c', hold, Ages.refl c', fun hlive => ⟨hlive, fun hrenews => ?_⟩⟩
                have hsame : id = c'.id := Except.ok.inj (hid.symm.trans hrenews)
                exact hother (hsame.symm.trans hkey.symm)
  | mint label rotate randoms now =>
      change c' ∈ (committed t
        (mintConsumerToken host hasher config t label rotate randoms now)).rows at hc'
      cases hmint : mintConsumerToken host hasher config t label rotate randoms now with
      | ok outcome =>
          obtain ⟨result, t'⟩ := outcome
          obtain ⟨id, hid, hrow, rfl, -⟩ := mint_ok hmint
          rw [hmint] at hc'
          rcases KeyedTable.mem_put.mp hc' with hsame | ⟨hold, hother⟩
          · exact .inl ⟨label, rotate, randoms, now, result, _, rfl, hmint, hsame⟩
          · refine .inr ⟨c', hold, Ages.refl c', fun hlive => ⟨hlive, fun hrenews => ?_⟩⟩
            have hsame : id = c'.id := Except.ok.inj (hid.symm.trans hrenews.2)
            rw [hrow] at hother
            exact hother hsame.symm
      | error e =>
          rw [hmint] at hc'
          have hc : c' ∈ t.rows := hc'
          refine .inr ⟨c', hc, Ages.refl c', fun hlive => ⟨hlive, fun hrenews => ?_⟩⟩
          obtain ⟨hrotate, hid⟩ := hrenews
          obtain ⟨outcome, houtcome⟩ := @mint_rotates host hasher config t label c'.id randoms now
            hsound hid c' hc rfl (hfresh randoms.claimId rfl)
          rw [hrotate, houtcome] at hmint
          cases hmint

/-! ## Runs -/

theorem IssuedBy.extend {calls : List ConsumerCall} {row : Consumer} {secret : String}
    (h : IssuedBy host hasher urls config calls row secret) {call : ConsumerCall}
    (hcall : ¬ call.Renews host row.id) :
    IssuedBy host hasher urls config (calls ++ [call]) row secret := by
  obtain ⟨before, label, rotate, randoms, now, later, result, t', rfl, hmint, hrow, hsecret, hlater⟩ := h
  refine ⟨before, label, rotate, randoms, now, later ++ [call], result, t', ?_, hmint, hrow, hsecret, ?_⟩
  · rw [List.append_assoc, List.cons_append]
  · intro other hother
    rcases List.mem_append.mp hother with hold | hnew
    · exact hlater other hold
    · rw [List.mem_singleton.mp hnew]
      exact hcall

/-- **One call** keeps every live row issued. -/
theorem RowsIssued.step {calls : List ConsumerCall} {t : ConsumerTable} {call : ConsumerCall}
    (h : RowsIssued host hasher urls config calls t)
    (ht : t = consumersAfter host hasher urls config calls) (hmax : 0 < config.maxClaims)
    (hsound : ConsumersSound hasher config t)
    (hsuffix : ∀ label rotate randoms now, call = .mint label rotate randoms now →
      ∃ bytes, randoms.basicUserSuffix = randomLowerAlnum bytes)
    (hfresh : ∀ claimId, call.drawn = some claimId → ∀ d ∈ t.rows, d.claimId ≠ some claimId) :
    RowsIssued host hasher urls config (calls ++ [call])
      (consumerStep host hasher urls config t call) := by
  intro c' hc' hlive
  rcases rows_after urls hmax hsound hsuffix hfresh c' hc' with
    ⟨label, rotate, randoms, now, result, t', rfl, hmint, rfl⟩ | ⟨c, hc, hages, hkept⟩
  · obtain ⟨id, -, hrow, -, -⟩ := mint_ok hmint
    refine ⟨result.consumer, randoms.secret, ?_, rfl, rfl, rfl, randoms.salt, ?_⟩
    · rw [ht] at hmint
      exact ⟨calls, label, rotate, randoms, now, [], result, t', rfl, hmint, rfl, rfl,
        fun _ hrow => absurd hrow List.not_mem_nil⟩
    · rw [hrow]
      rfl
  · obtain ⟨hwas, hrenews⟩ := hkept hlive
    obtain ⟨row, secret, hissued, hid, huser, hhash, salt, hsalt⟩ := h c hc hwas
    refine ⟨row, secret, hissued.extend (by rw [hid]; exact hrenews), ?_, ?_, ?_, salt, ?_⟩
    · exact hid.trans hages.id.symm
    · exact huser.trans hages.basicUser.symm
    · exact hhash.trans hages.secretHash.symm
    · exact hages.secretHash.trans hsalt

theorem rowsIssued_run {calls : List ConsumerCall} (hmax : 0 < config.maxClaims)
    (hfresh : FreshRandoms calls) :
    RowsIssued host hasher urls config calls (consumersAfter host hasher urls config calls) := by
  have hsuffixes : DrawsSuffixes calls := hfresh.suffixes
  have hgo := @Runs.run_history _ _ (consumerStep host hasher urls config)
    (fun done t => t = consumersAfter host hasher urls config done ∧
      RowsIssued host hasher urls config done t) KeyedTable.empty calls
    ⟨rfl, fun _ hrow => absurd hrow List.not_mem_nil⟩ ?_
  · exact hgo.2
  intro done call t hinitial h
  obtain ⟨rfl, hissued⟩ := h
  obtain ⟨hbefore, -⟩ := (hsuffixes.of_prefix hinitial).parts
  obtain ⟨hsound, hdrawn⟩ := consumersAfter_sound host hasher urls hmax hbefore
  refine ⟨?_, hissued.step rfl hmax hsound ?_ ?_⟩
  · rw [consumersAfter_append]
    rfl
  · intro label rotate randoms now hcall
    apply hsuffixes label rotate randoms now
    rw [← hcall]
    exact hinitial.subset (List.mem_append_right _ List.mem_cons_self)
  · intro claimId hclaim d hd hsame
    have hparts := List.Nodup.sublist (hinitial.sublist.filterMap ConsumerCall.drawn) hfresh.claimIds
    rw [List.filterMap_append] at hparts
    obtain ⟨-, -, hapart⟩ := List.nodup_append.mp hparts
    refine hapart claimId (hdrawn d hd claimId hsame) claimId ?_ rfl
    exact List.mem_filterMap.mpr ⟨call, List.mem_cons_self, hclaim⟩

/-! ## Requests -/

/-- The row that lets a request in. -/
theorem basicAuth_accepted {t : ConsumerTable} {user secret : String} {c : Consumer}
    (h : basicAuth hasher t user secret = .accepted c) :
    c ∈ t.rows ∧ c.basicUser = user ∧ c.revokedAt = none ∧
      hasher.verifySecret c.secretHash secret = true := by
  unfold basicAuth at h
  split at h
  · cases h
  · rename_i stored hfind
    split_ifs at h with hrevoked hverify
    obtain rfl := AuthOutcome.accepted.inj h
    refine ⟨List.mem_of_find?_eq_some hfind, by simpa using List.find?_some hfind, ?_, hverify⟩
    exact Option.not_isSome_iff_eq_none.mp hrevoked

theorem basicAuth_of_mem {t : ConsumerTable} (hsound : ConsumersSound hasher config t) {c : Consumer}
    (hc : c ∈ t.rows) (hlive : c.revokedAt = none) {secret : String}
    (hverify : hasher.verifySecret c.secretHash secret = true) :
    basicAuth hasher t c.basicUser secret = .accepted c := by
  unfold basicAuth
  cases hfind : ConsumerTable.getConsumerByBasicUser t c.basicUser with
  | none =>
      have hnone := List.find?_eq_none.mp hfind c hc
      exact (hnone (by simp)).elim
  | some d =>
      have hd := List.mem_of_find?_eq_some hfind
      have huser : d.basicUser = c.basicUser := by simpa using List.find?_some hfind
      rw [hsound.users d hd c hc huser]
      dsimp only
      rw [hlive, if_neg (by decide), if_pos hverify]

/-- The answers of the authentication on a sound table: nothing is written for a
stranger, and one row for a consumer. -/
theorem authenticate_cases {t : ConsumerTable} (hsound : ConsumersSound hasher config t)
    (header : Option String) (now : Instant) :
    authenticate hasher t header now = .ok (.forbidden, t) ∧
        (∀ credentials c, parseBasicAuth header = some credentials →
          basicAuth hasher t credentials.user credentials.secret ≠ .accepted c) ∨
      ∃ credentials c, parseBasicAuth header = some credentials ∧
        basicAuth hasher t credentials.user credentials.secret = .accepted c ∧
        authenticate hasher t header now = .ok (.accepted c, t.put (touchedConsumer c now)) := by
  unfold authenticate
  cases hparse : parseBasicAuth header with
  | none => exact .inl ⟨rfl, fun _ _ h => nomatch h⟩
  | some credentials =>
      cases hauth : basicAuth hasher t credentials.user credentials.secret with
      | forbidden =>
          refine .inl ⟨by simp only [hauth], fun other c hother haccepted => ?_⟩
          rw [← Option.some.inj hother, hauth] at haccepted
          cases haccepted
      | accepted c =>
          have hc := (basicAuth_accepted hauth).1
          refine .inr ⟨credentials, c, rfl, hauth, ?_⟩
          simp only [hauth, bind, Except.bind, hsound.accepts hc (ages_touched c now)]
          rfl

/-- **Exactly the credentials issued are accepted.** -/
theorem accepted_iff_issued {calls : List ConsumerCall} (hmax : 0 < config.maxClaims)
    (hfresh : FreshRandoms calls) {credentials : BasicCredentials} :
    (∃ c, basicAuth hasher (consumersAfter host hasher urls config calls) credentials.user
      credentials.secret = .accepted c) ↔ Issued host hasher urls config calls credentials := by
  have hsuffixes : DrawsSuffixes calls := hfresh.suffixes
  constructor
  · rintro ⟨c, haccepted⟩
    obtain ⟨hc, huser, hlive, hverify⟩ := basicAuth_accepted haccepted
    obtain ⟨row, secret, hissued, -, hrowUser, -, salt, hsalt⟩ :=
      rowsIssued_run hmax hfresh c hc hlive
    rw [hsalt] at hverify
    have hsecret := (hasher.verify_hash salt secret credentials.secret).mp hverify
    refine ⟨row, ?_, hrowUser.trans huser⟩
    rw [hsecret]
    exact hissued
  · rintro ⟨row, ⟨before, label, rotate, randoms, now, later, result, t', rfl, hmint, rfl, hsecret,
      hlater⟩, huser⟩
    obtain ⟨hbefore, hafter⟩ := hsuffixes.parts
    obtain ⟨hsound, -⟩ := consumersAfter_sound host hasher urls hmax hbefore
    obtain ⟨id, hid, hrow, rfl, -⟩ := mint_ok hmint
    have hstep : consumerStep host hasher urls config
        (consumersAfter host hasher urls config before) (.mint label rotate randoms now) =
        (consumersAfter host hasher urls config before).put result.consumer := by
      change committed _ (mintConsumerToken _ _ _ _ _ _ _ _) = _
      rw [hmint]
      rfl
    have hkeeps : StepKeeps host hasher config (.mint label rotate randoms now)
        (consumersAfter host hasher urls config before)
        (consumerStep host hasher urls config (consumersAfter host hasher urls config before)
          (.mint label rotate randoms now)) := hafter.step hmax hsound
    have hmem : result.consumer ∈ (consumerStep host hasher urls config
        (consumersAfter host hasher urls config before) (.mint label rotate randoms now)).rows := by
      rw [hstep]
      exact KeyedTable.mem_put.mpr (.inl rfl)
    obtain ⟨hfinal, d, hd, hages, hrevoked⟩ :=
      kept_run urls hmax hafter.tail hkeeps.sound hmem hlater
    rw [consumersAfter_append, Runs.run_cons, ← huser, ← hages.basicUser]
    refine ⟨d, basicAuth_of_mem hfinal hd ?_ ?_⟩
    · rw [hrevoked, hrow]
      rfl
    · rw [hages.secretHash, hrow]
      exact (hasher.verify_hash _ _ _).mpr hsecret.symm

end

end SimplefinBridge
