import TsaBackend.AccountWrites
import TsaBackend.SessionSteps
import TsaBackend.SessionTokens

/-!
Where a stored refresh token comes from.

A row is written by a sign-in and lasts until somebody signs out with its token or its user is
deleted. The sign-in returns the token, unless it is made on a phone that cannot be greeted.
-/

namespace TsaBackend.RefreshTokens

open Call AuthSteps SessionSteps

variable {cfg : SessionConfig} {s t : ProfileDB} {token : String} {row : RefreshToken} {u : Id}
  {l : SessionRequest × (ℕ → AuthInput)}

lemma refreshTokens_writes {cfg : AuthConfig} {s t : AuthDB} {r : AuthRequest}
    (hr : (∀ email password mobile, r ≠ .signin email password mobile) ∧
      ∀ idToken mobile, r ≠ .signInWithGoogle idToken mobile)
    (h : AuthWrites cfg s r t) : t.refreshTokens = s.refreshTokens := by
  cases h with
  | none => rfl
  | resend h =>
    obtain ⟨_, rfl⟩ := AuthDB.upsertVerificationEmail_ok h
    rfl
  | register h ht =>
    obtain ⟨-, -, rfl⟩ := AuthDB.createUser_ok h
    obtain ⟨-, -, rfl⟩ := AuthDB.createVerificationEmail_ok ht
    rfl
  | queue => rfl
  | complete h =>
    obtain ⟨-, -, -, rfl⟩ := AuthDB.completeRegistration_ok h
    rfl
  | create h => exact absurd rfl (hr.2 _ _)
  | photo h => exact absurd rfl (hr.2 _ _)
  | session hsign _ =>
    obtain ⟨email, password, mobile, heq⟩ | ⟨idToken, mobile, heq⟩ := hsign
    · exact absurd heq (hr.1 _ _ _)
    · exact absurd heq (hr.2 _ _)

lemma refreshTokens_auth {cfg : AuthConfig} {s : AuthDB} {r : AuthRequest} {ω : ℕ → AuthInput}
    (hr : (∀ email password mobile, r ≠ .signin email password mobile) ∧
      ∀ idToken mobile, r ≠ .signInWithGoogle idToken mobile) :
    (serveAuth cfg s (r, ω)).refreshTokens = s.refreshTokens :=
  serveAuth_rule (fun t => t.refreshTokens = s.refreshTokens) rfl
    (fun _ _ hw ha => (refreshTokens_writes hr hw).trans ha) fun _ => rfl

/-- The sign-in stored this token, which it signed for the user of the row with the role that is
stored for the user, and returned it unless the user could not be greeted. -/
structure Issues (cfg : SessionConfig) (l : SessionRequest × (ℕ → AuthInput)) (s : ProfileDB)
    (token : String) (row : RefreshToken) : Prop where
  returned : Abandons cfg s l ∨ ∃ r, (respond cfg s l).1 = .ok (.session r) ∧
    r.refreshToken = token ∧ r.id = row.userId
  signed : ∃ order email user n, (serveSession cfg s l).users.lookup row.userId = some user ∧
    token = cfg.jwtSign order (.user email user.role row.userId) (l.2 n).now 86400

/-- The request returned, and it signed out with this token or deleted this user. -/
def Closes (cfg : SessionConfig) (token : String) (u : Id) (s : ProfileDB)
    (l : SessionRequest × (ℕ → AuthInput)) : Prop :=
  (respond cfg s l).1.isOk = true ∧ (l.1 = .signout token ∨ l.1 = .deleteUser u)

lemma signedIn_stored {cfg : AuthConfig} {E : AuthInput → Prop} {s t : AuthDB} {r : SignInResult}
    (h : SignedIn cfg E s r t) (hrow : t.refreshTokens.lookup token = some row) :
    (r.refreshToken = token ∧ r.id = row.userId ∧ ∃ order email user i, E i ∧
      t.users.lookup row.userId = some user ∧
      token = cfg.jwtSign order (.user email user.role row.userId) i.now 86400) ∨
    s.refreshTokens.lookup token = some row := by
  obtain ⟨order, i, s₁, id, user, account, hi, hsame, hu, hopen⟩ := h
  obtain ⟨-, -, rfl⟩ := AuthDB.createRefreshToken_ok hopen.stored
  by_cases htoken : token = r.refreshToken
  · subst htoken
    rw [AList.lookup_insert, Option.some.injEq] at hrow
    subst hrow
    exact .inl ⟨rfl, hopen.owner, order, account.email, user, i, hi, hu, hopen.refreshToken⟩
  · rw [AList.lookup_insert_ne htoken, hsame] at hrow
    exact .inr hrow

lemma signin_cases {r : SessionRequest} {c : Bool → AuthCall SignInResult} {mobile : Bool}
    {ω : ℕ → AuthInput} (hr : signinOf cfg.toAuthConfig r = some (c, mobile))
    (h : (serveSession cfg s (r, ω)).refreshTokens.lookup token = some row) :
    Issues cfg (r, ω) s token row ∨ s.refreshTokens.lookup token = some row := by
  have hends : SignsIn cfg.toAuthConfig (c false) ω s.toAuthDB := signinOf_ends hr
  rw [serve_signin hr] at h
  unfold SignsIn at hends
  rcases hexec : (c false).exec ω s.toAuthDB with ⟨e | result, t⟩
  · rw [hexec] at h hends
    rw [← hends]
    exact .inr h
  · rw [hexec] at h hends
    obtain ⟨hreturned, howner, order, email, user, i, ⟨n, rfl⟩, hu, hsigned⟩ | hold :=
      signedIn_stored hends h
    · refine .inl ⟨?_, order, email, user, n, ?_, hsigned⟩
      · refine (signin_answers hr).imp And.left fun hyes => ?_
        exact ⟨result, by rw [hyes.2, hexec]; rfl, hreturned, howner⟩
      · rw [serve_signin hr, hexec]
        exact hu
    · exact .inr hold

/-- **Where a row is from**: from the sign-in that returned its token, or from before, when
nothing closed the session. -/
theorem stored_cases (h : (serveSession cfg s l).refreshTokens.lookup token = some row) :
    Issues cfg l s token row ∨
      s.refreshTokens.lookup token = some row ∧ ¬ Closes cfg token row.userId s l := by
  obtain ⟨r, ω⟩ := l
  rcases hsign : signinOf cfg.toAuthConfig r with _ | ⟨c, mobile⟩
  swap
  · refine (signin_cases hsign h).imp_right fun hold => ⟨hold, fun hcloses => ?_⟩
    have hcloses : r = .signout token ∨ r = .deleteUser row.userId := hcloses.2
    rcases hcloses with rfl | rfl <;> cases hsign
  refine .inr ?_
  have hserves := serve_cases cfg s (r, ω)
  generalize serveSession cfg s (r, ω) = t at h hserves
  cases hserves with
  | @auth _ a _ ha =>
    have hkept : (serveAuth cfg.toAuthConfig s.toAuthDB (a, ω)).refreshTokens =
        s.refreshTokens := by
      refine refreshTokens_auth ⟨fun email password mobile heq => ?_, fun idToken mobile heq => ?_⟩
      · subst heq
        cases r <;> cases ha
        cases hsign
      · subst heq
        cases r <;> cases ha
        cases hsign
    refine ⟨hkept ▸ h, fun hcloses => ?_⟩
    rcases hcloses.2 with rfl | rfl <;> cases ha
  | throws hr hrespond =>
    refine ⟨h, fun hcloses => ?_⟩
    have hok := hcloses.1
    rw [hrespond] at hok
    cases hok
  | @signout token' ω =>
    change (s.refreshTokens.erase token').lookup token = some row at h
    have hne : token ≠ token' := by
      rintro rfl
      simp at h
    refine ⟨by rwa [AList.lookup_erase_ne hne] at h, fun hcloses => ?_⟩
    rcases hcloses.2 with heq | heq
    · exact hne (SessionRequest.signout.inj heq).symm
    · cases heq
  | updateUserRole =>
    rw [updateUserRole_sameSessions.refreshTokens] at h
    exact ⟨h, fun hcloses => by cases hcloses.2 <;> contradiction⟩
  | deleteUser hdelete =>
    obtain ⟨-, -, _, _, rfl⟩ := deleteUser_ok hdelete
    change (s.refreshTokens.filter _).lookup token = some row at h
    rw [Table.lookup_filter, Option.filter_eq_some_iff] at h
    refine ⟨h.1, fun hcloses => ?_⟩
    rcases hcloses.2 with heq | heq
    · cases heq
    · cases heq
      simp at h
  | _ => exact ⟨h, fun hcloses => by cases hcloses.2 <;> contradiction⟩

/-! ### Runs -/

/-- The sign-in returned this token for this user, signed in this second. -/
def IssuedAt (cfg : SessionConfig) (token : String) (u : Id) (iat : ℕ) (s : ProfileDB)
    (l : SessionRequest × (ℕ → AuthInput)) : Prop :=
  (∃ r, (respond cfg s l).1 = .ok (.session r) ∧ r.refreshToken = token ∧ r.id = u) ∧
    ∃ n, (l.2 n).now = iat

/-- The token of a stored row was signed for a session of its user. -/
def SignedFor (cfg : SessionConfig) (token : String) (u : Id) (iat : ℕ) : Prop :=
  ∃ order email role, token = cfg.jwtSign order (.user email role u) iat 86400

/-- A stored row was written by the sign-in that returned its token. -/
lemma stored_since {ls : List (SessionRequest × (ℕ → AuthInput))} (h0 : s.refreshTokens = ∅)
    (hls : Machine.Along (serveSession cfg) (fun s l => ¬ Abandons cfg s l) s ls)
    (h : (Machine.run (serveSession cfg) s ls).refreshTokens.lookup token = some row) :
    ∃ iat, SignedFor cfg token row.userId iat ∧
      Machine.Since (serveSession cfg) (IssuedAt cfg token row.userId iat)
        (Closes cfg token row.userId) s ls := by
  have hstep : ∀ s l, ¬ Abandons cfg s l →
      (serveSession cfg s l).refreshTokens.lookup token = some row →
      (∃ iat, SignedFor cfg token row.userId iat ∧ IssuedAt cfg token row.userId iat s l) ∨
        s.refreshTokens.lookup token = some row ∧ ¬ Closes cfg token row.userId s l := by
    intro s l hreturns hl
    refine (stored_cases hl).imp_left fun hissues => ?_
    obtain ⟨order, email, user, n, -, hsigned⟩ := hissues.signed
    exact ⟨_, ⟨order, email, user.role, hsigned⟩, hissues.returned.resolve_left hreturns, n, rfl⟩
  obtain ⟨before, l, after, hls, ⟨iat, hsigned, hissued⟩, hafter⟩ :=
    Machine.since_of_run (fun t : ProfileDB => t.refreshTokens.lookup token = some row) hstep
      (by simp [h0]) hls h
  exact ⟨iat, hsigned, before, l, after, hls, hissued, hafter⟩

/-- **A refresh needs a session**: when every sign-in that stores a session on a phone goes on to
greet its user, a refresh token that is accepted was returned by a sign-in less than 24 hours before,
no sign-out with it has succeeded since and its user has not been deleted; and no token with the
lifetime of an access token or of a registration is one. -/
theorem refresh_needs_session (cfg : SessionConfig) (laws : JwtLaws cfg) (s : ProfileDB)
    (h0 : s.refreshTokens = ∅) (ls : List (SessionRequest × (ℕ → AuthInput)))
    (hls : Machine.Along (serveSession cfg) (fun s l => ¬ Abandons cfg s l) s ls) (token : String)
    (ω : ℕ → AuthInput) (tokens : String × String)
    (h : ((refreshTokens cfg token).exec ω
      (Machine.run (serveSession cfg) s ls).toAuthDB).1 = .ok tokens) :
    (∃ u iat, SignedFor cfg token u iat ∧ (ω 0).now < iat + 24 * 60 * 60 ∧
      Machine.Since (serveSession cfg) (IssuedAt cfg token u iat) (Closes cfg token u) s ls) ∧
    ∀ order payload iat, token ≠ cfg.jwtSign order payload iat defaultExpiresIn ∧
      token ≠ signSession cfg payload iat := by
  rw [refreshTokens_exec] at h
  rcases hverify : cfg.jwtVerify token (ω 0).now with _ | payload
  · rw [hverify] at h
    cases h
  rw [hverify] at h
  dsimp only at h
  split at h
  · cases h
  next hstale =>
  unfold Stale at hstale
  rcases hrow : (Machine.run (serveSession cfg) s ls).refreshTokens.lookup token with _ | row
  · simp [hrow] at hstale
  obtain ⟨iat, ⟨order, email, role, hsigned⟩, hsince⟩ := stored_since h0 hls hrow
  have hlife : ∀ order payload iat, token ≠ cfg.jwtSign order payload iat defaultExpiresIn := by
    intro order' payload iat' heq
    have hinj := laws.sign_inj _ _ _ _ _ _ _ _ (hsigned.symm.trans heq)
    exact absurd hinj.2.2.2 (by decide)
  refine ⟨⟨row.userId, iat, ⟨order, email, role, hsigned⟩, ?_, hsince⟩, fun order' payload iat' =>
    ⟨hlife order' payload iat', ?_⟩⟩
  · rw [hsigned] at hverify
    exact (laws.payload_of_verify hverify).2
  · cases payload with
    | user email' role' id => exact hlife _ _ _
    | registration userId =>
      rw [hsigned]
      exact laws.sign_ne_empty _ _ _ _ _ _

/-- A student who can sign in, and nobody did. -/
def sampleDB : ProfileDB where
  toDB := Sample.db
  accounts := AList.insert 1 { newAccount "a@x" with verified := true, password := some "pw" } ∅
  residences := AList.insert 1 ⟨none, none⟩ ∅
  verificationEmails := ∅
  refreshTokens := ∅
  authProviders := ∅
  emailQueue := []
  admins := [4]
  reports := []

/-- What the requests of the second `now` meet outside. -/
def sampleInputs (now : ℕ) (_ : ℕ) : AuthInput :=
  { toInput := { Sample.inputs 0 0 with now }, millis := 0, uuid := "t" }

/-- The token of a sign-in of the student. -/
def sampleToken : String :=
  Sample.sessionConfig.jwtSign .roleFirst (.user "a@x" .student 1) 0 86400

/-- The student signs in on a phone. -/
def signinOnce (ω : ℕ → AuthInput) : List (SessionRequest × (ℕ → AuthInput)) :=
  [(.signin "a@x" "pw" true, ω)]

lemma sampleToken_refreshes {ω : ℕ → AuthInput}
    (h : ((refreshTokens Sample.sessionConfig sampleToken).exec (sampleInputs 3600)
      (Machine.run (serveSession Sample.sessionConfig) sampleDB (signinOnce ω)).toAuthDB).1.isOk =
        true) :
    ∃ tokens, ((refreshTokens Sample.sessionConfig sampleToken).exec (sampleInputs 3600)
      (Machine.run (serveSession Sample.sessionConfig) sampleDB (signinOnce ω)).toAuthDB).1 =
        .ok tokens := by
  rcases htokens : ((refreshTokens Sample.sessionConfig sampleToken).exec (sampleInputs 3600)
      (Machine.run (serveSession Sample.sessionConfig) sampleDB (signinOnce ω)).toAuthDB).1
    with e | tokens
  · rw [htokens] at h
    cases h
  · exact ⟨tokens, rfl⟩

/-- The student signs in and refreshes an hour later. -/
theorem refresh_needs_session_student :
    ∃ u iat, SignedFor Sample.sessionConfig sampleToken u iat ∧ 3600 < iat + 24 * 60 * 60 ∧
      Machine.Since (serveSession Sample.sessionConfig)
        (IssuedAt Sample.sessionConfig sampleToken u iat)
        (Closes Sample.sessionConfig sampleToken u) sampleDB (signinOnce (sampleInputs 0)) := by
  obtain ⟨tokens, h⟩ := sampleToken_refreshes (ω := sampleInputs 0) (by decide +kernel)
  refine (refresh_needs_session Sample.sessionConfig Sample.sessionConfig_laws sampleDB rfl
    (signinOnce (sampleInputs 0)) ⟨?_, trivial⟩ _ _ _ h).1
  rintro ⟨c, mobile, -, -, -, hno⟩
  cases hno

/-- Everything answers but the query for the devices, which is the last step of the sign-in. -/
def ungreetedInputs (n : ℕ) : AuthInput :=
  { sampleInputs 0 n with ok := decide (n ≠ 3) }

/-- The sign-in throws, and its token is accepted although nobody was given it. -/
theorem unreturned_token_refreshed :
    (respond Sample.sessionConfig sampleDB (.signin "a@x" "pw" true, ungreetedInputs)).1 =
      .error .rejected ∧
    (∃ tokens, ((refreshTokens Sample.sessionConfig sampleToken).exec (sampleInputs 3600)
      (Machine.run (serveSession Sample.sessionConfig) sampleDB
        (signinOnce ungreetedInputs)).toAuthDB).1 = .ok tokens) ∧
    ¬ ∃ u iat, Machine.Since (serveSession Sample.sessionConfig)
      (IssuedAt Sample.sessionConfig sampleToken u iat) (Closes Sample.sessionConfig sampleToken u)
      sampleDB (signinOnce ungreetedInputs) := by
  have hthrows : (respond Sample.sessionConfig sampleDB
      (.signin "a@x" "pw" true, ungreetedInputs)).1 = .error .rejected := by decide +kernel
  refine ⟨hthrows, sampleToken_refreshes (by decide +kernel), ?_⟩
  rintro ⟨u, iat, before, l, after, hls, ⟨⟨r, hr, -⟩, -⟩, -⟩
  rcases before with _ | ⟨l', before⟩
  · cases hls
    rw [Machine.run_nil, hthrows] at hr
    cases hr
  · have hlength := congrArg List.length hls
    simp [signinOnce] at hlength

end TsaBackend.RefreshTokens
