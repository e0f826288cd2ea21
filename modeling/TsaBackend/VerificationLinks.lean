import TsaBackend.SessionSteps
import TsaBackend.SessionTokens

/-!
What a completion link proves about its user.

A link is given for the row that the token of the request finds. A request without a token
finds any row that has not expired, and one with a filter in its place any that the filter keeps.
-/

namespace TsaBackend.VerificationLinks

open Call AuthSteps SessionSteps

variable {cfg : SessionConfig} {s t : ProfileDB} {u : Id} {v : VerificationEmail}
  {l : SessionRequest × (ℕ → AuthInput)} {ω : ℕ → AuthInput}

/-- The verification that is generated from these inputs. -/
def newVerification (i : AuthInput) : VerificationEmail where
  token := i.uuid
  expiresAt := i.ms + 3600000

/-- The link of the verification email. -/
def verificationLink (cfg : AuthConfig) (token : String) (mobile : Bool) : String :=
  cfg.appUrl ++ "/api/auth/signup/verify?token=" ++ token ++ "&mobile=" ++ toString mobile

/-- The statement of a registration, for the user it found or for a new one. -/
def stored (email : String) (user : Option (Id × User × UserAccount)) (i : AuthInput)
    (s : AuthDB) : Except Exn AuthDB :=
  match user with
  | some (id, _, _) => s.upsertVerificationEmail id (newVerification i)
  | none => do
    let s ← s.createUser i.fresh (newAccount email)
    s.createVerificationEmail i.fresh (newVerification i)

lemma storeVerification_eq (email : String) (user : Option (Id × User × UserAccount)) :
    storeVerification email user =
      .atomic fun i s => (stored email user i s).map fun s => (i.uuid, s) := by
  unfold storeVerification stored
  refine congrArg Call.atomic (funext fun i => funext fun s => ?_)
  rcases user with _ | ⟨id, user, account⟩
  · rcases s.createUser i.fresh (newAccount email) with e | s₁
    · rfl
    · change (s₁.createVerificationEmail _ _ >>= fun s => pure (i.uuid, s)) = _
      rcases s₁.createVerificationEmail i.fresh (newVerification i) with e | t <;> rfl
  · change (s.upsertVerificationEmail id (newVerification i) >>= fun s => pure (i.uuid, s)) =
      (s.upsertVerificationEmail id (newVerification i)).map fun s => (i.uuid, s)
    rcases s.upsertVerificationEmail id (newVerification i) with e | t <;> rfl

/-- A registration passes the check and stores a verification for this user. -/
def Stores (email : String) (i : AuthInput) (s : AuthDB) (u : Id) (t : AuthDB) : Prop :=
  (s.findUserByEmail email).any (fun (_, _, account) => account.verified) = false ∧
    stored email (s.findUserByEmail email) i s = .ok t ∧
    ((s.findUserByEmail email).map (·.1)).getD i.fresh = u

lemma send_exec (email link message : String) (ω : ℕ → AuthInput) (s : AuthDB) :
    ((do sendVerificationEmail email link; return message : AuthCall String).exec ω s).2 =
      if (ω 0).ok = true then { s with emailQueue := s.emailQueue ++ [(email, link)] } else s := by
  unfold sendVerificationEmail
  rw [exec_atomic_bind]
  by_cases hok : (ω 0).ok = true
  · rw [if_pos hok, if_pos hok]
    rfl
  · rw [if_neg hok, if_neg hok]

/-- **A registration that runs alone** stores nothing, or a verification that it mails when the
queue answers. -/
theorem initiateRegistration_ends (cfg : AuthConfig) (email : String) (mobile : Bool)
    (ω : ℕ → AuthInput) (s : AuthDB) :
    ((∀ u t, ¬ Stores email (ω 1) s u t) ∧
      ((initiateRegistration cfg email mobile).exec ω s).2 = s) ∨
    ∃ u t, Stores email (ω 1) s u t ∧ ((initiateRegistration cfg email mobile).exec ω s).2 =
      if (ω 2).ok = true then
        { t with emailQueue := t.emailQueue ++ [(email, verificationLink cfg (ω 1).uuid mobile)] }
      else t := by
  unfold initiateRegistration
  rw [exec_read_bind, exec_throwIf_bind]
  split
  · next hverified => exact .inl ⟨fun u t h => by simp [h.1] at hverified, rfl⟩
  next hverified =>
  rw [storeVerification_eq, exec_atomic_bind]
  rcases hstored : stored email (s.findUserByEmail email) (ω 1) s with e | t
  · refine .inl ⟨fun u t h => ?_, ?_⟩
    · rw [h.2.1] at hstored
      cases hstored
    · rfl
  · refine .inr ⟨_, t, ⟨Bool.eq_false_iff.mpr hverified, hstored, rfl⟩, ?_⟩
    exact send_exec _ _ _ _ _

/-- The request stored this verification for the user. -/
def Generates (u : Id) (v : VerificationEmail) (s : ProfileDB)
    (l : SessionRequest × (ℕ → AuthInput)) : Prop :=
  ∃ email mobile t, l.1 = .initiateRegistration email mobile ∧
    Stores email (l.2 1) s.toAuthDB u t ∧ v = newVerification (l.2 1)

/-- The request stored it and mailed its token to the address of the user. -/
def Mails (cfg : SessionConfig) (u : Id) (v : VerificationEmail) (s : ProfileDB)
    (l : SessionRequest × (ℕ → AuthInput)) : Prop :=
  Generates u v s l ∧ ∃ email mobile, l.1 = .initiateRegistration email mobile ∧
    ((serveSession cfg s l).accounts.lookup u).map (·.email) = some email ∧
    (serveSession cfg s l).emailQueue =
      s.emailQueue ++ [(email, verificationLink cfg.toAuthConfig v.token mobile)]

/-- The queue answers when a verification has been stored. -/
def QueueAnswers (s : ProfileDB) (l : SessionRequest × (ℕ → AuthInput)) : Prop :=
  (∃ u v, Generates u v s l) → (l.2 2).ok = true

/-- What a stored verification leaves of the others, and whose it is. -/
lemma Stores.rows {email : String} {i : AuthInput} {s t : AuthDB} (h : Stores email i s u t) :
    (∀ j, t.verificationEmails.lookup j =
      if j = u then some (newVerification i) else s.verificationEmails.lookup j) ∧
    (t.accounts.lookup u).map (·.email) = some email ∧ t.emailQueue = s.emailQueue := by
  obtain ⟨-, hstored, hu⟩ := h
  rcases hfound : s.findUserByEmail email with _ | ⟨id, user, account⟩
  · rw [hfound] at hstored hu
    obtain ⟨s₁, hcreate, hverify⟩ := ok_of_bind hstored
    obtain ⟨-, -, rfl⟩ := AuthDB.createUser_ok hcreate
    obtain ⟨-, -, rfl⟩ := AuthDB.createVerificationEmail_ok hverify
    change i.fresh = u at hu
    subst hu
    refine ⟨fun j => ?_, by simp [newAccount], rfl⟩
    split
    · next hj => rw [hj, AList.lookup_insert]
    · next hj => exact AList.lookup_insert_ne hj
  · rw [hfound] at hstored hu
    change id = u at hu
    subst hu
    obtain ⟨-, haccount, hemail⟩ := findUserByEmail_some hfound
    refine ⟨upsertVerificationEmail_lookup hstored, ?_, ?_⟩
    · obtain ⟨_, rfl⟩ := AuthDB.upsertVerificationEmail_ok hstored
      simp [haccount, hemail]
    · obtain ⟨_, rfl⟩ := AuthDB.upsertVerificationEmail_ok hstored
      rfl

lemma Stores.unique {email : String} {i : AuthInput} {s t t' : AuthDB} {u' : Id}
    (h : Stores email i s u t) (h' : Stores email i s u' t') : u' = u :=
  h'.2.2.symm.trans h.2.2

/-- No verification is new. -/
def Shrinks (s t : AuthDB) : Prop :=
  ∀ u v, t.verificationEmails.lookup u = some v → s.verificationEmails.lookup u = some v

lemma shrinks_of_eq {s t : AuthDB} (h : t.verificationEmails = s.verificationEmails) :
    Shrinks s t := fun _ _ hv => h ▸ hv

lemma lookup_of_erase {v : VerificationEmail} {rows : Table Id VerificationEmail} {j : Id}
    (h : (rows.erase j).lookup u = some v) : rows.lookup u = some v := by
  have hne : u ≠ j := by
    rintro rfl
    simp at h
  rwa [AList.lookup_erase_ne hne] at h

lemma shrinks_writes {cfg : AuthConfig} {s t : AuthDB} {r : AuthRequest}
    (hr : ∀ email mobile, r ≠ .initiateRegistration email mobile) (h : AuthWrites cfg s r t) :
    Shrinks s t := by
  cases h with
  | none => exact shrinks_of_eq rfl
  | resend h => exact absurd rfl (hr _ _)
  | register h ht => exact absurd rfl (hr _ _)
  | queue => exact absurd rfl (hr _ _)
  | complete h =>
    obtain ⟨-, -, -, rfl⟩ := AuthDB.completeRegistration_ok h
    exact fun u v hv => lookup_of_erase hv
  | create h =>
    obtain ⟨-, -, rfl⟩ := AuthDB.createUser_ok h
    exact shrinks_of_eq rfl
  | photo h =>
    obtain ⟨-, rfl⟩ := AuthDB.updateAccountRow_ok h
    exact shrinks_of_eq rfl
  | session _ h =>
    obtain ⟨-, -, rfl⟩ := AuthDB.createRefreshToken_ok h
    exact shrinks_of_eq rfl

lemma shrinks_auth {cfg : AuthConfig} {s : AuthDB} {r : AuthRequest}
    (hr : ∀ email mobile, r ≠ .initiateRegistration email mobile) :
    Shrinks s (serveAuth cfg s (r, ω)) :=
  serveAuth_rule (Shrinks s) (shrinks_of_eq rfl)
    (fun _ _ hw ha u v hv => ha u v (shrinks_writes hr hw u v hv)) fun _ => shrinks_of_eq rfl

lemma serve_initiate (cfg : SessionConfig) (email : String) (mobile : Bool) (ω : ℕ → AuthInput)
    (s : ProfileDB) : serveSession cfg s (.initiateRegistration email mobile, ω) = { s with
      toAuthDB := ((initiateRegistration cfg.toAuthConfig email mobile).exec ω s.toAuthDB).2 } :=
  congrArg Prod.snd (onProfiles_exec (initiateRegistration cfg.toAuthConfig email mobile)
    SessionResponse.message ω s)

lemma row_initiate {email : String} {mobile : Bool}
    (hqueue : QueueAnswers s (.initiateRegistration email mobile, ω))
    (h : (serveSession cfg s (.initiateRegistration email mobile, ω)).verificationEmails.lookup u =
      some v) :
    Mails cfg u v s (.initiateRegistration email mobile, ω) ∨
      s.verificationEmails.lookup u = some v ∧
        ¬ ∃ v', Generates u v' s (.initiateRegistration email mobile, ω) := by
  have hserve := serve_initiate cfg email mobile ω s
  rcases initiateRegistration_ends cfg.toAuthConfig email mobile ω s.toAuthDB with
    ⟨hno, hends⟩ | ⟨u', t, hstores, hends⟩
  · rw [hserve, hends] at h
    refine .inr ⟨h, ?_⟩
    rintro ⟨v', email', mobile', t, heq, hstores, -⟩
    cases heq
    exact hno _ _ hstores
  · have hgenerates : Generates u' (newVerification (ω 1)) s
        (.initiateRegistration email mobile, ω) := ⟨email, mobile, t, rfl, hstores, rfl⟩
    rw [if_pos (hqueue ⟨u', _, hgenerates⟩)] at hends
    rw [hends] at hserve
    obtain ⟨hrows, haccount, hmails⟩ := hstores.rows
    have hrow : t.verificationEmails.lookup u = some v := by rwa [hserve] at h
    rw [hrows] at hrow
    split at hrow
    · next hu =>
      cases hu
      cases hrow
      refine .inl ⟨hgenerates, email, mobile, rfl, ?_, ?_⟩
      · rw [hserve]
        exact haccount
      · rw [hserve]
        exact congrArg (· ++ _) hmails
    · next hu =>
      refine .inr ⟨hrow, ?_⟩
      rintro ⟨v', email', mobile', t', heq, hstores', -⟩
      cases heq
      exact hu (hstores.unique hstores')

/-- **Where a verification is from**: from the registration that mailed it, or from before, when
none was generated for the user. -/
theorem row_cases (hqueue : QueueAnswers s l)
    (h : (serveSession cfg s l).verificationEmails.lookup u = some v) :
    Mails cfg u v s l ∨
      s.verificationEmails.lookup u = some v ∧ ¬ ∃ v', Generates u v' s l := by
  by_cases hl : ∃ email mobile, l.1 = .initiateRegistration email mobile
  · obtain ⟨r, ω⟩ := l
    obtain ⟨email, mobile, rfl⟩ := hl
    exact row_initiate hqueue h
  have hshrinks : Shrinks s.toAuthDB (serveSession cfg s l).toAuthDB := by
    have hserves := serve_cases cfg s l
    generalize serveSession cfg s l = t at hserves ⊢
    cases hserves with
    | @auth r a ω ha =>
      refine shrinks_auth fun email mobile heq => hl ⟨email, mobile, ?_⟩
      subst heq
      cases r <;> cases ha
      rfl
    | updateUserRole => exact shrinks_of_eq updateUserRole_sameSessions.verificationEmails
    | deleteUser hdelete =>
      obtain ⟨-, -, _, _, rfl⟩ := deleteUser_ok hdelete
      exact fun u v hv => lookup_of_erase hv
    | _ => exact shrinks_of_eq rfl
  refine .inr ⟨hshrinks u v h, ?_⟩
  rintro ⟨v', email, mobile, t, heq, -⟩
  exact hl ⟨email, mobile, heq⟩

/-! ### Completion links -/

/-- The link that carries a token. -/
def linkOf (cfg : AuthConfig) (mobile : Bool) (jwtToken : String) : String :=
  if mobile then cfg.mobileUrlCompleteSignup ++ "/" ++ jwtToken
  else cfg.frontendUrlCompleteSignup ++ "?token=" ++ jwtToken

/-- The link holds a registration token of this user. -/
def LinkFor (cfg : AuthConfig) (mobile : Bool) (u : Id) (url : String) : Prop :=
  ∃ iat, url = linkOf cfg mobile
    (cfg.jwtSign .roleFirst (.registration u) iat defaultExpiresIn)

lemma linkOf_inj {cfg : AuthConfig} {mobile : Bool} {jwtToken jwtToken' : String}
    (h : linkOf cfg mobile jwtToken = linkOf cfg mobile jwtToken') : jwtToken = jwtToken' := by
  unfold linkOf at h
  split at h
  · exact (String.append_right_inj _).mp h
  · exact (String.append_right_inj _).mp h

lemma LinkFor.unique (laws : JwtLaws cfg) {mobile : Bool} {u' : Id} {url : String}
    (h : LinkFor cfg.toAuthConfig mobile u url) (h' : LinkFor cfg.toAuthConfig mobile u' url) :
    u' = u := by
  obtain ⟨iat, rfl⟩ := h
  obtain ⟨iat', heq⟩ := h'
  obtain ⟨-, hpayload, -⟩ := laws.sign_inj _ _ _ _ _ _ _ _ (linkOf_inj heq)
  cases hpayload
  rfl

/-- The row that the token finds. -/
def foundRow (token : Field String) (i : AuthInput) (s : AuthDB) :
    Option (Id × VerificationEmail) :=
  s.verificationEmails.findFirst i.pick fun _ v =>
    token.keeps (some v.token) && decide (i.ms < v.expiresAt)

lemma verifyEmail_exec (cfg : AuthConfig) {token : Field String} (htoken : token.filters false)
    (mobile : Bool) (ω : ℕ → AuthInput) (s : AuthDB) :
    (verifyEmail cfg token mobile).exec ω s = (match foundRow token (ω 0) s with
      | some (u, _) =>
        .ok (linkOf cfg mobile
          (cfg.jwtSign .roleFirst (.registration u) (ω 1).now defaultExpiresIn))
      | none => .error (.badRequest "Invalid or expired token"), s) := by
  unfold verifyEmail
  rw [exec_throwIf_bind, if_neg (not_not.mpr htoken), exec_read_bind]
  rcases hfound : foundRow token (ω 0) s with _ | ⟨u, v⟩
  · rw [show s.verificationEmails.findFirst _ _ = _ from hfound]
    rfl
  · rw [show s.verificationEmails.findFirst _ _ = _ from hfound]
    unfold linkOf
    cases mobile <;> rfl

/-- If the call returns a link for a user, its argument is the token that was last generated for
and mailed to that user, and has not expired. -/
def ProvesOwnership (cfg : SessionConfig) (s : ProfileDB)
    (ls : List (SessionRequest × (ℕ → AuthInput))) (token : Field String) (mobile : Bool)
    (ω : ℕ → AuthInput) : Prop :=
  ∀ url u, ((verifyEmail cfg.toAuthConfig token mobile).exec ω
      (Machine.run (serveSession cfg) s ls).toAuthDB).1 = .ok url →
    LinkFor cfg.toAuthConfig mobile u url → ∃ v, token = .val v.token ∧ (ω 0).ms < v.expiresAt ∧
      Machine.Since (serveSession cfg) (Mails cfg u v) (fun s l => ∃ v', Generates u v' s l) s ls

/-- The token is a text, or a filter that keeps only rows that have expired. -/
def TextOrNothing (s : AuthDB) (token : Field String) (i : AuthInput) : Prop :=
  (∀ tok, token ≠ .val tok) → token.filters false = true → ∀ u v,
    s.verificationEmails.lookup u = some v → token.keeps (some v.token) = true → v.expiresAt ≤ i.ms

/-- A row of a run was mailed to its user, who got no other one since. -/
lemma row_since {ls : List (SessionRequest × (ℕ → AuthInput))} (h0 : s.verificationEmails = ∅)
    (hls : Machine.Along (serveSession cfg) QueueAnswers s ls)
    (h : (Machine.run (serveSession cfg) s ls).verificationEmails.lookup u = some v) :
    Machine.Since (serveSession cfg) (Mails cfg u v) (fun s l => ∃ v', Generates u v' s l) s ls :=
  Machine.since_of_run (fun t : ProfileDB => t.verificationEmails.lookup u = some v)
    (fun _ _ hqueue hrow => row_cases hqueue hrow) (by simp [h0]) hls h

/-- **When a completion link proves that the address is the user's**: in a run of requests of all
services that starts without verifications and whose stored ones are all mailed, just when the
token of the call is a text, or there is no row to find without it. -/
theorem link_proves_ownership_iff (cfg : SessionConfig) (laws : JwtLaws cfg) (s : ProfileDB)
    (h0 : s.verificationEmails = ∅) (ls : List (SessionRequest × (ℕ → AuthInput)))
    (hls : Machine.Along (serveSession cfg) QueueAnswers s ls) (token : Field String)
    (mobile : Bool) (ω : ℕ → AuthInput) : ProvesOwnership cfg s ls token mobile ω ↔
      TextOrNothing (Machine.run (serveSession cfg) s ls).toAuthDB token (ω 0) := by
  constructor
  · intro h htext hfilters u v hv hkeeps
    by_contra hms
    rcases hfound : foundRow token (ω 0) (Machine.run (serveSession cfg) s ls).toAuthDB
      with _ | ⟨u', v'⟩
    · have hp := Table.findFirst_none.mp hfound u v hv
      simp only [hkeeps, Bool.true_and, decide_eq_false_iff_not] at hp
      omega
    · have hexec := verifyEmail_exec cfg.toAuthConfig hfilters mobile ω
        (Machine.run (serveSession cfg) s ls).toAuthDB
      rw [hfound] at hexec
      obtain ⟨w, htoken, -⟩ := h _ u' (congrArg Prod.fst hexec) ⟨_, rfl⟩
      exact htext _ htoken
  · intro htext url u hok hlink
    by_cases hfilters : token.filters false = true
    swap
    · unfold verifyEmail at hok
      rw [exec_throwIf_bind, if_pos hfilters] at hok
      cases hok
    rw [verifyEmail_exec _ hfilters] at hok
    rcases hfound : foundRow token (ω 0) (Machine.run (serveSession cfg) s ls).toAuthDB
      with _ | ⟨u', v⟩
    · rw [hfound] at hok
      cases hok
    · rw [hfound] at hok
      have hurl := Except.ok.inj hok
      obtain rfl : u' = u := hlink.unique laws ⟨_, hurl.symm⟩
      obtain ⟨hv, hp⟩ := Table.findFirst_some hfound
      simp only [Bool.and_eq_true, decide_eq_true_eq] at hp
      obtain ⟨hkeeps, hms⟩ := hp
      refine ⟨v, ?_, hms, row_since h0 hls hv⟩
      by_cases hval : ∃ tok, token = .val tok
      · obtain ⟨tok, rfl⟩ := hval
        simp only [Field.keeps, beq_iff_eq, Option.some.injEq] at hkeeps
        rw [hkeeps]
      · have hexpired := htext (not_exists.mp hval) hfilters u' v hv hkeeps
        omega

/-- Nobody has an address yet. -/
def sampleDB : ProfileDB where
  toDB := Sample.db
  accounts := ∅
  residences := ∅
  verificationEmails := ∅
  refreshTokens := ∅
  authProviders := ∅
  emailQueue := []
  admins := [4]
  reports := []

/-- New users get the id 5. -/
def sampleInputs (_ : ℕ) : AuthInput := { toInput := Sample.inputs 5 0, millis := 0, uuid := "t" }

def register : List (SessionRequest × (ℕ → AuthInput)) :=
  [(.initiateRegistration "n@x" false, sampleInputs)]

lemma register_queued :
    Machine.Along (serveSession Sample.sessionConfig) QueueAnswers sampleDB register :=
  ⟨fun _ => rfl, trivial⟩

theorem link_proves_ownership_token :
    ProvesOwnership Sample.sessionConfig sampleDB register (.val "t") false sampleInputs :=
  (link_proves_ownership_iff Sample.sessionConfig Sample.sessionConfig_laws sampleDB rfl register
    register_queued (.val "t") false sampleInputs).mpr fun htext => absurd rfl (htext "t")

/-- `token[not]=x` -/
def notX : Field String := .filter fun token => token != some "x"

/-- Without a token, and with a filter that any token passes, the call returns the link of the user
who has just registered. -/
theorem link_without_token :
    sampleDB.verificationEmails = ∅ ∧
      Machine.Along (serveSession Sample.sessionConfig) QueueAnswers sampleDB register ∧
      ∀ token ∈ [.undefined, notX],
        ((verifyEmail Sample.sessionConfig.toAuthConfig token false).exec sampleInputs
          (Machine.run (serveSession Sample.sessionConfig) sampleDB register).toAuthDB).1 =
          .ok (linkOf Sample.sessionConfig.toAuthConfig false (Sample.sessionConfig.jwtSign
            .roleFirst (.registration 5) 1000 defaultExpiresIn)) ∧
        ¬ ProvesOwnership Sample.sessionConfig sampleDB register token false sampleInputs := by
  refine ⟨rfl, register_queued, fun token htoken => ?_⟩
  have hlink : ((verifyEmail Sample.sessionConfig.toAuthConfig token false).exec sampleInputs
      (Machine.run (serveSession Sample.sessionConfig) sampleDB register).toAuthDB).1 =
      .ok (linkOf Sample.sessionConfig.toAuthConfig false (Sample.sessionConfig.jwtSign
        .roleFirst (.registration 5) 1000 defaultExpiresIn)) := by
    simp only [List.mem_cons, List.not_mem_nil, or_false] at htoken
    rcases htoken with rfl | rfl
    · decide +kernel
    · decide +kernel
  refine ⟨hlink, fun h => ?_⟩
  obtain ⟨v, hval, -⟩ := h _ 5 hlink ⟨1000, rfl⟩
  subst hval
  simp [notX] at htoken

end TsaBackend.VerificationLinks
