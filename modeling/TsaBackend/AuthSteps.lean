import TsaBackend.Auth
import TsaBackend.Protocol

/-!
What the calls of registration and sign-in write: each of their steps, whatever comes between
them, and what a sign-in that runs alone leaves.
-/

namespace TsaBackend.AuthSteps

open Call

variable {α : Type} {cfg : AuthConfig} {s t : AuthDB}

/-- What one step of a request of registration or sign-in can make of the tables. -/
inductive AuthWrites (cfg : AuthConfig) (s : AuthDB) : AuthRequest → AuthDB → Prop
  | none {r : AuthRequest} : AuthWrites cfg s r s
  | resend {email : String} {mobile : Bool} {id : Id} {v : VerificationEmail} {t : AuthDB}
    (h : s.upsertVerificationEmail id v = .ok t) :
    AuthWrites cfg s (.initiateRegistration email mobile) t
  | register {email : String} {mobile : Bool} {id : Id} {v : VerificationEmail} {s₁ t : AuthDB}
    (h : s.createUser id (newAccount email) = .ok s₁)
    (ht : s₁.createVerificationEmail id v = .ok t) :
    AuthWrites cfg s (.initiateRegistration email mobile) t
  | queue {email : String} {mobile : Bool} {mail : String × String} :
    AuthWrites cfg s (.initiateRegistration email mobile)
      { s with emailQueue := s.emailQueue ++ [mail] }
  | complete {dto : SignUpDto} {id : Id} {hash : String} {t : AuthDB}
    (h : s.completeRegistration id dto hash = .ok t) :
    AuthWrites cfg s (.completeRegistration dto) t
  | create {idToken : String} {mobile : Bool} {id : Id} {account : UserAccount} {s₁ : AuthDB}
    (h : s.createUser id account = .ok s₁) : AuthWrites cfg s (.signInWithGoogle idToken mobile)
      { s₁ with authProviders := s₁.authProviders.insert id .google }
  | photo {idToken : String} {mobile : Bool} {id : Id} {photoUrl : UserAccount → Option String}
    {t : AuthDB}
    (h : s.updateAccountRow id (fun account => { account with photoUrl := photoUrl account }) =
      .ok t) : AuthWrites cfg s (.signInWithGoogle idToken mobile) t
  | session {r : AuthRequest} {token : String} {row : RefreshToken} {t : AuthDB}
    (hr : (∃ email password mobile, r = .signin email password mobile) ∨
      ∃ idToken mobile, r = .signInWithGoogle idToken mobile)
    (h : s.createRefreshToken token row = .ok t) : AuthWrites cfg s r t

lemma AuthDB.completeRegistration_ok {s t : AuthDB} {id : Id} {dto : SignUpDto} {hash : String}
    (h : s.completeRegistration id dto hash = .ok t) :
    id ∈ s.accounts ∧ id ∈ s.students ∧ id ∈ s.verificationEmails ∧ t = { s with
      accounts := s.accounts.modify id fun account => { account with
        firstName := some dto.firstName
        lastName := some dto.lastName
        phoneNumber := dto.phoneNumber.patch account.phoneNumber
        password := some hash
        verified := true }
      students := s.students.modify id fun student =>
        { student with dormitory := some dto.dormitory }
      residences := s.residences.modify id fun _ =>
        { building := some dto.building, room := some dto.room }
      verificationEmails := s.verificationEmails.erase id } := by
  obtain ⟨s₁, h₁, h⟩ := ok_of_bind h
  obtain ⟨s₂, h₂, h⟩ := ok_of_bind h
  obtain ⟨haccount, rfl⟩ := AuthDB.updateAccountRow_ok h₁
  obtain ⟨hstudent, rfl⟩ := AuthDB.updateStudentRow_ok h₂
  obtain ⟨hrow, rfl⟩ := AuthDB.deleteVerificationEmail_ok h
  exact ⟨haccount, hstudent, hrow, rfl⟩

section Steps

variable {r : AuthRequest}

lemma writes_read (f : AuthInput → AuthDB → α) :
    (Call.read f : AuthCall α).Steps fun s t => AuthWrites cfg s r t :=
  steps_read f fun _ => .none

lemma writes_atomic {f : AuthInput → AuthDB → Except Exn (α × AuthDB)}
    (h : ∀ i s a t, f i s = .ok (a, t) → AuthWrites cfg s r t) :
    (Call.atomic f : AuthCall α).Steps fun s t => AuthWrites cfg s r t :=
  steps_atomic h fun _ => .none

lemma initiateRegistration_writes {email : String} {mobile : Bool} :
    (initiateRegistration cfg email mobile).Steps fun s t =>
      AuthWrites cfg s (.initiateRegistration email mobile) t := by
  unfold initiateRegistration
  refine (writes_read _).bind fun user => ?_
  refine (steps_throwIf _ _).bind fun _ => ?_
  refine Steps.bind (writes_atomic fun i s a t h => ?_) fun token => ?_
  · rcases user with _ | ⟨id, user, account⟩
    · obtain ⟨s₁, hcreate, h⟩ := ok_of_bind h
      obtain ⟨s₂, hverify, h⟩ := ok_of_bind h
      cases h
      exact .register hcreate hverify
    · obtain ⟨s₁, hverify, h⟩ := ok_of_bind h
      cases h
      exact .resend hverify
  · refine Steps.bind (writes_atomic fun i s a t h => ?_) fun _ => steps_pure _
    split at h
    · cases h
      exact .queue
    · cases h

lemma verifyEmail_writes {token : Field String} {mobile : Bool} :
    (verifyEmail cfg token mobile).Steps fun s t =>
      AuthWrites cfg s (.verifyEmail token mobile) t := by
  unfold verifyEmail
  refine (steps_throwIf _ _).bind fun _ => ?_
  refine (writes_read _).bind fun found => ?_
  rcases found with _ | ⟨userId, v⟩
  · exact steps_throw _
  refine (writes_read _).bind fun jwtToken => ?_
  exact Steps.ite (fun _ => steps_pure _) fun _ => steps_pure _

lemma completeRegistration_writes {dto : SignUpDto} :
    (completeRegistration cfg dto).Steps fun s t =>
      AuthWrites cfg s (.completeRegistration dto) t := by
  unfold completeRegistration
  refine Steps.bind (writes_atomic fun i s a t h => ?_) fun userId => ?_
  · rcases hr : registrationUser cfg dto.token i.now with e | userId
    · simp [hr, Except.map] at h
    · simp only [hr, Except.map, Except.ok.injEq, Prod.mk.injEq] at h
      rw [← h.2]
      exact .none
  refine (writes_read _).bind fun user => ?_
  refine (steps_throwIf _ _).bind fun _ => ?_
  exact Steps.bind (writes_atomic fun i s a t h => .complete (of_map_ok h)) fun _ => steps_pure _

lemma validateUser_steps {G : AuthDB → AuthDB → Prop} (hrefl : ∀ s, G s s)
    {email password : String} : (validateUser cfg email password).Steps G := by
  unfold validateUser
  refine (steps_read _ hrefl).bind fun found => ?_
  rcases found with _ | ⟨id, user, account⟩
  · exact steps_throw _
  refine (steps_throwIf _ _).bind fun _ => ?_
  refine (steps_throwIf _ _).bind fun _ => ?_
  refine Steps.bind ?_ fun _ => steps_pure _
  unfold checkPassword
  rcases account.password with _ | hash
  · exact steps_throw _
  · exact steps_throwIf _ _

lemma findStudentInfo_steps {G : AuthDB → AuthDB → Prop} (hrefl : ∀ s, G s s) {id : Id}
    {user : User} : (findStudentInfo id user).Steps G := by
  unfold findStudentInfo
  refine Steps.ite (fun _ => ?_) fun _ => steps_pure _
  refine (steps_read _ hrefl).bind fun found => ?_
  rcases found with ⟨_ | student, _ | residence⟩
  · exact steps_throw _
  · exact steps_throw _
  · exact steps_throw _
  · exact steps_pure _

lemma sendGreeting_steps {G : AuthDB → AuthDB → Prop} (hrefl : ∀ s, G s s) :
    sendGreeting.Steps G := by
  refine steps_atomic (fun i s a t h => ?_) hrefl
  split at h
  · cases h
    exact hrefl s
  · cases h

lemma openSession_writes {order : ClaimOrder} {id : Id} {user : User} {account : UserAccount}
    {mobile : Bool} (hr : (∃ email password mobile, r = .signin email password mobile) ∨
      ∃ idToken mobile, r = .signInWithGoogle idToken mobile) :
    (openSession cfg order id user account mobile).Steps fun s t => AuthWrites cfg s r t := by
  unfold openSession
  refine (findStudentInfo_steps fun _ => .none).bind fun info => ?_
  refine Steps.bind (writes_atomic fun i s a t h => ?_) fun tokens => ?_
  · obtain ⟨s₁, hcreate, h⟩ := ok_of_bind h
    cases h
    exact .session hr hcreate
  · exact (Steps.when fun _ => sendGreeting_steps fun _ => .none).bind fun _ => steps_pure _

lemma signInWithGoogle_writes {idToken : String} {mobile : Bool} :
    (signInWithGoogle cfg idToken mobile).Steps fun s t =>
      AuthWrites cfg s (.signInWithGoogle idToken mobile) t := by
  unfold signInWithGoogle
  refine (writes_read _).bind fun decodedToken => ?_
  rcases decodedToken with _ | decoded
  · exact steps_throw _
  dsimp only
  rcases decoded.email with _ | email
  · exact steps_throw _
  dsimp only
  refine Steps.bind ?_ fun found => ?_
  · unfold findOrCreateGoogleUser
    refine (writes_read _).bind fun found => ?_
    rcases found with _ | user
    · dsimp only
      rcases decoded.name with _ | name
      · exact steps_throw _
      refine writes_atomic fun i s a t h => ?_
      obtain ⟨s₁, hcreate, h⟩ := ok_of_bind h
      cases h
      exact .create hcreate
    · exact steps_pure _
  · obtain ⟨id, user, account⟩ := found
    refine Steps.bind (Steps.when fun _ => writes_atomic fun i s a t h => ?_) fun _ =>
      openSession_writes (.inr ⟨idToken, mobile, rfl⟩)
    have hphoto := of_map_ok h
    exact .photo hphoto

/-- The requests of registration and sign-in. -/
def OfAuth : AuthRequest → Prop
  | .other _ => False
  | _ => True

/-- **The steps of registration and sign-in**, whatever comes between them. -/
theorem auth_steps (hr : OfAuth r) : (r.call cfg).Steps fun s t => AuthWrites cfg s r t := by
  cases r with
  | other r => exact hr.elim
  | initiateRegistration email mobile =>
    exact initiateRegistration_writes.bind fun _ => steps_pure _
  | verifyEmail token mobile => exact verifyEmail_writes.bind fun _ => steps_pure _
  | completeRegistration dto => exact completeRegistration_writes.bind fun _ => steps_pure _
  | signin email password mobile =>
    exact (validateUser_steps fun _ => .none).bind fun _ =>
      (openSession_writes (.inl ⟨email, password, mobile, rfl⟩)).bind fun _ => steps_pure _
  | signInWithGoogle idToken mobile => exact signInWithGoogle_writes.bind fun _ => steps_pure _

/-- **The rule of one request**: what the writes of registration and sign-in keep, and what the
other services keep on their tables. -/
theorem serveAuth_rule (P : AuthDB → Prop) {ω : ℕ → AuthInput} (hs : P s)
    (hwrites : ∀ a b, AuthWrites cfg a r b → P a → P b)
    (hother : ∀ r', P { s with
      toDB := serveAccount cfg.toConfig s.toDB (r', fun n => (ω n).toInput) }) :
    P (serveAuth cfg s (r, ω)) := by
  by_cases hauth : OfAuth r
  · exact ((auth_steps hauth).preserves hwrites).exec hs ω
  · cases r with
    | other r' =>
      rw [serveAuth, AuthRequest.call, exec_zoom]
      exact hother r'
    | _ => exact absurd trivial hauth

end Steps

/-! ### Verifications -/

lemma upsertVerificationEmail_lookup {id : Id} {v : VerificationEmail}
    (h : s.upsertVerificationEmail id v = .ok t) (j : Id) :
    t.verificationEmails.lookup j = if j = id then some v else s.verificationEmails.lookup j := by
  unfold AuthDB.upsertVerificationEmail at h
  split at h
  · next hid =>
    cases h
    obtain ⟨r, hr⟩ := Table.mem_iff_lookup.mp hid
    rw [Table.lookup_modify, hr]
    rfl
  · obtain ⟨-, -, rfl⟩ := AuthDB.createVerificationEmail_ok h
    split
    · next hj => rw [hj, AList.lookup_insert]
    · next hj => exact AList.lookup_insert_ne hj

/-! ### Sign-ins that run alone -/

section SignIn

variable {E : AuthInput → Prop} {id : Id} {user : User} {account : UserAccount}

/-- A session was opened for this user, who was read before. -/
structure Opened (cfg : AuthConfig) (order : ClaimOrder) (i : AuthInput) (id : Id) (user : User)
    (account : UserAccount) (s : AuthDB) (r : SignInResult) (t : AuthDB) : Prop where
  owner : r.id = id
  accessToken : r.accessToken =
    cfg.jwtSign order (.user account.email user.role id) i.now defaultExpiresIn
  refreshToken : r.refreshToken = cfg.jwtSign order (.user account.email user.role id) i.now 86400
  stored : s.createRefreshToken r.refreshToken
    { expiresAt := i.ms + 24 * 60 * 60 * 1000, userId := id } = .ok t

/-- Steps are not judged. -/
abbrev AnyStep : AuthDB → AuthDB → Prop := fun _ _ => True

lemma openSession_wp {order : ClaimOrder} :
    (openSession cfg order id user account false).wp E AnyStep
      (fun r t => ∃ i, E i ∧ Opened cfg order i id user account s r t) (fun _ t => t = s) s := by
  have htokens : ∀ info : Option (Option Dormitory × Residence), (do
      let tokens ← generateTokens cfg order account.email id user.role
      let account := { account with password := none }
      return { accessToken := tokens.1, refreshToken := tokens.2, id, user, account
               studentAdditionalInfo := info } : AuthCall SignInResult).wp E AnyStep
      (fun r t => ∃ i, E i ∧ Opened cfg order i id user account s r t) (fun _ t => t = s) s := by
    intro info
    unfold generateTokens
    rw [wp_bind, wp_atomic]
    intro i hi
    split
    · next a t h =>
      obtain ⟨s₁, hcreate, h⟩ := ok_of_bind h
      cases h
      exact ⟨trivial, i, hi, rfl, rfl, rfl, hcreate⟩
    · exact ⟨trivial, rfl⟩
  unfold openSession findStudentInfo
  rw [wp_bind, wp_ite]
  split
  · rw [wp_bind, wp_read]
    refine fun i _ => ⟨trivial, ?_⟩
    rcases s.students.lookup id with _ | student
    · exact rfl
    rcases s.residences.lookup id with _ | residence
    · exact rfl
    · exact htokens _
  · exact htokens _

lemma findUserByEmail_some {email : String}
    (h : s.findUserByEmail email = some (id, user, account)) :
    s.users.lookup id = some user ∧ s.accounts.lookup id = some account ∧
      account.email = email := by
  unfold AuthDB.findUserByEmail at h
  rcases hf : s.accounts.findFirst 0 (fun _ account => account.email = email)
    with _ | ⟨id', account'⟩
  · rw [hf] at h
    cases h
  rw [hf] at h
  rcases hu : s.users.lookup id' with _ | user'
  · simp [hu] at h
  · simp only [Option.bind_eq_bind, Option.bind_some, hu, Option.pure_def, Option.some.injEq,
      Prod.mk.injEq] at h
    obtain ⟨rfl, rfl, rfl⟩ := h
    obtain ⟨hlookup, hemail⟩ := Table.findFirst_some hf
    exact ⟨hu, hlookup, by simpa using hemail⟩

/-- A user who can sign in with a password, as found in the tables. -/
structure Validated (s : AuthDB) (email : String) (x : Id × User × UserAccount) : Prop where
  found : s.findUserByEmail email = some x
  active : x.2.1.status ≠ .deactivated

lemma validateUser_wp {email password : String} : (validateUser cfg email password).wp E AnyStep
    (fun x t => t = s ∧ Validated s email x) (fun _ t => t = s) s := by
  unfold validateUser
  rw [wp_bind, wp_read]
  refine fun i _ => ⟨trivial, ?_⟩
  rcases hf : s.findUserByEmail email with _ | ⟨id, user, account⟩
  · exact rfl
  dsimp only
  rw [wp_throwIf_bind]
  refine ⟨fun _ => rfl, fun _ => ?_⟩
  rw [wp_throwIf_bind]
  refine ⟨fun _ => rfl, fun hactive => ?_⟩
  rw [wp_bind]
  unfold checkPassword
  rcases account.password with _ | hash
  · exact rfl
  · rw [wp_throwIf]
    split
    · exact rfl
    · exact ⟨rfl, hf, hactive⟩

lemma validated_of_ok {email password : String} {x : Id × User × UserAccount} {ω : ℕ → AuthInput}
    (h : ((validateUser cfg email password).exec ω s).1 = .ok x) : Validated s email x := by
  have hω : ∀ n, ∃ m, ω n = ω m := fun n => ⟨n, rfl⟩
  have hwp : (validateUser cfg email password).wp (fun i => ∃ n, i = ω n) AnyStep
      (fun x t => t = s ∧ Validated s email x) (fun _ t => t = s) s := validateUser_wp
  have hout := (wp_run hwp hω).2
  rcases hr : (validateUser cfg email password).exec ω s with ⟨e | x', t⟩
  · rw [hr] at h
    cases h
  · rw [hr] at h hout
    cases h
    exact hout.2

/-- A sign-in leaves the sessions there are, and a new one: of a user of the
tables it leaves, with the role the user has there. -/
def SignedIn (cfg : AuthConfig) (E : AuthInput → Prop) (s : AuthDB) (r : SignInResult)
    (t : AuthDB) : Prop :=
  ∃ order i s₁ id user account, E i ∧ s₁.refreshTokens = s.refreshTokens ∧
    s₁.users.lookup id = some user ∧ Opened cfg order i id user account s₁ r t

/-- The user Google's answer stands for, who is created when there is none. -/
structure GoogleUser (s : AuthDB) (email : String) (id : Id) : Prop where
  found : ∀ x, s.findUserByEmail email = some x → x.1 = id
  new : s.findUserByEmail email = none → id ∉ s.users

lemma findOrCreateGoogleUser_wp {email : String} {decoded : DecodedIdToken} :
    (findOrCreateGoogleUser email decoded).wp E AnyStep
      (fun x t => t.refreshTokens = s.refreshTokens ∧ t.users.lookup x.1 = some x.2.1 ∧
        GoogleUser s email x.1) (fun _ t => t = s) s := by
  unfold findOrCreateGoogleUser
  rw [wp_bind, wp_read]
  refine fun i _ => ⟨trivial, ?_⟩
  rcases hf : s.findUserByEmail email with _ | x
  · dsimp only
    rcases decoded.name with _ | name
    · exact rfl
    unfold createGoogleUser
    dsimp only
    rw [wp_atomic]
    intro i _
    split
    · next a t h =>
      obtain ⟨s₁, hcreate, h⟩ := ok_of_bind h
      cases h
      obtain ⟨hid, -, rfl⟩ := AuthDB.createUser_ok hcreate
      exact ⟨trivial, rfl, AList.lookup_insert _, by simp [hf], fun _ => hid⟩
    · exact ⟨trivial, rfl⟩
  · exact ⟨rfl, (findUserByEmail_some hf).1, by simp [hf], by simp [hf]⟩

lemma google_wp (cfg : AuthConfig) (email : String) (decoded : DecodedIdToken) (s : AuthDB) :
    ((do
      let (id, user, account) ← findOrCreateGoogleUser email decoded
      Call.when (¬ truthy account.photoUrl) (.atomic fun _ s =>
        (s.updateAccountRow id fun account =>
          { account with photoUrl := decoded.picture <|> account.photoUrl }).map fun s => ((), s))
      openSession cfg .idFirst id user account false) : AuthCall SignInResult).wp E AnyStep
      (fun r t => SignedIn cfg E s r t ∧ GoogleUser s email r.id)
      (fun _ t => t.refreshTokens = s.refreshTokens) s := by
  rw [wp_bind]
  refine wp_mono findOrCreateGoogleUser_wp (fun x s₁ hx => ?_) fun _ t ht => by rw [ht]
  obtain ⟨id, user, account⟩ := x
  obtain ⟨htokens, hu, hgoogle⟩ := hx
  have hsign : ∀ s₂ : AuthDB, s₂.refreshTokens = s.refreshTokens → s₂.users.lookup id = some user →
      (openSession cfg .idFirst id user account false).wp E AnyStep
        (fun r t => SignedIn cfg E s r t ∧ GoogleUser s email r.id)
        (fun _ t => t.refreshTokens = s.refreshTokens) s₂ := by
    intro s₂ h₂ hu₂
    refine wp_mono openSession_wp (fun r t hr => ?_) fun _ t ht => by rw [ht, h₂]
    obtain ⟨i, hi, hopen⟩ := hr
    exact ⟨⟨_, i, s₂, id, user, account, hi, h₂, hu₂, hopen⟩, hopen.owner ▸ hgoogle⟩
  dsimp only
  rw [wp_when_bind]
  refine ⟨fun _ => ?_, fun _ => hsign s₁ htokens hu⟩
  rw [wp_atomic]
  intro i _
  split
  · next a s₂ h =>
    obtain ⟨-, rfl⟩ := AuthDB.updateAccountRow_ok (of_map_ok h)
    exact ⟨trivial, hsign _ htokens hu⟩
  · exact ⟨trivial, htokens⟩

/-- A sign-in that ran alone opened a session when it returned, and none otherwise. -/
def SignsIn (cfg : AuthConfig) (c : AuthCall SignInResult) (ω : ℕ → AuthInput) (s : AuthDB) :
    Prop :=
  match c.exec ω s with
  | (.ok r, t) => SignedIn cfg (fun i => ∃ n, i = ω n) s r t
  | (.error _, t) => t.refreshTokens = s.refreshTokens

/-- **A Google sign-in that runs alone**, before its greeting. -/
theorem signInWithGoogle_ends (cfg : AuthConfig) (idToken : String) (ω : ℕ → AuthInput)
    (s : AuthDB) : SignsIn cfg (signInWithGoogle cfg idToken false) ω s ∧
      ∀ r, ((signInWithGoogle cfg idToken false).exec ω s).1 = .ok r → ∃ decoded email,
        (ω 0).ok = true ∧ cfg.verifyIdToken idToken (ω 0).now = some decoded ∧
          decoded.email = some email ∧ GoogleUser s email r.id := by
  unfold SignsIn signInWithGoogle
  rw [exec_read_bind]
  rcases hv : (if (ω 0).ok = true then cfg.verifyIdToken idToken (ω 0).now else none)
    with _ | decoded
  · exact ⟨rfl, fun r h => by cases h⟩
  rcases he : decoded.email with _ | email
  · simp only [he]
    exact ⟨rfl, fun r h => by cases h⟩
  have hok : (ω 0).ok = true := by
    by_contra hok
    simp [hok] at hv
  rw [if_pos hok] at hv
  have hω : ∀ n, ∃ m, ω (n + 1) = ω m := fun n => ⟨n + 1, rfl⟩
  have hout := (wp_run (google_wp (E := fun i => ∃ n, i = ω n) cfg email decoded s) hω).2
  simp only [he]
  split at hout
  · next r t h =>
    simp only [h]
    refine ⟨hout.1, fun r' hr => ?_⟩
    cases hr
    exact ⟨decoded, email, hok, hv, he, hout.2⟩
  · next e t h =>
    simp only [h]
    exact ⟨hout, fun r hr => by cases hr⟩

/-! A sign-in on a phone is the same one, with a greeting after it. -/

def greet (r : SignInResult) : AuthCall SignInResult := do
  sendGreeting
  return r

lemma openSession_mobile {order : ClaimOrder} : openSession cfg order id user account true =
    openSession cfg order id user account false >>= greet := by
  unfold openSession greet
  simp only [bind_assoc]
  rfl

lemma signInWithGoogle_mobile (cfg : AuthConfig) (idToken : String) :
    signInWithGoogle cfg idToken true = signInWithGoogle cfg idToken false >>= greet := by
  unfold signInWithGoogle
  rw [bind_assoc]
  refine congrArg _ (funext fun decodedToken => ?_)
  rcases decodedToken with _ | decoded
  · rfl
  dsimp only
  rcases decoded.email with _ | email
  · rfl
  · simp only [openSession_mobile, bind_assoc]

/-- The sign-in stores its session on a phone, and then the devices of its user are not read. -/
def Ungreeted (c : Bool → AuthCall SignInResult) (mobile : Bool) (ω : ℕ → AuthInput) (s : AuthDB) :
    Prop :=
  mobile = true ∧ ((c false).exec ω s).1.isOk = true ∧
    (ω ((c false).trace ω s).length).ok = false

/-- **A sign-in on a phone** leaves what it does before the greeting, and returns just when the user
is greeted as well. -/
lemma exec_mobile {c : Bool → AuthCall SignInResult} (h : c true = c false >>= greet)
    (mobile : Bool) (ω : ℕ → AuthInput) (s : AuthDB) :
    ((c mobile).exec ω s).2 = ((c false).exec ω s).2 ∧
      (Ungreeted c mobile ω s ∧ ((c mobile).exec ω s).1 = .error .rejected ∨
        ¬ Ungreeted c mobile ω s ∧ ((c mobile).exec ω s).1 = ((c false).exec ω s).1) := by
  cases mobile with
  | false => exact ⟨rfl, .inr ⟨fun hno => Bool.false_ne_true hno.1, rfl⟩⟩
  | true =>
    rw [h, exec_bind]
    unfold Ungreeted
    rcases (c false).exec ω s with ⟨e | r, t⟩
    · exact ⟨rfl, .inr ⟨fun hno => Bool.false_ne_true hno.2.1, rfl⟩⟩
    · dsimp only [greet, sendGreeting]
      rw [exec_atomic_bind, Nat.zero_add]
      by_cases hok : (ω ((c false).trace ω s).length).ok = true
      · simp [hok, Except.isOk, Except.toBool]
      · simp [hok, Except.isOk, Except.toBool]

end SignIn

end TsaBackend.AuthSteps
