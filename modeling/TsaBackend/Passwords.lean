import TsaBackend.AccountWrites
import TsaBackend.EndpointSteps
import TsaBackend.SessionTokens

/-!
Where passwords come from.

Whatever runs at the same time, the password of a user is set by who presents the current one, or
by who completes the registration; and the password of a sign-in matches the last one set so.
-/

namespace TsaBackend.Passwords

open Call AuthSteps EndpointSteps SessionSteps

variable {cfg : SessionConfig} {r : ApiRequest} {s t : ProfileDB} {id u : Id}

/-- The hash that is stored for a user. -/
def passwordOf (accounts : Table Id UserAccount) (u : Id) : Option String :=
  ((accounts.lookup u).map (·.password)).join

/-- The user has the same password or none any more. -/
def PasswordKept (accounts accounts' : Table Id UserAccount) (u : Id) : Prop :=
  passwordOf accounts' u = passwordOf accounts u ∨ passwordOf accounts' u = none

/-- Nobody gets another password. -/
def KeepsPasswords (accounts accounts' : Table Id UserAccount) : Prop :=
  ∀ u, PasswordKept accounts accounts' u

lemma keeps_refl (accounts : Table Id UserAccount) : KeepsPasswords accounts accounts :=
  fun _ => .inl rfl

lemma keeps_of_eq {accounts accounts' : Table Id UserAccount} (h : accounts' = accounts) :
    KeepsPasswords accounts accounts' := h ▸ keeps_refl accounts

lemma SameCredentials.keeps (h : SameCredentials s t) : KeepsPasswords s.accounts t.accounts :=
  fun u => .inl (congrArg Option.join (h.password u))

lemma passwordOf_modify {accounts : Table Id UserAccount} {f : UserAccount → UserAccount}
    (hf : ∀ a, (f a).password = a.password) : KeepsPasswords accounts (accounts.modify id f) := by
  intro u
  rw [PasswordKept, passwordOf, passwordOf, Table.lookup_modify]
  split
  · next hu =>
    subst hu
    rcases accounts.lookup u with _ | account
    · exact .inl rfl
    · exact .inl (hf account)
  · exact .inl rfl

/-- A statement that sets the password of one user. -/
lemma passwordOf_set {accounts : Table Id UserAccount} {f : UserAccount → UserAccount}
    {hash : String} (hid : id ∈ accounts) (hf : ∀ a, (f a).password = some hash) :
    passwordOf (accounts.modify id f) id = some hash ∧
      ∀ v, v ≠ id → passwordOf (accounts.modify id f) v = passwordOf accounts v := by
  obtain ⟨account, hlookup⟩ := Table.mem_iff_lookup.mp hid
  refine ⟨?_, fun v hv => ?_⟩
  · simp [passwordOf, hlookup, hf]
  · simp [passwordOf, Table.lookup_modify_ne _ _ hv]

lemma createUser_keeps {s t : AuthDB} {account : UserAccount} (hnone : account.password = none)
    (h : s.createUser id account = .ok t) : KeepsPasswords s.accounts t.accounts := by
  obtain ⟨-, -, rfl⟩ := AuthDB.createUser_ok h
  intro u
  by_cases hu : u = id
  · subst hu
    exact .inr (by simp [passwordOf, hnone])
  · exact .inl (by simp [passwordOf, AList.lookup_insert_ne hu])

/-- The steps of a call give nobody another password. -/
abbrev Sparing {α : Type} (c : AuthCall α) : Prop :=
  c.Steps fun s t => KeepsPasswords s.accounts t.accounts

lemma sparing_read {α : Type} (f : AuthInput → AuthDB → α) : Sparing (.read f) :=
  steps_read f fun s => keeps_refl s.accounts

lemma initiateRegistration_sparing {email : String} {mobile : Bool} :
    Sparing (initiateRegistration cfg.toAuthConfig email mobile) := by
  refine initiateRegistration_writes.mono fun s t h => ?_
  cases h with
  | none => exact keeps_refl _
  | resend h =>
    obtain ⟨_, rfl⟩ := AuthDB.upsertVerificationEmail_ok h
    exact keeps_refl _
  | register h ht =>
    obtain ⟨-, -, rfl⟩ := AuthDB.createVerificationEmail_ok ht
    have hcreated := createUser_keeps rfl h
    exact hcreated
  | queue => exact keeps_refl _
  | session hr => rcases hr with ⟨_, _, _, hr⟩ | ⟨_, _, hr⟩ <;> cases hr

lemma verifyEmail_sparing {token : Field String} {mobile : Bool} :
    Sparing (verifyEmail cfg.toAuthConfig token mobile) := by
  refine verifyEmail_writes.mono fun s t h => ?_
  cases h with
  | none => exact keeps_refl _
  | session hr => rcases hr with ⟨_, _, _, hr⟩ | ⟨_, _, hr⟩ <;> cases hr

lemma openSession_sparing {order : ClaimOrder} {user : User} {account : UserAccount}
    {mobile : Bool} : Sparing (openSession cfg.toAuthConfig order id user account mobile) := by
  unfold openSession
  refine Steps.bind (findStudentInfo_steps fun s => keeps_refl s.accounts) fun info => ?_
  refine Steps.bind (steps_atomic (fun i s a t h => ?_) fun s => keeps_refl s.accounts)
    fun _ => Steps.bind (Steps.when fun _ => sendGreeting_steps fun s => keeps_refl s.accounts)
      fun _ => steps_pure _
  obtain ⟨s₁, hcreate, h⟩ := ok_of_bind h
  cases h
  obtain ⟨-, -, rfl⟩ := AuthDB.createRefreshToken_ok hcreate
  exact keeps_refl _

lemma passwordSignin_sparing {email password : String} {mobile : Bool} :
    Sparing (passwordSignin cfg.toAuthConfig email password mobile) :=
  (validateUser_steps fun s => keeps_refl s.accounts).bind fun _ => openSession_sparing

lemma signInWithGoogle_sparing {idToken : String} {mobile : Bool} :
    Sparing (signInWithGoogle cfg.toAuthConfig idToken mobile) := by
  unfold signInWithGoogle
  refine (sparing_read _).bind fun decodedToken => ?_
  rcases decodedToken with _ | decoded
  · exact steps_throw _
  dsimp only
  rcases decoded.email with _ | email
  · exact steps_throw _
  refine Steps.bind ?_ fun found => Steps.bind (Steps.when fun _ =>
    steps_atomic (fun i s a t h => ?_) fun s => keeps_refl s.accounts) fun _ => openSession_sparing
  · unfold findOrCreateGoogleUser
    refine (sparing_read _).bind fun found => ?_
    rcases found with _ | user
    · dsimp only
      rcases decoded.name with _ | name
      · exact steps_throw _
      refine steps_atomic (fun i s a t h => ?_) fun s => keeps_refl s.accounts
      obtain ⟨s₁, hcreate, h⟩ := ok_of_bind h
      cases h
      have hcreated := createUser_keeps rfl hcreate
      exact hcreated
    · exact steps_pure _
  · obtain ⟨-, rfl⟩ := AuthDB.updateAccountRow_ok (of_map_ok h)
    exact passwordOf_modify fun _ => rfl

lemma verifyToken_sparing {token : String} : Sparing (verifyToken cfg token) := by
  refine steps_atomic (fun i s a t h => ?_) fun s => keeps_refl s.accounts
  split at h
  · cases h
    exact keeps_refl _
  · cases h

lemma refreshTokens_sparing {refreshToken : String} : Sparing (refreshTokens cfg refreshToken) := by
  unfold refreshTokens
  refine Steps.tryCatch (verifyToken_sparing.bind fun payload => ?_) fun _ => steps_throw _
  refine (sparing_read _).bind fun found => ?_
  exact (steps_throwIf _ _).bind fun _ => (sparing_read _).bind fun _ => steps_pure _

lemma signout_sparing {refreshToken : String} : Sparing (signout cfg refreshToken) := by
  unfold signout
  refine Steps.tryCatch (verifyToken_sparing.bind fun payload => ?_) fun _ => steps_throw _
  refine (sparing_read _).bind fun storedToken => (steps_throwIf _ _).bind fun _ => ?_
  refine Steps.bind (steps_atomic (fun i s a t h => ?_) fun s => keeps_refl s.accounts)
    fun _ => steps_pure _
  have hdelete := of_map_ok h
  unfold AuthDB.deleteRefreshToken at hdelete
  split at hdelete
  · cases hdelete
    exact keeps_refl _
  · cases hdelete

lemma account_sparing (cfg : Config) (r : AccountRequest) :
    Sparing ((r.call cfg).zoom authLens AuthInput.toInput) := by
  have hany : (r.call cfg).Steps fun _ _ => True :=
    (AccountWrites.account_sameRoles cfg r).mono fun _ _ _ => trivial
  exact hany.zoom fun s t _ => keeps_refl t.accounts

lemma deleteUser_sparing : (deleteUser id).Steps
    fun s t => KeepsPasswords s.accounts t.accounts := by
  unfold deleteUser
  refine Steps.bind (steps_statement (fun s => keeps_refl s.accounts) fun s _ t h => ?_)
    fun _ => steps_pure _
  obtain ⟨-, -, _, _, rfl⟩ := deleteUser_ok (of_map_ok h)
  intro u
  by_cases hu : u = id
  · subst hu
    exact .inr (by simp [passwordOf])
  · exact .inl (by simp [passwordOf, AList.lookup_erase_ne hu])

/-! ### Calls that set a password, and pools -/

/-- The token that lets a request set a password. -/
def credential : ApiRequest → Option String
  | .updatePassword accessToken _ => some accessToken
  | .completeRegistration dto => some dto.token
  | _ => none

/-- The password a request sets. -/
def newPassword : ApiRequest → Option String
  | .updatePassword _ dto => some dto.newPassword
  | .completeRegistration dto => some dto.password
  | _ => none

/-- What lets a request with these claims set the password of a user: the current password, or a
registration that is not complete. -/
inductive Entitled (cfg : SessionConfig) (s : ProfileDB) (u : Id) : ApiRequest → JwtPayload → Prop
  | current {accessToken email hash : String} {dto : UpdatePasswordDto} {role : UserRole}
      (h : passwordOf s.accounts u = some hash)
      (hcompare : cfg.bcryptCompare dto.currentPassword hash = true) :
      Entitled cfg s u (.updatePassword accessToken dto) (.user email role u)
  | registration {dto : SignUpDto} {account : UserAccount}
      (h : s.accounts.lookup u = some account) (hnew : account.verified = false) :
      Entitled cfg s u (.completeRegistration dto) (.registration u)

/-- How far a call that sets a password has come. -/
inductive Phase
  | start
  | presented (payload : JwtPayload)
  | checked (id : Id)
  | written

/-- What a step of a request does in its phase. -/
inductive Advances (cfg : SessionConfig) (r : ApiRequest) :
    Phase → ProfileDB → ProfileDB → Phase → Prop
  | keep {p : Phase} {s t : ProfileDB} (h : KeepsPasswords s.accounts t.accounts) :
      Advances cfg r p s t p
  | present {token : String} {payload : JwtPayload} {s : ProfileDB}
      (hr : credential r = some token) (h : Accepts cfg token payload) :
      Advances cfg r .start s s (.presented payload)
  | check {payload : JwtPayload} {id : Id} {s : ProfileDB} (h : Entitled cfg s id r payload) :
      Advances cfg r (.presented payload) s s (.checked id)
  | write {id : Id} {password : String} {random : ℕ} {s t : ProfileDB}
      (hr : newPassword r = some password)
      (h : passwordOf t.accounts id = some (cfg.bcryptHash password random))
      (hother : ∀ v, v ≠ id → passwordOf t.accounts v = passwordOf s.accounts v) :
      Advances cfg r (.checked id) s t .written

section Advances

variable {p q : Phase}

lemma advances_refl (p : Phase) (s : ProfileDB) : Advances cfg r p s s p := .keep (keeps_refl _)

lemma Advances.presents {payload : JwtPayload} (h : Advances cfg r p s t q)
    (hp : p ≠ .presented payload) (hq : q = .presented payload) :
    ∃ token, credential r = some token ∧ Accepts cfg token payload := by
  cases h with
  | keep => exact absurd hq hp
  | present hr haccept =>
    cases hq
    exact ⟨_, hr, haccept⟩
  | check => cases hq
  | write => cases hq

lemma Advances.checks (h : Advances cfg r p s t q) (hp : p ≠ .checked u) (hq : q = .checked u) :
    ∃ payload, p = .presented payload ∧ Entitled cfg s u r payload := by
  cases h with
  | keep => exact absurd hq hp
  | present => cases hq
  | check hentitled =>
    cases hq
    exact ⟨_, rfl, hentitled⟩
  | write => cases hq

/-- A new password is written by a call that has been checked. -/
lemma Advances.writes (h : Advances cfg r p s t q)
    (hchange : ¬ PasswordKept s.accounts t.accounts u) : p = .checked u ∧
      ∃ password random, newPassword r = some password ∧
        passwordOf t.accounts u = some (cfg.bcryptHash password random) := by
  cases h with
  | keep h => exact absurd (h u) hchange
  | present => exact absurd (.inl rfl) hchange
  | check => exact absurd (.inl rfl) hchange
  | @write id password random _ _ hr hset hother =>
    have hu : u = id := by
      by_contra hne
      exact hchange (.inl (hother u hne))
    subst hu
    exact ⟨rfl, password, random, hr, hset⟩

end Advances

/-- The call advances from its phase on, and may end anywhere. -/
abbrev Runs {α : Type} (cfg : SessionConfig) (r : ApiRequest) (c : ApiCall α) (p : Phase) : Prop :=
  Goes (Advances cfg r) (fun _ _ => True) c p

lemma onAuth_keep {p : Phase} {s t : AuthDB} (h : KeepsPasswords s.accounts t.accounts) :
    OnAuth (Advances cfg r) p s t p := by
  rintro w rfl
  exact .keep h

lemma steps_runs {α : Type} {p : Phase} {c : ApiCall α}
    (h : c.Steps fun s t => KeepsPasswords s.accounts t.accounts) : Runs cfg r c p :=
  goes_steps (h.mono fun _ _ => .keep) fun _ => trivial

lemma sparing_runs {α : Type} {c : AuthCall α} {f : α → SessionResponse} {p : Phase}
    (h : Sparing c) : Runs cfg r (do
      let response ← onApi (onProfiles c >>= (Pure.pure ∘ f))
      return ApiResponse.session response) p :=
  goes_public (goes_steps (h.mono fun _ _ => onAuth_keep) fun _ => trivial)

lemma admin_runs {token : String} {c : ApiCall ApiResponse} (h : Runs cfg r c .start) :
    Runs cfg r (do let _ ← auth cfg [.admin] token; c) .start :=
  goes_admin advances_refl fun _ _ => ⟨.start, advances_refl .start, fun _ _ _ => h⟩

lemma own_runs {token : String} {f : Id → ApiCall ApiResponse}
    (h : ∀ id, (f id).Steps fun s t => KeepsPasswords s.accounts t.accounts) :
    Runs cfg r (do let id ← ownId (← auth cfg [] token); f id) .start :=
  goes_own advances_refl fun _ _ =>
    ⟨.start, advances_refl .start, fun _ _ id _ => steps_runs (h id)⟩

lemma findUser_account {s : AuthDB} {user : User} {account : UserAccount}
    (h : s.findUser id = some (user, account)) : s.accounts.lookup id = some account := by
  unfold AuthDB.findUser at h
  simp only [Option.bind_eq_bind, Option.bind_eq_some_iff, Option.pure_def, Option.some.injEq,
    Prod.mk.injEq] at h
  obtain ⟨_, -, account', hlookup, -, rfl⟩ := h
  exact hlookup

/-- A registration is completed for the user of the token. -/
lemma completeRegistration_runs {dto : SignUpDto} :
    Runs cfg (.completeRegistration dto)
      ((ApiRequest.completeRegistration dto).call cfg) .start := by
  refine goes_public (f := .message) ?_
  unfold completeRegistration
  refine Follows.bind (follows_atomic (fun i s userId t _ h => ?_) fun i s e _ _ =>
    ⟨.start, onAuth_keep (keeps_refl _), trivial⟩)
  rcases hverify : cfg.jwtVerify dto.token i.now with _ | (_ | id)
  · simp [registrationUser, hverify, Except.map] at h
  · simp [registrationUser, hverify, Except.map] at h
  simp only [registrationUser, hverify, Except.map, Except.ok.injEq, Prod.mk.injEq] at h
  obtain ⟨rfl, rfl⟩ := h
  refine ⟨.presented (.registration id), ?_, ?_⟩
  · rintro w rfl
    exact .present rfl ⟨_, hverify⟩
  refine follows_read fun i' s' _ => ?_
  rcases hfound : s'.findUser id with _ | ⟨user, account⟩
  · exact ⟨_, onAuth_keep (keeps_refl _), follows_throwIf (fun _ => trivial) fun h => by simp at h⟩
  by_cases hnew : account.verified = true
  · exact ⟨_, onAuth_keep (keeps_refl _), follows_throwIf (fun _ => trivial)
      fun h => by simp [hnew] at h⟩
  refine ⟨.checked id, ?_, follows_throwIf (fun _ => trivial) fun _ => ?_⟩
  · rintro w rfl
    exact .check (.registration (findUser_account hfound) (by simpa using hnew))
  refine Follows.bind (follows_atomic (fun i s a t _ h => ?_) fun i s e _ _ =>
    ⟨.checked id, onAuth_keep (keeps_refl _), trivial⟩)
  obtain ⟨haccount, -, -, rfl⟩ := AuthDB.completeRegistration_ok (of_map_ok h)
  refine ⟨.written, ?_, trivial⟩
  rintro w rfl
  obtain ⟨hset, hothers⟩ := passwordOf_set (f := fun account => { account with
    firstName := some dto.firstName
    lastName := some dto.lastName
    phoneNumber := dto.phoneNumber.patch account.phoneNumber
    password := some (cfg.bcryptHash dto.password i.random)
    verified := true }) haccount fun _ => rfl
  exact .write rfl hset hothers

/-- A password is changed for the user of the token. -/
lemma updatePassword_runs {accessToken : String} {dto : UpdatePasswordDto} :
    Runs cfg (.updatePassword accessToken dto)
      ((ApiRequest.updatePassword accessToken dto).call cfg) .start := by
  refine goes_own advances_refl fun payload haccept => ?_
  refine ⟨.presented payload, fun _ => .present rfl haccept, fun email role id heq => ?_⟩
  subst heq
  refine Follows.bind ?_
  unfold UsersService.updatePassword
  refine follows_read fun i s _ => ?_
  rcases hfound : s.findUser id with _ | ⟨user, account⟩
  · exact ⟨_, advances_refl _ _, trivial⟩
  rcases hpassword : account.password with _ | hash
  · refine ⟨_, advances_refl _ _, ?_⟩
    simp only [hpassword]
    exact trivial
  simp only [hpassword]
  by_cases hcompare : cfg.bcryptCompare dto.currentPassword hash = true
  · refine ⟨.checked id, ?_, follows_throwIf (fun _ => trivial) fun _ => ?_⟩
    · exact .check (.current (by simp [passwordOf, findUser_account hfound, hpassword]) hcompare)
    refine follows_atomic (fun i s a t _ h => ?_) fun i s e _ _ =>
      ⟨.checked id, advances_refl _ _, trivial⟩
    obtain ⟨haccount, rfl⟩ := setPassword_ok h
    obtain ⟨hset, hothers⟩ := passwordOf_set (f := fun account => { account with
      password := some (cfg.bcryptHash dto.newPassword i.random) }) haccount fun _ => rfl
    exact ⟨.written, .write rfl hset hothers, trivial⟩
  · exact ⟨_, advances_refl _ _, follows_throwIf (fun _ => trivial) fun h => absurd hcompare h⟩

/-- **One request.** -/
theorem request_runs (hother : ∀ c, r = .other c →
    c.Steps fun s t => KeepsPasswords s.accounts t.accounts) :
    Runs cfg r (r.call cfg) .start := by
  cases r with
  | initiateRegistration email mobile => exact sparing_runs initiateRegistration_sparing
  | verifyEmail token mobile => exact sparing_runs verifyEmail_sparing
  | completeRegistration dto => exact completeRegistration_runs
  | signin email password mobile => exact sparing_runs passwordSignin_sparing
  | signInWithGoogle idToken mobile => exact sparing_runs signInWithGoogle_sparing
  | refreshTokens refreshToken =>
    exact sparing_runs (f := fun p : String × String => .tokens p.1 p.2) refreshTokens_sparing
  | signout refreshToken => exact sparing_runs signout_sparing
  | getAllUsers accessToken =>
    exact admin_runs (steps_runs ((getUsers_steps.mono fun _ _ => SameCredentials.keeps).bind
      fun _ => steps_pure _))
  | get accessToken =>
    exact own_runs fun _ => (findById_steps.mono fun _ _ => SameCredentials.keeps).bind
      fun _ => steps_pure _
  | update accessToken dto avatar =>
    exact own_runs fun _ => (updateStudentById_steps.mono fun _ _ => SameCredentials.keeps).bind
      fun _ => steps_pure _
  | updateStatus accessToken id status =>
    exact admin_runs (sparing_runs (f := fun _ : Unit => .done) (account_sparing _ _))
  | updatePassword accessToken dto => exact updatePassword_runs
  | updateRole accessToken id role =>
    have hsteps : (updateUserRole id role).Steps
        fun s t => KeepsPasswords s.accounts t.accounts :=
      updateUserRole_steps.mono fun _ _ h => keeps_of_eq h.sameSessions.accounts
    exact admin_runs (goes_onApi ((hsteps.mono fun _ _ => .keep).follows_bind (fun _ => trivial)
      fun _ => trivial))
  | delete accessToken id =>
    exact admin_runs (goes_onApi ((deleteUser_sparing.mono fun _ _ => .keep).follows_bind
      (fun _ => trivial) fun _ => trivial))
  | other c => exact steps_runs ((hother c rfl).bind fun _ => steps_pure _)

section Pools

variable {requests : List ApiRequest} {sched : List (ℕ × ApiInput)} {k m n : ℕ} {hash : String}

/-- At position `n` a request stores the hash of its new password for the user: it has presented a
token, and has then found what lets it do so. -/
def SetByOwner (cfg : SessionConfig) (s : ProfileDB) (requests : List ApiRequest)
    (sched : List (ℕ × ApiInput)) (u : Id) (hash : String) (n : ℕ) : Prop :=
  ∃ k r token payload password random l m, l < m ∧ m < n ∧ Turn sched k l ∧ Turn sched k m ∧
    Turn sched k n ∧ requests[k]? = some r ∧ credential r = some token ∧
    Accepts cfg token payload ∧
    Entitled cfg (before s (apiCalls cfg requests) sched m).1 u r payload ∧
    newPassword r = some password ∧ hash = cfg.bcryptHash password random

/-- The password of the user before position `n`. -/
abbrev passwordAt (cfg : SessionConfig) (s : ProfileDB) (requests : List ApiRequest)
    (sched : List (ℕ × ApiInput)) (u : Id) (n : ℕ) : Option String :=
  passwordOf (before s (apiCalls cfg requests) sched n).1.accounts u

lemma set_by_owner
    (hother : ∀ c, .other c ∈ requests → c.Steps fun s t => KeepsPasswords s.accounts t.accounts)
    (hn : n < sched.length) (hnew : passwordAt cfg s requests sched u (n + 1) = some hash)
    (hold : passwordAt cfg s requests sched u n ≠ some hash) :
    SetByOwner cfg s requests sched u hash n := by
  have hchange : ¬ PasswordKept (before s (apiCalls cfg requests) sched n).1.accounts
      (before s (apiCalls cfg requests) sched (n + 1)).1.accounts u := by
    rintro (hsame | hnone)
    · exact hold (hsame.symm.trans hnew)
    · rw [passwordAt, hnone] at hnew
      cases hnew
  have hstored : (before s (apiCalls cfg requests) sched (n + 1)).1 ≠
      (before s (apiCalls cfg requests) sched n).1 := by
    intro hsame
    exact hchange (.inl (by rw [hsame]))
  obtain ⟨k, r, hturn, hr⟩ := request_of_change hn hstored
  have hcall : Runs cfg r (r.call cfg) .start :=
    request_runs fun c hc => hother c (hc ▸ List.mem_of_getElem? hr)
  obtain ⟨ph, hstart, hmoves, -⟩ := hcall.along (s := s) (apiCalls_get hr)
    (Nat.succ_le_of_lt hn)
  have hstep := (hmoves n (Nat.lt_succ_self n)).step hturn hstored
  obtain ⟨hchecked, password, random, hpassword, hset⟩ := hstep.writes hchange
  -- the check, and before it the token
  obtain ⟨m, hm, hturnm, hpm, hqm, hstepm⟩ := entered (P := (· = .checked u))
    (fun m hm => hmoves m (Nat.lt_succ_of_lt hm)) (by simp [hstart]) hchecked
  obtain ⟨payload, hpresented, hentitled⟩ := hstepm.checks hpm hqm
  obtain ⟨l, hl, hturnl, hpl, hql, hstepl⟩ := entered (P := (· = .presented payload))
    (fun l hl => hmoves l (by omega)) (by simp [hstart]) hpresented
  obtain ⟨token, hcredential, haccept⟩ := hstepl.presents hpl hql
  exact ⟨k, r, token, payload, password, random, l, m, hl, hm, hturnl, hturnm, hturn, hr,
    hcredential, haccept, hentitled, hpassword, Option.some.inj (hnew.symm.trans hset)⟩

/-- **Who sets a password**: whatever requests run at the same time, a hash is stored for a user
only by a request that has presented a token of that user and has then found the current password
to match or the registration not to be complete. -/
theorem passwords_set_by_owner (cfg : SessionConfig) (requests : List ApiRequest) (s : ProfileDB)
    (sched : List (ℕ × ApiInput))
    (hother : ∀ c, .other c ∈ requests → c.Steps fun s t => KeepsPasswords s.accounts t.accounts)
    (n : ℕ) (hn : n < sched.length) (u : Id) (hash : String)
    (hnew : passwordAt cfg s requests sched u (n + 1) = some hash)
    (hold : passwordAt cfg s requests sched u n ≠ some hash) :
    SetByOwner cfg s requests sched u hash n :=
  set_by_owner hother hn hnew hold

end Pools

/-! ### Sign-ins -/

section SignIn

variable {email password : String}

/-- A user who can sign in with this password. -/
def CanSignIn (cfg : SessionConfig) (email password : String) (s : AuthDB) (id : Id)
    (hash : String) : Prop :=
  ∃ user account, s.findUserByEmail email = some (id, user, account) ∧ account.verified = true ∧
    user.status ≠ .deactivated ∧ account.password = some hash ∧
    cfg.bcryptCompare password hash = true

/-- Whom a sign-in has found. -/
def Finds (cfg : SessionConfig) (email password : String) (p : Option (Id × String))
    (s _t : ProfileDB) (q : Option (Id × String)) : Prop :=
  q = p ∨ p = none ∧ ∃ id hash, q = some (id, hash) ∧
    CanSignIn cfg email password s.toAuthDB id hash

lemma finds_refl (p : Option (Id × String)) {s t : AuthDB} :
    OnAuth (Finds cfg email password) p s t p := fun _ _ => .inl rfl

lemma signin_finds {user : User} {account : UserAccount} {hash : String} {mobile : Bool} :
    Goes (OnAuth (Finds cfg email password)) (fun q result => ∃ hash, q = some (result.id, hash))
      (signin cfg.toAuthConfig id user account mobile) (some (id, hash)) := by
  unfold signin openSession
  have hinfo : (findStudentInfo id user).Steps
      fun s t => OnAuth (Finds cfg email password) (some (id, hash)) s t (some (id, hash)) :=
    findStudentInfo_steps fun _ => finds_refl _
  refine hinfo.follows_bind (fun _ => trivial) fun info => ?_
  refine Follows.bind (follows_atomic (fun _ _ tokens _ _ _ => ⟨_, finds_refl _, ?_⟩)
    fun _ _ _ _ _ => ⟨_, finds_refl _, trivial⟩)
  have hgreeting : (Call.when mobile sendGreeting).Steps
      fun s t => OnAuth (Finds cfg email password) (some (id, hash)) s t (some (id, hash)) :=
    Steps.when fun _ => sendGreeting_steps fun _ => finds_refl _
  exact hgreeting.follows_bind (fun _ => trivial) fun _ => ⟨hash, rfl⟩

/-- **A sign-in with a password**: it signs for a user that it has found with the password, and
otherwise throws. -/
lemma passwordSignin_goes {φ : Type} {δ : φ → ProfileDB → ProfileDB → φ → Prop}
    {Q : φ → SignInResult → Prop} {p : φ} {q : Id → User → String → φ} {mobile : Bool}
    (hrefl : ∀ p s, OnAuth δ p s s p)
    (hfound : ∀ s id user account hash, s.findUserByEmail email = some (id, user, account) →
      CanSignIn cfg email password s id hash → OnAuth δ p s s (q id user hash))
    (hsign : ∀ id user account hash, Goes (OnAuth δ) Q
      (signin cfg.toAuthConfig id user account mobile) (q id user hash)) :
    Goes (OnAuth δ) Q (passwordSignin cfg.toAuthConfig email password mobile) p := by
  unfold passwordSignin validateUser
  rw [bind_assoc]
  refine follows_read fun i s _ => ?_
  rcases hf : s.findUserByEmail email with _ | ⟨id, user, account⟩
  · exact ⟨p, hrefl p s, trivial⟩
  simp only [bind_assoc, pure_bind]
  by_cases hcan : ∃ hash, CanSignIn cfg email password s id hash
  · obtain ⟨hash, hcan⟩ := hcan
    refine ⟨q id user hash, hfound s id user account hash hf hcan, ?_⟩
    refine follows_throwIf (fun _ => trivial) fun _ => ?_
    refine follows_throwIf (fun _ => trivial) fun _ => ?_
    have hcheck : (checkPassword cfg.toAuthConfig password account.password).Steps
        fun s t => OnAuth δ (q id user hash) s t (q id user hash) := by
      unfold checkPassword
      rcases account.password with _ | hash
      · exact steps_throw _
      · exact steps_throwIf _ _
    exact hcheck.follows_bind (fun _ => trivial) fun _ => hsign id user account hash
  · refine ⟨p, hrefl p s, ?_⟩
    refine follows_throwIf (fun _ => trivial) fun hverified => ?_
    refine follows_throwIf (fun _ => trivial) fun hactive => ?_
    rcases hpassword : account.password with _ | hash
    · exact trivial
    refine follows_throwIf (fun _ => trivial) fun hcompare => ?_
    exact absurd ⟨hash, user, account, hf, not_not.mp hverified, hactive, hpassword,
      not_not.mp hcompare⟩ hcan

/-- A sign-in that returns has found its user. -/
lemma passwordSignin_finds {mobile : Bool} :
    Goes (OnAuth (Finds cfg email password)) (fun q result => ∃ hash, q = some (result.id, hash))
      (passwordSignin cfg.toAuthConfig email password mobile) none := by
  refine passwordSignin_goes (q := fun id _ hash => some (id, hash)) (fun _ _ => finds_refl _)
    (fun s id user account hash _ hcan => ?_) fun _ _ _ _ => signin_finds
  rintro w rfl
  exact .inr ⟨rfl, id, hash, rfl, hcan⟩

lemma signin_request_finds {mobile : Bool} : Goes (Finds cfg email password)
    (fun q a => ∃ result hash, a = .session (.session result) ∧ q = some (result.id, hash))
    ((ApiRequest.signin email password mobile).call cfg) none := by
  refine goes_public (passwordSignin_finds.mono (fun _ _ _ h => h) (fun _ _ _ _ h => h) ?_
    fun _ _ h => h)
  rintro q result ⟨hash, rfl⟩
  exact ⟨result, hash, rfl, rfl⟩

/-- Before position `n` call `k` has found the user with a password that matches, and who set it
last did so as its owner. -/
def Explained (cfg : SessionConfig) (s : ProfileDB) (requests : List ApiRequest)
    (sched : List (ℕ × ApiInput)) (k : ℕ) (email password : String) (id : Id) (n : ℕ) : Prop :=
  ∃ hash m w, w < m ∧ m < n ∧ Turn sched k m ∧
    CanSignIn cfg email password (before s (apiCalls cfg requests) sched m).1.toAuthDB id hash ∧
    SetByOwner cfg s requests sched id hash w ∧
    ∀ l, w < l → l ≤ m → passwordAt cfg s requests sched id l = some hash

/-- **What a sign-in proves**: from tables without passwords, and whatever requests run at the same
time, a sign-in with a password that returns has compared it with the hash that the owner of the
account had set last. -/
theorem signin_explained (cfg : SessionConfig) (requests : List ApiRequest) (s : ProfileDB)
    (sched : List (ℕ × ApiInput))
    (hother : ∀ c, .other c ∈ requests → c.Steps fun s t => KeepsPasswords s.accounts t.accounts)
    (h0 : ∀ u, passwordOf s.accounts u = none) (k : ℕ) (email password : String)
    (mobile : Bool) (hk : requests[k]? = some (.signin email password mobile)) (n : ℕ) (hn : n ≤ sched.length)
    (a : ApiResponse)
    (hreturned : (before s (apiCalls cfg requests) sched n).2[k]? = some (Call.pure a)) :
    ∃ result, a = .session (.session result) ∧
      Explained cfg s requests sched k email password result.id n := by
  obtain ⟨ph, hstart, hmoves, hends⟩ := signin_request_finds.along (s := s) (apiCalls_get hk) hn
  obtain ⟨result, hash, rfl, hph⟩ := hends _ hreturned
  refine ⟨result, rfl, ?_⟩
  obtain ⟨m, hm, hturn, hbefore, hafter, hstep⟩ :=
    entered (P := (· = some (result.id, hash))) hmoves (by simp [hstart]) hph
  have hcan : CanSignIn cfg email password (before s (apiCalls cfg requests) sched m).1.toAuthDB
      result.id hash := by
    rcases hstep with hstay | ⟨-, id, hash', heq, hcan⟩
    · exact absurd (hstay.symm.trans hafter) hbefore
    · rw [hafter, Option.some.injEq, Prod.mk.injEq] at heq
      rw [heq.1, heq.2]
      exact hcan
  have hpassword : passwordAt cfg s requests sched result.id m = some hash := by
    obtain ⟨user, account, hfound, -, -, hpassword, -⟩ := hcan
    simp [passwordAt, passwordOf, (findUserByEmail_some hfound).2.1, hpassword]
  -- the last time it was set
  obtain ⟨w, hw, hold, hsince⟩ := last_change (f := passwordAt cfg s requests sched result.id)
    (by rw [passwordAt, before_zero, h0]; exact nofun) hpassword
  exact ⟨hash, m, w, hw, hm, hturn, hcan,
    set_by_owner hother (by omega) (hsince _ (Nat.lt_succ_self w) (by omega)) hold, hsince⟩

end SignIn

def sampleDB : ProfileDB where
  toDB := Sample.db
  accounts := AList.insert 1 (newAccount "a@x") ∅
  residences := AList.insert 1 ⟨none, none⟩ ∅
  verificationEmails := AList.insert 1 ⟨9000000, "t"⟩ ∅
  refreshTokens := ∅
  authProviders := ∅
  emailQueue := []
  admins := [4]
  reports := []

def sampleInput : ApiInput where
  toInput := Sample.inputs 9 0
  millis := 0
  uuid := "t"
  uploadImage _ := none
  userRank _ := 0

/-- The registration, a sign-in, and a change of another account meanwhile. -/
def sampleRequests : List ApiRequest :=
  [.completeRegistration ⟨"A", "B", .undefined, "pw", .a, "1", "2",
      Sample.sessionConfig.jwtSign .roleFirst (.registration 1) 1000 defaultExpiresIn⟩,
    .signin "a@x" "pw" true, .other (otherService Sample.config (.updateUserStatus 2 .banned))]

def sampleSched : List (ℕ × ApiInput) :=
  [0, 2, 0, 2, 0, 1, 2, 1, 1, 1].map fun k => (k, sampleInput)

lemma otherService_keeps (cfg : Config) (r : AccountRequest) :
    (otherService cfg r).Steps fun s t => KeepsPasswords s.accounts t.accounts :=
  otherService_steps (account_sparing cfg r) fun _ _ h => h

lemma sampleRequests_others : ∀ c, .other c ∈ sampleRequests →
    c.Steps fun s t => KeepsPasswords s.accounts t.accounts := by
  intro c hc
  simp only [sampleRequests, List.mem_cons, List.not_mem_nil, or_false, reduceCtorEq, false_or,
    ApiRequest.other.injEq] at hc
  rw [hc]
  exact otherService_keeps _ _

theorem passwords_set_by_owner_sample :
    SetByOwner Sample.sessionConfig sampleDB sampleRequests sampleSched 1 "pw" 4 :=
  passwords_set_by_owner Sample.sessionConfig sampleRequests sampleDB sampleSched
    sampleRequests_others 4 (by decide) 1 "pw" (by decide +kernel) (by decide +kernel)

theorem signin_explained_sample : ∃ id, Explained Sample.sessionConfig sampleDB sampleRequests
    sampleSched 1 "a@x" "pw" id 10 := by
  have hreturned : Returned (before sampleDB (apiCalls Sample.sessionConfig sampleRequests)
      sampleSched 10) 1 := by
    unfold Returned
    decide +kernel
  obtain ⟨a, ha⟩ := returned_iff.mp hreturned
  have h0 : ∀ u, passwordOf sampleDB.accounts u = none := by
    intro u
    have hall : ∀ e ∈ sampleDB.accounts.entries, e.2.password = none := by decide +kernel
    unfold passwordOf
    rcases hlookup : sampleDB.accounts.lookup u with _ | account
    · rfl
    · exact hall _ (Table.lookup_eq_some.mp hlookup)
  obtain ⟨result, -, hexplained⟩ := signin_explained Sample.sessionConfig sampleRequests sampleDB
    sampleSched sampleRequests_others h0 1 "a@x" "pw" true rfl 10 (by decide) a ha
  exact ⟨result.id, hexplained⟩

end TsaBackend.Passwords
