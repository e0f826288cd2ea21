import TsaBackend.AuthSteps
import TsaBackend.Sessions

/-!
What requests on sessions and accounts answer and leave when they run alone.
-/

namespace TsaBackend.SessionSteps

open Call AuthSteps

variable {cfg : SessionConfig} {s t : ProfileDB} {ω : ℕ → AuthInput}

section Auth

variable {α β : Type}

/-- A call of registration or sign-in leaves the profiles of administrators and the reports. -/
lemma onProfiles_exec (c : AuthCall α) (f : α → β) (ω : ℕ → AuthInput) (s : ProfileDB) :
    (onProfiles c >>= fun a => (Pure.pure (f a) : ProfileCall β)).exec ω s =
      ((c.exec ω s.toAuthDB).1.map f, { s with toAuthDB := (c.exec ω s.toAuthDB).2 }) := by
  rw [exec_map, onProfiles, exec_zoom]
  rfl

lemma onProfiles_drop (c : AuthCall α) (f : α → β) (ω : ℕ → AuthInput) (s : ProfileDB) :
    ((onProfiles c >>= fun a => (Pure.pure (f a) : ProfileCall β)).exec ω s).2 = { s with
      toAuthDB := ((c >>= fun _ => (Pure.pure () : AuthCall Unit)).exec ω s.toAuthDB).2 } := by
  rw [onProfiles_exec, exec_map c (fun _ => ())]

/-- The request as one of registration, sign-in or the other services. -/
def toAuth : SessionRequest → Option AuthRequest
  | .other r => some (.other r)
  | .initiateRegistration email mobile => some (.initiateRegistration email mobile)
  | .verifyEmail token mobile => some (.verifyEmail token mobile)
  | .completeRegistration dto => some (.completeRegistration dto)
  | .signin email password mobile => some (.signin email password mobile)
  | .signInWithGoogle idToken mobile => some (.signInWithGoogle idToken mobile)
  | _ => none

/-- **Registration and sign-in run as they do without sessions.** -/
theorem serve_auth {r : SessionRequest} {a : AuthRequest} (h : toAuth r = some a) :
    serveSession cfg s (r, ω) =
      { s with toAuthDB := serveAuth cfg.toAuthConfig s.toAuthDB (a, ω) } := by
  cases r with
  | other r =>
    cases h
    exact congrArg Prod.snd (onProfiles_exec _ (fun _ => SessionResponse.done) ω s)
  | initiateRegistration email mobile =>
    cases h
    exact onProfiles_drop _ SessionResponse.message ω s
  | verifyEmail token mobile =>
    cases h
    exact onProfiles_drop _ SessionResponse.link ω s
  | completeRegistration dto =>
    cases h
    exact onProfiles_drop _ SessionResponse.message ω s
  | signin email password mobile =>
    cases h
    refine (onProfiles_drop _ SessionResponse.session ω s).trans ?_
    rw [passwordSignin, bind_assoc]
    rfl
  | signInWithGoogle idToken mobile =>
    cases h
    exact onProfiles_drop _ SessionResponse.session ω s
  | _ => cases h

lemma passwordSignin_mobile (cfg : AuthConfig) (email password : String) :
    passwordSignin cfg email password true =
      passwordSignin cfg email password false >>= greet := by
  unfold passwordSignin signin
  simp only [openSession_mobile, bind_assoc]

/-- **A password sign-in that runs alone**, before its greeting. -/
theorem passwordSignin_ends (cfg : AuthConfig) (email password : String) (ω : ℕ → AuthInput)
    (s : AuthDB) : SignsIn cfg (passwordSignin cfg email password false) ω s := by
  have hω : ∀ n, ∃ m, ω n = ω m := fun n => ⟨n, rfl⟩
  have hwp : (passwordSignin cfg email password false).wp (fun i => ∃ n, i = ω n) AnyStep
      (fun r t => SignedIn cfg (fun i => ∃ n, i = ω n) s r t)
      (fun _ t => t.refreshTokens = s.refreshTokens) s := by
    unfold passwordSignin
    rw [wp_bind]
    refine wp_mono validateUser_wp (fun x t hx => ?_) fun _ t ht => by rw [ht]
    obtain ⟨rfl, hx⟩ := hx
    obtain ⟨id, user, account⟩ := x
    refine wp_mono openSession_wp (fun r t' hr => ?_) fun _ t' ht' => by rw [ht']
    obtain ⟨i, hi, hopen⟩ := hr
    exact ⟨_, i, t, id, user, account, hi, rfl, (findUserByEmail_some hx.found).1, hopen⟩
  have hout := (wp_run hwp hω).2
  unfold SignsIn
  rcases hr : (passwordSignin cfg email password false).exec ω s with ⟨e | r, t⟩
  · rwa [hr] at hout
  · rwa [hr] at hout

/-- The sign-in that a request makes, and whether on a phone. -/
def signinOf (cfg : AuthConfig) : SessionRequest → Option ((Bool → AuthCall SignInResult) × Bool)
  | .signin email password mobile => some (passwordSignin cfg email password, mobile)
  | .signInWithGoogle idToken mobile => some (signInWithGoogle cfg idToken, mobile)
  | _ => none

variable {r : SessionRequest} {c : Bool → AuthCall SignInResult} {mobile : Bool}

lemma signinOf_mobile {cfg : AuthConfig} (h : signinOf cfg r = some (c, mobile)) :
    c true = c false >>= greet := by
  cases r <;> cases h
  · exact passwordSignin_mobile cfg _ _
  · exact signInWithGoogle_mobile cfg _

lemma signinOf_ends {cfg : AuthConfig} {s : AuthDB} (h : signinOf cfg r = some (c, mobile)) :
    SignsIn cfg (c false) ω s := by
  cases r <;> cases h
  · exact passwordSignin_ends cfg _ _ ω s
  · exact (signInWithGoogle_ends cfg _ ω s).1

lemma respond_signin (h : signinOf cfg.toAuthConfig r = some (c, mobile)) :
    respond cfg s (r, ω) = (((c mobile).exec ω s.toAuthDB).1.map .session,
      { s with toAuthDB := ((c mobile).exec ω s.toAuthDB).2 }) := by
  cases r <;> cases h <;> exact onProfiles_exec _ _ _ _

/-- A sign-in on a phone stores its session, and then throws because the devices of its user are not
read. -/
def Abandons (cfg : SessionConfig) (s : ProfileDB) (l : SessionRequest × (ℕ → AuthInput)) : Prop :=
  ∃ c mobile, signinOf cfg.toAuthConfig l.1 = some (c, mobile) ∧ Ungreeted c mobile l.2 s.toAuthDB

lemma signin_answers (h : signinOf cfg.toAuthConfig r = some (c, mobile)) :
    Abandons cfg s (r, ω) ∧ (respond cfg s (r, ω)).1 = .error .rejected ∨
      ¬ Abandons cfg s (r, ω) ∧
        (respond cfg s (r, ω)).1 = ((c false).exec ω s.toAuthDB).1.map .session := by
  have habandons : Abandons cfg s (r, ω) ↔ Ungreeted c mobile ω s.toAuthDB := by
    refine ⟨fun ⟨c', mobile', h', hno⟩ => ?_, fun hno => ⟨c, mobile, h, hno⟩⟩
    cases h.symm.trans h'
    exact hno
  rw [habandons, respond_signin h]
  refine (exec_mobile (signinOf_mobile h) mobile ω s.toAuthDB).2.imp ?_ ?_
  · exact fun hno => ⟨hno.1, by rw [hno.2]; rfl⟩
  · exact fun hyes => ⟨hyes.1, by rw [hyes.2]⟩

lemma serve_signin (h : signinOf cfg.toAuthConfig r = some (c, mobile)) :
    serveSession cfg s (r, ω) = { s with toAuthDB := ((c false).exec ω s.toAuthDB).2 } := by
  rw [serveSession, respond_signin h, (exec_mobile (signinOf_mobile h) mobile ω s.toAuthDB).1]

end Auth

/-! ### Tokens -/

section Tokens

variable {token : String}

lemma verifyToken_exec_bind {α : Type} (g : JwtPayload → AuthCall α) (s : AuthDB) :
    (verifyToken cfg token >>= g).exec ω s = match cfg.jwtVerify token (ω 0).now with
      | some payload => (g payload).exec (fun n => ω (n + 1)) s
      | none => (.error .rejected, s) := by
  unfold verifyToken
  rw [exec_atomic_bind]
  rcases cfg.jwtVerify token (ω 0).now with _ | payload <;> rfl

/-- The stored row does not let the token in: there is none, or it has expired. -/
def Stale (s : AuthDB) (token : String) (ms : ℕ) : Prop :=
  (s.refreshTokens.lookup token).all (fun row => row.expiresAt < ms)

instance (s : AuthDB) (token : String) (ms : ℕ) : Decidable (Stale s token ms) := by
  unfold Stale; infer_instance

/-- **A refresh that runs alone** writes nothing. -/
theorem refreshTokens_exec (cfg : SessionConfig) (token : String) (ω : ℕ → AuthInput) (s : AuthDB) :
    (refreshTokens cfg token).exec ω s =
      (match cfg.jwtVerify token (ω 0).now with
        | some payload => if Stale s token (ω 1).ms then .error invalidRefreshToken
          else .ok (signSession cfg payload (ω 2).now, token)
        | none => .error invalidRefreshToken, s) := by
  unfold refreshTokens
  rw [exec_tryCatch_throw _ _ _ fun _ => invalidRefreshToken, verifyToken_exec_bind]
  rcases cfg.jwtVerify token (ω 0).now with _ | payload
  · rfl
  simp only [exec_read_bind, exec_throwIf_bind, Nat.zero_add, Nat.reduceAdd]
  by_cases h : Stale s token (ω 1).ms
  · rw [if_pos h, if_pos (show _ = true from h)]
    rfl
  · rw [if_neg h, if_neg (show ¬ _ = true from h)]
    rfl

lemma signout_exec (cfg : SessionConfig) (token : String) (ω : ℕ → AuthInput) (s : AuthDB) :
    (signout cfg token).exec ω s =
      if (cfg.jwtVerify token (ω 0).now).isSome ∧ token ∈ s.refreshTokens then
        (.ok "Sign out successful", { s with refreshTokens := s.refreshTokens.erase token })
      else (.error invalidRefreshToken, s) := by
  unfold signout
  rw [exec_tryCatch_throw _ _ _ fun _ => invalidRefreshToken, verifyToken_exec_bind]
  rcases cfg.jwtVerify token (ω 0).now with _ | payload
  · rfl
  simp only [exec_read_bind, exec_throwIf_bind]
  by_cases hmem : token ∈ s.refreshTokens
  · have hsome : ¬ (s.refreshTokens.lookup token).isNone = true := by
      obtain ⟨row, hrow⟩ := Table.mem_iff_lookup.mp hmem
      simp [hrow]
    have hdelete : s.deleteRefreshToken token =
        .ok { s with refreshTokens := s.refreshTokens.erase token } := if_pos hmem
    rw [if_neg hsome, if_pos ⟨rfl, hmem⟩, exec_atomic_bind, hdelete]
    rfl
  · have hnone : (s.refreshTokens.lookup token).isNone = true := by
      simpa [AList.lookup_eq_none] using hmem
    rw [if_pos hnone, if_neg fun h => hmem h.2]
    rfl

lemma validateUserForJwt_state (payload : JwtPayload) (ω : ℕ → AuthInput) (s : AuthDB) :
    ((validateUserForJwt payload).exec ω s).2 = s := by
  unfold validateUserForJwt
  cases payload with
  | registration userId => rfl
  | user email role id =>
    simp only [exec_read_bind]
    rcases s.findUser id with _ | ⟨user, account⟩
    · rfl
    · simp only [exec_throwIf_bind]
      split <;> rfl

/-- **An authenticated request**: what the strategy found out about the user is lost. -/
theorem jwtAuthGuard_exec (cfg : SessionConfig) (token : String) (ω : ℕ → AuthInput) (s : AuthDB) :
    (jwtAuthGuard cfg token).exec ω s =
      (match cfg.jwtVerify token (ω 0).now with
        | some payload => .ok payload
        | none => .error (.unauthorized "Phiên đăng nhập không hợp lệ."), s) := by
  unfold jwtAuthGuard
  rw [exec_read_bind]
  rcases cfg.jwtVerify token (ω 0).now with _ | payload
  · rfl
  · dsimp only
    unfold JwtStrategy.validate
    rw [exec_map _ fun _ => payload, exec_tryCatch_pure _ _ _ fun _ => (), exec_map _ fun _ => (),
      validateUserForJwt_state]
    rcases ((validateUserForJwt payload).exec (fun n => ω (n + 1)) s).1 with e | _ <;> rfl

/-- Refreshes and authenticated requests write nothing. -/
lemma serve_refreshTokens : serveSession cfg s (.refreshTokens token, ω) = s := by
  have h := onProfiles_exec (refreshTokens cfg token)
    (fun p => SessionResponse.tokens p.1 p.2) ω s
  exact (congrArg Prod.snd h).trans (by rw [refreshTokens_exec])

lemma serve_authenticate : serveSession cfg s (.authenticate token, ω) = s := by
  have h := onProfiles_exec (jwtAuthGuard cfg token) SessionResponse.payload ω s
  exact (congrArg Prod.snd h).trans (by rw [jwtAuthGuard_exec])

/-- A sign-out writes nothing or closes the session. -/
theorem respond_signout (cfg : SessionConfig) (token : String) (ω : ℕ → AuthInput) (s : ProfileDB) :
    (∃ e, respond cfg s (.signout token, ω) = (.error e, s)) ∨
      respond cfg s (.signout token, ω) = (.ok (.message "Sign out successful"),
        { s with refreshTokens := s.refreshTokens.erase token }) := by
  have hrespond : respond cfg s (.signout token, ω) =
      (((signout cfg token).exec ω s.toAuthDB).1.map .message,
        { s with toAuthDB := ((signout cfg token).exec ω s.toAuthDB).2 }) := onProfiles_exec _ _ _ _
  rw [signout_exec] at hrespond
  split at hrespond
  · exact .inr hrespond
  · exact .inl ⟨_, hrespond⟩

end Tokens

/-! ### Roles and deletion, and any request -/

section Roles

variable {id : Id} {newRole : String} {ω : ℕ → AuthInput}

lemma steps_statement {α : Type} {G : ProfileDB → ProfileDB → Prop}
    {f : ProfileDB → Except Exn (α × ProfileDB)} (hrefl : ∀ s, G s s)
    (hok : ∀ s a t, f s = .ok (a, t) → G s t) : (statement f).Steps G := by
  refine steps_atomic (fun i s a t h => ?_) hrefl
  split at h
  · exact hok s a t h
  · cases h

/-! What a statement changed. -/

lemma deleteStudent_ok (h : s.deleteStudent id = .ok t) : id ∈ s.students ∧
    s.reports.any (·.studentId = id) = false ∧ ∃ orders, t = { s with
      students := s.students.erase id
      residences := s.residences.erase id
      orders } := by
  unfold ProfileDB.deleteStudent at h
  split at h
  · cases h
  next hid =>
  split at h
  · cases h
  · next hreports =>
    cases h
    exact ⟨not_not.mp hid, Bool.eq_false_iff.mpr hreports, _, rfl⟩

lemma deleteStaff_ok (h : s.deleteStaff id = .ok t) : id ∈ s.staffs ∧ t = { s with
    staffs := s.staffs.filter (· ≠ id)
    orders := s.orders.mapRows fun o =>
      if o.shipperId = some id then { o with shipperId := none } else o
    deliveries := s.deliveries.mapRows fun d =>
      if d.staffId = some id then { d with staffId := none } else d } := by
  unfold ProfileDB.deleteStaff at h
  split at h
  · cases h
  · next hid =>
    cases h
    exact ⟨not_not.mp hid, rfl⟩

lemma deleteAdmin_ok (h : s.deleteAdmin id = .ok t) : id ∈ s.admins ∧ t = { s with
    admins := s.admins.filter (· ≠ id)
    reports := s.reports.map fun r =>
      if r.replierId = some id then { r with replierId := none } else r } := by
  unfold ProfileDB.deleteAdmin at h
  split at h
  · cases h
  · next hid =>
    cases h
    exact ⟨not_not.mp hid, rfl⟩

lemma createStudent_ok (h : s.createStudent id = .ok t) : id ∉ s.students ∧ t = { s with
    students := s.students.insert id { dormitory := none, numberFault := 0 }
    residences := s.residences.insert id { building := none, room := none } } := by
  unfold ProfileDB.createStudent at h
  split at h
  · cases h
  split at h
  · cases h
  · next hid =>
    cases h
    exact ⟨hid, rfl⟩

lemma createStaff_ok (h : s.createStaff id = .ok t) : id ∉ s.staffs ∧
    t = { s with staffs := id :: s.staffs } := by
  unfold ProfileDB.createStaff at h
  split at h
  · cases h
  split at h
  · cases h
  · next hid =>
    cases h
    exact ⟨hid, rfl⟩

lemma createAdmin_ok (h : s.createAdmin id = .ok t) : id ∉ s.admins ∧
    t = { s with admins := id :: s.admins } := by
  unfold ProfileDB.createAdmin at h
  split at h
  · cases h
  split at h
  · cases h
  · next hid =>
    cases h
    exact ⟨hid, rfl⟩

lemma findUser_mem {s : AuthDB} {user : User × UserAccount} (h : s.findUser id = some user) :
    id ∈ s.users := by
  unfold AuthDB.findUser at h
  rcases hu : s.users.lookup id with _ | user
  · simp [hu] at h
  · exact Table.mem_iff_lookup.mpr ⟨user, hu⟩

lemma updateRole_ok {user : User × UserAccount} (h : s.updateRole id newRole = .ok (user, t)) :
    ∃ role, parseRole newRole = some role ∧ id ∈ s.users ∧
      t = { s with users := s.users.modify id fun user => { user with role } } := by
  unfold ProfileDB.updateRole at h
  rcases hrole : parseRole newRole with _ | role
  · simp [hrole] at h
  simp only [hrole] at h
  split at h
  · cases h
  · next user' huser =>
    cases h
    exact ⟨role, rfl, by simpa using findUser_mem huser, rfl⟩

lemma deleteUser_ok (h : s.deleteUser id = .ok t) : id ∈ s.users ∧ id ∉ s.admins ∧
    ∃ orders deliveries, t = { s with
      users := s.users.erase id
      accounts := s.accounts.erase id
      students := s.students.erase id
      residences := s.residences.erase id
      staffs := s.staffs.filter (· ≠ id)
      verificationEmails := s.verificationEmails.erase id
      authProviders := s.authProviders.erase id
      refreshTokens := s.refreshTokens.filter fun _ row => row.userId ≠ id
      orders
      deliveries } := by
  unfold ProfileDB.deleteUser at h
  split at h
  · cases h
  next hid =>
  split at h
  · cases h
  · next hkept =>
    cases h
    exact ⟨not_not.mp hid, fun hadmin => hkept (.inl hadmin), _, _, rfl⟩

/-- What one step of a change of a role can make of the tables. -/
inductive RoleWrites (id : Id) (newRole : String) (s : ProfileDB) : ProfileDB → Prop
  | none : RoleWrites id newRole s s
  | deleteStudent {t : ProfileDB} (h : s.deleteStudent id = .ok t) : RoleWrites id newRole s t
  | deleteStaff {t : ProfileDB} (h : s.deleteStaff id = .ok t) : RoleWrites id newRole s t
  | deleteAdmin {t : ProfileDB} (h : s.deleteAdmin id = .ok t) : RoleWrites id newRole s t
  | role {user : User × UserAccount} {t : ProfileDB} (h : s.updateRole id newRole = .ok (user, t)) :
    RoleWrites id newRole s t
  | createStudent {t : ProfileDB} (h : s.createStudent id = .ok t) : RoleWrites id newRole s t
  | createStaff {t : ProfileDB} (h : s.createStaff id = .ok t) : RoleWrites id newRole s t
  | createAdmin {t : ProfileDB} (h : s.createAdmin id = .ok t) : RoleWrites id newRole s t

/-- What a change of a role leaves. -/
structure SameSessions (s t : ProfileDB) : Prop where
  accounts : t.accounts = s.accounts
  verificationEmails : t.verificationEmails = s.verificationEmails
  refreshTokens : t.refreshTokens = s.refreshTokens

lemma RoleWrites.sameSessions (h : RoleWrites id newRole s t) : SameSessions s t := by
  cases h with
  | none => exact ⟨rfl, rfl, rfl⟩
  | deleteStudent h =>
    obtain ⟨-, -, _, rfl⟩ := deleteStudent_ok h
    exact ⟨rfl, rfl, rfl⟩
  | deleteStaff h =>
    obtain ⟨-, rfl⟩ := deleteStaff_ok h
    exact ⟨rfl, rfl, rfl⟩
  | deleteAdmin h =>
    obtain ⟨-, rfl⟩ := deleteAdmin_ok h
    exact ⟨rfl, rfl, rfl⟩
  | role h =>
    obtain ⟨_, -, -, rfl⟩ := updateRole_ok h
    exact ⟨rfl, rfl, rfl⟩
  | createStudent h =>
    obtain ⟨-, rfl⟩ := createStudent_ok h
    exact ⟨rfl, rfl, rfl⟩
  | createStaff h =>
    obtain ⟨-, rfl⟩ := createStaff_ok h
    exact ⟨rfl, rfl, rfl⟩
  | createAdmin h =>
    obtain ⟨-, rfl⟩ := createAdmin_ok h
    exact ⟨rfl, rfl, rfl⟩

theorem updateUserRole_steps :
    (updateUserRole id newRole).Steps fun s t => RoleWrites id newRole s t := by
  have hwrite : ∀ {f : ProfileDB → Id → Except Exn ProfileDB},
      (∀ s t, f s id = .ok t → RoleWrites id newRole s t) →
      (statement fun s => (f s id).map fun s => ((), s)).Steps
        fun s t => RoleWrites id newRole s t :=
    fun h => steps_statement (fun _ => .none) fun s a t ht => h s t (of_map_ok ht)
  unfold updateUserRole
  refine (steps_statement (fun _ => .none) fun s a t h => ?_).bind fun found => ?_
  · cases h
    exact .none
  rcases found with _ | ⟨role, student, staff, admin⟩
  · exact steps_throw _
  refine Steps.bind ?_ fun _ => Steps.bind (steps_statement (fun _ => .none) fun s a t h =>
    .role h) fun _ => Steps.bind ?_ fun _ => steps_pure _
  · unfold deleteProfile
    refine Steps.ite (fun _ => hwrite fun _ _ => .deleteStudent) fun _ => ?_
    refine Steps.ite (fun _ => hwrite fun _ _ => .deleteStaff) fun _ => ?_
    exact Steps.ite (fun _ => hwrite fun _ _ => .deleteAdmin) fun _ => steps_pure _
  · unfold createProfile
    refine Steps.ite (fun _ => hwrite fun _ _ => .createStudent) fun _ => ?_
    refine Steps.ite (fun _ => hwrite fun _ _ => .createStaff) fun _ => ?_
    exact Steps.ite (fun _ => hwrite fun _ _ => .createAdmin) fun _ => steps_pure _

/-- A deletion writes nothing or is the statement. -/
theorem respond_deleteUser (cfg : SessionConfig) (id : Id) (ω : ℕ → AuthInput) (s : ProfileDB) :
    (∃ e, respond cfg s (.deleteUser id, ω) = (.error e, s)) ∨ ∃ t, s.deleteUser id = .ok t ∧
      respond cfg s (.deleteUser id, ω) = (.ok (.message "User deleted successfully"), t) := by
  have hrespond : respond cfg s (.deleteUser id, ω) = (((deleteUser id).exec ω s).1.map .message,
      ((deleteUser id).exec ω s).2) := exec_map _ _ _ _
  unfold deleteUser at hrespond
  rw [statement, exec_answered_bind] at hrespond
  by_cases hok : (ω 0).ok = true
  · rw [if_pos hok] at hrespond
    rcases hdelete : s.deleteUser id with e | t
    · rw [hdelete] at hrespond
      exact .inl ⟨e, hrespond⟩
    · rw [hdelete] at hrespond
      exact .inr ⟨t, rfl, hrespond⟩
  · rw [if_neg hok] at hrespond
    exact .inl ⟨_, hrespond⟩

lemma respond_updateUserRole (cfg : SessionConfig) (id : Id) (newRole : String)
    (ω : ℕ → AuthInput) (s : ProfileDB) : respond cfg s (.updateUserRole id newRole, ω) =
      (((updateUserRole id newRole).exec ω s).1.map .user,
        ((updateUserRole id newRole).exec ω s).2) :=
  exec_map _ _ _ _

/-- A change of a role closes no session and verifies nobody. -/
theorem updateUserRole_sameSessions :
    SameSessions s ((updateUserRole id newRole).exec ω s).2 := by
  have hpres : (updateUserRole id newRole).Preserves (SameSessions s) :=
    updateUserRole_steps.preserves fun a b hw ha => by
      have hab := hw.sameSessions
      exact ⟨hab.accounts.trans ha.accounts, hab.verificationEmails.trans ha.verificationEmails,
        hab.refreshTokens.trans ha.refreshTokens⟩
  exact hpres.exec ⟨rfl, rfl, rfl⟩ ω

end Roles

/-- What a request that ran alone made of the tables. -/
inductive Serves (cfg : SessionConfig) (s : ProfileDB) :
    SessionRequest × (ℕ → AuthInput) → ProfileDB → Prop
  | auth {r : SessionRequest} {a : AuthRequest} {ω : ℕ → AuthInput} (ha : toAuth r = some a) :
    Serves cfg s (r, ω) { s with toAuthDB := serveAuth cfg.toAuthConfig s.toAuthDB (a, ω) }
  | refreshTokens {token : String} {ω : ℕ → AuthInput} : Serves cfg s (.refreshTokens token, ω) s
  | authenticate {token : String} {ω : ℕ → AuthInput} : Serves cfg s (.authenticate token, ω) s
  | throws {r : SessionRequest} {ω : ℕ → AuthInput} {e : Exn} (hr : toAuth r = none)
    (h : respond cfg s (r, ω) = (.error e, s)) : Serves cfg s (r, ω) s
  | signout {token : String} {ω : ℕ → AuthInput} :
    Serves cfg s (.signout token, ω) { s with refreshTokens := s.refreshTokens.erase token }
  | updateUserRole {id : Id} {newRole : String} {ω : ℕ → AuthInput} :
    Serves cfg s (.updateUserRole id newRole, ω) ((updateUserRole id newRole).exec ω s).2
  | deleteUser {id : Id} {ω : ℕ → AuthInput} {t : ProfileDB} (h : s.deleteUser id = .ok t) :
    Serves cfg s (.deleteUser id, ω) t

/-- **One case for each kind of request.** -/
theorem serve_cases (cfg : SessionConfig) (s : ProfileDB) (l : SessionRequest × (ℕ → AuthInput)) :
    Serves cfg s l (serveSession cfg s l) := by
  obtain ⟨r, ω⟩ := l
  cases r with
  | refreshTokens token =>
    rw [serve_refreshTokens]
    exact .refreshTokens
  | authenticate token =>
    rw [serve_authenticate]
    exact .authenticate
  | signout token =>
    rcases respond_signout cfg token ω s with ⟨e, hrespond⟩ | hrespond
    · rw [serveSession, hrespond]
      exact .throws rfl hrespond
    · rw [serveSession, hrespond]
      exact .signout
  | updateUserRole id newRole =>
    rw [serveSession, respond_updateUserRole]
    exact .updateUserRole
  | deleteUser id =>
    rcases respond_deleteUser cfg id ω s with ⟨e, hrespond⟩ | ⟨t, hdelete, hrespond⟩
    · rw [serveSession, hrespond]
      exact .throws rfl hrespond
    · rw [serveSession, hrespond]
      exact .deleteUser hdelete
  | _ =>
    rw [serve_auth rfl]
    exact .auth rfl

end TsaBackend.SessionSteps
