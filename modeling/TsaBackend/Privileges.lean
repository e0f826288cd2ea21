import TsaBackend.Passwords

/-!
On whose authority roles change.

Whatever runs at the same time, a token carries a role that a sign-in of its user has read from the
tables, and the role of a user changes only by a request with the token of an administrator.
-/

namespace TsaBackend.Privileges

open Call AuthSteps EndpointSteps SessionSteps

variable {cfg : SessionConfig} {r : ApiRequest} {s t : ProfileDB} {id u : Id}

/-- The role that is stored for a user. -/
def roleOf (users : Table Id User) (u : Id) : Option UserRole := (users.lookup u).map (·.role)

/-- The user has the same role, or is a new student. -/
def RoleKept (users users' : Table Id User) (u : Id) : Prop :=
  roleOf users' u = roleOf users u ∨ roleOf users u = none ∧ roleOf users' u = some .student

/-- Users keep their roles, and new ones are students. -/
def KeepsRoles (s t : ProfileDB) : Prop := ∀ u, RoleKept s.users t.users u

lemma keepsRoles_of_eq (h : t.users = s.users) : KeepsRoles s t := fun u => .inl (by rw [h])

lemma KeepsRoles.trans {s' : ProfileDB} (h : KeepsRoles s s') (h' : KeepsRoles s' t) :
    KeepsRoles s t := by
  intro u
  rcases h u with hu | ⟨hnone, hu⟩
  · rcases h' u with hu' | hnew
    · exact .inl (hu'.trans hu)
    · exact .inr ⟨by rw [← hu, hnew.1], hnew.2⟩
  · rcases h' u with hu' | hnew
    · exact .inr ⟨hnone, hu'.trans hu⟩
    · rw [hnew.1] at hu
      cases hu

lemma KeepsRoles.admin (h : KeepsRoles s t) (hu : roleOf t.users u = some .admin) :
    roleOf s.users u = some .admin := by
  rcases h u with hsame | ⟨-, hnew⟩
  · rw [← hsame, hu]
  · rw [hnew] at hu
    cases hu

lemma roleKept_created {s t : AuthDB} {account : UserAccount}
    (h : s.createUser id account = .ok t) : RoleKept s.users t.users u := by
  obtain ⟨hid, -, rfl⟩ := AuthDB.createUser_ok h
  by_cases hu : u = id
  · subst hu
    refine .inr ⟨?_, ?_⟩
    · rw [roleOf, AList.lookup_eq_none.mpr hid, Option.map_none]
    · simp [roleOf]
  · exact .inl (by simp [roleOf, AList.lookup_insert_ne hu])

/-- **Registration and sign-in** create students only. -/
theorem roleKept_writes {cfg : AuthConfig} {s t : AuthDB} {r : AuthRequest}
    (h : AuthWrites cfg s r t) : RoleKept s.users t.users u := by
  cases h with
  | none => exact .inl rfl
  | resend h =>
    obtain ⟨_, rfl⟩ := AuthDB.upsertVerificationEmail_ok h
    exact .inl rfl
  | register h ht =>
    obtain ⟨-, -, rfl⟩ := AuthDB.createVerificationEmail_ok ht
    have hcreated := roleKept_created (u := u) h
    exact hcreated
  | queue => exact .inl rfl
  | complete h =>
    obtain ⟨-, -, -, rfl⟩ := AuthDB.completeRegistration_ok h
    exact .inl rfl
  | create h =>
    have hcreated := roleKept_created (u := u) h
    exact hcreated
  | photo h =>
    obtain ⟨-, rfl⟩ := AuthDB.updateAccountRow_ok h
    exact .inl rfl
  | session _ h =>
    obtain ⟨-, -, rfl⟩ := AuthDB.createRefreshToken_ok h
    exact .inl rfl

lemma roleOf_writes {newRole : String} (h : RoleWrites id newRole s t) :
    (∀ v, v ≠ id → roleOf t.users v = roleOf s.users v) ∧
      (roleOf t.users id = roleOf s.users id ∨ roleOf t.users id = parseRole newRole) := by
  have hsame : t.users = s.users → (∀ v, v ≠ id → roleOf t.users v = roleOf s.users v) ∧
      (roleOf t.users id = roleOf s.users id ∨ roleOf t.users id = parseRole newRole) := by
    intro h
    rw [h]
    exact ⟨fun _ _ => rfl, .inl rfl⟩
  cases h with
  | none => exact hsame rfl
  | deleteStudent h =>
    obtain ⟨-, -, _, rfl⟩ := deleteStudent_ok h
    exact hsame rfl
  | deleteStaff h =>
    obtain ⟨-, rfl⟩ := deleteStaff_ok h
    exact hsame rfl
  | deleteAdmin h =>
    obtain ⟨-, rfl⟩ := deleteAdmin_ok h
    exact hsame rfl
  | role h =>
    obtain ⟨role, hparse, hid, rfl⟩ := updateRole_ok h
    obtain ⟨user, huser⟩ := Table.mem_iff_lookup.mp hid
    refine ⟨fun v hv => ?_, .inr ?_⟩
    · simp [roleOf, Table.lookup_modify_ne _ _ hv]
    · simp [roleOf, huser, hparse]
  | createStudent h =>
    obtain ⟨-, rfl⟩ := createStudent_ok h
    exact hsame rfl
  | createStaff h =>
    obtain ⟨-, rfl⟩ := createStaff_ok h
    exact hsame rfl
  | createAdmin h =>
    obtain ⟨-, rfl⟩ := createAdmin_ok h
    exact hsame rfl

/-- The token a request presents as one of a session. -/
def presents : ApiRequest → Option String
  | .refreshTokens refreshToken => some refreshToken
  | .getAllUsers accessToken => some accessToken
  | .get accessToken => some accessToken
  | .update accessToken _ _ => some accessToken
  | .updateStatus accessToken _ _ => some accessToken
  | .updatePassword accessToken _ => some accessToken
  | .updateRole accessToken _ _ => some accessToken
  | .delete accessToken _ => some accessToken
  | _ => none

/-- A sign-in finds this user: by an address, with the password, or by the address in an answer of
Google, which may be that of a new user. -/
def FindsUser (cfg : SessionConfig) (s : ProfileDB) (id : Id) : ApiRequest → Prop
  | .signin email password _ => ∃ hash, Passwords.CanSignIn cfg email password s.toAuthDB id hash
  | .signInWithGoogle idToken _ => ∃ now decoded email, cfg.verifyIdToken idToken now = some decoded ∧
      decoded.email = some email ∧ (s.accounts.lookup id).map (·.email) = some email
  | _ => False

def AdminOnly : ApiRequest → Prop
  | .getAllUsers _ => True
  | .updateStatus _ _ _ => True
  | .updateRole _ _ _ => True
  | .delete _ _ => True
  | _ => False

/-- The user whose role the request sets, and that role; a deletion leaves none. -/
def sets : ApiRequest → Option (Id × Option UserRole)
  | .updateRole _ id role => some (id, parseRole role)
  | .delete _ id => some (id, none)
  | _ => none

/-- The tokens of a session in a response. -/
def handsOut : ApiResponse → List String
  | .session (.session result) => [result.accessToken, result.refreshToken]
  | .session (.tokens accessToken refreshToken) => [accessToken, refreshToken]
  | _ => []

/-- The role and the user a call acts for, once it knows them. -/
abbrev Authority := Option (UserRole × Id)

/-- What a step of a request does, and on whose authority. -/
inductive Acts (cfg : SessionConfig) (r : ApiRequest) :
    Authority → ProfileDB → ProfileDB → Authority → Prop
  | keep {p : Authority} {s t : ProfileDB} (h : KeepsRoles s t) : Acts cfg r p s t p
  | read {role : UserRole} {id : Id} {s t : ProfileDB} (hr : FindsUser cfg t id r)
      (h : KeepsRoles s t) (hrole : roleOf t.users id = some role) : Acts cfg r none s t (some (role, id))
  | present {token email : String} {role : UserRole} {id : Id} {s : ProfileDB}
      (hr : presents r = some token) (h : Accepts cfg token (.user email role id)) :
      Acts cfg r none s s (some (role, id))
  | set {a u : Id} {role : Option UserRole} {s t : ProfileDB} (hr : sets r = some (u, role))
      (hother : ∀ v, v ≠ u → roleOf t.users v = roleOf s.users v)
      (hrole : roleOf t.users u = roleOf s.users u ∨ roleOf t.users u = role) :
      Acts cfg r (some (.admin, a)) s t (some (.admin, a))

lemma Acts.gains {p q : Authority} {role : UserRole} (h : Acts cfg r p s t q)
    (hp : p ≠ some (role, id)) (hq : q = some (role, id)) :
    FindsUser cfg t id r ∧ roleOf t.users id = some role ∨
      ∃ token email, presents r = some token ∧ Accepts cfg token (.user email role id) := by
  cases h with
  | keep => exact absurd hq hp
  | set => exact absurd hq hp
  | read hr _ hrole =>
    cases hq
    exact .inl ⟨hr, hrole⟩
  | present hr haccept =>
    cases hq
    exact .inr ⟨_, _, hr, haccept⟩

/-- A change of a role is one that was asked for, on the authority of an administrator. -/
lemma Acts.changes {p q : Authority} (h : Acts cfg r p s t q)
    (hchange : ¬ RoleKept s.users t.users u) : ∃ a role, p = some (.admin, a) ∧
      sets r = some (u, role) ∧ roleOf t.users u = role := by
  cases h with
  | keep h => exact absurd (h u) hchange
  | read _ h => exact absurd (h u) hchange
  | present => exact absurd (.inl rfl) hchange
  | @set a v role _ _ hsets hothers hrole =>
    have hu : u = v := by
      by_contra hne
      exact hchange (.inl (hothers u hne))
    subst hu
    rcases hrole with hsame | hset
    · exact absurd (.inl hsame) hchange
    · exact ⟨a, role, rfl, hsets, hset⟩

lemma acts_refl (p : Authority) (s : ProfileDB) : Acts cfg r p s s p := .keep (keepsRoles_of_eq rfl)

/-- A response hands out tokens of the authority of its call, and an administrator's endpoint
answers on one of an administrator. -/
structure Answers (cfg : SessionConfig) (r : ApiRequest) (p : Authority) (a : ApiResponse) :
    Prop where
  tokens : ∀ token ∈ handsOut a, ∀ email role id,
    Accepts cfg token (.user email role id) → p = some (role, id)
  admin : AdminOnly r → ∃ id, p = some (.admin, id)

/-- The call acts on authority. -/
abbrev Runs {α : Type} (cfg : SessionConfig) (r : ApiRequest) (Q : Authority → α → Prop)
    (c : ApiCall α) (p : Authority) : Prop :=
  Goes (Acts cfg r) Q c p

/-- The claims of a token that is accepted are those it was signed for. -/
lemma accepts_signed (laws : JwtLaws cfg) {order : ClaimOrder} {payload payload' : JwtPayload}
    {iat life : ℕ} (h : Accepts cfg (cfg.jwtSign order payload iat life) payload') : payload' = payload := by
  obtain ⟨now, h⟩ := h
  exact (laws.payload_of_verify h).1

lemma accepts_unique (laws : JwtLaws cfg) {token : String} {payload payload' : JwtPayload}
    (h : Accepts cfg token payload) (h' : Accepts cfg token payload') : payload' = payload := by
  obtain ⟨now, h⟩ := h
  obtain ⟨order, iat, life, rfl⟩ := laws.signed _ _ _ h
  exact accepts_signed laws h'

lemma onAuth_keep {p : Authority} {s t : AuthDB} (h : ∀ u, RoleKept s.users t.users u) :
    OnAuth (Acts cfg r) p s t p := by
  rintro w rfl
  exact .keep h

lemma present_acts {token : String} {payload : JwtPayload} (hr : presents r = some token)
    (h : Accepts cfg token payload) : ∃ q, (∀ s, Acts cfg r none s s q) ∧
      ∀ email role id, payload = .user email role id → q = some (role, id) := by
  cases payload with
  | user email role id =>
    exact ⟨some (role, id), fun _ => .present hr h, fun _ _ _ heq => by cases heq; rfl⟩
  | registration userId => exact ⟨none, acts_refl none, fun _ _ _ heq => by cases heq⟩

/-! ### Sign-in and refreshes -/

section SignIn

variable {user : User} {account : UserAccount}

/-- The tokens of a sign-in are signed for the user and the role that were read. -/
def SignedFor (cfg : SessionConfig) (q : Authority) (result : SignInResult) : Prop :=
  ∃ role id, q = some (role, id) ∧ ∀ token ∈ [result.accessToken, result.refreshToken],
    ∃ order email iat life, token = cfg.jwtSign order (.user email role id) iat life

lemma openSession_acts {order : ClaimOrder} {mobile : Bool} :
    Goes (OnAuth (Acts cfg r)) (SignedFor cfg)
      (openSession cfg.toAuthConfig order id user account mobile) (some (user.role, id)) := by
  unfold openSession
  have hinfo : (findStudentInfo id user).Steps
      fun s t => OnAuth (Acts cfg r) (some (user.role, id)) s t (some (user.role, id)) :=
    findStudentInfo_steps fun s => onAuth_keep fun _ => .inl rfl
  refine hinfo.follows_bind (fun _ => trivial) fun info => ?_
  refine Follows.bind (follows_atomic (fun i s a t _ h => ?_) fun i s e _ _ =>
    ⟨_, onAuth_keep fun _ => .inl rfl, trivial⟩)
  obtain ⟨s₁, hcreate, h⟩ := ok_of_bind h
  cases h
  obtain ⟨-, -, rfl⟩ := AuthDB.createRefreshToken_ok hcreate
  refine ⟨_, onAuth_keep fun _ => .inl rfl, ?_⟩
  have hgreeting : (Call.when mobile sendGreeting).Steps
      fun s t => OnAuth (Acts cfg r) (some (user.role, id)) s t (some (user.role, id)) :=
    Steps.when fun _ => sendGreeting_steps fun s => onAuth_keep fun _ => .inl rfl
  refine hgreeting.follows_bind (fun _ => trivial) fun _ => ?_
  refine ⟨user.role, id, rfl, fun token htoken => ?_⟩
  rcases List.mem_pair.mp htoken with rfl | rfl
  · exact ⟨_, _, _, _, rfl⟩
  · exact ⟨_, _, _, _, rfl⟩

lemma found_acts {email : String} {s : AuthDB}
    (hr : ∀ w : ProfileDB, w.toAuthDB = s → FindsUser cfg w id r)
    (h : s.findUserByEmail email = some (id, user, account)) :
    OnAuth (Acts cfg r) none s s (some (user.role, id)) := by
  rintro w rfl
  refine .read (hr w rfl) (keepsRoles_of_eq rfl) ?_
  rw [roleOf, (findUserByEmail_some h).1, Option.map_some]

lemma passwordSignin_acts {email password : String} {mobile : Bool} :
    Goes (OnAuth (Acts cfg (.signin email password mobile))) (SignedFor cfg)
      (passwordSignin cfg.toAuthConfig email password mobile) none := by
  refine Passwords.passwordSignin_goes (q := fun id user _ => some (user.role, id))
    (fun _ s => onAuth_keep fun _ => .inl rfl) (fun s id user account hash hf hcan => ?_)
    fun _ _ _ _ => openSession_acts
  refine found_acts (fun w hw => ?_) hf
  subst hw
  exact ⟨hash, hcan⟩

lemma signInWithGoogle_acts {idToken : String} {mobile : Bool} :
    Goes (OnAuth (Acts cfg (.signInWithGoogle idToken mobile))) (SignedFor cfg)
      (signInWithGoogle cfg.toAuthConfig idToken mobile) none := by
  unfold signInWithGoogle
  refine follows_read fun i₀ s _ => ⟨none, onAuth_keep fun _ => .inl rfl, ?_⟩
  rcases hverify : (if i₀.ok = true then cfg.verifyIdToken idToken i₀.now else none) with _ | decoded
  · trivial
  obtain ⟨-, hverify⟩ := Option.ite_none_right_eq_some.mp hverify
  dsimp only
  rcases hemail : decoded.email with _ | email
  · trivial
  dsimp only
  have hsign : ∀ x : Id × User × UserAccount,
      Goes (OnAuth (Acts cfg (.signInWithGoogle idToken mobile))) (SignedFor cfg) (do
      Call.when (¬ truthy x.2.2.photoUrl) (.atomic fun _ s =>
        (s.updateAccountRow x.1 fun account =>
          { account with photoUrl := decoded.picture <|> account.photoUrl }).map fun s => ((), s))
      openSession cfg.toAuthConfig .idFirst x.1 x.2.1 x.2.2 mobile) (some (x.2.1.role, x.1)) := by
    intro x
    refine Steps.follows_bind (Steps.when fun _ => steps_atomic (fun i s a t h => ?_) fun s =>
      onAuth_keep fun _ => .inl rfl) (fun _ => trivial) fun _ => openSession_acts
    obtain ⟨-, rfl⟩ := AuthDB.updateAccountRow_ok (of_map_ok h)
    exact onAuth_keep fun _ => .inl rfl
  refine Follows.bind ?_
  unfold findOrCreateGoogleUser
  refine follows_read fun i s _ => ?_
  rcases hf : s.findUserByEmail email with _ | ⟨id, user, account⟩
  · refine ⟨none, onAuth_keep fun _ => .inl rfl, ?_⟩
    rcases decoded.name with _ | name
    · trivial
    refine follows_atomic (fun i s a t _ h => ?_) fun i s e _ _ =>
      ⟨none, onAuth_keep fun _ => .inl rfl, trivial⟩
    obtain ⟨s₁, hcreate, h⟩ := ok_of_bind h
    cases h
    refine ⟨some (.student, i.fresh), ?_, hsign
      (i.fresh, ⟨.student, .available⟩, googleAccount email name decoded.picture)⟩
    rintro w rfl
    have hkept : ∀ u, RoleKept w.users s₁.users u := fun u => roleKept_created hcreate
    obtain ⟨-, -, rfl⟩ := AuthDB.createUser_ok hcreate
    refine .read ⟨i₀.now, decoded, email, hverify, hemail, ?_⟩ hkept ?_
    · simp [googleAccount]
    · simp [roleOf]
  · refine ⟨some (user.role, id), found_acts (fun w hw => ?_) hf, hsign (id, user, account)⟩
    subst hw
    obtain ⟨-, haccount, hmail⟩ := findUserByEmail_some hf
    exact ⟨i₀.now, decoded, email, hverify, hemail, by rw [haccount, Option.map_some, hmail]⟩

end SignIn

/-- The tokens of a refresh have the claims of the one that was presented. -/
def Refreshed (cfg : SessionConfig) (q : Authority) (tokens : String × String) : Prop :=
  ∀ token ∈ [tokens.1, tokens.2], ∀ email role id,
    Accepts cfg token (.user email role id) → q = some (role, id)

lemma refreshTokens_acts (laws : JwtLaws cfg) {refreshToken : String}
    (hr : presents r = some refreshToken) :
    Goes (OnAuth (Acts cfg r)) (Refreshed cfg) (refreshTokens cfg refreshToken) none := by
  unfold refreshTokens
  refine Follows.tryCatch (Follows.bind (follows_atomic (fun i s payload t _ h => ?_)
    fun i s e _ _ => ⟨none, onAuth_keep fun _ => .inl rfl, trivial⟩))
  split at h
  swap
  · cases h
  next payload' hverify =>
  cases h
  obtain ⟨q, hpresent, hq⟩ := present_acts hr ⟨i.now, hverify⟩
  refine ⟨q, ?_, ?_⟩
  · rintro w rfl
    exact hpresent w
  refine follows_read fun i' s _ => ⟨q, onAuth_keep fun _ => .inl rfl, ?_⟩
  refine follows_throwIf (fun _ => trivial) fun _ => ?_
  refine follows_read fun i'' s _ => ⟨q, onAuth_keep fun _ => .inl rfl, ?_⟩
  intro token htoken email role id haccept
  rcases List.mem_pair.mp htoken with rfl | rfl
  · cases payload with
    | user email' role' id' =>
      cases accepts_signed laws haccept
      exact hq _ _ _ rfl
    | registration userId =>
      obtain ⟨now, haccept⟩ := haccept
      obtain ⟨order, iat, life, heq⟩ := laws.signed _ _ _ haccept
      exact absurd heq.symm (laws.sign_ne_empty _ _ _ _ _ _)
  · exact hq _ _ _ (accepts_unique laws haccept ⟨_, hverify⟩)

/-! ### Every request -/

section Endpoints

variable {token : String} {p : Authority} {c : ApiCall ApiResponse}

lemma plain_answers {a : ApiResponse} (hr : ¬ AdminOnly r) (ha : handsOut a = []) :
    Answers cfg r p a :=
  ⟨fun token htoken => by simp [ha] at htoken, fun h => absurd h hr⟩

lemma admin_answers {a : ApiResponse} (ha : handsOut a = []) :
    Answers cfg r (some (.admin, id)) a :=
  ⟨fun token htoken => by simp [ha] at htoken, fun _ => ⟨id, rfl⟩⟩

/-- An endpoint for administrators runs on the authority of one. -/
lemma admin_acts (hr : presents r = some token)
    (h : ∀ id, Runs cfg r (Answers cfg r) c (some (.admin, id))) :
    Runs cfg r (Answers cfg r) (do let _ ← auth cfg [.admin] token; c) none := by
  refine goes_admin acts_refl fun payload haccept => ?_
  obtain ⟨q, hpresent, hq⟩ := present_acts hr haccept
  refine ⟨q, hpresent, fun email id heq => ?_⟩
  rw [hq _ _ _ heq]
  exact h id

/-- An endpoint for the user of the token, which leaves the roles. -/
lemma own_acts {α : Type} {f : Id → ApiCall α} {g : α → ApiResponse}
    (hr : presents r = some token) (hplain : ¬ AdminOnly r)
    (h : ∀ id, (f id).Steps fun s t => t.users = s.users) (hg : ∀ a, handsOut (g a) = []) :
    Runs cfg r (Answers cfg r) (do
      let id ← ownId (← auth cfg [] token)
      let a ← f id
      return g a) none := by
  refine goes_own acts_refl fun payload haccept => ?_
  obtain ⟨q, hpresent, hq⟩ := present_acts hr haccept
  refine ⟨q, hpresent, fun email role id heq => ?_⟩
  have hsteps : (f id).Steps fun s t => Acts cfg r q s t q :=
    (h id).mono fun s t hst => .keep (keepsRoles_of_eq hst)
  exact hsteps.follows_bind (fun _ => trivial) fun a => plain_answers hplain (hg a)

lemma plain_acts {α : Type} {c : AuthCall α} {f : α → SessionResponse} (hplain : ¬ AdminOnly r)
    (h : c.Steps fun s t => ∀ u, RoleKept s.users t.users u)
    (hf : ∀ a, handsOut (.session (f a)) = []) : Runs cfg r (Answers cfg r) (do
      let response ← onApi (onProfiles c >>= (Pure.pure ∘ f))
      return .session response) none :=
  goes_public (goes_steps (h.mono fun _ _ => onAuth_keep) fun a => plain_answers hplain (hf a))

lemma session_acts (laws : JwtLaws cfg) {c : AuthCall SignInResult} (hplain : ¬ AdminOnly r)
    (h : Goes (OnAuth (Acts cfg r)) (SignedFor cfg) c none) : Runs cfg r (Answers cfg r) (do
      let response ← onApi (onProfiles c >>= (Pure.pure ∘ SessionResponse.session))
      return .session response) none := by
  refine goes_public (h.mono (fun _ _ _ h => h) (fun _ _ _ _ h => h) ?_ fun _ _ h => h)
  rintro _ result ⟨role, id, rfl, hsigned⟩
  refine ⟨fun token htoken email role' id' haccept => ?_, fun h => absurd h hplain⟩
  obtain ⟨order, email', iat, life, rfl⟩ := hsigned token htoken
  cases accepts_signed laws haccept
  rfl

end Endpoints

lemma signout_steps {refreshToken : String} : (signout cfg refreshToken).Steps
    fun s t => ∀ u, RoleKept s.users t.users u := by
  have hrefl : ∀ s : AuthDB, ∀ u, RoleKept s.users s.users u := fun _ _ => .inl rfl
  unfold signout
  refine Steps.tryCatch ?_ fun _ => steps_throw _
  refine Steps.bind (steps_atomic (fun i s a t h => ?_) hrefl) fun _ => ?_
  · split at h
    · cases h
      exact hrefl s
    · cases h
  refine (steps_read _ hrefl).bind fun storedToken => ?_
  refine (steps_throwIf _ _).bind fun _ => ?_
  refine Steps.bind (steps_atomic (fun i s a t h => ?_) hrefl) fun _ => steps_pure _
  have hdelete := of_map_ok h
  unfold AuthDB.deleteRefreshToken at hdelete
  split at hdelete
  · cases hdelete
    exact hrefl s
  · cases hdelete

lemma deleteUser_acts {accessToken : String} {a : Id} : (deleteUser id).Steps fun s t =>
    Acts cfg (.delete accessToken id) (some (.admin, a)) s t (some (.admin, a)) := by
  unfold deleteUser
  refine Steps.bind (steps_statement (fun s => acts_refl _ s) fun s _ t h => ?_)
    fun _ => steps_pure _
  obtain ⟨-, -, _, _, rfl⟩ := deleteUser_ok (of_map_ok h)
  refine .set rfl (fun v hv => ?_) (.inr ?_)
  · simp [roleOf, AList.lookup_erase_ne hv]
  · simp [roleOf]

lemma updatePassword_steps {dto : UpdatePasswordDto} :
    (UsersService.updatePassword cfg.toAuthConfig id dto).Steps fun s t => t.users = s.users := by
  unfold UsersService.updatePassword
  refine Steps.bind (steps_read _ fun _ => rfl) fun found => ?_
  rcases found with _ | ⟨user, account⟩
  · exact steps_throw _
  refine Steps.bind ?_ fun _ => steps_atomic (fun i s a t h => ?_) fun _ => rfl
  · unfold UsersService.checkCurrentPassword
    rcases account.password with _ | hash
    · exact steps_throw _
    · exact steps_throwIf _ _
  · obtain ⟨-, rfl⟩ := setPassword_ok h
    rfl

lemma account_steps (cfg : Config) (r : AccountRequest) :
    ((r.call cfg).zoom authLens AuthInput.toInput).Steps
      fun s t => ∀ u, RoleKept s.users t.users u :=
  (AccountWrites.account_sameRoles cfg r).zoom fun _ _ h u => .inl (h.role u)

lemma otherService_keepsRoles (cfg : Config) (r : AccountRequest) :
    (otherService cfg r).Steps KeepsRoles :=
  otherService_steps (account_steps cfg r) fun _ _ h => h

/-- **One request**: what it does and on whose authority. -/
theorem request_acts (laws : JwtLaws cfg) (hother : ∀ c, r = .other c → c.Steps KeepsRoles) :
    Runs cfg r (Answers cfg r) (r.call cfg) none := by
  cases r with
  | initiateRegistration email mobile =>
    exact plain_acts id (initiateRegistration_writes.mono fun _ _ h _ => roleKept_writes h)
      fun _ => rfl
  | verifyEmail token mobile =>
    exact plain_acts id (verifyEmail_writes.mono fun _ _ h _ => roleKept_writes h) fun _ => rfl
  | completeRegistration dto =>
    exact plain_acts id (completeRegistration_writes.mono fun _ _ h _ => roleKept_writes h)
      fun _ => rfl
  | signin email password mobile => exact session_acts laws id passwordSignin_acts
  | signInWithGoogle idToken mobile => exact session_acts laws id signInWithGoogle_acts
  | refreshTokens refreshToken =>
    refine goes_public (f := fun p : String × String => .tokens p.1 p.2) ?_
    refine (refreshTokens_acts laws rfl).mono (fun _ _ _ h => h) (fun _ _ _ _ h => h)
      (fun q tokens h => ⟨h, False.elim⟩) fun _ _ h => h
  | signout refreshToken => exact plain_acts id signout_steps fun _ => rfl
  | getAllUsers accessToken =>
    refine admin_acts rfl fun id => ?_
    have hsteps : UsersService.getUsers.Steps fun s t => Acts cfg (.getAllUsers accessToken)
        (some (.admin, id)) s t (some (.admin, id)) :=
      getUsers_steps.mono fun _ _ h => .keep (keepsRoles_of_eq h.users)
    exact hsteps.follows_bind (fun _ => trivial) fun _ => admin_answers rfl
  | get accessToken =>
    exact own_acts rfl id (fun _ => findById_steps.mono fun _ _ h => h.users) fun _ => rfl
  | update accessToken dto avatar =>
    exact own_acts rfl id (fun _ => updateStudentById_steps.mono fun _ _ h => h.users) fun _ => rfl
  | updateStatus accessToken id status =>
    refine admin_acts rfl fun a => ?_
    exact goes_public (f := fun _ : Unit => .done) (goes_steps ((account_steps _ _).mono
      fun _ _ h => onAuth_keep h) fun _ => admin_answers rfl)
  | updatePassword accessToken dto =>
    exact own_acts (g := fun _ => .session (.message "Cập nhật mật khẩu thành công")) rfl id
      (fun _ => updatePassword_steps) fun _ => rfl
  | updateRole accessToken id role =>
    refine admin_acts rfl fun a => ?_
    have hsteps : (updateUserRole id role).Steps fun s t =>
        Acts cfg (.updateRole accessToken id role) (some (.admin, a)) s t (some (.admin, a)) :=
      updateUserRole_steps.mono fun _ _ h => .set rfl (roleOf_writes h).1 (roleOf_writes h).2
    exact goes_onApi (hsteps.follows_bind (fun _ => trivial) fun _ => admin_answers rfl)
  | delete accessToken id =>
    refine admin_acts rfl fun a => ?_
    exact goes_onApi (deleteUser_acts.follows_bind (fun _ => trivial) fun _ => admin_answers rfl)
  | other c =>
    have hsteps : c.Steps fun s t => Acts cfg (.other c) none s t none :=
      (hother c rfl).mono fun _ _ h => .keep h
    exact hsteps.follows_bind (fun _ => trivial) fun _ => plain_answers id rfl

/-! ### Pools -/

section Pools

variable {known : Set String} {requests : List ApiRequest} {sched : List (ℕ × ApiInput)}
  {k m n : ℕ} {role : UserRole}

/-- Nobody but the server signs tokens: one of a session that is presented was known from the start,
or is in the response of a call that has returned. -/
def Unforged (cfg : SessionConfig) (known : Set String) (s : ProfileDB)
    (requests : List ApiRequest) (sched : List (ℕ × ApiInput)) : Prop :=
  ∀ n k r token email role id, Turn sched k n → requests[k]? = some r →
    presents r = some token → Accepts cfg token (.user email role id) →
    token ∈ known ∨ ∃ (j : ℕ) (a : ApiResponse),
      (before s (apiCalls cfg requests) sched n).2[j]? = some (Call.pure a) ∧ token ∈ handsOut a

/-- The user has this role in a token that was known from the start, or in the tables when a sign-in
found the user before position `n`. -/
def Vouched (cfg : SessionConfig) (known : Set String) (s : ProfileDB)
    (requests : List ApiRequest) (sched : List (ℕ × ApiInput)) (n : ℕ) (role : UserRole)
    (id : Id) : Prop :=
  (∃ token ∈ known, ∃ email, Accepts cfg token (.user email role id)) ∨
    ∃ l < n, ∃ j r, Turn sched j l ∧ requests[j]? = some r ∧
      FindsUser cfg (before s (apiCalls cfg requests) sched (l + 1)).1 id r ∧
      roleOf (before s (apiCalls cfg requests) sched (l + 1)).1.users id = some role

lemma Vouched.mono (h : Vouched cfg known s requests sched m role id) (hmn : m ≤ n) :
    Vouched cfg known s requests sched n role id := by
  rcases h with hknown | ⟨l, hl, hread⟩
  · exact .inl hknown
  · exact .inr ⟨l, by omega, hread⟩

/-- The requests act on authority, and the others keep the roles. -/
lemma calls_act (laws : JwtLaws cfg) (hother : ∀ c, .other c ∈ requests → c.Steps KeepsRoles)
    (hr : requests[k]? = some r) : Runs cfg r (Answers cfg r) (r.call cfg) none :=
  request_acts laws fun c hc => hother c (hc ▸ List.mem_of_getElem? hr)

lemma request_of_call {c : ApiCall ApiResponse} (hn : n ≤ sched.length)
    (hc : (before s (apiCalls cfg requests) sched n).2[k]? = some c) :
    ∃ r, requests[k]? = some r := by
  obtain ⟨hlt, -⟩ := List.getElem?_eq_some_iff.mp hc
  rw [before_calls hn, apiCalls, List.length_map] at hlt
  exact ⟨_, List.getElem?_eq_getElem hlt⟩

/-- **Authority is handed on, never made**: the induction is on the position, since a token that is
presented was handed out by a call that has ended. -/
theorem authority_vouched (laws : JwtLaws cfg)
    (hother : ∀ c, .other c ∈ requests → c.Steps KeepsRoles)
    (hunforged : Unforged cfg known s requests sched) (hn : n ≤ sched.length) {ph : ℕ → Authority}
    (hr : requests[k]? = some r) (hstart : ph 0 = none)
    (hmoves : ∀ m < n, Moves (Acts cfg r) s (apiCalls cfg requests) sched k ph m)
    (hph : ph n = some (role, id)) : Vouched cfg known s requests sched n role id := by
  induction n using Nat.strong_induction_on generalizing k r ph with
  | _ n ih =>
    obtain ⟨m, hm, hturn, hbefore, hafter, hstep⟩ :=
      entered (P := (· = some (role, id))) hmoves (by simp [hstart]) hph
    rcases hstep.gains hbefore hafter with ⟨hfinds, hrole⟩ | ⟨token, email, hpresents, haccept⟩
    · exact .inr ⟨m, hm, k, r, hturn, hr, hfinds, hrole⟩
    · rcases hunforged m k r _ _ _ _ hturn hr hpresents haccept with hknown | ⟨j, a, hj, htoken⟩
      · exact .inl ⟨_, hknown, _, haccept⟩
      -- the call that handed it out acted on the same authority
      obtain ⟨r', hr'⟩ := request_of_call (by omega) hj
      obtain ⟨ph', hstart', hmoves', hends⟩ := (calls_act laws hother hr').along (s := s)
        (apiCalls_get hr') (show m ≤ sched.length by omega)
      have hanswers : Answers cfg r' (ph' m) a := hends _ hj
      have hsame : ph' m = some (role, id) := hanswers.tokens _ htoken _ _ _ haccept
      have hvouched := ih m hm (by omega) hr' hstart' hmoves' hsame
      exact hvouched.mono hm.le

/-- At position `n` a request that sets the role of the user does so, with the token of an
administrator. -/
def SetByAdmin (cfg : SessionConfig) (known : Set String) (s : ProfileDB)
    (requests : List ApiRequest) (sched : List (ℕ × ApiInput)) (u : Id) (n : ℕ) : Prop :=
  ∃ k r role token email a, Turn sched k n ∧ requests[k]? = some r ∧ sets r = some (u, role) ∧
    roleOf (before s (apiCalls cfg requests) sched (n + 1)).1.users u = role ∧
    presents r = some token ∧ Accepts cfg token (.user email .admin a) ∧
    Vouched cfg known s requests sched n .admin a

/-- A request that sets a role has presented the token of an administrator. -/
lemma presented_admin {ph : ℕ → Authority} {a : Id} {v : Id × Option UserRole}
    (hsets : sets r = some v) (hstart : ph 0 = none)
    (hmoves : ∀ m < n, Moves (Acts cfg r) s (apiCalls cfg requests) sched k ph m)
    (hph : ph n = some (.admin, a)) :
    ∃ token email, presents r = some token ∧ Accepts cfg token (.user email .admin a) := by
  obtain ⟨m, hm, -, hbefore, hafter, hstep⟩ :=
    entered (P := (· = some (.admin, a))) hmoves (by simp [hstart]) hph
  rcases hstep.gains hbefore hafter with ⟨hfinds, -⟩ | hpresented
  · cases r with
    | signin => cases hsets
    | signInWithGoogle => cases hsets
    | _ => exact hfinds.elim
  · exact hpresented

lemma changed_by_admin (laws : JwtLaws cfg)
    (hother : ∀ c, .other c ∈ requests → c.Steps KeepsRoles)
    (hunforged : Unforged cfg known s requests sched) (hn : n < sched.length)
    (hchange : ¬ RoleKept (before s (apiCalls cfg requests) sched n).1.users
      (before s (apiCalls cfg requests) sched (n + 1)).1.users u) :
    SetByAdmin cfg known s requests sched u n := by
  have hstored : (before s (apiCalls cfg requests) sched (n + 1)).1 ≠
      (before s (apiCalls cfg requests) sched n).1 := by
    intro hsame
    exact hchange (.inl (by rw [hsame]))
  obtain ⟨k, r, hturn, hr⟩ := request_of_change hn hstored
  obtain ⟨ph, hstart, hmoves, -⟩ := (calls_act laws hother hr).along (s := s) (apiCalls_get hr)
    (Nat.succ_le_of_lt hn)
  have hbefore : ∀ m < n, Moves (Acts cfg r) s (apiCalls cfg requests) sched k ph m :=
    fun m hm => hmoves m (by omega)
  have hstep := (hmoves n (Nat.lt_succ_self n)).step hturn hstored
  obtain ⟨a, role, hph, hsets, hset⟩ := hstep.changes hchange
  obtain ⟨token, email, hpresents, haccept⟩ := presented_admin hsets hstart hbefore hph
  exact ⟨k, r, role, token, email, a, hturn, hr, hsets, hset, hpresents, haccept,
    authority_vouched laws hother hunforged hn.le hr hstart hbefore hph⟩

/-- **A chain of authority**: whatever requests run at the same time, the stored role of a user
changes only when a request that sets it to this role takes its turn, with the token of an
administrator, whose sign-in had found this role before. -/
theorem roles_set_by_admins (cfg : SessionConfig) (laws : JwtLaws cfg) (known : Set String)
    (requests : List ApiRequest) (s : ProfileDB) (sched : List (ℕ × ApiInput))
    (hother : ∀ c, .other c ∈ requests → c.Steps KeepsRoles)
    (hunforged : Unforged cfg known s requests sched) (n : ℕ) (hn : n < sched.length) (u : Id)
    (hchange : ¬ RoleKept (before s (apiCalls cfg requests) sched n).1.users
      (before s (apiCalls cfg requests) sched (n + 1)).1.users u) :
    SetByAdmin cfg known s requests sched u n :=
  changed_by_admin laws hother hunforged hn hchange

lemma not_vouched (hno : ∀ u, roleOf s.users u ≠ some .admin)
    (hknown : ∀ token ∈ known, ∀ email id, ¬ Accepts cfg token (.user email .admin id))
    (hkept : ∀ m ≤ n, KeepsRoles s (before s (apiCalls cfg requests) sched m).1) :
    ¬ Vouched cfg known s requests sched n .admin id := by
  rintro (⟨token, hmem, email, haccept⟩ | ⟨l, hl, j, r, -, -, -, hrole⟩)
  · exact hknown token hmem email id haccept
  · exact hno id ((hkept (l + 1) (by omega)).admin hrole)

/-- **No way up**: where there is no administrator and no token of one, whatever requests run at
the same time, everybody keeps the role, new users are students, and no endpoint for
administrators returns. -/
theorem no_escalation (cfg : SessionConfig) (laws : JwtLaws cfg) (known : Set String)
    (requests : List ApiRequest) (s : ProfileDB) (sched : List (ℕ × ApiInput))
    (hother : ∀ c, .other c ∈ requests → c.Steps KeepsRoles)
    (hunforged : Unforged cfg known s requests sched)
    (hno : ∀ u, roleOf s.users u ≠ some .admin)
    (hknown : ∀ token ∈ known, ∀ email id, ¬ Accepts cfg token (.user email .admin id))
    (n : ℕ) (hn : n ≤ sched.length) :
    KeepsRoles s (before s (apiCalls cfg requests) sched n).1 ∧
      ∀ k r, requests[k]? = some r → AdminOnly r →
        ¬ Returned (before s (apiCalls cfg requests) sched n) k := by
  have hkept : ∀ m ≤ n, KeepsRoles s (before s (apiCalls cfg requests) sched m).1 := by
    induction n with
    | zero =>
      intro m hm
      obtain rfl : m = 0 := by omega
      rw [before_zero]
      exact keepsRoles_of_eq rfl
    | succ n ih =>
      have hkept := ih (by omega)
      intro m hm
      rcases Nat.lt_succ_iff_lt_or_eq.mp (Nat.lt_succ_of_le hm) with hm | rfl
      · exact hkept m (by omega)
      · refine (hkept n le_rfl).trans fun u => ?_
        by_contra hchange
        obtain ⟨_, _, _, _, _, a, -, -, -, -, -, -, hvouched⟩ :=
          changed_by_admin laws hother hunforged (by omega) hchange
        exact not_vouched hno hknown hkept hvouched
  refine ⟨hkept n le_rfl, fun k r hr hadmin hreturned => ?_⟩
  obtain ⟨a, ha⟩ := returned_iff.mp hreturned
  obtain ⟨ph, hstart, hmoves, hends⟩ := (calls_act laws hother hr).along (s := s)
    (apiCalls_get hr) hn
  have hanswers : Answers cfg r (ph n) a := hends _ ha
  obtain ⟨id, hph⟩ := hanswers.admin hadmin
  exact not_vouched hno hknown hkept
    (authority_vouched laws hother hunforged hn hr hstart hmoves hph)

end Pools

/-- The student and the administrator have passwords. -/
def sampleDB : ProfileDB where
  toDB := Sample.db
  accounts := [(4, { newAccount "d@x" with verified := true, password := some "pw4" }),
    (1, { newAccount "a@x" with verified := true, password := some "pw1" })].foldl
      (fun t e => t.insert e.1 e.2) ∅
  residences := AList.insert 1 ⟨none, none⟩ ∅
  verificationEmails := ∅
  refreshTokens := ∅
  authProviders := ∅
  emailQueue := []
  admins := [4]
  reports := []

def sampleInput : ApiInput where
  toInput := Sample.inputs 9 0
  millis := 0
  uuid := "t"
  uploadImage _ := none
  userRank _ := 0

/-- The access token of a sign-in at this time. -/
def sampleToken (email : String) (role : UserRole) (id : Id) : String :=
  Sample.sessionConfig.jwtSign .roleFirst (.user email role id) 1000 defaultExpiresIn

lemma unforged_of_check {requests : List ApiRequest} {sched : List (ℕ × ApiInput)}
    (h : ∀ e ∈ sched.zipIdx, ∀ token ∈ requests[e.1.1]?.bind presents,
      ((before s (apiCalls cfg requests) sched e.2).2.any fun c => match c with
        | .pure a => decide (token ∈ handsOut a)
        | _ => false) = true) : Unforged cfg ∅ s requests sched := by
  rintro n k r token email role id ⟨i, hi⟩ hr htoken -
  have hany := h ((k, i), n) (List.mk_mem_zipIdx_iff_getElem?.mpr hi) token (by simp [hr, htoken])
  obtain ⟨c, hc, hout⟩ := List.any_eq_true.mp hany
  obtain ⟨j, hj⟩ := List.mem_iff_getElem?.mp hc
  cases c with
  | pure a => exact .inr ⟨j, a, hj, of_decide_eq_true hout⟩
  | throw e => cases hout
  | act eff next => cases hout

/-- The administrator makes the student a shipper. -/
def promotion : List ApiRequest :=
  [.signin "d@x" "pw4" false, .updateRole (sampleToken "d@x" .admin 4) 1 "STAFF",
    .other (otherService Sample.config (.updateUserStatus 2 .banned))]

def promotionSched : List (ℕ × ApiInput) :=
  [0, 2, 0, 1, 1, 1, 1, 2, 1, 2, 1].map fun k => (k, sampleInput)

lemma promotion_others : ∀ c, .other c ∈ promotion → c.Steps KeepsRoles := by
  intro c hc
  simp only [promotion, List.mem_cons, List.not_mem_nil, or_false, reduceCtorEq, false_or,
    ApiRequest.other.injEq] at hc
  rw [hc]
  exact otherService_keepsRoles _ _

theorem roles_set_by_admins_sample :
    SetByAdmin Sample.sessionConfig ∅ sampleDB promotion promotionSched 1 8 :=
  roles_set_by_admins Sample.sessionConfig Sample.sessionConfig_laws ∅ promotion sampleDB
    promotionSched promotion_others (unforged_of_check (by decide +kernel)) 8 (by decide) 1
    (by unfold RoleKept; decide +kernel)

/-- The administrator is gone. -/
def studentsDB : ProfileDB := { sampleDB with users := sampleDB.users.erase 4, admins := [] }

/-- The student tries. -/
def attempt : List ApiRequest :=
  [.signin "a@x" "pw1" false, .updateRole (sampleToken "a@x" .student 1) 1 "ADMIN",
    .getAllUsers (sampleToken "a@x" .student 1)]

def attemptSched : List (ℕ × ApiInput) :=
  [0, 0, 0, 1, 2, 1, 2, 1, 2, 1].map fun k => (k, sampleInput)

theorem no_escalation_sample :
    let x := before studentsDB (apiCalls Sample.sessionConfig attempt) attemptSched 10
    KeepsRoles studentsDB x.1 ∧
      ∀ k r, attempt[k]? = some r → AdminOnly r → ¬ Returned x k := by
  refine no_escalation Sample.sessionConfig Sample.sessionConfig_laws ∅ attempt studentsDB
    attemptSched (fun c hc => ?_) (unforged_of_check (by decide +kernel)) (fun u hu => ?_)
    (fun _ htoken => htoken.elim) 10 (by decide)
  · simp [attempt] at hc
  · obtain ⟨user, hlookup, hrole⟩ := Option.map_eq_some_iff.mp hu
    have hall : ∀ e ∈ studentsDB.users.entries, e.2.role ≠ .admin := by decide +kernel
    exact hall _ (Table.lookup_eq_some.mp hlookup) hrole

end TsaBackend.Privileges
