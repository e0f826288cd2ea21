import TsaBackend.Deactivation
import TsaBackend.RefreshTokens

/-!
The role in an access token.

A sign-in writes the role of the user into the token; a refresh copies the one in the refresh
token, which may be a day old.
-/

namespace TsaBackend.TokenRoles

open Call AuthSteps SessionSteps RefreshTokens

variable {cfg : SessionConfig} {s t : ProfileDB} {u : Id} {token : String}
  {l : SessionRequest × (ℕ → AuthInput)}

/-- The role that is stored for a user. -/
def storedRole (s : ProfileDB) (u : Id) : Option UserRole := (s.users.lookup u).map (·.role)

/-- An access token of this user, with the role that is stored for the user. -/
def Carries (cfg : SessionConfig) (s : ProfileDB) (u : Id) (token : String) : Prop :=
  ∃ order email role iat, token = cfg.jwtSign order (.user email role u) iat defaultExpiresIn ∧
    storedRole s u = some role

/-- The request hands out no access token but ones that carry the role stored at that moment. -/
def HandsOutCurrent (cfg : SessionConfig) (s : ProfileDB) (l : SessionRequest × (ℕ → AuthInput)) :
    Prop :=
  match respond cfg s l with
  | (.ok (.session r), t) => Carries cfg t r.id r.accessToken
  | (.ok (.tokens accessToken _), t) => ∃ u, Carries cfg t u accessToken
  | _ => True

/-- A refresh presents a token with the role that is stored for its user. -/
def PresentsCurrent (cfg : SessionConfig) (s : ProfileDB) : SessionRequest × (ℕ → AuthInput) → Prop
  | (.refreshTokens token, ω) => ∀ payload, cfg.jwtVerify token (ω 0).now = some payload →
      ¬ Stale s.toAuthDB token (ω 1).ms →
      ∃ email role u, payload = .user email role u ∧ storedRole s u = some role
  | _ => True

lemma carries_signed (laws : JwtLaws cfg) {order : ClaimOrder} {email : String} {role : UserRole}
    {id : Id} {iat : ℕ} :
    (∃ u, Carries cfg s u (cfg.jwtSign order (.user email role id) iat defaultExpiresIn)) ↔
      storedRole s id = some role := by
  constructor
  · rintro ⟨u, order', email', role', iat', htoken, hrole⟩
    obtain ⟨-, hpayload, -⟩ := laws.sign_inj _ _ _ _ _ _ _ _ htoken
    cases hpayload
    exact hrole
  · exact fun hrole => ⟨id, order, email, role, iat, rfl, hrole⟩

lemma signin_current {c : Bool → AuthCall SignInResult} {mobile : Bool} {r : SessionRequest}
    {ω : ℕ → AuthInput} (hr : signinOf cfg.toAuthConfig r = some (c, mobile)) :
    HandsOutCurrent cfg s (r, ω) := by
  have hends : SignsIn cfg.toAuthConfig (c false) ω s.toAuthDB := signinOf_ends hr
  have hserve := serve_signin (s := s) (ω := ω) hr
  unfold HandsOutCurrent
  unfold SignsIn at hends
  unfold serveSession at hserve
  rcases hanswer : respond cfg s (r, ω) with ⟨answer, t⟩
  rw [hanswer] at hserve
  have hanswers := signin_answers (s := s) (ω := ω) hr
  rw [hanswer] at hanswers
  obtain ⟨-, rfl⟩ | ⟨-, rfl⟩ := hanswers
  · trivial
  subst hserve
  rcases hexec : (c false).exec ω s.toAuthDB with ⟨e | result, t⟩
  · trivial
  · rw [hexec] at hends
    obtain ⟨order, i, s₁, id, user, account, -, -, hu, hopen⟩ := hends
    obtain ⟨-, -, rfl⟩ := AuthDB.createRefreshToken_ok hopen.stored
    refine ⟨order, account.email, user.role, i.now, ?_, ?_⟩
    · rw [hopen.owner]
      exact hopen.accessToken
    · change (s₁.users.lookup result.id).map (·.role) = _
      rw [hopen.owner, hu]
      rfl

lemma refresh_current_iff (laws : JwtLaws cfg) {ω : ℕ → AuthInput} :
    HandsOutCurrent cfg s (.refreshTokens token, ω) ↔
      PresentsCurrent cfg s (.refreshTokens token, ω) := by
  have hrespond : respond cfg s (.refreshTokens token, ω) =
      (((refreshTokens cfg token).exec ω s.toAuthDB).1.map (fun p => .tokens p.1 p.2),
        { s with toAuthDB := ((refreshTokens cfg token).exec ω s.toAuthDB).2 }) :=
    onProfiles_exec _ _ _ _
  rw [refreshTokens_exec] at hrespond
  rw [HandsOutCurrent, PresentsCurrent, hrespond]
  rcases cfg.jwtVerify token (ω 0).now with _ | payload
  · exact iff_of_true trivial fun payload h => by cases h
  by_cases hstale : Stale s.toAuthDB token (ω 1).ms
  · simp only [if_pos hstale]
    exact iff_of_true trivial fun _ _ h => absurd hstale h
  simp only [if_neg hstale, Option.some.injEq]
  cases payload with
  | user email role id =>
    change (∃ u, Carries cfg s u (cfg.jwtSign _ (.user email role id) (ω 2).now _)) ↔ _
    rw [carries_signed laws]
    constructor
    · rintro hrole payload rfl -
      exact ⟨email, role, id, rfl, hrole⟩
    · intro h
      obtain ⟨email', role', id', hpayload, hrole⟩ := h _ rfl hstale
      cases hpayload
      exact hrole
  | registration userId =>
    refine iff_of_false (fun h => ?_) fun h => ?_
    · obtain ⟨u, order, email, role, iat, htoken, -⟩ := h
      exact laws.sign_ne_empty _ _ _ _ _ _ htoken.symm
    · obtain ⟨email, role, u, hpayload, -⟩ := h _ rfl hstale
      cases hpayload

/-- The response holds no token of a session. -/
def Tokenless : SessionResponse → Prop
  | .session _ => False
  | .tokens _ _ => False
  | _ => True

lemma current_of_tokenless (h : ∀ a, (respond cfg s l).1 = .ok a → Tokenless a) :
    HandsOutCurrent cfg s l := by
  unfold HandsOutCurrent
  rcases hr : respond cfg s l with ⟨e | a, t⟩
  · trivial
  · have ha := h a (by rw [hr])
    cases a with
    | session r => exact ha.elim
    | tokens accessToken refreshToken => exact ha.elim
    | _ => trivial

lemma tokenless_map {α : Type} {x : Except Exn α} {f : α → SessionResponse} {b : SessionResponse}
    (hf : ∀ a, Tokenless (f a)) (h : x.map f = .ok b) : Tokenless b := by
  rcases x with e | a
  · cases h
  · cases h
    exact hf a

lemma current_onProfiles {α : Type} {c : AuthCall α} {r : SessionRequest} {ω : ℕ → AuthInput}
    (f : α → SessionResponse) (hf : ∀ a, Tokenless (f a))
    (hcall : r.call cfg = (onProfiles c >>= fun a => (Pure.pure (f a) : ProfileCall _))) :
    HandsOutCurrent cfg s (r, ω) := by
  refine current_of_tokenless fun b hb => tokenless_map (x := (c.exec ω s.toAuthDB).1) hf ?_
  rw [respond, hcall, onProfiles_exec] at hb
  exact hb

/-- **When a request hands out a current token.** -/
theorem current_iff (laws : JwtLaws cfg) : HandsOutCurrent cfg s l ↔ PresentsCurrent cfg s l := by
  obtain ⟨r, ω⟩ := l
  cases r with
  | other r =>
    exact iff_of_true (current_onProfiles (fun _ => .done) (fun _ => trivial) rfl) trivial
  | initiateRegistration email mobile =>
    exact iff_of_true (current_onProfiles .message (fun _ => trivial) rfl) trivial
  | verifyEmail token mobile =>
    exact iff_of_true (current_onProfiles .link (fun _ => trivial) rfl) trivial
  | completeRegistration dto =>
    exact iff_of_true (current_onProfiles .message (fun _ => trivial) rfl) trivial
  | signin email password mobile => exact iff_of_true (signin_current rfl) trivial
  | signInWithGoogle idToken mobile => exact iff_of_true (signin_current rfl) trivial
  | refreshTokens token => exact refresh_current_iff laws
  | signout token =>
    exact iff_of_true (current_onProfiles .message (fun _ => trivial) rfl) trivial
  | authenticate token =>
    exact iff_of_true (current_onProfiles .payload (fun _ => trivial) rfl) trivial
  | updateUserRole id newRole =>
    refine iff_of_true (current_of_tokenless fun b hb => ?_) trivial
    have hmap := congrArg Prod.fst (exec_map (updateUserRole id newRole) SessionResponse.user ω s)
    exact tokenless_map (f := .user) (fun _ => trivial) (hmap.symm.trans hb)
  | deleteUser id =>
    refine iff_of_true (current_of_tokenless fun b hb => ?_) trivial
    have hmap := congrArg Prod.fst (exec_map (deleteUser id) SessionResponse.message ω s)
    exact tokenless_map (f := .message) (fun _ => trivial) (hmap.symm.trans hb)

/-! ### Sessions and roles -/

/-- The token of a stored row was signed with the role that is stored for its user. -/
def SessionsCurrent (cfg : SessionConfig) (s : ProfileDB) : Prop :=
  ∀ token row, s.refreshTokens.lookup token = some row → ∃ order email role iat,
    storedRole s row.userId = some role ∧
      token = cfg.jwtSign order (.user email role row.userId) iat 86400

/-- The role of a user with a session stays what it is. -/
def KeepsSessionRoles (s : ProfileDB) : SessionRequest × (ℕ → AuthInput) → Prop
  | (.updateUserRole id newRole, _) =>
      (∃ token row, s.refreshTokens.lookup token = some row ∧ row.userId = id) →
        ∀ role, parseRole newRole = some role → storedRole s id = some role
  | _ => True

lemma storedRole_writes {id : Id} {newRole : String} {role : UserRole}
    (h : RoleWrites id newRole s t) (hs : storedRole s u = some role)
    (hkeep : u = id → ∀ role', parseRole newRole = some role' → role' = role) :
    storedRole t u = some role := by
  cases h with
  | none => exact hs
  | deleteStudent h =>
    obtain ⟨-, -, _, rfl⟩ := deleteStudent_ok h
    exact hs
  | deleteStaff h =>
    obtain ⟨-, rfl⟩ := deleteStaff_ok h
    exact hs
  | deleteAdmin h =>
    obtain ⟨-, rfl⟩ := deleteAdmin_ok h
    exact hs
  | role h =>
    obtain ⟨role', hparse, -, rfl⟩ := updateRole_ok h
    obtain ⟨user, hu, hrole⟩ := Option.map_eq_some_iff.mp hs
    by_cases hid : u = id
    · have heq := hkeep hid role' hparse
      subst hid heq
      simp [storedRole, hu]
    · simpa [storedRole, Table.lookup_modify_ne _ _ hid] using hs
  | createStudent h =>
    obtain ⟨-, rfl⟩ := createStudent_ok h
    exact hs
  | createStaff h =>
    obtain ⟨-, rfl⟩ := createStaff_ok h
    exact hs
  | createAdmin h =>
    obtain ⟨-, rfl⟩ := createAdmin_ok h
    exact hs

lemma storedRole_auth {cfg : AuthConfig} {s : AuthDB} {r : AuthRequest} {ω : ℕ → AuthInput}
    {role : UserRole} (h : (s.users.lookup u).map (·.role) = some role) :
    ((serveAuth cfg s (r, ω)).users.lookup u).map (·.role) = some role := by
  refine serveAuth_rule (fun t => (t.users.lookup u).map (·.role) = some role) h
    (fun a b hw ha => ?_) fun r' => (AccountWrites.serve_sameRoles.role u).trans h
  obtain ⟨user, hu, hrole⟩ := Option.map_eq_some_iff.mp ha
  rw [Deactivation.keepsUsers_writes hw u user hu, Option.map_some, hrole]

lemma storedRole_kept {row : RefreshToken} {role : UserRole}
    (hs : storedRole s row.userId = some role)
    (hrow : (serveSession cfg s l).refreshTokens.lookup token = some row)
    (hold : s.refreshTokens.lookup token = some row) (hkeep : KeepsSessionRoles s l) :
    storedRole (serveSession cfg s l) row.userId = some role := by
  have hserves := serve_cases cfg s l
  generalize serveSession cfg s l = t at hrow hserves ⊢
  cases hserves with
  | auth ha => exact storedRole_auth hs
  | @updateUserRole id newRole ω =>
    have hpres : (updateUserRole id newRole).Preserves
        fun t => storedRole t row.userId = some role := by
      refine updateUserRole_steps.preserves fun a b hw ha => storedRole_writes hw ha ?_
      intro hid role' hparse
      have hrole := hkeep ⟨token, row, hold, hid⟩ role' hparse
      rw [← hid, hs] at hrole
      exact (Option.some.inj hrole).symm
    exact hpres.exec hs ω
  | @deleteUser id ω t hdelete =>
    obtain ⟨-, -, _, _, rfl⟩ := deleteUser_ok hdelete
    change (s.refreshTokens.filter _).lookup token = some row at hrow
    rw [Table.lookup_filter, Option.filter_eq_some_iff] at hrow
    have hne : row.userId ≠ id := of_decide_eq_true hrow.2
    rw [← hs, storedRole, storedRole, AList.lookup_erase_ne hne]
  | _ => exact hs

lemma sessionsCurrent_serve (hs : SessionsCurrent cfg s) (hkeep : KeepsSessionRoles s l) :
    SessionsCurrent cfg (serveSession cfg s l) := by
  intro token row hrow
  rcases stored_cases hrow with hissues | ⟨hold, -⟩
  · obtain ⟨order, email, user, n, hu, hsigned⟩ := hissues.signed
    exact ⟨order, email, user.role, _, by rw [storedRole, hu, Option.map_some], hsigned⟩
  · obtain ⟨order, email, role, iat, hrole, hsigned⟩ := hs token row hold
    exact ⟨order, email, role, iat, storedRole_kept hrole hrow hold hkeep, hsigned⟩

lemma SessionsCurrent.presents (laws : JwtLaws cfg) (hs : SessionsCurrent cfg s) :
    PresentsCurrent cfg s l := by
  obtain ⟨r, ω⟩ := l
  cases r with
  | refreshTokens token =>
    intro payload hverify hstale
    unfold Stale at hstale
    rcases hrow : s.refreshTokens.lookup token with _ | row
    · simp [hrow] at hstale
    obtain ⟨order, email, role, iat, hrole, rfl⟩ := hs token row hrow
    exact ⟨email, role, row.userId, (laws.payload_of_verify hverify).1, hrole⟩
  | _ => trivial

/-- **When access tokens carry the current role**: in a run of requests of all services, every
one handed out does just when every refresh presents a token with the role its user has; and
that is so, from tables without sessions, as long as nobody's role changes during a session. -/
theorem tokens_carry_role (cfg : SessionConfig) (laws : JwtLaws cfg) (s : ProfileDB)
    (ls : List (SessionRequest × (ℕ → AuthInput))) :
    (Machine.Along (serveSession cfg) (HandsOutCurrent cfg) s ls ↔
      Machine.Along (serveSession cfg) (PresentsCurrent cfg) s ls) ∧
    (s.refreshTokens = ∅ → Machine.Along (serveSession cfg) KeepsSessionRoles s ls →
      Machine.Along (serveSession cfg) (HandsOutCurrent cfg) s ls) := by
  refine ⟨⟨fun h => h.mono fun _ _ => (current_iff laws).mp,
    fun h => h.mono fun _ _ => (current_iff laws).mpr⟩, fun h0 h => ?_⟩
  have hboth : Machine.Along (serveSession cfg)
      (fun s l => KeepsSessionRoles s l ∧ PresentsCurrent cfg s l) s ls := by
    refine (Machine.along_congr (SessionsCurrent cfg)
      (fun _ _ hs hkeep => sessionsCurrent_serve hs hkeep) (fun s l _ hs => ?_) ?_).mp h
    · exact ⟨fun hkeep => ⟨hkeep, hs.presents laws⟩, And.left⟩
    · intro token row hrow
      simp [h0] at hrow
  exact hboth.mono fun _ _ hl => (current_iff laws).mpr hl.2

/-- Without a change of the role every token is current. -/
theorem tokens_carry_role_student : Machine.Along (serveSession Sample.sessionConfig)
    (HandsOutCurrent Sample.sessionConfig) sampleDB
    [(.signin "a@x" "pw" true, sampleInputs 0), (.refreshTokens sampleToken, sampleInputs 2)] :=
  (tokens_carry_role Sample.sessionConfig Sample.sessionConfig_laws sampleDB _).2 rfl
    ⟨trivial, trivial, trivial⟩

/-- A sign-in, and a change of the role. -/
def signinThenPromote : List (SessionRequest × (ℕ → AuthInput)) :=
  [(.signin "a@x" "pw" true, sampleInputs 0), (.updateUserRole 1 "STAFF", sampleInputs 1)]

/-- The refresh hands out the old role. -/
theorem refresh_hands_out_old_role :
    let s := Machine.run (serveSession Sample.sessionConfig) sampleDB signinThenPromote
    storedRole s 1 = some .staff ∧
      (respond Sample.sessionConfig s (.refreshTokens sampleToken, sampleInputs 2)).1 =
        .ok (.tokens (Sample.sessionConfig.jwtSign .roleFirst (.user "a@x" .student 1) 2
          defaultExpiresIn) sampleToken) ∧
      ¬ Machine.Along (serveSession Sample.sessionConfig) (HandsOutCurrent Sample.sessionConfig)
        sampleDB (signinThenPromote ++ [(.refreshTokens sampleToken, sampleInputs 2)]) := by
  intro s
  have hrole : storedRole s 1 = some .staff := by decide +kernel
  refine ⟨hrole, by decide +kernel, fun h => ?_⟩
  obtain ⟨-, hlast, -⟩ := Machine.along_append.mp h
  obtain ⟨email, role, u, hpayload, hstored⟩ := (current_iff Sample.sessionConfig_laws).mp hlast
    (.user "a@x" .student 1) (by decide +kernel) (by decide +kernel)
  cases hpayload
  rw [show storedRole _ 1 = _ from hrole] at hstored
  cases hstored

end TsaBackend.TokenRoles
