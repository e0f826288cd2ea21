import TsaBackend.Deactivation
import TsaBackend.SessionSteps
import TsaBackend.SessionTokens

/-!
The four ways in for a deactivated account: a password, Google, a refresh token and an access
token.

Only the sign-in with a password asks for the status of an account and waits for the answer.
-/

namespace TsaBackend.Lockout

open Call AuthSteps SessionSteps Deactivation

variable {cfg : SessionConfig} {s : ProfileDB} {u : Id} {ω : ℕ → AuthInput}

/-- The request returns normally for this user. -/
def Admits (cfg : SessionConfig) (s : ProfileDB) (u : Id) :
    SessionRequest × (ℕ → AuthInput) → Prop
  | (.signin email password _, ω) => ∃ user account,
      ((validateUser cfg.toAuthConfig email password).exec ω s.toAuthDB).1 = .ok (u, user, account)
  | (.signInWithGoogle idToken mobile, ω) => ∃ r,
      ((signInWithGoogle cfg.toAuthConfig idToken mobile).exec ω s.toAuthDB).1 = .ok r ∧ r.id = u
  | (.refreshTokens token, ω) =>
      (∃ tokens, ((refreshTokens cfg token).exec ω s.toAuthDB).1 = .ok tokens) ∧
        ∃ email role, cfg.jwtVerify token (ω 0).now = some (.user email role u)
  | (.authenticate token, ω) => ∃ email role,
      ((jwtAuthGuard cfg token).exec ω s.toAuthDB).1 = .ok (.user email role u)
  | _ => False

def LockedOut (cfg : SessionConfig) (s : ProfileDB) (l : SessionRequest × (ℕ → AuthInput)) : Prop :=
  ∀ u, Deactivated u s.toDB → ¬ Admits cfg s u l

/-- The request presents a valid credential of this user that is not a password: an answer of
Google with the address of the account, a refresh token that is stored and has not expired, or
an access token. -/
def Presents (cfg : SessionConfig) (s : ProfileDB) (u : Id) :
    SessionRequest × (ℕ → AuthInput) → Prop
  | (.signInWithGoogle idToken _, ω) => (ω 0).ok = true ∧ ∃ decoded email user account,
      cfg.verifyIdToken idToken (ω 0).now = some decoded ∧ decoded.email = some email ∧
        s.findUserByEmail email = some (u, user, account)
  | (.refreshTokens token, ω) => ¬ Stale s.toAuthDB token (ω 1).ms ∧
      ∃ email role, cfg.jwtVerify token (ω 0).now = some (.user email role u)
  | (.authenticate token, ω) => ∃ email role,
      cfg.jwtVerify token (ω 0).now = some (.user email role u)
  | _ => False

def KeepsOut (cfg : SessionConfig) (s : ProfileDB) (l : SessionRequest × (ℕ → AuthInput)) : Prop :=
  ∀ u, Deactivated u s.toDB → ¬ Presents cfg s u l

lemma validateUser_locked {cfg : AuthConfig} {s : AuthDB} {email password : String} {user : User}
    {account : UserAccount}
    (h : ((validateUser cfg email password).exec ω s).1 = .ok (u, user, account)) :
    ¬ Deactivated u s.toDB := by
  have hvalid := validated_of_ok h
  obtain ⟨hu, -⟩ := findUserByEmail_some hvalid.found
  intro hdeact
  rw [Deactivated, hu] at hdeact
  exact hvalid.active (Option.some.inj hdeact)

lemma google_presents {idToken : String} {mobile : Bool} {r : SignInResult}
    (h : ((signInWithGoogle cfg.toAuthConfig idToken mobile).exec ω s.toAuthDB).1 = .ok r)
    (hu : r.id ∈ s.users) : Presents cfg s r.id (.signInWithGoogle idToken mobile, ω) := by
  have hfirst : ((signInWithGoogle cfg.toAuthConfig idToken false).exec ω s.toAuthDB).1 =
      .ok r := by
    rcases (exec_mobile (signInWithGoogle_mobile cfg.toAuthConfig idToken) mobile ω
      s.toAuthDB).2 with ⟨-, hrejected⟩ | ⟨-, hsame⟩
    · cases h.symm.trans hrejected
    · exact hsame.symm.trans h
  obtain ⟨decoded, email, hok, hverify, hemail, hgoogle⟩ :=
    (signInWithGoogle_ends cfg.toAuthConfig idToken ω s.toAuthDB).2 r hfirst
  rcases hf : s.findUserByEmail email with _ | ⟨id, user, account⟩
  · exact absurd hu (hgoogle.new hf)
  · obtain rfl := hgoogle.found _ hf
    exact ⟨hok, decoded, email, user, account, hverify, hemail, hf⟩

lemma admits_iff {l : SessionRequest × (ℕ → AuthInput)}
    (hl : ∀ idToken mobile, l.1 ≠ .signInWithGoogle idToken mobile)
    (hu : Deactivated u s.toDB) :
    Admits cfg s u l ↔ Presents cfg s u l := by
  obtain ⟨r, ω⟩ := l
  cases r with
  | signin email password mobile =>
    refine iff_of_false (fun h => ?_) id
    obtain ⟨user, account, h⟩ := h
    exact validateUser_locked h hu
  | signInWithGoogle idToken mobile => exact absurd rfl (hl idToken mobile)
  | refreshTokens token =>
    rw [Admits, Presents, refreshTokens_exec]
    refine and_congr_left fun h => ?_
    obtain ⟨email, role, h⟩ := h
    rw [h]
    dsimp only
    split
    · next hstale =>
      refine iff_of_false (fun h => ?_) fun h => h hstale
      obtain ⟨tokens, h⟩ := h
      cases h
    · next hstale => exact iff_of_true ⟨_, rfl⟩ hstale
  | authenticate token =>
    rw [Admits, Presents, jwtAuthGuard_exec]
    refine exists_congr fun email => exists_congr fun role => ?_
    rcases cfg.jwtVerify token (ω 0).now with _ | payload
    · simp
    · simp
  | _ => rfl

lemma presents_of_admits {l : SessionRequest × (ℕ → AuthInput)} (hu : Deactivated u s.toDB)
    (h : Admits cfg s u l) : Presents cfg s u l := by
  by_cases hl : ∃ idToken mobile, l.1 = .signInWithGoogle idToken mobile
  · obtain ⟨r, ω⟩ := l
    obtain ⟨idToken, mobile, rfl⟩ := hl
    obtain ⟨r, hr, rfl⟩ := h
    obtain ⟨user, hlookup, -⟩ := Option.map_eq_some_iff.mp hu
    exact google_presents hr (Table.mem_iff_lookup.mpr ⟨user, hlookup⟩)
  · push Not at hl
    exact (admits_iff hl hu).mp h

/-- **When deactivated accounts are locked out**: in a run of requests of all services, no
request lets a deactivated user in as long as none presents, for such a user, an answer of
Google, a stored refresh token or an access token; and the last two let the user in. -/
theorem deactivated_locked_out (cfg : SessionConfig) (s : ProfileDB)
    (ls : List (SessionRequest × (ℕ → AuthInput))) :
    (Machine.Along (serveSession cfg) (KeepsOut cfg) s ls →
      Machine.Along (serveSession cfg) (LockedOut cfg) s ls) ∧
    (Machine.Along (serveSession cfg) (LockedOut cfg) s ls →
      Machine.Along (serveSession cfg) (fun s l =>
        (∀ idToken mobile, l.1 ≠ .signInWithGoogle idToken mobile) → KeepsOut cfg s l) s ls) := by
  refine ⟨fun h => h.mono fun s l hl u hu hadmits => ?_, fun h => h.mono fun s l hl hno u hu => ?_⟩
  · exact hl u hu (presents_of_admits hu hadmits)
  · rw [← admits_iff hno hu]
    exact hl u hu

/-! ### A deactivated student -/

/-- Four users that can sign in, before anyone did. -/
def sampleDB : ProfileDB where
  toAuthDB := { Deactivation.sampleDB 0 with users := Sample.db.users }
  admins := [4]
  reports := []

def sampleInputs (now : ℕ) (_ : ℕ) : AuthInput :=
  { Deactivation.sampleInputs 0 with now }

lemma admits_google {idToken : String} {mobile : Bool}
    (h : ((signInWithGoogle cfg.toAuthConfig idToken mobile).exec ω s.toAuthDB).1.toOption.map
      (·.id) = some u) : Admits cfg s u (.signInWithGoogle idToken mobile, ω) := by
  rcases hr : ((signInWithGoogle cfg.toAuthConfig idToken mobile).exec ω s.toAuthDB).1 with e | r
  · rw [hr] at h
    cases h
  · rw [hr] at h
    exact ⟨r, hr, Option.some.inj h⟩

def accessToken : String := Sample.sessionConfig.jwtSign .roleFirst (.user "a@x" .student 1) 0 3600
def refreshToken : String :=
  Sample.sessionConfig.jwtSign .roleFirst (.user "a@x" .student 1) 0 86400

def signinThenDeactivate : List (SessionRequest × (ℕ → AuthInput)) :=
  [(.signin "a@x" "pw" true, sampleInputs 0),
    (.other (.updateUserStatus 1 .deactivated), sampleInputs 1)]

/-- The student tries the password again and a text that is no token; a student in good standing
comes in with Google. -/
def knockAgain : List (SessionRequest × (ℕ → AuthInput)) :=
  [(.signin "a@x" "pw" false, sampleInputs 2), (.signInWithGoogle "b@x" true, sampleInputs 3),
    (.authenticate "x", sampleInputs 4)]

theorem deactivated_student_kept_out :
    Deactivated 1
      (Machine.run (serveSession Sample.sessionConfig) sampleDB signinThenDeactivate).toDB ∧
    Admits Sample.sessionConfig (Machine.run (serveSession Sample.sessionConfig) sampleDB
      (signinThenDeactivate ++ knockAgain.take 1)) 2 (.signInWithGoogle "b@x" true, sampleInputs 3) ∧
    Machine.Along (serveSession Sample.sessionConfig) (LockedOut Sample.sessionConfig) sampleDB
      (signinThenDeactivate ++ knockAgain) := by
  refine ⟨by decide +kernel, ?_, (deactivated_locked_out Sample.sessionConfig sampleDB
    (signinThenDeactivate ++ knockAgain)).1 ⟨?_, ?_, ?_, ?_, ?_, trivial⟩⟩
  · exact admits_google (by decide +kernel)
  · exact fun u hu => id
  · exact fun u hu => id
  · exact fun u hu => id
  · rintro u hu ⟨-, decoded, email, user, account, hverify, hemail, hfound⟩
    cases hverify
    cases hemail
    have htwo : some 2 = some u :=
      Eq.trans (Eq.symm (by decide +kernel)) (congrArg (Option.map Prod.fst) hfound)
    obtain rfl := Option.some.inj htwo
    exact absurd hu (by decide +kernel)
  · rintro u hu ⟨email, role, hverify⟩
    have hnone : none = some (JwtPayload.user email role u) :=
      Eq.trans (Eq.symm (by decide +kernel)) hverify
    cases hnone

/-- The student is let in by Google, by the refresh token and by the access token. -/
theorem deactivated_student_let_in :
    let s := Machine.run (serveSession Sample.sessionConfig) sampleDB signinThenDeactivate
    Deactivated 1 s.toDB ∧
      Admits Sample.sessionConfig s 1 (.signInWithGoogle "a@x" true, sampleInputs 2) ∧
      Admits Sample.sessionConfig s 1 (.refreshTokens refreshToken, sampleInputs 2) ∧
      Admits Sample.sessionConfig s 1 (.authenticate accessToken, sampleInputs 2) ∧
      ¬ Machine.Along (serveSession Sample.sessionConfig) (LockedOut Sample.sessionConfig) sampleDB
        (signinThenDeactivate ++ [(.authenticate accessToken, sampleInputs 2)]) := by
  intro s
  have hdeact : Deactivated 1 s.toDB := by decide +kernel
  have hauthenticate : Admits Sample.sessionConfig s 1
      (.authenticate accessToken, sampleInputs 2) := ⟨"a@x", .student, by decide +kernel⟩
  refine ⟨hdeact, admits_google (by decide +kernel),
    ⟨⟨_, rfl⟩, "a@x", .student, by decide +kernel⟩, hauthenticate, ?_⟩
  rw [Machine.along_append]
  rintro ⟨-, hlocked, -⟩
  exact hlocked 1 hdeact hauthenticate

end TsaBackend.Lockout
