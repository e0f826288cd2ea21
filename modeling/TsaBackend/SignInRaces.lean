import TsaBackend.Phases
import TsaBackend.RefreshTokens

/-!
Sign-ins of one user from several devices at the same time.

A refresh token is a function of the text of the claims, the second of issue and the lifetime, and
two sessions cannot be stored under one token.
-/

namespace TsaBackend.SignInRaces

open Call AuthSteps SessionSteps

/-- A user, with what a sign-in asks for. -/
structure Person where
  id : Id
  email : String
  user : User
  verified : Bool
  password : Option String

inductive Method
  | password (password : String)
  | google (idToken : String)
  deriving DecidableEq, Repr

/-- The order in which the sign-in writes the claims. -/
def Method.order : Method → ClaimOrder
  | .password _ => .roleFirst
  | .google _ => .idFirst

/-- A sign-in, whether on a phone, and the second its device signs in. -/
structure Device where
  method : Method
  mobile : Bool
  now : ℕ
  deriving DecidableEq, Repr

namespace Device

variable (cfg : SessionConfig) (p : Person) (d : Device)

def call : AuthCall SignInResult :=
  match d.method with
  | .password password => passwordSignin cfg.toAuthConfig p.email password d.mobile
  | .google idToken => signInWithGoogle cfg.toAuthConfig idToken d.mobile

/-- The device knows the password, or Google answers with the address. -/
def Valid : Prop :=
  match d.method with
  | .password password => p.verified = true ∧ p.user.status ≠ .deactivated ∧
      ∃ hash, p.password = some hash ∧ cfg.bcryptCompare password hash = true
  | .google idToken => ∃ decoded, cfg.verifyIdToken idToken d.now = some decoded ∧
      decoded.email = some p.email

/-- What decides the token of a session of this user. -/
def issue : ClaimOrder × ℕ := (d.method.order, d.now)

/-- The refresh token of a session of this user. -/
def token : String :=
  cfg.jwtSign d.method.order (.user p.email p.user.role p.id) d.now 86400

/-- A session of the user that was issued in this second, in the same way, is stored. -/
def HasSession (s : AuthDB) : Prop := d.token cfg p ∈ s.refreshTokens

end Device

/-- The user is stored with the profile of its role, and nobody has the same phone number. -/
structure Ready (p : Person) (s : AuthDB) : Prop where
  found : ∃ account, s.findUserByEmail p.email = some (p.id, p.user, account) ∧
    account.verified = p.verified ∧ account.password = p.password
  profile : p.user.role = .student → p.id ∈ s.students ∧ p.id ∈ s.residences
  phone : ∀ account, s.accounts.lookup p.id = some account → account.phoneNumber.isSome →
    ∀ e ∈ s.accounts.entries, e.1 ≠ p.id → e.2.phoneNumber ≠ account.phoneNumber

/-- The session can be refreshed until it expires. -/
def Usable (cfg : SessionConfig) (s : AuthDB) (token : String) (iat : ℕ) : Prop :=
  ∀ ω, (ω 0).now < iat + 86400 → (ω 1).ms ≤ (iat + 86400) * 1000 →
    ∃ tokens, ((refreshTokens cfg token).exec ω s).1 = .ok tokens

/-- Call `k` has returned this result. -/
def Gets (x : AuthDB × List (AuthCall SignInResult)) (k : ℕ) (r : SignInResult) : Prop :=
  x.2[k]? = some (.pure r)

/-- Every device is signed in, each with a token of its own, and a sign-out on one leaves the
others. -/
structure Independent (cfg : SessionConfig) (devices : List Device)
    (x : AuthDB × List (AuthCall SignInResult)) : Prop where
  returned : ∀ k d, devices[k]? = some d → ∃ r, Gets x k r
  differ : ∀ j k r r', j ≠ k → Gets x j r → Gets x k r' → r.refreshToken ≠ r'.refreshToken
  usable : ∀ j k r r' d, j ≠ k → Gets x j r → Gets x k r' → devices[k]? = some d →
    ∀ ω, Usable cfg
      ((signout cfg r.refreshToken).exec ω x.1).2 r'.refreshToken d.now

variable {cfg : SessionConfig} {p : Person} {s t : AuthDB} {d d' : Device}

lemma token_inj (laws : SigningLaws cfg) :
    d.token cfg p = d'.token cfg p ↔ d.issue = d'.issue := by
  unfold Device.token Device.issue
  constructor
  · intro h
    obtain ⟨horder, -, hnow, -⟩ := laws.sign_inj _ _ _ _ _ _ _ _ h
    rw [horder, hnow]
  · intro h
    obtain ⟨horder, hnow⟩ := Prod.mk.inj h
    rw [horder, hnow]

lemma Ready.mem_users (h : Ready p s) : p.id ∈ s.users := by
  obtain ⟨account, hfound, -⟩ := h.found
  exact Table.mem_iff_lookup.mpr ⟨_, (findUserByEmail_some hfound).1⟩

lemma Ready.mem_accounts (h : Ready p s) : ∃ account, s.accounts.lookup p.id = some account := by
  obtain ⟨account, hfound, -⟩ := h.found
  exact ⟨account, (findUserByEmail_some hfound).2.1⟩

lemma Ready.session (h : Ready p s) (tokens : Table String RefreshToken) :
    Ready p { s with refreshTokens := tokens } := ⟨h.found, h.profile, h.phone⟩

/-- A user keeps a unique phone number when another photo is stored. -/
lemma Ready.photo_ok (h : Ready p s) (photoUrl : UserAccount → Option String) :
    s.updateAccountRow p.id (fun account => { account with photoUrl := photoUrl account }) =
      .ok { s with accounts := s.accounts.modify p.id fun account =>
        { account with photoUrl := photoUrl account } } := by
  obtain ⟨account, haccount⟩ := h.mem_accounts
  unfold AuthDB.updateAccountRow
  rw [haccount]
  refine if_neg fun hphone => ?_
  obtain ⟨hsome, hother⟩ := hphone
  obtain ⟨e, he, heq⟩ := List.any_eq_true.mp hother
  obtain ⟨hid, hsame⟩ := of_decide_eq_true heq
  exact h.phone account haccount hsome e he hid hsame

lemma Ready.photo (h : Ready p s) (photoUrl : UserAccount → Option String) :
    Ready p { s with accounts := s.accounts.modify p.id fun account =>
      { account with photoUrl := photoUrl account } } where
  found := by
    obtain ⟨account, hfound, hverified, hpassword⟩ := h.found
    have hu := (findUserByEmail_some hfound).1
    refine ⟨{ account with photoUrl := photoUrl account }, ?_, hverified, hpassword⟩
    have hmodify : (s.accounts.modify p.id fun account =>
        { account with photoUrl := photoUrl account }).findFirst 0
          (fun _ account => account.email = p.email) =
        (s.accounts.findFirst 0 fun _ account => account.email = p.email).map fun e =>
          (e.1, if e.1 = p.id then { e.2 with photoUrl := photoUrl e.2 } else e.2) :=
      Table.findFirst_modify fun _ _ => rfl
    unfold AuthDB.findUserByEmail at hfound ⊢
    dsimp only
    rw [hmodify]
    rcases hf : s.accounts.findFirst 0 (fun _ account => account.email = p.email)
      with _ | ⟨id, found⟩
    · simp [hf] at hfound
    rw [hf] at hfound
    rcases hlookup : s.users.lookup id with _ | user
    · simp [hlookup] at hfound
    · simp only [Option.bind_eq_bind, Option.bind_some, hlookup, Option.pure_def,
        Option.some.injEq, Prod.mk.injEq] at hfound
      obtain ⟨rfl, rfl, rfl⟩ := hfound
      simp [hlookup]
  profile := h.profile
  phone := by
    intro account haccount hsome e he hid
    rw [Table.lookup_modify_self, Option.map_eq_some_iff] at haccount
    obtain ⟨old, hold, rfl⟩ := haccount
    obtain ⟨e', he', rfl⟩ := List.mem_map.mp he
    have hne : e'.1 ≠ p.id := by
      intro heq
      simp [heq] at hid
    rw [if_neg hne]
    exact h.phone old hold hsome e' he' hne

/-! ### The steps of a sign-in -/

inductive Stage
  | asking
  | admitted
  | refused
  deriving DecidableEq

/-- A step of a sign-in: it opens its session unless the token is taken. -/
inductive SignStep (cfg : SessionConfig) (p : Person) (d : Device) :
    Stage → AuthDB → AuthDB → Stage → Prop
  | wait {stage : Stage} {s t : AuthDB} (ht : Ready p t) (h : t.refreshTokens = s.refreshTokens) :
    SignStep cfg p d stage s t stage
  | accept {s : AuthDB} {row : RefreshToken} (h : ¬ d.HasSession cfg p s)
    (hrow : (d.now + 86400) * 1000 ≤ row.expiresAt) : SignStep cfg p d .asking s
      { s with refreshTokens := s.refreshTokens.insert (d.token cfg p) row } .admitted
  | refuse {s : AuthDB} (h : d.HasSession cfg p s) : SignStep cfg p d .asking s s .refused

/-- What a step of a device meets. -/
def Meets (p : Person) (q : Device × Stage) (i : AuthInput) (s : AuthDB) : Prop :=
  Ready p s ∧ i.now = q.1.now ∧ i.ok = true

/-- The steps of the device in its phase. -/
def Moves (cfg : SessionConfig) (p : Person) (q : Device × Stage) (s t : AuthDB)
    (q' : Device × Stage) : Prop :=
  q'.1 = q.1 ∧ SignStep cfg p q.1 q.2 s t q'.2

/-- The device is signed in with its token. -/
def Admitted (cfg : SessionConfig) (p : Person) (q : Device × Stage) (r : SignInResult) : Prop :=
  q.2 = .admitted ∧ r.refreshToken = q.1.token cfg p

abbrev Signs (cfg : SessionConfig) (p : Person) (d : Device) (c : AuthCall SignInResult) : Prop :=
  c.Follows (Meets p) (Moves cfg p) (Admitted cfg p) (fun q _ => q.2 = .refused) (d, .asking)

variable {α : Type}

lemma signs_read {f : AuthInput → AuthDB → α} {g : α → AuthCall SignInResult}
    (h : ∀ i s, Meets p (d, .asking) i s → Signs cfg p d (g (f i s))) :
    Signs cfg p d (.read f >>= g) :=
  follows_read fun i s hs => ⟨(d, .asking), ⟨rfl, .wait hs.1 rfl⟩, h i s hs⟩

lemma greet_signs {r : SignInResult} (hr : Admitted cfg p (d, .admitted) r) :
    (Call.when d.mobile sendGreeting >>= fun _ => (Pure.pure r : AuthCall SignInResult)).Follows
      (Meets p) (Moves cfg p) (Admitted cfg p) (fun q _ => q.2 = .refused) (d, .admitted) := by
  unfold Call.when sendGreeting
  split
  · refine Follows.bind (follows_atomic (fun i s a t hs h => ?_) fun i s e hs h => ?_)
    · rw [if_pos hs.2.2] at h
      cases h
      exact ⟨(d, .admitted), ⟨rfl, .wait hs.1 rfl⟩, hr⟩
    · rw [if_pos hs.2.2] at h
      cases h
  · exact hr

lemma openSession_signs {account : UserAccount} (hemail : account.email = p.email) :
    Signs cfg p d
      (openSession cfg.toAuthConfig d.method.order p.id p.user account d.mobile) := by
  have htokens : ∀ info : Option (Option Dormitory × Residence), Signs cfg p d (do
      let tokens ← generateTokens cfg.toAuthConfig d.method.order account.email p.id p.user.role
      Call.when d.mobile sendGreeting
      let account := { account with password := none }
      return { accessToken := tokens.1, refreshToken := tokens.2, id := p.id, user := p.user
               account, studentAdditionalInfo := info }) := by
    intro info
    have htoken : ∀ i : AuthInput, i.now = d.now →
        cfg.jwtSign d.method.order (.user account.email p.user.role p.id) i.now 86400 =
          d.token cfg p := by
      intro i hnow
      rw [hemail, hnow]
      rfl
    unfold generateTokens
    refine Follows.bind (follows_atomic (fun i s a t hs h => ?_) fun i s e hs h => ?_)
    · obtain ⟨hready, hnow, -⟩ := hs
      obtain ⟨s₁, hcreate, h⟩ := ok_of_bind h
      cases h
      obtain ⟨hfree, -, rfl⟩ := AuthDB.createRefreshToken_ok hcreate
      rw [htoken i hnow] at hfree ⊢
      refine ⟨(d, .admitted), ⟨rfl, .accept hfree ?_⟩, greet_signs ⟨rfl, rfl⟩⟩
      simp only [AuthInput.ms, hnow]
      omega
    · obtain ⟨hready, hnow, -⟩ := hs
      refine ⟨(d, .refused), ⟨rfl, .refuse ?_⟩, rfl⟩
      by_contra hfree
      rw [Device.HasSession, ← htoken i hnow] at hfree
      -- the user is stored, so that nothing else can refuse the row
      unfold AuthDB.createRefreshToken at h
      dsimp only at h
      rw [if_neg hfree, if_pos hready.mem_users] at h
      cases h
  unfold openSession findStudentInfo
  split
  · next hstudent =>
    rw [bind_assoc]
    refine signs_read fun i s hs => ?_
    obtain ⟨student, hst⟩ := Table.mem_iff_lookup.mp (hs.1.profile hstudent).1
    obtain ⟨residence, hres⟩ := Table.mem_iff_lookup.mp (hs.1.profile hstudent).2
    rw [hst, hres]
    exact htokens _
  · exact htokens _

lemma Ready.account (h : Ready p s) : ∃ account,
    s.findUserByEmail p.email = some (p.id, p.user, account) ∧ account.email = p.email ∧
      account.verified = p.verified ∧ account.password = p.password := by
  obtain ⟨account, hfound, hverified, hpassword⟩ := h.found
  exact ⟨account, hfound, (findUserByEmail_some hfound).2.2, hverified, hpassword⟩

lemma password_signs {password : String} (hd : d.method = .password password)
    (hvalid : d.Valid cfg p) :
    Signs cfg p d (passwordSignin cfg.toAuthConfig p.email password d.mobile) := by
  unfold Device.Valid at hvalid
  rw [hd] at hvalid
  obtain ⟨hverified, hactive, hash, hhash, hcompare⟩ := hvalid
  unfold passwordSignin validateUser
  rw [bind_assoc]
  refine signs_read fun i s hs => ?_
  obtain ⟨account, hfound, hemail, haccount, hpassword⟩ := hs.1.account
  have hpassed : ¬ ¬ cfg.bcryptCompare password hash = true := not_not.mpr hcompare
  rw [hfound]
  simp only [haccount, hverified, hpassword, hhash, checkPassword, hactive, throwIf,
    not_true_eq_false, if_false, pure_bind, bind_assoc, hcompare]
  have hsession : Signs cfg p d
      (openSession cfg.toAuthConfig d.method.order p.id p.user account d.mobile) :=
    openSession_signs hemail
  rw [hd] at hsession
  exact hsession

lemma google_signs {idToken : String} (hd : d.method = .google idToken) (hvalid : d.Valid cfg p) :
    Signs cfg p d (signInWithGoogle cfg.toAuthConfig idToken d.mobile) := by
  unfold Device.Valid at hvalid
  rw [hd] at hvalid
  obtain ⟨decoded, hverify, hemail⟩ := hvalid
  unfold signInWithGoogle
  refine signs_read fun i s hs => ?_
  have hanswer : (if i.ok = true then cfg.toAuthConfig.verifyIdToken idToken i.now else none) =
      some decoded := by
    rw [if_pos hs.2.2, hs.2.1]
    exact hverify
  rw [hanswer]
  simp only [hemail]
  unfold findOrCreateGoogleUser
  rw [bind_assoc]
  refine signs_read fun i s hs => ?_
  obtain ⟨account, hfound, hmail, -⟩ := hs.1.account
  have hsession : Signs cfg p d
      (openSession cfg.toAuthConfig d.method.order p.id p.user account d.mobile) :=
    openSession_signs hmail
  rw [hd] at hsession
  rw [hfound]
  simp only [pure_bind, Call.when]
  split
  · refine Follows.bind (follows_atomic (fun i s a t hs h => ?_) fun i s e hs h => ?_)
    · rw [hs.1.photo_ok] at h
      cases h
      exact ⟨(d, .asking), ⟨rfl, .wait (hs.1.photo _) rfl⟩, hsession⟩
    · rw [hs.1.photo_ok] at h
      cases h
  · exact hsession

/-- **The steps of a sign-in**, whatever comes between them. -/
theorem call_signs (hvalid : d.Valid cfg p) : Signs cfg p d (d.call cfg p) := by
  unfold Device.call
  rcases hd : d.method with password | idToken
  · exact password_signs hd hvalid
  · exact google_signs hd hvalid

/-! ### Devices that race -/

variable {s₀ : AuthDB} {devices : List Device} {ph : ℕ → Device × Stage}
  {x : AuthDB × List (AuthCall SignInResult)}

/-- The devices are at the stages `ph`, and the sessions are the old ones and those of the devices
that are signed in. -/
structure Held (cfg : SessionConfig) (p : Person) (s₀ : AuthDB) (devices : List Device)
    (ph : ℕ → Device × Stage) (s : AuthDB) : Prop where
  ready : Ready p s
  device : ∀ k d, devices[k]? = some d → (ph k).1 = d
  kept : ∀ token ∈ s₀.refreshTokens, token ∈ s.refreshTokens
  origin : ∀ token ∈ s.refreshTokens, token ∈ s₀.refreshTokens ∨
    ∃ k d, devices[k]? = some d ∧ (ph k).2 = .admitted ∧ token = d.token cfg p
  fresh : ∀ k d, devices[k]? = some d → (ph k).2 = .admitted → ¬ d.HasSession cfg p s₀
  stored : ∀ k d, devices[k]? = some d → (ph k).2 = .admitted → ∃ row,
    s.refreshTokens.lookup (d.token cfg p) = some row ∧ (d.now + 86400) * 1000 ≤ row.expiresAt
  distinct : ∀ j k d d', devices[j]? = some d → devices[k]? = some d' → (ph j).2 = .admitted →
    (ph k).2 = .admitted → d.token cfg p = d'.token cfg p → j = k
  refused : ∀ k d, devices[k]? = some d → (ph k).2 = .refused → d.HasSession cfg p s₀ ∨
    ∃ j d', devices[j]? = some d' ∧ (ph j).2 = .admitted ∧ d'.token cfg p = d.token cfg p

lemma held_init (hs : Ready p s) :
    Held cfg p s devices (fun k => ((devices[k]?).getD ⟨.password "", false, 0⟩, .asking)) s where
  ready := hs
  device k d hd := by simp [hd]
  kept token h := h
  origin token h := .inl h
  fresh k d _ h := by cases h
  stored k d _ h := by cases h
  distinct j k d d' _ _ h := by cases h
  refused k d _ h := by cases h

lemma admitted_update {j k : ℕ} (h : (ph k).2 = .asking) (q : Device × Stage)
    (hj : (ph j).2 = .admitted) : (Function.update ph k q j).2 = .admitted := by
  have hne : j ≠ k := by
    rintro rfl
    rw [h] at hj
    cases hj
  rwa [Function.update_of_ne hne]

lemma exists_admitted_update {k : ℕ} {P : Device → Prop} (hask : (ph k).2 = .asking)
    (q : Device × Stage)
    (h : ∃ j d, devices[j]? = some d ∧ (ph j).2 = .admitted ∧ P d) :
    ∃ j d, devices[j]? = some d ∧ (Function.update ph k q j).2 = .admitted ∧ P d := by
  obtain ⟨j, d, hj, hadmitted, hP⟩ := h
  exact ⟨j, d, hj, admitted_update hask q hadmitted, hP⟩

lemma Held.device_update {k : ℕ} (h : Held cfg p s₀ devices ph s) (hd : devices[k]? = some d)
    (stage : Stage) (j : ℕ) (d' : Device) (hj : devices[j]? = some d') :
    (Function.update ph k (d, stage) j).1 = d' := by
  by_cases hjk : j = k
  · subst hjk
    rw [Function.update_self]
    exact Option.some.inj (hd.symm.trans hj)
  · rw [Function.update_of_ne hjk]
    exact h.device j d' hj

lemma Held.accept {k : ℕ} {row : RefreshToken} (h : Held cfg p s₀ devices ph s)
    (hd : devices[k]? = some d) (hask : (ph k).2 = .asking) (hfree : ¬ d.HasSession cfg p s)
    (hrow : (d.now + 86400) * 1000 ≤ row.expiresAt) :
    Held cfg p s₀ devices (Function.update ph k (d, .admitted))
      { s with refreshTokens := s.refreshTokens.insert (d.token cfg p) row } := by
  have hself : (Function.update ph k (d, .admitted) k).2 = .admitted := by
    rw [Function.update_self]
  have hcases : ∀ j d', devices[j]? = some d' →
      (Function.update ph k (d, .admitted) j).2 = .admitted →
        j = k ∧ d' = d ∨ j ≠ k ∧ (ph j).2 = .admitted := by
    intro j d' hj hadmitted
    by_cases hjk : j = k
    · subst hjk
      exact .inl ⟨rfl, Option.some.inj (hj.symm.trans hd)⟩
    · rw [Function.update_of_ne hjk] at hadmitted
      exact .inr ⟨hjk, hadmitted⟩
  -- nobody is signed in with the token, which is not stored
  have hother : ∀ j d', devices[j]? = some d' → (ph j).2 = .admitted →
      d'.token cfg p ≠ d.token cfg p := by
    intro j d' hj hadmitted heq
    obtain ⟨row', hrow', -⟩ := h.stored j d' hj hadmitted
    rw [heq] at hrow'
    exact hfree (Table.mem_iff_lookup.mpr ⟨row', hrow'⟩)
  refine ⟨h.ready.session _, h.device_update hd .admitted,
    fun token htoken => (AList.mem_insert _).mpr (.inr (h.kept token htoken)),
    fun token htoken => ?_,
    fun j d' hj hadmitted => ?_, fun j d' hj hadmitted => ?_,
    fun i j d₁ d₂ hi hj hi' hj' heq => ?_, fun j d' hj hrefused => ?_⟩
  · rcases (AList.mem_insert _).mp htoken with rfl | htoken
    · exact .inr ⟨k, d, hd, hself, rfl⟩
    · exact (h.origin token htoken).imp_right (exists_admitted_update hask _)
  · rcases hcases j d' hj hadmitted with ⟨-, rfl⟩ | ⟨-, hadmitted⟩
    · exact fun hold => hfree (h.kept _ hold)
    · exact h.fresh j d' hj hadmitted
  · rcases hcases j d' hj hadmitted with ⟨-, rfl⟩ | ⟨-, hadmitted⟩
    · exact ⟨row, AList.lookup_insert _, hrow⟩
    · obtain ⟨row', hrow', hexpires⟩ := h.stored j d' hj hadmitted
      exact ⟨row', by rwa [AList.lookup_insert_ne (hother j d' hj hadmitted)], hexpires⟩
  · rcases hcases i d₁ hi hi' with ⟨hik, hid⟩ | ⟨-, hin⟩ <;>
      rcases hcases j d₂ hj hj' with ⟨hjk, hjd⟩ | ⟨-, hjn⟩
    · rw [hik, hjk]
    · rw [hid] at heq
      exact absurd heq.symm (hother j d₂ hj hjn)
    · rw [hjd] at heq
      exact absurd heq (hother i d₁ hi hin)
    · exact h.distinct i j d₁ d₂ hi hj hin hjn heq
  · have hjk : j ≠ k := by
      rintro rfl
      rw [hself] at hrefused
      cases hrefused
    rw [Function.update_of_ne hjk] at hrefused
    exact (h.refused j d' hj hrefused).imp_right (exists_admitted_update hask _)

lemma Held.refuse {k : ℕ} (h : Held cfg p s₀ devices ph s) (hd : devices[k]? = some d)
    (hask : (ph k).2 = .asking) (htaken : d.HasSession cfg p s) :
    Held cfg p s₀ devices (Function.update ph k (d, .refused)) s := by
  have hstays : ∀ j, (Function.update ph k (d, .refused) j).2 = .admitted →
      (ph j).2 = .admitted := by
    intro j hj
    by_cases hjk : j = k
    · subst hjk
      rw [Function.update_self] at hj
      cases hj
    · rwa [Function.update_of_ne hjk] at hj
  refine ⟨h.ready, h.device_update hd .refused, h.kept,
    fun token htoken => (h.origin token htoken).imp_right (exists_admitted_update hask _),
    fun j d' hj hj' => h.fresh j d' hj (hstays j hj'),
    fun j d' hj hj' => h.stored j d' hj (hstays j hj'),
    fun i j d₁ d₂ hi hj hi' hj' => h.distinct i j d₁ d₂ hi hj (hstays i hi') (hstays j hj'),
    fun j d' hj hrefused => ?_⟩
  · have hwho : d'.HasSession cfg p s₀ ∨
        ∃ i d₁, devices[i]? = some d₁ ∧ (ph i).2 = .admitted ∧
          d₁.token cfg p = d'.token cfg p := by
      by_cases hjk : j = k
      · subst hjk
        obtain rfl := Option.some.inj (hj.symm.trans hd)
        refine (h.origin _ htaken).imp_right fun hfrom => ?_
        obtain ⟨i, d₁, hi, hadmitted, heq⟩ := hfrom
        exact ⟨i, d₁, hi, hadmitted, heq.symm⟩
      · rw [Function.update_of_ne hjk] at hrefused
        exact h.refused j d' hj hrefused
    exact hwho.imp_right (exists_admitted_update hask _)

lemma Held.step {k : ℕ} {q : Device × Stage} (h : Held cfg p s₀ devices ph s)
    (hd : devices[k]? = some d) (hstep : Moves cfg p (ph k) s t q) :
    Held cfg p s₀ devices (Function.update ph k q) t := by
  have hk := h.device k d hd
  obtain ⟨d', stage⟩ := q
  obtain ⟨rfl, hstep⟩ : d' = d ∧ SignStep cfg p d (ph k).2 s t stage := by
    rw [← hk]
    exact hstep
  generalize hstage : (ph k).2 = st at hstep
  cases hstep with
  | wait ht hsame =>
    have heq : (d', stage) = ph k := Prod.ext hk.symm hstage.symm
    rw [heq, Function.update_eq_self]
    refine ⟨ht, h.device, fun token htoken => ?_, fun token htoken => ?_, h.fresh,
      fun j d' hj hj' => ?_, h.distinct, h.refused⟩
    · rw [hsame]
      exact h.kept token htoken
    · rw [hsame] at htoken
      exact h.origin token htoken
    · rw [hsame]
      exact h.stored j d' hj hj'
  | accept hfree hrow => exact h.accept hd hstage hfree hrow
  | refuse htaken => exact h.refuse hd hstage htaken

/-- The calls of a pool are sign-ins of these devices. -/
def RaceInv (cfg : SessionConfig) (p : Person) (s₀ : AuthDB) (devices : List Device)
    (x : AuthDB × List (AuthCall SignInResult)) : Prop :=
  x.2.length = devices.length ∧ ∃ ph, Held cfg p s₀ devices ph x.1 ∧
    Phases (Meets p) (fun _ => Moves cfg p) (fun _ => Admitted cfg p)
      (fun _ q _ => q.2 = .refused) x.2 ph

/-- The steps of a device are taken in its second, and Google answers. -/
def Supplied (devices : List Device) (e : ℕ × AuthInput) : Prop :=
  ∀ d, devices[e.1]? = some d → e.2.now = d.now ∧ e.2.ok = true

lemma RaceInv.step {e : ℕ × AuthInput} (h : RaceInv cfg p s₀ devices x)
    (he : Supplied devices e) : RaceInv cfg p s₀ devices (poolStep x e) := by
  obtain ⟨hlen, ph, hheld, hph⟩ := h
  have hget : ∀ c, x.2[e.1]? = some c → ∃ d, devices[e.1]? = some d := by
    intro c hc
    have hlt := (List.getElem?_eq_some_iff.mp hc).1
    rw [hlen] at hlt
    exact ⟨_, List.getElem?_eq_getElem hlt⟩
  have hmeets : (∃ c, x.2[e.1]? = some c ∧ c.running = true) → Meets p (ph e.1) e.2 x.1 := by
    rintro ⟨c, hc, -⟩
    obtain ⟨d, hd⟩ := hget c hc
    refine ⟨hheld.ready, ?_⟩
    rw [hheld.device _ d hd]
    exact he d hd
  rcases hph.step hmeets with ⟨-, hstay⟩ | ⟨⟨c, hc, -⟩, q, hq, hph⟩
  · rw [hstay]
    exact ⟨hlen, ph, hheld, hph⟩
  · obtain ⟨d, hd⟩ := hget c hc
    exact ⟨poolStep_length.trans hlen, _, hheld.step hd hq, hph⟩

lemma raceInv_run (hs : Ready p s) (hvalid : ∀ d ∈ devices, d.Valid cfg p)
    {sched : List (ℕ × AuthInput)} (hsched : ∀ e ∈ sched, Supplied devices e) :
    RaceInv cfg p s devices (interleave s (devices.map (·.call cfg p)) sched) := by
  have hinit : RaceInv cfg p s devices (s, devices.map (·.call cfg p)) := by
    refine ⟨List.length_map _, _, held_init hs, fun k c hc => ?_⟩
    rw [List.getElem?_map] at hc
    obtain ⟨d, hd, rfl⟩ := Option.map_eq_some_iff.mp hc
    rw [hd]
    exact call_signs (hvalid d (List.mem_of_getElem? hd))
  exact Machine.run_inv _ (fun _ _ => RaceInv.step) hinit
    (Machine.along_of_forall fun e he _ => hsched e he)

/-! ### Where the race ends -/

lemma usable_of_stored (laws : SigningLaws cfg) {row : RefreshToken}
    (hrow : s.refreshTokens.lookup (d.token cfg p) = some row)
    (hexpires : (d.now + 86400) * 1000 ≤ row.expiresAt) :
    Usable cfg s (d.token cfg p) d.now := by
  intro ω hnow hms
  have hverify : cfg.jwtVerify (d.token cfg p) (ω 0).now =
      some (.user p.email p.user.role p.id) := by
    rw [Device.token, laws.verify_sign, if_pos hnow]
  have hfresh : ¬ Stale s (d.token cfg p) (ω 1).ms := by
    simp only [Stale, hrow, Option.all_some, decide_eq_true_eq]
    omega
  rw [refreshTokens_exec, hverify]
  simp only [if_neg hfresh]
  exact ⟨_, rfl⟩

lemma signout_keeps {token token' : String} (ω : ℕ → AuthInput) (h : token' ≠ token) :
    ((signout cfg token).exec ω s).2.refreshTokens.lookup token' =
      s.refreshTokens.lookup token' := by
  rw [signout_exec]
  split
  · exact AList.lookup_erase_ne h
  · rfl

/-- A device whose sign-in has ended is signed in with its token, or was refused. -/
lemma ended_cases {k : ℕ} {c : AuthCall SignInResult}
    (hph : Phases (Meets p) (fun _ => Moves cfg p) (fun _ => Admitted cfg p)
      (fun _ q _ => q.2 = .refused) x.2 ph)
    (hc : x.2[k]? = some c) (hend : c.running = false) :
    (∃ r, Gets x k r ∧ Admitted cfg p (ph k) r) ∨
      (ph k).2 = .refused ∧ ∀ r, ¬ Gets x k r := by
  have hfollows := hph k c hc
  match c, hend with
  | .pure r, _ => exact .inl ⟨r, hc, hfollows⟩
  | .throw e, _ =>
    refine .inr ⟨hfollows, fun r hr => ?_⟩
    rw [Gets, hc] at hr
    cases hr

/-- Every device is signed in with its token, or was refused. -/
structure Settled (cfg : SessionConfig) (p : Person) (devices : List Device)
    (ph : ℕ → Device × Stage) (x : AuthDB × List (AuthCall SignInResult)) : Prop where
  ended : ∀ k d, devices[k]? = some d → (∃ r, Gets x k r) ∨ (ph k).2 = .refused
  gets : ∀ k r, Gets x k r → ∃ d, devices[k]? = some d ∧ (ph k).2 = .admitted ∧
    r.refreshToken = d.token cfg p

lemma RaceInv.settled (h : RaceInv cfg p s₀ devices x) (hend : ∀ c ∈ x.2, c.running = false) :
    ∃ ph, Held cfg p s₀ devices ph x.1 ∧ Settled cfg p devices ph x := by
  obtain ⟨hlen, ph, hheld, hph⟩ := h
  have hcases : ∀ k d, devices[k]? = some d → (∃ r, Gets x k r ∧ (ph k).2 = .admitted ∧
      r.refreshToken = d.token cfg p) ∨ (ph k).2 = .refused ∧ ∀ r, ¬ Gets x k r := by
    intro k d hd
    have hlt : k < x.2.length := by
      rw [hlen]
      exact (List.getElem?_eq_some_iff.mp hd).1
    have hc : x.2[k]? = some x.2[k] := List.getElem?_eq_getElem hlt
    refine (ended_cases hph hc (hend _ (List.getElem_mem hlt))).imp_left fun hr => ?_
    obtain ⟨r, hr, hadmitted, htoken⟩ := hr
    rw [hheld.device k d hd] at htoken
    exact ⟨r, hr, hadmitted, htoken⟩
  refine ⟨ph, hheld, fun k d hd => ?_, fun k r hr => ?_⟩
  · exact (hcases k d hd).imp (fun ⟨r, hr, _⟩ => ⟨r, hr⟩) And.left
  · have hlt := (List.getElem?_eq_some_iff.mp hr).1
    rw [hlen] at hlt
    have hd : devices[k]? = some devices[k] := List.getElem?_eq_getElem hlt
    rcases hcases k _ hd with ⟨r', hr', hadmitted, htoken⟩ | ⟨-, hnone⟩
    · rw [Gets, hr, Option.some.injEq] at hr'
      cases hr'
      exact ⟨_, hd, hadmitted, htoken⟩
    · exact absurd hr (hnone r)

/-- When all devices are signed in, no two asked for one token, and none of it was there before. -/
lemma Held.different (laws : SigningLaws cfg) (h : Held cfg p s₀ devices ph s)
    (hall : ∀ k d, devices[k]? = some d → (ph k).2 = .admitted) :
    (devices.map Device.issue).Nodup ∧ ∀ d ∈ devices, ¬ d.HasSession cfg p s₀ := by
  constructor
  · rw [List.nodup_iff_getElem?_ne_getElem?]
    intro j k hjk hk heq
    rw [List.length_map] at hk
    have hd : devices[j]? = some devices[j] := List.getElem?_eq_getElem (by omega)
    have hd' : devices[k]? = some devices[k] := List.getElem?_eq_getElem hk
    rw [List.getElem?_map, List.getElem?_map, hd, hd', Option.map_some, Option.map_some,
      Option.some.injEq] at heq
    have hpos := h.distinct j k _ _ hd hd' (hall j _ hd) (hall k _ hd')
      ((token_inj laws).mpr heq)
    omega
  · intro d hd
    obtain ⟨k, hk⟩ := List.mem_iff_getElem?.mp hd
    exact h.fresh k d hk (hall k d hk)

/-- A refused device found the token of an old session, or of another device. -/
lemma Held.not_refused (laws : SigningLaws cfg) (h : Held cfg p s₀ devices ph s)
    (hnodup : (devices.map Device.issue).Nodup) (hfree : ∀ d ∈ devices, ¬ d.HasSession cfg p s₀)
    {k : ℕ} (hd : devices[k]? = some d) : (ph k).2 ≠ .refused := by
  intro hrefused
  rcases h.refused k d hd hrefused with hold | ⟨j, d', hj, hadmitted, heq⟩
  · exact hfree d (List.mem_of_getElem? hd) hold
  · obtain rfl := position_unique hnodup hj hd ((token_inj laws).mp heq)
    rw [hadmitted] at hrefused
    cases hrefused

lemma Settled.independent (laws : SigningLaws cfg) (h : Settled cfg p devices ph x)
    (hheld : Held cfg p s₀ devices ph x.1)
    (hno : ∀ k d, devices[k]? = some d → (ph k).2 ≠ .refused) : Independent cfg devices x := by
  have hdiffer : ∀ j k r r', j ≠ k → Gets x j r → Gets x k r' →
      r.refreshToken ≠ r'.refreshToken := by
    intro j k r r' hjk hr hr' heq
    obtain ⟨d, hd, hadmitted, htoken⟩ := h.gets j r hr
    obtain ⟨d', hd', hadmitted', htoken'⟩ := h.gets k r' hr'
    rw [htoken, htoken'] at heq
    exact hjk (hheld.distinct j k d d' hd hd' hadmitted hadmitted' heq)
  refine ⟨fun k d hd => ?_, hdiffer, fun j k r r' d hjk hr hr' hd ω => ?_⟩
  · exact (h.ended k d hd).resolve_right (hno k d hd)
  · have hne := hdiffer j k r r' hjk hr hr'
    obtain ⟨d', hd', hadmitted, htoken⟩ := h.gets k r' hr'
    obtain rfl := Option.some.inj (hd.symm.trans hd')
    obtain ⟨row, hrow, hexpires⟩ := hheld.stored k d hd hadmitted
    rw [htoken] at hne ⊢
    exact usable_of_stored laws (by rw [signout_keeps ω (Ne.symm hne)]; exact hrow) hexpires

/-- **When the sessions of a user are independent**: when sign-ins of one user from any devices, with
a password or with Google, have run to their ends in any order of their steps, every one has
returned with a token of its own and can be signed out without the others just when no two sign in
the same way in one second, and no session from before was issued so. -/
theorem sessions_independent_iff (cfg : SessionConfig) (laws : SigningLaws cfg) (p : Person)
    (s : AuthDB) (hs : Ready p s) (devices : List Device)
    (hvalid : ∀ d ∈ devices, d.Valid cfg p) (sched : List (ℕ × AuthInput))
    (hsched : ∀ e ∈ sched, Supplied devices e)
    (hend : ∀ c ∈ (interleave s (devices.map (·.call cfg p)) sched).2, c.running = false) :
    Independent cfg devices (interleave s (devices.map (·.call cfg p)) sched) ↔
      (devices.map Device.issue).Nodup ∧ ∀ d ∈ devices, ¬ d.HasSession cfg p s := by
  obtain ⟨ph, hheld, hsettled⟩ := (raceInv_run hs hvalid hsched).settled hend
  constructor
  · intro hind
    refine hheld.different laws fun k d hd => ?_
    obtain ⟨r, hr⟩ := hind.returned k d hd
    obtain ⟨-, -, hadmitted, -⟩ := hsettled.gets k r hr
    exact hadmitted
  · rintro ⟨hnodup, hfree⟩
    exact hsettled.independent laws hheld fun k d hd => hheld.not_refused laws hnodup hfree hd

/-- The student of the sample tables, who has a password. -/
def samplePerson : Person where
  id := 1
  email := "a@x"
  user := { role := .student, status := .available }
  verified := true
  password := some "pw"

lemma samplePerson_ready : Ready samplePerson RefreshTokens.sampleDB.toAuthDB where
  found := ⟨{ newAccount "a@x" with verified := true, password := some "pw" }, by decide +kernel,
    rfl, rfl⟩
  profile _ := by decide +kernel
  phone account h hsome := by
    obtain rfl : { newAccount "a@x" with verified := true, password := some "pw" } = account :=
      Option.some.inj h
    cases hsome

def withPassword (now : ℕ) : Device := ⟨.password "pw", false, now⟩
def withGoogle (now : ℕ) : Device := ⟨.google "a@x", true, now⟩

lemma withPassword_valid (now : ℕ) : (withPassword now).Valid Sample.sessionConfig samplePerson :=
  ⟨rfl, by decide, "pw", rfl, by decide +kernel⟩

lemma withGoogle_valid (now : ℕ) : (withGoogle now).Valid Sample.sessionConfig samplePerson :=
  ⟨_, rfl, rfl⟩

/-- The devices of the list take turns, this often. -/
def turns (devices : List Device) (n : ℕ) : List (ℕ × AuthInput) :=
  (List.replicate n devices.zipIdx).flatten.map fun e =>
    (e.2, RefreshTokens.sampleInputs e.1.now 0)

lemma turns_supplied (devices : List Device) (n : ℕ) :
    ∀ e ∈ turns devices n, Supplied devices e := by
  intro e he d hd
  obtain ⟨⟨d', k⟩, hmem, rfl⟩ := List.mem_map.mp he
  obtain ⟨l, hl, hmem⟩ := List.mem_flatten.mp hmem
  obtain rfl := List.eq_of_mem_replicate hl
  rw [List.mem_zipIdx_iff_getElem?] at hmem
  obtain rfl := Option.some.inj (hmem.symm.trans hd)
  exact ⟨rfl, rfl⟩

/-- A password, Google in the same second, and the password a second later. -/
def threeDevices : List Device := [withPassword 0, withGoogle 0, withPassword 1]

/-- All three are signed in. -/
theorem three_sessions_independent : Independent Sample.sessionConfig threeDevices
    (interleave RefreshTokens.sampleDB.toAuthDB
      (threeDevices.map (·.call Sample.sessionConfig samplePerson)) (turns threeDevices 6)) := by
  refine (sessions_independent_iff Sample.sessionConfig Sample.sessionConfig_laws.toSigningLaws samplePerson _ samplePerson_ready
    threeDevices ?_ _ (turns_supplied _ 6) (by decide +kernel)).mpr ⟨by decide, ?_⟩
  · simp [threeDevices, withPassword_valid, withGoogle_valid]
  · intro d _ hsession
    simp [Device.HasSession, RefreshTokens.sampleDB] at hsession

/-- The password on two devices within one second. -/
def twoPasswords : List Device := [withPassword 0, withPassword 0]

/-- The second sign-in meets the token of the first one. -/
theorem second_device_refused :
    let x := interleave RefreshTokens.sampleDB.toAuthDB
      (twoPasswords.map (·.call Sample.sessionConfig samplePerson)) (turns twoPasswords 3)
    Ready samplePerson RefreshTokens.sampleDB.toAuthDB ∧
      (∀ d ∈ twoPasswords, d.Valid Sample.sessionConfig samplePerson) ∧
      (∀ e ∈ turns twoPasswords 3, Supplied twoPasswords e) ∧
      (∀ c ∈ x.2, c.running = false) ∧ Returned x 0 ∧ ¬ Returned x 1 ∧
      ¬ Independent Sample.sessionConfig twoPasswords x := by
  intro x
  have hone : ¬ Returned x 1 := by decide +kernel
  refine ⟨samplePerson_ready, by simp [twoPasswords, withPassword_valid], turns_supplied _ 3,
    by decide +kernel, by decide +kernel, hone, fun hind => ?_⟩
  obtain ⟨r, hr⟩ := hind.returned 1 (withPassword 0) rfl
  exact hone (returned_iff.mpr ⟨r, hr⟩)

end TsaBackend.SignInRaces
