import TsaBackend.AuthSteps
import TsaBackend.Phases
import TsaBackend.SessionTokens

/-!
Registrations of one user that are completed at the same time.

The check that the user is not verified is made outside of the transaction. What lets only one
call through is the verification, which the transaction deletes; a registration that has read
the user before stores a new one.
-/

namespace TsaBackend.CompletionRaces

open Call AuthSteps

variable {cfg : AuthConfig} {s t : AuthDB} {u id : Id} {dto : SignUpDto} {p q : Bool}
  {r : AuthRequest}

/-- The columns of a user are kept together, and so are those of a student. -/
structure OneRow (s : AuthDB) : Prop where
  account : ∀ u, u ∈ s.accounts ↔ u ∈ s.users
  residence : ∀ u, u ∈ s.residences ↔ u ∈ s.students

/-- The registration of the user is complete. -/
def Verified (s : AuthDB) (u : Id) : Prop := (s.accounts.lookup u).any (·.verified) = true

instance (s : AuthDB) (u : Id) : Decidable (Verified s u) := by
  unfold Verified; infer_instance

/-- The password and the profile of the user are those of the request. -/
structure CompletedBy (cfg : AuthConfig) (s : AuthDB) (u : Id) (dto : SignUpDto) : Prop where
  account : ∃ account salt, s.accounts.lookup u = some account ∧ account.verified = true ∧
    account.password = some (cfg.bcryptHash dto.password salt) ∧
    account.firstName = some dto.firstName ∧ account.lastName = some dto.lastName ∧
    ∀ phone, dto.phoneNumber = .val phone → account.phoneNumber = some phone
  student : (s.students.lookup u).map (·.dormitory) = some (some dto.dormitory)
  residence : s.residences.lookup u = some { building := some dto.building, room := some dto.room }

lemma CompletedBy.verified (h : CompletedBy cfg s u dto) : Verified s u := by
  obtain ⟨account, salt, haccount, hverified, -⟩ := h.account
  rw [Verified, haccount]
  exact hverified

lemma completeRegistration_ok {salt : ℕ}
    (h : s.completeRegistration u dto (cfg.bcryptHash dto.password salt) = .ok t) (hs : OneRow s) :
    u ∈ s.verificationEmails ∧ u ∉ t.verificationEmails ∧ OneRow t ∧ CompletedBy cfg t u dto := by
  obtain ⟨haccount, hstudent, hrow, rfl⟩ := AuthDB.completeRegistration_ok h
  obtain ⟨account, haccount⟩ := Table.mem_iff_lookup.mp haccount
  obtain ⟨student, hstudent'⟩ := Table.mem_iff_lookup.mp hstudent
  obtain ⟨residence, hresidence⟩ := Table.mem_iff_lookup.mp ((hs.residence u).mpr hstudent)
  refine ⟨hrow, by simp, ⟨fun v => ?_, fun v => ?_⟩, ⟨?_, ?_, ?_⟩⟩
  · simpa using hs.account v
  · simpa using hs.residence v
  · refine ⟨_, salt, by rw [Table.lookup_modify_self, haccount]; rfl, rfl, rfl, rfl, rfl, ?_⟩
    intro phone hphone
    simp [hphone, Arg.patch]
  · simp [hstudent']
  · simp [hresidence]

/-- The call registers, or completes the registration of this user and of nobody else. -/
def Registers (cfg : AuthConfig) (u : Id) : AuthRequest → Prop
  | .initiateRegistration _ _ => True
  | .verifyEmail _ _ => True
  | .completeRegistration dto => ∀ now v,
      cfg.jwtVerify dto.token now = some (.registration v) → v = u
  | _ => False

/-- A step of such a call, before and after it has committed a completion. -/
inductive RegisterStep (cfg : AuthConfig) (u : Id) :
    AuthRequest → Bool → AuthDB → AuthDB → Bool → Prop
  | keep {r : AuthRequest} {p : Bool} {s : AuthDB} : RegisterStep cfg u r p s s p
  | register {email : String} {mobile p : Bool} {s t : AuthDB}
    (h : AuthWrites cfg s (.initiateRegistration email mobile) t) :
    RegisterStep cfg u (.initiateRegistration email mobile) p s t p
  | commit {dto : SignUpDto} {salt : ℕ} {s t : AuthDB}
    (h : s.completeRegistration u dto (cfg.bcryptHash dto.password salt) = .ok t) :
    RegisterStep cfg u (.completeRegistration dto) false s t true

/-- A completion has committed when it returns. -/
def Ended (r : AuthRequest) (p : Bool) : Prop := (∃ dto, r = .completeRegistration dto) → p = true

/-- A completion finds its user, checks that it is not verified, and commits. -/
lemma completeRegistration_follows
    (hu : ∀ now v, cfg.jwtVerify dto.token now = some (.registration v) → v = u) :
    (completeRegistration cfg dto).Follows (fun _ _ _ => True)
      (RegisterStep cfg u (.completeRegistration dto)) (fun p _ => p = true) (fun _ _ => True)
      false := by
  unfold completeRegistration
  refine Follows.bind (follows_atomic (fun i s userId t _ h => ?_) fun _ _ _ _ _ =>
    ⟨false, .keep, trivial⟩)
  obtain ⟨rfl, rfl⟩ : userId = u ∧ t = s := by
    unfold registrationUser at h
    rcases hverify : cfg.jwtVerify dto.token i.now with _ | ⟨_, _, _⟩ | v
    · simp [hverify, Except.map] at h
    · simp [hverify, Except.map] at h
    · simp only [hverify, Except.map, Except.ok.injEq, Prod.mk.injEq] at h
      exact ⟨h.1 ▸ hu _ _ hverify, h.2.symm⟩
  refine ⟨false, .keep, follows_read fun i s _ => ⟨false, .keep, ?_⟩⟩
  refine follows_throwIf (fun _ => trivial) fun _ => ?_
  refine Follows.bind (follows_atomic (fun i s _ t _ h => ?_) fun _ _ _ _ _ =>
    ⟨false, .keep, trivial⟩)
  exact ⟨true, .commit (of_map_ok h), rfl⟩

/-- **A call completes a registration only by its transaction.** -/
theorem register_follows (hr : Registers cfg u r) :
    (r.call cfg).Follows (fun _ _ _ => True) (RegisterStep cfg u r) (fun p _ => Ended r p)
      (fun _ _ => True) false := by
  cases r with
  | initiateRegistration email mobile =>
    have hauth : OfAuth (.initiateRegistration email mobile) := trivial
    have hsteps : (AuthRequest.call cfg (.initiateRegistration email mobile)).Steps fun s t =>
        RegisterStep cfg u (.initiateRegistration email mobile) false s t false :=
      (auth_steps hauth).mono fun _ _ => .register
    refine hsteps.follows (fun _ h => ?_) fun _ => trivial
    obtain ⟨dto, h⟩ := h
    cases h
  | verifyEmail token mobile =>
    have hauth : OfAuth (.verifyEmail token mobile) := trivial
    have hsteps : (AuthRequest.call cfg (.verifyEmail token mobile)).Steps fun s t =>
        RegisterStep cfg u (.verifyEmail token mobile) false s t false :=
      (auth_steps hauth).mono fun s t h => by
        cases h with
        | none => exact .keep
        | session hr => rcases hr with ⟨_, _, _, h⟩ | ⟨_, _, h⟩ <;> cases h
    refine hsteps.follows (fun _ h => ?_) fun _ => trivial
    obtain ⟨dto, h⟩ := h
    cases h
  | completeRegistration dto =>
    refine Follows.bind ((completeRegistration_follows hr).mono (fun _ _ _ h => h)
      (fun _ _ _ _ h => h) (fun p _ hp => ?_) fun _ _ h => h)
    exact fun _ => hp
  | _ => exact hr.elim

/-- What a registration leaves of a user that exists. -/
structure SameUser (u : Id) (s t : AuthDB) : Prop where
  account : t.accounts.lookup u = s.accounts.lookup u
  student : t.students.lookup u = s.students.lookup u
  residence : t.residences.lookup u = s.residences.lookup u

lemma CompletedBy.same (h : CompletedBy cfg s u dto) (hst : SameUser u s t) :
    CompletedBy cfg t u dto :=
  ⟨by rw [hst.account]; exact h.account, by rw [hst.student]; exact h.student,
    by rw [hst.residence]; exact h.residence⟩

/-- A registration changes no user but the one it creates, who is not verified. -/
lemma register_same {email : String} {mobile : Bool} (hs : OneRow s)
    (h : AuthWrites cfg s (.initiateRegistration email mobile) t) :
    OneRow t ∧ (SameUser u s t ∨ ¬ Verified s u ∧ ¬ Verified t u) := by
  cases h with
  | none => exact ⟨hs, .inl ⟨rfl, rfl, rfl⟩⟩
  | resend h =>
    obtain ⟨_, rfl⟩ := AuthDB.upsertVerificationEmail_ok h
    exact ⟨⟨hs.account, hs.residence⟩, .inl ⟨rfl, rfl, rfl⟩⟩
  | @register _ _ id _ s₁ _ h ht =>
    obtain ⟨hid, -, rfl⟩ := AuthDB.createUser_ok h
    obtain ⟨-, -, rfl⟩ := AuthDB.createVerificationEmail_ok ht
    refine ⟨⟨fun v => ?_, fun v => ?_⟩, ?_⟩
    · simp [AList.mem_insert, hs.account v]
    · simp [AList.mem_insert, hs.residence v]
    · by_cases hu : u = id
      · subst hu
        have hnone : s.accounts.lookup u = none :=
          AList.lookup_eq_none.mpr fun hmem => hid ((hs.account u).mp hmem)
        exact .inr ⟨by simp [Verified, hnone], by simp [Verified, newAccount]⟩
      · exact .inl ⟨AList.lookup_insert_ne hu, AList.lookup_insert_ne hu,
          AList.lookup_insert_ne hu⟩
  | queue => exact ⟨⟨hs.account, hs.residence⟩, .inl ⟨rfl, rfl, rfl⟩⟩
  | session hr => rcases hr with ⟨_, _, _, h⟩ | ⟨_, _, h⟩ <;> cases h

/-! ### Completions that race -/

variable {reqs : List AuthRequest} {ph : ℕ → Bool}

/-- The calls of these requests. -/
def registrations (cfg : AuthConfig) (reqs : List AuthRequest) : List (AuthCall Unit) :=
  reqs.map (·.call cfg)

/-- A step that stores a verification of the user finds the user unverified. -/
def StoresUnverified (u : Id) (x : AuthDB × List (AuthCall Unit)) (e : ℕ × AuthInput) : Prop :=
  u ∈ (poolStep x e).1.verificationEmails → u ∉ x.1.verificationEmails → ¬ Verified x.1 u

instance (u : Id) (x : AuthDB × List (AuthCall Unit)) (e : ℕ × AuthInput) :
    Decidable (StoresUnverified u x e) := by
  unfold StoresUnverified; infer_instance

/-- The calls of a pool are before or after their transactions. -/
abbrev Registering (cfg : AuthConfig) (u : Id) (reqs : List AuthRequest)
    (cs : List (AuthCall Unit)) (ph : ℕ → Bool) : Prop :=
  Phases (fun _ _ _ => True)
    (fun k p s t q => ∃ r, reqs[k]? = some r ∧ RegisterStep cfg u r p s t q)
    (fun k p _ => ∀ r, reqs[k]? = some r → Ended r p) (fun _ _ _ => True) cs ph

lemma registering_init (hreqs : ∀ r ∈ reqs, Registers cfg u r) :
    Registering cfg u reqs (registrations cfg reqs) fun _ => false := by
  intro k c hc
  rw [registrations, List.getElem?_map] at hc
  obtain ⟨r, hr, rfl⟩ := Option.map_eq_some_iff.mp hc
  have hmem : r ∈ reqs := List.mem_of_getElem? hr
  refine (register_follows (hreqs r hmem)).mono (fun _ _ _ h => h) (fun p s t q h => ⟨r, hr, h⟩)
    (fun p _ hp r' hr' => ?_) fun _ _ h => h
  obtain rfl := Option.some.inj (hr.symm.trans hr')
  exact hp

/-- Nobody has completed the registration, or one call has and the user is as it asked. -/
structure Held (cfg : AuthConfig) (u : Id) (reqs : List AuthRequest) (ph : ℕ → Bool)
    (s : AuthDB) : Prop where
  row : OneRow s
  spent : Verified s u → u ∉ s.verificationEmails
  winner : (∀ k, ph k = false) ∨ ∃ k dto, reqs[k]? = some (.completeRegistration dto) ∧
    (∀ j, ph j = true ↔ j = k) ∧ CompletedBy cfg s u dto

lemma Held.step {k : ℕ} (h : Held cfg u reqs ph s) (hr : reqs[k]? = some r) (hk : ph k = p)
    (hstep : RegisterStep cfg u r p s t q)
    (hstores : u ∈ t.verificationEmails → u ∉ s.verificationEmails → ¬ Verified s u) :
    Held cfg u reqs (Function.update ph k q) t := by
  cases hstep with
  | keep => rwa [← hk, Function.update_eq_self]
  | register hw =>
    rw [← hk, Function.update_eq_self]
    obtain ⟨hrow, hsame | ⟨hs, ht⟩⟩ := register_same (u := u) h.row hw
    · have hverified : Verified t u ↔ Verified s u := by rw [Verified, hsame.account, Verified]
      refine ⟨hrow, fun hv hmem => ?_, h.winner.imp_right fun hheld => ?_⟩
      · have hvs := hverified.mp hv
        exact hstores hmem (h.spent hvs) hvs
      · obtain ⟨j, dto, hj, hph, hcompleted⟩ := hheld
        exact ⟨j, dto, hj, hph, hcompleted.same hsame⟩
    · refine ⟨hrow, fun hv => absurd hv ht, h.winner.imp_right fun hheld => ?_⟩
      obtain ⟨j, dto, -, -, hcompleted⟩ := hheld
      exact absurd hcompleted.verified hs
  | @commit dto salt _ _ hok =>
    obtain ⟨hmem, hgone, hrow, hcompleted⟩ := completeRegistration_ok hok h.row
    -- a completed registration has no verification left
    have hnone : ∀ j, ph j = false := by
      rcases h.winner with hnone | ⟨j, dto', -, -, hcompleted'⟩
      · exact hnone
      · exact absurd hmem (h.spent hcompleted'.verified)
    refine ⟨hrow, fun _ => hgone, .inr ⟨k, dto, hr, fun j => ?_, hcompleted⟩⟩
    by_cases hjk : j = k
    · simp [hjk]
    · simp [hjk, hnone j]

/-- The calls of a pool and the user they register. -/
def RaceInv (cfg : AuthConfig) (u : Id) (reqs : List AuthRequest)
    (x : AuthDB × List (AuthCall Unit)) : Prop :=
  ∃ ph, Registering cfg u reqs x.2 ph ∧ Held cfg u reqs ph x.1

lemma RaceInv.step {x : AuthDB × List (AuthCall Unit)} {e : ℕ × AuthInput}
    (h : RaceInv cfg u reqs x) (he : StoresUnverified u x e) :
    RaceInv cfg u reqs (poolStep x e) := by
  obtain ⟨ph, hphases, hheld⟩ := h
  rcases hphases.step fun _ => trivial with ⟨-, hstay⟩ | ⟨-, q, ⟨r, hr, hstep⟩, hphases'⟩
  · rw [hstay]
    exact ⟨ph, hphases, hheld⟩
  · exact ⟨_, hphases', hheld.step hr rfl hstep he⟩

/-- **When a registration completes at most once**: in any interleaving of registrations of any
address, verifications, and completions for one user, in which no verification of the user is
stored once the user is verified, at most one completion returns, and the password and the
profile are then those of its request. -/
theorem registration_completes_once (cfg : AuthConfig) (s : AuthDB) (u : Id) (hs : OneRow s)
    (hspent : Verified s u → u ∉ s.verificationEmails) (reqs : List AuthRequest)
    (hreqs : ∀ r ∈ reqs, Registers cfg u r) (sched : List (ℕ × AuthInput))
    (h : Machine.Along poolStep (StoresUnverified u) (s, registrations cfg reqs) sched) :
    let x := interleave s (registrations cfg reqs) sched
    (∀ j k dto dto', reqs[j]? = some (.completeRegistration dto) →
      reqs[k]? = some (.completeRegistration dto') → Returned x j → Returned x k → j = k) ∧
    ∀ k dto, reqs[k]? = some (.completeRegistration dto) → Returned x k →
      CompletedBy cfg x.1 u dto := by
  intro x
  have hinit : RaceInv cfg u reqs (s, registrations cfg reqs) :=
    ⟨fun _ => false, registering_init hreqs, hs, hspent, .inl fun _ => rfl⟩
  obtain ⟨ph, hphases, hheld⟩ : RaceInv cfg u reqs x :=
    Machine.run_inv _ (fun _ _ => RaceInv.step) hinit h
  have hdone : ∀ k dto, reqs[k]? = some (.completeRegistration dto) → Returned x k →
      ph k = true := by
    intro k dto hk hreturned
    obtain ⟨a, ha⟩ := returned_iff.mp hreturned
    exact hphases k _ ha _ hk ⟨dto, rfl⟩
  rcases hheld.winner with hnone | ⟨k₀, dto₀, hk₀, hph, hcompleted⟩
  · have hfalse : ∀ k dto, reqs[k]? = some (.completeRegistration dto) → ¬ Returned x k := by
      intro k dto hk hreturned
      have htrue := hdone k dto hk hreturned
      rw [hnone k] at htrue
      cases htrue
    exact ⟨fun j _ dto _ hj _ hret => absurd hret (hfalse j dto hj),
      fun k dto hk hret => absurd hret (hfalse k dto hk)⟩
  · constructor
    · intro j k dto dto' hj hk hretj hretk
      rw [(hph j).mp (hdone j dto hj hretj), (hph k).mp (hdone k dto' hk hretk)]
    · intro k dto hk hret
      obtain rfl := (hph k).mp (hdone k dto hk hret)
      rw [hk₀, Option.some.injEq] at hk
      cases hk
      exact hcompleted

/-- No rows. -/
def emptyDB : AuthDB where
  users := ∅
  students := ∅
  staffs := []
  orders := ∅
  orderStatusHistory := []
  deliveries := ∅
  deliveryStatusHistory := []
  ordersOnDeliveries := ∅
  payments := ∅
  dormitoryRegulations := ∅
  accounts := ∅
  residences := ∅
  verificationEmails := ∅
  refreshTokens := ∅
  authProviders := ∅
  emailQueue := []

lemma emptyDB_row : OneRow emptyDB := ⟨fun _ => Iff.rfl, fun _ => Iff.rfl⟩

/-- New users get the id 5. -/
def sampleInput : AuthInput :=
  { toInput := { Sample.inputs 5 0 with now := 0 }, millis := 0, uuid := "t" }

/-- Call `k` takes `n` steps. -/
def turns (k n : ℕ) : List (ℕ × AuthInput) := List.replicate n (k, sampleInput)

/-- A completion for the user 5 with this password. -/
def completion (password : String) : SignUpDto where
  firstName := "A"
  lastName := "B"
  phoneNumber := .undefined
  password
  dormitory := .a
  building := "A1"
  room := "101"
  token := Sample.sessionConfig.jwtSign .roleFirst (.registration 5) 0 defaultExpiresIn

/-- A registration, another one of the same address, and two completions. -/
def sampleRequests : List AuthRequest :=
  [.initiateRegistration "n@x" false, .initiateRegistration "n@x" false,
    .completeRegistration (completion "first"), .completeRegistration (completion "second")]

lemma sampleRequests_register :
    ∀ r ∈ sampleRequests, Registers Sample.sessionConfig.toAuthConfig 5 r := by
  have hcompletion : ∀ password now v, Sample.sessionConfig.jwtVerify (completion password).token
      now = some (.registration v) → v = 5 := by
    intro password now v h
    have hpayload := (Sample.sessionConfig_laws.payload_of_verify h).1
    cases hpayload
    rfl
  intro r hr
  simp only [sampleRequests, List.mem_cons, List.not_mem_nil, or_false] at hr
  rcases hr with rfl | rfl | rfl | rfl
  · trivial
  · trivial
  · exact hcompletion "first"
  · exact hcompletion "second"

/-- One call after the other. -/
theorem registration_completes_once_serial :
    let x := interleave emptyDB (registrations Sample.sessionConfig.toAuthConfig sampleRequests)
      (turns 0 3 ++ turns 1 3 ++ turns 2 3 ++ turns 3 3)
    Returned x 2 ∧ ¬ Returned x 3 ∧
      CompletedBy Sample.sessionConfig.toAuthConfig x.1 5 (completion "first") := by
  intro x
  have honce := registration_completes_once Sample.sessionConfig.toAuthConfig emptyDB 5
    emptyDB_row (fun h => by cases h) sampleRequests sampleRequests_register
    (turns 0 3 ++ turns 1 3 ++ turns 2 3 ++ turns 3 3) (by decide +kernel)
  have htwo : Returned x 2 := by decide +kernel
  refine ⟨htwo, fun hthree => ?_, honce.2 2 _ rfl htwo⟩
  have heq := honce.1 2 3 _ _ rfl rfl htwo hthree
  cases heq

/-- The second registration has read the user before the first completion commits, and stores a
new verification after it. Both completions return, and the password is the second one's. -/
theorem two_completions_return :
    OneRow emptyDB ∧
      (∀ r ∈ sampleRequests, Registers Sample.sessionConfig.toAuthConfig 5 r) ∧
      let x := interleave emptyDB (registrations Sample.sessionConfig.toAuthConfig sampleRequests)
        (turns 0 3 ++ turns 1 1 ++ turns 2 2 ++ turns 3 2 ++ turns 2 1 ++ turns 1 2 ++ turns 3 1)
      Returned x 2 ∧ Returned x 3 ∧
        (x.1.accounts.lookup 5).map (·.password) = some (some "second") :=
  ⟨emptyDB_row, sampleRequests_register, by decide +kernel, by decide +kernel, by decide +kernel⟩

end TsaBackend.CompletionRaces
