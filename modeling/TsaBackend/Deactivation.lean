import TsaBackend.AccountWrites
import TsaBackend.AuthSteps

/-!
Deactivated accounts, over runs of requests of all services.

A charged cancellation that reaches the threshold sets the status of its student whatever it
was, and so lifts a deactivation; nothing else does but a change of that account's status.
-/

namespace TsaBackend.Deactivation

open Call OrderEffects RequestSteps StudentCalls AccountWrites AuthSteps

variable {cfg : Config} {s s₁ t : DB} {u v : Id} {o : Order} {status : UserStatus}

/-- The account is deactivated. -/
def Deactivated (u : Id) (s : DB) : Prop :=
  (s.users.lookup u).map (·.status) = some .deactivated

instance (u : Id) (s : DB) : Decidable (Deactivated u s) := by
  unfold Deactivated; infer_instance

/-- The fault that would be charged to this student reaches the threshold. -/
def AtThreshold (cfg : Config) (s : DB) (u : Id) : Prop :=
  ∃ student dormitory, s.students.lookup u = some student ∧
    student.dormitory = some dormitory ∧ shouldBan (student.numberFault + 1)
      (bannedThreshold cfg (s.dormitoryRegulations.lookup dormitory)) = true

/-- The request is a charged cancellation of an order of this student, who is at the
threshold with it. -/
def Bans (cfg : Config) (s : DB) (u : Id) (r : Request) : Prop :=
  AtThreshold cfg s u ∧ ∃ o, Fines cfg s o r ∧ o.studentId = some u

lemma charged_iff (h : Charged cfg o s s₁) (hs : Deactivated u s) :
    Deactivated u s₁ ↔ ¬ (AtThreshold cfg s u ∧ o.studentId = some u) := by
  by_cases ho : o.studentId = some u
  · obtain ⟨u', student, d, hu', hst, hd, hok⟩ := h
    obtain rfl : u = u' := Option.some.inj (ho.symm.trans hu')
    have hat : AtThreshold cfg s u ↔ shouldBan (student.numberFault + 1)
        (bannedThreshold cfg (s.dormitoryRegulations.lookup d)) = true := by
      refine ⟨fun ⟨student', d', hst', hd', hban⟩ => ?_, fun hban => ⟨student, d, hst, hd, hban⟩⟩
      obtain rfl := Option.some.inj (hst.symm.trans hst')
      obtain rfl := Option.some.inj (hd.symm.trans hd')
      exact hban
    rw [hat, and_iff_left ho, chargeStudent_ok hok, Deactivated]
    obtain ⟨account, hu, hstatus⟩ := Option.map_eq_some_iff.mp hs
    split
    · next hban => simp [hban, hu]
    · next hban => simp [hban, hu, hstatus]
  · rw [Deactivated, (charged_other h ho).2]
    exact iff_of_true hs fun hban => ho hban.2

/-- **When a request leaves an account deactivated.** -/
lemma request_iff {r : Request} {ω : ℕ → Input} (hs : Deactivated u s) :
    Deactivated u ((r.call cfg).exec ω s).2 ↔ ¬ Bans cfg s u r := by
  by_cases h : ∃ o, Fines cfg s o r
  · obtain ⟨o, ho⟩ := h
    obtain ⟨s₁, hcharged, hsame⟩ := ho.ends ω
    have hbans : Bans cfg s u r ↔ AtThreshold cfg s u ∧ o.studentId = some u := by
      refine and_congr_right fun _ => ⟨fun ⟨o', ho', hu⟩ => ?_, fun hu => ⟨o, ho, hu⟩⟩
      rwa [← ho.unique ho']
    rw [hbans, ← charged_iff hcharged hs, Deactivated, hsame.users, Deactivated]
  · have hsame := unfined_ends (not_exists.mp h) ω
    rw [Deactivated, hsame.users]
    exact iff_of_true hs fun hban => h (hban.2.imp fun _ => And.left)

lemma updateUserStatus_deactivated {ω : ℕ → Input} (h : v = u → status = .deactivated)
    (hs : Deactivated u s) :
    Deactivated u (serveAccount cfg s (.updateUserStatus v status, ω)) := by
  have hends : Ends (updateUserStatus cfg v status) s (Deactivated u) := by
    refine (updateUserStatus_steps.preserves fun a b hw ha => ?_).exec hs
    rcases hw with rfl | ⟨numberFault, rfl⟩
    · exact ha
    by_cases hv : v = u
    · subst hv
      obtain ⟨account, hu, -⟩ := Option.map_eq_some_iff.mp ha
      simp [Deactivated, rated, hu, h rfl]
    · simpa [Deactivated, rated, Ne.symm hv] using ha
  exact ends_drop.mpr hends ω

section Auth

variable {cfg : AuthConfig} {s t : AuthDB} {r : AuthRequest}

/-- Users that exist keep their row. -/
def KeepsUsers (s t : AuthDB) : Prop :=
  ∀ u user, s.users.lookup u = some user → t.users.lookup u = some user

lemma keepsUsers_of_eq (h : t.users = s.users) : KeepsUsers s t := fun _ _ hu => by rw [h, hu]

lemma KeepsUsers.trans {s' : AuthDB} (h : KeepsUsers s s') (h' : KeepsUsers s' t) :
    KeepsUsers s t := fun u user hu => h' u user (h u user hu)

lemma keepsUsers_created {id : Id} {account : UserAccount} (h : s.createUser id account = .ok t) :
    KeepsUsers s t := by
  obtain ⟨hid, -, rfl⟩ := AuthDB.createUser_ok h
  intro u user hu
  have hne : u ≠ id := by
    rintro rfl
    exact hid (Table.mem_iff_lookup.mpr ⟨user, hu⟩)
  simpa [AList.lookup_insert_ne hne] using hu

/-- **No call of registration or sign-in writes a user that exists.** -/
theorem keepsUsers_writes (h : AuthWrites cfg s r t) : KeepsUsers s t := by
  cases h with
  | none => exact keepsUsers_of_eq rfl
  | resend h =>
    obtain ⟨_, rfl⟩ := AuthDB.upsertVerificationEmail_ok h
    exact keepsUsers_of_eq rfl
  | register h ht =>
    obtain ⟨-, -, rfl⟩ := AuthDB.createVerificationEmail_ok ht
    exact (keepsUsers_created h).trans (keepsUsers_of_eq rfl)
  | queue => exact keepsUsers_of_eq rfl
  | complete h =>
    obtain ⟨-, -, -, rfl⟩ := AuthDB.completeRegistration_ok h
    exact keepsUsers_of_eq rfl
  | create h => exact (keepsUsers_created h).trans (keepsUsers_of_eq rfl)
  | photo h =>
    obtain ⟨-, rfl⟩ := AuthDB.updateAccountRow_ok h
    exact keepsUsers_of_eq rfl
  | session _ h =>
    obtain ⟨-, -, rfl⟩ := AuthDB.createRefreshToken_ok h
    exact keepsUsers_of_eq rfl

lemma auth_deactivated {ω : ℕ → AuthInput} (hr : OfAuth r) (hs : Deactivated u s.toDB) :
    Deactivated u (serveAuth cfg s (r, ω)).toDB := by
  have hkept : ((r.call cfg).exec ω s).2.users.lookup u = s.users.lookup u := by
    obtain ⟨user, hu, -⟩ := Option.map_eq_some_iff.mp hs
    have hpres : (r.call cfg).Preserves (KeepsUsers s) :=
      (auth_steps hr).preserves fun a b hw ha => ha.trans (keepsUsers_writes hw)
    rw [hu]
    exact hpres.exec (keepsUsers_of_eq rfl) ω u user hu
  rw [Deactivated, serveAuth, hkept]
  exact hs

/-! ### Runs -/

/-- The call sets another status for this account. -/
def Lifts (u : Id) : AuthRequest → Prop
  | .other (.updateUserStatus v status) => v = u ∧ status ≠ .deactivated
  | _ => False

/-- The call bans this account, which is at the threshold, for a cancellation. -/
def BansAccount (cfg : AuthConfig) (u : Id) (s : AuthDB) : AuthRequest → Prop
  | .other (.request r) => Bans cfg.toConfig s.toDB u r
  | _ => False

lemma serve_other {r : AccountRequest} {ω : ℕ → AuthInput} :
    (serveAuth cfg s (.other r, ω)).toDB =
      serveAccount cfg.toConfig s.toDB (r, fun n => (ω n).toInput) := by
  rw [serveAuth, AuthRequest.call, exec_zoom]
  rfl

/-- **When a step leaves an account deactivated.** -/
lemma serve_iff {l : AuthRequest × (ℕ → AuthInput)} (hl : ¬ Lifts u l.1)
    (hs : Deactivated u s.toDB) :
    Deactivated u (serveAuth cfg s l).toDB ↔ ¬ BansAccount cfg u s l.1 := by
  obtain ⟨r, ω⟩ := l
  by_cases hr : OfAuth r
  · refine iff_of_true (auth_deactivated hr hs) ?_
    cases r with
    | other r => exact hr.elim
    | _ => exact id
  · cases r with
    | other r =>
      rw [serve_other]
      cases r with
      | request r => exact request_iff hs
      | updateUserStatus v status =>
        refine iff_of_true (updateUserStatus_deactivated (fun hv => ?_) hs) id
        exact not_not.mp fun hstatus => hl ⟨hv, hstatus⟩
    | _ => exact absurd trivial hr

end Auth

/-- **When only an administrator lifts a deactivation**: in a run of requests of all services
without a call that sets another status for the account, it is deactivated in every state
whose steps charge it with no cancellation at the threshold, and a step that does bans it. -/
theorem deactivated_until_lifted (cfg : AuthConfig) (s : AuthDB) (u : Id)
    (hs : Deactivated u s.toDB) (ls : List (AuthRequest × (ℕ → AuthInput)))
    (hls : ∀ l ∈ ls, ¬ Lifts u l.1) :
    (Machine.Along (serveAuth cfg) (fun s l => ¬ BansAccount cfg u s l.1) s ls →
      Deactivated u (Machine.run (serveAuth cfg) s ls).toDB) ∧
    (Machine.Along (serveAuth cfg) (fun s l => Deactivated u (serveAuth cfg s l).toDB) s ls ↔
      Machine.Along (serveAuth cfg) (fun s l => ¬ BansAccount cfg u s l.1) s ls) :=
  Machine.inv_along_iff (fun s : AuthDB => Deactivated u s.toDB) (fun _ _ h => h)
    (fun _ l hl hs => serve_iff (hls l hl) hs) hs

/-- Tokens and hashes are their contents. -/
def sampleConfig : AuthConfig where
  toConfig := Sample.config
  jwtSign order payload iat expiresIn := toString (repr (order, payload, iat, expiresIn))
  jwtVerify _ _ := none
  bcryptHash password _ := password
  bcryptCompare password hash := password = hash
  verifyIdToken _ _ := none
  appUrl := "app"
  mobileUrlCompleteSignup := "mobile"
  frontendUrlCompleteSignup := "web"

/-- An account with this address and the password `pw`. -/
def sampleAccount (email : String) : UserAccount :=
  { newAccount email with verified := true, password := some "pw" }

/-- The student who ordered is deactivated, with `n` faults. -/
def sampleDB (n : ℤ) : AuthDB where
  toDB := { Sample.dbWithOrder with
    users := Sample.dbWithOrder.users.modify 1 fun user => { user with status := .deactivated }
    students := Sample.dbWithOrder.students.modify 1 fun student =>
      { student with numberFault := n } }
  accounts := [(4, sampleAccount "d@x"), (3, sampleAccount "c@x"), (2, sampleAccount "b@x"),
    (1, sampleAccount "a@x")].foldl (fun t e => t.insert e.1 e.2) ∅
  residences := [(2, ⟨some "A1", some "102"⟩), (1, ⟨some "A1", some "101"⟩)].foldl
    (fun t e => t.insert e.1 e.2) ∅
  verificationEmails := ∅
  refreshTokens := ∅
  authProviders := ∅
  emailQueue := []

def sampleInputs (n : ℕ) : AuthInput :=
  { toInput := Sample.inputs 0 n, millis := 0, uuid := "t" }

/-- A cancellation in the student's name and a sign-in. -/
def cancelAndSignin : List (AuthRequest × (ℕ → AuthInput)) :=
  [(.other (.request (.updateStatus 10 cancelDto Sample.admin)), sampleInputs),
   (.signin "a@x" "pw" true, sampleInputs)]

lemma cancelAndSignin_lifts : ∀ l ∈ cancelAndSignin, ¬ Lifts 1 l.1 := by
  simp [cancelAndSignin, Lifts]

/-- With one fault the student stays below the threshold of three. -/
theorem deactivated_until_lifted_once :
    Deactivated 1 (Machine.run (serveAuth sampleConfig) (sampleDB 0) cancelAndSignin).toDB := by
  refine (deactivated_until_lifted sampleConfig (sampleDB 0) 1 (by decide) cancelAndSignin
    cancelAndSignin_lifts).1 ⟨?_, id, trivial⟩
  rintro ⟨⟨student, d, hst, hd, hban⟩, -⟩
  obtain rfl : (⟨some .a, 0⟩ : Student) = student := Option.some.inj hst
  obtain rfl : Dormitory.a = d := Option.some.inj hd
  exact absurd hban (by decide)

/-- The third fault makes a deactivated student a banned one, who is let in again. -/
theorem cancellation_lifts_deactivation :
    (∀ l ∈ cancelAndSignin, ¬ Lifts 1 l.1) ∧ Deactivated 1 (sampleDB 2).toDB ∧
      ¬ Deactivated 1 (Machine.run (serveAuth sampleConfig) (sampleDB 2) cancelAndSignin).toDB ∧
      (((validateUser sampleConfig "a@x" "pw").exec sampleInputs (sampleDB 2)).1.isOk = false) ∧
      ((validateUser sampleConfig "a@x" "pw").exec sampleInputs
        (Machine.run (serveAuth sampleConfig) (sampleDB 2) (cancelAndSignin.take 1))).1.isOk =
          true :=
  ⟨cancelAndSignin_lifts, by decide, by decide +kernel, by decide +kernel, by decide +kernel⟩

end TsaBackend.Deactivation
