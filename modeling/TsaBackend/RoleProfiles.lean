import TsaBackend.CompletionRaces
import TsaBackend.TokenRoles

/-!
The role of a user and the profile that goes with it.

A change of the role deletes the profile of the old one, writes the role and creates the profile
of the new one, each in a statement of its own that the database may not answer.
-/

namespace TsaBackend.RoleProfiles

open Call AuthSteps SessionSteps TokenRoles

variable {cfg : SessionConfig} {s t : ProfileDB} {u id : Id} {role : UserRole} {newRole : String}
  {l : SessionRequest × (ℕ → AuthInput)} {ω : ℕ → AuthInput}

/-- The user has the profile of this role. -/
def HasProfile (s : ProfileDB) : UserRole → Id → Prop
  | .student, u => u ∈ s.students
  | .staff, u => u ∈ s.staffs
  | .admin, u => u ∈ s.admins

/-- A profile is there just for the role of its user; the columns of a user are kept together. -/
structure RolesAgree (s : ProfileDB) : Prop where
  account : ∀ u, u ∈ s.accounts ↔ u ∈ s.users
  profile : ∀ role u, HasProfile s role u ↔ storedRole s u = some role

/-- **Every user has exactly one profile**, that of the role. -/
theorem RolesAgree.exactly_one {user : User} (h : RolesAgree s)
    (hu : s.users.lookup u = some user) :
    HasProfile s user.role u ∧ ∀ role, HasProfile s role u → role = user.role := by
  have hrole : storedRole s u = some user.role := by rw [storedRole, hu, Option.map_some]
  refine ⟨(h.profile _ _).mpr hrole, fun role hprofile => ?_⟩
  have hstored := (h.profile _ _).mp hprofile
  exact Option.some.inj (hstored.symm.trans hrole)

lemma storedRole_isSome : (storedRole s u).isSome = true ↔ u ∈ s.users := by
  rw [storedRole, Option.isSome_map, AList.lookup_isSome]

/-- The users and the profiles are the same. -/
structure SameRows (s t : ProfileDB) : Prop where
  account : ∀ u, u ∈ t.accounts ↔ u ∈ s.accounts
  role : ∀ u, storedRole t u = storedRole s u
  profile : ∀ role u, HasProfile t role u ↔ HasProfile s role u

lemma SameRows.mem_users (h : SameRows s t) : u ∈ t.users ↔ u ∈ s.users := by
  rw [← storedRole_isSome, h.role, storedRole_isSome]

lemma RolesAgree.same (hs : RolesAgree s) (h : SameRows s t) : RolesAgree t :=
  ⟨fun u => by rw [h.account, h.mem_users, hs.account],
    fun role u => by rw [h.profile, h.role, hs.profile]⟩

/-- Delete the profile of a role. -/
def removeProfile (s : ProfileDB) (id : Id) : UserRole → Except Exn ProfileDB
  | .student => s.deleteStudent id
  | .staff => s.deleteStaff id
  | .admin => s.deleteAdmin id

/-- Create the profile of a role. -/
def addProfile (s : ProfileDB) (id : Id) : UserRole → Except Exn ProfileDB
  | .student => s.createStudent id
  | .staff => s.createStaff id
  | .admin => s.createAdmin id

lemma removeProfile_ok (h : removeProfile s id role = .ok t) :
    t.accounts = s.accounts ∧ t.users = s.users ∧
      ∀ r u, HasProfile t r u ↔ HasProfile s r u ∧ ¬ (r = role ∧ u = id) := by
  cases role with
  | student =>
    obtain ⟨-, -, _, rfl⟩ := deleteStudent_ok h
    refine ⟨rfl, rfl, fun r u => ?_⟩
    cases r <;> simp [HasProfile, AList.mem_erase, and_comm]
  | staff =>
    obtain ⟨-, rfl⟩ := deleteStaff_ok h
    refine ⟨rfl, rfl, fun r u => ?_⟩
    cases r <;> simp [HasProfile]
  | admin =>
    obtain ⟨-, rfl⟩ := deleteAdmin_ok h
    refine ⟨rfl, rfl, fun r u => ?_⟩
    cases r <;> simp [HasProfile]

lemma addProfile_ok (h : addProfile s id role = .ok t) :
    t.accounts = s.accounts ∧ t.users = s.users ∧
      ∀ r u, HasProfile t r u ↔ HasProfile s r u ∨ r = role ∧ u = id := by
  cases role with
  | student =>
    obtain ⟨-, rfl⟩ := createStudent_ok h
    refine ⟨rfl, rfl, fun r u => ?_⟩
    cases r <;> simp [HasProfile, AList.mem_insert, or_comm]
  | staff =>
    obtain ⟨-, rfl⟩ := createStaff_ok h
    refine ⟨rfl, rfl, fun r u => ?_⟩
    cases r <;> simp [HasProfile, or_comm]
  | admin =>
    obtain ⟨-, rfl⟩ := createAdmin_ok h
    refine ⟨rfl, rfl, fun r u => ?_⟩
    cases r <;> simp [HasProfile, or_comm]

/-- When the old profile can be deleted: reports keep their student. -/
lemma removeProfile_isOk (h : HasProfile s role id) : (∃ t, removeProfile s id role = .ok t) ↔
    (role = .student → s.reports.any (·.studentId = id) = false) := by
  cases role with
  | student =>
    change (∃ t, s.deleteStudent id = .ok t) ↔ _
    have hid : id ∈ s.students := h
    unfold ProfileDB.deleteStudent
    rw [if_neg (not_not.mpr hid)]
    split
    · next hreports => simp [hreports]
    · next hreports => simp [Bool.eq_false_iff.mpr hreports]
  | staff =>
    refine iff_of_true ⟨_, if_neg (not_not.mpr h)⟩ fun hrole => by cases hrole
  | admin =>
    refine iff_of_true ⟨_, if_neg (not_not.mpr h)⟩ fun hrole => by cases hrole

lemma addProfile_isOk (hid : id ∈ s.users) (h : ∀ r, ¬ HasProfile s r id) :
    ∃ t, addProfile s id role = .ok t := by
  cases role with
  | student => exact ⟨_, (if_neg (not_not.mpr hid)).trans (if_neg (h .student))⟩
  | staff => exact ⟨_, (if_neg (not_not.mpr hid)).trans (if_neg (h .staff))⟩
  | admin => exact ⟨_, (if_neg (not_not.mpr hid)).trans (if_neg (h .admin))⟩

/-! ### Users without a profile, and changes of a role -/

/-- The user has no profile, and the others have theirs. -/
structure Bare (id : Id) (s : ProfileDB) : Prop where
  account : ∀ u, u ∈ s.accounts ↔ u ∈ s.users
  user : id ∈ s.users
  profile : ∀ role u, HasProfile s role u ↔ u ≠ id ∧ storedRole s u = some role

lemma Bare.not_agree (h : Bare id s) : ¬ RolesAgree s := by
  intro hs
  obtain ⟨role, hrole⟩ := Option.isSome_iff_exists.mp (storedRole_isSome.mpr h.user)
  exact ((h.profile role id).mp ((hs.profile role id).mpr hrole)).1 rfl

lemma bare_removed (hs : RolesAgree s) (hrole : storedRole s id = some role)
    (h : removeProfile s id role = .ok t) : Bare id t := by
  obtain ⟨haccounts, husers, hprofile⟩ := removeProfile_ok h
  have hstored : ∀ u, storedRole t u = storedRole s u := fun u => by
    rw [storedRole, husers, storedRole]
  refine ⟨fun u => by rw [haccounts, husers, hs.account], ?_, fun r u => ?_⟩
  · rw [husers]
    exact storedRole_isSome.mp (by rw [hrole]; rfl)
  · rw [hprofile, hs.profile, hstored, and_comm]
    refine and_congr_left fun hr => ?_
    constructor
    · rintro hne rfl
      exact hne ⟨Option.some.inj (hr.symm.trans hrole), rfl⟩
    · exact fun hne heq => hne heq.2

lemma bare_updated {user : User × UserAccount} (h : Bare id s)
    (ht : s.updateRole id newRole = .ok (user, t)) :
    Bare id t ∧ storedRole t id = parseRole newRole := by
  obtain ⟨role, hparse, -, rfl⟩ := updateRole_ok ht
  obtain ⟨old, hold⟩ := Table.mem_iff_lookup.mp h.user
  have hprofile : ∀ r u, HasProfile { s with
      users := s.users.modify id fun user => { user with role } } r u ↔ HasProfile s r u := by
    intro r u
    cases r <;> rfl
  refine ⟨⟨fun u => ?_, ?_, fun r u => ?_⟩, ?_⟩
  · simpa using h.account u
  · simpa using h.user
  · rw [hprofile, h.profile]
    refine and_congr_right fun hne => ?_
    rw [storedRole, storedRole, Table.lookup_modify_ne _ _ hne]
  · simp [storedRole, hold, hparse]

lemma agree_added (h : Bare id s) (hrole : storedRole s id = some role)
    (ht : addProfile s id role = .ok t) : RolesAgree t := by
  obtain ⟨haccounts, husers, hprofile⟩ := addProfile_ok ht
  have hstored : ∀ u, storedRole t u = storedRole s u := fun u => by
    rw [storedRole, husers, storedRole]
  refine ⟨fun u => by rw [haccounts, husers, h.account], fun r u => ?_⟩
  rw [hprofile, h.profile, hstored]
  by_cases hu : u = id
  · subst hu
    simp [hrole, eq_comm]
  · simp [hu]

/-- The statement of a user that exists succeeds for a role that does. -/
lemma updateRole_isOk (h : Bare id s) (hparse : parseRole newRole = some role) :
    ∃ user t, s.updateRole id newRole = .ok (user, t) := by
  obtain ⟨user, huser⟩ := Table.mem_iff_lookup.mp h.user
  obtain ⟨account, haccount⟩ := Table.mem_iff_lookup.mp ((h.account id).mpr h.user)
  unfold ProfileDB.updateRole AuthDB.findUser
  simp [hparse, huser, haccount]

lemma createProfile_eq (hparse : parseRole newRole = some role) :
    createProfile id newRole = statement fun s => (addProfile s id role).map fun s => ((), s) := by
  unfold parseRole at hparse
  split at hparse
  · cases hparse
    rfl
  · cases hparse
    rfl
  · cases hparse
    rfl
  · cases hparse

lemma promote_agree_iff (h : Bare id s) :
    RolesAgree ((do
      let updatedUser ← statement fun s => s.updateRole id newRole
      createProfile id newRole
      return updatedUser : ProfileCall (User × UserAccount)).exec ω s).2 ↔
    (parseRole newRole).isSome = true ∧ (ω 0).ok = true ∧ (ω 1).ok = true := by
  rw [statement, exec_answered_bind]
  by_cases h0 : (ω 0).ok = true
  swap
  · rw [if_neg h0]
    exact iff_of_false h.not_agree fun hk => h0 hk.2.1
  rw [if_pos h0]
  rcases hparse : parseRole newRole with _ | role
  · have hfail : s.updateRole id newRole = .error (.prisma .validation) := by
      unfold ProfileDB.updateRole
      rw [hparse]
    rw [hfail]
    exact iff_of_false h.not_agree fun hk => by cases hk.1
  obtain ⟨user, t, ht⟩ := updateRole_isOk h hparse
  obtain ⟨hbare, hrole⟩ := bare_updated h ht
  rw [hparse] at hrole
  rw [ht, createProfile_eq hparse]
  dsimp only
  rw [statement, exec_answered_bind]
  by_cases h1 : (ω 1).ok = true
  swap
  · rw [if_neg h1]
    exact iff_of_false hbare.not_agree fun hk => h1 hk.2.2
  have hnone : ∀ r, ¬ HasProfile t r id := fun r hr => ((hbare.profile r id).mp hr).1 rfl
  obtain ⟨t', ht'⟩ : ∃ t', addProfile t id role = .ok t' := addProfile_isOk hbare.user hnone
  rw [if_pos h1, ht']
  exact iff_of_true (agree_added hbare hrole ht') ⟨rfl, h0, h1⟩

/-- The old profile is deleted. -/
def Removes (s : ProfileDB) (id : Id) (ω : ℕ → AuthInput) : Prop :=
  (ω 0).ok = true ∧ (ω 1).ok = true ∧ ∃ role, storedRole s id = some role ∧
    (role = .student → s.reports.any (·.studentId = id) = false)

/-- A change of a role that deletes the old profile names a role, and the database answers its
last two statements. -/
def KeepsProfiles (s : ProfileDB) : SessionRequest × (ℕ → AuthInput) → Prop
  | (.updateUserRole id newRole, ω) => Removes s id ω →
      (parseRole newRole).isSome = true ∧ (ω 2).ok = true ∧ (ω 3).ok = true
  | _ => True

lemma deleteProfile_eq {student staff admin : Bool} (h : HasProfile s role id)
    (hstudent : student = decide (id ∈ s.students)) (hstaff : staff = decide (id ∈ s.staffs))
    (hadmin : admin = decide (id ∈ s.admins)) : deleteProfile id role student staff admin =
      statement fun s => (removeProfile s id role).map fun s => ((), s) := by
  cases role with
  | student =>
    have hmem : student = true := hstudent.trans (decide_eq_true h)
    rw [hmem]
    rfl
  | staff =>
    have hmem : staff = true := hstaff.trans (decide_eq_true h)
    rw [hmem]
    rfl
  | admin =>
    have hmem : admin = true := hadmin.trans (decide_eq_true h)
    rw [hmem]
    rfl

/-- **When a change of a role keeps the profiles.** -/
theorem updateUserRole_agree_iff (hs : RolesAgree s) :
    RolesAgree ((updateUserRole id newRole).exec ω s).2 ↔
      KeepsProfiles s (.updateUserRole id newRole, ω) := by
  unfold updateUserRole
  rw [statement, exec_answered_bind]
  by_cases h0 : (ω 0).ok = true
  swap
  · rw [if_neg h0]
    exact iff_of_true hs fun hremoves => absurd hremoves.1 h0
  rw [if_pos h0]
  rcases hu : s.users.lookup id with _ | user
  · refine iff_of_true hs fun hremoves => ?_
    obtain ⟨role, hrole, -⟩ := hremoves.2.2
    simp [storedRole, hu] at hrole
  have hrole : storedRole s id = some user.role := by rw [storedRole, hu, Option.map_some]
  have hprofile : HasProfile s user.role id := (hs.profile _ _).mpr hrole
  simp only [Option.map_some]
  rw [deleteProfile_eq hprofile rfl rfl rfl, statement, exec_answered_bind]
  by_cases h1 : (ω 1).ok = true
  swap
  · rw [if_neg h1]
    exact iff_of_true hs fun hremoves => absurd hremoves.2.1 h1
  rw [if_pos h1]
  rcases hremove : removeProfile s id user.role with e | t
  · refine iff_of_true hs fun hremoves => ?_
    obtain ⟨role, hrole', hreports⟩ := hremoves.2.2
    obtain rfl := Option.some.inj (hrole'.symm.trans hrole)
    obtain ⟨t, ht⟩ := (removeProfile_isOk hprofile).mpr hreports
    rw [hremove] at ht
    cases ht
  · have hremoves : Removes s id ω :=
      ⟨h0, h1, user.role, hrole, (removeProfile_isOk hprofile).mp ⟨t, hremove⟩⟩
    refine (promote_agree_iff (bare_removed hs hrole hremove)).trans ?_
    exact ⟨fun hk _ => hk, fun hk => hk hremoves⟩

/-! ### The other requests -/

lemma agree_created {account : UserAccount} {t : AuthDB} (hs : RolesAgree s)
    (h : s.toAuthDB.createUser id account = .ok t) : RolesAgree { s with toAuthDB := t } := by
  obtain ⟨hid, -, rfl⟩ := AuthDB.createUser_ok h
  have hnone : storedRole s id = none := by
    rw [storedRole, AList.lookup_eq_none.mpr hid, Option.map_none]
  refine ⟨fun u => by simp [AList.mem_insert, hs.account u], fun role u => ?_⟩
  have hold := hs.profile role u
  by_cases hu : u = id
  · subst hu
    rw [hnone] at hold
    cases role with
    | student => simp [HasProfile, storedRole]
    | staff => simpa [HasProfile, storedRole] using hold
    | admin => simpa [HasProfile, storedRole] using hold
  · have hrole : storedRole { s with
        users := s.users.insert id ⟨.student, .available⟩ } u = storedRole s u := by
      rw [storedRole, storedRole, AList.lookup_insert_ne hu]
    refine Iff.trans ?_ (hold.trans (by rw [← hrole]; rfl))
    cases role with
    | student => simp [HasProfile, AList.mem_insert, hu]
    | staff => rfl
    | admin => rfl

/-- **Registration and sign-in keep the profiles.** -/
lemma agree_writes {cfg : AuthConfig} {r : AuthRequest} {t : AuthDB} (hs : RolesAgree s)
    (h : AuthWrites cfg s.toAuthDB r t) : RolesAgree { s with toAuthDB := t } := by
  have hkept : ∀ {t : AuthDB}, t.users = s.users → (∀ u, u ∈ t.accounts ↔ u ∈ s.accounts) →
      (∀ u, u ∈ t.students ↔ u ∈ s.students) → t.staffs = s.staffs →
      RolesAgree { s with toAuthDB := t } := by
    intro t husers haccounts hstudents hstaffs
    refine hs.same ⟨haccounts, fun u => by rw [storedRole, husers, storedRole], fun role u => ?_⟩
    cases role with
    | student => exact hstudents u
    | staff => rw [HasProfile, hstaffs, HasProfile]
    | admin => rfl
  cases h with
  | none => exact hs
  | resend h =>
    obtain ⟨_, rfl⟩ := AuthDB.upsertVerificationEmail_ok h
    exact hkept rfl (fun _ => Iff.rfl) (fun _ => Iff.rfl) rfl
  | register h ht =>
    obtain ⟨-, -, rfl⟩ := AuthDB.createVerificationEmail_ok ht
    exact (agree_created hs h).same ⟨fun _ => Iff.rfl, fun _ => rfl, fun role _ => by
      cases role <;> rfl⟩
  | queue => exact hkept rfl (fun _ => Iff.rfl) (fun _ => Iff.rfl) rfl
  | complete h =>
    obtain ⟨-, -, -, rfl⟩ := AuthDB.completeRegistration_ok h
    exact hkept rfl (fun _ => by simp) (fun _ => by simp) rfl
  | create h =>
    exact (agree_created hs h).same ⟨fun _ => Iff.rfl, fun _ => rfl, fun role _ => by
      cases role <;> rfl⟩
  | photo h =>
    obtain ⟨-, rfl⟩ := AuthDB.updateAccountRow_ok h
    exact hkept rfl (fun _ => by simp) (fun _ => Iff.rfl) rfl
  | session _ h =>
    obtain ⟨-, -, rfl⟩ := AuthDB.createRefreshToken_ok h
    exact hkept rfl (fun _ => Iff.rfl) (fun _ => Iff.rfl) rfl

lemma agree_auth {a : AuthRequest} (hs : RolesAgree s) :
    RolesAgree { s with toAuthDB := serveAuth cfg.toAuthConfig s.toAuthDB (a, ω) } := by
  refine serveAuth_rule (fun t => RolesAgree { s with toAuthDB := t }) hs
    (fun b t hw hb => agree_writes (s := { s with toAuthDB := b }) hb hw) fun r => ?_
  have hsame : AccountWrites.SameRoles s.toDB (serveAccount cfg.toConfig s.toDB
    (r, fun n => (ω n).toInput)) := AccountWrites.serve_sameRoles
  refine hs.same ⟨fun _ => Iff.rfl, hsame.role, fun role u => ?_⟩
  cases role with
  | student => exact hsame.student u
  | staff => exact iff_of_eq (congrArg (u ∈ ·) hsame.staffs)
  | admin => rfl

lemma agree_deleted (hs : RolesAgree s) (h : s.deleteUser id = .ok t) : RolesAgree t := by
  obtain ⟨-, hadmin, _, _, rfl⟩ := deleteUser_ok h
  refine ⟨fun u => by simp [AList.mem_erase, hs.account u], fun role u => ?_⟩
  have hold := hs.profile role u
  by_cases hu : u = id
  · subst hu
    cases role with
    | student => simp [HasProfile, storedRole, AList.mem_erase]
    | staff => simp [HasProfile, storedRole]
    | admin => simpa [HasProfile, storedRole] using hadmin
  · have hrole : storedRole { s with users := s.users.erase id } u = storedRole s u := by
      rw [storedRole, storedRole, AList.lookup_erase_ne hu]
    refine Iff.trans ?_ (hold.trans (by rw [← hrole]; rfl))
    cases role with
    | student => simp [HasProfile, AList.mem_erase, hu]
    | staff => simp [HasProfile, hu]
    | admin => rfl

/-- **When a request keeps the profiles.** -/
lemma serve_agree_iff (hs : RolesAgree s) :
    RolesAgree (serveSession cfg s l) ↔ KeepsProfiles s l := by
  by_cases hrole : ∃ id newRole, l.1 = .updateUserRole id newRole
  · obtain ⟨r, ω⟩ := l
    obtain ⟨id, newRole, rfl⟩ := hrole
    rw [serveSession, respond_updateUserRole]
    exact updateUserRole_agree_iff hs
  have hkeeps : KeepsProfiles s l := by
    obtain ⟨r, ω⟩ := l
    cases r with
    | updateUserRole id newRole => exact absurd ⟨id, newRole, rfl⟩ hrole
    | _ => trivial
  refine iff_of_true ?_ hkeeps
  have hserves := serve_cases cfg s l
  generalize serveSession cfg s l = t at hserves ⊢
  cases hserves with
  | auth ha => exact agree_auth hs
  | signout => exact hs.same ⟨fun _ => Iff.rfl, fun _ => rfl, fun role _ => by cases role <;> rfl⟩
  | updateUserRole => exact absurd ⟨_, _, rfl⟩ hrole
  | deleteUser hdelete => exact agree_deleted hs hdelete
  | _ => exact hs

/-- **When role and profile agree**: in a run of requests of all services from tables where they
do, in every state whose steps change no role but to an existing one, all statements answered
once the old profile is deleted; and a step that does otherwise ends where they do not. -/
theorem role_matches_profile (cfg : SessionConfig) (s : ProfileDB) (hs : RolesAgree s)
    (ls : List (SessionRequest × (ℕ → AuthInput))) :
    (Machine.Along (serveSession cfg) KeepsProfiles s ls →
      RolesAgree (Machine.run (serveSession cfg) s ls)) ∧
    (Machine.Along (serveSession cfg) (fun s l => RolesAgree (serveSession cfg s l)) s ls ↔
      Machine.Along (serveSession cfg) KeepsProfiles s ls) :=
  Machine.inv_along_iff RolesAgree (fun _ _ h => h) (fun _ _ _ hs => serve_agree_iff hs) hs

/-- No rows. -/
def emptyDB : ProfileDB where
  toAuthDB := CompletionRaces.emptyDB
  admins := []
  reports := []

lemma emptyDB_agree : RolesAgree emptyDB :=
  ⟨fun _ => Iff.rfl, fun role u =>
    iff_of_false (by cases role <;> exact List.not_mem_nil) (by cases role <;> nofun)⟩

/-- A registration, and a change of the role of its user. -/
def registerThenPromote (newRole : String) : List (SessionRequest × (ℕ → AuthInput)) :=
  [(.initiateRegistration "n@x" false, fun _ => CompletionRaces.sampleInput),
    (.updateUserRole 5 newRole, fun _ => CompletionRaces.sampleInput)]

theorem role_matches_profile_staff :
    RolesAgree (Machine.run (serveSession Sample.sessionConfig) emptyDB
      (registerThenPromote "STAFF")) :=
  (role_matches_profile Sample.sessionConfig emptyDB emptyDB_agree (registerThenPromote "STAFF")).1
    ⟨trivial, fun _ => ⟨by decide, by decide, by decide⟩, trivial⟩

/-- The student's profile is deleted before the database refuses the role. -/
theorem unknown_role_loses_profile :
    RolesAgree emptyDB ∧
      let s := Machine.run (serveSession Sample.sessionConfig) emptyDB (registerThenPromote "BOSS")
      storedRole s 5 = some .student ∧ (∀ role, ¬ HasProfile s role 5) ∧ ¬ RolesAgree s := by
  refine ⟨emptyDB_agree, ?_⟩
  intro s
  have hrole : storedRole s 5 = some .student := by decide +kernel
  have hprofile : ∀ role, ¬ HasProfile s role 5 := by
    intro role
    cases role with
    | student => exact (by decide +kernel : (5 : Id) ∉ s.students)
    | staff => exact (by decide +kernel : (5 : Id) ∉ s.staffs)
    | admin => exact (by decide +kernel : (5 : Id) ∉ s.admins)
  exact ⟨hrole, hprofile, fun hagree => hprofile _ ((hagree.profile .student 5).mpr hrole)⟩

end TsaBackend.RoleProfiles
