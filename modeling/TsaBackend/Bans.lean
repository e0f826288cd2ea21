import TsaBackend.AccountWrites

/-!
Faults of available students, over runs of cancellations and changes of account status.

A ban and a charged cancellation take the threshold from the regulation or the deployment,
the end of a ban from the regulation or the student's own faults, and a deactivated account
is made available without a look at its faults.
-/

namespace TsaBackend.Bans

open Call OrderEffects RequestSteps StudentCalls AccountWrites

variable {E : Input → Prop} {cfg : Config} {s s₁ t : DB} {u v : Id} {T : ℤ} {o : Order}
  {status : UserStatus}

/-- The threshold of the regulation of the student's dormitory, or of the deployment. -/
def effectiveThreshold (cfg : Config) (s : DB) (u : Id) : Option ℤ :=
  ((s.students.lookup u).bind (·.dormitory)).bind fun d =>
    bannedThreshold cfg (s.dormitoryRegulations.lookup d)

/-- A student with a dormitory and this threshold. -/
structure Enrolled (cfg : Config) (u : Id) (T : ℤ) (s : DB) : Prop where
  role : (s.users.lookup u).map (·.role) = some .student
  threshold : effectiveThreshold cfg s u = some T

/-- While the account is available, the student has less faults than the threshold. -/
def Below (u : Id) (T : ℤ) (s : DB) : Prop :=
  ∀ account student, s.users.lookup u = some account → s.students.lookup u = some student →
    account.status = .available → student.numberFault < T

/-- A new student. -/
structure Fresh (u : Id) (s : DB) : Prop where
  available : (s.users.lookup u).map (·.status) = some .available
  numberFault : (s.students.lookup u).map (·.numberFault) = some 0

lemma Fresh.below (h : Fresh u s) (hT : 1 ≤ T) : Below u T s := by
  intro account student _ hst _
  have hfault := h.numberFault
  rw [hst] at hfault
  obtain hzero : student.numberFault = 0 := by simpa using hfault
  omega

lemma Enrolled.rows (h : Enrolled cfg u T s) : ∃ account student d,
    s.users.lookup u = some account ∧ account.role = .student ∧
      s.students.lookup u = some student ∧ student.dormitory = some d ∧
      bannedThreshold cfg (s.dormitoryRegulations.lookup d) = some T := by
  obtain ⟨account, hu, hrole⟩ := Option.map_eq_some_iff.mp h.role
  obtain ⟨d, hd, hT⟩ := Option.bind_eq_some_iff.mp h.threshold
  obtain ⟨student, hst, hd⟩ := Option.bind_eq_some_iff.mp hd
  exact ⟨account, student, d, hu, hrole, hst, hd, hT⟩

/-- The rows of the student and the regulations are the same. -/
structure SameRows (u : Id) (s t : DB) : Prop where
  user : t.users.lookup u = s.users.lookup u
  student : t.students.lookup u = s.students.lookup u
  dormitoryRegulations : t.dormitoryRegulations = s.dormitoryRegulations

lemma sameRows (h : SamePeople s t) : SameRows u s t :=
  ⟨by rw [h.users], by rw [h.students], h.dormitoryRegulations⟩

lemma enrolled_same (h : SameRows u s t) : Enrolled cfg u T t ↔ Enrolled cfg u T s := by
  have hthreshold : effectiveThreshold cfg t u = effectiveThreshold cfg s u := by
    rw [effectiveThreshold, effectiveThreshold, h.student, h.dormitoryRegulations]
  constructor
  · exact fun ht => ⟨h.user ▸ ht.role, hthreshold ▸ ht.threshold⟩
  · exact fun hs => ⟨h.user ▸ hs.role, hthreshold ▸ hs.threshold⟩

lemma below_same (h : SameRows u s t) : Below u T t ↔ Below u T s := by
  rw [Below, Below, h.user, h.student]

lemma sameRows_rated {numberFault : Option ℤ} (h : u ≠ v) :
    SameRows u s (rated v status numberFault s) := by
  refine ⟨?_, ?_, rfl⟩
  · simp [rated, h]
  · cases numberFault with
    | none => rfl
    | some n => simp [rated, h]

/-- A charge keeps the student's dormitory, and bans the student at the threshold. -/
lemma charged_standing (h : Charged cfg o s s₁) (hs : Enrolled cfg u T s) (hb : Below u T s) :
    Enrolled cfg u T s₁ ∧ Below u T s₁ := by
  by_cases ho : o.studentId = some u
  · obtain ⟨account, student, d, hu, hrole, hst, hd, hT⟩ := hs.rows
    obtain ⟨u', student', d', hu', hst', hd', hok⟩ := h
    obtain rfl : u = u' := Option.some.inj (ho.symm.trans hu')
    obtain rfl : student = student' := Option.some.inj (hst.symm.trans hst')
    obtain rfl : d = d' := Option.some.inj (hd.symm.trans hd')
    rw [hT] at hok
    rw [chargeStudent_ok hok]
    refine ⟨⟨?_, ?_⟩, fun account' student' hu' hst' hav => ?_⟩
    · dsimp only
      split <;> simp [hu, hrole]
    · simp [effectiveThreshold, hst, hd, hT]
    · -- an account that is still available was not banned by this charge
      obtain rfl : { student with numberFault := student.numberFault + 1 } = student' := by
        simpa [hst] using hst'
      by_cases hban : student.numberFault + 1 ≥ T
      · obtain rfl : { account with status := .banned } = account' := by
          simpa [shouldBan, hban, hu] using hu'
        cases hav
      · exact not_le.mp hban
  · obtain ⟨hstudent, huser⟩ := charged_other h ho
    have hregs : s₁.dormitoryRegulations = s.dormitoryRegulations := by
      obtain ⟨_, _, _, _, _, _, hok⟩ := h
      rw [chargeStudent_ok hok]
    have hsame : SameRows u s s₁ := ⟨huser, hstudent, hregs⟩
    exact ⟨(enrolled_same hsame).mpr hs, (below_same hsame).mpr hb⟩

/-- **No request but a change of account status makes a student available.** -/
lemma request_standing {r : Request} (hs : Enrolled cfg u T s) (hb : Below u T s) :
    Ends (r.call cfg) s fun t => Enrolled cfg u T t ∧ Below u T t := by
  by_cases h : ∃ o, Fines cfg s o r
  · obtain ⟨o, ho⟩ := h
    refine ho.ends.mono fun t ht => ?_
    obtain ⟨s₁, hcharged, hsame⟩ := ht
    obtain ⟨hs₁, hb₁⟩ := charged_standing hcharged hs hb
    exact ⟨(enrolled_same (sameRows hsame)).mpr hs₁, (below_same (sameRows hsame)).mpr hb₁⟩
  · refine (unfined_ends (not_exists.mp h)).mono fun t hsame => ?_
    exact ⟨(enrolled_same (sameRows hsame)).mpr hs, (below_same (sameRows hsame)).mpr hb⟩

/-! ### Changes of account status, and runs -/

/-- The faults that a change of status writes. -/
def faultsWritten (T : ℤ) (banThreshold : Option ℤ) (account : User) (student : Student)
    (status : UserStatus) : Option ℤ :=
  if status = .banned then some T
  else if account.status = .banned ∧ status = .available then
    some (max (oldNumberFault banThreshold (some student) - 1) 0)
  else none

lemma writeAccount_wp {numberFault : Option ℤ} (hu : u ∈ s.users) (hst : u ∈ s.students) :
    (writeAccount u status numberFault).wp E Any
      (fun _ t => t = rated u status numberFault s) (fun _ _ => False) s := by
  obtain ⟨account, hlookup⟩ := Table.mem_iff_lookup.mp hu
  refine wp_executeReturning_of_ok fun i _ =>
    ⟨_, { account with status }, updateAccount_eq hu fun _ => hst, ?_, trivial, rfl⟩
  simp [rated, hlookup]

lemma findRegulation_wp {α : Type} {d : Dormitory} {f : Option ℤ → Async α} {Q : α → DB → Prop}
    {X : Exn → DB → Prop} (h : (f (s.dormitoryRegulations.lookup d)).wp E Any Q X s) :
    (findRegulation (.val d) >>= f).wp E Any Q X s := by
  unfold findRegulation
  rw [wp_bind, wp_ite, if_neg (by simp), wp_read]
  intro i _
  rw [findRegulation_eq]
  exact ⟨trivial, h⟩

lemma updateUserStatus_wp {account : User} {student : Student} {d : Dormitory}
    (hu : s.users.lookup u = some account) (hrole : account.role = .student)
    (hst : s.students.lookup u = some student) (hd : student.dormitory = some d)
    (hT : bannedThreshold cfg (s.dormitoryRegulations.lookup d) = some T) :
    (updateUserStatus cfg u status).wp E Any (fun _ t => t = rated u status
        (faultsWritten T (s.dormitoryRegulations.lookup d) account student status) s)
      (fun _ _ => False) s := by
  have hmem : u ∈ s.users := Table.mem_iff_lookup.mpr ⟨account, hu⟩
  have hmem' : u ∈ s.students := Table.mem_iff_lookup.mpr ⟨student, hst⟩
  have hdorm : dormitoryOf (some student) = .val d := by simp [dormitoryOf, hd]
  unfold updateUserStatus
  rw [wp_bind, wp_read]
  intro i _
  refine ⟨trivial, ?_⟩
  rw [hu, hst]
  dsimp only
  rw [wp_ite]
  split
  · next hban =>
    obtain ⟨rfl, -⟩ := hban
    unfold banStudent
    rw [hdorm]
    refine findRegulation_wp ?_
    rw [hT]
    simpa [faultsWritten] using writeAccount_wp hmem hmem'
  next hban =>
  have hban : status ≠ .banned := fun h => hban ⟨h, hrole⟩
  rw [wp_ite]
  split
  · next hunban =>
    obtain ⟨-, hbanned, rfl⟩ := hunban
    unfold unbanStudent
    rw [hdorm]
    refine findRegulation_wp ?_
    simpa [faultsWritten, hbanned] using writeAccount_wp hmem hmem'
  · next hunban =>
    have hunban : ¬ (account.status = .banned ∧ status = .available) := fun h =>
      hunban ⟨hrole, h⟩
    simpa [faultsWritten, hban, hunban] using writeAccount_wp hmem hmem'

lemma enrolled_rated {numberFault : Option ℤ} (hs : Enrolled cfg u T s) :
    Enrolled cfg u T (rated u status numberFault s) := by
  obtain ⟨account, student, d, hu, hrole, hst, hd, hT⟩ := hs.rows
  refine ⟨by simp [rated, hu, hrole], ?_⟩
  cases numberFault with
  | none => exact hs.threshold
  | some n => simp [effectiveThreshold, rated, hst, hd, hT]

/-- The account is not made available with faults at the threshold: the end of a ban takes
away one fault from a threshold of the dormitory, or from at most `T` faults, and a
deactivated account has less. -/
def LiftsBelow (u : Id) (T : ℤ) (s : DB) : AccountRequest → Prop
  | .updateUserStatus v .available =>
    v = u → ∀ account student d, s.users.lookup u = some account →
      s.students.lookup u = some student → student.dormitory = some d →
      (account.status = .banned →
        s.dormitoryRegulations.lookup d ∉ [none, some 0] ∨ student.numberFault ≤ T) ∧
      (account.status = .deactivated → student.numberFault < T)
  | _ => True

lemma unbanned_iff {banThreshold : Option ℤ} {student : Student} (hT : 1 ≤ T)
    (h : bannedThreshold cfg banThreshold = some T) :
    max (oldNumberFault banThreshold (some student) - 1) 0 < T ↔
      banThreshold ∉ [none, some 0] ∨ student.numberFault ≤ T := by
  rcases banThreshold with _ | n
  · simp [oldNumberFault]
    omega
  rcases eq_or_ne n 0 with rfl | hn
  · simp [oldNumberFault]
    omega
  · obtain rfl : n = T := by simpa [bannedThreshold, hn] using h
    simp [oldNumberFault, hn]
    omega

/-- **When a change of a student's status keeps available students below the threshold.** -/
lemma rated_below_iff {account : User} {student : Student} {d : Dormitory} (hT1 : 1 ≤ T)
    (hb : Below u T s) (hu : s.users.lookup u = some account)
    (hst : s.students.lookup u = some student) (hd : student.dormitory = some d)
    (hT : bannedThreshold cfg (s.dormitoryRegulations.lookup d) = some T) :
    Below u T (rated u status
        (faultsWritten T (s.dormitoryRegulations.lookup d) account student status) s) ↔
      LiftsBelow u T s (.updateUserStatus u status) := by
  have hbelow : ∀ numberFault, Below u T (rated u status numberFault s) ↔
      (status = .available → numberFault.getD student.numberFault < T) := by
    intro numberFault
    cases numberFault <;> simp [Below, rated, hu, hst]
  rw [hbelow]
  cases status with
  | deactivated => simp [LiftsBelow]
  | banned => simp [LiftsBelow]
  | available =>
    have hlift : LiftsBelow u T s (.updateUserStatus u .available) ↔
        (account.status = .banned →
          s.dormitoryRegulations.lookup d ∉ [none, some 0] ∨ student.numberFault ≤ T) ∧
        (account.status = .deactivated → student.numberFault < T) := by
      refine ⟨fun h => h rfl account student d hu hst hd, fun h _ account' student' d' hu' hst'
        hd' => ?_⟩
      obtain rfl := Option.some.inj (hu.symm.trans hu')
      obtain rfl := Option.some.inj (hst.symm.trans hst')
      obtain rfl := Option.some.inj (hd.symm.trans hd')
      exact h
    rw [hlift, ← unbanned_iff hT1 hT]
    rcases hstatus : account.status with _ | _ | _
    · simp [faultsWritten, hstatus, hb account student hu hst hstatus]
    · simp [faultsWritten, hstatus]
    · simp [faultsWritten, hstatus]

lemma other_ends (h : v ≠ u) : Ends (updateUserStatus cfg v status) s (SameRows u s) := by
  refine (updateUserStatus_steps.preserves fun a b hw ha => ?_).exec ⟨rfl, rfl, rfl⟩
  rcases hw with rfl | ⟨numberFault, rfl⟩
  · exact ha
  · have hb : SameRows u a (rated v status numberFault a) := sameRows_rated h.symm
    exact ⟨hb.user.trans ha.user, hb.student.trans ha.student,
      hb.dormitoryRegulations.trans ha.dormitoryRegulations⟩

lemma serve_eq {account : User} {student : Student} {d : Dormitory} {ω : ℕ → Input}
    (hu : s.users.lookup u = some account) (hrole : account.role = .student)
    (hst : s.students.lookup u = some student) (hd : student.dormitory = some d)
    (hT : bannedThreshold cfg (s.dormitoryRegulations.lookup d) = some T) :
    serveAccount cfg s (.updateUserStatus u status, ω) = rated u status
      (faultsWritten T (s.dormitoryRegulations.lookup d) account student status) s :=
  ends_drop.mpr (ends_of_wp (wp_mono (updateUserStatus_wp hu hrole hst hd hT) (fun _ _ h => h)
    fun _ _ h => h.elim)) ω

lemma enrolled_serve (hs : Enrolled cfg u T s) (hb : Below u T s)
    (l : AccountRequest × (ℕ → Input)) : Enrolled cfg u T (serveAccount cfg s l) := by
  obtain ⟨r | ⟨v, status⟩, ω⟩ := l
  · exact (request_standing hs hb ω).1
  by_cases hv : v = u
  · subst hv
    obtain ⟨account, student, d, hu, hrole, hst, hd, hthreshold⟩ := hs.rows
    rw [serve_eq hu hrole hst hd hthreshold]
    exact enrolled_rated hs
  · exact ends_drop.mpr ((other_ends hv).mono fun t ht => (enrolled_same ht).mpr hs) ω

/-- **When a step keeps available students below the threshold.** -/
lemma below_serve_iff (hT : 1 ≤ T) (hs : Enrolled cfg u T s) (hb : Below u T s)
    (l : AccountRequest × (ℕ → Input)) :
    Below u T (serveAccount cfg s l) ↔ LiftsBelow u T s l.1 := by
  obtain ⟨r | ⟨v, status⟩, ω⟩ := l
  · exact iff_of_true (request_standing hs hb ω).2 trivial
  by_cases hv : v = u
  · subst hv
    obtain ⟨account, student, d, hu, hrole, hst, hd, hthreshold⟩ := hs.rows
    rw [serve_eq hu hrole hst hd hthreshold]
    exact rated_below_iff hT hb hu hst hd hthreshold
  · refine iff_of_true ?_ ?_
    · exact ends_drop.mpr ((other_ends hv).mono fun t ht => (below_same ht).mpr hb) ω
    · cases status <;> simp [LiftsBelow, hv]

/-- **When available students stay below the threshold**: in a run of any requests and
changes of account status, from a new student, they do in every state whose steps all lift
bans and deactivations below it, and a step that does not leaves an available student at the
threshold. -/
theorem available_below_threshold (cfg : Config) (s : DB) (u : Id) (T : ℤ) (hT : 1 ≤ T)
    (hs : Enrolled cfg u T s) (hfresh : Fresh u s) (ls : List (AccountRequest × (ℕ → Input))) :
    (Machine.Along (serveAccount cfg) (fun s l => LiftsBelow u T s l.1) s ls →
      Below u T (Machine.run (serveAccount cfg) s ls)) ∧
    (Machine.Along (serveAccount cfg) (fun s l => Below u T (serveAccount cfg s l)) s ls ↔
      Machine.Along (serveAccount cfg) (fun s l => LiftsBelow u T s l.1) s ls) := by
  have hinv : ∀ s l, (Enrolled cfg u T s ∧ Below u T s) → Below u T (serveAccount cfg s l) →
      Enrolled cfg u T (serveAccount cfg s l) ∧ Below u T (serveAccount cfg s l) :=
    fun s l h hb => ⟨enrolled_serve h.1 h.2 l, hb⟩
  have hstart : Enrolled cfg u T s ∧ Below u T s := ⟨hs, hfresh.below hT⟩
  have hiff : Machine.Along (serveAccount cfg) (fun s l => Below u T (serveAccount cfg s l)) s ls ↔
      Machine.Along (serveAccount cfg) (fun s l => LiftsBelow u T s l.1) s ls :=
    Machine.along_congr (fun s => Enrolled cfg u T s ∧ Below u T s) hinv
      (fun s l _ h => below_serve_iff hT h.1 h.2 l) hstart
  exact ⟨fun h => (Machine.run_inv _ hinv hstart (hiff.mpr h)).2, hiff⟩

/-- A ban and its end. -/
def bannedOnce : List (AccountRequest × (ℕ → Input)) :=
  [(.updateUserStatus 1 .banned, Sample.inputs 0),
   (.updateUserStatus 1 .available, Sample.inputs 0)]

lemma sample_enrolled : Enrolled Sample.config 1 3 Sample.dbWithOrder := ⟨rfl, rfl⟩

lemma sample_fresh : Fresh 1 Sample.dbWithOrder := ⟨rfl, rfl⟩

theorem available_below_threshold_banned :
    let t := Machine.run (serveAccount Sample.config) Sample.dbWithOrder bannedOnce
    (t.users.lookup 1).map (·.status) = some .available ∧
      (t.students.lookup 1).map (·.numberFault) = some 2 ∧ Below 1 3 t := by
  refine ⟨by decide +kernel, by decide +kernel, (available_below_threshold Sample.config
    Sample.dbWithOrder 1 3 (by decide) sample_enrolled sample_fresh bannedOnce).1
    ⟨trivial, ?_, trivial⟩⟩
  intro _ account student d hu hst _
  have hu' : (serveAccount Sample.config Sample.dbWithOrder
      (.updateUserStatus 1 .banned, Sample.inputs 0)).users.lookup 1 =
      some ⟨.student, .banned⟩ := by decide +kernel
  have hst' : (serveAccount Sample.config Sample.dbWithOrder
      (.updateUserStatus 1 .banned, Sample.inputs 0)).students.lookup 1 = some ⟨some .a, 3⟩ := by
    decide +kernel
  obtain rfl := Option.some.inj (hu'.symm.trans hu)
  obtain rfl := Option.some.inj (hst'.symm.trans hst)
  exact ⟨fun _ => .inr le_rfl, fun h => by cases h⟩

/-- A ban, a cancellation charged during the ban, and the end of the ban. -/
def chargedWhileBanned : List (AccountRequest × (ℕ → Input)) :=
  [(.updateUserStatus 1 .banned, Sample.inputs 0),
   (.request (.updateStatus 10 cancelDto Sample.student), Sample.inputs 0),
   (.updateUserStatus 1 .available, Sample.inputs 0)]

/-- A ban that ends by way of a deactivation. -/
def deactivatedWhileBanned : List (AccountRequest × (ℕ → Input)) :=
  [(.updateUserStatus 1 .banned, Sample.inputs 0),
   (.updateUserStatus 1 .deactivated, Sample.inputs 0),
   (.updateUserStatus 1 .available, Sample.inputs 0)]

/-- Both ways a new student is available again with as many faults as the threshold. -/
theorem available_at_threshold :
    Enrolled Sample.config 1 3 Sample.dbWithOrder ∧ Fresh 1 Sample.dbWithOrder ∧
      ∀ ls ∈ [chargedWhileBanned, deactivatedWhileBanned],
        ¬ Below 1 3 (Machine.run (serveAccount Sample.config) Sample.dbWithOrder ls) := by
  have hrows : ∀ ls ∈ [chargedWhileBanned, deactivatedWhileBanned],
      let t := Machine.run (serveAccount Sample.config) Sample.dbWithOrder ls
      t.users.lookup 1 = some ⟨.student, .available⟩ ∧
        t.students.lookup 1 = some ⟨some .a, 3⟩ := by decide +kernel
  refine ⟨sample_enrolled, sample_fresh, fun ls hls h => ?_⟩
  obtain ⟨hu, hst⟩ := hrows ls hls
  exact absurd (h _ _ hu hst rfl) (by decide)

end TsaBackend.Bans
