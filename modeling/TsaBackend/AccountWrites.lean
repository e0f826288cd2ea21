import TsaBackend.RequestSteps
import TsaBackend.StudentCalls
import TsaBackend.Users

/-!
What requests leave of accounts when they run alone: a charged cancellation writes the
student it is charged to, a change of an account's status writes that account, and nothing
else writes any.
-/

namespace TsaBackend.AccountWrites

open Call OrderEffects OrderWrites RequestSteps StudentCalls

variable {E : Input → Prop} {cfg : Config} {user : GetUserType} {s s₁ t : DB} {id u v : Id}
  {o : Order} {dto : UpdateStatusDto}

/-- Users, students and regulations are the same. -/
structure SamePeople (s t : DB) : Prop where
  users : t.users = s.users
  students : t.students = s.students
  dormitoryRegulations : t.dormitoryRegulations = s.dormitoryRegulations

lemma samePeople_refl : SamePeople s s := ⟨rfl, rfl, rfl⟩

lemma SamePeople.trans (h : SamePeople s s₁) (h' : SamePeople s₁ t) : SamePeople s t :=
  ⟨h'.users.trans h.users, h'.students.trans h.students,
    h'.dormitoryRegulations.trans h.dormitoryRegulations⟩

/-- So are the profiles of the staff. -/
structure SameProfiles (s t : DB) : Prop extends SamePeople s t where
  staffs : t.staffs = s.staffs

lemma sameProfiles_refl : SameProfiles s s := ⟨samePeople_refl, rfl⟩

/-- The request cancels an order in the name of its student. -/
def Cancels : Request → Prop
  | .updateStatus _ dto _ => charges dto
  | _ => False

lemma sameProfiles_writes {r : Request} (hr : ¬ Cancels r) (h : Writes cfg s r t) :
    SameProfiles s t := by
  cases h with
  | none => exact sameProfiles_refl
  | charge h _ => exact absurd h hr
  | cash _ => exact ⟨⟨rfl, rfl, rfl⟩, rfl⟩
  | change i hid => exact ⟨⟨rfl, rfl, rfl⟩, rfl⟩
  | claim => exact ⟨⟨rfl, rfl, rfl⟩, rfl⟩
  | insert _ _ => exact ⟨⟨rfl, rfl, rfl⟩, rfl⟩
  | log i status hid => exact ⟨⟨rfl, rfl, rfl⟩, rfl⟩
  | edit => exact ⟨⟨rfl, rfl, rfl⟩, rfl⟩
  | remove h =>
    obtain ⟨_, rfl⟩ := DB.deleteOrder_ok h
    exact ⟨⟨rfl, rfl, rfl⟩, rfl⟩
  | delay h =>
    obtain ⟨_, rfl, _⟩ := updateOrders_ok h
    exact ⟨⟨rfl, rfl, rfl⟩, rfl⟩
  | plan _ h =>
    obtain ⟨_, _, _, _, rfl⟩ := insertDelivery_ok h
    exact ⟨⟨rfl, rfl, rfl⟩, rfl⟩
  | replan _ _ h ht =>
    obtain ⟨_, _, rfl⟩ := DB.updateDelivery_ok h
    obtain ⟨_, rfl⟩ := DB.createManyOrdersOnDelivery_ok ht
    exact ⟨⟨rfl, rfl, rfl⟩, rfl⟩
  | order i status reason canceledImage hid => exact ⟨⟨rfl, rfl, rfl⟩, rfl⟩
  | move _ _ h ht =>
    obtain ⟨_, _, rfl⟩ := DB.updateDelivery_ok h
    obtain ⟨_, _, rfl⟩ := DB.createDeliveryStatusRow_ok ht
    exact ⟨⟨rfl, rfl, rfl⟩, rfl⟩
  | drop h =>
    obtain ⟨_, rfl⟩ := DB.deleteDelivery_ok h
    exact ⟨⟨rfl, rfl, rfl⟩, rfl⟩
  | invoice h =>
    obtain ⟨_, _, _, rfl⟩ := DB.createPayment_ok h
    exact ⟨⟨rfl, rfl, rfl⟩, rfl⟩
  | settle h =>
    obtain ⟨_, _, _, rfl⟩ := webhookTransaction_ok h
    exact ⟨⟨rfl, rfl, rfl⟩, rfl⟩

lemma call_samePeople {r : Request} (hr : ¬ Cancels r) :
    Ends (r.call cfg) s (SamePeople s) :=
  ((call_steps r).preserves fun _ _ hw hs => hs.trans (sameProfiles_writes hr hw).toSamePeople).exec
    samePeople_refl

/-- The cancellation passes every check, so that its fault is charged. -/
structure Charges (cfg : Config) (s : DB) (id : Id) (dto : UpdateStatusDto) (user : GetUserType)
    (o : Order) : Prop where
  lookup : s.orders.lookup id = some o
  charges : charges dto
  passes : Passes cfg s o dto user

/-- What a charged cancellation leaves: the fault is counted whatever the services answer. -/
theorem Charges.ends (h : Charges cfg s id dto user o) :
    Ends (updateStatus cfg id dto user) s fun t => ∃ s₁, Charged cfg o s s₁ ∧ SamePeople s₁ t := by
  have hcharged : ∀ s₁, Passed cfg o dto user s s₁ → Charged cfg o s s₁ := by
    intro s₁ hs₁
    simpa [h.charges] using hs₁.charge
  have hpaid : ∀ s₁, SamePeople s₁ (paid id o dto user s₁) := by
    intro s₁
    refine ⟨paid_people.2, paid_people.1, ?_⟩
    unfold paid
    split <;> rfl
  refine ends_of_wp (wp_mono (updateStatus_wp h.lookup) (fun _ t ht => ?_) fun _ t ht => ?_)
  · obtain ⟨s₁, i, hs₁, _, _, rfl⟩ := ht
    exact ⟨s₁, hcharged s₁ hs₁, (hpaid s₁).trans ⟨rfl, rfl, rfl⟩⟩
  · rcases ht with ⟨_, hno⟩ | ⟨s₁, hs₁, _, rfl⟩
    · obtain ⟨s₁, hs₁⟩ := passes_iff.mp h.passes
      exact absurd hs₁ (hno s₁)
    · exact ⟨s₁, hcharged s₁ hs₁, hpaid s₁⟩

/-- A cancellation that is not charged is refused. -/
theorem refused_ends (hc : charges dto) (h : ∀ o, ¬ Charges cfg s id dto user o) :
    Ends (updateStatus cfg id dto user) s fun t => t = s := by
  refine ends_of_wp ?_
  rcases ho : s.orders.lookup id with _ | o
  · exact wp_mono (updateStatus_wp_none ho) (fun _ _ ht => ht.elim) fun _ _ ht => ht
  have hno : ∀ s₁, ¬ Passed cfg o dto user s s₁ := fun s₁ hs₁ =>
    h o ⟨ho, hc, passes_iff.mpr ⟨s₁, hs₁⟩⟩
  refine wp_mono (updateStatus_wp ho) (fun _ t ht => ?_) fun _ t ht => ?_
  · obtain ⟨s₁, _, hs₁, _, _⟩ := ht
    exact absurd hs₁ (hno s₁)
  · rcases ht with ⟨ht, _⟩ | ⟨s₁, hs₁, _⟩
    · exact ht
    · exact absurd hs₁ (hno s₁)

/-- The request is a cancellation of this order that is charged. -/
def Fines (cfg : Config) (s : DB) (o : Order) : Request → Prop
  | .updateStatus id dto user => Charges cfg s id dto user o
  | _ => False

lemma Fines.unique {r : Request} {o' : Order} (h : Fines cfg s o r) (h' : Fines cfg s o' r) :
    o' = o := by
  cases r with
  | updateStatus id dto user => exact Option.some.inj (h'.lookup.symm.trans h.lookup)
  | _ => exact h.elim

theorem Fines.ends {r : Request} (h : Fines cfg s o r) :
    Ends (r.call cfg) s fun t => ∃ s₁, Charged cfg o s s₁ ∧ SamePeople s₁ t := by
  cases r with
  | updateStatus id dto user => exact ends_drop.mpr (Charges.ends h)
  | _ => exact h.elim

/-- **Only charged cancellations write accounts.** -/
theorem unfined_ends {r : Request} (h : ∀ o, ¬ Fines cfg s o r) :
    Ends (r.call cfg) s (SamePeople s) := by
  by_cases hr : Cancels r
  · cases r with
    | updateStatus id dto user =>
      refine ends_drop.mpr ((refused_ends hr h).mono fun t ht => ?_)
      rw [ht]
      exact samePeople_refl
    | _ => exact hr.elim
  · exact call_samePeople hr

/-! ### Account status, roles and profiles -/

lemma findRegulation_eq {d : Dormitory} {t : Table Dormitory ℤ} {pick : ℕ} :
    (t.findFirst pick fun dormitory _ => (Arg.val d).accepts (some dormitory)).map (·.2) =
      t.lookup d := by
  rcases hf : t.findFirst pick fun dormitory _ => (Arg.val d).accepts (some dormitory)
    with _ | ⟨k, n⟩
  · rw [Table.findFirst_none] at hf
    rcases hd : t.lookup d with _ | n
    · rfl
    · have := hf d n hd
      simp [Arg.accepts] at this
  · obtain ⟨hk, hp⟩ := Table.findFirst_some hf
    obtain rfl : k = d := by simpa [Arg.accepts] using hp
    rw [hk]
    rfl

/-- The tables with another status, and other faults where there are any to write. -/
def rated (userId : Id) (status : UserStatus) (numberFault : Option ℤ) (s : DB) : DB :=
  { s with
    users := s.users.modify userId fun user => { user with status }
    students := match numberFault with
      | none => s.students
      | some n => s.students.modify userId fun student => { student with numberFault := n } }

lemma updateAccount_ok {status : UserStatus} {numberFault : Option ℤ}
    (h : s.updateAccount u status numberFault = .ok t) : t = rated u status numberFault s := by
  obtain ⟨s', hs', h⟩ := ok_of_bind h
  obtain ⟨_, rfl⟩ := DB.updateUser_ok hs'
  cases numberFault with
  | none =>
    cases h
    rfl
  | some n =>
    obtain ⟨_, rfl⟩ := DB.updateStudent_ok h
    rfl

lemma updateAccount_eq {status : UserStatus} {numberFault : Option ℤ} (hu : u ∈ s.users)
    (hst : numberFault.isSome → u ∈ s.students) :
    s.updateAccount u status numberFault = .ok (rated u status numberFault s) := by
  unfold DB.updateAccount DB.updateUser
  rw [if_pos hu]
  cases numberFault with
  | none => rfl
  | some n =>
    change DB.updateStudent _ u _ = _
    rw [DB.updateStudent, if_pos (hst rfl)]
    rfl

/-- A change of an account's status writes that account. -/
theorem updateUserStatus_steps {status : UserStatus} :
    (updateUserStatus cfg u status).Steps fun s t =>
      t = s ∨ ∃ numberFault, t = rated u status numberFault s := by
  have hrefl : ∀ s : DB, s = s ∨ ∃ numberFault, s = rated u status numberFault s := fun _ =>
    .inl rfl
  have hwrite : ∀ n, (writeAccount u status n).Steps fun s t =>
      t = s ∨ ∃ numberFault, t = rated u status numberFault s := fun n =>
    steps_executeReturning hrefl fun _ _ _ h => .inr ⟨n, updateAccount_ok h⟩
  have hfind : ∀ name, (findRegulation name).Steps fun s t =>
      t = s ∨ ∃ numberFault, t = rated u status numberFault s := fun name =>
    Steps.ite (fun _ => steps_throw _) fun _ => steps_read _ hrefl
  unfold updateUserStatus
  refine (steps_read _ hrefl).bind fun found => ?_
  rcases found with ⟨_ | account, student⟩
  · exact steps_throw _
  refine Steps.ite (fun hban => ?_) fun _ => Steps.ite (fun hunban => ?_) fun _ => hwrite none
  · unfold banStudent
    refine (hfind _).bind fun banThreshold => ?_
    rcases bannedThreshold cfg banThreshold with _ | threshold
    · exact steps_throw _
    · exact hban.1 ▸ hwrite _
  · unfold unbanStudent
    exact (hfind _).bind fun _ => hunban.2.2 ▸ hwrite _

/-- Nobody's role changed, and nobody's profile came or went. -/
structure SameRoles (s t : DB) : Prop where
  role : ∀ u, (t.users.lookup u).map (·.role) = (s.users.lookup u).map (·.role)
  student : ∀ u, u ∈ t.students ↔ u ∈ s.students
  staffs : t.staffs = s.staffs

lemma sameRoles_refl : SameRoles s s := ⟨fun _ => rfl, fun _ => Iff.rfl, rfl⟩

lemma SameRoles.trans (h : SameRoles s s₁) (h' : SameRoles s₁ t) : SameRoles s t :=
  ⟨fun u => (h'.role u).trans (h.role u), fun u => (h'.student u).trans (h.student u),
    h'.staffs.trans h.staffs⟩

lemma SameProfiles.sameRoles (h : SameProfiles s t) : SameRoles s t :=
  ⟨fun u => by rw [h.users], fun u => by rw [h.students], h.staffs⟩

lemma role_modify {users : Table Id User} {status : UserStatus} :
    ((users.modify v fun user => { user with status }).lookup u).map (·.role) =
      (users.lookup u).map (·.role) := by
  rw [Table.lookup_modify]
  split
  · next h =>
    subst h
    rcases users.lookup u <;> rfl
  · rfl

lemma sameRoles_charged {n : ℤ} {ban : Bool} (h : s.chargeStudent v n ban = .ok t) :
    SameRoles s t := by
  rw [chargeStudent_ok h]
  refine ⟨fun u => ?_, fun u => by simp, rfl⟩
  cases ban with
  | false => rfl
  | true => exact role_modify

lemma sameRoles_rated {status : UserStatus} {numberFault : Option ℤ} :
    SameRoles s (rated v status numberFault s) := by
  refine ⟨fun u => role_modify, fun u => ?_, rfl⟩
  cases numberFault with
  | none => rfl
  | some n => simp [rated]

/-- **Only changes of a role change roles.** -/
theorem account_sameRoles (cfg : Config) (r : AccountRequest) :
    (r.call cfg).Steps fun s t => SameRoles s t := by
  cases r with
  | request r =>
    refine (call_steps r).mono fun s t hw => ?_
    by_cases hr : Cancels r
    · cases hw with
      | none => exact sameRoles_refl
      | charge _ h => exact sameRoles_charged h
      | cash _ => exact ⟨fun _ => rfl, fun _ => Iff.rfl, rfl⟩
      | change i hid => exact ⟨fun _ => rfl, fun _ => Iff.rfl, rfl⟩
      | _ => exact hr.elim
    · exact (sameProfiles_writes hr hw).sameRoles
  | updateUserStatus userId status =>
    refine (updateUserStatus_steps.mono fun s t hw => ?_).bind fun _ => steps_pure _
    rcases hw with rfl | ⟨numberFault, rfl⟩
    · exact sameRoles_refl
    · exact sameRoles_rated

lemma serve_sameRoles {cfg : Config} {r : AccountRequest} {ω : ℕ → Input} :
    SameRoles s (serveAccount cfg s (r, ω)) :=
  ((account_sameRoles cfg r).preserves fun _ _ hw ha => ha.trans hw).exec sameRoles_refl ω

end TsaBackend.AccountWrites
