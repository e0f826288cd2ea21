import TsaBackend.RoleProfiles
import TsaBackend.TicketIsolation

/-!
The role a user already has, set once more.

The profile is deleted and created again, with what the database does to the rows that refer to it:
the tickets of a student go with the profile, orders and deliveries keep no trace of it.
-/

namespace TsaBackend.RoleRenewal

abbrev RoleCall (α : Type) : Type := Call TicketDB AuthInput Exn α

/-- A statement the database may not answer. -/
def statement {α : Type} (f : TicketDB → Except Exn (α × TicketDB)) : RoleCall α :=
  .atomic fun i s => if i.ok then f s else .error .rejected

/-- A statement that leaves the tickets. -/
def onProfiles {α : Type} (f : ProfileDB → Except Exn (α × ProfileDB)) (s : TicketDB) :
    Except Exn (α × TicketDB) :=
  (f s.toProfileDB).map fun r => (r.1, { s with toProfileDB := r.2 })

/-- Tickets go with the student, and what belongs to a ticket goes with the ticket. -/
def deleteStudent (s : TicketDB) (id : Id) : Except Exn TicketDB :=
  let gone (ticketId : Id) : Bool := (s.tickets.lookup ticketId).any (·.studentId = id)
  let goneReply (replyId : Id) : Bool := (s.ticketReplies.lookup replyId).any (gone ·.ticketId)
  (s.toProfileDB.deleteStudent id).map fun t => { s with
    toProfileDB := t
    tickets := s.tickets.filter fun _ ticket => ticket.studentId ≠ id
    ticketReplies := s.ticketReplies.filter fun _ reply => !gone reply.ticketId
    ticketAttachments := s.ticketAttachments.filter fun _ attachment =>
      !attachment.ticketId.any gone && !attachment.replyId.any goneReply }

def deleteProfile (id : Id) (role : UserRole) (student staff admin : Bool) : RoleCall Unit :=
  let delete (f : ProfileDB → Id → Except Exn ProfileDB) : RoleCall Unit :=
    statement (onProfiles fun s => (f s id).map fun s => ((), s))
  if role = .student ∧ student then statement fun s => (deleteStudent s id).map fun s => ((), s)
  else if role = .staff ∧ staff then delete ProfileDB.deleteStaff
  else if role = .admin ∧ admin then delete ProfileDB.deleteAdmin
  else pure ()

def createProfile (id : Id) (newRole : String) : RoleCall Unit :=
  let create (f : ProfileDB → Id → Except Exn ProfileDB) : RoleCall Unit :=
    statement (onProfiles fun s => (f s id).map fun s => ((), s))
  if newRole = "STUDENT" then create ProfileDB.createStudent
  else if newRole = "STAFF" then create ProfileDB.createStaff
  else if newRole = "ADMIN" then create ProfileDB.createAdmin
  else pure ()

def updateUserRole (id : Id) (newRole : String) : RoleCall (User × UserAccount) := do
  let found ← statement (onProfiles fun s => .ok ((s.users.lookup id).map fun user =>
    (user.role, decide (id ∈ s.students), decide (id ∈ s.staffs), decide (id ∈ s.admins)), s))
  let some (role, student, staff, admin) := found | throw (.badRequest "User not exist!")
  deleteProfile id role student staff admin
  let updatedUser ← statement (onProfiles fun s => s.updateRole id newRole)
  createProfile id newRole
  return updatedUser

open Call SessionSteps RoleProfiles

/-- The role as a request names it. -/
def roleName : UserRole → String
  | .student => "STUDENT"
  | .staff => "STAFF"
  | .admin => "ADMIN"

@[simp] lemma parseRole_roleName (role : UserRole) : parseRole (roleName role) = some role := by
  cases role <;> rfl

variable {s t : TicketDB} {id : Id} {role : UserRole} {ω : ℕ → AuthInput}

/-- Delete the profile of a role, with what goes with it. -/
def removeRows (s : TicketDB) (id : Id) : UserRole → Except Exn TicketDB
  | .student => deleteStudent s id
  | role => (removeProfile s.toProfileDB id role).map fun t => { s with toProfileDB := t }

/-- A statement that a returned call begins with has been answered. -/
lemma statement_returned {α β : Type} {f : TicketDB → Except Exn (α × TicketDB)}
    {g : α → RoleCall β} {b : β} (h : (statement f >>= g).exec ω s = (.ok b, t)) :
    ∃ a t₁, f s = .ok (a, t₁) ∧ (g a).exec (fun n => ω (n + 1)) t₁ = (.ok b, t) := by
  rw [statement, exec_answered_bind] at h
  by_cases hok : (ω 0).ok = true
  · rw [if_pos hok] at h
    rcases hf : f s with e | ⟨a, t₁⟩
    · simp [hf] at h
    · rw [hf] at h
      exact ⟨a, t₁, rfl, h⟩
  · simp [if_neg hok] at h

lemma onProfiles_ok {α : Type} {f : ProfileDB → Except Exn (α × ProfileDB)} {a : α}
    (h : onProfiles f s = .ok (a, t)) :
    ∃ t₁, f s.toProfileDB = .ok (a, t₁) ∧ t = { s with toProfileDB := t₁ } := by
  unfold onProfiles at h
  rcases hf : f s.toProfileDB with e | ⟨b, t₁⟩
  · simp [hf, Except.map] at h
  · simp only [hf, Except.map, Except.ok.injEq, Prod.mk.injEq] at h
    exact ⟨t₁, by rw [h.1], h.2.symm⟩

lemma deleteProfile_eq {student staff admin : Bool} (h : HasProfile s.toProfileDB role id)
    (hstudent : student = decide (id ∈ s.students)) (hstaff : staff = decide (id ∈ s.staffs))
    (hadmin : admin = decide (id ∈ s.admins)) : deleteProfile id role student staff admin =
      statement fun s => (removeRows s id role).map fun s => ((), s) := by
  have hmap : ∀ (f : ProfileDB → Except Exn ProfileDB) (s : TicketDB),
      onProfiles (fun s => (f s).map fun s => ((), s)) s =
        ((f s.toProfileDB).map fun t => { s with toProfileDB := t }).map fun s => ((), s) := by
    intro f s
    unfold onProfiles
    dsimp only
    rcases f s.toProfileDB with e | t <;> rfl
  cases role with
  | student =>
    have hmem : student = true := hstudent.trans (decide_eq_true h)
    rw [hmem]
    rfl
  | staff =>
    have hmem : staff = true := hstaff.trans (decide_eq_true h)
    rw [hmem]
    exact congrArg statement (funext fun s => hmap (·.deleteStaff id) s)
  | admin =>
    have hmem : admin = true := hadmin.trans (decide_eq_true h)
    rw [hmem]
    exact congrArg statement (funext fun s => hmap (·.deleteAdmin id) s)

lemma createProfile_eq : createProfile id (roleName role) =
    statement (onProfiles fun s => (addProfile s id role).map fun s => ((), s)) := by
  cases role <;> rfl

/-- **What a renewal that went through did**: the profile was deleted, the role was written and the
profile was created. -/
theorem renewal_ok {user : User} {r : User × UserAccount} (hu : s.users.lookup id = some user)
    (hprofile : HasProfile s.toProfileDB user.role id)
    (h : (updateUserRole id (roleName user.role)).exec ω s = (.ok r, t)) :
    ∃ t₁ t₂ t₃, removeRows s id user.role = .ok t₁ ∧
      t₁.toProfileDB.updateRole id (roleName user.role) = .ok (r, t₂) ∧
      addProfile t₂ id user.role = .ok t₃ ∧ t = { t₁ with toProfileDB := t₃ } := by
  unfold updateUserRole at h
  obtain ⟨found, t₀, hfound, h₀⟩ := statement_returned h
  obtain ⟨t₀', hread, rfl⟩ := onProfiles_ok hfound
  rw [hu] at hread
  cases hread
  dsimp only [Option.map_some] at h₀
  rw [deleteProfile_eq hprofile rfl rfl rfl] at h₀
  obtain ⟨_, t₁, hremove, h₁⟩ := statement_returned h₀
  obtain ⟨r', t₂, hupdate, h₂⟩ := statement_returned h₁
  obtain ⟨t₂', hrole, rfl⟩ := onProfiles_ok hupdate
  rw [createProfile_eq] at h₂
  obtain ⟨_, t₃, hcreate, h₃⟩ := statement_returned h₂
  obtain ⟨t₃', hadd, rfl⟩ := onProfiles_ok hcreate
  cases h₃
  exact ⟨t₁, t₂', t₃', of_map_ok hremove, hrole, of_map_ok hadd, rfl⟩

/-! ### What is left of the rows -/

/-- Every row of the tables is as it was. -/
structure Unchanged (s t : TicketDB) : Prop where
  user : ∀ u, t.users.lookup u = s.users.lookup u
  account : t.accounts = s.accounts
  student : ∀ u, t.students.lookup u = s.students.lookup u
  residence : ∀ u, t.residences.lookup u = s.residences.lookup u
  staff : ∀ u, u ∈ t.staffs ↔ u ∈ s.staffs
  admin : ∀ u, u ∈ t.admins ↔ u ∈ s.admins
  order : ∀ k, t.orders.lookup k = s.orders.lookup k
  delivery : ∀ k, t.deliveries.lookup k = s.deliveries.lookup k
  report : t.reports = s.reports
  ticket : ∀ k, t.tickets.lookup k = s.tickets.lookup k
  ticketReply : ∀ k, t.ticketReplies.lookup k = s.ticketReplies.lookup k
  ticketAttachment : ∀ k, t.ticketAttachments.lookup k = s.ticketAttachments.lookup k

/-- The profile is as a new one, and no row refers to it that would not survive it. -/
def Renewable (s : TicketDB) (id : Id) : UserRole → Prop
  | .student => s.students.lookup id = some { dormitory := none, numberFault := 0 } ∧
      s.residences.lookup id = some { building := none, room := none } ∧
      (∀ k o, s.orders.lookup k = some o → o.studentId ≠ some id) ∧
      ∀ k ticket, s.tickets.lookup k = some ticket → ticket.studentId ≠ id
  | .staff => (∀ k o, s.orders.lookup k = some o → o.shipperId ≠ some id) ∧
      ∀ k d, s.deliveries.lookup k = some d → d.staffId ≠ some id
  | .admin => ∀ r ∈ s.reports, r.replierId ≠ some id

/-- A row that is written again is the one that was there. -/
lemma lookup_renewed {κ ρ : Type} [DecidableEq κ] (t : Table κ ρ) (k : κ) (r : ρ) :
    (∀ j, ((t.erase k).insert k r).lookup j = t.lookup j) ↔ t.lookup k = some r := by
  refine ⟨fun h => ?_, fun h j => ?_⟩
  · rw [← h k, AList.lookup_insert]
  · by_cases hj : j = k
    · rw [hj, AList.lookup_insert, h]
    · rw [AList.lookup_insert_ne hj, AList.lookup_erase_ne hj]

lemma mem_renewed {l : List Id} (h : id ∈ l) (u : Id) :
    u ∈ id :: l.filter (· ≠ id) ↔ u ∈ l := by
  by_cases hu : u = id
  · simp [hu, h]
  · simp [hu]

lemma lookup_sameRole {users : Table Id User} {user : User} (hu : users.lookup id = some user)
    (u : Id) : (users.modify id fun r => { r with role := user.role }).lookup u =
      users.lookup u := by
  by_cases hid : u = id
  · subst hid
    rw [Table.lookup_modify_self, hu]
    rfl
  · exact Table.lookup_modify_ne _ _ hid

/-- A row that does not refer to the profile is not cut off. -/
lemma cut_same {ρ : Type} (column : ρ → Option Id) (cut : ρ → ρ) (hcut : ∀ r, column (cut r) = none)
    (r : ρ) : (if column r = some id then cut r else r) = r ↔ column r ≠ some id := by
  by_cases hr : column r = some id
  · rw [if_pos hr]
    refine iff_of_false (fun heq => ?_) (not_not.mpr hr)
    rw [← heq, hcut] at hr
    cases hr
  · simp [hr]

lemma lookup_cut {κ ρ : Type} [DecidableEq κ] (id : Id) (column : ρ → Option Id) (cut : ρ → ρ)
    (hcut : ∀ r, column (cut r) = none) (t : Table κ ρ) :
    (∀ k, (t.mapRows fun r => if column r = some id then cut r else r).lookup k = t.lookup k) ↔
      ∀ k r, t.lookup k = some r → column r ≠ some id := by
  rw [Table.mapRows_same]
  exact forall₂_congr fun k r => imp_congr_right fun _ => cut_same column cut hcut r

lemma deleteStudent_ok (h : deleteStudent s id = .ok t) : id ∈ s.students ∧ ∃ gone : Id → Bool,
    ∃ goneReply : Id → Bool,
      (∀ k, gone k = (s.tickets.lookup k).any (·.studentId = id)) ∧
      (∀ k, goneReply k = (s.ticketReplies.lookup k).any (gone ·.ticketId)) ∧
      t = { s with
        students := s.students.erase id
        residences := s.residences.erase id
        orders := s.orders.mapRows fun o =>
          if o.studentId = some id then { o with studentId := none } else o
        tickets := s.tickets.filter fun _ ticket => ticket.studentId ≠ id
        ticketReplies := s.ticketReplies.filter fun _ reply => !gone reply.ticketId
        ticketAttachments := s.ticketAttachments.filter fun _ attachment =>
          !attachment.ticketId.any gone && !attachment.replyId.any goneReply } := by
  unfold deleteStudent ProfileDB.deleteStudent at h
  by_cases hid : id ∈ s.students
  · rw [if_neg (not_not.mpr hid)] at h
    split at h
    · cases h
    · cases h
      exact ⟨hid, _, _, fun _ => rfl, fun _ => rfl, rfl⟩
  · rw [if_pos hid] at h
    cases h

/-- Without a ticket of the student nothing goes with one. -/
lemma nothing_gone {gone goneReply : Id → Bool}
    (hgone : ∀ k, gone k = (s.tickets.lookup k).any (·.studentId = id))
    (hgoneReply : ∀ k, goneReply k = (s.ticketReplies.lookup k).any (gone ·.ticketId))
    (hticket : ∀ k ticket, s.tickets.lookup k = some ticket → ticket.studentId ≠ id) :
    (∀ k, gone k = false) ∧ ∀ k, goneReply k = false := by
  have hnone : ∀ k, gone k = false := by
    intro k
    rw [hgone]
    rcases hk : s.tickets.lookup k with _ | ticket
    · rfl
    · simpa using hticket k ticket hk
  refine ⟨hnone, fun k => ?_⟩
  rw [hgoneReply]
  rcases s.ticketReplies.lookup k with _ | reply
  · rfl
  · exact hnone _

lemma any_eq_false {p : Id → Bool} (h : ∀ k, p k = false) (o : Option Id) : o.any p = false := by
  rcases o with _ | k
  · rfl
  · exact h k

section Roles

variable {user : User} {r : User × UserAccount} {t₂ t₃ : ProfileDB} {t₁ : TicketDB}

/-- The role that is written is the one there was. -/
lemma updateRole_same (h : t₂.updateRole id (roleName role) = .ok (r, t₃)) :
    t₃ = { t₂ with users := t₂.users.modify id fun user => { user with role } } := by
  obtain ⟨role', hparse, -, rfl⟩ := updateRole_ok h
  rw [parseRole_roleName, Option.some.injEq] at hparse
  rw [hparse]

lemma renewed_student (hu : s.users.lookup id = some user)
    (hremove : deleteStudent s id = .ok t₁)
    (hupdate : t₁.toProfileDB.updateRole id (roleName user.role) = .ok (r, t₂))
    (hadd : t₂.createStudent id = .ok t₃) :
    Unchanged s { t₁ with toProfileDB := t₃ } ↔ Renewable s id .student := by
  obtain ⟨-, gone, goneReply, hgone, hgoneReply, rfl⟩ := deleteStudent_ok hremove
  obtain rfl := updateRole_same hupdate
  obtain ⟨-, rfl⟩ := createStudent_ok hadd
  have horders := lookup_cut id Order.studentId (fun o => { o with studentId := none })
    (fun _ => rfl) s.orders
  have htickets : (∀ k, (s.tickets.filter fun _ ticket => ticket.studentId ≠ id).lookup k =
      s.tickets.lookup k) ↔ ∀ k ticket, s.tickets.lookup k = some ticket →
        ticket.studentId ≠ id := by
    rw [Table.filter_same]
    exact forall₃_congr fun _ _ _ => decide_eq_true_iff
  constructor
  · intro h
    exact ⟨(lookup_renewed _ _ _).mp h.student, (lookup_renewed _ _ _).mp h.residence,
      horders.mp h.order, htickets.mp h.ticket⟩
  · rintro ⟨hstudent, hresidence, horder, hticket⟩
    obtain ⟨hnone, hnoreply⟩ := nothing_gone hgone hgoneReply hticket
    exact {
      user := lookup_sameRole hu
      account := rfl
      student := (lookup_renewed _ _ _).mpr hstudent
      residence := (lookup_renewed _ _ _).mpr hresidence
      staff := fun _ => Iff.rfl
      admin := fun _ => Iff.rfl
      order := horders.mpr horder
      delivery := fun _ => rfl
      report := rfl
      ticket := htickets.mpr hticket
      ticketReply := Table.filter_same.mpr fun k reply _ => by simp [hnone]
      ticketAttachment := Table.filter_same.mpr fun k attachment _ => by
        simp [any_eq_false hnone, any_eq_false hnoreply] }

lemma renewed_staff (hu : s.users.lookup id = some user)
    (hremove : s.toProfileDB.deleteStaff id = .ok t₂)
    (hupdate : t₂.updateRole id (roleName user.role) = .ok (r, t₃)) {t₄ : ProfileDB}
    (hadd : t₃.createStaff id = .ok t₄) :
    Unchanged s { s with toProfileDB := t₄ } ↔ Renewable s id .staff := by
  obtain rfl := updateRole_same hupdate
  obtain ⟨-, rfl⟩ := createStaff_ok hadd
  obtain ⟨hid, rfl⟩ := deleteStaff_ok hremove
  have horders := lookup_cut id Order.shipperId (fun o => { o with shipperId := none })
    (fun _ => rfl) s.orders
  have hdeliveries := lookup_cut id Delivery.staffId (fun d => { d with staffId := none })
    (fun _ => rfl) s.deliveries
  constructor
  · intro h
    exact ⟨horders.mp h.order, hdeliveries.mp h.delivery⟩
  · rintro ⟨horder, hdelivery⟩
    exact {
      user := lookup_sameRole hu
      account := rfl
      student := fun _ => rfl
      residence := fun _ => rfl
      staff := mem_renewed hid
      admin := fun _ => Iff.rfl
      order := horders.mpr horder
      delivery := hdeliveries.mpr hdelivery
      report := rfl
      ticket := fun _ => rfl
      ticketReply := fun _ => rfl
      ticketAttachment := fun _ => rfl }

lemma renewed_admin (hu : s.users.lookup id = some user)
    (hremove : s.toProfileDB.deleteAdmin id = .ok t₂)
    (hupdate : t₂.updateRole id (roleName user.role) = .ok (r, t₃)) {t₄ : ProfileDB}
    (hadd : t₃.createAdmin id = .ok t₄) :
    Unchanged s { s with toProfileDB := t₄ } ↔ Renewable s id .admin := by
  obtain rfl := updateRole_same hupdate
  obtain ⟨-, rfl⟩ := createAdmin_ok hadd
  obtain ⟨hid, rfl⟩ := deleteAdmin_ok hremove
  have hreports : s.reports.map (fun r =>
      if r.replierId = some id then { r with replierId := none } else r) = s.reports ↔
      ∀ r ∈ s.reports, r.replierId ≠ some id := by
    have hmap := List.map_eq_map_iff (l := s.reports) (g := fun r => r)
      (f := fun r => if r.replierId = some id then { r with replierId := none } else r)
    rw [List.map_id'] at hmap
    exact hmap.trans (forall₂_congr fun r _ =>
      cut_same Report.replierId (fun r => { r with replierId := none }) (fun _ => rfl) r)
  constructor
  · exact fun h => hreports.mp h.report
  · intro hreport
    exact {
      user := lookup_sameRole hu
      account := rfl
      student := fun _ => rfl
      residence := fun _ => rfl
      staff := fun _ => Iff.rfl
      admin := mem_renewed hid
      order := fun _ => rfl
      delivery := fun _ => rfl
      report := hreports.mpr hreport
      ticket := fun _ => rfl
      ticketReply := fun _ => rfl
      ticketAttachment := fun _ => rfl }

end Roles

/-- **When setting the role a user has changes nothing**: for a user with the profile of the role,
when the call returns, just when the profile is as a new one and no order, delivery, ticket or
report refers to it that the database would cut off or delete. -/
theorem renewal_noop_iff (s t : TicketDB) (id : Id) (user : User)
    (hu : s.users.lookup id = some user) (hprofile : HasProfile s.toProfileDB user.role id)
    (ω : ℕ → AuthInput) (r : User × UserAccount)
    (h : (updateUserRole id (roleName user.role)).exec ω s = (.ok r, t)) :
    Unchanged s t ↔ Renewable s id user.role := by
  obtain ⟨t₁, t₂, t₃, hremove, hupdate, hadd, rfl⟩ := renewal_ok hu hprofile h
  have hdeleted : ∀ {x : Except Exn ProfileDB},
      (x.map fun t => { s with toProfileDB := t }) = .ok t₁ →
        ∃ t, x = .ok t ∧ t₁ = { s with toProfileDB := t } := by
    intro x hx
    rcases x with e | t
    · cases hx
    · cases hx
      exact ⟨t, rfl, rfl⟩
  generalize hrole : user.role = role at hremove hadd ⊢
  cases role with
  | student => exact renewed_student hu hremove hupdate hadd
  | staff =>
    obtain ⟨t, hdelete, rfl⟩ := hdeleted hremove
    exact renewed_staff hu hdelete hupdate hadd
  | admin =>
    obtain ⟨t, hdelete, rfl⟩ := hdeleted hremove
    exact renewed_admin hu hdelete hupdate hadd

/-- No row refers to the profile, as seen in the entries of the tables. -/
lemma renewable_staff (horders : ∀ e ∈ s.orders.entries, e.2.shipperId ≠ some id)
    (hdeliveries : ∀ e ∈ s.deliveries.entries, e.2.staffId ≠ some id) : Renewable s id .staff :=
  ⟨fun _ _ h => horders _ (Table.lookup_eq_some.mp h),
    fun _ _ h => hdeliveries _ (Table.lookup_eq_some.mp h)⟩

/-- The role of this user, set once more. -/
def renewed (id : Id) (newRole : String) : Except Exn (User × UserAccount) × TicketDB :=
  (updateUserRole id newRole).exec (fun _ => Lockout.sampleInputs 0 0) TicketIsolation.twoTickets

/-- A shipper without orders is a shipper again. -/
theorem renewal_noop_staff : Unchanged TicketIsolation.twoTickets (renewed 3 "STAFF").2 := by
  have hok : (renewed 3 "STAFF").1.isOk = true := by decide +kernel
  rcases hexec : renewed 3 "STAFF" with ⟨e | r, t⟩
  · rw [hexec] at hok
    cases hok
  · exact (renewal_noop_iff TicketIsolation.twoTickets t 3 ⟨.staff, .available⟩ (by decide +kernel)
      (show 3 ∈ TicketIsolation.twoTickets.staffs by decide +kernel) _ r hexec).mpr
      (renewable_staff (by decide +kernel) (by decide +kernel))

/-- A student with a ticket, an order and a room loses all three. -/
theorem renewal_cuts_off_student :
    let s := TicketIsolation.twoTickets
    let t := (renewed 1 "STUDENT").2
    s.users.lookup 1 = some ⟨.student, .available⟩ ∧ 1 ∈ s.students ∧
      (renewed 1 "STUDENT").1.isOk = true ∧
      (s.tickets.lookup 10).map (·.studentId) = some 1 ∧ t.tickets.lookup 10 = none ∧
      (s.orders.lookup 10).map (·.studentId) = some (some 1) ∧
      (t.orders.lookup 10).map (·.studentId) = some none ∧
      s.residences.lookup 1 = some ⟨some "A1", some "101"⟩ ∧
      t.residences.lookup 1 = some ⟨none, none⟩ ∧ ¬ Unchanged s t := by
  intro s t
  have hold : (s.tickets.lookup 10).isSome = true := by decide +kernel
  have hnew : t.tickets.lookup 10 = none := by decide +kernel
  refine ⟨by decide +kernel, by decide +kernel, by decide +kernel, by decide +kernel, hnew,
    by decide +kernel, by decide +kernel, by decide +kernel, by decide +kernel, fun h => ?_⟩
  rw [← h.ticket, hnew] at hold
  cases hold

/-! ### The tables without tickets -/

/-- Without its tickets the call is one of the earlier ones. -/
def Refines {α : Type} (c : RoleCall α) (c' : ProfileCall α) : Prop :=
  ∀ ω s, (c.exec ω s).1 = (c'.exec ω s.toProfileDB).1 ∧
    (c.exec ω s).2.toProfileDB = (c'.exec ω s.toProfileDB).2

lemma refines_statement {α β : Type} {f : TicketDB → Except Exn (α × TicketDB)}
    {f' : ProfileDB → Except Exn (α × ProfileDB)} {g : α → RoleCall β} {g' : α → ProfileCall β}
    (hf : ∀ s, (f s).map (fun r => (r.1, r.2.toProfileDB)) = f' s.toProfileDB)
    (hg : ∀ a, Refines (g a) (g' a)) :
    Refines (statement f >>= g) (TsaBackend.statement f' >>= g') := by
  intro ω s
  rw [statement, exec_answered_bind, TsaBackend.statement, exec_answered_bind, ← hf]
  by_cases hok : (ω 0).ok = true
  · rw [if_pos hok, if_pos hok]
    rcases f s with e | ⟨a, t⟩
    · exact ⟨rfl, rfl⟩
    · exact hg a _ t
  · rw [if_neg hok, if_neg hok]
    exact ⟨rfl, rfl⟩

lemma refines_onProfiles {α β : Type} {f : ProfileDB → Except Exn (α × ProfileDB)}
    {g : α → RoleCall β} {g' : α → ProfileCall β} (hg : ∀ a, Refines (g a) (g' a)) :
    Refines (statement (onProfiles f) >>= g) (TsaBackend.statement f >>= g') := by
  refine refines_statement (fun s => ?_) hg
  unfold onProfiles
  rcases f s.toProfileDB with e | ⟨a, t⟩ <;> rfl

lemma refines_deleteProfile {α : Type} {role : UserRole} {student staff admin : Bool}
    {g : Unit → RoleCall α} {g' : Unit → ProfileCall α} (hg : ∀ a, Refines (g a) (g' a)) :
    Refines (deleteProfile id role student staff admin >>= g)
      (TsaBackend.deleteProfile id role student staff admin >>= g') := by
  unfold deleteProfile TsaBackend.deleteProfile
  by_cases hstudent : role = .student ∧ student = true
  · rw [if_pos hstudent, if_pos hstudent]
    refine refines_statement (fun s => ?_) hg
    unfold deleteStudent
    rcases s.toProfileDB.deleteStudent id with e | t <;> rfl
  rw [if_neg hstudent, if_neg hstudent]
  by_cases hstaff : role = .staff ∧ staff = true
  · rw [if_pos hstaff, if_pos hstaff]
    exact refines_onProfiles hg
  rw [if_neg hstaff, if_neg hstaff]
  by_cases hadmin : role = .admin ∧ admin = true
  · rw [if_pos hadmin, if_pos hadmin]
    exact refines_onProfiles hg
  · rw [if_neg hadmin, if_neg hadmin]
    exact hg ()

lemma refines_createProfile {α : Type} {newRole : String} {g : Unit → RoleCall α}
    {g' : Unit → ProfileCall α} (hg : ∀ a, Refines (g a) (g' a)) :
    Refines (createProfile id newRole >>= g) (TsaBackend.createProfile id newRole >>= g') := by
  unfold createProfile TsaBackend.createProfile
  by_cases hstudent : newRole = "STUDENT"
  · rw [if_pos hstudent, if_pos hstudent]
    exact refines_onProfiles hg
  rw [if_neg hstudent, if_neg hstudent]
  by_cases hstaff : newRole = "STAFF"
  · rw [if_pos hstaff, if_pos hstaff]
    exact refines_onProfiles hg
  rw [if_neg hstaff, if_neg hstaff]
  by_cases hadmin : newRole = "ADMIN"
  · rw [if_pos hadmin, if_pos hadmin]
    exact refines_onProfiles hg
  · rw [if_neg hadmin, if_neg hadmin]
    exact hg ()

/-- **A change of a role does to the profiles what it does without tickets.** -/
theorem updateUserRole_refines (id : Id) (newRole : String) :
    Refines (updateUserRole id newRole) (TsaBackend.updateUserRole id newRole) := by
  unfold updateUserRole TsaBackend.updateUserRole
  refine refines_onProfiles fun found => ?_
  rcases found with _ | ⟨role, student, staff, admin⟩
  · exact fun _ _ => ⟨rfl, rfl⟩
  · refine refines_deleteProfile fun _ => refines_onProfiles fun updatedUser => ?_
    exact refines_createProfile fun _ _ _ => ⟨rfl, rfl⟩

end TsaBackend.RoleRenewal
