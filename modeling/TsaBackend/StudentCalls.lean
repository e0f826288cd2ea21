import TsaBackend.Accounts

/-!
What students can do to orders through the endpoints of the order controller: to the money
of any order, and to the orders of other students.

The body of a request reaches the money columns, and only creation looks at whose order it
is. Both results say for which requests this does harm.
-/

namespace TsaBackend.StudentCalls

open Call OrderEffects OrderWrites Accounts

/-- A request to the order controller. -/
inductive OrderRequest
  | create (dto : CreateOrderDto)
  | updateInfo (id : Id) (dto : CreateOrderDto)
  | updateStatus (id : Id) (dto : UpdateStatusDto)
  | remove (id : Id)

def OrderRequest.call (cfg : Config) (user : GetUserType) : OrderRequest → Async Unit
  | .create dto => do let _ ← OrdersController.create cfg dto user
  | .updateInfo id dto => do let _ ← OrdersController.updateInfo cfg id dto user
  | .updateStatus id dto => do let _ ← OrdersController.updateStatus cfg id dto user
  | .remove id => do let _ ← OrdersController.remove id user

variable {cfg : Config} {user : GetUserType} {s t : DB} {id j : Id} {o row : Order}
  {Q : DB → Prop}

lemma ends_create {dto : CreateOrderDto} (hrole : user.role = .student) :
    Ends ((OrderRequest.create dto).call cfg user) s Q ↔ Ends (createOrder cfg dto user) s Q := by
  have hcheck : checkRowLevelPermission user (dto.studentId.arg.toOption.map fun u => [u])
      [.admin, .staff, .student] = Pure.pure false ∨
      checkRowLevelPermission user (dto.studentId.arg.toOption.map fun u => [u])
      [.admin, .staff, .student] = Pure.pure true := by
    unfold checkRowLevelPermission
    rcases dto.studentId.arg.toOption with _ | u
    · exact .inl rfl
    · exact .inr (by simp [hrole])
  refine ends_drop.trans ?_
  unfold OrdersController.create rolesGuard
  rw [if_pos (by simp [hrole])]
  rcases hcheck with h | h <;> rw [h] <;> rfl

lemma ends_updateInfo {dto : CreateOrderDto} (hrole : user.role = .student) :
    Ends ((OrderRequest.updateInfo id dto).call cfg user) s Q ↔
      Ends (updateOrderInfo cfg id dto user) s Q := by
  refine ends_drop.trans ?_
  unfold OrdersController.updateInfo rolesGuard
  rw [if_pos (by simp [hrole])]
  rfl

lemma ends_updateStatus {dto : UpdateStatusDto} (hrole : user.role = .student) :
    Ends ((OrderRequest.updateStatus id dto).call cfg user) s Q ↔
      Ends (TsaBackend.updateStatus cfg id dto user) s Q := by
  refine ends_drop.trans ?_
  unfold OrdersController.updateStatus rolesGuard
  rw [if_pos (by simp [hrole])]
  rfl

lemma ends_remove (hrole : user.role = .student) :
    Ends ((OrderRequest.remove id).call cfg user) s Q ↔ Ends (deleteOrder id user) s Q := by
  refine ends_drop.trans ?_
  unfold OrdersController.remove rolesGuard
  rw [if_pos (by simp [hrole])]
  rfl

/-- A request of a user, with the inputs it meets. -/
structure UserCall where
  user : GetUserType
  request : OrderRequest
  inputs : ℕ → Input

def serveUser (cfg : Config) (s : DB) (c : UserCall) : DB :=
  ((c.request.call cfg c.user).exec c.inputs s).2

/-! ### Money -/

/-- The order is not paid, and a student owes the whole fee. -/
def Clean (a : Account) : Prop :=
  a.isPaid = false ∧ (a.studentId.isSome → a.remainingAmount = a.shippingFee)

/-- The value makes an unpaid order a paid one. -/
def SetsPaid (isPaid : Field Bool) : Prop :=
  isPaid = .val true ∨ ∃ f, isPaid = .op f ∧ f (some false) = some (some true)

/-- The body sets the flag of no order, and leaves no student's order with a balance other
than its fee. -/
def Harmless (cfg : Config) (s : DB) (user : GetUserType) : OrderRequest → Prop
  | .create dto => ∀ row, Inserts cfg s dto user row → ¬ SetsPaid dto.isPaid
  | .updateInfo id dto => ∀ o, Edits cfg s id dto o → ¬ SetsPaid dto.isPaid ∧
      ((dto.studentId.patch o.studentId).isSome →
        dto.remainingAmount.patch o.remainingAmount = dto.shippingFee.patch o.shippingFee)
  | _ => True

lemma patchReq_false {isPaid : Field Bool} : isPaid.patchReq false = false ↔ ¬ SetsPaid isPaid := by
  cases isPaid with
  | val b => cases b <;> simp [SetsPaid, Field.patchReq, Field.patch]
  | op f => rcases hf : f (some false) with _ | _ | b <;>
      simp [SetsPaid, Field.patchReq, Field.patch, hf]
  | undefined | null | filter | other => simp [SetsPaid, Field.patchReq, Field.patch]

lemma clean_studentRow {dto : CreateOrderDto} (h : studentRow cfg dto user = .ok row) :
    Clean (account row) ↔ ¬ SetsPaid dto.isPaid := by
  rw [account_studentRow h]
  simp [Clean, patchReq_false]

lemma clean_editInfo {dto : CreateOrderDto} (ho : Clean (account o)) :
    Clean (account (editInfo cfg dto o)) ↔ ¬ SetsPaid dto.isPaid ∧
      ((dto.studentId.patch o.studentId).isSome →
        dto.remainingAmount.patch o.remainingAmount = dto.shippingFee.patch o.shippingFee) := by
  have hpaid : o.isPaid = false := ho.1
  have hacc : account (editInfo cfg dto o) = ⟨dto.studentId.patch o.studentId,
      dto.shippingFee.patch o.shippingFee, dto.remainingAmount.patch o.remainingAmount,
      dto.isPaid.patchReq o.isPaid⟩ := rfl
  rw [hacc, Clean, hpaid, patchReq_false]

lemma clean_created {dto : CreateOrderDto} (hrole : user.role = .student) (hs : All Clean s)
    (hh : ∀ row, Inserts cfg s dto user row → ¬ SetsPaid dto.isPaid)
    (h : Created cfg dto user s t) : All Clean t := by
  cases h with
  | refused => exact hs
  | claimed _ ht =>
    rw [all_same (same_logs ht), claimed, all_modify hs]
    exact fun o ho => ⟨(hs _ _ (accountOf_some ho)).1, fun _ => rfl⟩
  | inserted hrow _ ht =>
    rw [all_same (same_logs ht), all_inserted hs]
    rcases hrow with hrow | ⟨hadmin, _⟩
    · exact (clean_studentRow hrow.made).mpr (hh _ hrow)
    · cases hrole.symm.trans hadmin
  | confirmed hadmin _ => cases hrole.symm.trans hadmin

/-- **When a student's request does no harm to the money of orders.** -/
lemma clean_iff (hrole : user.role = .student) (hs : All Clean s) (r : OrderRequest) :
    Ends (r.call cfg user) s (All Clean) ↔ Harmless cfg s user r := by
  cases r with
  | create dto =>
    refine (ends_create hrole).trans ⟨fun h row hrow => ?_, fun hh => ?_⟩
    · obtain ⟨id, hid⟩ := Table.exists_notMem s.orders
      obtain ⟨t, ht, hall⟩ := hrow.reached hid h
      rw [all_same (same_logs ht), all_inserted hs] at hall
      exact (clean_studentRow hrow.made).mp hall
    · exact createOrder_ends.mono fun t => clean_created hrole hs hh
  | updateInfo id dto =>
    have hedit : All Clean (edited cfg id dto s) ↔
        ∀ o, s.orders.lookup id = some o → Clean (account (editInfo cfg dto o)) := all_modify hs
    have hclean : ∀ o, s.orders.lookup id = some o → Clean (account o) := fun o ho =>
      hs id _ (accountOf_some ho)
    refine (ends_updateInfo hrole).trans ⟨fun h o ho => ?_, fun hh => ?_⟩
    · obtain ⟨t, ht, hall⟩ := updateOrderInfo_ends.meet h
      rcases ht with ⟨_, rfl⟩ | ⟨hno, _⟩
      · exact (clean_editInfo (hclean o ho.lookup)).mp (hedit.mp hall o ho.lookup)
      · exact absurd ⟨o, ho⟩ hno
    · refine updateOrderInfo_ends.mono fun t ht => ?_
      rcases ht with ⟨⟨o, ho⟩, rfl⟩ | ⟨_, rfl⟩
      · refine hedit.mpr fun o' ho' => ?_
        obtain rfl := Option.some.inj (ho.lookup.symm.trans ho')
        exact (clean_editInfo (hclean o ho.lookup)).mpr (hh o ho)
      · exact hs
  | updateStatus id dto =>
    simp only [Harmless, iff_true]
    refine (ends_updateStatus hrole).mpr (updateStatus_accounts.mono fun t ht => ?_)
    rcases ht with ⟨⟨o, _, hover⟩, _⟩ | ⟨_, ht⟩
    · -- only staff takes cash
      cases hrole.symm.trans hover.1.1
    · exact (all_same ht).mpr hs
  | remove id =>
    simp only [Harmless, iff_true]
    refine (ends_remove hrole).mpr (deleteOrder_ends.mono fun t ht => ?_)
    rcases ht with rfl | ⟨_, hd⟩
    · exact hs
    · obtain ⟨_, rfl⟩ := DB.deleteOrder_ok hd
      intro j a ha
      rcases eq_or_ne j id with rfl | hj
      · simp [accountOf] at ha
      · exact hs j a (by simpa [accountOf, hj] using ha)

/-- **Students and the money of orders**: from tables without paid orders where students owe
their whole fees, a run of requests by students leaves every state so whose steps were all
harmless, and a request that is not harmless can end where it is not so. -/
theorem students_leave_accounts_clean (cfg : Config) (s : DB) (hs : All Clean s)
    (cs : List UserCall) (hcs : ∀ c ∈ cs, c.user.role = .student) :
    (Machine.Along (serveUser cfg) (fun s c => Harmless cfg s c.user c.request) s cs →
      All Clean (Machine.run (serveUser cfg) s cs)) ∧
    (Machine.Along (serveUser cfg)
        (fun s c => Ends (c.request.call cfg c.user) s (All Clean)) s cs ↔
      Machine.Along (serveUser cfg) (fun s c => Harmless cfg s c.user c.request) s cs) :=
  Machine.inv_along_iff (All Clean) (fun _ c hends => hends c.inputs)
    (fun _ c hc hs => clean_iff (hcs c hc) hs c.request) hs

/-- A student names his order paid when he creates it. -/
theorem student_marks_order_paid :
    All Clean Sample.db ∧
      accountOf (serveUser Sample.config Sample.db ⟨Sample.student,
        .create { Sample.body with isPaid := .val true }, Sample.inputs 10⟩) 10 =
        some ⟨some 1, some 12000, some 12000, true⟩ := by
  refine ⟨fun id a ha => ?_, by decide +kernel⟩
  cases ha

/-- A student creates an order, another one edits its room, and the first one cancels it. -/
def harmlessCalls : List UserCall :=
  [⟨Sample.student, .create Sample.body, Sample.inputs 10⟩,
   ⟨Sample.otherStudent, .updateInfo 10 { Sample.body with room := .val "301" }, Sample.inputs 0⟩,
   ⟨Sample.student, .remove 10, Sample.inputs 0⟩]

theorem students_leave_accounts_clean_edit :
    All Clean (Machine.run (serveUser Sample.config) Sample.db harmlessCalls) := by
  have hrow : ((Machine.run (serveUser Sample.config) Sample.db
      (harmlessCalls.take 1)).orders.lookup 10).all fun o => o.remainingAmount = o.shippingFee := by
    decide +kernel
  refine (students_leave_accounts_clean Sample.config Sample.db (fun id a ha => ?_) harmlessCalls
    ?_).1 ⟨fun row _ => ?_, fun o ho => ⟨?_, fun _ => ?_⟩, trivial, trivial⟩
  · cases ha
  · decide
  · simp [SetsPaid, Sample.body, CreateOrderDto.empty]
  · simp [SetsPaid, Sample.body, CreateOrderDto.empty]
  · have ho : (Machine.run (serveUser Sample.config) Sample.db
      (harmlessCalls.take 1)).orders.lookup 10 = some o := ho.lookup
    rw [ho] at hrow
    exact of_decide_eq_true hrow

/-! ### Orders of others -/

/-- The order, its history, and the faults and the account of its owner are as before. -/
structure Unchanged (id owner : Id) (s t : DB) : Prop where
  order : t.orders.lookup id = s.orders.lookup id
  history : t.historyOf id = s.historyOf id
  fault : (t.students.lookup owner).map (·.numberFault) =
    (s.students.lookup owner).map (·.numberFault)
  status : (t.users.lookup owner).map (·.status) = (s.users.lookup owner).map (·.status)

/-- The cancellation of the order can be charged to its student. -/
def Chargeable (cfg : Config) (o : Order) (s : DB) : Prop :=
  ∃ studentId student dormitory, o.studentId = some studentId ∧
    s.students.lookup studentId = some student ∧ student.dormitory = some dormitory ∧
    (shouldBan (student.numberFault + 1)
      (bannedThreshold cfg (s.dormitoryRegulations.lookup dormitory)) = true →
        studentId ∈ s.users)

/-- The status change passes every check. -/
structure Passes (cfg : Config) (s : DB) (o : Order) (dto : UpdateStatusDto)
    (user : GetUserType) : Prop where
  receivedImage : dto.status = .receivedExternal → dto.receivedImage.truthy = true
  finishedImage : dto.status = .delivered → dto.finishedImage.truthy = true
  permission : dto.status = .canceled → getCancelPermission user.role o.latestStatus = true
  reason : dto.status = .canceled → dto.cancelReasonType.toOption.isSome ∧ dto.reason.truthy = true
  canceledImage : dto.status = .canceled → dto.canceledImage.truthy = true
  charge : charges dto → Chargeable cfg o s
  valid : isValidTransition o.latestStatus dto.status = true

/-- An update of a nullable column that leaves it: the value is absent, the one there, or an operation
that gives it. -/
def Leaves {α : Type} : Field α → Option α → Prop
  | .null, old => old = none
  | .val a, old => old = some a
  | .op f, old => ∀ new ∈ f old, new = old
  | _, _ => True

/-- An update of a required column that leaves it. -/
def LeavesReq {α : Type} : Field α → α → Prop
  | .val a, old => old = a
  | .op f, old => ∀ new, f (some old) = some (some new) → new = old
  | _, _ => True

/-- Every property of the body leaves its column, and the date that is always written is the one
there. -/
structure Repeats (cfg : Config) (dto : CreateOrderDto) (o : Order) : Prop where
  shippingFee : Leaves dto.shippingFee o.shippingFee
  studentId : Leaves dto.studentId o.studentId
  checkCode : LeavesReq dto.checkCode o.checkCode
  weight : Leaves dto.weight o.weight
  shipperId : Leaves dto.shipperId o.shipperId
  isPaid : LeavesReq dto.isPaid o.isPaid
  paymentMethod : Leaves dto.paymentMethod o.paymentMethod
  building : Leaves dto.building o.building
  deliveryDate : o.deliveryDate = some (convertToUnixTimestamp cfg dto.deliveryDate)
  dormitory : Leaves dto.dormitory o.dormitory
  phone : Leaves dto.phone o.phone
  product : Leaves dto.product o.product
  room : Leaves dto.room o.room
  latestStatus : Leaves dto.latestStatus o.latestStatus
  brand : Leaves dto.brand o.brand
  remainingAmount : Leaves dto.remainingAmount o.remainingAmount
  finishedImage : Leaves dto.finishedImage o.finishedImage
  receivedImage : Leaves dto.receivedImage o.receivedImage

/-- The request is not let through to the order `id` or to its owner: an edit is refused or
repeats the order, a status change is refused, or it has images that are too long or concerns another
order, and it charges another student, a deletion is refused or concerns another order. -/
def Isolated (cfg : Config) (s : DB) (user : GetUserType) (id owner : Id) : OrderRequest → Prop
  | .create _ => True
  | .updateInfo j dto => j = id → ∀ o, Edits cfg s id dto o → Repeats cfg dto o
  | .updateStatus j dto => ∀ o, s.orders.lookup j = some o → Passes cfg s o dto user →
      (j = id → ¬ ImagesFit o dto.canceledImage dto.finishedImage) ∧
        (charges dto → o.studentId ≠ some owner)
  | .remove j => j = id → ¬ Deletes s id user

variable {owner : Id} {dto : UpdateStatusDto}

lemma chargeable_iff : Chargeable cfg o s ↔ ∃ t, Charged cfg o s t := by
  constructor
  · rintro ⟨u, student, dormitory, ho, hst, hd, hban⟩
    have hmem : u ∈ s.students := Table.mem_iff_lookup.mpr ⟨student, hst⟩
    have hok : ∃ t, s.chargeStudent u (student.numberFault + 1) (shouldBan (student.numberFault + 1)
        (bannedThreshold cfg (s.dormitoryRegulations.lookup dormitory))) = .ok t := by
      simp only [DB.chargeStudent, DB.updateStudent, hmem, if_true, Bind.bind, Except.bind]
      split
      · next hb =>
        simp only [DB.updateUser, hban hb, if_true]
        exact ⟨_, rfl⟩
      · exact ⟨_, rfl⟩
    obtain ⟨t, ht⟩ := hok
    exact ⟨t, u, student, dormitory, ho, hst, hd, ht⟩
  · rintro ⟨t, u, student, dormitory, ho, hst, hd, ht⟩
    refine ⟨u, student, dormitory, ho, hst, hd, fun hb => ?_⟩
    rw [hb, DB.chargeStudent] at ht
    obtain ⟨s', hs', ht⟩ := ok_of_bind ht
    obtain ⟨_, rfl⟩ := DB.updateStudent_ok hs'
    exact (DB.updateUser_ok ht).1

lemma passes_iff : Passes cfg s o dto user ↔ ∃ t, Passed cfg o dto user s t := by
  constructor
  · intro h
    by_cases hc : charges dto
    · obtain ⟨t, ht⟩ := chargeable_iff.mp (h.charge hc)
      exact ⟨t, h.receivedImage, h.finishedImage, h.permission, h.reason, h.canceledImage,
        by rwa [if_pos hc], h.valid⟩
    · exact ⟨s, h.receivedImage, h.finishedImage, h.permission, h.reason, h.canceledImage,
        by rw [if_neg hc], h.valid⟩
  · rintro ⟨t, h⟩
    refine ⟨h.receivedImage, h.finishedImage, h.permission, h.reason, h.canceledImage,
      fun hc => chargeable_iff.mpr ⟨t, ?_⟩, h.valid⟩
    simpa [hc] using h.charge

lemma patch_eq_iff {α : Type} {x : Field α} {old : Option α} :
    x.patch old = old ↔ Leaves x old := by
  cases x with
  | null | val => simp [Field.patch, Leaves, eq_comm]
  | op f => cases hf : f old <;> simp [Field.patch, Leaves, hf]
  | undefined | filter | other => simp [Field.patch, Leaves]

lemma patchReq_eq_iff {α : Type} {x : Field α} {old : α} :
    x.patchReq old = old ↔ LeavesReq x old := by
  cases x with
  | val => simp [Field.patchReq, Field.patch, LeavesReq, eq_comm]
  | op f => rcases hf : f (some old) with _ | _ | y <;>
      simp [Field.patchReq, Field.patch, LeavesReq, hf]
  | undefined | null | filter | other => simp [Field.patchReq, Field.patch, LeavesReq]

lemma repeats_iff {dto : CreateOrderDto} : Repeats cfg dto o ↔ editInfo cfg dto o = o := by
  refine ⟨fun hr => ?_, fun he => ?_⟩
  · simp only [editInfo, CreateOrderDto.update, ← hr.deliveryDate,
      patch_eq_iff.mpr hr.shippingFee, patch_eq_iff.mpr hr.studentId,
      patchReq_eq_iff.mpr hr.checkCode, patch_eq_iff.mpr hr.weight,
      patch_eq_iff.mpr hr.shipperId, patchReq_eq_iff.mpr hr.isPaid,
      patch_eq_iff.mpr hr.paymentMethod, patch_eq_iff.mpr hr.building,
      patch_eq_iff.mpr hr.dormitory, patch_eq_iff.mpr hr.phone, patch_eq_iff.mpr hr.product,
      patch_eq_iff.mpr hr.room, patch_eq_iff.mpr hr.latestStatus, patch_eq_iff.mpr hr.brand,
      patch_eq_iff.mpr hr.remainingAmount, patch_eq_iff.mpr hr.finishedImage,
      patch_eq_iff.mpr hr.receivedImage]
  · exact {
      shippingFee := patch_eq_iff.mp (congrArg Order.shippingFee he)
      studentId := patch_eq_iff.mp (congrArg Order.studentId he)
      checkCode := patchReq_eq_iff.mp (congrArg Order.checkCode he)
      weight := patch_eq_iff.mp (congrArg Order.weight he)
      shipperId := patch_eq_iff.mp (congrArg Order.shipperId he)
      isPaid := patchReq_eq_iff.mp (congrArg Order.isPaid he)
      paymentMethod := patch_eq_iff.mp (congrArg Order.paymentMethod he)
      building := patch_eq_iff.mp (congrArg Order.building he)
      deliveryDate := (congrArg Order.deliveryDate he).symm
      dormitory := patch_eq_iff.mp (congrArg Order.dormitory he)
      phone := patch_eq_iff.mp (congrArg Order.phone he)
      product := patch_eq_iff.mp (congrArg Order.product he)
      room := patch_eq_iff.mp (congrArg Order.room he)
      latestStatus := patch_eq_iff.mp (congrArg Order.latestStatus he)
      brand := patch_eq_iff.mp (congrArg Order.brand he)
      remainingAmount := patch_eq_iff.mp (congrArg Order.remainingAmount he)
      finishedImage := patch_eq_iff.mp (congrArg Order.finishedImage he)
      receivedImage := patch_eq_iff.mp (congrArg Order.receivedImage he) }

lemma unchanged_refl : Unchanged id owner s s := ⟨rfl, rfl, rfl, rfl⟩

lemma Unchanged.logs (h : Unchanged id owner s t) (hj : id ≠ j) {u : DB} (hl : Logs j t u) :
    Unchanged id owner s u := by
  obtain ⟨horder, hhist⟩ := hl.other hj
  obtain ⟨hst, hu⟩ := hl.people
  exact ⟨horder.trans h.order, hhist.trans h.history, by rw [hst, h.fault], by rw [hu, h.status]⟩

/-- **A creation leaves the orders of all students alone.** -/
lemma unchanged_created {dto : CreateOrderDto} (hrole : user.role = .student)
    (ho : s.orders.lookup id = some o) (howner : o.studentId = some owner)
    (h : Created cfg dto user s t) : Unchanged id owner s t := by
  cases h with
  | refused => exact unchanged_refl
  | @claimed j oj _ hclaim ht =>
    have hj : id ≠ j := by
      rintro rfl
      obtain rfl := Option.some.inj (hclaim.lookup.symm.trans ho)
      simpa [Order.unclaimed, howner] using hclaim.unclaimed
    have hclaimed : Unchanged id owner s (claimed cfg dto user j s) :=
      ⟨by simp [claimed, hj], rfl, rfl, rfl⟩
    exact hclaimed.logs hj ht
  | @inserted j row _ _ hid ht =>
    have hj : id ≠ j := by
      rintro rfl
      exact hid (Table.mem_iff_lookup.mpr ⟨o, ho⟩)
    have hinserted : Unchanged id owner s (inserted j row s) :=
      ⟨by simp [inserted, hj], rfl, rfl, rfl⟩
    exact hinserted.logs hj ht
  | confirmed hadmin _ => cases hrole.symm.trans hadmin

lemma paid_people : (paid j o dto user s).students = s.students ∧
    (paid j o dto user s).users = s.users := by
  unfold paid
  split <;> exact ⟨rfl, rfl⟩

/-- What a recorded status change leaves of the log, of students and of users. -/
lemma recorded_frame {s₁ : DB} (id j : Id) (i : Input) (hs₁ : Passed cfg o dto user s s₁) :
    (recorded i j dto (paid j o dto user s₁)).historyOf id = s.historyOf id ++
        (if id = j then [statusRow j dto.status (mapReason dto.cancelReasonType dto.reason)
          dto.canceledImage i] else []) ∧
      (recorded i j dto (paid j o dto user s₁)).students = s₁.students ∧
      (recorded i j dto (paid j o dto user s₁)).users = s₁.users := by
  refine ⟨?_, paid_people⟩
  have hhist : (paid j o dto user s₁).historyOf id = s.historyOf id := by
    simp [DB.historyOf, (passed_orders hs₁).2]
  rw [recorded, historyOf_logged, hhist]

lemma fault_charged {studentId : Id} {student : Student} {n : ℤ} {ban : Bool}
    (hst : s.students.lookup studentId = some student)
    (h : s.chargeStudent studentId n ban = .ok t) :
    (t.students.lookup studentId).map (·.numberFault) = some n := by
  rw [chargeStudent_ok h]
  simp [hst]

lemma charged_other (h : Charged cfg o s t) (hne : o.studentId ≠ some owner) :
    t.students.lookup owner = s.students.lookup owner ∧
      t.users.lookup owner = s.users.lookup owner := by
  obtain ⟨u, student, dormitory, ho, hst, hd, hc⟩ := h
  have hu : owner ≠ u := by
    rintro rfl
    exact hne ho
  rw [chargeStudent_ok hc]
  refine ⟨by simp [hu], ?_⟩
  dsimp only
  split
  · simp [hu]
  · rfl

/-- A status change that passes its checks shows in the order it concerns, and in the faults
of the student it is charged to. -/
lemma isolated_of_unchanged (ho : s.orders.lookup j = some o) (hp : Passes cfg s o dto user)
    (h : Ends (TsaBackend.updateStatus cfg j dto user) s (Unchanged id owner s)) :
    (j = id → ¬ ImagesFit o dto.canceledImage dto.finishedImage) ∧
      (charges dto → o.studentId ≠ some owner) := by
  -- let the services answer
  let ω : ℕ → Input := fun _ => { (default : Input) with ok := true }
  have hwp : (TsaBackend.updateStatus cfg j dto user).wp (fun i => i.ok = true) Any _ _ s :=
    updateStatus_wp ho
  have hω : ∀ n, (ω n).ok = true := fun _ => rfl
  have hrun := (wp_run hwp hω).2
  have hend := h ω
  -- the charge shows, whether or not the change is recorded
  have hother : ∀ s₁ t, Passed cfg o dto user s s₁ → t.students = s₁.students →
      Unchanged id owner s t → charges dto → o.studentId ≠ some owner := by
    intro s₁ t hs₁ hstudents hend hc howner
    have hcharge := hs₁.charge
    rw [if_pos hc] at hcharge
    obtain ⟨u, student, dormitory, hu, hst, _, hok⟩ := hcharge
    obtain rfl := Option.some.inj (howner.symm.trans hu)
    have hfault := hend.fault
    rw [hstudents, fault_charged hst hok, hst] at hfault
    simp at hfault
  split at hrun
  case h_2 e t hexec =>
    rw [hexec] at hend
    rcases hrun with ⟨_, hno⟩ | ⟨s₁, hs₁, ⟨i, hi, hno, _⟩ | ⟨_, hlong⟩, rfl⟩
    · obtain ⟨s₁, hs₁⟩ := passes_iff.mp hp
      exact absurd hs₁ (hno s₁)
    · rw [hi] at hno
      cases hno
    · exact ⟨fun _ => hlong, hother s₁ _ hs₁ paid_people.1 hend⟩
  case h_1 a t hexec =>
    rw [hexec] at hend
    obtain ⟨s₁, i, hs₁, _, _, rfl⟩ := hrun
    obtain ⟨hhist, hstudents, _⟩ := recorded_frame id j i hs₁
    refine ⟨?_, hother s₁ _ hs₁ hstudents hend⟩
    rintro rfl
    have := hend.history.symm.trans hhist
    simp at this

/-- A status change that is refused or not recorded, or concerns another order and another student. -/
lemma unchanged_of_isolated (hrole : user.role = .student)
    (h : ∀ o, s.orders.lookup j = some o → Passes cfg s o dto user →
      (j = id → ¬ ImagesFit o dto.canceledImage dto.finishedImage) ∧
        (charges dto → o.studentId ≠ some owner)) :
    Ends (TsaBackend.updateStatus cfg j dto user) s (Unchanged id owner s) := by
  refine ends_of_wp ?_
  rcases ho : s.orders.lookup j with _ | o
  · refine wp_mono (updateStatus_wp_none ho) (fun _ _ h => h.elim) fun _ t ht => ?_
    rw [ht]
    exact unchanged_refl
  have hpassed : ∀ s₁, Passed cfg o dto user s s₁ →
      (j = id → ¬ ImagesFit o dto.canceledImage dto.finishedImage) ∧
        Unchanged id owner s (paid j o dto user s₁) := by
    intro s₁ hs₁
    obtain ⟨hj, hc⟩ := h o ho (passes_iff.mpr ⟨s₁, hs₁⟩)
    have hpeople : s₁.students.lookup owner = s.students.lookup owner ∧
        s₁.users.lookup owner = s.users.lookup owner := by
      have hcharge := hs₁.charge
      split at hcharge
      · next hcharges => exact charged_other hcharge (hc hcharges)
      · rw [hcharge]
        exact ⟨rfl, rfl⟩
    refine ⟨hj, ?_, ?_, ?_, ?_⟩
    · -- a student takes no cash
      rw [lookup_paid, if_neg fun h => by simp [paysCash, hrole] at h, (passed_orders hs₁).1]
    · simp [DB.historyOf, (passed_orders hs₁).2]
    · rw [paid_people.1, hpeople.1]
    · rw [paid_people.2, hpeople.2]
  refine wp_mono (updateStatus_wp ho) (fun _ t ht => ?_) fun _ t ht => ?_
  · obtain ⟨s₁, i, hs₁, _, hfit, rfl⟩ := ht
    obtain ⟨hj, hun⟩ := hpassed s₁ hs₁
    exact hun.logs (fun h => hj h.symm hfit) (.log _ _ _ _ _ _ .refl)
  · rcases ht with ⟨rfl, _⟩ | ⟨s₁, hs₁, _, rfl⟩
    · exact unchanged_refl
    · exact (hpassed s₁ hs₁).2

lemma unchanged_deleted (hj : id ≠ j) (h : s.deleteOrder j = .ok t) : Unchanged id owner s t := by
  obtain ⟨_, rfl⟩ := DB.deleteOrder_ok h
  refine ⟨AList.lookup_erase_ne hj, ?_, rfl, rfl⟩
  simp only [DB.historyOf, List.filter_filter]
  refine List.filter_congr fun h _ => ?_
  by_cases hid : h.orderId = id <;> simp [hid, hj]

/-- **When an order of a student is isolated from a request of another one**: whatever the
request meets, the order, its history, and the faults and the account of its owner are as
before just when the request is not let through to them. -/
theorem isolation_iff (cfg : Config) (s : DB) (user : GetUserType) (hrole : user.role = .student)
    (id owner : Id) (o : Order) (ho : s.orders.lookup id = some o)
    (howner : o.studentId = some owner) (r : OrderRequest) :
    Ends (r.call cfg user) s (Unchanged id owner s) ↔ Isolated cfg s user id owner r := by
  cases r with
  | create dto =>
    simp only [Isolated, iff_true]
    exact (ends_create hrole).mpr
      (createOrder_ends.mono fun t => unchanged_created hrole ho howner)
  | updateInfo j dto =>
    refine (ends_updateInfo hrole).trans ⟨?_, fun h => ?_⟩
    · rintro h rfl o' ho'
      obtain ⟨t, ht, hun⟩ := updateOrderInfo_ends.meet h
      rcases ht with ⟨_, rfl⟩ | ⟨hno, _⟩
      · have horder := hun.order
        rw [repeats_iff]
        simpa [edited, ho'.lookup] using horder
      · exact absurd ⟨o', ho'⟩ hno
    · refine updateOrderInfo_ends.mono fun t ht => ?_
      rcases ht with ⟨⟨o', ho'⟩, rfl⟩ | ⟨_, rfl⟩
      · refine ⟨?_, rfl, rfl, rfl⟩
        by_cases hj : id = j
        · subst hj
          simp [edited, ho'.lookup, repeats_iff.mp (h rfl o' ho')]
        · simp [edited, hj]
      · exact unchanged_refl
  | updateStatus j dto =>
    exact (ends_updateStatus hrole).trans
      ⟨fun h o' ho' hp => isolated_of_unchanged ho' hp h, unchanged_of_isolated hrole⟩
  | remove j =>
    refine (ends_remove hrole).trans ⟨?_, fun h => ?_⟩
    · rintro h rfl hd
      obtain ⟨t, ht, hun⟩ := hd.reached h
      obtain ⟨_, rfl⟩ := DB.deleteOrder_ok ht
      have horder := hun.order
      simp [ho] at horder
    · refine deleteOrder_ends.mono fun t ht => ?_
      rcases ht with rfl | ⟨hd, ht⟩
      · exact unchanged_refl
      · refine unchanged_deleted ?_ ht
        rintro rfl
        exact h rfl hd

/-- Nobody's pending order can be set to delivered. -/
theorem isolation_iff_delivered :
    Ends ((OrderRequest.updateStatus 10 { UpdateStatusDto.only .delivered with
        finishedImage := .val "f.png" }).call Sample.config Sample.otherStudent)
      Sample.dbWithOrder (Unchanged 10 1 Sample.dbWithOrder) := by
  refine (isolation_iff Sample.config Sample.dbWithOrder Sample.otherStudent rfl 10 1 Sample.order
    rfl rfl _).mpr fun o ho hp => ?_
  obtain rfl : Sample.order = o := Option.some.inj ho
  exact absurd hp.valid (by decide)

/-- A cancellation in the name of the student who ordered. -/
def cancelDto : UpdateStatusDto :=
  { UpdateStatusDto.only .canceled with
    canceledImage := .val "c.png"
    reason := .val "changed my mind"
    cancelReasonType := .val .fromStudent }

/-- A student cancels the order of another one, who is charged for it. -/
theorem student_cancels_order_of_another :
    let s := serveUser Sample.config Sample.db
      ⟨Sample.student, .create Sample.body, Sample.inputs 10⟩
    let t := serveUser Sample.config s
      ⟨Sample.otherStudent, .updateStatus 10 cancelDto, Sample.inputs 0⟩
    (s.orders.lookup 10).bind (·.studentId) = some 1 ∧ Sample.otherStudent.id ≠ 1 ∧
      (t.orders.lookup 10).bind (·.latestStatus) = some .canceled ∧
      (t.students.lookup 1).map (·.numberFault) = some 1 ∧ ¬ Unchanged 10 1 s t := by
  intro s t
  have hfault : (t.students.lookup 1).map (·.numberFault) = some 1 := by decide +kernel
  have hbefore : (s.students.lookup 1).map (·.numberFault) = some 0 := by decide +kernel
  refine ⟨by decide +kernel, by decide, by decide +kernel, hfault, fun h => ?_⟩
  have hsame := h.fault
  rw [hfault, hbefore] at hsame
  cases hsame

end TsaBackend.StudentCalls
