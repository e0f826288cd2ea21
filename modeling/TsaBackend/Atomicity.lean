import TsaBackend.Registration

/-!
What creations and status changes of orders leave behind when they throw.

Each is a sequence of transactions with notifications between them. A guard or a notification that
refuses after the first of them leaves what was written.
-/

namespace TsaBackend.Atomicity

open Call OrderEffects OrderWrites Registration

variable {E : Input → Prop} {cfg : Config} {dto : CreateOrderDto} {user : GetUserType} {s t : DB}
  {id : Id} {o row : Order}

/-- Orders and their history are as before. -/
def OrdersKept (s t : DB) : Prop :=
  t.orders = s.orders ∧ t.orderStatusHistory = s.orderStatusHistory

lemma ordersKept_refl (s : DB) : OrdersKept s s := ⟨rfl, rfl⟩

/-- Nothing goes wrong after the first write of a creation. -/
structure Settled (E : Input → Prop) (cfg : Config) (s : DB) (dto : CreateOrderDto)
    (user : GetUserType) : Prop where
  claims : ∀ id o, Claims cfg s dto user id o →
    o.latestStatus = some .pending ∧ ∀ i, E i → i.ok = true
  inserts : ∀ row, Inserts cfg s dto user row → ∀ i, E i → i.ok = true
  confirms : ∀ id o, Confirms s dto user id o → o.studentId.isSome ∧ ∀ i, E i → i.ok = true

lemma placeOrder_keeps (h : Settled E cfg s dto user) (hrole : user.role = .student)
    (hu : ∃ u, s.users.lookup user.id = some u ∧ u.status ≠ .banned) :
    (placeOrder cfg dto user).wp E Any (fun _ _ => True) (fun _ t => OrdersKept s t) s := by
  refine findExistingOrder_wp (fun _ => ordersKept_refl s) ?_ ?_
  · intro id o hfilters ho hp
    dsimp only
    rw [wp_ite, wp_ite]
    split
    · next hun =>
      by_cases htakes : s.Takes (claimData cfg dto user) o
      · obtain ⟨hpending, hok⟩ := h.claims id o ⟨hrole, hu, hfilters, ho, hp, hun, htakes⟩
        exact wp_mono (claimOrder_accepts ho htakes hpending hok) (fun _ _ _ => trivial)
          fun _ _ h => h.elim
      · unfold claimOrder
        rw [wp_bind, wp_execute]
        intro i _
        obtain ⟨e, he⟩ := DB.updateOrderData_error ho htakes
        rw [he]
        exact ⟨trivial, ordersKept_refl s⟩
    · split <;> exact ordersKept_refl s
  · intro hnew
    refine insertOrder_wp (fun _ => ordersKept_refl s) fun id row t hrow hid htexts hkeys ht => ?_
    have hok := h.inserts row ⟨hrole, hu, hnew, hrow, htexts, hkeys⟩
    rw [wp_bind, getHistoryTimee, wp_read]
    refine fun _ _ => ⟨trivial, ?_⟩
    rw [wp_bind, wp_service]
    refine fun i hi => ⟨trivial, ?_⟩
    rw [if_pos (hok i hi)]
    trivial

lemma confirmOrder_keeps (ho : s.orders.lookup id = some o)
    (h : o.latestStatus = some .pending → o.studentId.isSome ∧ ∀ i, E i → i.ok = true) :
    (confirmOrder cfg user id o).wp E Any (fun _ _ => True) (fun _ t => OrdersKept s t) s := by
  by_cases hst : o.latestStatus = some .pending
  · obtain ⟨hstudent, hok⟩ := h hst
    refine wp_mono (confirmOrder_accepts ho hst hok) (fun _ _ _ => trivial) fun _ t ht => ?_
    simp [ht.1] at hstudent
  · unfold confirmOrder
    rw [wp_bind]
    refine wp_mono (accept_refused_wp ho hst) (fun _ _ h => h.elim) fun _ t ht => ?_
    rw [ht]
    exact ordersKept_refl s

lemma createOrder_keeps (h : Settled E cfg s dto user) :
    (createOrder cfg dto user).wp E Any (fun _ _ => True) (fun _ t => OrdersKept s t) s := by
  unfold createOrder
  split
  · next hrole =>
    exact createOrderByStudent_rule hrole (ordersKept_refl s) fun hu => placeOrder_keeps h hrole hu
  · split
    · next hrole =>
      unfold createOrderByAdmin validateUserForOrder
      rw [if_neg (by simp), wp_bind, wp_pure]
      refine findExistingOrder_wp (fun _ => ordersKept_refl s) ?_ ?_
      · intro id o hfilters ho hp
        dsimp only
        rw [wp_ite]
        split
        · exact ordersKept_refl s
        · next haddr =>
          refine confirmOrder_keeps ho fun hst => h.confirms id o ?_
          exact ⟨hrole, hfilters, ho, hp, by simpa using haddr, hst⟩
      · intro hnew
        refine insertOrder_wp (fun _ => ordersKept_refl s) fun id row t _ _ _ _ _ => ?_
        rw [wp_bind, getHistoryTimee, wp_read]
        exact fun _ _ => ⟨trivial, trivial⟩
    · exact ordersKept_refl s

/-- A claim stops after its first write when the order is not pending or the student cannot be
told. -/
lemma claimOrder_throws_wp (ho : s.orders.lookup id = some o)
    (htakes : s.Takes (claimData cfg dto user) o)
    (h : o.latestStatus = some .pending → ∀ i, E i → i.ok = false) :
    (claimOrder cfg dto user id o).wp E Any (fun _ _ => False)
      (fun _ t => t = claimed cfg dto user id s) s := by
  unfold claimOrder
  rw [wp_bind, wp_execute]
  intro _ _
  rw [DB.updateOrderData_eq ho htakes, claimData_update]
  refine ⟨trivial, ?_⟩
  have hclaimed : (claimed cfg dto user id s).orders.lookup id = some (claim cfg dto user o) := by
    simp [claimed, ho]
  rw [wp_bind]
  by_cases hst : o.latestStatus = some .pending
  · refine updateStatus_wp_of hclaimed (fun s₁ hs₁ => ?_) fun _ _ => rfl
    have hcharges : ¬ charges (.only .accepted) := fun h => by cases h.1
    have hs₁' := hs₁.charge
    rw [if_neg hcharges] at hs₁'
    rw [hs₁', paid_accepted (by decide)]
    exact wp_mono (recordStatus_throws_wp rfl (h hst)) (fun _ _ h => h.elim) fun _ _ h => h
  · exact wp_mono (accept_refused_wp hclaimed hst) (fun _ _ h => h.elim) fun _ _ h => h

lemma not_ordersKept (j : Id) (h : t.orders.lookup j ≠ s.orders.lookup j) : ¬ OrdersKept s t :=
  fun hkept => h (by rw [hkept.1])

section Converse

variable (hE : ∀ i : Input, i.ok = true → E i)
  (h : (createOrder cfg dto user).wp E Any (fun _ _ => True) (fun _ t => OrdersKept s t) s)

include hE h

lemma claims_settled (hc : Claims cfg s dto user id o) :
    o.latestStatus = some .pending ∧ ∀ i, E i → i.ok = true := by
  have hplace := placeOrder_of_wp hc.role hc.account hE h
  unfold placeOrder at hplace
  replace hplace := found_of_wp hc.filters hc.lookup hc.same hE hplace
  simp only [hc.unclaimed, if_true] at hplace
  -- an input on which the claim stops leaves the order claimed
  by_contra hno
  obtain ⟨i, hi, hbad⟩ : ∃ i, E i ∧ (o.latestStatus = some .pending → i.ok = false) := by
    by_cases hst : o.latestStatus = some .pending
    · rw [not_and] at hno
      obtain ⟨i, hi⟩ := not_forall.mp (hno hst)
      rw [Classical.not_imp] at hi
      exact ⟨i, hi.1, fun _ => by simpa using hi.2⟩
    · exact ⟨_, hE { (default : Input) with ok := true } rfl, fun h => absurd h hst⟩
  have hthrows : (claimOrder cfg dto user id o).wp (fun j => j = i) Any _ _ s :=
    claimOrder_throws_wp hc.lookup hc.takes fun hst j hj => hj ▸ hbad hst
  rcases wp_meet hplace hthrows ⟨i, hi, rfl⟩ with ⟨_, _, _, hfalse⟩ | ⟨_, t, hkept, rfl⟩
  · exact hfalse
  · refine not_ordersKept id ?_ hkept
    rw [claimed, Table.lookup_modify_self, hc.lookup]
    intro heq
    have hsome := congrArg Order.studentId (Option.some.inj heq)
    rw [unclaimed_studentId hc.unclaimed] at hsome
    cases hsome

lemma inserts_settled (hc : Inserts cfg s dto user row) : ∀ i, E i → i.ok = true := by
  obtain ⟨id, hid⟩ := Table.exists_notMem s.orders
  obtain ⟨t, a, ht, hwp⟩ := hc.told_of_wp hid hE h
  rw [wp_bind, wp_service] at hwp
  intro i hi
  by_contra hok
  have hkept := (hwp i hi).2
  rw [if_neg hok] at hkept
  have hmem : id ∈ t.orders := ht.mem.mpr ((AList.mem_insert _).mpr (.inl rfl))
  rw [hkept.1] at hmem
  exact hid hmem

lemma confirms_settled (hc : Confirms s dto user id o) :
    o.studentId.isSome ∧ ∀ i, E i → i.ok = true := by
  have hi : E { (default : Input) with ok := true } := hE _ rfl
  unfold createOrder createOrderByAdmin validateUserForOrder at h
  rw [if_neg (by simp [hc.role]), if_pos hc.role, if_neg (by simp), wp_bind, wp_pure] at h
  replace h := found_of_wp hc.filters hc.lookup hc.same hE h
  dsimp only at h
  rw [wp_ite, if_neg (by simp [hc.addressed])] at h
  unfold confirmOrder at h
  rw [wp_bind] at h
  rcases wp_meet h (accept_pending_wp (E := fun i => i.ok = true) hc.lookup hc.pending
    fun _ h => h) ⟨_, hi, rfl⟩ with ⟨_, t, hwp, ht⟩ | ⟨_, _, _, hfalse⟩
  · rw [wp_bind, createOrderStatusHistory, wp_execute] at hwp
    replace hwp := hwp _ hi
    rw [logged_eq_undefined (Table.mem_iff_lookup.mpr ⟨_, ht.lookup⟩)] at hwp
    have hchanged : ¬ OrdersKept s (logged { (default : Input) with ok := true } id .accepted none
        .undefined .undefined .undefined t) := by
      refine not_ordersKept id ?_
      rw [lookup_logged, if_pos rfl, ht.lookup, hc.lookup]
      intro heq
      have hst := congrArg Order.latestStatus (Option.some.inj heq)
      rw [hc.pending] at hst
      cases hst
    replace hwp := hwp.2
    rw [wp_bind] at hwp
    rcases hstudent : o.studentId with _ | u
    · rw [hstudent] at hwp
      exact absurd hwp hchanged
    · rw [hstudent] at hwp
      refine ⟨rfl, fun i hi => ?_⟩
      by_contra hok
      have hkept := (wp_service.mp hwp i hi).2
      rw [if_neg hok] at hkept
      exact hchanged hkept
  · exact hfalse.elim

end Converse

/-- **When a creation that throws has kept the orders**: when nothing goes wrong after its first
write. -/
lemma onThrow_iff_settled (hE : ∀ i : Input, i.ok = true → E i) :
    OnThrow E (createOrder cfg dto user) (OrdersKept s) s ↔ Settled E cfg s dto user := by
  rw [onThrow_iff ⟨{ (default : Input) with ok := true }, hE _ rfl⟩]
  refine ⟨fun h => ⟨fun id o => claims_settled hE h, fun row => inserts_settled hE h,
    fun id o => confirms_settled hE h⟩, createOrder_keeps⟩

/-- A parcel that an administrator registers and rejects. -/
def rejectedParcel : List (Request × (ℕ → Input)) :=
  [(.createOrder Sample.body Sample.admin, Sample.inputs 10),
   (.updateStatus 10 (.only .rejected) Sample.admin, Sample.inputs 0)]

/-- The status, the cash flag and the history of the order, the faults of students and the status of
users are as before. -/
structure StatusKept (id : Id) (s t : DB) : Prop where
  order : (t.orders.lookup id).map (fun o => (o.latestStatus, o.isPaid)) =
    (s.orders.lookup id).map fun o => (o.latestStatus, o.isPaid)
  history : t.historyOf id = s.historyOf id
  numberFault : ∀ u, (t.students.lookup u).map (·.numberFault) =
    (s.students.lookup u).map (·.numberFault)
  status : ∀ u, (t.users.lookup u).map (·.status) = (s.users.lookup u).map (·.status)

lemma statusKept_refl (id : Id) (s : DB) : StatusKept id s s :=
  ⟨rfl, rfl, fun _ => rfl, fun _ => rfl⟩

variable {dto : UpdateStatusDto} {s₁ : DB}

/-- Paying an order that is paid changes nothing that is looked at. -/
lemma statusKept_paid (ho : s.orders.lookup id = some o)
    (hpaid : paysCash o dto.status user → o.isPaid = true) :
    StatusKept id s (paid id o dto user s) := by
  refine ⟨?_, ?_, fun u => ?_, fun u => ?_⟩
  · rw [lookup_paid, ho]
    split
    · next h => simp [payCash, hpaid h.2]
    · rfl
  · rw [DB.historyOf, paid_orderStatusHistory]
    rfl
  · unfold paid
    split <;> rfl
  · unfold paid
    split <;> rfl

lemma recordStatus_onThrow {X : DB → Prop} {o₁ : Order} (ho₁ : s.orders.lookup id = some o₁)
    (h : o.studentId.isSome ∨ ¬ ImagesFit o₁ dto.canceledImage dto.finishedImage → X s) :
    (recordStatus id dto o).wp E Any (fun _ _ => True) (fun _ t => X t) s :=
  recordStatus_rule ho₁ (fun _ _ _ => trivial) (fun _ _ _ _ hsome => h (.inl hsome))
    fun hlong => h (.inr hlong)

/-- Images that are too long keep the change from being recorded. -/
lemma recordStatus_long_wp {o₁ : Order} (ho₁ : s.orders.lookup id = some o₁)
    (hlong : ¬ ImagesFit o₁ dto.canceledImage dto.finishedImage) :
    (recordStatus id dto o).wp E Any (fun _ _ => False) (fun _ t => t = s) s :=
  recordStatus_rule (Q := fun _ => False) ho₁ (fun hfit => absurd hfit hlong) (fun _ _ _ _ _ => rfl)
    fun _ => rfl

/-- A status change that passes its checks and cannot be recorded stops after what comes before. -/
lemma updateStatus_throws (ho : s.orders.lookup id = some o) (ht : Passed cfg o dto user s t)
    (hno : o.studentId.isSome ∨ ¬ ImagesFit o dto.canceledImage dto.finishedImage) :
    (updateStatus cfg id dto user).wp (fun i => i.ok = false) Any (fun _ _ => False)
      (fun _ t => ∃ s₁, Passed cfg o dto user s s₁ ∧ t = paid id o dto user s₁) s := by
  refine updateStatus_wp_of ho (fun s₁ hs₁ => ?_) fun hno => absurd ht (hno t)
  have hthrows : (recordStatus id dto o).wp (fun i => i.ok = false) Any (fun _ _ => False)
      (fun _ t => t = paid id o dto user s₁) (paid id o dto user s₁) := by
    rcases hno with hstudent | hlong
    · exact recordStatus_throws_wp hstudent fun _ h => h
    · have ho₁ : s₁.orders.lookup id = some o := by rw [(passed_orders hs₁).1, ho]
      obtain ⟨o₁, ho₁, hfit⟩ := lookup_paid_fit user dto ho₁
      exact recordStatus_long_wp ho₁ (mt (hfit _ _).mp hlong)
  exact wp_mono hthrows (fun _ _ h => h) fun _ t ht => ⟨s₁, hs₁, ht⟩

lemma not_statusKept_charged (h : Charged cfg o s s₁) :
    ¬ StatusKept id s (paid id o dto user s₁) := by
  obtain ⟨u, student, _, _, hstudent, _, hcharge⟩ := h
  intro hkept
  have hfault := hkept.numberFault u
  have hstudents : (paid id o dto user s₁).students = s₁.students := by
    unfold paid
    split <;> rfl
  rw [hstudents, chargeStudent_ok hcharge, Table.lookup_modify_self, hstudent] at hfault
  simp at hfault

lemma not_statusKept_payCash (ho : s.orders.lookup id = some o)
    (ho₁ : s₁.orders.lookup id = some o) (hcash : paysCash o dto.status user)
    (hpaid : o.isPaid ≠ true) : ¬ StatusKept id s (paid id o dto user s₁) := by
  intro hkept
  have horder := hkept.order
  rw [lookup_paid, if_pos ⟨rfl, hcash⟩, ho₁, ho] at horder
  simp only [Option.map_some, payCash, Option.some.injEq, Prod.mk.injEq] at horder
  exact hpaid horder.2.symm

/-- **Which status changes are all or nothing when the notification can be rejected**: those of
orders without a student whose images fit their columns, those that a check refuses, and those that
neither charge a fault nor mark an unpaid order as paid. -/
theorem updateStatus_all_or_nothing (cfg : Config) (s : DB) (id : Id) (dto : UpdateStatusDto)
    (user : GetUserType) :
    OnThrow (fun _ => True) (updateStatus cfg id dto user) (StatusKept id s) s ↔
      ∀ o, s.orders.lookup id = some o →
        o.studentId.isSome ∨ ¬ ImagesFit o dto.canceledImage dto.finishedImage →
        (∃ t, Passed cfg o dto user s t) →
        ¬ charges dto ∧ (paysCash o dto.status user → o.isPaid = true) := by
  rw [onThrow_iff ⟨default, trivial⟩]
  constructor
  · rintro h o ho hno ⟨t, ht⟩
    rcases wp_meet h (updateStatus_throws ho ht hno) ⟨default, trivial, rfl⟩ with
      ⟨_, _, _, hfalse⟩ | ⟨_, _, hkept, s₁, hs₁, rfl⟩
    · exact hfalse.elim
    · constructor
      · intro hcharges
        have hcharged := hs₁.charge
        rw [if_pos hcharges] at hcharged
        exact not_statusKept_charged hcharged hkept
      · intro hcash
        by_contra hpaid
        have ho₁ : s₁.orders.lookup id = some o := by rw [(passed_orders hs₁).1, ho]
        exact not_statusKept_payCash ho ho₁ hcash hpaid hkept
  · intro h
    rcases ho : s.orders.lookup id with _ | o
    · refine wp_mono (updateStatus_wp_none ho) (fun _ _ _ => trivial) fun _ t ht => ?_
      rw [ht]
      exact statusKept_refl id s
    · refine updateStatus_wp_of ho (fun s₁ hs₁ => ?_) fun _ _ => statusKept_refl id s
      have ho₁ : s₁.orders.lookup id = some o := by rw [(passed_orders hs₁).1, ho]
      obtain ⟨o₁, ho₁, hfit⟩ := lookup_paid_fit user dto ho₁
      refine recordStatus_onThrow ho₁ fun hno => ?_
      obtain ⟨hcharges, hpaid⟩ := h o ho (hno.imp_right (mt (hfit _ _).mpr)) ⟨s₁, hs₁⟩
      have hs₁' := hs₁.charge
      rw [if_neg hcharges] at hs₁'
      rw [hs₁']
      exact statusKept_paid ho hpaid

/-- A cancellation that is charged to the student. -/
def chargedCancel : UpdateStatusDto :=
  { UpdateStatusDto.only .canceled with
    reason := .val "late", canceledImage := .val "image", cancelReasonType := .val .fromStudent }

def rejecting (n : ℕ) : Input := { Sample.inputs 0 n with ok := false }

/-- A parcel of a student. -/
def pendingParcel : DB := serve Sample.config Sample.db
  (.createOrder Sample.body Sample.student, Sample.inputs 10)

/-- Its cancellation is tried twice while notifications are rejected: two faults are counted, and the
parcel is not canceled. -/
theorem charged_twice :
    let t := Machine.run (serve Sample.config) pendingParcel
      [(.updateStatus 10 chargedCancel Sample.admin, rejecting),
        (.updateStatus 10 chargedCancel Sample.admin, rejecting)]
    (pendingParcel.students.lookup 1).map (·.numberFault) = some 0 ∧
      (t.students.lookup 1).map (·.numberFault) = some 2 ∧
      (t.orders.lookup 10).map (·.latestStatus) = some (some .pending) ∧
      ¬ OnThrow (fun _ => True) (updateStatus Sample.config 10 chargedCancel Sample.admin)
        (StatusKept 10 pendingParcel) pendingParcel := by
  refine ⟨by decide +kernel, by decide +kernel, by decide +kernel, fun h => ?_⟩
  have hkept := h.of_run (ω := rejecting) (fun _ => trivial) (by decide +kernel)
  have hfault := hkept.numberFault 1
  revert hfault
  decide +kernel

end TsaBackend.Atomicity
