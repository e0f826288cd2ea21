import TsaBackend.Accounts
import TsaBackend.StatusLog

/-!
Registering a parcel: which row a creation touches, and what the registrations of one parcel
by its student and by an administrator leave in either order.

The lookup filters by the properties the body has. A claim stores the fee of the body, and
not the columns that describe the parcel.
-/

namespace TsaBackend.Registration

open Call OrderEffects OrderWrites Accounts
open StatusLog (studentRow_latestStatus adminRow_latestStatus)

variable {E : Input → Prop} {cfg : Config} {dto : CreateOrderDto} {user : GetUserType} {s t u : DB}
  {id j : Id} {o row : Order} {Q : DB → Prop}

/-! ### Registrations that go through -/

/-- The order is `o`, and the other orders and the people are as before. -/
structure Leaves (id : Id) (o : Order) (s t : DB) : Prop where
  lookup : t.orders.lookup id = some o
  other : ∀ j, j ≠ id → t.orders.lookup j = s.orders.lookup j
  users : t.users = s.users
  students : t.students = s.students

lemma Leaves.trans {o' : Order} (h : Leaves id o s t) (h' : Leaves id o' t u) :
    Leaves id o' s u where
  lookup := h'.lookup
  other := fun j hj => (h'.other j hj).trans (h.other j hj)
  users := h'.users.trans h.users
  students := h'.students.trans h.students

lemma leaves_logged {i : Input} {status : OrderStatus} {reason : Option String}
    {canceledImage : Arg String} (ho : s.orders.lookup id = some o) :
    Leaves id { o with latestStatus := some status } s
      (logged i id status reason canceledImage .undefined .undefined s) where
  lookup := by
    rw [lookup_logged, if_pos rfl, ho]
    rfl
  other := fun j hj => by rw [lookup_logged, if_neg hj]
  users := rfl
  students := rfl

def accepted (o : Order) : Order := { o with latestStatus := some .accepted }

lemma accept_pending_wp (ho : s.orders.lookup id = some o) (hst : o.latestStatus = some .pending)
    (hok : ∀ i, E i → i.ok = true) :
    (updateStatus cfg id (.only .accepted) user).wp E Any (fun _ t => Leaves id (accepted o) s t)
      (fun _ _ => False) s := by
  have hcharges : ¬ charges (.only .accepted) := fun h => by cases h.1
  have hpassed : Passed cfg o (.only .accepted) user s s := by
    refine ⟨by simp [UpdateStatusDto.only], by simp [UpdateStatusDto.only], ?_, ?_, ?_, ?_, ?_⟩
    · exact fun h => by cases h
    · exact fun h => by cases h
    · exact fun h => by cases h
    · rw [if_neg hcharges]
    · rw [hst]
      rfl
  refine wp_mono (updateStatus_wp ho) (fun _ t ht => ?_) fun _ t ht => ?_
  · obtain ⟨s₁, i, hs₁, _, _, rfl⟩ := ht
    have hs₁ : s₁ = s := by simpa [hcharges] using hs₁.charge
    rw [hs₁, paid_accepted (by decide)]
    exact leaves_logged ho
  · rcases ht with ⟨_, hno⟩ | ⟨_, _, ⟨i, hi, hfalse, _⟩ | ⟨_, hlong⟩, _⟩
    · exact hno s hpassed
    · rw [hok i hi] at hfalse
      cases hfalse
    · exact hlong imagesFit_undefined

lemma log_wp {status : OrderStatus} {c : Unit → Async CreateOrderResponse}
    {Q : CreateOrderResponse → DB → Prop} {X : Exn → DB → Prop} (ho : s.orders.lookup id = some o)
    (hc : ∀ t, Leaves id { o with latestStatus := some status } s t → (c ()).wp E Any Q X t) :
    (createOrderStatusHistory id status none .undefined .undefined .undefined >>= c).wp E Any Q X
      s := by
  rw [wp_bind]
  refine createOrderStatusHistory_undefined_wp (Table.mem_iff_lookup.mpr ⟨o, ho⟩) fun i _ => ?_
  exact hc _ (leaves_logged ho)

lemma response_wp {f : List OrderStatusHistory → Option OrderStatus → CreateOrderResponse}
    {X : Exn → DB → Prop} (h : Q s) :
    (getHistoryTimee id >>= fun historyTime => getLatestOrderStatus id >>= fun latestStatus =>
      (Pure.pure (f historyTime latestStatus) : Async CreateOrderResponse)).wp E Any (fun _ t => Q t)
      X s := by
  rw [wp_bind, getHistoryTimee, wp_read]
  refine fun _ _ => ⟨trivial, ?_⟩
  rw [wp_bind, getLatestOrderStatus, wp_read]
  exact fun _ _ => ⟨trivial, h⟩

/-- The search finds this order. -/
def Finds (s : DB) (dto : CreateOrderDto) (id : Id) (o : Order) (i : Input) : Prop :=
  s.orders.findFirst i.pick (existingOrder dto.checkCode dto.brand) = some (id, o)

lemma found_wp {c : Option (Id × Order) → Async CreateOrderResponse}
    {Q : CreateOrderResponse → DB → Prop} {X : Exn → DB → Prop}
    (hfilters : dto.checkCode.filters false = true ∧ dto.brand.filters true = true)
    (hfind : ∀ i, E i → Finds s dto id o i) (hc : (c (some (id, o))).wp E Any Q X s) :
    (findExistingOrder dto.checkCode dto.brand >>= c).wp E Any Q X s := by
  unfold findExistingOrder
  rw [wp_bind, if_neg (not_not.mpr hfilters), wp_read]
  intro i hi
  rw [hfind i hi]
  exact ⟨trivial, hc⟩

lemma confirmOrder_accepts (ho : s.orders.lookup id = some o) (hst : o.latestStatus = some .pending)
    (hok : ∀ i, E i → i.ok = true) :
    (confirmOrder cfg user id o).wp E Any (fun _ t => Leaves id (accepted o) s t)
      (fun _ t => o.studentId = none ∧ Leaves id (accepted o) s t) s := by
  unfold confirmOrder
  rw [wp_bind]
  refine wp_mono (accept_pending_wp ho hst hok) (fun _ t ht => ?_) fun _ _ h => h.elim
  refine log_wp ht.lookup fun t' ht' => ?_
  have hleaves : Leaves id (accepted o) s t' := ht.trans ht'
  rw [wp_bind]
  rcases hstudent : o.studentId with _ | u
  · exact ⟨rfl, hleaves⟩
  refine wp_service.mpr fun i hi => ⟨trivial, ?_⟩
  rw [if_pos (hok i hi)]
  exact response_wp hleaves

/-- **A confirmation that goes through**; one of an order without a student throws after its
status rows. -/
lemma confirms_accepts (h : Confirms s dto user id o) (hfind : ∀ i, E i → Finds s dto id o i)
    (hok : ∀ i, E i → i.ok = true) :
    (createOrder cfg dto user).wp E Any (fun _ t => Leaves id (accepted o) s t)
      (fun _ t => o.studentId = none ∧ Leaves id (accepted o) s t) s := by
  unfold createOrder createOrderByAdmin validateUserForOrder
  rw [if_neg (by simp [h.role]), if_pos h.role, if_neg (by simp), wp_bind, wp_pure]
  refine found_wp h.filters hfind ?_
  dsimp only
  rw [wp_ite, if_neg (by simp [h.addressed])]
  exact confirmOrder_accepts h.lookup h.pending hok

/-- A student who may order gets to the search for an existing order. -/
lemma placeOrder_wp {Q : CreateOrderResponse → DB → Prop} {X : Exn → DB → Prop}
    (hrole : user.role = .student)
    (hu : ∃ u, s.users.lookup user.id = some u ∧ u.status ≠ .banned)
    (hday : ∀ i, E i → dto.deliveryDate.arg ≠ .val i.today)
    (h : (placeOrder cfg dto user).wp E Any Q X s) :
    (createOrder cfg dto user).wp E Any Q X s := by
  obtain ⟨u, hu, hban⟩ := hu
  unfold createOrder createOrderByStudent validateUserForOrder
  rw [if_pos hrole, if_neg (by simp [hrole]), wp_bind, wp_pure, wp_bind, wp_read]
  refine fun _ _ => ⟨trivial, ?_⟩
  simp only [hu]
  rw [wp_throwIf_bind]
  refine ⟨fun h => absurd h hban, fun _ => ?_⟩
  rw [wp_bind, wp_input]
  refine fun i hi => ⟨trivial, ?_⟩
  rw [wp_throwIf_bind]
  exact ⟨fun h => absurd h (hday i hi), fun _ => h⟩

lemma claimOrder_accepts (ho : s.orders.lookup id = some o)
    (htakes : s.Takes (claimData cfg dto user) o) (hst : o.latestStatus = some .pending)
    (hok : ∀ i, E i → i.ok = true) :
    (claimOrder cfg dto user id o).wp E Any
      (fun _ t => Leaves id (accepted (claim cfg dto user o)) s t) (fun _ _ => False) s := by
  unfold claimOrder
  have hclaimed : Leaves id (claim cfg dto user o) s (claimed cfg dto user id s) :=
    ⟨by simp [claimed, ho], fun j hj => by simp [claimed, hj], rfl, rfl⟩
  rw [wp_bind, wp_execute]
  intro _ _
  rw [DB.updateOrderData_eq ho htakes, claimData_update]
  refine ⟨trivial, ?_⟩
  rw [wp_bind]
  refine wp_mono (accept_pending_wp hclaimed.lookup hst hok) (fun _ t ht => ?_) fun _ _ h => h.elim
  refine log_wp ht.lookup fun t' ht' => ?_
  exact response_wp ((hclaimed.trans ht).trans ht')

/-- **A claim that goes through.** -/
lemma claims_accepts (h : Claims cfg s dto user id o) (hst : o.latestStatus = some .pending)
    (hfind : ∀ i, E i → Finds s dto id o i) (hok : ∀ i, E i → i.ok = true)
    (hday : ∀ i, E i → dto.deliveryDate.arg ≠ .val i.today) :
    (createOrder cfg dto user).wp E Any
      (fun _ t => Leaves id (accepted (claim cfg dto user o)) s t) (fun _ _ => False) s := by
  refine placeOrder_wp h.role h.account hday ?_
  unfold placeOrder
  refine found_wp h.filters hfind ?_
  dsimp only
  rw [wp_ite, if_pos h.unclaimed]
  exact claimOrder_accepts h.lookup h.takes hst hok

lemma inserts_wp {e : Except Exn Order} {c : Id × Order → Async CreateOrderResponse}
    {Q : CreateOrderResponse → DB → Prop} {X : Exn → DB → Prop} (he : e = .ok row)
    (hst : row.latestStatus = some .pending) (htexts : OrderTexts none row)
    (hkeys : s.OrderKeys { row with studentId := none, shipperId := none } row)
    (hnew : ∀ i, E i → i.fresh ∉ s.orders)
    (hc : ∀ id t, id ∉ s.orders → Leaves id row s t → (c (id, row)).wp E Any Q X t) :
    (insertOrder e >>= c).wp E Any Q X s := by
  unfold insertOrder
  rw [he, wp_bind, wp_bind, wp_atomic]
  intro i hi
  rw [insertRow_eq, DB.createOrder, if_neg (hnew i hi), if_neg (not_not.mpr htexts), if_pos hkeys]
  refine ⟨trivial, ?_⟩
  have hinserted : Leaves i.fresh row s (inserted i.fresh row s) :=
    ⟨by simp [inserted], fun j hj => by simp [inserted, hj], rfl, rfl⟩
  have hpending : { row with latestStatus := some .pending } = row := by rw [← hst]
  rw [wp_bind]
  refine createOrderStatusHistory_undefined_wp ((AList.mem_insert _).mpr (.inl rfl)) fun i' _ => ?_
  refine hc _ _ (hnew i hi) (hinserted.trans ?_)
  have hlogged : Leaves i.fresh { row with latestStatus := some .pending } _
      (logged i' i.fresh .pending none .undefined .undefined .undefined _) :=
    leaves_logged hinserted.lookup
  rwa [hpending] at hlogged

lemma new_wp {c : Option (Id × Order) → Async CreateOrderResponse}
    {Q : CreateOrderResponse → DB → Prop} {X : Exn → DB → Prop}
    (hfilters : dto.checkCode.filters false = true ∧ dto.brand.filters true = true)
    (hnew : ∀ id o, s.orders.lookup id = some o →
      existingOrder dto.checkCode dto.brand id o = false)
    (hc : (c none).wp E Any Q X s) :
    (findExistingOrder dto.checkCode dto.brand >>= c).wp E Any Q X s := by
  unfold findExistingOrder
  rw [wp_bind, if_neg (not_not.mpr hfilters), wp_read]
  intro i _
  rw [Table.findFirst_none.mpr hnew]
  exact ⟨trivial, hc⟩

/-- **A student's creation that goes through.** -/
lemma inserts_accepts (h : Inserts cfg s dto user row) (hnew : ∀ i, E i → i.fresh ∉ s.orders)
    (hok : ∀ i, E i → i.ok = true) (hday : ∀ i, E i → dto.deliveryDate.arg ≠ .val i.today) :
    (createOrder cfg dto user).wp E Any (fun _ t => ∃ id, id ∉ s.orders ∧ Leaves id row s t)
      (fun _ _ => False) s := by
  refine placeOrder_wp h.role h.account hday ?_
  unfold placeOrder
  refine new_wp (filters_of_studentRow h.made) h.new ?_
  refine inserts_wp h.made (studentRow_latestStatus h.made) h.texts h.keys hnew fun id t hid ht => ?_
  rw [wp_bind, getHistoryTimee, wp_read]
  refine fun _ _ => ⟨trivial, ?_⟩
  rw [wp_bind, wp_service]
  refine fun i hi => ⟨trivial, ?_⟩
  rw [if_pos (hok i hi)]
  exact ⟨id, hid, ht⟩

/-- **An administrator's creation that goes through.** -/
lemma adminInserts_accepts (h : AdminInserts s dto user row)
    (hnew : ∀ i, E i → i.fresh ∉ s.orders) :
    (createOrder cfg dto user).wp E Any (fun _ t => ∃ id, id ∉ s.orders ∧ Leaves id row s t)
      (fun _ _ => False) s := by
  unfold createOrder createOrderByAdmin validateUserForOrder
  rw [if_neg (by simp [h.role]), if_pos h.role, if_neg (by simp), wp_bind, wp_pure]
  refine new_wp (filters_of_adminRow h.made) h.new ?_
  refine inserts_wp h.made (adminRow_latestStatus h.made) h.texts h.keys hnew fun id t hid ht => ?_
  rw [wp_bind, getHistoryTimee, wp_read]
  exact fun _ _ => ⟨trivial, id, hid, ht⟩

lemma adminInserts_reached (h : AdminInserts s dto user row)
    (hends : Ends (createOrder cfg dto user) s Q) : ∃ t id, Q t ∧ Leaves id row s t := by
  obtain ⟨id, hid⟩ := Table.exists_notMem s.orders
  obtain ⟨t, hQ, id', -, ht⟩ := ends_meet hends (E := fun i => i.fresh = id)
    (i := { (default : Input) with fresh := id }) rfl
    (wp_mono (adminInserts_accepts h fun i hi => by rw [hi]; exact hid) (fun _ _ ht => ht)
      fun _ _ ht => ht.elim)
  exact ⟨t, id', hQ, ht⟩

/-- **A creation and a property of all orders** that status rows leave alone: the rows it can write
decide. -/
theorem createOrder_every_iff {I : Order → Prop} (hI : ∀ o st f r, I (setStatus st f r o) ↔ I o)
    (hs : Every I s) : Ends (createOrder cfg dto user) s (Every I) ↔
      (∀ id o, Claims cfg s dto user id o → I (claim cfg dto user o)) ∧
        (∀ row, Inserts cfg s dto user row → I row) ∧ ∀ row, AdminInserts s dto user row → I row := by
  have hlogs : ∀ {a b : DB} {id : Id}, Logs id a b → (Every I b ↔ Every I a) := every_logs hI
  have hclaimed : ∀ {id : Id} {o : Order}, Claims cfg s dto user id o →
      (Every I (claimed cfg dto user id s) ↔ I (claim cfg dto user o)) := by
    intro id o hclaim
    rw [claimed, every_modify hs]
    refine ⟨fun hall => hall o hclaim.lookup, fun h o' ho' => ?_⟩
    obtain rfl := Option.some.inj (hclaim.lookup.symm.trans ho')
    exact h
  constructor
  · refine fun h => ⟨fun id o hclaim => ?_, fun row hrow => ?_, fun row hrow => ?_⟩
    · obtain ⟨t, ht, hall⟩ := hclaim.reached h
      exact (hclaimed hclaim).mp ((hlogs ht).mp hall)
    · obtain ⟨id, hid⟩ := Table.exists_notMem s.orders
      obtain ⟨t, ht, hall⟩ := hrow.reached hid h
      exact ((every_inserted hid).mp ((hlogs ht).mp hall)).1
    · obtain ⟨t, id, hall, ht⟩ := adminInserts_reached hrow h
      exact hall id row ht.lookup
  · rintro ⟨hclaims, hinserts, hadmin⟩
    unfold createOrder
    split
    · next hrole =>
      refine (createOrderByStudent_ends hrole).mono fun t ht => ?_
      cases ht with
      | refused => exact hs
      | claimed hclaim ht => exact (hlogs ht).mpr ((hclaimed hclaim).mpr (hclaims _ _ hclaim))
      | inserted hrow hid ht =>
        refine (hlogs ht).mpr ((every_inserted hid).mpr ⟨?_, hs⟩)
        rcases hrow with hrow | ⟨hadm, _⟩
        · exact hinserts _ hrow
        · cases hrole.symm.trans hadm
      | confirmed hadm _ => cases hrole.symm.trans hadm
    · split
      · next hrole =>
        refine (createOrderByAdmin_ends hrole).mono fun t ht => ?_
        rcases ht with rfl | ⟨id, row, hrow, hid, ht⟩ | ⟨id, o, _, ht⟩
        · exact hs
        · exact (hlogs ht).mpr ((every_inserted hid).mpr ⟨hadmin row hrow, hs⟩)
        · exact (hlogs ht).mpr hs
      · exact fun _ => hs

/-! ### The requested row -/

/-- The body names the code and the brand of the order; a body without a brand names none. -/
def Requested (dto : CreateOrderDto) (o : Order) : Prop :=
  dto.checkCode = .val o.checkCode ∧
    match o.brand with
    | some brand => dto.brand = .val brand
    | none => dto.brand = .undefined ∨ dto.brand = .null

/-- A row that changed is one the body names, it still exists, and no other row changed. -/
def OnlyRequested (dto : CreateOrderDto) (s t : DB) : Prop :=
  ∀ id o, s.orders.lookup id = some o → t.orders.lookup id ≠ some o →
    Requested dto o ∧ id ∈ t.orders ∧
      ∀ j, j ≠ id → j ∈ s.orders → t.orders.lookup j = s.orders.lookup j

lemma onlyRequested_refl : OnlyRequested dto s s := fun _ _ ho hne => absurd ho hne

lemma onlyRequested_of_other (ho : s.orders.lookup id = some o) (hid : id ∈ t.orders)
    (hother : ∀ j, j ≠ id → t.orders.lookup j = s.orders.lookup j) (h : Requested dto o) :
    OnlyRequested dto s t := by
  intro j o' ho' hne
  by_cases hj : j = id
  · subst hj
    obtain rfl := Option.some.inj (ho.symm.trans ho')
    exact ⟨h, hid, fun k hk _ => hother k hk⟩
  · exact absurd ((hother j hj).trans ho') hne

lemma onlyRequested_inserted (hid : id ∉ s.orders) (ht : Logs id (inserted id row s) t) :
    OnlyRequested dto s t := by
  intro j o ho hne
  have hj : j ≠ id := by
    rintro rfl
    exact hid (Table.mem_iff_lookup.mpr ⟨o, ho⟩)
  refine absurd ?_ hne
  rw [(ht.other hj).1, inserted, AList.lookup_insert_ne hj, ho]

/-- **When a creation touches only the requested order**: just when every order it can claim
or confirm is one the body names. -/
theorem touches_only_requested_iff (cfg : Config) (s : DB) (dto : CreateOrderDto)
    (user : GetUserType) : Ends (createOrder cfg dto user) s (OnlyRequested dto s) ↔
      ∀ id o, Claims cfg s dto user id o ∨ Confirms s dto user id o → Requested dto o := by
  constructor
  · rintro h id o (hclaim | hconfirm)
    · obtain ⟨t, ht, hQ⟩ := hclaim.reached h
      refine (hQ id o hclaim.lookup fun hsame => ?_).1
      have hacc := same_logs ht id
      rw [accountOf_some hsame, accountOf, claimed, Table.lookup_modify_self, hclaim.lookup] at hacc
      have hst := congrArg Account.studentId (Option.some.inj hacc)
      simp [account, claim, unclaimed_studentId hclaim.unclaimed] at hst
    · obtain ⟨pick, hpick⟩ := Table.exists_findFirst hconfirm.lookup hconfirm.same
      obtain ⟨t, hQ, ht⟩ := ends_meet h (E := fun i => i.pick = pick ∧ i.ok = true)
        (i := { (default : Input) with pick, ok := true }) ⟨rfl, rfl⟩
        (wp_mono (confirms_accepts hconfirm (fun i hi => by rw [Finds, hi.1, hpick]) fun i hi => hi.2)
          (fun _ _ ht => ht) fun _ _ ht => ht.2)
      refine (hQ id o hconfirm.lookup fun hsame => ?_).1
      rw [ht.lookup, Option.some.injEq] at hsame
      have hst := congrArg Order.latestStatus hsame
      rw [hconfirm.pending] at hst
      cases hst
  · intro h
    unfold createOrder
    split
    · next hrole =>
      refine (createOrderByStudent_ends hrole).mono fun t ht => ?_
      cases ht with
      | refused => exact onlyRequested_refl
      | @claimed id o _ hclaim ht =>
        have hid : id ∈ t.orders := by
          rw [ht.mem, claimed, Table.mem_modify]
          exact Table.mem_iff_lookup.mpr ⟨o, hclaim.lookup⟩
        refine onlyRequested_of_other hclaim.lookup hid (fun j hj => ?_) (h id o (.inl hclaim))
        rw [(ht.other hj).1, claimed, Table.lookup_modify_ne _ _ hj]
      | inserted _ hid ht => exact onlyRequested_inserted hid ht
      | confirmed hadmin _ => cases hrole.symm.trans hadmin
    · split
      · next hrole =>
        refine (createOrderByAdmin_ends hrole).mono fun t ht => ?_
        rcases ht with rfl | ⟨id, row, -, hid, ht⟩ | ⟨id, o, hconfirm, ht⟩
        · exact onlyRequested_refl
        · exact onlyRequested_inserted hid ht
        · refine onlyRequested_of_other hconfirm.lookup ?_ (fun j hj => (ht.other hj).1)
            (h id o (.inr hconfirm))
          exact ht.mem.mpr (Table.mem_iff_lookup.mpr ⟨o, hconfirm.lookup⟩)
      · exact fun _ => onlyRequested_refl

/-- An order that an administrator registered. -/
def registeredOrder : Order := { Sample.order with
  studentId := none
  shippingFee := none
  remainingAmount := none
  paymentMethod := none
  brand := some "SHOPEE" }

def registered : DB := { Sample.db with
  orders := AList.insert 10 registeredOrder ∅
  orderStatusHistory := [⟨10, .pending, none, "900", none⟩] }

/-- A body without a code claims an order it does not name. -/
theorem claims_without_code : ¬ ∀ (cfg : Config) (s : DB) (dto : CreateOrderDto)
    (user : GetUserType), Ends (createOrder cfg dto user) s (OnlyRequested dto s) := by
  intro h
  have hends := h Sample.config registered { Sample.body with checkCode := .undefined }
    Sample.student (Sample.inputs 0)
  obtain ⟨⟨hcode, -⟩, -⟩ := hends 10 registeredOrder (by decide) (by decide +kernel)
  cases hcode

/-! ### Both registrations of one parcel -/

/-- The body of an administrator who registers the same parcel. -/
def registration (dto : CreateOrderDto) : CreateOrderDto :=
  { CreateOrderDto.empty with
    checkCode := dto.checkCode
    brand := dto.brand }

variable {student admin : GetUserType} {checkCode : String}

variable (cfg dto student admin) in
def studentFirst : Async Unit := do
  let _ ← createOrder cfg dto student
  let _ ← createOrder cfg (registration dto) admin

variable (cfg dto student admin) in
def adminFirst : Async Unit := do
  let _ ← createOrder cfg (registration dto) admin
  let _ ← createOrder cfg dto student

/-- Both calls succeed and leave the order `o` of the parcel, accepted. -/
def Registers (c : Async Unit) (ω : ℕ → Input) (s : DB) (dto : CreateOrderDto) (o : Order) : Prop :=
  (c.exec ω s).1 = .ok () ∧ o.latestStatus = some .accepted ∧ ∃ id,
    (c.exec ω s).2.orders.lookup id = some o ∧ existingOrder dto.checkCode dto.brand id o = true

/-- The parcel is new, and both may register it. -/
structure Registrable (s : DB) (dto : CreateOrderDto) (student admin : GetUserType) : Prop where
  documented : Documented dto
  code : ∃ checkCode, dto.checkCode = .val checkCode
  isStudent : student.role = .student
  known : student.id ∈ s.students
  account : ∃ u, s.users.lookup student.id = some u ∧ u.status ≠ .banned
  isAdmin : admin.role = .admin
  new : ∀ id o, s.orders.lookup id = some o → existingOrder dto.checkCode dto.brand id o = false

/-- The services answer, the id of a new row is new, and the delivery is not today. -/
def Meets (s : DB) (dto : CreateOrderDto) (i : Input) : Prop :=
  i.ok = true ∧ i.fresh ∉ s.orders ∧ dto.deliveryDate.arg ≠ .val i.today

/-- The value is absent, `null` or a text of at most 255 characters. -/
def TextFits (x : Field String) : Prop :=
  x.creates true = true ∧ ∀ a, x = .val a → a.length ≤ 255

/-- Each property of the body is absent, `null` or a value, and its texts fit their columns. -/
structure Storable (dto : CreateOrderDto) : Prop where
  checkCode : TextFits dto.checkCode
  brand : TextFits dto.brand
  product : TextFits dto.product
  building : TextFits dto.building
  room : TextFits dto.room
  dormitory : dto.dormitory.creates true = true
  weight : dto.weight.creates true = true
  paymentMethod : dto.paymentMethod.creates true = true

/-- The row of a student. -/
def studentOrder (cfg : Config) (dto : CreateOrderDto) (user : GetUserType) (checkCode : String) :
    Order where
  shippingFee := some (feeOf dto)
  studentId := some user.id
  checkCode
  weight := dto.weight.patch none
  shipperId := none
  isPaid := false
  paymentMethod := dto.paymentMethod.patch none
  building := dto.building.patch none
  deliveryDate := some (convertToUnixTimestamp cfg dto.deliveryDate)
  dormitory := dto.dormitory.patch none
  phone := none
  product := dto.product.patch none
  room := dto.room.patch none
  latestStatus := some .pending
  brand := dto.brand.patch none
  remainingAmount := some (feeOf dto)
  finishedImage := none
  receivedImage := none

/-- The row of an administrator. -/
def adminOrder (dto : CreateOrderDto) (checkCode : String) : Order where
  shippingFee := none
  studentId := none
  checkCode
  weight := none
  shipperId := none
  isPaid := false
  paymentMethod := none
  building := none
  deliveryDate := none
  dormitory := none
  phone := none
  product := none
  room := none
  latestStatus := some .pending
  brand := dto.brand.patch none
  remainingAmount := none
  finishedImage := none
  receivedImage := none

lemma studentRow_eq (hdoc : Documented dto) (hs : Storable dto)
    (hcode : dto.checkCode = .val checkCode) :
    studentRow cfg dto user = .ok (studentOrder cfg dto user checkCode) := by
  obtain ⟨_, _, hphone, hshipper, hpaid, _, _, hfinished, hreceived⟩ := hdoc
  simp [studentRow, CreateOrderDto.create, CreateOrderDto.creates, hcode, hpaid, hphone, hshipper,
    hfinished, hreceived, hs.brand.1, hs.product.1, hs.building.1, hs.room.1, hs.dormitory, hs.weight,
    hs.paymentMethod, studentOrder, Field.patch, Field.patchReq, CreateOrderDto.amount,
    feeOf]

lemma adminRow_eq (hs : Storable dto) (hcode : dto.checkCode = .val checkCode) :
    adminRow (registration dto) = .ok (adminOrder dto checkCode) := by
  simp [adminRow, registration, CreateOrderDto.empty, CreateOrderDto.create, CreateOrderDto.creates,
    hcode, hs.brand.1, adminOrder, Field.patch, Field.patchReq]

lemma fits_of_text {x : Field String} (h : TextFits x) : Fits 255 none (x.patch none) := by
  cases x with
  | val a => exact .inr fun _ ha => Option.some.inj ha ▸ h.2 a rfl
  | undefined | null => exact .inl rfl
  | op | filter | other => cases h.1

lemma text_of_fits {x : Field String} (hc : x.creates true = true)
    (h : Fits 255 none (x.patch none)) : TextFits x := by
  refine ⟨hc, fun a ha => ?_⟩
  rw [ha] at h
  exact h.resolve_left nofun a rfl

/-- Only a storable body makes a row of a student that can be inserted. -/
lemma storable_of_row (h : studentRow cfg dto user = .ok row) (htexts : OrderTexts none row) :
    Storable dto := by
  obtain ⟨hcreates, checkCode, hcode, rfl⟩ := CreateOrderDto.create_ok h
  change dto.checkCode = .val checkCode at hcode
  obtain ⟨hwidth, hbuilding, _, hproduct, hroom, hbrand, _⟩ := htexts
  simp only [CreateOrderDto.creates, Bool.and_eq_true] at hcreates
  obtain ⟨⟨⟨⟨⟨⟨⟨⟨⟨⟨⟨⟨⟨⟨⟨⟨_, _⟩, _⟩, hdorm⟩, hb⟩, hr⟩, _⟩, hw⟩, _⟩, _⟩, hm⟩, hp⟩, _⟩, hbr⟩, _⟩, _⟩,
    _⟩ := hcreates
  refine ⟨⟨by rw [hcode]; rfl, fun a ha => ?_⟩, text_of_fits hbr hbrand, text_of_fits hp hproduct,
    text_of_fits hb hbuilding, text_of_fits hr hroom, hdorm, hw, hm⟩
  obtain rfl : checkCode = a := Field.val.inj (hcode.symm.trans ha)
  exact hwidth.resolve_left (Option.some_ne_none _) checkCode rfl

lemma existingOrder_of_eq (hs : Storable dto) (hcode : dto.checkCode = .val checkCode)
    (ho : o.checkCode = checkCode) (hbrand : o.brand = dto.brand.patch none) :
    existingOrder dto.checkCode dto.brand id o = true := by
  have hc := hs.brand.1
  rw [existingOrder, hcode, ho, hbrand]
  cases hb : dto.brand with
  | undefined | null | val => simp [Field.keeps, Field.patch]
  | op | filter | other =>
    rw [hb] at hc
    cases hc

lemma finds_of_leaves {dto' : CreateOrderDto} (hnew : ∀ id o, s.orders.lookup id = some o →
    existingOrder dto'.checkCode dto'.brand id o = false) (ht : Leaves id o s t)
    (ho : existingOrder dto'.checkCode dto'.brand id o = true) (i : Input) :
    Finds t dto' id o i := by
  rw [Finds]
  rcases hf : t.orders.findFirst i.pick (existingOrder dto'.checkCode dto'.brand) with _ | ⟨j, r⟩
  · rw [Table.findFirst_none.mp hf id o ht.lookup] at ho
    cases ho
  · obtain ⟨hr, hp⟩ := Table.findFirst_some hf
    by_cases hj : j = id
    · subst hj
      rw [Option.some.inj (hr.symm.trans ht.lookup)]
    · rw [ht.other j hj] at hr
      rw [hnew j r hr] at hp
      cases hp

lemma convertToUnixTimestamp_ne_empty (d : Field String) : convertToUnixTimestamp cfg d ≠ "" := by
  have hint : ∀ n : ℤ, toString n ≠ "" := by
    intro n
    cases n with
    | ofNat n => exact Nat.repr_ne_empty
    | negSucc n => exact fun h => absurd (congrArg String.length h) (by simp [toString, Int.repr])
  unfold convertToUnixTimestamp
  dsimp only
  split
  · exact hint _
  · decide

lemma studentOrder_addressed : (studentOrder cfg dto user checkCode).unaddressed = false := by
  simp [Order.unaddressed, studentOrder, truthy, convertToUnixTimestamp_ne_empty]

lemma adminOrder_unclaimed : (adminOrder dto checkCode).unclaimed = true := rfl

lemma student_inserts (h : Registrable s dto student admin) (hs : Storable dto)
    (hcode : dto.checkCode = .val checkCode) :
    Inserts cfg s dto student (studentOrder cfg dto student checkCode) where
  role := h.isStudent
  account := h.account
  new := h.new
  made := studentRow_eq h.documented hs hcode
  texts := ⟨.inr fun _ ha => Option.some.inj ha ▸ hs.checkCode.2 _ hcode, fits_of_text hs.building,
    .inl rfl, fits_of_text hs.product, fits_of_text hs.room, fits_of_text hs.brand, .inl rfl⟩
  keys := by simpa [DB.OrderKeys, studentOrder] using h.known

lemma admin_inserts (h : Registrable s dto student admin) (hs : Storable dto)
    (hcode : dto.checkCode = .val checkCode) :
    AdminInserts s (registration dto) admin (adminOrder dto checkCode) where
  role := h.isAdmin
  new := h.new
  made := adminRow_eq hs hcode
  texts := ⟨.inr fun _ ha => Option.some.inj ha ▸ hs.checkCode.2 _ hcode, .inl rfl, .inl rfl, .inl rfl,
    .inl rfl, fits_of_text hs.brand, .inl rfl⟩
  keys := by simp [DB.OrderKeys, adminOrder]

lemma studentFirst_wp (h : Registrable s dto student admin) (hs : Storable dto)
    (hcode : dto.checkCode = .val checkCode) (hE : ∀ i, E i → Meets s dto i) :
    (studentFirst cfg dto student admin).wp E Any
      (fun _ t => ∃ id, id ∉ s.orders ∧
        Leaves id (accepted (studentOrder cfg dto student checkCode)) s t) (fun _ _ => False) s := by
  unfold studentFirst
  rw [wp_bind]
  refine wp_mono (inserts_accepts (student_inserts h hs hcode) (fun i hi => (hE i hi).2.1)
    (fun i hi => (hE i hi).1) fun i hi => (hE i hi).2.2) (fun _ t ht => ?_) fun _ _ h => h
  obtain ⟨id, hid, ht⟩ := ht
  have hsame : existingOrder dto.checkCode dto.brand id (studentOrder cfg dto student checkCode) =
      true := existingOrder_of_eq hs hcode rfl rfl
  have hconfirms : Confirms t (registration dto) admin id
      (studentOrder cfg dto student checkCode) :=
    ⟨h.isAdmin, filters_of_adminRow (adminRow_eq hs hcode), ht.lookup, hsame, studentOrder_addressed, rfl⟩
  rw [wp_bind]
  refine wp_mono (confirms_accepts hconfirms (fun i _ => finds_of_leaves h.new ht hsame i)
    fun i hi => (hE i hi).1) (fun _ t' ht' => ⟨id, hid, ht.trans ht'⟩) fun _ _ h => ?_
  cases h.1

lemma takes_claimData (hs : Storable dto) (hst : user.id ∈ s.students) :
    s.Takes (claimData cfg dto user) (adminOrder dto checkCode) where
  updates := by
    simp [claimData, CreateOrderDto.empty, CreateOrderDto.updates, (Field.of_creates hs.room.1).1,
      (Field.of_creates hs.building.1).1, (Field.of_creates hs.dormitory).1]
  computed := by
    simp [claimData, CreateOrderDto.empty, CreateOrderDto.fails, (Field.of_creates hs.room.1).2.2.1,
      (Field.of_creates hs.building.1).2.2.1, (Field.of_creates hs.dormitory).2.2.1]
  texts := ⟨.inl rfl, fits_of_text hs.building, .inl rfl, .inl rfl, fits_of_text hs.room, .inl rfl,
    .inl rfl⟩
  keys := by
    rw [claimData_update]
    simpa [DB.OrderKeys, claim, adminOrder] using hst

lemma adminFirst_wp (h : Registrable s dto student admin) (hs : Storable dto)
    (hcode : dto.checkCode = .val checkCode) (hE : ∀ i, E i → Meets s dto i) :
    (adminFirst cfg dto student admin).wp E Any
      (fun _ t => ∃ id, id ∉ s.orders ∧
        Leaves id (accepted (claim cfg dto student (adminOrder dto checkCode))) s t)
      (fun _ _ => False) s := by
  unfold adminFirst
  rw [wp_bind]
  refine wp_mono (adminInserts_accepts (admin_inserts h hs hcode) fun i hi => (hE i hi).2.1)
    (fun _ t ht => ?_) fun _ _ h => h
  obtain ⟨id, hid, ht⟩ := ht
  have hsame : existingOrder dto.checkCode dto.brand id (adminOrder dto checkCode) = true :=
    existingOrder_of_eq hs hcode rfl rfl
  have hclaims : Claims cfg t dto student id (adminOrder dto checkCode) :=
    ⟨h.isStudent, by rw [ht.users]; exact h.account,
      (filters_of_adminRow (adminRow_eq hs hcode) :), ht.lookup, hsame, adminOrder_unclaimed,
      takes_claimData hs (by rw [ht.students]; exact h.known)⟩
  rw [wp_bind]
  exact wp_mono (claims_accepts hclaims rfl (fun i _ => finds_of_leaves h.new ht hsame i)
    (fun i hi => (hE i hi).1) fun i hi => (hE i hi).2.2)
    (fun _ t' ht' => ⟨id, hid, ht.trans ht'⟩) fun _ _ h => h

lemma registers_iff {c : Async Unit} {ω : ℕ → Input} {o' : Order} (hω : ∀ n, E (ω n))
    (hnew : ∀ id o, s.orders.lookup id = some o →
      existingOrder dto.checkCode dto.brand id o = false)
    (ho : ∀ id, existingOrder dto.checkCode dto.brand id o = true)
    (hst : o.latestStatus = some .accepted)
    (h : c.wp E Any (fun _ t => ∃ id, id ∉ s.orders ∧ Leaves id o s t) (fun _ _ => False) s) :
    Registers c ω s dto o' ↔ o' = o := by
  have hout := (wp_run h hω).2
  rcases hc : c.exec ω s with ⟨e | _, t⟩
  · rw [hc] at hout
    exact hout.elim
  rw [hc] at hout
  obtain ⟨id, hid, ht⟩ := hout
  unfold Registers
  rw [hc]
  constructor
  · rintro ⟨-, -, j, hj, hsame⟩
    by_cases hji : j = id
    · subst hji
      exact Option.some.inj (hj.symm.trans ht.lookup)
    · rw [ht.other j hji] at hj
      rw [hnew j o' hj] at hsame
      cases hsame
  · rintro rfl
    exact ⟨rfl, hst, id, ht.lookup, ho id⟩

/-- Both orders of the two registrations succeed and leave the same row. -/
def SameRow (cfg : Config) (s : DB) (dto : CreateOrderDto) (student admin : GetUserType)
    (ω ω' : ℕ → Input) : Prop :=
  ∃ o, Registers (studentFirst cfg dto student admin) ω s dto o ∧
    Registers (adminFirst cfg dto student admin) ω' s dto o

lemma accepted_eq_iff (hs : Storable dto) :
    accepted (studentOrder cfg dto student checkCode) =
      accepted (claim cfg dto student (adminOrder dto checkCode)) ↔
    dto.product.arg.toOption = none ∧ dto.weight.arg.toOption = none ∧
      dto.paymentMethod.arg.toOption = none := by
  simp only [accepted, studentOrder, claim, adminOrder, Order.mk.injEq, (Field.of_creates hs.product.1).2.2.2,
    (Field.of_creates hs.weight).2.2.2, (Field.of_creates hs.paymentMethod).2.2.2, feeOf, true_and,
    and_true]
  tauto

lemma registers_studentFirst (h : Registrable s dto student admin) (hs : Storable dto)
    (hcode : dto.checkCode = .val checkCode) {ω : ℕ → Input} (hω : ∀ n, Meets s dto (ω n)) :
    Registers (studentFirst cfg dto student admin) ω s dto o ↔
      o = accepted (studentOrder cfg dto student checkCode) :=
  registers_iff hω h.new (fun _ => existingOrder_of_eq hs hcode rfl rfl) rfl
    (studentFirst_wp h hs hcode fun _ hi => hi)

lemma registers_adminFirst (h : Registrable s dto student admin) (hs : Storable dto)
    (hcode : dto.checkCode = .val checkCode) {ω : ℕ → Input} (hω : ∀ n, Meets s dto (ω n)) :
    Registers (adminFirst cfg dto student admin) ω s dto o ↔
      o = accepted (claim cfg dto student (adminOrder dto checkCode)) :=
  registers_iff hω h.new (fun _ => existingOrder_of_eq hs hcode rfl rfl) rfl
    (adminFirst_wp h hs hcode fun _ hi => hi)

lemma storable_of_registers (h : Registrable s dto student admin) {ω : ℕ → Input}
    (hreg : Registers (studentFirst cfg dto student admin) ω s dto o) : Storable dto := by
  by_contra hno
  have hcreate : (createOrder cfg dto student).wp (fun _ => True) Any (fun _ _ => False)
      (fun _ _ => True) s := by
    unfold createOrder
    rw [if_pos h.isStudent]
    refine createOrderByStudent_rule h.isStudent trivial fun _ => ?_
    unfold placeOrder
    refine findExistingOrder_wp (fun _ => trivial) (fun id o _ ho hp => ?_) fun _ => ?_
    · rw [h.new id o ho] at hp
      cases hp
    · refine insertOrder_wp (fun _ => trivial) fun _ row _ hrow _ htexts _ _ => ?_
      exact absurd (storable_of_row hrow htexts) hno
  have hwp : (studentFirst cfg dto student admin).wp (fun _ => True) Any (fun _ _ => False)
      (fun _ _ => True) s := by
    unfold studentFirst
    rw [wp_bind]
    exact wp_mono hcreate (fun _ _ h => h.elim) fun _ _ h => h
  have hout := (wp_run (ω := ω) hwp fun _ => trivial).2
  rcases hc : (studentFirst cfg dto student admin).exec ω s with ⟨e | _, t⟩
  · have hok := hreg.1
    rw [hc] at hok
    cases hok
  · rw [hc] at hout
    exact hout

/-- **When the order of the two registrations does not matter**: both orders succeed and leave
the same row just when the student's body can be stored and says nothing about product, weight and
payment. -/
theorem registration_order_irrelevant_iff (cfg : Config) (s : DB) (dto : CreateOrderDto)
    (student admin : GetUserType) (h : Registrable s dto student admin) (ω ω' : ℕ → Input)
    (hω : ∀ n, Meets s dto (ω n)) (hω' : ∀ n, Meets s dto (ω' n)) :
    SameRow cfg s dto student admin ω ω' ↔ Storable dto ∧ dto.product.arg.toOption = none ∧
      dto.weight.arg.toOption = none ∧ dto.paymentMethod.arg.toOption = none := by
  obtain ⟨checkCode, hcode⟩ := h.code
  by_cases hs : Storable dto
  · simp only [SameRow, registers_studentFirst h hs hcode hω, registers_adminFirst h hs hcode hω',
      exists_eq_left, hs, true_and]
    exact accepted_eq_iff hs
  · simp only [hs, false_and, iff_false]
    rintro ⟨o, hstudent, -⟩
    exact hs (storable_of_registers h hstudent)

/-- A body with every property of `CreateStudentOrderDto`. -/
def completeBody : CreateOrderDto := { Sample.body with
  brand := .val "SHOPEE"
  product := .val "book"
  deliveryDate := .val "2025-01-02"
  weight := .val 2
  room := .val "101"
  building := .val "A4"
  dormitory := .val .a
  paymentMethod := .val .cash }

lemma registrable_sample (hdoc : Documented dto) (hcode : dto.checkCode = .val checkCode) :
    Registrable Sample.db dto Sample.student Sample.admin where
  documented := hdoc
  code := ⟨checkCode, hcode⟩
  isStudent := rfl
  known := by decide
  account := ⟨⟨.student, .available⟩, by decide, by decide⟩
  isAdmin := rfl
  new := fun _ _ h => by cases h

theorem registration_order_irrelevant_sparse : SameRow Sample.config Sample.db Sample.body
    Sample.student Sample.admin (Sample.inputs 10) (Sample.inputs 10) := by
  have hmeets : ∀ n, Meets Sample.db Sample.body (Sample.inputs 10 n) := fun n =>
    ⟨rfl, by simp [Sample.db], by simp [Sample.body, CreateOrderDto.empty, Field.arg]⟩
  refine (registration_order_irrelevant_iff Sample.config Sample.db Sample.body Sample.student
    Sample.admin (registrable_sample ?_ rfl) _ _ hmeets hmeets).mpr ⟨?_, rfl, rfl, rfl⟩
  · exact ⟨rfl, rfl, rfl, rfl, rfl, rfl, rfl, rfl, rfl⟩
  · refine ⟨⟨rfl, fun a ha => ?_⟩, ⟨rfl, nofun⟩, ⟨rfl, nofun⟩, ⟨rfl, nofun⟩, ⟨rfl, nofun⟩, rfl, rfl, rfl⟩
    obtain rfl : "SPX1" = a := Field.val.inj ha
    decide

/-- The order an administrator registered has no product after the claim. -/
theorem claim_leaves_out_product :
    Registrable Sample.db completeBody Sample.student Sample.admin ∧
      (∀ n, Meets Sample.db completeBody (Sample.inputs 10 n)) ∧
      ¬ SameRow Sample.config Sample.db completeBody Sample.student Sample.admin
        (Sample.inputs 10) (Sample.inputs 10) := by
  have h : Registrable Sample.db completeBody Sample.student Sample.admin :=
    registrable_sample ⟨rfl, rfl, rfl, rfl, rfl, rfl, rfl, rfl, rfl⟩ rfl
  have hmeets : ∀ n, Meets Sample.db completeBody (Sample.inputs 10 n) := fun n =>
    ⟨rfl, by simp [Sample.db], by simp [completeBody, Sample.inputs, Field.arg]⟩
  refine ⟨h, hmeets, ?_⟩
  rintro ⟨o, hstudent, hadmin⟩
  have hs := storable_of_registers h hstudent
  rw [registers_studentFirst h hs rfl hmeets] at hstudent
  rw [registers_adminFirst h hs rfl hmeets] at hadmin
  have hproduct := congrArg Order.product (hstudent.symm.trans hadmin)
  cases hproduct

end TsaBackend.Registration
