import TsaBackend.OrderEffects

/-!
What creation, edit and deletion of orders leave in the tables when they run alone, and
which requests reach each of these writes.
-/

namespace TsaBackend.OrderWrites

open Call OrderEffects

variable {α : Type} {E : Input → Prop} {cfg : Config} {dto : CreateOrderDto} {user : GetUserType}
  {s t : DB} {id j : Id} {o row : Order} {Q Q' : DB → Prop}

/-- Status rows of the order have been written, and nothing else. -/
inductive Logs (id : Id) (s : DB) : DB → Prop
  | refl : Logs id s s
  | log {t : DB} (i : Input) (status : OrderStatus) (reason : Option String)
    (canceledImage finishedImage receivedImage : Arg String) (h : Logs id s t) :
    Logs id s (logged i id status reason canceledImage finishedImage receivedImage t)

lemma Logs.mem (h : Logs id s t) : j ∈ t.orders ↔ j ∈ s.orders := by
  induction h with
  | refl => rfl
  | log i status reason canceledImage finishedImage receivedImage _ ih =>
    simpa only [logged, Table.mem_modify] using ih

lemma Logs.other (h : Logs id s t) (hj : j ≠ id) :
    t.orders.lookup j = s.orders.lookup j ∧ t.historyOf j = s.historyOf j := by
  induction h with
  | refl => exact ⟨rfl, rfl⟩
  | log i status reason canceledImage finishedImage receivedImage _ ih =>
    rw [lookup_logged, historyOf_logged]
    simpa [hj] using ih

lemma Logs.people (h : Logs id s t) : t.students = s.students ∧ t.users = s.users := by
  induction h with
  | refl => exact ⟨rfl, rfl⟩
  | log i status reason canceledImage finishedImage receivedImage _ ih => exact ih

lemma paid_accepted {dto : UpdateStatusDto} (h : dto.status ≠ .delivered) :
    paid id o dto user s = s := by
  unfold paid
  rw [if_neg fun hcash => h hcash.2.1]

/-- An acceptance that carries nothing else only writes a status row. -/
lemma accept_wp (hid : id ∈ s.orders) :
    (updateStatus cfg id (.only .accepted) user).wp E Any (fun _ t => Logs id s t)
      (fun _ t => Logs id s t) s := by
  obtain ⟨o, ho⟩ := Table.mem_iff_lookup.mp hid
  have hpassed : ∀ s₁, Passed cfg o (.only .accepted) user s s₁ → s₁ = s := by
    intro s₁ h
    have hcharges : ¬ charges (.only .accepted) := fun h => by cases h.1
    simpa [hcharges] using h.charge
  refine wp_mono (updateStatus_wp ho) (fun _ t ht => ?_) fun _ t ht => ?_
  · obtain ⟨s₁, i, hs₁, _, _, rfl⟩ := ht
    rw [hpassed s₁ hs₁, paid_accepted (by decide)]
    exact .log _ _ _ _ _ _ .refl
  · rcases ht with ⟨rfl, _⟩ | ⟨s₁, hs₁, _, rfl⟩
    · exact .refl
    · rw [hpassed s₁ hs₁, paid_accepted (by decide)]
      exact .refl

lemma accept_bind_wp {c : String → Async α} {Q : α → DB → Prop} {X : Exn → DB → Prop}
    (hid : id ∈ s.orders) (hX : ∀ e t, Logs id s t → X e t)
    (hc : ∀ a t, Logs id s t → (c a).wp E Any Q X t) :
    (updateStatus cfg id (.only .accepted) user >>= c).wp E Any Q X s := by
  rw [wp_bind]
  exact wp_mono (accept_wp hid) hc hX

/-! ### Creation -/

lemma unclaimed_studentId (hun : o.unclaimed = true) : o.studentId = none := by
  simp only [Order.unclaimed, Bool.and_eq_true, Option.isNone_iff_eq_none] at hun
  exact hun.1.1.1.1

/-- The tables with an order claimed. -/
def claimed (cfg : Config) (dto : CreateOrderDto) (user : GetUserType) (id : Id) (s : DB) : DB :=
  { s with orders := s.orders.modify id (claim cfg dto user) }

/-- The tables with a new order. -/
def inserted (id : Id) (row : Order) (s : DB) : DB :=
  { s with orders := s.orders.insert id row }

lemma claimOrder_ends (ho : s.orders.lookup id = some o) :
    Ends (claimOrder cfg dto user id o) s fun t =>
      if s.Takes (claimData cfg dto user) o then Logs id (claimed cfg dto user id s) t
      else t = s := by
  refine ends_of_wp ?_
  unfold claimOrder
  rw [wp_bind, wp_execute]
  intro i _
  by_cases htakes : s.Takes (claimData cfg dto user) o
  · rw [DB.updateOrderData_eq ho htakes, claimData_update]
    simp only [htakes, if_true]
    refine ⟨trivial, ?_⟩
    have hid : id ∈ (claimed cfg dto user id s).orders := by
      simp [claimed, Table.mem_iff_lookup, ho]
    refine accept_bind_wp hid (fun _ _ h => h) fun _ t ht => ?_
    rw [wp_bind]
    refine createOrderStatusHistory_undefined_wp (ht.mem.mpr hid) fun i _ => ?_
    rw [wp_bind, getHistoryTimee, wp_read]
    refine fun _ _ => ⟨trivial, ?_⟩
    rw [wp_bind, getLatestOrderStatus, wp_read]
    exact fun _ _ => ⟨trivial, .log _ _ _ _ _ _ ht⟩
  · obtain ⟨e, he⟩ := DB.updateOrderData_error ho htakes
    simp only [he, htakes, if_false]
    exact ⟨trivial, trivial⟩

lemma insertRow_eq (i : Input) : (do
      let o ← (.ok row : Except Exn Order)
      let s ← s.createOrder i.fresh o
      return ((i.fresh, o), s)) = (s.createOrder i.fresh row).map fun t => ((i.fresh, row), t) := by
  change (s.createOrder i.fresh row >>= fun t => .ok ((i.fresh, row), t)) = _
  cases s.createOrder i.fresh row <;> rfl

lemma insertOrder_wp {e : Except Exn Order} {c : Id × Order → Async α} {Q : α → DB → Prop}
    {X : Exn → DB → Prop} (hX : ∀ e, X e s)
    (hc : ∀ id row t, e = .ok row → id ∉ s.orders → OrderTexts none row →
      s.OrderKeys { row with studentId := none, shipperId := none } row →
      Logs id (inserted id row s) t → (c (id, row)).wp E Any Q X t) :
    (insertOrder e >>= c).wp E Any Q X s := by
  unfold insertOrder
  rw [wp_bind, wp_bind, wp_atomic]
  intro i _
  rcases e with e | row
  · exact ⟨trivial, hX e⟩
  rw [insertRow_eq, DB.createOrder]
  by_cases hid : i.fresh ∈ s.orders
  · rw [if_pos hid]
    exact ⟨trivial, hX _⟩
  rw [if_neg hid]
  by_cases htexts : OrderTexts none row
  swap
  · rw [if_pos htexts]
    exact ⟨trivial, hX _⟩
  rw [if_neg (not_not.mpr htexts)]
  by_cases hkeys : s.OrderKeys { row with studentId := none, shipperId := none } row
  · rw [if_pos hkeys]
    refine ⟨trivial, ?_⟩
    rw [wp_bind]
    refine createOrderStatusHistory_undefined_wp ?_ fun i _ => ?_
    · exact (AList.mem_insert _).mpr (.inl rfl)
    · exact hc _ _ _ rfl hid htexts hkeys (.log _ _ _ _ _ _ .refl)
  · rw [if_neg hkeys]
    exact ⟨trivial, hX _⟩

/-- The request of a student claims this order. -/
structure Claims (cfg : Config) (s : DB) (dto : CreateOrderDto) (user : GetUserType) (id : Id)
    (o : Order) : Prop where
  role : user.role = .student
  account : ∃ u, s.users.lookup user.id = some u ∧ u.status ≠ .banned
  filters : dto.checkCode.filters false = true ∧ dto.brand.filters true = true
  lookup : s.orders.lookup id = some o
  same : existingOrder dto.checkCode dto.brand id o = true
  unclaimed : o.unclaimed = true
  takes : s.Takes (claimData cfg dto user) o

lemma Claims.student (h : Claims cfg s dto user id o) : user.id ∈ s.students := by
  rcases h.takes.keys.1 with hkept | hkeys
  · rw [unclaimed_studentId h.unclaimed] at hkept
    cases hkept
  · exact hkeys user.id rfl

/-- The request of a student creates this row. -/
structure Inserts (cfg : Config) (s : DB) (dto : CreateOrderDto) (user : GetUserType)
    (row : Order) : Prop where
  role : user.role = .student
  account : ∃ u, s.users.lookup user.id = some u ∧ u.status ≠ .banned
  new : ∀ id o, s.orders.lookup id = some o → existingOrder dto.checkCode dto.brand id o = false
  made : studentRow cfg dto user = .ok row
  texts : OrderTexts none row
  keys : s.OrderKeys { row with studentId := none, shipperId := none } row

variable (cfg dto user s) in
/-- What a creation leaves. -/
inductive Created : DB → Prop
  | refused : Created s
  | claimed {id : Id} {o : Order} {t : DB} (h : Claims cfg s dto user id o)
    (ht : Logs id (claimed cfg dto user id s) t) : Created t
  | inserted {id : Id} {row : Order} {t : DB}
    (h : Inserts cfg s dto user row ∨ user.role = .admin ∧ adminRow dto = .ok row)
    (hid : id ∉ s.orders) (ht : Logs id (inserted id row s) t) : Created t
  | confirmed {id : Id} {t : DB} (h : user.role = .admin) (ht : Logs id s t) : Created t

lemma filters_of_row (h : dto.create = .ok row) :
    dto.checkCode.filters false = true ∧ dto.brand.filters true = true := by
  obtain ⟨hcreates, checkCode, hcode, -⟩ := CreateOrderDto.create_ok h
  rw [hcode]
  simp only [CreateOrderDto.creates, Bool.and_eq_true] at hcreates
  exact ⟨rfl, (Field.of_creates hcreates.1.1.1.2).2.1⟩

lemma filters_of_studentRow (h : studentRow cfg dto user = .ok row) :
    dto.checkCode.filters false = true ∧ dto.brand.filters true = true := (filters_of_row h :)

lemma filters_of_adminRow (h : adminRow dto = .ok row) :
    dto.checkCode.filters false = true ∧ dto.brand.filters true = true := (filters_of_row h :)

lemma findExistingOrder_wp {c : Option (Id × Order) → Async α} {Q : α → DB → Prop}
    {X : Exn → DB → Prop} (hX : ∀ e, X e s)
    (hsome : ∀ id o, dto.checkCode.filters false = true ∧ dto.brand.filters true = true →
      s.orders.lookup id = some o →
      existingOrder dto.checkCode dto.brand id o = true →
      (c (some (id, o))).wp E Any Q X s)
    (hnone : (∀ id o, s.orders.lookup id = some o →
      existingOrder dto.checkCode dto.brand id o = false) →
      (c none).wp E Any Q X s) :
    (findExistingOrder dto.checkCode dto.brand >>= c).wp E Any Q X s := by
  unfold findExistingOrder
  rw [wp_bind, wp_ite]
  split
  · exact hX _
  next hfilters =>
  rw [wp_read]
  intro i _
  refine ⟨trivial, ?_⟩
  rcases hf : s.orders.findFirst i.pick (existingOrder dto.checkCode dto.brand) with _ | ⟨id, o⟩
  · exact hnone (Table.findFirst_none.mp hf)
  · obtain ⟨ho, hp⟩ := Table.findFirst_some hf
    exact hsome id o (not_not.mp hfilters) ho hp

lemma placeOrder_ends (hrole : user.role = .student)
    (hu : ∃ u, s.users.lookup user.id = some u ∧ u.status ≠ .banned) :
    Ends (placeOrder cfg dto user) s (Created cfg dto user s) := by
  refine ends_of_wp (findExistingOrder_wp (fun _ => .refused) ?_ ?_)
  · intro id o hfilters ho hp
    dsimp only
    rw [wp_ite, wp_ite]
    split
    · next hun =>
      refine ends_iff.mp ((claimOrder_ends ho).mono fun t ht => ?_)
      split at ht
      · next htakes => exact .claimed ⟨hrole, hu, hfilters, ho, hp, hun, htakes⟩ ht
      · rw [ht]
        exact .refused
    · split <;> exact .refused
  · intro hnew
    refine insertOrder_wp (fun _ => .refused) fun id row t hrow hid htexts hkeys ht => ?_
    have hcreated : Created cfg dto user s t :=
      .inserted (.inl ⟨hrole, hu, hnew, hrow, htexts, hkeys⟩) hid ht
    rw [wp_bind, getHistoryTimee, wp_read]
    refine fun _ _ => ⟨trivial, ?_⟩
    rw [wp_bind, wp_service]
    refine fun i _ => ⟨trivial, ?_⟩
    split <;> exact hcreated

lemma createOrderByStudent_rule {R : CreateOrderResponse → DB → Prop} {X : DB → Prop}
    (hrole : user.role = .student) (hstop : X s)
    (hplace : (∃ u, s.users.lookup user.id = some u ∧ u.status ≠ .banned) →
      (placeOrder cfg dto user).wp E Any R (fun _ t => X t) s) :
    (createOrderByStudent cfg dto user).wp E Any R (fun _ t => X t) s := by
  unfold createOrderByStudent validateUserForOrder
  rw [if_neg (by simp [hrole]), wp_bind, wp_pure, wp_bind, wp_read]
  intro i _
  refine ⟨trivial, ?_⟩
  rcases hu : s.users.lookup user.id with _ | u
  · exact hstop
  dsimp only
  rw [wp_throwIf_bind]
  refine ⟨fun _ => hstop, fun hban => ?_⟩
  rw [wp_bind, wp_input]
  intro i _
  refine ⟨trivial, ?_⟩
  rw [wp_throwIf_bind]
  exact ⟨fun _ => hstop, fun _ => hplace ⟨u, hu, hban⟩⟩

lemma createOrderByStudent_ends (hrole : user.role = .student) :
    Ends (createOrderByStudent cfg dto user) s (Created cfg dto user s) :=
  ends_of_wp (createOrderByStudent_rule hrole .refused fun hu =>
    ends_iff.mp (placeOrder_ends hrole hu))

lemma accept_refused_wp (ho : s.orders.lookup id = some o) (hst : o.latestStatus ≠ some .pending) :
    (updateStatus cfg id (.only .accepted) user).wp E Any (fun _ _ => False)
      (fun _ t => t = s) s := by
  have hno : ∀ s₁, ¬ Passed cfg o (.only .accepted) user s s₁ := by
    intro s₁ h
    have hvalid := h.valid
    rcases hl : o.latestStatus with _ | st
    · simp [hl, isValidTransition] at hvalid
    · rw [hl] at hvalid
      cases st with
      | pending => exact hst hl
      | _ => cases hvalid
  refine wp_mono (updateStatus_wp ho) (fun _ t ht => ?_) fun _ t ht => ?_
  · obtain ⟨s₁, _, hs₁, _⟩ := ht
    exact hno s₁ hs₁
  · rcases ht with ⟨rfl, _⟩ | ⟨s₁, hs₁, _⟩
    · rfl
    · exact absurd hs₁ (hno s₁)

/-- The request of an administrator confirms this order. -/
structure Confirms (s : DB) (dto : CreateOrderDto) (user : GetUserType) (id : Id) (o : Order) :
    Prop where
  role : user.role = .admin
  filters : dto.checkCode.filters false = true ∧ dto.brand.filters true = true
  lookup : s.orders.lookup id = some o
  same : existingOrder dto.checkCode dto.brand id o = true
  addressed : o.unaddressed = false
  pending : o.latestStatus = some .pending

variable (s id) in
/-- Confirming writes status rows when the order is pending, and nothing otherwise. -/
lemma confirmOrder_ends (ho : s.orders.lookup id = some o) : Ends (confirmOrder cfg user id o) s
    fun t => o.latestStatus = some .pending ∧ Logs id s t ∨ t = s := by
  have hid : id ∈ s.orders := Table.mem_iff_lookup.mpr ⟨o, ho⟩
  refine ends_of_wp ?_
  unfold confirmOrder
  by_cases hst : o.latestStatus = some .pending
  · refine wp_mono (accept_bind_wp hid (fun _ _ h => h) fun _ t ht => ?_)
      (fun _ _ h => .inl ⟨hst, h⟩) fun _ _ h => .inl ⟨hst, h⟩
    rw [wp_bind]
    refine createOrderStatusHistory_undefined_wp (ht.mem.mpr hid) fun i _ => ?_
    have hlog := Logs.log i .accepted none .undefined .undefined .undefined ht
    rw [wp_bind]
    rcases o.studentId with _ | u
    · exact hlog
    refine wp_service.mpr fun i _ => ⟨trivial, ?_⟩
    split
    · rw [wp_bind, getHistoryTimee, wp_read]
      refine fun _ _ => ⟨trivial, ?_⟩
      rw [wp_bind, getLatestOrderStatus, wp_read]
      exact fun _ _ => ⟨trivial, hlog⟩
    · exact hlog
  · rw [wp_bind]
    exact wp_mono (accept_refused_wp ho hst) (fun _ _ h => h.elim) fun _ _ h => .inr h

/-- The request of an administrator creates this row. -/
structure AdminInserts (s : DB) (dto : CreateOrderDto) (user : GetUserType) (row : Order) :
    Prop where
  role : user.role = .admin
  new : ∀ id o, s.orders.lookup id = some o → existingOrder dto.checkCode dto.brand id o = false
  made : adminRow dto = .ok row
  texts : OrderTexts none row
  keys : s.OrderKeys { row with studentId := none, shipperId := none } row

lemma createOrderByAdmin_ends (hrole : user.role = .admin) :
    Ends (createOrderByAdmin cfg dto user) s fun t => t = s ∨
      (∃ id row, AdminInserts s dto user row ∧ id ∉ s.orders ∧ Logs id (inserted id row s) t) ∨
      ∃ id o, Confirms s dto user id o ∧ Logs id s t := by
  refine ends_of_wp ?_
  unfold createOrderByAdmin validateUserForOrder
  rw [if_neg (by simp), wp_bind, wp_pure]
  refine findExistingOrder_wp (fun _ => .inl rfl) ?_ ?_
  · intro id o hfilters ho hp
    dsimp only
    rw [wp_ite]
    split
    · exact .inl rfl
    next haddr =>
    refine ends_iff.mp ((confirmOrder_ends s id ho).mono fun t ht => ?_)
    rcases ht with ⟨hst, ht⟩ | rfl
    · exact .inr (.inr ⟨id, o, ⟨hrole, hfilters, ho, hp, by simpa using haddr, hst⟩, ht⟩)
    · exact .inl rfl
  · intro hnew
    refine insertOrder_wp (fun _ => .inl rfl) fun id row t hrow hid htexts hkeys ht => ?_
    rw [wp_bind, getHistoryTimee, wp_read]
    exact fun _ _ => ⟨trivial, .inr (.inl ⟨id, row, ⟨hrole, hnew, hrow, htexts, hkeys⟩, hid, ht⟩)⟩

/-- **What a creation leaves**, whatever it meets. -/
theorem createOrder_ends : Ends (createOrder cfg dto user) s (Created cfg dto user s) := by
  unfold createOrder
  split
  · next hrole => exact createOrderByStudent_ends hrole
  · split
    · next hrole =>
      refine (createOrderByAdmin_ends hrole).mono fun t ht => ?_
      rcases ht with rfl | ⟨id, row, hrow, hid, ht⟩ | ⟨id, o, _, ht⟩
      · exact .refused
      · exact .inserted (.inr ⟨hrole, hrow.made⟩) hid ht
      · exact .confirmed hrole ht
    · exact fun _ => .refused

/-! ### Requests that reach a write, edits and deletions -/

lemma exists_other_day (d : Arg String) : ∃ day, d ≠ .val day := by
  by_cases h : d = .val ""
  · exact ⟨"1", by rw [h]; decide⟩
  · exact ⟨"", h⟩

/-- A student who may order gets to the search for an existing order. -/
lemma placeOrder_of_wp {Q : CreateOrderResponse → DB → Prop} {X : Exn → DB → Prop}
    (hrole : user.role = .student)
    (hu : ∃ u, s.users.lookup user.id = some u ∧ u.status ≠ .banned)
    (hE : ∀ i : Input, i.ok = true → E i) (h : (createOrder cfg dto user).wp E Any Q X s) :
    (placeOrder cfg dto user).wp E Any Q X s := by
  obtain ⟨u, hu, hban⟩ := hu
  obtain ⟨today, hday⟩ := exists_other_day dto.deliveryDate.arg
  have hi : E { (default : Input) with ok := true, today } := hE _ rfl
  unfold createOrder createOrderByStudent validateUserForOrder at h
  rw [if_pos hrole, if_neg (by simp [hrole]), wp_bind, wp_pure, wp_bind, wp_read] at h
  replace h := (h _ hi).2
  simp only [hu] at h
  rw [wp_throwIf_bind] at h
  replace h := h.2 hban
  rw [wp_bind, wp_input] at h
  replace h := (h _ hi).2
  rw [wp_throwIf_bind] at h
  exact h.2 hday

lemma found_of_wp {c : Option (Id × Order) → Async α} {Q : α → DB → Prop} {X : Exn → DB → Prop}
    (hfilters : dto.checkCode.filters false = true ∧ dto.brand.filters true = true)
    (ho : s.orders.lookup id = some o)
    (hsame : existingOrder dto.checkCode dto.brand id o = true)
    (hE : ∀ i : Input, i.ok = true → E i)
    (h : (findExistingOrder dto.checkCode dto.brand >>= c).wp E Any Q X s) :
    (c (some (id, o))).wp E Any Q X s := by
  obtain ⟨pick, hpick⟩ := Table.exists_findFirst ho hsame
  unfold findExistingOrder at h
  rw [wp_bind, wp_ite, if_neg (not_not.mpr hfilters), wp_read] at h
  replace h := (h { (default : Input) with ok := true, pick } (hE _ rfl)).2
  simpa only [hpick] using h

lemma Claims.reached (h : Claims cfg s dto user id o)
    (hends : Ends (createOrder cfg dto user) s Q) :
    ∃ t, Logs id (claimed cfg dto user id s) t ∧ Q t := by
  have hplace := placeOrder_of_wp h.role h.account (fun _ _ => trivial) (ends_iff.mp hends)
  unfold placeOrder at hplace
  replace hplace := found_of_wp h.filters h.lookup h.same (fun _ _ => trivial) hplace
  simp only [h.unclaimed, if_true] at hplace
  have hclaim : Ends (claimOrder cfg dto user id o) s _ := claimOrder_ends h.lookup
  obtain ⟨t, ht, hQ⟩ := hclaim.meet (ends_of_wp hplace)
  rw [if_pos h.takes] at ht
  exact ⟨t, ht, hQ⟩

lemma inserted_of_wp {c : Id × Order → Async α} {Q : α → DB → Prop} {X : Exn → DB → Prop}
    (hid : id ∉ s.orders) (htexts : OrderTexts none row)
    (hkeys : s.OrderKeys { row with studentId := none, shipperId := none } row)
    (hE : ∀ i : Input, i.ok = true → E i) (h : (insertOrder (.ok row) >>= c).wp E Any Q X s) :
    ∃ t, Logs id (inserted id row s) t ∧ (c (id, row)).wp E Any Q X t := by
  unfold insertOrder at h
  rw [wp_bind, wp_bind, wp_atomic] at h
  replace h := h { (default : Input) with ok := true, fresh := id } (hE _ rfl)
  rw [insertRow_eq, DB.createOrder, if_neg hid, if_neg (not_not.mpr htexts), if_pos hkeys] at h
  replace h := h.2
  rw [wp_bind, createOrderStatusHistory, wp_execute] at h
  replace h := h { (default : Input) with ok := true } (hE _ rfl)
  rw [logged_eq_undefined ((AList.mem_insert _).mpr (.inl rfl))] at h
  exact ⟨_, .log _ _ _ _ _ _ .refl, h.2⟩

lemma new_of_wp {c : Option (Id × Order) → Async α} {Q : α → DB → Prop} {X : Exn → DB → Prop}
    (hfilters : dto.checkCode.filters false = true ∧ dto.brand.filters true = true)
    (hnew : ∀ id o, s.orders.lookup id = some o →
      existingOrder dto.checkCode dto.brand id o = false)
    (hE : ∃ i, E i) (h : (findExistingOrder dto.checkCode dto.brand >>= c).wp E Any Q X s) :
    (c none).wp E Any Q X s := by
  obtain ⟨i, hi⟩ := hE
  unfold findExistingOrder at h
  rw [wp_bind, wp_ite, if_neg (not_not.mpr hfilters), wp_read] at h
  replace h := (h i hi).2
  rwa [Table.findFirst_none.mpr hnew] at h

/-- A student's creation gets to the notification of its new row. -/
lemma Inserts.told_of_wp {Q : CreateOrderResponse → DB → Prop} {X : Exn → DB → Prop}
    (h : Inserts cfg s dto user row) (hid : id ∉ s.orders) (hE : ∀ i : Input, i.ok = true → E i)
    (hwp : (createOrder cfg dto user).wp E Any Q X s) :
    ∃ t a, Logs id (inserted id row s) t ∧
      (service >>= fun _ => (Pure.pure a : Async CreateOrderResponse)).wp E Any Q X t := by
  have hplace := placeOrder_of_wp h.role h.account hE hwp
  have hi : E { (default : Input) with ok := true } := hE _ rfl
  unfold placeOrder at hplace
  replace hplace := new_of_wp (filters_of_studentRow h.made) h.new ⟨_, hi⟩ hplace
  dsimp only at hplace
  rw [h.made] at hplace
  obtain ⟨t, ht, hplace⟩ := inserted_of_wp hid h.texts h.keys hE hplace
  rw [wp_bind, getHistoryTimee, wp_read] at hplace
  exact ⟨t, _, ht, (hplace _ hi).2⟩

lemma Inserts.reached (h : Inserts cfg s dto user row) (hid : id ∉ s.orders)
    (hends : Ends (createOrder cfg dto user) s Q) : ∃ t, Logs id (inserted id row s) t ∧ Q t := by
  obtain ⟨t, a, ht, hwp⟩ := h.told_of_wp hid (fun _ _ => trivial) (ends_iff.mp hends)
  rw [wp_bind, wp_service] at hwp
  exact ⟨t, ht, (hwp { (default : Input) with ok := true } trivial).2⟩

/-- The body is written into this order. -/
structure Edits (cfg : Config) (s : DB) (id : Id) (dto : CreateOrderDto) (o : Order) : Prop where
  lookup : s.orders.lookup id = some o
  takes : s.Takes (editData cfg dto) o

/-- The tables with an order edited. -/
def edited (cfg : Config) (id : Id) (dto : CreateOrderDto) (s : DB) : DB :=
  { s with orders := s.orders.modify id (editInfo cfg dto) }

/-- **An edit writes the body, or changes nothing**, and the order does not matter. -/
theorem updateOrderInfo_ends : Ends (updateOrderInfo cfg id dto user) s fun t =>
    (∃ o, Edits cfg s id dto o) ∧ t = edited cfg id dto s ∨
      (¬ ∃ o, Edits cfg s id dto o) ∧ t = s := by
  refine ends_of_wp ?_
  unfold updateOrderInfo validateUserForOrder
  rw [wp_bind, wp_findOrder]
  intro i _
  refine ⟨trivial, ?_⟩
  rcases ho : s.orders.lookup id with _ | o
  · refine .inr ⟨?_, rfl⟩
    rintro ⟨_, h⟩
    cases ho.symm.trans h.lookup
  have hlookup : ∀ {o'}, Edits cfg s id dto o' → o' = o := fun h =>
    Option.some.inj (h.lookup.symm.trans ho)
  dsimp only
  rw [if_neg (by tauto), wp_bind, wp_pure, wp_bind, wp_execute]
  intro i _
  by_cases htakes : s.Takes (editData cfg dto) o
  · rw [DB.updateOrderData_eq ho htakes, editData_update]
    have hedits : ∃ o, Edits cfg s id dto o := ⟨o, ho, htakes⟩
    refine ⟨trivial, ?_⟩
    rw [wp_bind, getLatestOrderStatus, wp_read]
    refine fun _ _ => ⟨trivial, ?_⟩
    rw [wp_bind, getHistoryTimee, wp_read]
    exact fun _ _ => ⟨trivial, .inl ⟨hedits, rfl⟩⟩
  · obtain ⟨e, he⟩ := DB.updateOrderData_error ho htakes
    rw [he]
    refine ⟨trivial, .inr ⟨?_, rfl⟩⟩
    rintro ⟨o', h⟩
    obtain rfl := hlookup h
    exact htakes h.takes

/-- The order can be deleted: a student needs a newest status row that is pending or
rejected. -/
structure Deletes (s : DB) (id : Id) (user : GetUserType) : Prop where
  mem : id ∈ s.orders
  free : s.inDelivery id = false
  status : user.role = .student →
    ∃ h ∈ latestRows (s.historyOf id), h.status = .rejected ∨ h.status = .pending

lemma checkDelete_wp {latest : Option OrderStatusHistory} {Q : Unit → DB → Prop}
    {X : Exn → DB → Prop} (hX : ∀ e, X e s)
    (hQ : ∀ h, latest = some h → h.status = .rejected ∨ h.status = .pending → Q () s) :
    (checkDelete latest).wp (fun _ => True) Any Q X s := by
  unfold checkDelete
  rcases latest with _ | h
  · exact hX _
  rw [wp_throwIf]
  split
  · exact hX _
  · next hst => exact hQ h rfl (by tauto)

theorem deleteOrder_ends : Ends (deleteOrder id user) s fun t =>
    t = s ∨ Deletes s id user ∧ s.deleteOrder id = .ok t := by
  refine ends_of_wp ?_
  unfold deleteOrder validateUserForOrder
  rw [wp_bind, wp_findOrder]
  intro i _
  refine ⟨trivial, ?_⟩
  rw [wp_bind, wp_read]
  intro i _
  refine ⟨trivial, ?_⟩
  rcases ho : s.orders.lookup id with _ | o
  · exact .inl rfl
  dsimp only
  rw [if_neg (by tauto), wp_bind, wp_pure]
  have hdelete : (user.role = .student →
      ∃ h ∈ latestRows (s.historyOf id), h.status = .rejected ∨ h.status = .pending) →
      (do
        execute fun _ s => s.deleteOrder id
        return "Order deleted" : Async String).wp (fun _ => True) Any
        (fun _ t => t = s ∨ Deletes s id user ∧ s.deleteOrder id = .ok t)
        (fun _ t => t = s ∨ Deletes s id user ∧ s.deleteOrder id = .ok t) s := by
    intro hst
    rw [wp_bind, wp_execute]
    intro i _
    rcases hd : s.deleteOrder id with e | t
    · exact ⟨trivial, .inl rfl⟩
    · refine ⟨trivial, .inr ⟨⟨(DB.deleteOrder_ok hd).1, ?_, hst⟩, rfl⟩⟩
      by_contra hfree
      rw [Bool.not_eq_false, DB.inDelivery] at hfree
      simp [DB.deleteOrder, (DB.deleteOrder_ok hd).1, hfree] at hd
  rw [wp_when_bind]
  refine ⟨fun _ => checkDelete_wp (fun _ => .inl rfl) fun h hlatest hst => ?_, fun hrole => ?_⟩
  · exact hdelete fun _ => ⟨h, List.mem_of_getElem? hlatest, hst⟩
  · exact hdelete fun h => absurd h hrole

lemma Deletes.reached (h : Deletes s id user) (hends : Ends (deleteOrder id user) s Q) :
    ∃ t, s.deleteOrder id = .ok t ∧ Q t := by
  obtain ⟨o, ho⟩ := Table.mem_iff_lookup.mp h.mem
  have hd := DB.deleteOrder_eq h.mem h.free
  refine ⟨_, hd, ?_⟩
  -- the newest row that allows it is the one found
  obtain ⟨pick, hpick⟩ : ∃ pick, user.role = .student →
      ∃ h, s.findLatestStatusRow pick id = some h ∧
        (h.status = .rejected ∨ h.status = .pending) := by
    by_cases hrole : user.role = .student
    · obtain ⟨r, hr, hst⟩ := h.status hrole
      obtain ⟨pick, hpick⟩ := Table.exists_pick hr
      exact ⟨pick, fun _ => ⟨r, hpick, hst⟩⟩
    · exact ⟨0, fun h => absurd h hrole⟩
  rw [ends_iff] at hends
  unfold deleteOrder validateUserForOrder at hends
  rw [wp_bind, wp_findOrder] at hends
  replace hends := (hends default trivial).2
  rw [wp_bind, wp_read] at hends
  replace hends := (hends { (default : Input) with pick } trivial).2
  simp only [ho] at hends
  rw [if_neg (by tauto), wp_bind, wp_pure, wp_when_bind] at hends
  have hdelete : (do
      execute fun _ s => s.deleteOrder id
      return "Order deleted" : Async String).wp (fun _ => True) Any (fun _ t => Q t)
      (fun _ t => Q t) s := by
    by_cases hrole : user.role = .student
    · obtain ⟨r, hr, hst⟩ := hpick hrole
      have hcheck := hends.1 hrole
      rw [hr, checkDelete, wp_throwIf, if_neg (by tauto)] at hcheck
      exact hcheck
    · exact hends.2 hrole
  rw [wp_bind, wp_execute] at hdelete
  replace hdelete := hdelete default trivial
  rw [hd] at hdelete
  exact hdelete.2

theorem createPayOSPayment_ends {dto : PayOsRequestDto} : Ends (createPayOSPayment dto) s
    fun t => t = s ∨ ∃ id p, t = { s with payments := s.payments.insert id p } := by
  refine ends_of_wp ?_
  unfold createPayOSPayment
  rcases dto.orderId with _ | _ | orderId
  · exact .inl rfl
  · exact .inl rfl
  dsimp only
  rw [wp_bind, wp_findOrder]
  intro i _
  refine ⟨trivial, ?_⟩
  rcases s.orders.lookup orderId with _ | o
  · exact .inl rfl
  dsimp only
  rw [wp_bind, wp_input]
  intro now _
  refine ⟨trivial, ?_⟩
  rw [wp_bind, wp_service]
  intro i _
  refine ⟨trivial, ?_⟩
  split
  · rw [wp_execute]
    intro i _
    split
    · next t ht =>
      obtain ⟨_, _, _, rfl⟩ := DB.createPayment_ok ht
      exact ⟨trivial, .inr ⟨_, _, rfl⟩⟩
    · exact ⟨trivial, .inl rfl⟩
  · exact .inl rfl

theorem delayOrders_ends {dto : DelayOrdersDto} : Ends (delayOrders cfg dto) s fun t =>
    t = s ∨ ∃ ids, s.updateOrders ids (fun o => { o with deliveryDate := some dto.timeslot }) =
      .ok t := by
  refine ends_of_wp ?_
  unfold delayOrders
  rw [wp_bind, wp_read]
  refine fun _ _ => ⟨trivial, ?_⟩
  rw [wp_throwIf_bind]
  refine ⟨fun _ => .inl rfl, fun _ => ?_⟩
  rw [wp_throwIf_bind]
  refine ⟨fun _ => .inl rfl, fun _ => ?_⟩
  rw [wp_throwIf_bind]
  refine ⟨fun _ => .inl rfl, fun _ => ?_⟩
  rw [wp_bind, wp_execute]
  intro i _
  split
  · next t ht => exact ⟨trivial, .inr ⟨_, ht⟩⟩
  · exact ⟨trivial, .inl rfl⟩

/-! ### Properties of all orders -/

/-- Every order satisfies `I`. -/
def Every (I : Order → Prop) (s : DB) : Prop := ∀ id o, s.orders.lookup id = some o → I o

section Every

variable {I : Order → Prop}

lemma every_of_no_orders (h : s.orders = ∅) : Every I s := by
  intro id o ho
  simp [h] at ho

lemma every_congr (h : t.orders = s.orders) : Every I t ↔ Every I s := by
  rw [Every, Every, h]

lemma every_modify {f : Order → Order} (h : Every I s) :
    Every I { s with orders := s.orders.modify id f } ↔
      ∀ o, s.orders.lookup id = some o → I (f o) := by
  constructor
  · intro hall o ho
    exact hall id _ (by simp [ho])
  · intro hf j o ho
    dsimp only at ho
    rw [Table.lookup_modify] at ho
    split at ho
    · obtain ⟨o', ho', rfl⟩ := Option.map_eq_some_iff.mp ho
      exact hf o' ho'
    · exact h j o ho

lemma every_modify_iff {f : Order → Order} (hf : ∀ o, I (f o) ↔ I o) :
    Every I { s with orders := s.orders.modify id f } ↔ Every I s := by
  constructor
  · intro h j o ho
    by_cases hj : j = id
    · subst hj
      exact (hf o).mp (h j _ (by simp [ho]))
    · exact h j o (by simpa [hj] using ho)
  · exact fun h => (every_modify h).mpr fun o ho => (hf o).mpr (h id o ho)

lemma every_insert (h : Every I s) : Every I (inserted id row s) ↔ I row := by
  constructor
  · intro hall
    exact hall id row (by simp [inserted])
  · intro hrow j o ho
    by_cases hj : j = id
    · subst hj
      obtain rfl : row = o := by simpa [inserted] using ho
      exact hrow
    · exact h j o (by simpa [inserted, hj] using ho)

lemma every_inserted (hid : id ∉ s.orders) :
    Every I (inserted id row s) ↔ I row ∧ Every I s := by
  constructor
  · intro h
    refine ⟨h id row (by simp [inserted]), fun j o ho => h j o ?_⟩
    have hj : j ≠ id := by
      rintro rfl
      exact hid (Table.mem_iff_lookup.mpr ⟨o, ho⟩)
    rwa [inserted, AList.lookup_insert_ne hj]
  · exact fun ⟨hrow, h⟩ => (every_insert h).mpr hrow

/-- Status rows do not matter to what ignores the columns they set. -/
lemma every_logs (hI : ∀ o st f r, I (setStatus st f r o) ↔ I o) (h : Logs id s t) :
    Every I t ↔ Every I s := by
  induction h with
  | refl => rfl
  | log i status reason canceledImage finishedImage receivedImage _ ih =>
    rw [← ih]
    exact every_modify_iff fun o => hI o _ _ _

lemma updateOrders_rule {P : DB → Prop} {ids : List Id} {f : Order → Order} (hs : P s)
    (hstep : ∀ s id, P s → P { s with orders := s.orders.modify id f })
    (h : s.updateOrders ids f = .ok t) : P t := by
  unfold DB.updateOrders at h
  induction ids generalizing s with
  | nil =>
    cases h
    exact hs
  | cons id ids ih =>
    rw [List.foldlM_cons] at h
    obtain ⟨s', hs', h⟩ := ok_of_bind h
    obtain ⟨_, _, _, rfl⟩ := DB.updateOrder_ok hs'
    exact ih (hstep s id hs) h

lemma every_updateOrders {ids : List Id} {f : Order → Order} (hf : ∀ o, I (f o) ↔ I o)
    (h : s.updateOrders ids f = .ok t) : Every I t ↔ Every I s :=
  updateOrders_rule (P := fun t => Every I t ↔ Every I s) Iff.rfl
    (fun _ _ ht => (every_modify_iff hf).trans ht) h

/-- An edit and a property of all orders: the row it writes decides. -/
lemma updateOrderInfo_every_iff (hs : Every I s) :
    Ends (updateOrderInfo cfg id dto user) s (Every I) ↔
      ∀ o, Edits cfg s id dto o → I (editInfo cfg dto o) := by
  constructor
  · intro h o hedit
    obtain ⟨t, ht, hall⟩ := updateOrderInfo_ends.meet h
    rcases ht with ⟨_, rfl⟩ | ⟨hno, _⟩
    · rw [edited, every_modify hs] at hall
      exact hall o hedit.lookup
    · exact absurd ⟨o, hedit⟩ hno
  · intro h
    refine updateOrderInfo_ends.mono fun t ht => ?_
    rcases ht with ⟨⟨o, hedit⟩, rfl⟩ | ⟨_, rfl⟩
    · rw [edited, every_modify hs]
      intro o' ho'
      obtain rfl := Option.some.inj (hedit.lookup.symm.trans ho')
      exact h o hedit
    · exact hs

/-- A status change only sets the status, the images and the flag of a cash payment. -/
theorem updateStatus_every {dto : UpdateStatusDto}
    (hI : ∀ o st f r, I (setStatus st f r o) ↔ I o) (hpay : ∀ o, I (payCash o) ↔ I o) :
    Ends (updateStatus cfg id dto user) s fun t => Every I t ↔ Every I s := by
  refine ends_of_wp ?_
  rcases ho : s.orders.lookup id with _ | o
  · refine wp_mono (updateStatus_wp_none ho) (fun _ _ h => h.elim) fun _ t ht => ?_
    rw [ht]
  have hpaid : ∀ s₁, Passed cfg o dto user s s₁ →
      (Every I (paid id o dto user s₁) ↔ Every I s) := by
    intro s₁ hs₁
    rw [← every_congr (passed_orders hs₁).1]
    unfold paid
    split
    · exact every_modify_iff hpay
    · rfl
  refine wp_mono (updateStatus_wp ho) (fun _ t ht => ?_) fun _ t ht => ?_
  · obtain ⟨s₁, i, hs₁, _, _, rfl⟩ := ht
    rw [← hpaid s₁ hs₁]
    exact every_modify_iff fun o => hI o _ _ _
  · rcases ht with ⟨rfl, _⟩ | ⟨s₁, hs₁, _, rfl⟩
    · rfl
    · exact hpaid s₁ hs₁

end Every

end TsaBackend.OrderWrites
