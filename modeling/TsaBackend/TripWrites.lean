import TsaBackend.TripStatus

/-!
What the calls on trips leave of the trips and their join rows when they run alone: for each
call what it takes to write them, and what is written.
-/

namespace TsaBackend.Trips

open Call OrderEffects OrderWrites RequestSteps
open TripStatus (Passes Refused allCanceled finalStatus moved updateDeliveryStatus_wp)

variable {cfg : Config} {user : GetUserType} {s t : DB} {id d o : Id} {Q : DB → Prop}

/-- The trips of the join rows exist. -/
def Joined (s : DB) : Prop := ∀ d o, (d, o) ∈ s.ordersOnDeliveries → d ∈ s.deliveries

/-- The trips and their join rows are the same. -/
def SameTrips (s t : DB) : Prop :=
  t.deliveries = s.deliveries ∧ t.ordersOnDeliveries = s.ordersOnDeliveries

lemma createMany_mem {n : ℕ} {os : List Id}
    (h : s.createManyOrdersOnDelivery id n os = .ok t) :
    (∀ d o, (d, o) ∈ t.ordersOnDeliveries ↔ (d, o) ∈ s.ordersOnDeliveries ∨ d = id ∧ o ∈ os) ∧
      t.deliveries = s.deliveries := by
  induction os generalizing s n with
  | nil =>
    simp only [DB.createManyOrdersOnDelivery, Except.ok.injEq] at h
    subst h
    simp
  | cons o os ih =>
    unfold DB.createManyOrdersOnDelivery at h
    split at h
    · simp at h
    · split at h
      · simp at h
      · obtain ⟨hmem, hd⟩ := ih h
        refine ⟨fun d o' => ?_, hd⟩
        rw [hmem, AList.mem_insert, Prod.mk.injEq, List.mem_cons]
        tauto

lemma createMany_ok {n : ℕ} {os : List Id} (hnd : os.Nodup) (hmem : ∀ o ∈ os, o ∈ s.orders)
    (hnew : ∀ o ∈ os, (id, o) ∉ s.ordersOnDeliveries) :
    ∃ t, s.createManyOrdersOnDelivery id n os = .ok t := by
  induction os generalizing s n with
  | nil => exact ⟨s, rfl⟩
  | cons o os ih =>
    obtain ⟨ho, hnd⟩ := List.nodup_cons.mp hnd
    unfold DB.createManyOrdersOnDelivery
    rw [if_neg (hnew o (by simp)), if_neg (not_not.mpr (hmem o (by simp)))]
    refine ih hnd (fun o' ho' => hmem o' (by simp [ho'])) fun o' ho' => ?_
    have hne : o' ≠ o := by
      rintro rfl
      exact ho ho'
    rw [AList.mem_insert, Prod.mk.injEq]
    rintro (⟨-, rfl⟩ | h)
    · exact hne rfl
    · exact hnew o' (by simp [ho']) h

lemma mem_ordersIn_iff {ids : List Id} {e : Id × Order × Bool} : e ∈ s.ordersIn ids ↔
    e.1 ∈ ids ∧ s.orders.lookup e.1 = some e.2.1 ∧ e.2.2 = s.inDelivery e.1 := by
  obtain ⟨j, o, b⟩ := e
  simp only [DB.ordersIn, List.mem_map, List.mem_filter, decide_eq_true_eq, Prod.mk.injEq]
  constructor
  · rintro ⟨e, ⟨he, hids⟩, rfl, rfl, rfl⟩
    exact ⟨hids, Table.lookup_eq_some.mpr he, rfl⟩
  · rintro ⟨hids, ho, rfl⟩
    exact ⟨⟨j, o⟩, ⟨Table.lookup_eq_some.mp ho, hids⟩, rfl, rfl, rfl⟩

lemma mem_ordersIn {ids : List Id} {j : Id} :
    j ∈ (s.ordersIn ids).map (·.1) ↔ j ∈ s.orders ∧ j ∈ ids := by
  rw [List.mem_map]
  constructor
  · rintro ⟨e, he, rfl⟩
    obtain ⟨hids, ho, -⟩ := mem_ordersIn_iff.mp he
    exact ⟨Table.mem_iff_lookup.mpr ⟨e.2.1, ho⟩, hids⟩
  · rintro ⟨hj, hids⟩
    obtain ⟨o, ho⟩ := Table.mem_iff_lookup.mp hj
    exact ⟨(j, o, s.inDelivery j), mem_ordersIn_iff.mpr ⟨hids, ho, rfl⟩, rfl⟩

lemma ordersIn_nodup {ids : List Id} : ((s.ordersIn ids).map (·.1)).Nodup := by
  have hfst : (s.ordersIn ids).map (·.1) =
      (s.orders.entries.filter fun e => e.1 ∈ ids).map (·.1) := by
    simp [DB.ordersIn, List.map_map, Function.comp_def]
  rw [hfst]
  exact (List.filter_sublist.map _).nodup s.orders.nodupKeys

/-- As many rows as ids: the ids are different, and each has its row. -/
lemma ordersIn_length {ids : List Id} (h : (s.ordersIn ids).length = ids.length) :
    ids.Nodup ∧ ∀ o ∈ ids, o ∈ s.orders := by
  have hsub : (s.ordersIn ids).map (·.1) ⊆ ids := fun o ho => (mem_ordersIn.mp ho).2
  have hperm : ((s.ordersIn ids).map (·.1)).Perm ids :=
    (List.subperm_of_subset ordersIn_nodup hsub).perm_of_length_le (by simp [h])
  exact ⟨hperm.nodup_iff.mp ordersIn_nodup, fun o ho => (mem_ordersIn.mp (hperm.mem_iff.mpr ho)).1⟩

/-! ### New trips -/

lemma updateOrders_eq {ids : List Id} {f : Order → Order} (hmem : ∀ o ∈ ids, o ∈ s.orders)
    (htexts : ∀ o, OrderTexts (some o) (f o)) (hst : ∀ o, (f o).studentId = o.studentId)
    (hsh : ∀ o, (f o).shipperId = o.shipperId ∨ ∀ u ∈ (f o).shipperId, u ∈ s.staffs) :
    ∃ t, s.updateOrders ids f = .ok t := by
  unfold DB.updateOrders
  induction ids generalizing s with
  | nil => exact ⟨s, rfl⟩
  | cons id ids ih =>
    obtain ⟨o, ho⟩ := Table.mem_iff_lookup.mp (hmem id (by simp))
    have hkeys : s.OrderKeys o (f o) := ⟨.inl (hst o), hsh o⟩
    have hup : s.updateOrder id f = .ok { s with orders := s.orders.modify id f } := by
      rw [DB.updateOrder, ho]
      dsimp only
      rw [if_neg (not_not.mpr (htexts o)), if_pos hkeys]
    rw [List.foldlM_cons, hup]
    refine ih (s := { s with orders := s.orders.modify id f }) (fun j hj => ?_) hsh
    simpa using hmem j (by simp [hj])

/-- An update that is made twice is made once. -/
lemma updateOrders_lookup {ids : List Id} {f : Order → Order} (h : s.updateOrders ids f = .ok t)
    (hf : ∀ o, f (f o) = f o) (j : Id) :
    t.orders.lookup j = if j ∈ ids then (s.orders.lookup j).map f else s.orders.lookup j := by
  unfold DB.updateOrders at h
  induction ids generalizing s with
  | nil =>
    cases h
    rfl
  | cons id ids ih =>
    rw [List.foldlM_cons] at h
    obtain ⟨s', hs', h⟩ := ok_of_bind h
    obtain ⟨_, _, _, rfl⟩ := DB.updateOrder_ok hs'
    rw [ih h]
    by_cases hj : j = id
    · subst hj
      have hmap : ((s.orders.lookup j).map f).map f = (s.orders.lookup j).map f := by
        rw [Option.map_map]
        exact congrArg (Option.map · _) (funext hf)
      simp [hmap]
    · simp [hj]

/-- What the transaction of a new trip leaves. -/
structure Adds (s : DB) (id : Id) (d : Delivery) (orderIds : List Id) (t : DB) : Prop where
  new : id ∉ s.deliveries
  deliveries : t.deliveries = s.deliveries.insert id d
  joins : ∀ d o, (d, o) ∈ t.ordersOnDeliveries ↔
    (d, o) ∈ s.ordersOnDeliveries ∨ d = id ∧ o ∈ orderIds
  staff : ∀ u ∈ d.staffId, u ∈ s.staffs

lemma insertDelivery_adds {orders : List Id} {dto : CreateDeliveryDto} {r : Delivery}
    (h : s.insertDelivery orders dto id r = .ok t) : Adds s id r dto.orderIds t := by
  obtain ⟨s₁, h₁, h⟩ := ok_of_bind h
  obtain ⟨s₂, h₂, h⟩ := ok_of_bind h
  obtain ⟨s₃, h₃, h⟩ := ok_of_bind h
  obtain ⟨orders, rfl, -⟩ := updateOrders_ok h₁
  have hkeys : ∀ u ∈ r.staffId, u ∈ s.staffs := by
    unfold DB.createDelivery at h₂
    split at h₂
    · simp at h₂
    · split at h₂
      · next hkeys =>
        rcases hkeys with hnone | hstaff
        · intro u hu
          rw [hnone] at hu
          cases hu
        · exact hstaff
      · simp at h₂
  obtain ⟨hid, rfl⟩ := DB.createDelivery_ok h₂
  obtain ⟨-, -, rfl⟩ := DB.createDeliveryStatusRow_ok h₃
  obtain ⟨hmem, hd⟩ := createMany_mem h
  exact ⟨hid, hd, hmem, hkeys⟩

lemma insertDelivery_orders {orders : List Id} {dto : CreateDeliveryDto} {r : Delivery}
    (h : s.insertDelivery orders dto id r = .ok t) (j : Id) :
    t.orders.lookup j = if j ∈ orders then (s.orders.lookup j).map fun o =>
      { o with shipperId := dto.staffId.patch o.shipperId } else s.orders.lookup j := by
  obtain ⟨s₁, h₁, h⟩ := ok_of_bind h
  obtain ⟨s₂, h₂, h⟩ := ok_of_bind h
  obtain ⟨s₃, h₃, h⟩ := ok_of_bind h
  rw [← updateOrders_lookup h₁ (fun o => by cases dto.staffId <;> rfl)]
  obtain ⟨-, rfl⟩ := DB.createDelivery_ok h₂
  obtain ⟨-, -, rfl⟩ := DB.createDeliveryStatusRow_ok h₃
  obtain ⟨joins, rfl⟩ := DB.createManyOrdersOnDelivery_ok h
  rfl

variable {r : Delivery} {orderIds : List Id}

/-- The request plans a trip: its orders exist, none of them is on a trip without having
been received, and its shipper exists. -/
structure Plans (s : DB) (dto : CreateDeliveryDto) : Prop where
  exist : (s.ordersIn dto.orderIds).length = dto.orderIds.length
  received : ∀ e ∈ s.ordersIn dto.orderIds,
    (e.2.2 && decide (e.2.1.latestStatus ≠ some .receivedExternal)) = false
  staff : ∀ u ∈ dto.staffId.toOption, u ∈ s.staffs

variable {dto : CreateDeliveryDto}

lemma generateUniqueId_wp {E : Input → Prop} {retries : ℕ} {Q : String → DB → Prop}
    {X : Exn → DB → Prop} (hX : ∀ e, X e s)
    (hQ : ∀ x, Q x s) : (generateUniqueId retries).wp E Any Q X s := by
  induction retries with
  | zero => exact hX _
  | succ retries ih =>
    unfold generateUniqueId
    rw [wp_bind, wp_read]
    refine fun i _ => ⟨trivial, ?_⟩
    dsimp only
    rw [wp_ite]
    split
    · exact ih
    · exact hQ _

/-- The row of a new trip. -/
structure NewTrip (dto : CreateDeliveryDto) (r : Delivery) : Prop where
  pending : r.latestStatus = .pending
  staffId : r.staffId = dto.staffId.toOption
  numberOrder : r.numberOrder = dto.orderIds.length

/-- A new trip is stored. -/
def Inserts (s : DB) (dto : CreateDeliveryDto) (t : DB) : Prop :=
  ∃ id r, NewTrip dto r ∧
    s.insertDelivery ((s.ordersIn dto.orderIds).map (·.1)) dto id r = .ok t

theorem createDelivery_inserts :
    Ends (createDelivery dto) s fun t => t = s ∨ Plans s dto ∧ Inserts s dto t := by
  refine ends_of_wp ?_
  unfold createDelivery
  rw [wp_bind, wp_read]
  refine fun _ _ => ⟨trivial, ?_⟩
  rw [wp_throwIf_bind]
  refine ⟨fun _ => .inl rfl, fun hexist => ?_⟩
  rw [wp_throwIf_bind]
  refine ⟨fun _ => .inl rfl, fun hreceived => ?_⟩
  rw [wp_bind, wp_input]
  refine fun now _ => ⟨trivial, ?_⟩
  rw [wp_bind]
  refine generateUniqueId_wp (fun _ => .inl rfl) fun displayId => ?_
  dsimp only
  rw [wp_bind, wp_atomic]
  intro i _
  split
  · next a t h =>
    obtain ⟨t', h, heq⟩ := ok_of_bind h
    cases heq
    have hplans : Plans s dto := by
      refine ⟨not_not.mp hexist, fun e he => ?_, (insertDelivery_adds h).staff⟩
      rw [Bool.not_eq_true, List.any_eq_false] at hreceived
      simpa using hreceived e he
    have hend : t = s ∨ Plans s dto ∧ Inserts s dto t :=
      .inr ⟨hplans, i.fresh, _, ⟨rfl, rfl, rfl⟩, h⟩
    refine ⟨trivial, ?_⟩
    rw [wp_when_bind]
    refine ⟨fun _ => ?_, fun _ => hend⟩
    rcases dto.staffId.toOption with _ | u
    · exact hend
    · refine wp_service.mpr fun _ _ => ⟨trivial, ?_⟩
      split <;> exact hend
  · exact ⟨trivial, .inl rfl⟩

lemma createDelivery_ends : Ends (createDelivery dto) s fun t => SameTrips s t ∨
    ∃ id r, Plans s dto ∧ r.latestStatus = .pending ∧ Adds s id r dto.orderIds t := by
  refine createDelivery_inserts.mono fun t ht => ?_
  rcases ht with rfl | ⟨hplans, id, r, hr, h⟩
  · exact .inl ⟨rfl, rfl⟩
  · exact .inr ⟨id, r, hplans, hr.pending, insertDelivery_adds h⟩

lemma insertDelivery_eq (hs : Joined s) (h : Plans s dto) {r : Delivery} (hid : id ∉ s.deliveries)
    (hfree : s.deliveries.entries.any (·.2.displayId = r.displayId) = false)
    (hstaff : r.staffId = dto.staffId.toOption) :
    ∃ t, s.insertDelivery ((s.ordersIn dto.orderIds).map (·.1)) dto id r = .ok t := by
  obtain ⟨hnd, hmem⟩ := ordersIn_length h.exist
  have hin : ∀ o ∈ (s.ordersIn dto.orderIds).map (·.1), o ∈ s.orders :=
    fun o ho => (mem_ordersIn.mp ho).1
  obtain ⟨s₁, h₁⟩ := updateOrders_eq (s := s) hin
    (f := fun o => { o with shipperId := dto.staffId.patch o.shipperId })
    (fun _ => .kept) (fun _ => rfl) fun o => by
      rcases hdto : dto.staffId with _ | _ | u
      · exact .inl rfl
      · exact .inr fun _ hu => by cases hu
      · exact .inr (by simpa [hdto, Arg.toOption, Arg.patch] using h.staff)
  obtain ⟨orders, rfl, hsame⟩ := updateOrders_ok h₁
  have h₂ : DB.createDelivery { s with orders } id r =
      .ok { s with orders, deliveries := s.deliveries.insert id r } := by
    unfold DB.createDelivery
    have hnew : ¬ (id ∈ s.deliveries ∨
        s.deliveries.entries.any (·.2.displayId = r.displayId) = true) := by
      simp [hid, hfree]
    exact (if_neg hnew).trans (if_pos (.inr (by rw [hstaff]; exact h.staff)))
  unfold DB.insertDelivery
  rw [h₁]
  change ∃ t, (DB.createDelivery { s with orders } id r >>= _) = _
  rw [h₂]
  change ∃ t, (DB.createDeliveryStatusRow { s with orders, deliveries := s.deliveries.insert id r } _
    >>= _) = _
  rw [DB.createDeliveryStatusRow, if_pos ((AList.mem_insert _).mpr (.inl rfl))]
  refine createMany_ok hnd (fun o ho => (hsame o).mpr (hmem o ho)) fun o _ hjoin => ?_
  exact hid (hs id o hjoin)

lemma exists_free_displayId (s : DB) :
    ∃ x, s.deliveries.entries.any (·.2.displayId = x) = false := by
  obtain ⟨x, hx⟩ := Infinite.exists_notMem_finset
    (s.deliveries.entries.map (·.2.displayId)).toFinset
  refine ⟨x, List.any_eq_false.mpr fun e he => ?_⟩
  rw [List.mem_toFinset, List.mem_map, not_exists] at hx
  simpa using fun heq => hx e ⟨he, heq⟩

lemma Plans.wp {E : Input → Prop} {x : String} (hs : Joined s) (h : Plans s dto)
    (hid : ∀ i, E i → i.fresh ∉ s.deliveries) (hx : ∀ i, E i → i.displayId = x)
    (hfree : s.deliveries.entries.any (·.2.displayId = x) = false) (hok : ∀ i, E i → i.ok = true) :
    (createDelivery dto).wp E Any
      (fun _ t => ∃ id r, r.latestStatus = .pending ∧ Adds s id r dto.orderIds t)
      (fun _ _ => False) s := by
  unfold createDelivery
  rw [wp_bind, wp_read]
  refine fun _ _ => ⟨trivial, ?_⟩
  rw [wp_throwIf_bind]
  refine ⟨fun hno => absurd h.exist hno, fun _ => ?_⟩
  rw [wp_throwIf_bind]
  refine ⟨fun hno => ?_, fun _ => ?_⟩
  · obtain ⟨e, he, hbad⟩ := List.any_eq_true.mp hno
    rw [h.received e he] at hbad
    cases hbad
  rw [wp_bind, wp_input]
  refine fun now _ => ⟨trivial, ?_⟩
  rw [wp_bind, generateUniqueId, wp_bind, wp_read]
  refine fun i hi => ⟨trivial, ?_⟩
  dsimp only
  rw [hx i hi, hfree, wp_ite, if_neg (by simp), wp_pure, wp_bind, wp_atomic]
  intro i hi
  obtain ⟨t, ht⟩ := insertDelivery_eq hs h
    (r := ⟨toString now.now, dto.staffId.toOption, dto.limitTime, .pending, dto.orderIds.length, x⟩)
    (hid i hi) hfree rfl
  rw [ht]
  have hend : ∃ id r, r.latestStatus = .pending ∧ Adds s id r dto.orderIds t :=
    ⟨_, _, rfl, insertDelivery_adds ht⟩
  refine ⟨trivial, ?_⟩
  rw [wp_when_bind]
  refine ⟨fun hsome => ?_, fun _ => hend⟩
  obtain ⟨u, hu⟩ := Option.isSome_iff_exists.mp hsome
  rw [hu]
  refine wp_service.mpr fun i hi => ⟨trivial, ?_⟩
  rw [if_pos (hok i hi)]
  exact hend

/-- A trip that can be planned is planned by some inputs. -/
lemma Plans.reached (hs : Joined s) (h : Plans s dto) (hends : Ends (createDelivery dto) s Q) :
    ∃ t id r, Q t ∧ r.latestStatus = .pending ∧ Adds s id r dto.orderIds t := by
  obtain ⟨id, hid⟩ := Table.exists_notMem s.deliveries
  obtain ⟨x, hx⟩ := exists_free_displayId s
  have hwp := Plans.wp (E := fun i => i.fresh = id ∧ i.displayId = x ∧ i.ok = true) hs h
    (fun i hi => by rw [hi.1]; exact hid) (fun i hi => hi.2.1) hx fun i hi => hi.2.2
  obtain ⟨t, hQ, id, r, hr, hadds⟩ := ends_meet hends
    (i := { (default : Input) with fresh := id, displayId := x, ok := true }) ⟨rfl, rfl, rfl⟩
    (wp_mono hwp (fun _ _ ht => ht) fun _ _ ht => ht.elim)
  exact ⟨t, id, r, hQ, hr, hadds⟩

lemma Plans.inserted (hs : Joined s) (h : Plans s dto) (hends : Ends (createDelivery dto) s Q) :
    ∃ t, Q t ∧ Inserts s dto t := by
  obtain ⟨t, id, r, ⟨hQ, hend⟩, -, hadds⟩ :=
    h.reached hs (Q := fun t => Q t ∧ (t = s ∨ Plans s dto ∧ Inserts s dto t))
      fun ω => ⟨hends ω, createDelivery_inserts ω⟩
  rcases hend with rfl | ⟨-, hins⟩
  · refine absurd ?_ hadds.new
    rw [hadds.deliveries, AList.mem_insert]
    exact .inl rfl
  · exact ⟨t, hQ, hins⟩

/-! ### Edits and status changes of trips, other requests -/

/-- The row of an edited trip. -/
def replanned (dto : UpdateDeliveryDto) (r : Delivery) : Delivery :=
  { r with
    limitTime := dto.limitTime.patchReq r.limitTime
    staffId := dto.staffId.patch r.staffId }

lemma createMany_new {n : ℕ} {os : List Id} (h : s.createManyOrdersOnDelivery id n os = .ok t) :
    ∀ o ∈ os, (id, o) ∉ s.ordersOnDeliveries := by
  induction os generalizing s n with
  | nil => simp
  | cons o os ih =>
    unfold DB.createManyOrdersOnDelivery at h
    split at h
    · simp at h
    · next ho =>
      split at h
      · simp at h
      · intro o' ho' hjoin
        rcases List.mem_cons.mp ho' with rfl | ho'
        · exact ho hjoin
        · exact ih h o' ho' ((AList.mem_insert _).mpr (.inr hjoin))

variable {dto : UpdateDeliveryDto}

/-- The request adds these orders to a pending trip. -/
structure Replans (s : DB) (id : Id) (dto : UpdateDeliveryDto) (orderIds : List Id) (r : Delivery) :
    Prop where
  lookup : s.deliveries.lookup id = some r
  pending : r.latestStatus = .pending
  ids : dto.orderIds = .val orderIds
  exist : (s.ordersIn orderIds).length = orderIds.length
  limitTime : dto.limitTime ≠ .null
  keys : s.DeliveryKeys r (replanned dto r)
  new : ∀ o ∈ orderIds, (id, o) ∉ s.ordersOnDeliveries

/-- The statement of an edit goes through. -/
def Edits (s : DB) (id : Id) (dto : UpdateDeliveryDto) (orderIds : List Id) (t : DB) : Prop :=
  DB.createManyOrdersOnDelivery { s with
    deliveries := s.deliveries.modify id (replanned dto) } id 1 orderIds = .ok t

/-- What an edit leaves. -/
structure Extends (s : DB) (id : Id) (f : Delivery → Delivery) (orderIds : List Id) (t : DB) :
    Prop where
  deliveries : t.deliveries = s.deliveries.modify id f
  joins : ∀ d o, (d, o) ∈ t.ordersOnDeliveries ↔
    (d, o) ∈ s.ordersOnDeliveries ∨ d = id ∧ o ∈ orderIds

lemma Edits.extend (h : Edits s id dto orderIds t) : Extends s id (replanned dto) orderIds t := by
  obtain ⟨hjoins, hd⟩ := createMany_mem h
  exact ⟨hd, hjoins⟩

theorem updateDelivery_edits : Ends (updateDelivery id dto) s fun t => t = s ∨
    ∃ orderIds r, Replans s id dto orderIds r ∧ Edits s id dto orderIds t := by
  refine ends_of_wp ?_
  unfold updateDelivery
  rw [wp_bind, wp_read]
  refine fun _ _ => ⟨trivial, ?_⟩
  rcases hr : s.deliveries.lookup id with _ | r
  · exact .inl rfl
  dsimp only
  rw [wp_throwIf_bind]
  refine ⟨fun _ => .inl rfl, fun hpending => ?_⟩
  rw [wp_throwIf_bind]
  refine ⟨fun _ => .inl rfl, fun _ => ?_⟩
  rcases hids : dto.orderIds with _ | _ | orderIds
  · exact .inl rfl
  · exact .inl rfl
  dsimp only
  rw [wp_bind, wp_read]
  refine fun _ _ => ⟨trivial, ?_⟩
  rw [wp_throwIf_bind]
  refine ⟨fun _ => .inl rfl, fun hexist => ?_⟩
  rw [wp_throwIf_bind]
  refine ⟨fun _ => .inl rfl, fun hlimit => ?_⟩
  refine wp_executeReturning (fun i t _ _ ht _ => ⟨trivial, .inr ⟨orderIds, r, ?_, ?_⟩⟩)
    ⟨trivial, fun _ => .inl rfl⟩ <;> obtain ⟨s', hu, hm⟩ := ok_of_bind ht
  · obtain ⟨_, _, rfl⟩ := DB.updateDelivery_ok hu
    have hnew := createMany_new hm
    refine ⟨hr, not_not.mp hpending, hids, not_not.mp hexist, hlimit, ?_, hnew⟩
    by_contra hkeys
    rw [DB.updateDelivery, hr] at hu
    dsimp only at hu
    rw [if_neg (by exact hkeys)] at hu
    cases hu
  · obtain ⟨_, _, rfl⟩ := DB.updateDelivery_ok hu
    exact hm

lemma Replans.wp {E : Input → Prop} (h : Replans s id dto orderIds r) :
    (updateDelivery id dto).wp E Any (fun _ t => Edits s id dto orderIds t)
      (fun _ _ => False) s := by
  obtain ⟨hnd, hmem⟩ := ordersIn_length h.exist
  unfold updateDelivery
  rw [wp_bind, wp_read]
  refine fun _ _ => ⟨trivial, ?_⟩
  rw [h.lookup]
  dsimp only
  rw [wp_throwIf_bind]
  refine ⟨fun hno => absurd h.pending hno, fun _ => ?_⟩
  rw [wp_throwIf_bind]
  refine ⟨fun hno => by simp [h.ids] at hno, fun _ => ?_⟩
  rw [h.ids]
  dsimp only
  rw [wp_bind, wp_read]
  refine fun _ _ => ⟨trivial, ?_⟩
  rw [wp_throwIf_bind]
  refine ⟨fun hno => absurd h.exist hno, fun _ => ?_⟩
  rw [wp_throwIf_bind]
  refine ⟨fun hno => absurd hno h.limitTime, fun _ => ?_⟩
  have hu : s.updateDelivery id (replanned dto) =
      .ok { s with deliveries := s.deliveries.modify id (replanned dto) } := by
    rw [DB.updateDelivery, h.lookup]
    exact if_pos h.keys
  have hrows : ∃ t, Edits s id dto orderIds t := createMany_ok hnd hmem h.new
  obtain ⟨t, ht⟩ := hrows
  have hrow : t.deliveries.lookup id = some (replanned dto r) := by
    rw [ht.extend.deliveries, Table.lookup_modify_self, h.lookup]
    rfl
  refine wp_executeReturning_of_ok fun i _ => ⟨t, _, ?_, hrow, trivial, ht⟩
  change (s.updateDelivery id (replanned dto) >>= _) = _
  rw [hu]
  exact ht

lemma Replans.edited (h : Replans s id dto orderIds r) (hends : Ends (updateDelivery id dto) s Q) :
    ∃ t, Q t ∧ Edits s id dto orderIds t :=
  ends_meet hends (E := fun _ => True) (i := default) trivial
    (wp_mono h.wp (fun _ _ ht => ht) fun _ _ ht => ht.elim)

/-- The trip has this status, and nothing else of the trips changed. -/
structure Moved (s : DB) (id : Id) (status : DeliveryStatus) (t : DB) : Prop where
  deliveries : t.deliveries = s.deliveries.modify id fun r => { r with latestStatus := status }
  joins : t.ordersOnDeliveries = s.ordersOnDeliveries

variable {dto : UpdateDeliveryStatusDto} {status : DeliveryStatus}

/-- The request makes a trip planned or under way. -/
structure Resumes (s : DB) (id : Id) (dto : UpdateDeliveryStatusDto) (user : GetUserType)
    (r : Delivery) : Prop where
  lookup : s.deliveries.lookup id = some r
  status : dto.status = .pending ∨ dto.status = .accepted
  free : s.isGoingDelivery user = true → dto.status ≠ .accepted
  plain : dto.reason.truthy = false ∧ dto.canceledImage.truthy = false
  orders : (s.ordersOf id).all (fun e => e.2.latestStatus = some .canceled) = false
  staff : r.staffId.isSome

/-- What a status change of a trip leaves. -/
inductive Changed (s : DB) (id : Id) (dto : UpdateDeliveryStatusDto) (user : GetUserType) :
    DB → Prop
  | same {t : DB} (h : SameTrips s t) : Changed s id dto user t
  | ended {status : DeliveryStatus} {t : DB} (hst : status ≠ .pending ∧ status ≠ .accepted)
    (h : Moved s id status t) : Changed s id dto user t
  | resumed {r : Delivery} {t : DB} (hr : Resumes s id dto user r) (h : Moved s id dto.status t) :
    Changed s id dto user t

lemma moved_moved {i : Input} (h : TripStatus.TripsKept s t) :
    Moved s id status (moved i id status dto t) := by
  refine ⟨?_, h.joins⟩
  rw [moved, h.deliveries]

theorem updateDeliveryStatus_ends :
    Ends (updateDeliveryStatus id dto user) s (Changed s id dto user) := by
  refine ends_of_wp (wp_mono updateDeliveryStatus_wp (fun _ t ht => ?_) fun _ t ht => ?_)
  · obtain ⟨r, i, u, hpasses, hrefused, -, hsweeps, -, rfl⟩ := ht
    have hmoved : Moved s id (finalStatus s id dto) (moved i id (finalStatus s id dto) dto u) :=
      moved_moved hsweeps.trips
    by_cases hall : allCanceled s id = true
    · have hfinal : finalStatus s id dto = .canceled := if_pos hall
      exact .ended (by rw [hfinal]; decide) hmoved
    have hfinal : finalStatus s id dto = dto.status := if_neg hall
    by_cases hactive : dto.status = .pending ∨ dto.status = .accepted
    · have hstaff : r.staffId.isSome := by
        rw [Option.isSome_iff_ne_none]
        exact fun hnone => hrefused (.inr (.inr hnone))
      refine .resumed ⟨hpasses.lookup, hactive, hpasses.free, hpasses.plain hactive, ?_, hstaff⟩
        (hfinal ▸ hmoved)
      exact Bool.not_eq_true _ ▸ hall
    · exact .ended (hfinal ▸ not_or.mp hactive) hmoved
  · rcases ht with ⟨rfl, -⟩ | ⟨-, -, -, hsweeps⟩
    · exact .same ⟨rfl, rfl⟩
    · exact .same ⟨hsweeps.trips.deliveries, hsweeps.trips.joins⟩

lemma Resumes.passes (h : Resumes s id dto user r) : Passes s id dto user r := by
  refine ⟨h.free, h.lookup, fun hst => ?_, fun _ => h.plain,
    TripStatus.fits_of_not_truthy h.plain.2⟩
  rcases h.status with hactive | hactive <;> cases hst.symm.trans hactive

lemma Resumes.not_refused (h : Resumes s id dto user r) : ¬ Refused s id dto r := by
  rintro (⟨hst, -⟩ | ⟨-, hall, -⟩ | hnone)
  · rcases h.status with hactive | hactive <;> cases hst.symm.trans hactive
  · cases hall.symm.trans h.orders
  · have hstaff := h.staff
    rw [hnone] at hstaff
    cases hstaff

lemma Resumes.reached (h : Resumes s id dto user r)
    (hends : Ends (updateDeliveryStatus id dto user) s Q) : ∃ t, Q t ∧ Moved s id dto.status t := by
  refine ends_meet hends (E := fun i => i.ok = true) (i := { (default : Input) with ok := true }) rfl
    (wp_mono updateDeliveryStatus_wp (fun _ t ht => ?_) fun _ t ht => ?_)
  · obtain ⟨_, i, u, -, -, -, hsweeps, -, rfl⟩ := ht
    have hfinal : finalStatus s id dto = dto.status := if_neg (by rw [allCanceled, h.orders]; simp)
    rw [hfinal]
    exact moved_moved hsweeps.trips
  · rcases ht with ⟨-, hstop⟩ | ⟨r', hpasses, hrefused | ⟨i, hi, hno⟩, -⟩
    · exact absurd h.passes (hstop r)
    · obtain rfl := Option.some.inj (h.lookup.symm.trans hpasses.lookup)
      exact absurd hrefused h.not_refused
    · cases hi.symm.trans hno

lemma deleteDelivery_free (h : s.deleteDelivery id = .ok t) :
    ∀ o, (id, o) ∉ s.ordersOnDeliveries := by
  intro o hjoin
  unfold DB.deleteDelivery at h
  split at h
  · simp at h
  · have hany : s.ordersOnDeliveries.keys.any (·.1 = id) = true :=
      List.any_eq_true.mpr ⟨(id, o), AList.mem_keys.mpr hjoin, by simp⟩
    rw [if_pos hany] at h
    cases h

/-- The requests that write trips. -/
def WritesTrips : Request → Prop
  | .createDelivery _ | .updateDelivery _ _ | .updateDeliveryStatus _ _ _ | .deleteDelivery _ =>
    True
  | _ => False

/-- Any other request leaves the trips, their join rows and their history. -/
lemma untouched_writes {r : Request} (hr : ¬ WritesTrips r) (h : Writes cfg s r t) :
    SameTrips s t ∧ t.deliveryStatusHistory = s.deliveryStatusHistory := by
  cases h with
  | none => exact ⟨⟨rfl, rfl⟩, rfl⟩
  | charge _ ht =>
    rw [chargeStudent_ok ht]
    exact ⟨⟨rfl, rfl⟩, rfl⟩
  | cash _ => exact ⟨⟨rfl, rfl⟩, rfl⟩
  | change i hid => exact ⟨⟨rfl, rfl⟩, rfl⟩
  | claim => exact ⟨⟨rfl, rfl⟩, rfl⟩
  | insert _ _ => exact ⟨⟨rfl, rfl⟩, rfl⟩
  | log i status hid => exact ⟨⟨rfl, rfl⟩, rfl⟩
  | edit => exact ⟨⟨rfl, rfl⟩, rfl⟩
  | remove h =>
    obtain ⟨_, rfl⟩ := DB.deleteOrder_ok h
    exact ⟨⟨rfl, rfl⟩, rfl⟩
  | delay h =>
    obtain ⟨_, rfl, _⟩ := updateOrders_ok h
    exact ⟨⟨rfl, rfl⟩, rfl⟩
  | invoice h =>
    obtain ⟨_, _, _, rfl⟩ := DB.createPayment_ok h
    exact ⟨⟨rfl, rfl⟩, rfl⟩
  | settle h =>
    obtain ⟨_, _, _, rfl⟩ := webhookTransaction_ok h
    exact ⟨⟨rfl, rfl⟩, rfl⟩
  | plan _ _ => exact absurd trivial hr
  | replan _ _ _ _ => exact absurd trivial hr
  | order _ _ _ _ _ => exact absurd trivial hr
  | move _ _ _ _ => exact absurd trivial hr
  | drop _ => exact absurd trivial hr

lemma sameTrips_writes {r : Request} (hr : ¬ WritesTrips r) (h : Writes cfg s r t) :
    SameTrips s t := (untouched_writes hr h).1

end TsaBackend.Trips
