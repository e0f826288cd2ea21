import TsaBackend.TripSequences

/-!
The planning of a trip: which requests pass the checks, what a trip that is stored leaves in the
tables, and that it is read back with its orders in the order of the request.
-/

namespace TsaBackend.TripPlans

open Call OrderEffects Trips

variable {s t : DB} {id : Id} {dto : CreateDeliveryDto} {r : Delivery} {ω : ℕ → Input}

/-- What `createDelivery` does before it looks at the clock. -/
def planChecks (dto : CreateDeliveryDto) : Async (List (Id × Order × Bool)) := do
  let orders ← (.read fun _ s => s.ordersIn dto.orderIds : Async _)
  throwIf (orders.length ≠ dto.orderIds.length) (.badRequest "One or more orders do not exist")
  throwIf (orders.any fun e => e.2.2 && e.2.1.latestStatus ≠ some .receivedExternal)
    (.badRequest "One or more orders have not received from external first")
  return orders

/-- What it does from there on. -/
def storeTrip (dto : CreateDeliveryDto) (orders : List (Id × Order × Bool)) :
    Async (Id × Delivery) := do
  let now ← input
  let displayId ← generateUniqueId 5
  let d : Delivery := {
    createdAt := toString now.now
    staffId := dto.staffId.toOption
    limitTime := dto.limitTime
    latestStatus := .pending
    numberOrder := dto.orderIds.length
    displayId }
  let newDelivery ← (.atomic fun i s => do
    let s ← s.insertDelivery (orders.map (·.1)) dto i.fresh d
    return ((i.fresh, d), s) : Async _)
  when dto.staffId.toOption.isSome (sendFullNotification dto.staffId.toOption)
  return newDelivery

lemma createDelivery_eq : createDelivery dto = planChecks dto >>= storeTrip dto := by
  rw [planChecks]
  simp only [bind_assoc, pure_bind]
  rfl

/-- The ids are different, each names an order, and those that are on a trip have been received. -/
structure Checks (s : DB) (dto : CreateDeliveryDto) : Prop where
  nodup : dto.orderIds.Nodup
  exist : ∀ j ∈ dto.orderIds, j ∈ s.orders
  received : ∀ j ∈ dto.orderIds, (∃ d, (d, j) ∈ s.ordersOnDeliveries) →
    ∀ o, s.orders.lookup j = some o → o.latestStatus = some .receivedExternal

lemma inDelivery_iff {j : Id} : s.inDelivery j = true ↔ ∃ d, (d, j) ∈ s.ordersOnDeliveries := by
  simp only [DB.inDelivery, List.any_eq_true, decide_eq_true_eq, AList.mem_keys]
  constructor
  · rintro ⟨⟨d, j'⟩, hmem, rfl⟩
    exact ⟨d, hmem⟩
  · rintro ⟨d, hmem⟩
    exact ⟨(d, j), hmem, rfl⟩

/-- The comparison of lengths refuses repeats as well as ids of no order. -/
lemma ordersIn_length_iff {ids : List Id} : (s.ordersIn ids).length = ids.length ↔
    ids.Nodup ∧ ∀ j ∈ ids, j ∈ s.orders := by
  refine ⟨ordersIn_length, fun ⟨hnd, hmem⟩ => ?_⟩
  have hperm : ((s.ordersIn ids).map (·.1)).Perm ids := by
    rw [List.perm_ext_iff_of_nodup ordersIn_nodup hnd]
    intro j
    rw [mem_ordersIn, and_iff_right_iff_imp]
    exact hmem j
  simpa using hperm.length_eq

lemma checks_iff : Checks s dto ↔ (s.ordersIn dto.orderIds).length = dto.orderIds.length ∧
    (s.ordersIn dto.orderIds).any
      (fun e => e.2.2 && e.2.1.latestStatus ≠ some .receivedExternal) = false := by
  rw [ordersIn_length_iff, List.any_eq_false]
  constructor
  · intro h
    refine ⟨⟨h.nodup, h.exist⟩, fun e he => ?_⟩
    obtain ⟨hids, ho, hin⟩ := mem_ordersIn_iff.mp he
    rw [Bool.and_eq_true, decide_eq_true_eq, not_and, not_not, hin, inDelivery_iff]
    exact fun hjoined => h.received e.1 hids hjoined e.2.1 ho
  · rintro ⟨⟨hnd, hmem⟩, hany⟩
    refine ⟨hnd, hmem, fun j hj hjoined o ho => ?_⟩
    have hno := hany (j, o, s.inDelivery j) (mem_ordersIn_iff.mpr ⟨hj, ho, rfl⟩)
    rw [Bool.and_eq_true, decide_eq_true_eq, not_and, not_not] at hno
    exact hno (inDelivery_iff.mpr hjoined)

lemma planChecks_of_checks {α : Type} {f : List (Id × Order × Bool) → Async α}
    (h : Checks s dto) : (planChecks dto >>= f).exec ω s =
      (f (s.ordersIn dto.orderIds)).exec (fun n => ω (n + 1)) s := by
  obtain ⟨hlen, hany⟩ := checks_iff.mp h
  rw [planChecks, bind_assoc, exec_read_bind, bind_assoc, exec_throwIf_bind,
    if_neg (not_not.mpr hlen), bind_assoc, exec_throwIf_bind, if_neg (by rw [hany]; simp), pure_bind]

lemma planChecks_refuses {α : Type} {f : List (Id × Order × Bool) → Async α}
    (h : ¬ Checks s dto) :
    ∃ msg, (planChecks dto >>= f).exec ω s = (.error (.badRequest msg), s) := by
  rw [checks_iff, not_and_or] at h
  rw [planChecks, bind_assoc, exec_read_bind, bind_assoc, exec_throwIf_bind]
  split
  · exact ⟨_, rfl⟩
  · next hlen =>
    rw [bind_assoc, exec_throwIf_bind, if_pos]
    · exact ⟨_, rfl⟩
    · simpa [hlen] using h

/-- The foreign keys of the tables of trips: the trips of join rows and of history rows exist. -/
structure ForeignKeys (s : DB) : Prop where
  joined : Joined s
  logged : ∀ h ∈ s.deliveryStatusHistory, h.deliveryId ∈ s.deliveries

/-- The row of the new trip. -/
def newTrip (dto : CreateDeliveryDto) (ω : ℕ → Input) : Delivery where
  createdAt := toString (ω 1).now
  staffId := dto.staffId.toOption
  limitTime := dto.limitTime
  latestStatus := .pending
  numberOrder := dto.orderIds.length
  displayId := (ω 2).displayId

/-- The first history row of a trip. -/
def firstRow (id : Id) (r : Delivery) : DeliveryStatusHistory :=
  { deliveryId := id, status := .pending, reason := none, time := r.createdAt
    canceledImage := none }

/-- Nothing stands in the way of the transaction: the ids are free, the shipper exists. -/
structure Commits (s : DB) (dto : CreateDeliveryDto) (ω : ℕ → Input) : Prop where
  fresh : (ω 3).fresh ∉ s.deliveries
  displayId : s.deliveries.entries.any (·.2.displayId = (ω 2).displayId) = false
  staff : ∀ u ∈ dto.staffId.toOption, u ∈ s.staffs

/-- The tables with a new trip. Columns that are not named are those of before. -/
structure Stored (s : DB) (dto : CreateDeliveryDto) (id : Id) (r : Delivery) (t : DB) : Prop where
  new : id ∉ s.deliveries
  tables : t = { s with
    orders := t.orders
    deliveries := s.deliveries.insert id r
    deliveryStatusHistory := s.deliveryStatusHistory ++ [firstRow id r]
    ordersOnDeliveries := t.ordersOnDeliveries }
  orders : ∀ j, t.orders.lookup j = if j ∈ dto.orderIds then (s.orders.lookup j).map fun o =>
    { o with shipperId := dto.staffId.patch o.shipperId } else s.orders.lookup j
  joins : ∀ d, t.ordersOnDeliveries.entries.filter (fun e => e.1.1 = d) =
    (if d = id then (joinRows id 1 dto.orderIds).reverse else []) ++
      s.ordersOnDeliveries.entries.filter fun e => e.1.1 = d

lemma stored_of_insert (hp : Plans s dto)
    (h : s.insertDelivery ((s.ordersIn dto.orderIds).map (·.1)) dto id r = .ok t) :
    Stored s dto id r t := by
  refine ⟨(insertDelivery_adds h).new, ?_, hp.orders_of_insert h, joins_insertDelivery h⟩
  obtain ⟨s₁, h₁, h⟩ := ok_of_bind h
  obtain ⟨s₂, h₂, h⟩ := ok_of_bind h
  obtain ⟨s₃, h₃, h⟩ := ok_of_bind h
  obtain ⟨orders, rfl, -⟩ := RequestSteps.updateOrders_ok h₁
  obtain ⟨-, rfl⟩ := DB.createDelivery_ok h₂
  obtain ⟨-, -, rfl⟩ := DB.createDeliveryStatusRow_ok h₃
  obtain ⟨joins, rfl⟩ := DB.createManyOrdersOnDelivery_ok h
  rfl

/-- A trip that is stored stays stored if the notification fails. -/
lemma createDelivery_stores (hs : ForeignKeys s) (hc : Checks s dto) (hω : Commits s dto ω) :
    ∃ t, Stored s dto (ω 3).fresh (newTrip dto ω) t ∧ (createDelivery dto).exec ω s =
      (if dto.staffId.toOption.isSome ∧ (ω 4).ok = false then .error .rejected
        else .ok ((ω 3).fresh, newTrip dto ω), t) := by
  obtain ⟨hlen, hany⟩ := checks_iff.mp hc
  have hplans : Plans s dto :=
    ⟨hlen, fun e he => by simpa using List.any_eq_false.mp hany e he, hω.staff⟩
  obtain ⟨t, ht⟩ := insertDelivery_eq hs.joined hplans (r := newTrip dto ω) hω.fresh hω.displayId rfl
  refine ⟨t, stored_of_insert hplans ht, ?_⟩
  rw [createDelivery_eq, planChecks_of_checks hc, storeTrip, input, exec_read_bind,
    generateUniqueId, bind_assoc, exec_read_bind]
  dsimp only
  rw [hω.displayId, if_neg (by simp), pure_bind,
    exec_atomic_bind_ok (a := ((ω 3).fresh, newTrip dto ω)) (t := t)]
  case h => exact congrArg (· >>= _) ht
  rcases dto.staffId.toOption with _ | u
  · rfl
  · change Call.exec (service >>= _) _ _ = _
    rw [service, exec_atomic_bind]
    cases hok : (ω 4).ok <;> simp

/-! ### Reading the trip -/

lemma getDelivery_eq {a : AuthDB} {ω : ℕ → AuthInput} (h : a.deliveries.lookup id = some r) :
    ((getDelivery id).exec ω a).1 = .ok
      { id, delivery := r
        deliveryStatusHistory := Table.anyOrder (ω 0).pick (a.deliveryHistoryOf id)
        orders := ((Table.anyOrder (ω 0).pick (a.placedOrders id)).insertionSort
          fun x y => x.1 ≤ y.1).map (·.2) } := by
  unfold getDelivery
  rw [exec_read_bind, h]
  rfl

/-- What is read of a join row. -/
def readRow (a : AuthDB) (e : Σ _ : Id × Id, ℕ) : Option (ℕ × Id × Order × Option StudentInfo) :=
  (a.orders.lookup e.1.2).map fun o => (e.2, e.1.2, o, a.studentInfo o)

/-- Each new join row is read: the places count up, the orders are those of the request. -/
lemma readRows_new (id : Id) {a : AuthDB} {n : ℕ} {ids : List Id} (h : ∀ j ∈ ids, j ∈ a.orders) :
    ((joinRows id n ids).filterMap (readRow a)).map (·.1) = List.range' n ids.length ∧
      ((joinRows id n ids).filterMap (readRow a)).map (·.2.1) = ids := by
  induction ids generalizing n with
  | nil => exact ⟨rfl, rfl⟩
  | cons j ids ih =>
    obtain ⟨o, ho⟩ := Table.mem_iff_lookup.mp (h j List.mem_cons_self)
    obtain ⟨hplaces, hids⟩ := ih (n := n + 1) fun k hk => h k (List.mem_cons_of_mem _ hk)
    have hrow : readRow a ⟨(id, j), n⟩ = some (n, j, o, a.studentInfo o) := by
      rw [readRow, ho]
      rfl
    have hcons : (joinRows id n (j :: ids)).filterMap (readRow a) =
        (n, j, o, a.studentInfo o) :: (joinRows id (n + 1) ids).filterMap (readRow a) :=
      List.filterMap_cons_some hrow
    rw [hcons, List.map_cons, List.map_cons, hplaces, hids]
    exact ⟨rfl, rfl⟩

/-- Rows whose places count up are read as they are, in whatever order they come. -/
lemma sort_anyOrder_reverse {α : Type} {l : List (ℕ × α)} {n m pick : ℕ}
    (h : l.map (·.1) = List.range' n m) :
    (Table.anyOrder pick l.reverse).insertionSort (fun a b => a.1 ≤ b.1) = l := by
  have hperm : (Table.anyOrder pick l.reverse).Perm l :=
    (Table.anyOrder_perm pick _).trans l.reverse_perm
  have hnd : ((Table.anyOrder pick l.reverse).map (·.1)).Nodup := by
    rw [(hperm.map _).nodup_iff, h]
    exact List.nodup_range'
  have hsorted : l.Pairwise fun a b => a.1 ≤ b.1 := by
    have hplaces : (l.map (·.1)).Pairwise (· ≤ ·) := by
      rw [h]
      exact List.pairwise_le_range'
    exact List.pairwise_map.mp hplaces
  rw [sort_unique hperm hnd, hsorted.insertionSort_eq]

/-- What is read of the new trip: its row, its first history row, and the orders of the request
in the order of the request. -/
def Reads (t : DB) (dto : CreateDeliveryDto) (id : Id) (r : Delivery) : Prop :=
  ∀ a : AuthDB, a.toDB = t → ∀ ω, ∃ g, ((getDelivery id).exec ω a).1 = .ok g ∧
    g.id = id ∧ g.delivery = r ∧ g.deliveryStatusHistory = [firstRow id r] ∧
    g.orders.map (·.1) = dto.orderIds ∧ ∀ e ∈ g.orders, t.orders.lookup e.1 = some e.2.1

section Read

variable {a : AuthDB}

lemma Stored.history (hs : ForeignKeys s) (h : Stored s dto id r t) :
    t.deliveryHistoryOf id = [firstRow id r] := by
  have hold : s.deliveryHistoryOf id = [] := by
    refine List.filter_eq_nil_iff.mpr fun row hrow => ?_
    rw [decide_eq_true_eq]
    rintro rfl
    exact h.new (hs.logged row hrow)
  have hrows : t.deliveryStatusHistory = s.deliveryStatusHistory ++ [firstRow id r] := by
    rw [h.tables]
  rw [DB.deliveryHistoryOf, hrows, List.filter_append]
  change s.deliveryHistoryOf id ++ _ = _
  rw [hold]
  simp [firstRow]

lemma Stored.mem_orders (hc : Checks s dto) (h : Stored s dto id r t) :
    ∀ j ∈ dto.orderIds, j ∈ t.orders := by
  intro j hj
  obtain ⟨o, ho⟩ := Table.mem_iff_lookup.mp (hc.exist j hj)
  rw [Table.mem_iff_lookup, h.orders j, if_pos hj, ho]
  exact ⟨_, rfl⟩

lemma Stored.placedOrders (hs : ForeignKeys s) (h : Stored s dto id r a.toDB) :
    a.placedOrders id = ((joinRows id 1 dto.orderIds).filterMap (readRow a)).reverse := by
  have hold := List.map_eq_nil_iff.mp (sequences_of_not_joined hs.joined h.new)
  rw [AuthDB.placedOrders, h.joins, if_pos rfl, hold, List.append_nil, ← List.filterMap_reverse]
  rfl

lemma Stored.reads (hs : ForeignKeys s) (hc : Checks s dto) (h : Stored s dto id r t) :
    Reads t dto id r := by
  rintro a rfl ω
  have hdelivery : a.deliveries.lookup id = some r := by
    rw [h.tables]
    exact AList.lookup_insert _
  obtain ⟨hplaces, hids⟩ := readRows_new id (n := 1) (h.mem_orders hc)
  have horders : (Table.anyOrder (ω 0).pick (a.placedOrders id)).insertionSort
      (fun x y => x.1 ≤ y.1) = (joinRows id 1 dto.orderIds).filterMap (readRow a) := by
    rw [h.placedOrders hs]
    exact sort_anyOrder_reverse hplaces
  refine ⟨_, getDelivery_eq hdelivery, rfl, rfl, ?_, ?_, fun e he => ?_⟩
  · rw [h.history hs]
    exact List.perm_singleton.mp (Table.anyOrder_perm _ _)
  · rw [horders, List.map_map]
    exact hids
  · rw [horders, List.mem_map] at he
    obtain ⟨p, hp, rfl⟩ := he
    obtain ⟨row, -, hrow⟩ := List.mem_filterMap.mp hp
    obtain ⟨o, ho, rfl⟩ := Option.map_eq_some_iff.mp hrow
    exact ho

end Read

/-- **Planning and reading a trip**: a request passes its checks if its ids are different, each
names an order and each of these that is on a trip has been received; a request that does not
leaves the tables; one that does, with free ids and a shipper that exists, stores its trip, which
is read with the orders of the request in their order, and changes of what was there only the
shipper of these orders. -/
theorem createDelivery_spec (s : DB) (hs : ForeignKeys s) (dto : CreateDeliveryDto)
    (ω : ℕ → Input) :
    ((∃ orders, ((planChecks dto).exec ω s).1 = .ok orders) ↔ Checks s dto) ∧
    (¬ Checks s dto → ∃ msg, (createDelivery dto).exec ω s = (.error (.badRequest msg), s)) ∧
    (Checks s dto → Commits s dto ω → ∃ t, Stored s dto (ω 3).fresh (newTrip dto ω) t ∧
      Reads t dto (ω 3).fresh (newTrip dto ω) ∧ (createDelivery dto).exec ω s =
        (if dto.staffId.toOption.isSome ∧ (ω 4).ok = false then .error .rejected
          else .ok ((ω 3).fresh, newTrip dto ω), t)) := by
  refine ⟨⟨fun ⟨orders, hok⟩ => ?_, fun h => ⟨s.ordersIn dto.orderIds, ?_⟩⟩, fun h => ?_,
    fun h hω => ?_⟩
  · by_contra h
    obtain ⟨msg, hrefuse⟩ := planChecks_refuses (f := Pure.pure) (ω := ω) h
    rw [bind_pure] at hrefuse
    rw [hrefuse] at hok
    cases hok
  · have hpass := planChecks_of_checks (f := Pure.pure) (ω := ω) h
    rw [bind_pure] at hpass
    rw [hpass, exec_pure]
  · rw [createDelivery_eq]
    exact planChecks_refuses h
  · obtain ⟨t, hstored, hexec⟩ := createDelivery_stores hs h hω
    exact ⟨t, hstored, hstored.reads hs h, hexec⟩

/-- A trip with the later order first. -/
theorem createDelivery_spec_both : ∃ t,
    ((createDelivery ⟨60, .val 3, [11, 10]⟩).exec (Sample.inputs 20) twoOrders).2 = t ∧
      Reads t ⟨60, .val 3, [11, 10]⟩ 20 ⟨"1000", some 3, 60, .pending, 2, "DEL1"⟩ := by
  have hkeys : ForeignKeys twoOrders :=
    ⟨fun d o hjoin => absurd hjoin (not_mem_of_no_joins rfl _), fun h hh => by cases hh⟩
  have hchecks : Checks twoOrders ⟨60, .val 3, [11, 10]⟩ := checks_iff.mpr (by decide +kernel)
  obtain ⟨t, -, hreads, hexec⟩ := (createDelivery_spec twoOrders hkeys ⟨60, .val 3, [11, 10]⟩
    (Sample.inputs 20)).2.2 hchecks ⟨by decide +kernel, by decide +kernel, by decide +kernel⟩
  exact ⟨t, congrArg Prod.snd hexec, hreads⟩

end TsaBackend.TripPlans
