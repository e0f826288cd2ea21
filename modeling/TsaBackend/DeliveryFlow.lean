import TsaBackend.OrderEffects

/-!
What a status change of a trip writes into the logs of its orders, and when each of these
rows is a transition of the table.

Canceling a trip only touches orders that are on the way. Accepting one puts every order of
it on the way, whatever its status: the rows are transitions just when all of them have been
received.
-/

namespace TsaBackend.DeliveryFlow

open Call

/-- The status column of an order. -/
def statusOf (s : DB) (id : Id) : Option OrderStatus :=
  (s.orders.lookup id).bind (·.latestStatus)

/-- The step only adds order rows, each a transition from the status before the step. -/
def WritesValid (s t : DB) : Prop :=
  s.orderStatusHistory <+: t.orderStatusHistory ∧
    ∀ h ∈ t.orderStatusHistory.drop s.orderStatusHistory.length,
      isValidTransition (statusOf s h.orderId) h.status = true

instance (s t : DB) : Decidable (WritesValid s t) := by unfold WritesValid; infer_instance

variable {s t : DB} {id : Id} {user : GetUserType}

lemma writesValid_of_eq (h : t.orderStatusHistory = s.orderStatusHistory) : WritesValid s t := by
  simp [WritesValid, h]

/-- The effect of `createOrderStatusHistory` on logs and columns. -/
lemma createOrderStatusHistory_step {i : Input} {status : OrderStatus} {reason : Option String}
    {canceledImage finishedImage receivedImage : Arg String}
    (h : (do
      let s ← s.createOrderStatusRow (statusRow id status reason canceledImage i)
      s.updateOrder id (setStatus status finishedImage receivedImage)) = .ok t) :
    t.orderStatusHistory = s.orderStatusHistory ++ [statusRow id status reason canceledImage i] ∧
      ∀ j, j ≠ id → statusOf t j = statusOf s j := by
  obtain ⟨s', hrow, hu⟩ := ok_of_bind h
  obtain ⟨-, -, rfl⟩ := DB.createOrderStatusRow_ok hrow
  obtain ⟨_, _, _, rfl⟩ := DB.updateOrder_ok hu
  exact ⟨rfl, fun j hj => by simp [statusOf, Table.lookup_modify_ne, hj]⟩

/-- Between its steps the branch of an order meets the order's status unchanged. -/
def Keeps (id : Id) (s t : DB) : Prop := statusOf t id = statusOf s id

/-- The branch of an order writes transitions, and no other order's status. -/
def Branch (id : Id) (s t : DB) : Prop :=
  WritesValid s t ∧ ∀ j, j ≠ id → statusOf t j = statusOf s j

lemma branch_refl (id : Id) (s : DB) : Branch id s s := ⟨writesValid_of_eq rfl, fun _ _ => rfl⟩

lemma keeps_star (h : Relation.ReflTransGen (Keeps id) s t) : statusOf t id = statusOf s id := by
  induction h with
  | refl => rfl
  | tail _ hstep ih => exact hstep.trans ih

lemma createOrderStatusHistory_guar (src : OrderStatus) {status : OrderStatus}
    {reason : Option String} {canceledImage finishedImage receivedImage : Arg String}
    (hs : statusOf s id = some src) (hvalid : isValidTransition (some src) status = true) :
    (createOrderStatusHistory id status reason canceledImage finishedImage receivedImage).Guar
      (Keeps id) (Branch id) s := by
  refine guar_execute (fun t ht i u hu => ?_) fun t => branch_refl id t
  have hst : statusOf t id = some src := (keeps_star ht).trans hs
  obtain ⟨hrows, hother⟩ := createOrderStatusHistory_step hu
  refine ⟨⟨by simp [hrows], fun h hh => ?_⟩, hother⟩
  rw [hrows, List.drop_left, List.mem_singleton] at hh
  subst hh
  simpa [statusRow, hst] using hvalid

lemma sendFullNotification_guar (userId : Option Id) :
    (sendFullNotification userId).Guar (Keeps id) (Branch id) s := by
  cases userId with
  | none => trivial
  | some u =>
    refine Guar.atomic (fun t _ i a u hu => ?_) fun t => branch_refl id t
    split at hu
    · cases hu
      exact branch_refl id t
    · cases hu

/-- Branches that move different orders from one status to another take only such steps,
in whichever order the branches come. -/
lemma promiseAll_wp {orders : List (Id × Order)} {branch : Id × Order → Async Unit}
    (hnd : (orders.map Prod.fst).Nodup)
    (hb : ∀ e ∈ orders, (branch e).Guar (Keeps e.1) (Branch e.1) s) :
    (promiseAll (orders.map branch)).wp (fun _ => True) WritesValid (fun _ _ => True)
      (fun _ _ => True) s := by
  have hall : (promiseAll (orders.map branch)).Guar (fun _ _ => False)
      (fun a b => ∃ e ∈ orders, Branch e.1 a b) s := by
    refine Guar.all (fun e => Keeps e.1) (fun e => Branch e.1) (List.Nodup.of_map _ hnd) ?_ ?_ hb
    · intro k hk j hj hjk a b hab
      refine hab.2 k.1 fun hkj => hjk ?_
      exact (List.inj_on_of_nodup_map hnd hk hj hkj).symm
    · exact fun _ _ _ _ h => h.elim
  refine (hall.mono (fun _ _ => id) ?_).wp
  rintro a b ⟨e, _, hab⟩
  exact hab.1

/-! ### Requests and runs -/

lemma ordersOf_nodup (s : DB) (id : Id) : ((s.ordersOf id).map Prod.fst).Nodup := by
  have hkeys : s.ordersOnDeliveries.entries.Pairwise fun e e' => e.1 ≠ e'.1 :=
    List.pairwise_map.mp s.ordersOnDeliveries.nodupKeys
  unfold DB.ordersOf
  rw [List.Nodup, List.pairwise_map, List.pairwise_filterMap]
  refine (hkeys.filter fun e => decide (e.1.1 = id)).imp_of_mem ?_
  intro e e' he he' hne b hb b' hb' heq
  obtain ⟨o, -, rfl⟩ := Option.map_eq_some_iff.mp hb
  obtain ⟨o', -, rfl⟩ := Option.map_eq_some_iff.mp hb'
  have h₁ : e.1.1 = id := by simpa using (List.mem_filter.mp he).2
  have h₂ : e'.1.1 = id := by simpa using (List.mem_filter.mp he').2
  exact hne (Prod.ext (h₁.trans h₂.symm) heq)

lemma statusOf_of_mem_ordersOf {e : Id × Order} (he : e ∈ s.ordersOf id) :
    e.1 ∈ s.orders ∧ statusOf s e.1 = e.2.latestStatus := by
  obtain ⟨k, _, hk⟩ := List.mem_filterMap.mp he
  obtain ⟨o, ho, rfl⟩ := Option.map_eq_some_iff.mp hk
  exact ⟨Table.mem_iff_lookup.mpr ⟨o, ho⟩, by simp [statusOf, ho]⟩

/-- Every input, steps that write transitions only, any end. -/
abbrev Valid {α : Type} (c : Async α) (s : DB) : Prop :=
  c.wp (fun _ => True) WritesValid (fun _ _ => True) (fun _ _ => True) s

lemma sendFullNotification_valid (userId : Option Id) (s : DB) :
    Valid (sendFullNotification userId) s := by
  cases userId with
  | none => trivial
  | some u =>
    refine wp_service.mpr fun i _ => ⟨writesValid_of_eq rfl, ?_⟩
    split <;> trivial

/-- The rows of the trip itself are not in the logs of its orders. -/
lemma writeDeliveryStatus_valid (id : Id) (status : DeliveryStatus)
    (reason canceledImage : Arg String) (s : DB) :
    Valid (writeDeliveryStatus id status reason canceledImage) s := by
  refine wp_executeReturning (fun i t d _ ht _ => ⟨writesValid_of_eq ?_, trivial⟩)
    ⟨writesValid_of_eq rfl, fun _ => trivial⟩
  obtain ⟨s', hu, hrow⟩ := ok_of_bind ht
  obtain ⟨_, _, rfl⟩ := DB.updateDelivery_ok hu
  obtain ⟨-, -, rfl⟩ := DB.createDeliveryStatusRow_ok hrow
  rfl

lemma finish_valid (userId : Option Id) (id : Id) (status : DeliveryStatus)
    (reason canceledImage : Arg String) (s : DB) : Valid (do
      sendFullNotification userId
      writeDeliveryStatus id status reason canceledImage) s := by
  rw [Valid, wp_bind]
  exact wp_mono (sendFullNotification_valid userId s)
    (fun _ t _ => writeDeliveryStatus_valid id status reason canceledImage t) fun _ _ h => h

lemma cancelDelivery_valid (dto : UpdateDeliveryStatusDto) (delivery : Delivery) :
    Valid (cancelDelivery id dto delivery (s.ordersOf id)) s := by
  unfold cancelDelivery
  rw [Valid, wp_throwIf_bind]
  refine ⟨fun _ => trivial, fun _ => ?_⟩
  rw [wp_bind]
  refine wp_mono (promiseAll_wp ?_ fun e he => ?_)
    (fun _ t _ => finish_valid _ _ _ _ _ t) fun _ _ h => h
  · exact ((ordersOf_nodup s id).sublist (List.filter_sublist.map _))
  · -- only orders on the way are canceled
    obtain ⟨hmem, hst⟩ := List.mem_filter.mp he
    have hst : e.2.latestStatus = some .inTransport := by simpa using hst
    refine Guar.bind (createOrderStatusHistory_guar .inTransport ?_ (by decide))
      fun _ _ => sendFullNotification_guar _
    rw [(statusOf_of_mem_ordersOf hmem).2, hst]

/-- **When a status change of a trip respects the table**: it does not accept, it is
refused before its first write, or all orders of the trip have been received. -/
def Respects (s : DB) (id : Id) (dto : UpdateDeliveryStatusDto) (user : GetUserType) : Prop :=
  dto.status ≠ .accepted ∨ s.isGoingDelivery user = true ∨ id ∉ s.deliveries ∨
    dto.reason.truthy = true ∨ dto.canceledImage.truthy = true ∨
    ∀ e ∈ s.ordersOf id, e.2.latestStatus = some .receivedExternal

lemma advanceDelivery_valid {dto : UpdateDeliveryStatusDto} {delivery : Delivery}
    (h : dto.status = .accepted → dto.reason.truthy = false → dto.canceledImage.truthy = false →
      ∀ e ∈ s.ordersOf id, e.2.latestStatus = some .receivedExternal) :
    Valid (advanceDelivery id dto delivery (s.ordersOf id)) s := by
  unfold advanceDelivery
  rw [Valid, wp_throwIf_bind]
  refine ⟨fun _ => trivial, fun hclean => ?_⟩
  have hrest : ∀ t, Valid (do
      throwIf ((s.ordersOf id).all (fun e => e.2.latestStatus = some .canceled) ∧
          (¬ dto.reason.truthy ∨ ¬ dto.canceledImage.truthy))
        (.badRequest "Cần phải có lí do hoặc hình ảnh minh chứng khi huỷ chuyến đi")
      sendFullNotification delivery.staffId
      writeDeliveryStatus id (if (s.ordersOf id).all (fun e => e.2.latestStatus = some .canceled)
        then .canceled else dto.status) dto.reason dto.canceledImage) t := by
    intro t
    rw [Valid, wp_throwIf_bind]
    exact ⟨fun _ => trivial, fun _ => finish_valid _ _ _ _ _ t⟩
  rw [wp_when_bind]
  refine ⟨fun hst => ?_, fun _ => hrest s⟩
  refine wp_mono (promiseAll_wp (ordersOf_nodup s id) fun e he => ?_) (fun _ t _ => hrest t)
    fun _ _ h => h
  have hno : dto.reason.truthy = false ∧ dto.canceledImage.truthy = false := by
    simpa [hst] using hclean
  refine createOrderStatusHistory_guar .receivedExternal ?_ (by decide)
  rw [(statusOf_of_mem_ordersOf he).2, h hst hno.1 hno.2 e he]

/-- The branch of an order that has not been received writes no transition. -/
lemma received_of_valid {e : Id × Order} (he : e ∈ s.ordersOf id)
    (h : Valid (promiseAll ((s.ordersOf id).map transportOrder)) s) :
    e.2.latestStatus = some .receivedExternal := by
  obtain ⟨k, hk⟩ := List.mem_iff_getElem?.mp he
  obtain ⟨hmem, hst⟩ := statusOf_of_mem_ordersOf he
  -- let this branch be the first to run
  let i : Input := { (default : Input) with branch := k }
  let t := OrderEffects.logged i e.1 .inTransport none .undefined .undefined .undefined s
  have hbranch : (transportOrder e).Starts i s t :=
    starts_execute (OrderEffects.logged_eq_undefined hmem)
  have hstart : (promiseAll ((s.ordersOf id).map transportOrder)).Starts i s t := by
    refine Starts.all (k := k) ?_ (fun j => ?_) hbranch
    · rw [List.getElem?_map, hk]
      rfl
    · simp [i, eq_comm]
  have hvalid := (hstart.wp trivial h).2 (statusRow e.1 .inTransport none .undefined i)
    (by simp [t, OrderEffects.logged])
  simp only [statusRow, hst] at hvalid
  rcases hl : e.2.latestStatus with _ | st
  · simp [hl, isValidTransition] at hvalid
  · cases st <;> simp_all [isValidTransition, validTransitions]

/-- **A status change of a trip, whatever it meets**, writes transitions only just when it
respects the table. -/
theorem updateDeliveryStatus_valid_iff {dto : UpdateDeliveryStatusDto} :
    Valid (updateDeliveryStatus id dto user) s ↔ Respects s id dto user := by
  unfold updateDeliveryStatus
  rw [Valid, wp_bind, wp_read]
  constructor
  · intro h
    by_contra hno
    simp only [Respects, not_or, not_not, Bool.not_eq_true] at hno
    obtain ⟨hst, hgoing, hid, hreason, himage, hall⟩ := hno
    obtain ⟨d, hd⟩ := Table.mem_iff_lookup.mp hid
    have h₁ := (h default trivial).2
    rw [wp_throwIf_bind] at h₁
    have h₂ := h₁.2 (by simp [hgoing])
    rw [wp_bind, wp_read] at h₂
    have h₃ := (h₂ default trivial).2
    simp only [hd, Option.map_some, hst, reduceCtorEq, if_false] at h₃
    rw [advanceDelivery, wp_throwIf_bind] at h₃
    have h₄ := h₃.2 (by simp [hreason, himage])
    rw [wp_when_bind] at h₄
    refine hall fun e he => received_of_valid he ?_
    exact wp_mono (h₄.1 hst) (fun _ _ _ => trivial) fun _ _ h => h
  · rintro h i -
    refine ⟨writesValid_of_eq rfl, ?_⟩
    rw [wp_throwIf_bind]
    refine ⟨fun _ => trivial, fun hgoing => ?_⟩
    rw [wp_bind, wp_read]
    rintro i -
    refine ⟨writesValid_of_eq rfl, ?_⟩
    rcases hd : s.deliveries.lookup id with _ | d
    · trivial
    simp only [Option.map_some]
    split
    · exact cancelDelivery_valid dto d
    · refine advanceDelivery_valid fun hst hreason himage => ?_
      have hid : id ∈ s.deliveries := Table.mem_iff_lookup.mpr ⟨d, hd⟩
      simp only [hst, and_true, Bool.not_eq_true] at hgoing
      simpa [Respects, hst, hgoing, hid, hreason, himage] using h

/-- **The trips of any run respect the table just when each status change does**: over any
requests before it, every row that `updateDeliveryStatus` writes into the log of an order,
in any order of its branches, is a transition from the status just before the row. -/
theorem deliveries_respect_table (cfg : Config) (s : DB) (ls : List (Request × (ℕ → Input))) :
    Machine.Along (serve cfg) (fun s l => ∀ id dto user,
        l.1 = .updateDeliveryStatus id dto user →
        ∀ ω, ∀ p ∈ (updateDeliveryStatus id dto user).trace ω s, WritesValid p.1 p.2) s ls ↔
      Machine.Along (serve cfg) (fun s l => ∀ id dto user,
        l.1 = .updateDeliveryStatus id dto user → Respects s id dto user) s ls := by
  refine Machine.along_congr (fun _ => True) (fun _ _ _ _ => trivial) (fun s l _ _ => ?_) trivial
  refine forall_congr' fun id => forall_congr' fun dto => forall_congr' fun user =>
    imp_congr_right fun _ => ?_
  rw [← updateDeliveryStatus_valid_iff, Valid, wp_iff_outcome _ ⟨default, trivial⟩]
  refine ⟨fun h ω _ => ⟨h ω, ?_⟩, fun h ω => (h ω fun _ => trivial).1⟩
  split <;> trivial

/-- A student orders, the order is planned into a trip, and staff accepts the trip: the
order is on the way without having been accepted or received. -/
theorem accepted_trip_moves_pending_order :
    let s := Machine.run (serve Sample.config) Sample.db
      [(.createOrder Sample.body Sample.student, Sample.inputs 10),
       (.createDelivery ⟨60, .val 3, [10]⟩, Sample.inputs 20)]
    statusOf s 10 = some .pending ∧
      ∃ p ∈ (updateDeliveryStatus 20 ⟨.accepted, .undefined, .undefined⟩ Sample.staff).trace
        (Sample.inputs 0) s, ¬ WritesValid p.1 p.2 := by
  decide

end TsaBackend.DeliveryFlow
