import TsaBackend.DeliveryFlow
import TsaBackend.RequestSteps

/-!
What a status change of a trip writes into its orders and into the trip.

The orders are written by branches that are waited for together, in any order of their steps: each
relies on the others to leave its order alone.
-/

namespace TsaBackend.TripStatus

open Call OrderEffects

variable {E : Input → Prop} {s t u : DB} {id k : Id} {dto : UpdateDeliveryStatusDto}
  {user : GetUserType} {d : Delivery}

/-- The order and its history are as before. -/
def Same (k : Id) (s t : DB) : Prop :=
  t.orders.lookup k = s.orders.lookup k ∧ t.historyOf k = s.historyOf k

/-- The trips with their join rows and their history are as before. -/
structure TripsKept (s t : DB) : Prop where
  deliveries : t.deliveries = s.deliveries
  joins : t.ordersOnDeliveries = s.ordersOnDeliveries
  history : t.deliveryStatusHistory = s.deliveryStatusHistory

lemma tripsKept_refl (s : DB) : TripsKept s s := ⟨rfl, rfl, rfl⟩

lemma TripsKept.trans (h : TripsKept s t) (h' : TripsKept t u) : TripsKept s u :=
  ⟨h'.deliveries.trans h.deliveries, h'.joins.trans h.joins, h'.history.trans h.history⟩

/-- Nothing but this order and its history has changed. -/
structure Only (k : Id) (s t : DB) : Prop where
  other : ∀ j, j ≠ k → Same j s t
  trips : TripsKept s t

/-- What is written into an order. -/
structure Mark where
  status : OrderStatus
  reason : Option String
  canceledImage : Arg String

/-- The order has the status of the mark and is otherwise as before, and its history has one row
more, with the time of a step of the call. -/
def Marked (E : Input → Prop) (m : Mark) (k : Id) (s t : DB) : Prop :=
  (∃ o, s.orders.lookup k = some o ∧
    t.orders.lookup k = some { o with latestStatus := some m.status }) ∧
  ∃ i, E i ∧ t.historyOf k = s.historyOf k ++ [{
    orderId := k
    status := m.status
    reason := m.reason
    time := toString i.now
    canceledImage := m.canceledImage.toOption }]

variable {m : Mark}

lemma same_refl (k : Id) (s : DB) : Same k s s := ⟨rfl, rfl⟩

lemma Same.trans (h : Same k s t) (h' : Same k t u) : Same k s u :=
  ⟨h'.1.trans h.1, h'.2.trans h.2⟩

lemma same_star (h : Relation.ReflTransGen (Same k) s t) : Same k s t := by
  induction h with
  | refl => exact same_refl k s
  | tail _ hstep ih => exact ih.trans hstep

lemma only_refl (k : Id) (s : DB) : Only k s s := ⟨fun j _ => same_refl j s, tripsKept_refl s⟩

lemma Marked.keep (h : Marked E m k s t) (h' : Same k t u) : Marked E m k s u := by
  obtain ⟨⟨o, ho, hrow⟩, i, hi, hrows⟩ := h
  exact ⟨⟨o, ho, h'.1.trans hrow⟩, i, hi, h'.2.trans hrows⟩

lemma Marked.history_ne (h : Marked E m k s t) : t.historyOf k ≠ s.historyOf k := by
  obtain ⟨-, i, -, hrows⟩ := h
  rw [hrows]
  simp

lemma marked_logged {i : Input} (hi : E i) (hk : k ∈ s.orders) (h : Same k s t) :
    Marked E m k s (logged i k m.status m.reason m.canceledImage .undefined .undefined t) := by
  obtain ⟨o, ho⟩ := Table.mem_iff_lookup.mp hk
  refine ⟨⟨o, ho, ?_⟩, i, hi, ?_⟩
  · rw [lookup_logged, if_pos rfl, h.1, ho]
    rfl
  · rw [historyOf_logged, if_pos rfl, h.2]
    rfl

lemma only_logged {i : Input} :
    Only k t (logged i k m.status m.reason m.canceledImage .undefined .undefined t) := by
  refine ⟨fun j hj => ⟨?_, ?_⟩, ⟨rfl, rfl, rfl⟩⟩
  · rw [lookup_logged, if_neg hj]
  · rw [historyOf_logged, if_neg hj, List.append_nil]

lemma log_ensures (hk : k ∈ s.orders) (hfits : Fits 255 none m.canceledImage.toOption) :
    (createOrderStatusHistory k m.status m.reason m.canceledImage .undefined .undefined).Ensures E
      (Same k) (Only k) (fun _ => Marked E m k s) (fun _ => False) s := by
  refine Ensures.atomic (fun t ht i hi a u hu => ?_) fun t ht i _ e he => ?_
  · obtain ⟨-, rfl⟩ := logged_of_ok (of_map_ok hu)
    exact ⟨only_logged, fun v hv => (marked_logged hi hk (same_star ht)).keep (same_star hv)⟩
  · obtain ⟨o, ho⟩ := Table.mem_iff_lookup.mp hk
    have hfit : ImagesFit o m.canceledImage .undefined := ⟨hfits, .inl rfl⟩
    rw [← (same_star ht).1] at ho
    dsimp only at he
    rw [logged_eq ho hfit] at he
    cases he

/-- A notification can fail, and leaves what is there. -/
lemma tell_ensures {P : DB → Prop} {userId : Option Id}
    (hP : ∀ t, Relation.ReflTransGen (Same k) s t → P t) :
    (sendFullNotification userId).Ensures E (Same k) (Only k)
      (fun _ t => P t ∧ userId.isSome)
      (fun t => P t ∧ (userId = none ∨ ∃ i, E i ∧ i.ok = false)) s := by
  rcases userId with _ | v
  · exact fun t ht => ⟨hP t ht, .inl rfl⟩
  · refine Ensures.atomic (fun t ht i _ a u hu => ?_) fun t ht i hi e he => ?_
    · split at hu
      · cases hu
        exact ⟨only_refl k t, fun v hv => ⟨hP v (ht.trans hv), rfl⟩⟩
      · cases hu
    · split at he
      · cases he
      · next hok =>
        exact ⟨only_refl k t, fun v hv => ⟨hP v (ht.trans hv), .inr ⟨i, hi, by simpa using hok⟩⟩⟩

/-- The mark of an order that is canceled with its trip. -/
def cancelMark (dto : UpdateDeliveryStatusDto) : Mark :=
  ⟨.canceled, mapReason (.val .fromStaff) dto.reason, dto.canceledImage⟩

/-- The mark of an order that is put on the way. -/
def transportMark : Mark := ⟨.inTransport, none, .undefined⟩

lemma cancelOrder_ensures {e : Id × Order} (he : e.1 ∈ s.orders)
    (hfits : Fits 255 none dto.canceledImage.toOption) :
    (cancelOrder dto e).Ensures E (Same e.1) (Only e.1)
      (fun _ t => Marked E (cancelMark dto) e.1 s t ∧ e.2.studentId.isSome)
      (fun t => Marked E (cancelMark dto) e.1 s t ∧
        (e.2.studentId = none ∨ ∃ i, E i ∧ i.ok = false)) s :=
  (log_ensures he hfits (m := cancelMark dto)).bind (fun _ h => h.elim)
    fun _ _ hmarked => tell_ensures hmarked

/-! ### All branches -/

/-- These orders have been marked, and nothing else of orders and trips has changed. -/
structure Sweeps (E : Input → Prop) (m : Mark) (orders : List (Id × Order)) (s t : DB) : Prop where
  marked : ∀ e ∈ orders, Marked E m e.1 s t
  other : ∀ j, (∀ e ∈ orders, e.1 ≠ j) → Same j s t
  trips : TripsKept s t

lemma only_star {orders : List (Id × Order)}
    (h : Relation.ReflTransGen (fun a b => ∃ e ∈ orders, Only e.1 a b) s t) :
    (∀ j, (∀ e ∈ orders, e.1 ≠ j) → Same j s t) ∧ TripsKept s t := by
  induction h with
  | refl => exact ⟨fun j _ => same_refl j s, tripsKept_refl s⟩
  | tail _ hstep ih =>
    obtain ⟨e, he, honly⟩ := hstep
    exact ⟨fun j hj => (ih.1 j hj).trans (honly.other j (hj e he).symm), ih.2.trans honly.trips⟩

/-- **Branches that each mark their order** mark all of them, whether or not one of them throws. -/
lemma promiseAll_sweeps {orders : List (Id × Order)} {branch : Id × Order → Async Unit}
    {P N : Id × Order → Prop} (hnd : (orders.map Prod.fst).Nodup)
    (hb : ∀ e ∈ orders, (branch e).Ensures E (Same e.1) (Only e.1)
      (fun _ t => Marked E m e.1 s t ∧ P e) (fun t => Marked E m e.1 s t ∧ N e) s) :
    (promiseAll (orders.map branch)).wp E Any
      (fun _ t => Sweeps E m orders s t ∧ ∀ e ∈ orders, P e)
      (fun _ t => Sweeps E m orders s t ∧ ∃ e ∈ orders, N e) s := by
  have hall : (promiseAll (orders.map branch)).Ensures E (fun _ _ => False)
      (fun a b => ∃ e ∈ orders, Only e.1 a b) (fun _ t => ∀ e ∈ orders, Marked E m e.1 s t ∧ P e)
      (fun t => (∀ e ∈ orders, Marked E m e.1 s t ∧ P e ∨ Marked E m e.1 s t ∧ N e) ∧
        ∃ e ∈ orders, Marked E m e.1 s t ∧ N e) s := by
    refine Ensures.all (fun e => Same e.1) (fun e => Only e.1) (List.Nodup.of_map _ hnd) ?_ ?_ hb
    · intro k hk j hj hjk a b hab
      refine hab.other k.1 fun hkj => hjk ?_
      exact (List.inj_on_of_nodup_map hnd hk hj hkj).symm
    · exact fun _ _ _ _ h => h.elim
  refine wp_mono hall.reach ?_ ?_
  · rintro _ t ⟨hmarked, hstar⟩
    obtain ⟨hother, htrips⟩ := only_star hstar
    exact ⟨⟨fun e he => (hmarked e he).1, hother, htrips⟩, fun e he => (hmarked e he).2⟩
  · rintro _ t ⟨⟨hmarked, e, he, hthrown⟩, hstar⟩
    obtain ⟨hother, htrips⟩ := only_star hstar
    refine ⟨⟨fun e he => ?_, hother, htrips⟩, e, he, hthrown.2⟩
    rcases hmarked e he with h | h <;> exact h.1

lemma cancelOrders_wp {orders : List (Id × Order)} (hnd : (orders.map Prod.fst).Nodup)
    (hmem : ∀ e ∈ orders, e.1 ∈ s.orders) (hfits : Fits 255 none dto.canceledImage.toOption) :
    (promiseAll (orders.map (cancelOrder dto))).wp E Any
      (fun _ t => Sweeps E (cancelMark dto) orders s t ∧ ∀ e ∈ orders, e.2.studentId.isSome)
      (fun _ t => Sweeps E (cancelMark dto) orders s t ∧
        ∃ e ∈ orders, e.2.studentId = none ∨ ∃ i, E i ∧ i.ok = false) s :=
  promiseAll_sweeps hnd fun _ he => cancelOrder_ensures (hmem _ he) hfits

/-- A branch whose image is too long throws before its first write. -/
lemma cancelOrder_long {R : DB → DB → Prop} {e : Id × Order}
    (hlong : ¬ Fits 255 none dto.canceledImage.toOption) :
    (cancelOrder dto e).Ensures E R (fun a b => b = a) (fun _ _ => False) (fun _ => True) s := by
  refine Ensures.bind (Q := fun _ _ => False) (Ensures.atomic (fun t _ i _ a u hu => ?_)
    fun t _ _ _ _ _ => ⟨rfl, fun _ _ => trivial⟩) (fun _ _ => trivial) fun _ t h => (h t .refl).elim
  obtain ⟨_, hrow, -⟩ := ok_of_bind (of_map_ok hu)
  exact absurd (DB.createOrderStatusRow_ok hrow).1 hlong

lemma cancelOrders_long_wp {orders : List (Id × Order)} (hnd : orders.Nodup)
    (hlong : ¬ Fits 255 none dto.canceledImage.toOption) :
    (promiseAll (orders.map (cancelOrder dto))).wp E Any (fun _ t => t = s) (fun _ t => t = s) s := by
  have hall : (promiseAll (orders.map (cancelOrder dto))).Ensures E (fun _ _ => False)
      (fun a b => ∃ e ∈ orders, b = a) (fun _ _ => ∀ e ∈ orders, False)
      (fun _ => (∀ e ∈ orders, False ∨ True) ∧ ∃ e ∈ orders, True) s :=
    Ensures.all (fun _ _ _ => True) (fun _ a b => b = a) hnd (fun _ _ _ _ _ _ _ _ => trivial)
      (fun _ _ _ _ h => h.elim) fun _ _ => cancelOrder_long hlong
  have hstar : ∀ {t}, Relation.ReflTransGen (fun a b => ∃ e ∈ orders, b = a) s t → t = s := by
    intro t ht
    induction ht with
    | refl => rfl
    | tail _ hstep ih =>
      obtain ⟨_, _, rfl⟩ := hstep
      exact ih
  exact wp_mono hall.reach (fun _ _ h => hstar h.2) fun _ _ h => hstar h.2

lemma transportOrders_wp {orders : List (Id × Order)} (hnd : (orders.map Prod.fst).Nodup)
    (hmem : ∀ e ∈ orders, e.1 ∈ s.orders) :
    (promiseAll (orders.map transportOrder)).wp E Any (fun _ t => Sweeps E transportMark orders s t)
      (fun _ _ => False) s := by
  refine wp_mono (promiseAll_sweeps (P := fun _ => True) (N := fun _ => False) hnd fun e he =>
    (log_ensures (hmem e he) (.inl rfl) (m := transportMark)).mono (fun _ _ h => h) (fun _ _ h => h)
      (fun _ _ h => ⟨h, trivial⟩) fun _ h => h.elim) (fun _ _ h => h.1) ?_
  rintro _ _ ⟨-, e, -, hfalse⟩
  exact hfalse

/-! ### The request -/

/-- The guards before the first write, and an image that fits its columns. -/
structure Passes (s : DB) (id : Id) (dto : UpdateDeliveryStatusDto) (user : GetUserType)
    (d : Delivery) : Prop where
  free : s.isGoingDelivery user = true → dto.status ≠ .accepted
  lookup : s.deliveries.lookup id = some d
  reason : dto.status = .canceled → dto.reason.truthy = true ∧ dto.canceledImage.truthy = true
  plain : dto.status = .pending ∨ dto.status = .accepted →
    dto.reason.truthy = false ∧ dto.canceledImage.truthy = false
  fits : Fits 255 none dto.canceledImage.toOption

/-- The orders that the request writes. -/
def writtenOrders (s : DB) (id : Id) (dto : UpdateDeliveryStatusDto) : List (Id × Order) :=
  match dto.status with
  | .canceled => (s.ordersOf id).filter fun e => e.2.latestStatus = some .inTransport
  | .accepted => s.ordersOf id
  | _ => []

def orderMark (dto : UpdateDeliveryStatusDto) : Mark :=
  if dto.status = .canceled then cancelMark dto else transportMark

def allCanceled (s : DB) (id : Id) : Bool :=
  (s.ordersOf id).all fun e => e.2.latestStatus = some .canceled

/-- What refuses the request after the orders have been written: a student or a shipper who does not
exist cannot be told, and a trip whose orders are all canceled asks for a reason. -/
def Refused (s : DB) (id : Id) (dto : UpdateDeliveryStatusDto) (d : Delivery) : Prop :=
  (dto.status = .canceled ∧ ∃ e ∈ writtenOrders s id dto, e.2.studentId = none) ∨
    (dto.status ≠ .canceled ∧ allCanceled s id = true ∧
      (dto.reason.truthy = false ∨ dto.canceledImage.truthy = false)) ∨
    d.staffId = none

/-- The status a trip gets. -/
def finalStatus (s : DB) (id : Id) (dto : UpdateDeliveryStatusDto) : DeliveryStatus :=
  if allCanceled s id then .canceled else dto.status

/-- The history row of the trip. -/
def tripRow (i : Input) (id : Id) (status : DeliveryStatus) (dto : UpdateDeliveryStatusDto) :
    DeliveryStatusHistory where
  deliveryId := id
  status
  reason := dto.reason.toOption
  time := toString i.now
  canceledImage := dto.canceledImage.toOption

/-- The trip has the status, and its history one row more. -/
def moved (i : Input) (id : Id) (status : DeliveryStatus) (dto : UpdateDeliveryStatusDto) (s : DB) :
    DB :=
  { s with
    deliveries := s.deliveries.modify id fun d => { d with latestStatus := status }
    deliveryStatusHistory := s.deliveryStatusHistory ++ [tripRow i id status dto] }

lemma writeDeliveryStatus_wp {status : DeliveryStatus} {X : Exn → DB → Prop}
    (hid : id ∈ s.deliveries) (hfits : Fits 255 none dto.canceledImage.toOption) :
    (writeDeliveryStatus id status dto.reason dto.canceledImage).wp E Any
      (fun _ t => ∃ i, E i ∧ t = moved i id status dto s) X s := by
  obtain ⟨d, hd⟩ := Table.mem_iff_lookup.mp hid
  refine wp_executeReturning_of_ok fun i hi => ?_
  have hup : s.updateDelivery id (fun d => { d with latestStatus := status }) =
      .ok { s with deliveries := s.deliveries.modify id fun d => { d with
        latestStatus := status } } := by
    rw [DB.updateDelivery, hd]
    exact if_pos (.inl rfl)
  refine ⟨moved i id status dto s, { d with latestStatus := status }, ?_, ?_, trivial, i, hi, rfl⟩
  · rw [hup]
    refine (if_neg (not_not.mpr hfits)).trans (if_pos ?_)
    simpa using hid
  · simp [moved, hd]

lemma writeDeliveryStatus_long_wp {status : DeliveryStatus}
    (hlong : ¬ Fits 255 none dto.canceledImage.toOption) :
    (writeDeliveryStatus id status dto.reason dto.canceledImage).wp E Any (fun _ _ => False)
      (fun _ t => t = s) s := by
  refine wp_executeReturning (fun i t a _ h _ => ?_) ⟨trivial, fun _ => rfl⟩
  obtain ⟨_, -, hrow⟩ := ok_of_bind h
  exact absurd (DB.createDeliveryStatusRow_ok hrow).1 hlong

/-- The notification of the shipper, and the last write. -/
lemma finish_wp {status : DeliveryStatus} {userId : Option Id} {Q : DB → Prop}
    {X : Exn → DB → Prop} (hid : id ∈ s.deliveries)
    (hfits : Fits 255 none dto.canceledImage.toOption)
    (hret : userId.isSome → (∃ i, E i ∧ i.ok = true) → ∀ i, E i → Q (moved i id status dto s))
    (hthrow : (userId = none ∨ ∃ i, E i ∧ i.ok = false) → ∀ e, X e s) :
    (do
      sendFullNotification userId
      writeDeliveryStatus id status dto.reason dto.canceledImage).wp E Any (fun _ t => Q t) X s := by
  rw [wp_bind]
  rcases userId with _ | v
  · exact hthrow (.inl rfl) _
  refine wp_service.mpr fun i hi => ⟨trivial, ?_⟩
  split
  · next hok =>
    refine wp_mono (writeDeliveryStatus_wp hid hfits) (fun _ t ht => ?_) fun _ _ h => h
    obtain ⟨j, hj, rfl⟩ := ht
    exact hret rfl ⟨i, hi, hok⟩ j hj
  · next hok => exact hthrow (.inr ⟨i, hi, by simpa using hok⟩) _

lemma finish_long_wp {status : DeliveryStatus} {userId : Option Id}
    (hlong : ¬ Fits 255 none dto.canceledImage.toOption) :
    (do
      sendFullNotification userId
      writeDeliveryStatus id status dto.reason dto.canceledImage).wp E Any (fun _ _ => False)
        (fun _ t => t = s) s := by
  rw [wp_bind]
  rcases userId with _ | v
  · exact rfl
  refine wp_service.mpr fun i _ => ⟨trivial, ?_⟩
  split
  · exact writeDeliveryStatus_long_wp hlong
  · rfl

/-- The request has gone through. -/
def Returned (E : Input → Prop) (s : DB) (id : Id) (dto : UpdateDeliveryStatusDto)
    (user : GetUserType) (t : DB) : Prop :=
  ∃ d i u, Passes s id dto user d ∧ ¬ Refused s id dto d ∧ (∃ j, E j ∧ j.ok = true) ∧
    Sweeps E (orderMark dto) (writtenOrders s id dto) s u ∧ E i ∧
    t = moved i id (finalStatus s id dto) dto u

/-- The request has been refused, before its first write or after the orders have been written. -/
def Thrown (E : Input → Prop) (s : DB) (id : Id) (dto : UpdateDeliveryStatusDto)
    (user : GetUserType) (t : DB) : Prop :=
  (t = s ∧ ∀ d, ¬ Passes s id dto user d) ∨
    ∃ d, Passes s id dto user d ∧ (Refused s id dto d ∨ ∃ i, E i ∧ i.ok = false) ∧
      Sweeps E (orderMark dto) (writtenOrders s id dto) s t

lemma Sweeps.mem_deliveries {orders : List (Id × Order)} (h : Sweeps E m orders s t)
    (hid : s.deliveries.lookup id = some d) : id ∈ t.deliveries := by
  rw [h.trips.deliveries]
  exact Table.mem_iff_lookup.mpr ⟨d, hid⟩

lemma sweeps_nil : Sweeps E m [] s s :=
  ⟨by simp, fun j _ => same_refl j s, tripsKept_refl s⟩

lemma writtenOrders_mem {e : Id × Order} (he : e ∈ writtenOrders s id dto) : e.1 ∈ s.orders := by
  have hmem : e ∈ s.ordersOf id := by
    unfold writtenOrders at he
    split at he
    · exact (List.mem_filter.mp he).1
    · exact he
    · cases he
  exact (DeliveryFlow.statusOf_of_mem_ordersOf hmem).1

lemma writtenOrders_nodup : ((writtenOrders s id dto).map Prod.fst).Nodup := by
  unfold writtenOrders
  split
  · exact (List.filter_sublist.map _).nodup (DeliveryFlow.ordersOf_nodup s id)
  · exact DeliveryFlow.ordersOf_nodup s id
  · exact List.nodup_nil

lemma fits_of_not_truthy {a : Arg String} (h : a.truthy = false) : Fits 255 none a.toOption := by
  cases a with
  | undefined | null => exact .inl rfl
  | val x =>
    obtain rfl : x = "" := by simpa [Arg.truthy] using h
    exact .inr (by simp [Arg.toOption])

/-- A request with an image that is too long writes nothing. -/
lemma long_wp (hlong : ¬ Fits 255 none dto.canceledImage.toOption) :
    (if dto.status = .canceled then cancelDelivery id dto d (s.ordersOf id)
      else advanceDelivery id dto d (s.ordersOf id)).wp E Any (fun _ _ => False)
      (fun _ t => t = s) s := by
  rw [wp_ite]
  split
  · unfold cancelDelivery
    rw [wp_throwIf_bind]
    refine ⟨fun _ => rfl, fun _ => ?_⟩
    dsimp only
    rw [wp_bind]
    have hnd := (List.filter_sublist (p := fun e => e.2.latestStatus = some .inTransport)).nodup
      (List.Nodup.of_map _ (DeliveryFlow.ordersOf_nodup s id))
    refine wp_mono (cancelOrders_long_wp hnd hlong) (fun _ t ht => ?_) fun _ _ h => h
    subst ht
    exact finish_long_wp hlong
  · unfold advanceDelivery
    rw [wp_throwIf_bind]
    refine ⟨fun _ => rfl, fun hplain => ?_⟩
    have hacc : dto.status ≠ .accepted := fun hacc => by
      rw [not_and, not_or] at hplain
      exact hlong (fits_of_not_truthy (by simpa using (hplain (.inr hacc)).2))
    rw [wp_when_bind]
    refine ⟨fun h => absurd h hacc, fun _ => ?_⟩
    dsimp only
    rw [wp_throwIf_bind]
    exact ⟨fun _ => rfl, fun _ => finish_long_wp hlong⟩

lemma cancelDelivery_wp (hst : dto.status = .canceled) (hr : s.deliveries.lookup id = some d)
    (hfits : Fits 255 none dto.canceledImage.toOption) :
    (cancelDelivery id dto d (s.ordersOf id)).wp E Any (fun _ t => Returned E s id dto user t)
      (fun _ t => Thrown E s id dto user t) s := by
  have hmark : orderMark dto = cancelMark dto := if_pos hst
  have hwritten : (s.ordersOf id).filter (fun e => e.2.latestStatus = some .inTransport) =
      writtenOrders s id dto := by rw [writtenOrders, hst]
  have hfinal : finalStatus s id dto = dto.status := by
    rw [finalStatus, hst, ite_self]
  unfold cancelDelivery
  rw [wp_throwIf_bind]
  refine ⟨fun hno => .inl ⟨rfl, fun d hd => ?_⟩, fun hreason => ?_⟩
  · obtain ⟨h₁, h₂⟩ := hd.reason hst
    rcases hno with hno | hno
    · exact hno h₁
    · exact hno h₂
  rw [not_or, not_not, not_not] at hreason
  have hpasses : Passes s id dto user d :=
    ⟨fun _ => by simp [hst], hr, fun _ => hreason, fun h => by simp [hst] at h, hfits⟩
  dsimp only
  rw [hwritten, wp_bind]
  refine wp_mono (cancelOrders_wp writtenOrders_nodup (fun e he => writtenOrders_mem he) hfits) ?_ ?_
  · rintro _ u ⟨hsweeps, hstudents⟩
    refine finish_wp (hsweeps.mem_deliveries hr) hfits (fun hstaff hok i hi => ?_) fun hno _ => ?_
    · refine ⟨d, i, u, hpasses, ?_, hok, hmark ▸ hsweeps, hi, by rw [hfinal]⟩
      rintro (⟨-, e, he, hnone⟩ | ⟨hne, -⟩ | hnone)
      · have hsome := hstudents e he
        simp [hnone] at hsome
      · exact hne hst
      · simp [hnone] at hstaff
    · refine .inr ⟨d, hpasses, ?_, hmark ▸ hsweeps⟩
      exact hno.imp_left fun hnone => .inr (.inr hnone)
  · rintro _ t ⟨hsweeps, e, he, hno⟩
    refine .inr ⟨d, hpasses, ?_, hmark ▸ hsweeps⟩
    exact hno.imp_left fun hnone => .inl ⟨hst, e, he, hnone⟩

/-- What `advanceDelivery` does after the orders. -/
def concludeDelivery (id : Id) (dto : UpdateDeliveryStatusDto) (delivery : Delivery)
    (orders : List (Id × Order)) : Async Delivery := do
  let isAllOrdersCanceled := orders.all fun e => e.2.latestStatus = some .canceled
  throwIf (isAllOrdersCanceled ∧ (¬ dto.reason.truthy ∨ ¬ dto.canceledImage.truthy))
    (.badRequest "Cần phải có lí do hoặc hình ảnh minh chứng khi huỷ chuyến đi")
  sendFullNotification delivery.staffId
  writeDeliveryStatus id (if isAllOrdersCanceled then .canceled else dto.status) dto.reason
    dto.canceledImage

lemma advanceDelivery_eq {orders : List (Id × Order)} : advanceDelivery id dto d orders = (do
    throwIf ((dto.status = .pending ∨ dto.status = .accepted) ∧
        (dto.reason.truthy ∨ dto.canceledImage.truthy))
      (.conflict "Không thể cập nhật lí do hoặc hình ảnh huỷ cho trạng thái của chuyến đi này")
    Call.when (dto.status = .accepted) (promiseAll (orders.map transportOrder))
    concludeDelivery id dto d orders) := rfl

lemma concludeDelivery_wp (hst : dto.status ≠ .canceled) (hpasses : Passes s id dto user d)
    (hsweeps : Sweeps E (orderMark dto) (writtenOrders s id dto) s u) :
    (concludeDelivery id dto d (s.ordersOf id)).wp E Any (fun _ t => Returned E s id dto user t)
      (fun _ t => Thrown E s id dto user t) u := by
  unfold concludeDelivery
  rw [wp_throwIf_bind]
  refine ⟨fun hno => .inr ⟨d, hpasses, .inl (.inr (.inl ⟨hst, hno.1, ?_⟩)), hsweeps⟩, fun hno => ?_⟩
  · simpa using hno.2
  refine finish_wp (hsweeps.mem_deliveries hpasses.lookup) hpasses.fits
    (fun hstaff hok i hi => ?_) fun hno _ => ?_
  · refine ⟨d, i, u, hpasses, ?_, hok, hsweeps, hi, rfl⟩
    rintro (⟨hcanceled, -⟩ | ⟨-, hall, hreason⟩ | hnone)
    · exact hst hcanceled
    · exact hno ⟨hall, by simpa using hreason⟩
    · simp [hnone] at hstaff
  · refine .inr ⟨d, hpasses, ?_, hsweeps⟩
    exact hno.imp_left fun hnone => .inr (.inr hnone)

lemma advanceDelivery_wp (hst : dto.status ≠ .canceled) (hr : s.deliveries.lookup id = some d)
    (hfree : s.isGoingDelivery user = true → dto.status ≠ .accepted)
    (hfits : Fits 255 none dto.canceledImage.toOption) :
    (advanceDelivery id dto d (s.ordersOf id)).wp E Any (fun _ t => Returned E s id dto user t)
      (fun _ t => Thrown E s id dto user t) s := by
  have hmark : orderMark dto = transportMark := if_neg hst
  rw [advanceDelivery_eq, wp_throwIf_bind]
  refine ⟨fun hno => .inl ⟨rfl, fun d hd => ?_⟩, fun hplain => ?_⟩
  · obtain ⟨h₁, h₂⟩ := hd.plain hno.1
    simpa [h₁, h₂] using hno.2
  have hpasses : Passes s id dto user d := by
    refine ⟨hfree, hr, fun h => absurd h hst, fun h => ?_, hfits⟩
    simpa [h] using hplain
  rw [wp_when_bind]
  refine ⟨fun hacc => ?_, fun hacc => ?_⟩
  · have hwritten : writtenOrders s id dto = s.ordersOf id := by rw [writtenOrders, hacc]
    refine wp_mono (transportOrders_wp (DeliveryFlow.ordersOf_nodup s id) fun e he =>
      (DeliveryFlow.statusOf_of_mem_ordersOf he).1) (fun _ u hu => ?_) fun _ _ h => h.elim
    refine concludeDelivery_wp hst hpasses ?_
    rwa [hmark, hwritten]
  · have hwritten : writtenOrders s id dto = [] := by
      unfold writtenOrders
      split
      · next h => exact absurd h hst
      · next h => exact absurd h hacc
      · rfl
    refine concludeDelivery_wp hst hpasses ?_
    rw [hwritten]
    exact sweeps_nil

/-- **The ends of a status change of a trip.** -/
theorem updateDeliveryStatus_wp :
    (updateDeliveryStatus id dto user).wp E Any (fun _ t => Returned E s id dto user t)
      (fun _ t => Thrown E s id dto user t) s := by
  unfold updateDeliveryStatus
  rw [wp_bind, wp_read]
  refine fun _ _ => ⟨trivial, ?_⟩
  rw [wp_throwIf_bind]
  refine ⟨fun hno => .inl ⟨rfl, fun d hd => hd.free hno.1 hno.2⟩, fun hfree => ?_⟩
  rw [wp_bind, wp_read]
  refine fun _ _ => ⟨trivial, ?_⟩
  rcases hr : s.deliveries.lookup id with _ | d
  · refine .inl ⟨rfl, fun d hd => ?_⟩
    cases hr.symm.trans hd.lookup
  simp only [Option.map_some]
  by_cases hfits : Fits 255 none dto.canceledImage.toOption
  · rw [wp_ite]
    split
    · next hst => exact cancelDelivery_wp hst hr hfits
    · next hst => exact advanceDelivery_wp hst hr (fun h hacc => hfree ⟨h, hacc⟩) hfits
  · have hno : ∀ d, ¬ Passes s id dto user d := fun _ hd => hfits hd.fits
    exact wp_mono (long_wp hfits) (fun _ _ ht => ht.elim) fun _ _ ht => .inl ⟨ht, hno⟩

/-! ### From the trip to its orders, all or nothing -/

/-- The order is one of the trip, with this row. -/
def OnTrip (s : DB) (id k : Id) (o : Order) : Prop :=
  (id, k) ∈ s.ordersOnDeliveries ∧ s.orders.lookup k = some o

lemma mem_ordersOf_iff {e : Id × Order} : e ∈ s.ordersOf id ↔ OnTrip s id e.1 e.2 := by
  unfold DB.ordersOf
  rw [List.mem_filterMap]
  constructor
  · rintro ⟨j, hj, he⟩
    obtain ⟨o, ho, rfl⟩ := Option.map_eq_some_iff.mp he
    rw [List.mem_filter, decide_eq_true_eq] at hj
    refine ⟨?_, ho⟩
    rw [← hj.2]
    exact List.mem_map_of_mem (f := Sigma.fst) hj.1
  · rintro ⟨hj, ho⟩
    obtain ⟨j, hj, hjk⟩ := List.mem_map.mp hj
    refine ⟨j, List.mem_filter.mpr ⟨hj, by simp [hjk]⟩, ?_⟩
    rw [hjk, ho]
    rfl

/-- **The status of the trip has been passed on to its orders.** The orders on the way of a canceled
trip are canceled, for the reason the staff gives and with its image; all orders of an accepted trip
are on the way; nothing else of orders and trips has changed. -/
structure Propagated (E : Input → Prop) (s : DB) (id : Id) (dto : UpdateDeliveryStatusDto) (t : DB) :
    Prop where
  exist : id ∈ s.deliveries
  canceled : dto.status = .canceled → ∃ reason image, dto.reason = .val reason ∧
    dto.canceledImage = .val image ∧ ∀ k o, OnTrip s id k o → o.latestStatus = some .inTransport →
      Marked E ⟨.canceled, some ("Lí do xuất phát từ nhân viên: " ++ reason), .val image⟩ k s t
  accepted : dto.status = .accepted → ∀ k o, OnTrip s id k o →
    Marked E ⟨.inTransport, none, .undefined⟩ k s t
  other : ∀ k, (∀ o, OnTrip s id k o → dto.status ≠ .accepted ∧
    ¬ (dto.status = .canceled ∧ o.latestStatus = some .inTransport)) → Same k s t
  trip : ∃ i status, E i ∧
    ((∀ k o, OnTrip s id k o → o.latestStatus = some .canceled) ∧ status = .canceled ∨
      (∃ k o, OnTrip s id k o ∧ o.latestStatus ≠ some .canceled) ∧ status = dto.status) ∧
    t.deliveries = s.deliveries.modify id (fun d => { d with latestStatus := status }) ∧
    t.deliveryStatusHistory = s.deliveryStatusHistory ++ [{
      deliveryId := id
      status
      reason := dto.reason.toOption
      time := toString i.now
      canceledImage := dto.canceledImage.toOption }]

lemma eq_val_of_truthy {a : Arg String} (h : a.truthy = true) : ∃ x, a = .val x ∧ x ≠ "" := by
  cases a with
  | val x => exact ⟨x, rfl, by simpa [Arg.truthy] using h⟩
  | undefined => cases h
  | null => cases h

lemma writtenOrders_mem_iff {e : Id × Order} : e ∈ writtenOrders s id dto ↔
    OnTrip s id e.1 e.2 ∧
      (dto.status = .accepted ∨ dto.status = .canceled ∧ e.2.latestStatus = some .inTransport) := by
  unfold writtenOrders
  split
  · next hst => simp [hst, mem_ordersOf_iff]
  · next hst => simp [hst, mem_ordersOf_iff]
  · next h₁ h₂ =>
    have hcan : ¬ dto.status = .canceled := h₁
    have hacc : ¬ dto.status = .accepted := h₂
    simp [hcan, hacc]

lemma Returned.propagated (h : Returned E s id dto user t) : Propagated E s id dto t := by
  obtain ⟨d, i, u, hpasses, -, -, hsweeps, hi, rfl⟩ := h
  refine ⟨Table.mem_iff_lookup.mpr ⟨d, hpasses.lookup⟩, fun hst => ?_, fun hst k o hk => ?_,
    fun k hk => hsweeps.other k fun e he hek => ?_, i, finalStatus s id dto, hi, ?_, ?_, ?_⟩
  · obtain ⟨hreason, himage⟩ := hpasses.reason hst
    obtain ⟨reason, hr, hne⟩ := eq_val_of_truthy hreason
    obtain ⟨image, hc, -⟩ := eq_val_of_truthy himage
    have hmark : orderMark dto =
        ⟨.canceled, some ("Lí do xuất phát từ nhân viên: " ++ reason), .val image⟩ := by
      rw [orderMark, if_pos hst, cancelMark, hr, hc]
      simp [mapReason, hne]
    refine ⟨reason, image, hr, hc, fun k o hk htransport => ?_⟩
    rw [← hmark]
    exact hsweeps.marked (k, o) (writtenOrders_mem_iff.mpr ⟨hk, .inr ⟨hst, htransport⟩⟩)
  · have hmark : orderMark dto = transportMark := if_neg (by simp [hst])
    have hmarked := hsweeps.marked (k, o) (writtenOrders_mem_iff.mpr ⟨hk, .inl hst⟩)
    rwa [hmark] at hmarked
  · obtain ⟨htrip, hst⟩ := writtenOrders_mem_iff.mp he
    obtain ⟨hacc, hcan⟩ := hk e.2 (hek ▸ htrip)
    exact hst.elim hacc hcan
  · by_cases hall : allCanceled s id = true
    · refine .inl ⟨fun k o hk => ?_, if_pos hall⟩
      simpa using List.all_eq_true.mp hall (k, o) (mem_ordersOf_iff.mpr hk)
    · refine .inr ⟨?_, if_neg hall⟩
      simp only [allCanceled, List.all_eq_true, decide_eq_true_eq, not_forall] at hall
      obtain ⟨e, he, hne⟩ := hall
      exact ⟨e.1, e.2, mem_ordersOf_iff.mp he, hne⟩
  · rw [moved, hsweeps.trips.deliveries]
  · rw [moved, hsweeps.trips.history]
    rfl

/-- **A status change of a trip that returns has been passed on to its orders**, in whichever order
their branches ran; the new rows carry times of its own steps. -/
theorem status_propagates (s : DB) (id : Id) (dto : UpdateDeliveryStatusDto) (user : GetUserType)
    (ω : ℕ → Input) (d : Delivery) (t : DB)
    (h : (updateDeliveryStatus id dto user).exec ω s = (.ok d, t)) :
    Propagated (fun i => ∃ n, i = ω n) s id dto t := by
  have hwp : (updateDeliveryStatus id dto user).wp (fun i => ∃ n, i = ω n) Any
      (fun _ t => Returned (fun i => ∃ n, i = ω n) s id dto user t)
      (fun _ t => Thrown (fun i => ∃ n, i = ω n) s id dto user t) s := updateDeliveryStatus_wp
  have hrun := (wp_run hwp (ω := ω) fun n => ⟨n, rfl⟩).2
  rw [h] at hrun
  exact hrun.propagated

/-- A trip with an order on the way and one that has been delivered. -/
def sampleTrip : DB :=
  { Sample.db with
    orders := [(11, { Sample.order with latestStatus := some .delivered }),
      (10, { Sample.order with latestStatus := some .inTransport })].foldl
        (fun t e => t.insert e.1 e.2) ∅
    deliveries := (∅ : Table Id Delivery).insert 20
      { displayId := "DEL1", staffId := some 3, limitTime := 60, numberOrder := 2,
        createdAt := "1000", latestStatus := .accepted }
    ordersOnDeliveries := [((20, 11), 2), ((20, 10), 1)].foldl
      (fun t e => t.insert e.1 e.2) ∅ }

def cancelTrip : UpdateDeliveryStatusDto := ⟨.canceled, .val "rain", .val "c.png"⟩

theorem status_propagates_sampleTrip :
    let r := (updateDeliveryStatus 20 cancelTrip Sample.staff).exec (Sample.inputs 0) sampleTrip
    r.1.isOk = true ∧ Propagated (fun i => ∃ n, i = Sample.inputs 0 n) sampleTrip 20 cancelTrip r.2 ∧
      (r.2.orders.lookup 10).map (·.latestStatus) = some (some .canceled) ∧
      (r.2.orders.lookup 11).map (·.latestStatus) = some (some .delivered) := by
  have hok : ((updateDeliveryStatus 20 cancelTrip Sample.staff).exec (Sample.inputs 0)
      sampleTrip).1.isOk = true := by decide +kernel
  refine ⟨hok, ?_, by decide +kernel, by decide +kernel⟩
  rcases h : (updateDeliveryStatus 20 cancelTrip Sample.staff).exec (Sample.inputs 0) sampleTrip with
    ⟨e | d, t⟩
  · rw [h] at hok
    cases hok
  · exact status_propagates sampleTrip 20 cancelTrip Sample.staff (Sample.inputs 0) d t h

/-- The trip and its history, and the status and history of its orders, are as before. -/
structure TripKept (id : Id) (s t : DB) : Prop where
  delivery : t.deliveries.lookup id = s.deliveries.lookup id
  history : t.deliveryHistoryOf id = s.deliveryHistoryOf id
  orders : ∀ e ∈ s.ordersOf id,
    (t.orders.lookup e.1).map (·.latestStatus) = (s.orders.lookup e.1).map (·.latestStatus) ∧
      t.historyOf e.1 = s.historyOf e.1

lemma tripKept_refl (id : Id) (s : DB) : TripKept id s s := ⟨rfl, rfl, fun _ _ => ⟨rfl, rfl⟩⟩

lemma Sweeps.tripKept (h : Sweeps E m [] s t) (id : Id) : TripKept id s t := by
  refine ⟨by rw [h.trips.deliveries], by rw [DB.deliveryHistoryOf, h.trips.history]; rfl, fun e _ => ?_⟩
  obtain ⟨hrow, hrows⟩ := h.other e.1 (by simp)
  exact ⟨by rw [hrow], hrows⟩

/-- Orders that were written are not as before. -/
lemma Sweeps.not_tripKept (h : Sweeps E m (writtenOrders s id dto) s t)
    (hne : writtenOrders s id dto ≠ []) : ¬ TripKept id s t := by
  obtain ⟨e, he⟩ := List.exists_mem_of_ne_nil _ hne
  intro hkept
  refine (h.marked e he).history_ne ?_
  exact (hkept.orders e (mem_ordersOf_iff.mpr (writtenOrders_mem_iff.mp he).1)).2

/-- **When a status change that throws has kept the trip**: when it writes no order, or nothing
refuses it after that. -/
lemma onThrow_iff_unrefused (hE : ∀ i : Input, i.ok = true → E i) :
    OnThrow E (updateDeliveryStatus id dto user) (TripKept id s) s ↔
      ∀ d, Passes s id dto user d → writtenOrders s id dto ≠ [] →
        ¬ Refused s id dto d ∧ ∀ i, E i → i.ok = true := by
  have hgood : E { (default : Input) with ok := true } := hE _ rfl
  rw [onThrow_iff ⟨_, hgood⟩]
  constructor
  · intro h d hpasses hne
    -- inputs that refuse the request leave its orders written
    have hbad : ∀ E' : Input → Prop, (∃ i, E i ∧ E' i) →
        (∀ t, ¬ Returned E' s id dto user t) → False := by
      intro E' hmeet hno
      rcases wp_meet h (updateDeliveryStatus_wp (E := E')) hmeet with
        ⟨_, t, _, hret⟩ | ⟨_, t, hkept, hthrown⟩
      · exact hno t hret
      · rcases hthrown with ⟨-, hstop⟩ | ⟨-, -, -, hsweeps⟩
        · exact hstop d hpasses
        · exact hsweeps.not_tripKept hne hkept
    refine ⟨fun hrefused => ?_, fun i hi => ?_⟩
    · refine hbad (fun _ => True) ⟨_, hgood, trivial⟩ ?_
      rintro t ⟨d', _, _, hpasses', hno, -⟩
      obtain rfl := Option.some.inj (hpasses.lookup.symm.trans hpasses'.lookup)
      exact hno hrefused
    · by_contra hok
      refine hbad (fun j => j = i) ⟨i, hi, rfl⟩ ?_
      rintro t ⟨_, _, _, -, -, ⟨j, rfl, hj⟩, -⟩
      exact hok hj
  · intro h
    refine wp_mono updateDeliveryStatus_wp (fun _ _ _ => trivial) fun _ t ht => ?_
    rcases ht with ⟨rfl, -⟩ | ⟨d, hpasses, hrefused, hsweeps⟩
    · exact tripKept_refl id t
    · by_cases hne : writtenOrders s id dto = []
      · rw [hne] at hsweeps
        exact hsweeps.tripKept id
      · obtain ⟨hno, hok⟩ := h d hpasses hne
        rcases hrefused with hrefused | ⟨i, hi, hfalse⟩
        · exact absurd hrefused hno
        · rw [hok i hi] at hfalse
          cases hfalse

/-- **Which status changes of a trip are all or nothing.** Whatever the services answer, those that
write no order; when they answer, also those that nothing refuses after the orders. -/
theorem updateDeliveryStatus_all_or_nothing (s : DB) (id : Id) (dto : UpdateDeliveryStatusDto)
    (user : GetUserType) :
    (OnThrow (fun _ => True) (updateDeliveryStatus id dto user) (TripKept id s) s ↔
      ∀ d, Passes s id dto user d → writtenOrders s id dto = []) ∧
    (OnThrow (fun i => i.ok = true) (updateDeliveryStatus id dto user) (TripKept id s) s ↔
      ∀ d, Passes s id dto user d → writtenOrders s id dto ≠ [] → ¬ Refused s id dto d) := by
  constructor
  · rw [onThrow_iff_unrefused fun _ _ => trivial]
    refine forall₂_congr fun d _ => ⟨fun h => ?_, fun h hne => absurd h hne⟩
    by_contra hne
    have hok := (h hne).2 default trivial
    cases hok
  · rw [onThrow_iff_unrefused fun _ h => h]
    exact forall₃_congr fun d _ _ => ⟨fun h => h.1, fun h => ⟨h, fun _ h => h⟩⟩

/-- A parcel is planned into a trip without a shipper. -/
def unstaffedTrip : DB := Machine.run (serve Sample.config) Sample.db
  [(.createOrder Sample.body Sample.student, Sample.inputs 10),
    (.createDelivery ⟨60, .undefined, [10]⟩, Sample.inputs 20)]

def acceptTrip : UpdateDeliveryStatusDto := ⟨.accepted, .undefined, .undefined⟩

/-- The shipper of the trip cannot be told: its acceptance throws, and the parcel is on the way. -/
theorem transported_without_trip :
    let t := ((updateDeliveryStatus 20 acceptTrip Sample.staff).exec (Sample.inputs 0)
      unstaffedTrip).2
    (t.deliveries.lookup 20).map (·.latestStatus) = some .pending ∧
      (t.orders.lookup 10).map (·.latestStatus) = some (some .inTransport) ∧
      ¬ OnThrow (fun i => i.ok = true) (updateDeliveryStatus 20 acceptTrip Sample.staff)
        (TripKept 20 unstaffedTrip) unstaffedTrip := by
  refine ⟨by decide +kernel, by decide +kernel, fun h => ?_⟩
  have hkept := h.of_run (ω := Sample.inputs 0) (fun _ => rfl) (by decide +kernel)
  have hall : ¬ ∀ e ∈ unstaffedTrip.ordersOf 20,
      ((((updateDeliveryStatus 20 acceptTrip Sample.staff).exec (Sample.inputs 0)
        unstaffedTrip).2.orders.lookup e.1).map (·.latestStatus)) =
        (unstaffedTrip.orders.lookup e.1).map (·.latestStatus) := by decide +kernel
  exact hall fun e he => (hkept.orders e he).1

end TsaBackend.TripStatus
