import TsaBackend.LogColumn
import TsaBackend.TripWrites

/-!
The status columns of orders and trips and their logs, under any interleaving of calls.

No call but `updateOrderInfo`, whose body may set the column, can bring them apart.
-/

namespace TsaBackend.StatusLog

open Call OrderEffects RequestSteps

def orderColumn : LogColumn Id Order OrderStatusHistory (Option OrderStatus) where
  key := (·.orderId)
  val := fun h => some h.status
  col := (·.latestStatus)
  blank := (· = some .pending)

def deliveryColumn : LogColumn Id Delivery DeliveryStatusHistory DeliveryStatus where
  key := (·.deliveryId)
  val := (·.status)
  col := (·.latestStatus)
  blank := fun _ => False

/-- Both columns follow their logs, and every log row belongs to a row. -/
structure Agrees (s : DB) : Prop where
  orders : orderColumn.Agrees s.orders s.orderStatusHistory
  deliveries : deliveryColumn.Agrees s.deliveries s.deliveryStatusHistory

/-- The column of orders follows its log. -/
def OrdersAgree (s : DB) : Prop := orderColumn.Agrees s.orders s.orderStatusHistory

/-- The column of trips follows its log. -/
def TripsAgree (s : DB) : Prop := deliveryColumn.Agrees s.deliveries s.deliveryStatusHistory

variable {s t : DB} {id : Id} {cfg : Config} {user : GetUserType}

lemma OrdersAgree.updateOrders {ids : List Id} {f : Order → Order} (h : OrdersAgree s)
    (hu : s.updateOrders ids f = .ok t) (hf : ∀ o, (f o).latestStatus = o.latestStatus) :
    OrdersAgree t :=
  OrderWrites.updateOrders_rule h (fun _ _ ht => ht.modify hf) hu

lemma OrdersAgree.logged {i : Input} {status : OrderStatus} {reason : Option String}
    {canceledImage finishedImage receivedImage : Arg String} (hs : OrdersAgree s)
    (hid : id ∈ s.orders) :
    OrdersAgree (logged i id status reason canceledImage finishedImage receivedImage s) :=
  hs.append (statusRow id status reason canceledImage i) hid fun _ => rfl

lemma studentRow_latestStatus {dto : CreateOrderDto} {o : Order}
    (h : studentRow cfg dto user = .ok o) : o.latestStatus = some .pending := by
  obtain ⟨_, _, _, rfl⟩ := CreateOrderDto.create_ok h
  rfl

lemma adminRow_latestStatus {dto : CreateOrderDto} {o : Order} (h : adminRow dto = .ok o) :
    o.latestStatus = some .pending := by
  obtain ⟨_, _, _, rfl⟩ := CreateOrderDto.create_ok h
  rfl

/-- Every request but the one whose body may name the status column. -/
def Logged : Request → Prop
  | .updateOrderInfo .. => False
  | _ => True

/-- The orders of a stored trip keep their statuses. -/
lemma OrdersAgree.insertDelivery {orders : List Id} {dto : CreateDeliveryDto} {d : Delivery}
    (hs : OrdersAgree s) (h : s.insertDelivery orders dto id d = .ok t) : OrdersAgree t := by
  obtain ⟨s₁, h₁, h⟩ := ok_of_bind h
  obtain ⟨s₂, h₂, h⟩ := ok_of_bind h
  obtain ⟨s₃, h₃, h₄⟩ := ok_of_bind h
  have hs₁ : OrdersAgree s₁ := hs.updateOrders h₁ fun _ => rfl
  obtain ⟨_, rfl⟩ := DB.createDelivery_ok h₂
  obtain ⟨_, _, rfl⟩ := DB.createDeliveryStatusRow_ok h₃
  obtain ⟨_, rfl⟩ := DB.createManyOrdersOnDelivery_ok h₄
  exact hs₁

/-- Every statement but that edit keeps the orders and their log together. -/
lemma ordersAgree_writes {r : Request} (hr : Logged r) (hw : Writes cfg s r t)
    (hs : OrdersAgree s) : OrdersAgree t := by
  cases hw with
  | none => exact hs
  | charge _ ht =>
    rw [chargeStudent_ok ht]
    exact hs
  | cash _ => exact hs.modify fun _ => rfl
  | change i hid => exact hs.logged hid
  | claim => exact hs.modify fun _ => rfl
  | insert hrow hid =>
    refine LogColumn.Agrees.insert hs hid ?_
    rcases hrow with hrow | hrow
    · exact studentRow_latestStatus hrow
    · exact adminRow_latestStatus hrow
  | log i status hid => exact hs.logged hid
  | edit => exact hr.elim
  | remove h =>
    obtain ⟨_, rfl⟩ := DB.deleteOrder_ok h
    exact hs.erase
  | delay h => exact hs.updateOrders h fun _ => rfl
  | plan _ h => exact hs.insertDelivery h
  | replan _ _ h ht =>
    obtain ⟨_, _, rfl⟩ := DB.updateDelivery_ok h
    obtain ⟨_, rfl⟩ := DB.createManyOrdersOnDelivery_ok ht
    exact hs
  | order i status reason canceledImage hid => exact hs.logged hid
  | move _ _ h ht =>
    obtain ⟨_, _, rfl⟩ := DB.updateDelivery_ok h
    obtain ⟨_, _, rfl⟩ := DB.createDeliveryStatusRow_ok ht
    exact hs
  | drop h =>
    obtain ⟨_, rfl⟩ := DB.deleteDelivery_ok h
    exact hs
  | invoice h =>
    obtain ⟨_, _, _, rfl⟩ := DB.createPayment_ok h
    exact hs
  | settle h =>
    obtain ⟨_, _, _, rfl⟩ := webhookTransaction_ok h
    exact hs.modify fun _ => rfl

/-! ### Trips and interleavings -/

lemma TripsAgree.insertDelivery {orders : List Id} {dto : CreateDeliveryDto} {d : Delivery}
    (hs : TripsAgree s) (h : s.insertDelivery orders dto id d = .ok t)
    (hd : d.latestStatus = .pending) : TripsAgree t := by
  obtain ⟨s₁, h₁, h⟩ := ok_of_bind h
  obtain ⟨s₂, h₂, h⟩ := ok_of_bind h
  obtain ⟨s₃, h₃, h₄⟩ := ok_of_bind h
  obtain ⟨_, rfl, -⟩ := updateOrders_ok h₁
  obtain ⟨_, rfl⟩ := DB.createDelivery_ok h₂
  obtain ⟨_, _, rfl⟩ := DB.createDeliveryStatusRow_ok h₃
  obtain ⟨_, rfl⟩ := DB.createManyOrdersOnDelivery_ok h₄
  exact LogColumn.Agrees.insert_append hs ⟨id, .pending, none, d.createdAt, none⟩ hd

/-- Every statement keeps the trips and their log together. -/
lemma tripsAgree_writes {r : Request} (hw : Writes cfg s r t) (hs : TripsAgree s) :
    TripsAgree t := by
  by_cases hr : Trips.WritesTrips r
  swap
  · obtain ⟨⟨hdeliveries, -⟩, hhistory⟩ := Trips.untouched_writes hr hw
    rw [TripsAgree, hdeliveries, hhistory]
    exact hs
  cases hw with
  | none => exact hs
  | plan hd h => exact hs.insertDelivery h hd
  | replan _ hf h ht =>
    obtain ⟨_, _, rfl⟩ := DB.updateDelivery_ok h
    obtain ⟨_, rfl⟩ := DB.createManyOrdersOnDelivery_ok ht
    exact hs.modify hf
  | order i status reason canceledImage hid => exact hs
  | @move _ _ _ row _ _ hid _ h ht =>
    subst hid
    obtain ⟨d, hd, rfl⟩ := DB.updateDelivery_ok h
    obtain ⟨_, _, rfl⟩ := DB.createDeliveryStatusRow_ok ht
    have hmem : row.deliveryId ∈ s.deliveries := Table.mem_iff_lookup.mpr ⟨d, hd⟩
    exact LogColumn.Agrees.append (f := fun d => { d with latestStatus := row.status }) hs row hmem
      fun _ => rfl
  | drop h =>
    obtain ⟨_, rfl⟩ := DB.deleteDelivery_ok h
    exact hs.erase
  | _ => exact hr.elim

/-- The column of an order is the status of its last row, `PENDING` before the first one;
the column of a trip is the status of its last row. -/
def ColumnsFollowLogs (s : DB) : Prop :=
  (∀ e ∈ s.orders.entries, e.2.latestStatus =
      some (((s.historyOf e.1).getLast?.map (·.status)).getD .pending)) ∧
    ∀ e ∈ s.deliveries.entries,
      some e.2.latestStatus = (s.deliveryHistoryOf e.1).getLast?.map (·.status)

/-- The foreign keys of the two logs. -/
def LogKeys (s : DB) : Prop :=
  (∀ h ∈ s.orderStatusHistory, h.orderId ∈ s.orders) ∧
    ∀ h ∈ s.deliveryStatusHistory, h.deliveryId ∈ s.deliveries

instance (s : DB) : Decidable (ColumnsFollowLogs s) := by unfold ColumnsFollowLogs; infer_instance

instance (s : DB) : Decidable (LogKeys s) := by unfold LogKeys; infer_instance

lemma agrees_iff : Agrees s ↔ ColumnsFollowLogs s ∧ LogKeys s := by
  have hO : ∀ id o, orderColumn.Fits (orderColumn.rowsOf s.orderStatusHistory id)
      (orderColumn.col o) ↔
      o.latestStatus = some (((s.historyOf id).getLast?.map (·.status)).getD .pending) := by
    intro id o
    have hrows : orderColumn.rowsOf s.orderStatusHistory id = s.historyOf id := rfl
    rw [hrows, LogColumn.Fits]
    cases (s.historyOf id).getLast? <;> rfl
  have hD : ∀ id d, deliveryColumn.Fits (deliveryColumn.rowsOf s.deliveryStatusHistory id)
      (deliveryColumn.col d) ↔
      some d.latestStatus = (s.deliveryHistoryOf id).getLast?.map (·.status) := by
    intro id d
    have hrows : deliveryColumn.rowsOf s.deliveryStatusHistory id = s.deliveryHistoryOf id := rfl
    rw [hrows, LogColumn.Fits]
    cases (s.deliveryHistoryOf id).getLast? <;> simp [deliveryColumn]
  constructor
  · rintro ⟨ho, hd⟩
    refine ⟨⟨fun e he => ?_, fun e he => ?_⟩, ho.keys, hd.keys⟩
    · exact (hO e.1 e.2).mp (ho.fits _ _ (Table.lookup_eq_some.mpr he))
    · exact (hD e.1 e.2).mp (hd.fits _ _ (Table.lookup_eq_some.mpr he))
  · rintro ⟨⟨ho, hd⟩, hko, hkd⟩
    refine ⟨⟨fun id o hid => ?_, hko⟩, ⟨fun id d hid => ?_, hkd⟩⟩
    · exact (hO id o).mpr (ho ⟨id, o⟩ (Table.lookup_eq_some.mp hid))
    · exact (hD id d).mpr (hd ⟨id, d⟩ (Table.lookup_eq_some.mp hid))

lemma preserves_call {r : Request} (hr : Logged r) : (r.call cfg).Preserves Agrees :=
  (call_steps r).preserves fun _ _ hw hs =>
    ⟨ordersAgree_writes hr hw hs.orders, tripsAgree_writes hw hs.deliveries⟩

/-- **Column and log agree at every point of every interleaving**, whichever calls the
outside services end early. -/
theorem columns_follow_logs (cfg : Config) (s : DB) (hs : ColumnsFollowLogs s) (hk : LogKeys s)
    (rs : List Request) (hrs : ∀ r ∈ rs, Logged r) (sched : List (ℕ × Input)) :
    ColumnsFollowLogs (interleave s (rs.map (Request.call cfg)) sched).1 := by
  have hcalls : ∀ c ∈ rs.map (Request.call cfg), c.Preserves Agrees := by
    intro c hc
    obtain ⟨r, hr, rfl⟩ := List.mem_map.mp hc
    exact preserves_call (hrs r hr)
  exact (agrees_iff.mp (interleave_inv hcalls (agrees_iff.mpr ⟨hs, hk⟩) sched)).1

/-- Two users accept one order while a new one is created. -/
theorem columns_follow_logs_race : ColumnsFollowLogs (interleave Sample.dbWithOrder
    ([.updateStatus 10 (.only .accepted) Sample.admin, .createOrder Sample.body Sample.student,
      .updateStatus 10 (.only .accepted) Sample.staff].map (Request.call Sample.config))
    ([0, 2, 1, 0, 2, 1, 0, 2, 1, 1, 1].map fun k => (k, Sample.inputs 20 0))).1 :=
  columns_follow_logs Sample.config _ (by decide) (by decide) _ (by simp [Logged]) _

end TsaBackend.StatusLog
