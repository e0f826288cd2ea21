import TsaBackend.OrderWrites
import TsaBackend.Protocol

/-!
What each step of a request can write, whatever other requests do between its steps.
-/

namespace TsaBackend.RequestSteps

open Call OrderEffects OrderWrites

variable {α : Type} {cfg : Config} {user : GetUserType} {s t : DB} {id : Id} {G : DB → DB → Prop}

lemma steps_execute {f : Input → DB → Except Exn DB} (hrefl : ∀ s, G s s)
    (hok : ∀ i s t, f i s = .ok t → G s t) : (execute f).Steps G :=
  steps_atomic (fun i s _ t h => hok i s t (of_map_ok h)) hrefl

lemma steps_executeReturning {row : DB → Option α} {f : Input → DB → Except Exn DB}
    (hrefl : ∀ s, G s s) (hok : ∀ i s t, f i s = .ok t → G s t) :
    (executeReturning row f).Steps G := by
  refine steps_atomic (fun i s a t h => ?_) hrefl
  rcases hfs : f i s with e | t'
  · simp [hfs] at h
  · rcases hrow : row t' with _ | b
    · simp [hfs, hrow] at h
    · obtain rfl : t' = t := by
        simp only [hfs, hrow, Except.ok.injEq, Prod.mk.injEq] at h
        exact h.2
      exact hok i s t' hfs

lemma steps_service (hrefl : ∀ s, G s s) : service.Steps G := by
  refine steps_atomic (fun i s _ t h => ?_) hrefl
  split at h
  · cases h
    exact hrefl s
  · cases h

lemma steps_sendFullNotification (hrefl : ∀ s, G s s) (userId : Option Id) :
    (sendFullNotification userId).Steps G := by
  cases userId with
  | none => exact steps_throw _
  | some _ => exact steps_service hrefl

lemma steps_findExistingOrder (hrefl : ∀ s, G s s) {checkCode brand : Field String} :
    (findExistingOrder checkCode brand).Steps G :=
  Steps.ite (fun _ => steps_throw _) fun _ => steps_read _ hrefl

/-- A row and the column are written together, on an order that exists. -/
lemma steps_createOrderStatusHistory {status : OrderStatus} {reason : Option String}
    {canceledImage finishedImage receivedImage : Arg String} (hrefl : ∀ s, G s s)
    (hlog : ∀ i s, id ∈ s.orders →
      G s (logged i id status reason canceledImage finishedImage receivedImage s)) :
    (createOrderStatusHistory id status reason canceledImage finishedImage receivedImage).Steps
      G := by
  refine steps_execute hrefl fun i s t h => ?_
  obtain ⟨⟨o, ho, -⟩, rfl⟩ := logged_of_ok h
  exact hlog i s (Table.mem_iff_lookup.mpr ⟨o, ho⟩)

/-- Only the order rows change. -/
lemma updateOrders_ok {ids : List Id} {f : Order → Order} (h : s.updateOrders ids f = .ok t) :
    ∃ orders, t = { s with orders } ∧ ∀ j, j ∈ orders ↔ j ∈ s.orders := by
  refine updateOrders_rule (P := fun t => ∃ orders, t = { s with orders } ∧
    ∀ j, j ∈ orders ↔ j ∈ s.orders) ⟨s.orders, rfl, fun _ => Iff.rfl⟩ ?_ h
  rintro t id ⟨orders, rfl, hmem⟩
  exact ⟨orders.modify id f, rfl, fun j => by simpa using hmem j⟩

/-- A new trip writes orders and the tables of trips. -/
lemma insertDelivery_ok {orders : List Id} {dto : CreateDeliveryDto} {d : Delivery}
    (h : s.insertDelivery orders dto id d = .ok t) :
    ∃ orders deliveries deliveryStatusHistory ordersOnDeliveries,
      t = { s with orders, deliveries, deliveryStatusHistory, ordersOnDeliveries } := by
  obtain ⟨s₁, h₁, h⟩ := ok_of_bind h
  obtain ⟨s₂, h₂, h⟩ := ok_of_bind h
  obtain ⟨s₃, h₃, h⟩ := ok_of_bind h
  obtain ⟨orders, rfl, -⟩ := updateOrders_ok h₁
  obtain ⟨-, rfl⟩ := DB.createDelivery_ok h₂
  obtain ⟨-, -, rfl⟩ := DB.createDeliveryStatusRow_ok h₃
  obtain ⟨joins, rfl⟩ := DB.createManyOrdersOnDelivery_ok h
  exact ⟨_, _, _, _, rfl⟩

/-- A notification writes one order and one payment. -/
lemma webhookTransaction_ok {body : WebhookType} {o : Order}
    (h : webhookTransaction body s = .ok (o, t)) : ∃ paymentId orderId newRemaining, t = { s with
      orders := s.orders.modify orderId (payOrder newRemaining)
      payments := s.payments.modify paymentId (markPaid body) } := by
  unfold webhookTransaction at h
  split at h
  · cases h
  split at h
  · cases h
  obtain ⟨s₁, h₁, h⟩ := ok_of_bind h
  obtain ⟨s₂, h₂, h⟩ := ok_of_bind h
  cases h
  obtain ⟨_, _, _, rfl⟩ := DB.updateOrder_ok h₁
  obtain ⟨_, rfl⟩ := DB.updatePayment_ok h₂
  exact ⟨_, _, _, rfl⟩

/-- What one step of a request can make of the tables. -/
inductive Writes (cfg : Config) (s : DB) : Request → DB → Prop
  | none {r : Request} : Writes cfg s r s
  | charge {id : Id} {dto : UpdateStatusDto} {user : GetUserType} {studentId : Id} {n : ℤ}
    {ban : Bool} {t : DB} (h : charges dto) (ht : s.chargeStudent studentId n ban = .ok t) :
    Writes cfg s (.updateStatus id dto user) t
  | cash {id : Id} {dto : UpdateStatusDto} {user : GetUserType} (hst : dto.status = .delivered) :
    Writes cfg s (.updateStatus id dto user) { s with orders := s.orders.modify id payCash }
  | change {id : Id} {dto : UpdateStatusDto} {user : GetUserType} (i : Input)
    (hid : id ∈ s.orders) : Writes cfg s (.updateStatus id dto user) (recorded i id dto s)
  | claim {dto : CreateOrderDto} {user : GetUserType} {id : Id} :
    Writes cfg s (.createOrder dto user) (claimed cfg dto user id s)
  | insert {dto : CreateOrderDto} {user : GetUserType} {id : Id} {row : Order}
    (h : studentRow cfg dto user = .ok row ∨ adminRow dto = .ok row) (hid : id ∉ s.orders) :
    Writes cfg s (.createOrder dto user) (inserted id row s)
  | log {dto : CreateOrderDto} {user : GetUserType} {id : Id} (i : Input) (status : OrderStatus)
    (hid : id ∈ s.orders) : Writes cfg s (.createOrder dto user)
      (logged i id status Option.none .undefined .undefined .undefined s)
  | edit {id : Id} {dto : CreateOrderDto} {user : GetUserType} :
    Writes cfg s (.updateOrderInfo id dto user) (edited cfg id dto s)
  | remove {id : Id} {user : GetUserType} {t : DB} (h : s.deleteOrder id = .ok t) :
    Writes cfg s (.deleteOrder id user) t
  | delay {dto : DelayOrdersDto} {ids : List Id} {t : DB}
    (h : s.updateOrders ids (fun o => { o with deliveryDate := some dto.timeslot }) = .ok t) :
    Writes cfg s (.delayOrders dto) t
  | plan {dto : CreateDeliveryDto} {orders : List Id} {id : Id} {d : Delivery} {t : DB}
    (hd : d.latestStatus = .pending) (h : s.insertDelivery orders dto id d = .ok t) :
    Writes cfg s (.createDelivery dto) t
  | replan {id : Id} {dto : UpdateDeliveryDto} {orderIds : List Id} {f : Delivery → Delivery}
    {s' t : DB} (hids : dto.orderIds = .val orderIds)
    (hf : ∀ d, (f d).latestStatus = d.latestStatus) (h : s.updateDelivery id f = .ok s')
    (ht : s'.createManyOrdersOnDelivery id 1 orderIds = .ok t) :
    Writes cfg s (.updateDelivery id dto) t
  | order {id : Id} {dto : UpdateDeliveryStatusDto} {user : GetUserType} {orderId : Id} (i : Input)
    (status : OrderStatus) (reason : Option String) (canceledImage : Arg String)
    (hid : orderId ∈ s.orders) : Writes cfg s (.updateDeliveryStatus id dto user)
      (logged i orderId status reason canceledImage .undefined .undefined s)
  | move {id : Id} {dto : UpdateDeliveryStatusDto} {user : GetUserType}
    {row : DeliveryStatusHistory} {s' t : DB} (hid : row.deliveryId = id)
    (hst : row.status = .canceled ∨ row.status = dto.status)
    (h : s.updateDelivery id (fun d => { d with latestStatus := row.status }) = .ok s')
    (ht : s'.createDeliveryStatusRow row = .ok t) : Writes cfg s (.updateDeliveryStatus id dto user) t
  | drop {id : Id} {t : DB} (h : s.deleteDelivery id = .ok t) : Writes cfg s (.deleteDelivery id) t
  | invoice {dto : PayOsRequestDto} {id : Id} {p : Payment} {t : DB}
    (h : s.createPayment id p = .ok t) : Writes cfg s (.createPayOSPayment dto) t
  | settle {body : WebhookType} {o : Order} {t : DB} (h : webhookTransaction body s = .ok (o, t)) :
    Writes cfg s (.handleWebhook body) t

/-! ### Calls on orders -/

section Orders

variable {dto : UpdateStatusDto} {order : Order}

lemma steps_chargeFault (hrefl : ∀ s, G s s)
    (hcharge : ∀ s t studentId n ban, s.chargeStudent studentId n ban = .ok t → G s t) :
    (chargeFault cfg order).Steps G := by
  unfold chargeFault
  rcases order.studentId with _ | studentId
  · exact steps_throw _
  refine Steps.bind (steps_read _ hrefl) fun student => ?_
  rcases student with _ | student
  · exact steps_throw _
  dsimp only
  rcases student.dormitory with _ | dormitory
  · exact steps_throw _
  refine Steps.bind (steps_read _ hrefl) fun banThreshold => ?_
  exact steps_execute hrefl fun i s t h => hcharge s t _ _ _ h

/-- The statements of a status change. -/
lemma steps_updateStatus (hrefl : ∀ s, G s s)
    (hcharge : charges dto →
      ∀ s t studentId n ban, s.chargeStudent studentId n ban = .ok t → G s t)
    (hcash : dto.status = .delivered → ∀ s, G s { s with orders := s.orders.modify id payCash })
    (hchange : ∀ i s, id ∈ s.orders → G s (recorded i id dto s)) :
    (updateStatus cfg id dto user).Steps G := by
  unfold updateStatus
  refine (steps_read _ hrefl).bind fun order => ?_
  rcases order with _ | order
  · exact steps_throw _
  refine (steps_throwIf _ _).bind fun _ => ?_
  refine (steps_throwIf _ _).bind fun _ => ?_
  refine Steps.bind (Steps.when fun hst => ?_) fun _ => ?_
  · unfold checkCancel
    refine (steps_throwIf _ _).bind fun _ => ?_
    refine (steps_throwIf _ _).bind fun _ => ?_
    refine (steps_throwIf _ _).bind fun _ => ?_
    exact Steps.when fun htype => steps_chargeFault hrefl (hcharge ⟨hst, htype⟩)
  · unfold changeStatus recordStatus
    refine (steps_throwIf _ _).bind fun _ => ?_
    refine Steps.bind (Steps.when fun hpays => ?_) fun _ => ?_
    · refine steps_execute hrefl fun i s t h => ?_
      obtain ⟨_, _, _, rfl⟩ := DB.updateOrder_ok h
      exact hcash hpays.2.1 s
    refine Steps.bind (Steps.when fun _ => steps_sendFullNotification hrefl _) fun _ => ?_
    exact (steps_createOrderStatusHistory hrefl hchange).bind fun _ => steps_pure _

theorem updateStatus_steps :
    (updateStatus cfg id dto user).Steps fun s t => Writes cfg s (.updateStatus id dto user) t :=
  steps_updateStatus (fun _ => .none) (fun h _ _ _ _ _ ht => .charge h ht) (fun h _ => .cash h)
    fun i _ hid => .change i hid

end Orders

section Creation

variable {dto : CreateOrderDto}

/-- What creations write. -/
abbrev Creates (cfg : Config) (dto : CreateOrderDto) (user : GetUserType) (s t : DB) : Prop :=
  Writes cfg s (.createOrder dto user) t

/-- An acceptance inside a creation. -/
lemma accept_creates :
    (updateStatus cfg id (.only .accepted) user).Steps (Creates cfg dto user) :=
  steps_updateStatus (fun _ => .none) (fun h => by cases h.1) (fun h => by cases h)
    fun i _ hid => .log i .accepted hid

lemma log_creates {status : OrderStatus} :
    (createOrderStatusHistory id status none .undefined .undefined .undefined).Steps
      (Creates cfg dto user) :=
  steps_createOrderStatusHistory (fun _ => .none) fun i _ hid => .log i status hid

lemma insertOrder_creates {e : Except Exn Order}
    (he : ∀ row, e = .ok row → studentRow cfg dto user = .ok row ∨ adminRow dto = .ok row) :
    (insertOrder e).Steps (Creates cfg dto user) := by
  unfold insertOrder
  refine Steps.bind (steps_atomic (fun i s a t h => ?_) fun _ => .none) fun _ => ?_
  · obtain ⟨row, hrow, h⟩ := ok_of_bind h
    obtain ⟨s', hc, h⟩ := ok_of_bind h
    cases h
    obtain ⟨hid, -, rfl⟩ := DB.createOrder_ok hc
    exact .insert (he row hrow) hid
  · exact log_creates.bind fun _ => steps_pure _

lemma claimOrder_creates {existingOrder : Order} :
    (claimOrder cfg dto user id existingOrder).Steps (Creates cfg dto user) := by
  unfold claimOrder
  refine Steps.bind (steps_execute (fun _ => .none) fun i s t h => ?_) fun _ => ?_
  · obtain ⟨_, _, _, rfl⟩ := DB.updateOrderData_ok h
    exact .claim
  refine accept_creates.bind fun _ => log_creates.bind fun _ => ?_
  exact (steps_read _ fun _ => .none).bind fun _ => (steps_read _ fun _ => .none).bind fun _ =>
    steps_pure _

theorem createOrder_steps : (createOrder cfg dto user).Steps (Creates cfg dto user) := by
  have hrefl : ∀ s, Creates cfg dto user s s := fun _ => .none
  refine Steps.ite (fun _ => ?_) fun _ => Steps.ite (fun _ => ?_) fun _ => steps_throw _
  · unfold createOrderByStudent
    refine (Steps.ite (fun _ => steps_throw _) fun _ => steps_pure _).bind fun _ => ?_
    refine (steps_read _ hrefl).bind fun fullUser => ?_
    rcases fullUser with _ | fullUser
    · exact steps_throw _
    refine (steps_throwIf _ _).bind fun _ => ?_
    refine (steps_read _ hrefl).bind fun now => ?_
    refine (steps_throwIf _ _).bind fun _ => ?_
    refine (steps_findExistingOrder hrefl).bind fun found => ?_
    rcases found with _ | ⟨id, existingOrder⟩
    · refine (insertOrder_creates fun row h => .inl h).bind fun newOrder => ?_
      refine (steps_read _ hrefl).bind fun historyTime => ?_
      exact (steps_service hrefl).bind fun _ => steps_pure _
    · refine Steps.ite (fun _ => claimOrder_creates) fun _ => ?_
      exact Steps.ite (fun _ => steps_throw _) fun _ => steps_throw _
  · unfold createOrderByAdmin
    refine (Steps.ite (fun _ => steps_throw _) fun _ => steps_pure _).bind fun _ => ?_
    refine (steps_findExistingOrder hrefl).bind fun found => ?_
    rcases found with _ | ⟨id, existingOrder⟩
    · refine (insertOrder_creates fun row h => .inr h).bind fun newOrder => ?_
      exact (steps_read _ hrefl).bind fun _ => steps_pure _
    · refine Steps.ite (fun _ => steps_throw _) fun _ => ?_
      unfold confirmOrder
      refine accept_creates.bind fun _ => log_creates.bind fun _ => ?_
      refine (steps_sendFullNotification hrefl _).bind fun _ => ?_
      exact (steps_read _ hrefl).bind fun _ => (steps_read _ hrefl).bind fun _ => steps_pure _

end Creation

theorem updateOrderInfo_steps {dto : CreateOrderDto} : (updateOrderInfo cfg id dto user).Steps
    fun s t => Writes cfg s (.updateOrderInfo id dto user) t := by
  unfold updateOrderInfo
  refine (steps_read _ fun _ => .none).bind fun order => ?_
  rcases order with _ | order
  · exact steps_throw _
  refine (Steps.ite (fun _ => steps_throw _) fun _ => steps_pure _).bind fun _ => ?_
  refine Steps.bind (steps_execute (fun _ => .none) fun i s t h => ?_) fun _ => ?_
  · obtain ⟨_, _, _, rfl⟩ := DB.updateOrderData_ok h
    exact .edit
  exact (steps_read _ fun _ => .none).bind fun _ => (steps_read _ fun _ => .none).bind fun _ =>
    steps_pure _

theorem deleteOrder_steps : (deleteOrder id user).Steps
    fun s t => Writes cfg s (.deleteOrder id user) t := by
  unfold deleteOrder
  refine (steps_read _ fun _ => .none).bind fun order => ?_
  refine (steps_read _ fun _ => .none).bind fun latest => ?_
  rcases order with _ | order
  · exact steps_throw _
  refine (Steps.ite (fun _ => steps_throw _) fun _ => steps_pure _).bind fun _ => ?_
  refine Steps.bind (Steps.when fun _ => ?_) fun _ => ?_
  · cases latest with
    | none => exact steps_throw _
    | some row => exact steps_throwIf _ _
  exact (steps_execute (fun _ => .none) fun i s t h => .remove h).bind fun _ => steps_pure _

theorem delayOrders_steps {dto : DelayOrdersDto} : (delayOrders cfg dto).Steps
    fun s t => Writes cfg s (.delayOrders dto) t := by
  unfold delayOrders
  refine (steps_read _ fun _ => .none).bind fun orders => ?_
  refine (steps_throwIf _ _).bind fun _ => ?_
  refine (steps_throwIf _ _).bind fun _ => ?_
  refine (steps_throwIf _ _).bind fun _ => ?_
  exact (steps_execute (fun _ => .none) fun i s t h => .delay h).bind fun _ => steps_pure _

/-! ### Calls on trips and payments -/

lemma steps_generateUniqueId (hrefl : ∀ s, G s s) {retries : ℕ} :
    (generateUniqueId retries).Steps G := by
  induction retries with
  | zero => exact steps_throw _
  | succ retries ih =>
    exact (steps_read _ hrefl).bind fun _ => Steps.ite (fun _ => ih) fun _ => steps_pure _

theorem createDelivery_steps {dto : CreateDeliveryDto} : (createDelivery dto).Steps
    fun s t => Writes cfg s (.createDelivery dto) t := by
  unfold createDelivery
  refine (steps_read _ fun _ => .none).bind fun orders => ?_
  refine (steps_throwIf _ _).bind fun _ => ?_
  refine (steps_throwIf _ _).bind fun _ => ?_
  refine (steps_read _ fun _ => .none).bind fun now => ?_
  refine (steps_generateUniqueId fun _ => .none).bind fun displayId => ?_
  refine Steps.bind (steps_atomic (fun i s a t h => ?_) fun _ => .none) fun _ => ?_
  · obtain ⟨s', h, heq⟩ := ok_of_bind h
    cases heq
    exact .plan rfl h
  · exact (Steps.when fun _ => steps_sendFullNotification (fun _ => .none) _).bind fun _ =>
      steps_pure _

theorem updateDelivery_steps {dto : UpdateDeliveryDto} : (updateDelivery id dto).Steps
    fun s t => Writes cfg s (.updateDelivery id dto) t := by
  unfold updateDelivery
  refine (steps_read _ fun _ => .none).bind fun delivery => ?_
  rcases delivery with _ | delivery
  · exact steps_throw _
  refine (steps_throwIf _ _).bind fun _ => ?_
  refine (steps_throwIf _ _).bind fun _ => ?_
  rcases hids : dto.orderIds with _ | _ | orderIds
  · exact steps_throw _
  · exact steps_throw _
  refine (steps_read _ fun _ => .none).bind fun orders => ?_
  refine (steps_throwIf _ _).bind fun _ => ?_
  refine (steps_throwIf _ _).bind fun _ => ?_
  refine steps_executeReturning (fun _ => .none) fun i s t h => ?_
  obtain ⟨s', hu, ht⟩ := ok_of_bind h
  refine .replan hids ?_ hu ht
  exact fun _ => rfl

/-- What status changes of trips write. -/
abbrev Moves (cfg : Config) (id : Id) (dto : UpdateDeliveryStatusDto) (user : GetUserType)
    (s t : DB) : Prop :=
  Writes cfg s (.updateDeliveryStatus id dto user) t

section Trips

variable {dto : UpdateDeliveryStatusDto} {delivery : Delivery} {orders : List (Id × Order)}

lemma writeDeliveryStatus_moves {status : DeliveryStatus} {reason canceledImage : Arg String}
    (hst : status = .canceled ∨ status = dto.status) :
    (writeDeliveryStatus id status reason canceledImage).Steps (Moves cfg id dto user) := by
  refine steps_executeReturning (fun _ => .none) fun i s t h => ?_
  obtain ⟨s', hu, hrow⟩ := ok_of_bind h
  exact .move rfl hst hu hrow

lemma promiseAll_moves {branch : Id × Order → Async Unit}
    (h : ∀ e, (branch e).Steps (Moves cfg id dto user)) :
    (promiseAll (orders.map branch)).Steps (Moves cfg id dto user) := by
  refine Steps.all fun c hc => ?_
  obtain ⟨e, -, rfl⟩ := List.mem_map.mp hc
  exact h e

lemma log_moves {orderId : Id} {status : OrderStatus} {reason : Option String}
    {canceledImage : Arg String} :
    (createOrderStatusHistory orderId status reason canceledImage .undefined .undefined).Steps
      (Moves cfg id dto user) :=
  steps_createOrderStatusHistory (fun _ => .none) fun i _ hid => .order i _ _ _ hid

theorem updateDeliveryStatus_steps :
    (updateDeliveryStatus id dto user).Steps (Moves cfg id dto user) := by
  unfold updateDeliveryStatus
  refine (steps_read _ fun _ => .none).bind fun isGoingDelivery => ?_
  refine (steps_throwIf _ _).bind fun _ => ?_
  refine (steps_read _ fun _ => .none).bind fun found => ?_
  rcases found with _ | ⟨delivery, orders⟩
  · exact steps_throw _
  refine Steps.ite (fun _ => ?_) fun _ => ?_
  · unfold cancelDelivery
    refine (steps_throwIf _ _).bind fun _ => ?_
    refine Steps.bind (promiseAll_moves fun e => ?_) fun _ => ?_
    · exact log_moves.bind fun _ => steps_sendFullNotification (fun _ => .none) _
    · exact (steps_sendFullNotification (fun _ => .none) _).bind fun _ =>
        writeDeliveryStatus_moves (.inr rfl)
  · unfold advanceDelivery
    refine (steps_throwIf _ _).bind fun _ => ?_
    refine Steps.bind (Steps.when fun _ => promiseAll_moves fun e => log_moves) fun _ => ?_
    refine (steps_throwIf _ _).bind fun _ => ?_
    refine (steps_sendFullNotification (fun _ => .none) _).bind fun _ =>
      writeDeliveryStatus_moves ?_
    split
    · exact .inl rfl
    · exact .inr rfl

end Trips

theorem deleteDelivery_steps : (deleteDelivery id).Steps
    fun s t => Writes cfg s (.deleteDelivery id) t := by
  unfold deleteDelivery
  refine (steps_read _ fun _ => .none).bind fun delivery => ?_
  rcases delivery with _ | delivery
  · exact steps_throw _
  refine (steps_read _ fun _ => .none).bind fun latest => ?_
  rcases latest with _ | row
  · exact steps_throw _
  refine (steps_throwIf _ _).bind fun _ => ?_
  exact (steps_execute (fun _ => .none) fun i s t h => .drop h).bind fun _ => steps_pure _

theorem createPayOSPayment_steps {dto : PayOsRequestDto} : (createPayOSPayment dto).Steps
    fun s t => Writes cfg s (.createPayOSPayment dto) t := by
  unfold createPayOSPayment
  rcases dto.orderId with _ | _ | orderId
  · exact steps_throw _
  · exact steps_throw _
  refine (steps_read _ fun _ => .none).bind fun order => ?_
  rcases order with _ | order
  · exact steps_throw _
  refine (steps_read _ fun _ => .none).bind fun now => ?_
  refine (steps_service fun _ => .none).bind fun _ => ?_
  exact steps_execute (fun _ => .none) fun i s t h => .invoice h

theorem handleWebhook_steps {body : WebhookType} : (handleWebhook cfg body).Steps
    fun s t => Writes cfg s (.handleWebhook body) t := by
  unfold handleWebhook processWebhook
  refine Steps.tryCatch ?_ fun _ => steps_pure _
  refine (steps_throwIf _ _).bind fun _ => ?_
  refine Steps.when fun _ => ?_
  refine Steps.bind (steps_atomic (fun _ s a t h => .settle h) fun _ => .none) fun o => ?_
  exact steps_sendFullNotification (fun _ => .none) _

/-- **The steps of a request**, whatever comes between them. -/
theorem call_steps (r : Request) : (r.call cfg).Steps fun s t => Writes cfg s r t := by
  cases r with
  | createOrder dto user => exact createOrder_steps.bind fun _ => steps_pure _
  | updateOrderInfo id dto user => exact updateOrderInfo_steps.bind fun _ => steps_pure _
  | updateStatus id dto user => exact updateStatus_steps.bind fun _ => steps_pure _
  | deleteOrder id user => exact deleteOrder_steps.bind fun _ => steps_pure _
  | delayOrders dto => exact delayOrders_steps.bind fun _ => steps_pure _
  | createDelivery dto => exact createDelivery_steps.bind fun _ => steps_pure _
  | updateDelivery id dto => exact updateDelivery_steps.bind fun _ => steps_pure _
  | updateDeliveryStatus id dto user =>
    exact updateDeliveryStatus_steps.bind fun _ => steps_pure _
  | deleteDelivery id => exact deleteDelivery_steps.bind fun _ => steps_pure _
  | createPayOSPayment dto => exact createPayOSPayment_steps
  | handleWebhook body => exact handleWebhook_steps

end TsaBackend.RequestSteps
