import TsaBackend.NoticeSteps
import TsaBackend.Notified
import TsaBackend.Simulation

/-!
The calls that notify do to the tables what the calls on the tables alone do.

The steps of a notification leave the tables; for the calls on the tables it is a request to a
service that answers or does not. What holds of all pools of the one then holds of the other.
-/

namespace TsaBackend.Refinement

open Call NoticeSteps

variable {cfg : GatewayConfig} {α β : Type}

/-- The input of the call on the tables: what is read, and whether the service answers. -/
def Answers (i : NoticeInput) (i' : Input) : Prop := ∃ ok, i' = { i.toInput with ok }

/-- What a call does to the tables is what the other call does. -/
def Refines (c : GatewayCall α) (d : Async α) : Prop := c.Simulates storeLens.get Answers d

lemma refines_onStore (d : Async α) : Refines (onStore d) d :=
  simulates_zoom (fun i => ⟨i.ok, rfl⟩) d

lemma Refines.bind {c : GatewayCall α} {d : Async α} {f : α → GatewayCall β} {g : α → Async β}
    (h : Refines c d) (hf : ∀ a, Refines (f a) (g a)) : Refines (c >>= f) (d >>= g) :=
  Simulates.bind h hf

/-- The tables of the services of orders and deliveries are the same. -/
def SameTables (s t : NoticeDB) : Prop := t.toDB = s.toDB

lemma step_tables {nc : NoticeConfig} {r : NoticeRequest} {s t : NoticeDB}
    (h : NoticeStep nc SameTables r s t) : SameTables s t := by
  cases h with
  | none => rfl
  | create hr hrow =>
    obtain ⟨-, -, -, rfl⟩ := createNotification_ok hrow
    rfl
  | email => rfl
  | read hrow =>
    obtain ⟨_, -, -, rfl⟩ := readNotification_ok hrow
    rfl
  | readAll => rfl
  | register hdevice =>
    obtain ⟨_, rfl, -⟩ := upsertDevice_ok hdevice
    rfl
  | unregister hdevice =>
    obtain ⟨_, rfl, -⟩ := updateDevice_ok hdevice
    rfl
  | push => rfl
  | send => rfl
  | other hstep => exact hstep

/-- A call on notifications does to the tables what the other call does. -/
lemma refines_onGateway {c : NoticeCall α} {d : Async α}
    (h : c.Simulates (fun s => s.toDB) Answers d) : Refines (onGateway c) d :=
  Simulates.zoom (L := socketLens) (f := id) h

/-- A call without a trace in the tables, as a request to a service. -/
lemma refines_service {c : NoticeCall Unit} (hrun : c.running = true) (h : c.Steps SameTables) :
    Refines (onGateway c) service := by
  refine refines_onGateway (simulates_silent hrun h (fun i s _ => ?_) fun i s => ⟨.rejected, ?_⟩)
  · exact .head { i.toInput with ok := true } ⟨true, rfl⟩ .refl
  · exact .head { i.toInput with ok := false } ⟨false, rfl⟩ .refl

lemma sendNotification_tables (dto : CreateNotificationDto) :
    (NotificationsService.sendNotification dto).Steps SameTables := by
  have hsteps : (NotificationsService.sendNotification dto).Steps
      (NoticeStep ⟨""⟩ SameTables (.sendNotification dto)) := sendNotification_steps rfl
  exact hsteps.mono fun _ _ => step_tables

lemma sendPushNotification_tables (userId : Option Id) (message : PushNotificationMessage) :
    (NotificationsService.sendPushNotification userId message).Steps SameTables := by
  have hsteps : (NotificationsService.sendPushNotification userId message).Steps
      (NoticeStep ⟨""⟩ SameTables (.sendPushNotification userId message)) := by
    refine sendPushNotification_steps fun id hid => ?_
    rw [Option.mem_def.mp hid]
    rfl
  exact hsteps.mono fun _ _ => step_tables

lemma push_refines (userId : Id) (message : PushNotificationMessage) :
    Refines (Notified.sendPushNotification userId message) service :=
  refines_service rfl (sendPushNotification_tables _ _)

/-- **A notification as its caller sees it**: without a user it throws, else it is a request that
may fail. -/
theorem notification_refines (n : FullNotification) :
    Refines (Notified.sendFullNotification n) (sendFullNotification n.userId) := by
  obtain ⟨userId, type, title, message, orderId, deliveryId, reportId⟩ := n
  have hstored : ∀ dto, (do
      let _ ← NotificationsService.sendNotification dto : NoticeCall Unit).Steps SameTables :=
    fun dto => (sendNotification_tables dto).bind fun _ => steps_pure _
  cases userId with
  | none => exact refines_onGateway (simulates_par_throw _ _ (hstored _))
  | some userId =>
    refine refines_service rfl (Steps.all fun c hc => ?_)
    rcases List.mem_pair.mp hc with rfl | rfl
    · exact hstored _
    · exact sendPushNotification_tables _ _

lemma recordStatus_refines (id : Id) (dto : UpdateStatusDto) (order : Order) :
    Refines (Notified.recordStatus cfg id dto order) (recordStatus id dto order) := by
  unfold Notified.recordStatus recordStatus
  refine Refines.bind (Simulates.when fun _ => notification_refines _) fun _ => ?_
  exact (refines_onStore _).bind fun _ => simulates_pure _

lemma changeStatus_refines (id : Id) (dto : UpdateStatusDto) (user : GetUserType) (order : Order) :
    Refines (Notified.changeStatus cfg id dto user order) (changeStatus id dto user order) := by
  unfold Notified.changeStatus changeStatus
  refine Refines.bind simulates_throwIf fun _ => ?_
  refine Refines.bind (Simulates.when fun _ => refines_onStore _) fun _ => ?_
  exact recordStatus_refines id dto order

lemma updateStatus_refines (id : Id) (dto : UpdateStatusDto) (user : GetUserType) :
    Refines (Notified.updateStatus cfg id dto user) (updateStatus cfg.toConfig id dto user) := by
  unfold Notified.updateStatus updateStatus
  refine (refines_onStore _).bind fun found => ?_
  cases found with
  | none => exact simulates_throw _ _
  | some order =>
    refine Refines.bind simulates_throwIf fun _ => ?_
    refine Refines.bind simulates_throwIf fun _ => ?_
    refine Refines.bind (Simulates.when fun _ => refines_onStore _) fun _ => ?_
    exact changeStatus_refines id dto user order

lemma claimOrder_refines (dto : CreateOrderDto) (user : GetUserType) (id : Id) (order : Order) :
    Refines (Notified.claimOrder cfg dto user id order)
      (claimOrder cfg.toConfig dto user id order) := by
  unfold Notified.claimOrder claimOrder
  refine (refines_onStore _).bind fun _ => ?_
  refine (updateStatus_refines id _ user).bind fun _ => ?_
  refine (refines_onStore _).bind fun _ => ?_
  refine (refines_onStore _).bind fun historyTime => ?_
  exact (refines_onStore _).bind fun latestStatus => simulates_pure _

lemma placeOrder_refines (dto : CreateOrderDto) (user : GetUserType) :
    Refines (Notified.placeOrder cfg dto user) (placeOrder cfg.toConfig dto user) := by
  unfold Notified.placeOrder placeOrder
  refine (refines_onStore _).bind fun existing => ?_
  cases existing with
  | some existing =>
    refine Simulates.ite (fun _ => claimOrder_refines dto user _ _) fun _ => ?_
    exact Simulates.ite (fun _ => simulates_throw _ _) fun _ => simulates_throw _ _
  | none =>
    refine (refines_onStore _).bind fun newOrder => ?_
    refine (refines_onStore _).bind fun historyTime => ?_
    exact (push_refines _ _).bind fun _ => simulates_pure _

lemma createOrderByStudent_refines (dto : CreateOrderDto) (user : GetUserType) :
    Refines (Notified.createOrderByStudent cfg dto user)
      (createOrderByStudent cfg.toConfig dto user) := by
  unfold Notified.createOrderByStudent createOrderByStudent
  refine (refines_onStore _).bind fun _ => ?_
  refine (refines_onStore _).bind fun fullUser => ?_
  cases fullUser with
  | none => exact simulates_throw _ _
  | some fullUser =>
    refine Refines.bind simulates_throwIf fun _ => ?_
    refine (refines_onStore _).bind fun now => ?_
    exact Refines.bind simulates_throwIf fun _ => placeOrder_refines dto user

lemma confirmOrder_refines (user : GetUserType) (id : Id) (order : Order) :
    Refines (Notified.confirmOrder cfg user id order)
      (confirmOrder cfg.toConfig user id order) := by
  unfold Notified.confirmOrder confirmOrder
  refine (updateStatus_refines id _ user).bind fun _ => ?_
  refine (refines_onStore _).bind fun _ => ?_
  refine (notification_refines _).bind fun _ => ?_
  refine (refines_onStore _).bind fun historyTime => ?_
  exact (refines_onStore _).bind fun latestStatus => simulates_pure _

lemma createOrderByAdmin_refines (dto : CreateOrderDto) (user : GetUserType) :
    Refines (Notified.createOrderByAdmin cfg dto user)
      (createOrderByAdmin cfg.toConfig dto user) := by
  unfold Notified.createOrderByAdmin createOrderByAdmin
  refine (refines_onStore _).bind fun _ => ?_
  refine (refines_onStore _).bind fun existing => ?_
  cases existing with
  | some existing =>
    exact Simulates.ite (fun _ => simulates_throw _ _) fun _ => confirmOrder_refines user _ _
  | none =>
    refine (refines_onStore _).bind fun newOrder => ?_
    exact (refines_onStore _).bind fun historyTime => simulates_pure _

lemma createOrder_refines (dto : CreateOrderDto) (user : GetUserType) :
    Refines (Notified.createOrder cfg dto user) (createOrder cfg.toConfig dto user) := by
  unfold Notified.createOrder createOrder
  refine Simulates.ite (fun _ => createOrderByStudent_refines dto user) fun _ => ?_
  exact Simulates.ite (fun _ => createOrderByAdmin_refines dto user) fun _ => simulates_throw _ _

/-- A statement that does to the tables what one on the tables does. -/
lemma execute_refines {f : NoticeInput → GatewayDB → Except Exn (Unit × GatewayDB)}
    {g : Input → DB → Except Exn DB}
    (hfg : ∀ i s, (f i s).map (fun x => x.2.toDB) = g i.toInput s.toDB) :
    Refines (.atomic f) (execute g) := by
  refine simulates_atomic fun i s => ⟨i.toInput, ⟨i.ok, rfl⟩, ?_⟩
  change (g i.toInput s.toDB).map _ = _
  rw [← hfg]
  rcases f i s with e | ⟨⟨⟩, t⟩ <;> rfl

lemma deleteOrder_refines (id : Id) (user : GetUserType) :
    Refines (Notified.deleteOrder id user) (deleteOrder id user) := by
  unfold Notified.deleteOrder deleteOrder
  refine (refines_onStore _).bind fun order => ?_
  refine (refines_onStore _).bind fun latest => ?_
  cases order with
  | none => exact simulates_throw _ _
  | some order =>
    refine (refines_onStore _).bind fun _ => ?_
    refine Refines.bind (Simulates.when fun _ => refines_onStore _) fun _ => ?_
    refine Refines.bind (execute_refines fun i s => ?_) fun _ => simulates_pure _
    rcases s.toDB.deleteOrder id with e | t <;> rfl

/-! ### Trips, payments and pools -/

lemma createDelivery_refines (dto : CreateDeliveryDto) :
    Refines (Notified.createDelivery dto) (createDelivery dto) := by
  unfold Notified.createDelivery createDelivery
  refine (refines_onStore _).bind fun orders => ?_
  refine Refines.bind simulates_throwIf fun _ => ?_
  refine Refines.bind simulates_throwIf fun _ => ?_
  refine (refines_onStore _).bind fun now => ?_
  refine (refines_onStore _).bind fun displayId => ?_
  refine (refines_onStore _).bind fun newDelivery => ?_
  refine Refines.bind (Simulates.when fun _ => notification_refines _) fun _ => ?_
  exact simulates_pure _

lemma cancelOrder_refines (id : Id) (dto : UpdateDeliveryStatusDto) (e : Id × Order) :
    Refines (Notified.cancelOrder cfg id dto e) (cancelOrder dto e) := by
  unfold Notified.cancelOrder cancelOrder
  exact (refines_onStore _).bind fun _ => notification_refines _

lemma promiseAll_refines {γ : Type} {f : γ → GatewayCall Unit} {g : γ → Async Unit} (l : List γ)
    (h : ∀ e, Refines (f e) (g e)) :
    Refines (Notified.promiseAll (l.map f)) (promiseAll (l.map g)) := by
  refine Simulates.all (fun k i i' hi => ?_) ?_
  · obtain ⟨ok, rfl⟩ := hi
    rfl
  · rw [List.forall₂_map_left_iff, List.forall₂_map_right_iff]
    exact List.forall₂_same.mpr fun e _ => h e

lemma cancelDelivery_refines (id : Id) (dto : UpdateDeliveryStatusDto) (delivery : Delivery)
    (orders : List (Id × Order)) : Refines (Notified.cancelDelivery cfg id dto delivery orders)
      (cancelDelivery id dto delivery orders) := by
  unfold Notified.cancelDelivery cancelDelivery
  refine Refines.bind simulates_throwIf fun _ => ?_
  refine (promiseAll_refines _ (cancelOrder_refines id dto)).bind fun _ => ?_
  exact (notification_refines _).bind fun _ => refines_onStore _

lemma advanceDelivery_refines (id : Id) (dto : UpdateDeliveryStatusDto) (delivery : Delivery)
    (orders : List (Id × Order)) : Refines (Notified.advanceDelivery id dto delivery orders)
      (advanceDelivery id dto delivery orders) := by
  unfold Notified.advanceDelivery advanceDelivery
  refine Refines.bind simulates_throwIf fun _ => ?_
  refine Refines.bind (Simulates.when fun _ => ?_) fun _ => ?_
  · exact promiseAll_refines _ fun e => refines_onStore (transportOrder e)
  refine Refines.bind simulates_throwIf fun _ => ?_
  exact (notification_refines _).bind fun _ => refines_onStore _

lemma updateDeliveryStatus_refines (id : Id) (dto : UpdateDeliveryStatusDto) (user : GetUserType) :
    Refines (Notified.updateDeliveryStatus cfg id dto user) (updateDeliveryStatus id dto user) := by
  unfold Notified.updateDeliveryStatus updateDeliveryStatus
  refine (refines_onStore _).bind fun isGoingDelivery => ?_
  refine Refines.bind simulates_throwIf fun _ => ?_
  refine (refines_onStore _).bind fun found => ?_
  cases found with
  | none => exact simulates_throw _ _
  | some found =>
    refine Simulates.ite (fun _ => cancelDelivery_refines id dto _ _) fun _ => ?_
    exact advanceDelivery_refines id dto _ _

lemma deleteDelivery_refines (id : Id) :
    Refines (Notified.deleteDelivery id) (deleteDelivery id) := by
  unfold Notified.deleteDelivery deleteDelivery
  refine (refines_onStore _).bind fun delivery => ?_
  cases delivery with
  | none => exact simulates_throw _ _
  | some delivery =>
    refine (refines_onStore _).bind fun latest => ?_
    cases latest with
    | none => exact simulates_throw _ _
    | some row =>
      refine Refines.bind simulates_throwIf fun _ => ?_
      refine Refines.bind (execute_refines fun i s => ?_) fun _ => simulates_pure _
      rcases s.toDB.deleteDelivery id with e | t <;> rfl

lemma webhookTransaction_eq (body : WebhookType) (s : DB) :
    webhookTransaction body s = (PaymentService.updateOrder body s).map fun x => (x.1.2, x.2) := by
  unfold PaymentService.updateOrder
  split
  · next h =>
    unfold webhookTransaction
    rw [h]
    rfl
  · rcases webhookTransaction body s with e | ⟨order, t⟩ <;> rfl

/-- The transaction, followed by what is told about the order. -/
lemma webhookTransaction_bind (body : WebhookType) (f : Order → Async Unit) :
    (.atomic fun _ s => webhookTransaction body s : Async Order) >>= f =
      (.atomic fun _ s => PaymentService.updateOrder body s : Async (Id × Order)) >>=
        fun o => f o.2 := by
  refine congrArg₂ Call.act (funext fun i => funext fun s => ?_) (funext fun i => funext fun s => ?_)
  · simp only [webhookTransaction_eq]
    rcases PaymentService.updateOrder body s with e | ⟨o, t⟩ <;> rfl
  · simp only [webhookTransaction_eq]
    rcases PaymentService.updateOrder body s with e | ⟨o, t⟩ <;> rfl

/-- What the sockets are told leaves the tables. -/
lemma notifyPaymentUpdate_refines (orderId : Id) (data : PaymentUpdate) :
    Refines (PaymentGateway.notifyPaymentUpdate cfg orderId data) (Pure.pure ()) :=
  simulates_skip fun _ _ => ⟨_, rfl, rfl⟩

lemma processWebhook_refines (body : WebhookType) :
    Refines (PaymentService.processWebhook cfg body) (processWebhook cfg.toConfig body) := by
  unfold PaymentService.processWebhook processWebhook
  refine Refines.bind simulates_throwIf fun _ => Simulates.when fun _ => ?_
  rw [webhookTransaction_bind]
  refine Refines.bind (simulates_atomic fun i s => ⟨i.toInput, ⟨i.ok, rfl⟩, ?_⟩) fun o => ?_
  · change PaymentService.updateOrder body s.toDB = _
    rcases PaymentService.updateOrder body s.toDB with e | ⟨o, t⟩ <;> rfl
  have hsend := (notification_refines (PaymentService.notification cfg body.amount o.1 o.2)).bind
    fun _ => @notifyPaymentUpdate_refines cfg o.1 (PaymentService.update o.1 o.2)
  rwa [bind_pure_unit] at hsend

lemma handleWebhook_refines (body : WebhookType) :
    Refines (PaymentService.handleWebhook cfg body) (handleWebhook cfg.toConfig body) :=
  (processWebhook_refines body).tryCatch fun _ _ => simulates_pure ()

/-- **One request.** -/
lemma notified_refines (cfg : GatewayConfig) (r : Request) :
    Refines (r.notified cfg) (r.call cfg.toConfig) := by
  have hdrop : ∀ {α : Type} {c : GatewayCall α} {d : Async α}, Refines c d →
      Refines (do let _ ← c) (do let _ ← d) := fun h => h.bind fun _ => simulates_pure ()
  cases r with
  | createOrder dto user => exact hdrop (createOrder_refines dto user)
  | updateStatus id dto user => exact hdrop (updateStatus_refines id dto user)
  | createDelivery dto => exact hdrop (createDelivery_refines dto)
  | updateDeliveryStatus id dto user => exact hdrop (updateDeliveryStatus_refines id dto user)
  | handleWebhook body => exact handleWebhook_refines body
  | deleteOrder id user => exact hdrop (deleteOrder_refines id user)
  | deleteDelivery id => exact hdrop (deleteDelivery_refines id)
  | updateOrderInfo | delayOrders | updateDelivery | createPayOSPayment =>
    exact refines_onStore _

/-- **Notifications do not change what the services do**: whatever requests run at the same time,
with all they tell students, shippers and sockets, the same requests without it, their turns in
the same order and some of the sends refused, leave the same tables and end the same way. -/
theorem requests_refined (cfg : GatewayConfig) (requests : List Request) (s : GatewayDB)
    (sched : List (ℕ × NoticeInput)) : ∃ blocks : List (ℕ × List Input),
      List.Forall₂ (fun e b => b.1 = e.1 ∧ ∀ i ∈ b.2, Answers e.2 i) sched blocks ∧
      let x := interleave s (requests.map (·.notified cfg)) sched
      let y := interleave s.toDB (requests.map (·.call cfg.toConfig)) (flatten blocks)
      x.1.toDB = y.1 ∧ ∀ k : ℕ,
        (x.2[k]? = some (.pure ()) → y.2[k]? = some (.pure ())) ∧
        ((∃ e, x.2[k]? = some (.throw e)) → ∃ e, y.2[k]? = some (.throw e)) := by
  have hstart : PoolSimulates storeLens.get Answers (s, requests.map (·.notified cfg))
      (s.toDB, requests.map (·.call cfg.toConfig)) := by
    refine ⟨rfl, fun k c hc => ?_⟩
    rw [List.getElem?_map, Option.map_eq_some_iff] at hc
    obtain ⟨r, hr, rfl⟩ := hc
    exact ⟨r.call cfg.toConfig, by rw [List.getElem?_map, hr]; rfl, notified_refines cfg r⟩
  obtain ⟨blocks, hblocks, hview, hcalls⟩ := hstart.run sched
  refine ⟨blocks, hblocks, hview, fun k => ⟨fun hk => ?_, ?_⟩⟩
  · obtain ⟨d, hd, hsim⟩ := hcalls k _ hk
    cases hsim
    exact hd
  · rintro ⟨e, hk⟩
    obtain ⟨d, hd, e', rfl⟩ := hcalls k _ hk
    exact ⟨e', hd⟩

end TsaBackend.Refinement
