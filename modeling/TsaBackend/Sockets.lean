import TsaBackend.Ledger
import TsaBackend.Rooms

/-!
Who is sent what over the sockets.

Each message goes once to those in the room of its subject, and what a socket receives can be traced
back to the requests it comes from.
-/

namespace TsaBackend.Sockets

open Call GeolocationGateway PaymentGateway

variable {cfg : GatewayConfig} {s t : GatewayDB} {r : GatewayRequest}
  {requests : List GatewayRequest} {socket : SocketId}

/-- What a socket has been sent. -/
def inbox (cfg : GatewayConfig) (socket : SocketId) (s : GatewayDB) : Multiset SocketEvent :=
  cfg.io.received s.sockets socket

/-- What a socket is sent with a message on a subject: the message, if the socket is in the room and
the message is not its own. -/
structure Sent (cfg : GatewayConfig) (s : GatewayDB) (subject : Subject)
    (sender : Option SocketId) (event : SocketEvent) (socket : SocketId)
    (paid : Multiset SocketEvent) : Prop where
  told : Subscribed cfg s subject socket → sender ≠ some socket → paid = {event}
  untold : ¬ (Subscribed cfg s subject socket ∧ sender ≠ some socket) → paid = 0

/-- What a value of a message lets through of a column of ids. -/
inductive Allows (cfg : GatewayConfig) : MessageValue → Option Id → Prop
  | undefined (x : Option Id) : Allows cfg .undefined x
  | null : Allows cfg .null none
  | text (id : Id) : Allows cfg (.text id) (some id)
  | filter {json : String} {f : Option Id → Bool} {x : Option Id}
      (hjson : cfg.jsonFilter json = some f) (hx : f x = true) : Allows cfg (.other json) x

/-- There is an order of this id and this shipper, as far as the location tells them. -/
def OrderFor (cfg : GatewayConfig) (data : LocationUpdateDto) (s : GatewayDB) : Prop :=
  ∃ id o, s.orders.lookup id = some o ∧ Allows cfg data.orderId (some id) ∧
    Allows cfg data.staffId o.shipperId

/-- A location is passed on to those in the room of its shipper: the sender was connected when the
message came in, and there was such an order when it was looked for. -/
def Relays (cfg : GatewayConfig) (data : LocationUpdateDto) (sender socket : SocketId)
    (past : Past GatewayDB NoticeInput) (paid : Multiset SocketEvent) : Prop :=
  ∃ i s i₁ s₁ i₀ s₀, past = [(i, s), (i₁, s₁), (i₀, s₀)] ∧ Connected cfg s₀ sender ∧
    OrderFor cfg data s₁ ∧ Sent cfg s (.shipper data.staffId) (some sender)
      (.locationUpdate ⟨data.staffId, data.latitude, data.longitude, data.isFinished⟩) socket paid

/-- The transaction of a webhook goes through, for the order of the payment of its code: what is
left to pay is less by its amount, and the order is paid when nothing is. -/
structure Settles (body : WebhookType) (s : DB) (data : PaymentUpdate) : Prop where
  payment : ∃ paymentId payment, s.payments.lookup paymentId = some payment ∧
    payment.orderCode = toString body.orderCode ∧ payment.orderId = data.orderId
  amount : ∃ order, s.orders.lookup data.orderId = some order ∧
    data.remainingAmount = some (order.remainingAmount.getD 0 - body.amount) ∧
    (data.isPaid = true ↔ order.remainingAmount.getD 0 ≤ body.amount)
  /-- The message is what the transaction leaves in the row of the order. -/
  row : ∃ o t, PaymentService.updateOrder body s = .ok ((data.orderId, o), t) ∧
    ∃ order, t.orders.lookup data.orderId = some order ∧
      order.isPaid = data.isPaid ∧ order.remainingAmount = data.remainingAmount

/-- A payment is reported to those in the room of its order, with what the transaction of the
webhook has left. -/
def Reports (cfg : GatewayConfig) (body : WebhookType) (socket : SocketId)
    (past : Past GatewayDB NoticeInput) (paid : Multiset SocketEvent) : Prop :=
  ∃ i s before, past = (i, s) :: before ∧ cfg.verifyPaymentWebhookData body = true ∧
    body.orderCode ≠ 123 ∧ ∃ e ∈ before, ∃ data, Settles body e.2.toDB data ∧
      Sent cfg s (.payment (.text data.orderId)) none (.paymentUpdate data) socket paid

/-- What a request sends to a socket. -/
def Tells (cfg : GatewayConfig) (socket : SocketId) :
    GatewayRequest → Past GatewayDB NoticeInput → Multiset SocketEvent → Prop
  | .locationUpdate data sender, past, paid => Relays cfg data sender socket past paid
  | .handleWebhook body, past, paid => Reports cfg body socket past paid
  | _, _, _ => False

/-- A location that was not refused has been passed on. -/
def MayBeSilent (r : GatewayRequest) (_ : Unit) (_ : Past GatewayDB NoticeInput) : Prop :=
  ∀ data sender, r ≠ .locationUpdate data sender

lemma SameSockets.keeps (h : SameSockets s t) : Keeps (inbox cfg socket) s t := by
  unfold Keeps inbox
  rw [h]

lemma deposits_room {α : Type} {val : GatewayDB → Multiset SocketEvent}
    {past : Past GatewayDB NoticeInput} {subject : Subject} {f : String → GatewayCall α}
    {amount : Past GatewayDB NoticeInput → Multiset SocketEvent → Prop}
    {Q : α → Past GatewayDB NoticeInput → Prop}
    (hf : ∀ room, Room cfg subject room → (f room).Deposits val amount Q past) :
    (roomOf cfg subject >>= f).Deposits val amount Q past := by
  rcases roomOf_cases cfg subject with ⟨room, hroom, heq⟩ | ⟨e, heq⟩
  · rw [heq, pure_bind]
    exact hf room hroom
  · rw [heq]
    exact deposits_throw e

lemma deposits_emit (laws : SocketLaws cfg.io) {past : Past GatewayDB NoticeInput}
    (subject : Subject) {sender : Option SocketId} {event : SocketEvent}
    {amount : Past GatewayDB NoticeInput → Multiset SocketEvent → Prop}
    {Q : Unit → Past GatewayDB NoticeInput → Prop}
    (h : ∀ i s paid, Sent cfg s subject sender event socket paid → amount ((i, s) :: past) paid) :
    (roomOf cfg subject >>= fun room => onSockets (.emit room sender event)).Deposits
      (inbox cfg socket) amount Q past := by
  refine deposits_room fun room hroom => deposits_atomic fun i s a t ht => ?_
  cases ht
  unfold inbox
  by_cases htold : cfg.io.subscribed s.sockets room socket ∧ sender ≠ some socket
  · obtain ⟨hs, hne⟩ := htold
    refine ⟨{event}, h i s _ ⟨fun _ _ => rfl, fun hnot => ?_⟩, ?_⟩
    · exact absurd ⟨(subscribed_iff hroom).mpr hs, hne⟩ hnot
    · rw [laws.lawful.received_to _ _ _ _ _ hs hne, ← Multiset.coe_add, Multiset.coe_singleton]
  · refine ⟨0, h i s _ ⟨fun hs hne => ?_, fun _ => rfl⟩, ?_⟩
    · exact absurd ⟨(subscribed_iff hroom).mp hs, hne⟩ htold
    · rw [laws.lawful.received_past _ _ _ _ _ htold, add_zero]

lemma allows_of_keeps {v : MessageValue} {x : Option Id}
    (h : (v.field cfg).keeps x = true) : Allows cfg v x := by
  cases v with
  | undefined => exact .undefined x
  | null =>
    obtain rfl := Option.isNone_iff_eq_none.mp h
    exact .null
  | text id =>
    obtain rfl := beq_iff_eq.mp h
    exact .text id
  | other json =>
    unfold MessageValue.field at h
    dsimp only at h
    rcases hjson : cfg.jsonFilter json with _ | f
    · rw [hjson] at h
      cases h
    · rw [hjson] at h
      exact .filter hjson h

lemma handleEvent_deposits (laws : SocketLaws cfg.io) {data : LocationUpdateDto}
    {sender : SocketId} : (handleEvent cfg data sender).Deposits (inbox cfg socket)
      (Relays cfg data sender socket) (MayBeSilent (.locationUpdate data sender)) [] := by
  unfold handleEvent
  refine Deposits.bind (deposits_read fun i₀ s₀ a t h => ?_)
  split at h
  swap
  · cases h
  next hconnected =>
  cases h
  refine ⟨rfl, Deposits.bind (deposits_read fun i₁ s₁ allowed t h => ?_)⟩
  split at h
  · cases h
  split at h
  · cases h
  cases h
  refine ⟨rfl, deposits_throwIf fun hallowed => ?_⟩
  rw [not_not] at hallowed
  have horder : OrderFor cfg data s₁ := by
    obtain ⟨⟨id, o⟩, hfound⟩ := Option.isSome_iff_exists.mp hallowed
    obtain ⟨hlookup, hkeeps⟩ := Table.findFirst_some hfound
    rw [Bool.and_eq_true] at hkeeps
    exact ⟨id, o, hlookup, allows_of_keeps hkeeps.1, allows_of_keeps hkeeps.2⟩
  exact deposits_emit laws (.shipper data.staffId) fun i s paid hpaid =>
    ⟨i, s, i₁, s₁, i₀, s₀, rfl, hconnected, horder, hpaid⟩

lemma updateOrder_settles {body : WebhookType} {s t : DB} {id : Id} {o : Order}
    (h : PaymentService.updateOrder body s = .ok ((id, o), t)) :
    Settles body s (PaymentService.update id o) := by
  have hrun := h
  unfold PaymentService.updateOrder at h
  rcases hp : s.findPayment (toString body.orderCode) with _ | ⟨paymentId, payment⟩
  · rw [hp] at h
    cases h
  rw [hp] at h
  obtain ⟨⟨o', t'⟩, htransaction, heq⟩ := ok_of_bind h
  cases heq
  unfold webhookTransaction at htransaction
  rw [hp] at htransaction
  dsimp only at htransaction
  rcases ho : s.orders.lookup payment.orderId with _ | order
  · rw [ho] at htransaction
    cases htransaction
  rw [ho] at htransaction
  obtain ⟨s₁, h₁, htransaction⟩ := ok_of_bind htransaction
  obtain ⟨s₂, h₂, heq⟩ := ok_of_bind htransaction
  cases heq
  obtain ⟨hlookup, hcode⟩ := Table.findFirst_some hp
  obtain ⟨-, -, -, rfl⟩ := DB.updateOrder_ok h₁
  obtain ⟨-, rfl⟩ := DB.updatePayment_ok h₂
  have hrow : (s.orders.modify payment.orderId
      (payOrder (newRemainingAmount order body.amount))).lookup payment.orderId =
        some (payOrder (newRemainingAmount order body.amount) order) := by
    rw [Table.lookup_modify, ho]
    simp
  exact {
    payment := ⟨paymentId, payment, hlookup, of_decide_eq_true hcode, rfl⟩
    amount := ⟨order, ho, rfl, by simp [PaymentService.update, payOrder, newRemainingAmount]⟩
    row := ⟨_, _, hrun, _, hrow, rfl, rfl⟩ }

lemma processWebhook_deposits (laws : SocketLaws cfg.io) {body : WebhookType} :
    (PaymentService.processWebhook cfg body).Deposits (inbox cfg socket) (Reports cfg body socket)
      (MayBeSilent (.handleWebhook body)) [] := by
  have hsilent : MayBeSilent (.handleWebhook body) () [] := by simp [MayBeSilent]
  unfold PaymentService.processWebhook
  refine deposits_throwIf fun hverified => Deposits.when (fun hcode => ?_) fun _ => hsilent
  rw [not_not] at hverified
  refine Deposits.bind (deposits_read fun i s o t h => ?_)
  rcases hu : PaymentService.updateOrder body s.toDB with e | ⟨⟨id, o'⟩, t'⟩
  · rw [hu] at h
    cases h
  rw [hu] at h
  cases h
  refine ⟨rfl, Deposits.bind (Steps.deposits_after ((onGateway_sameSockets _).mono fun _ _ =>
    SameSockets.keeps) fun _ past hpast => ?_)⟩
  have hmem : (i, s) ∈ past := hpast.subset (by simp)
  exact deposits_emit laws (.payment (.text id)) fun i' s' paid hpaid =>
    ⟨i', s', past, rfl, hverified, hcode, _, hmem, _, updateOrder_settles hu, hpaid⟩

lemma SocketStep.keeps (laws : SocketLaws cfg.io) (hr : ¬ Emits r) (h : SocketStep cfg r s t) :
    Keeps (inbox cfg socket) s t := by
  have hother : ∀ {op}, t.sockets = op :: s.sockets → ¬ Broker.Sends op →
      Keeps (inbox cfg socket) s t := by
    intro op h hop
    unfold Keeps inbox
    rw [h, laws.lawful.received_other _ _ _ hop]
  cases h with
  | same _ h => exact SameSockets.keeps h
  | connect _ _ h => exact hother h not_false
  | disconnect _ h => exact hother h not_false
  | join _ _ h => exact hother h not_false
  | leave _ _ h => exact hother h not_false
  | emit hemits _ => exact absurd hemits hr

/-- **What a request sends to a socket**, whatever happens between its steps. -/
theorem call_deposits (laws : SocketLaws cfg.io)
    (hother : ∀ c, r = .other c → c.Steps SameSockets) :
    (r.call cfg).Deposits (inbox cfg socket) (Tells cfg socket r) (MayBeSilent r) [] := by
  by_cases hr : Emits r
  · cases r with
    | locationUpdate data sender => exact handleEvent_deposits laws
    | handleWebhook body =>
      exact (processWebhook_deposits laws).tryCatch (fun _ => steps_pure _) (by simp [MayBeSilent])
    | _ => exact hr.elim
  · refine ((call_sockets hother).mono fun _ _ => SocketStep.keeps laws hr).deposits
      fun _ _ data sender => ?_
    rintro rfl
    exact hr trivial

lemma told_run (laws : SocketLaws cfg.io) (hother : OthersKeep requests)
    (sched : List (ℕ × NoticeInput)) (socket : SocketId) :
    ∃ told : ℕ → Multiset SocketEvent,
      inbox cfg socket (interleave s (gatewayCalls cfg requests) sched).1 =
        inbox cfg socket s + ∑ k ∈ Finset.range requests.length, told k ∧
      ∀ k r, requests[k]? = some r → Accounted s (gatewayCalls cfg requests) sched
        (Tells cfg socket r) (MayBeSilent r) k (told k) :=
  deposits_map (fun _ hr => call_deposits laws fun c hc => hother c (hc ▸ hr)) sched

/-- **Each message goes out once**: whatever runs in between, a socket has been sent what it had
before, and for each location and each webhook what it is sent in one turn of it, where it is in the
room of the subject then; every location that has not been refused has gone out. -/
theorem events_accounted (laws : SocketLaws cfg.io) (hother : OthersKeep requests)
    (sched : List (ℕ × NoticeInput)) (socket : SocketId) :
    ∃ told : ℕ → Multiset SocketEvent,
      inbox cfg socket (interleave s (gatewayCalls cfg requests) sched).1 =
        inbox cfg socket s + ∑ k ∈ Finset.range requests.length, told k ∧
      ∀ k r, requests[k]? = some r → Accounted s (gatewayCalls cfg requests) sched
        (Tells cfg socket r) (MayBeSilent r) k (told k) := told_run laws hother sched socket

theorem events_accounted_sample :
    (∃ told : ℕ → Multiset SocketEvent,
      inbox Sample.gatewayConfig 7 (interleave Sample.gatewayDB
          (gatewayCalls Sample.gatewayConfig samplePool) sampleSched).1 =
        inbox Sample.gatewayConfig 7 Sample.gatewayDB +
          ∑ k ∈ Finset.range samplePool.length, told k ∧
      ∀ k r, samplePool[k]? = some r →
        Accounted Sample.gatewayDB (gatewayCalls Sample.gatewayConfig samplePool) sampleSched
          (Tells Sample.gatewayConfig 7 r) (MayBeSilent r) k (told k)) ∧
    Sample.gatewayConfig.io.received (interleave Sample.gatewayDB
        (gatewayCalls Sample.gatewayConfig samplePool) sampleSched).1.sockets 7 =
      [.locationUpdate sampleLocation, .paymentUpdate samplePayment] :=
  ⟨events_accounted sample_laws sample_others sampleSched 7, by decide +kernel⟩

/-! ### Where messages come from -/

/-- The message of a location update: what it has been through before it reaches a socket. -/
structure Relayed (cfg : GatewayConfig) (requests : List GatewayRequest) (s : GatewayDB)
    (sched : List (ℕ × NoticeInput)) (socket : SocketId) (dto : LocationUpdateDto)
    (sender : SocketId) (k n : ℕ) : Prop where
  turn : ∃ i, sched[n]? = some (k, i)
  request : requests[k]? = some (.locationUpdate dto sender)
  sender_ne : sender ≠ socket
  /-- The socket has asked for the shipper of the message, and not given it up since. -/
  subscribed : SubscribedSince cfg requests s (.shipper dto.staffId) socket (sched.take n)
  /-- The sender had been let in when the message came in. -/
  connected : ∃ m < n, (∃ i, sched[m]? = some (k, i)) ∧
    ConnectedSince cfg requests s sender (sched.take m)
  /-- There was such an order when the gateway asked for it. -/
  order : ∃ m < n, (∃ i, sched[m]? = some (k, i)) ∧
    OrderFor cfg dto (before s (gatewayCalls cfg requests) sched m).1

lemma exists_turn (laws : SocketLaws cfg.io) (hother : OthersKeep requests) (hs : s.sockets = [])
    {sched : List (ℕ × NoticeInput)} {event : SocketEvent}
    (h : event ∈ cfg.io.received
      (interleave s (gatewayCalls cfg requests) sched).1.sockets socket) :
    ∃ k n i r paid, sched[n]? = some (k, i) ∧ requests[k]? = some r ∧ event ∈ paid ∧
      Tells cfg socket r ((i, (before s (gatewayCalls cfg requests) sched n).1) ::
        pastOf s (gatewayCalls cfg requests) sched k n) paid := by
  obtain ⟨told, htotal, htold⟩ := @told_run cfg s requests laws hother sched socket
  have hmem : event ∈ inbox cfg socket (interleave s (gatewayCalls cfg requests) sched).1 :=
    Multiset.mem_coe.mpr h
  have hnone : inbox cfg socket s = 0 := by
    rw [inbox, hs, laws.lawful.received_nil]
    rfl
  rw [htotal, hnone, zero_add] at hmem
  obtain ⟨k, hk, hmem⟩ := Multiset.mem_sum.mp hmem
  obtain ⟨r, hr⟩ : ∃ r, requests[k]? = some r :=
    ⟨_, List.getElem?_eq_getElem (Finset.mem_range.mp hk)⟩
  rcases htold k r hr with ⟨hzero, -⟩ | ⟨n, i, hn, htells⟩
  · rw [hzero] at hmem
    cases Multiset.notMem_zero _ hmem
  · exact ⟨k, n, i, r, _, hn, hr, hmem, htells⟩

lemma Sent.of_mem {subject : Subject} {sender : Option SocketId} {event event' : SocketEvent}
    {paid : Multiset SocketEvent} (h : Sent cfg s subject sender event socket paid)
    (hmem : event' ∈ paid) :
    event' = event ∧ Subscribed cfg s subject socket ∧ sender ≠ some socket := by
  by_cases htold : Subscribed cfg s subject socket ∧ sender ≠ some socket
  · rw [h.told htold.1 htold.2, Multiset.mem_singleton] at hmem
    exact ⟨hmem, htold⟩
  · rw [h.untold htold] at hmem
    cases Multiset.notMem_zero _ hmem

lemma subscribed_before (laws : SocketLaws cfg.io) (hother : OthersKeep requests)
    (hs : s.sockets = []) {sched : List (ℕ × NoticeInput)} {subject : Subject} {n : ℕ}
    (h : Subscribed cfg (before s (gatewayCalls cfg requests) sched n).1 subject socket) :
    SubscribedSince cfg requests s subject socket (sched.take n) := by
  refine (subscribed_run laws hother ?_).mp h
  rintro ⟨room, -, hbefore⟩
  rw [hs] at hbefore
  exact laws.lawful.subscribed_nil _ _ hbefore

/-- **Where a location comes from**: from the start of the server on, whatever runs in between, a
location reaches a socket only from another one that had been let in, after an order was found of
the id and the shipper it tells, and only while the socket is told about that shipper. -/
theorem location_received (laws : SocketLaws cfg.io) (hother : OthersKeep requests)
    (hs : s.sockets = []) (sched : List (ℕ × NoticeInput)) {data : LocationData}
    (h : .locationUpdate data ∈ cfg.io.received
      (interleave s (gatewayCalls cfg requests) sched).1.sockets socket) :
    ∃ dto sender k n,
      data = ⟨dto.staffId, dto.latitude, dto.longitude, dto.isFinished⟩ ∧
      Relayed cfg requests s sched socket dto sender k n := by
  obtain ⟨k, n, i, r, paid, hn, hr, hmem, htells⟩ := exists_turn laws hother hs h
  cases r with
  | locationUpdate dto sender =>
    obtain ⟨_, _, i₁, s₁, i₀, s₀, hpast, hconnected, horder, hsent⟩ := htells
    obtain ⟨hhead, htail⟩ := List.cons.inj hpast
    cases hhead
    obtain ⟨hevent, hsubscribed, hne⟩ := hsent.of_mem hmem
    cases hevent
    have hturns : ∀ e ∈ [(i₁, s₁), (i₀, s₀)], ∃ m < n, sched[m]? = some (k, e.1) ∧
        e.2 = (before s (gatewayCalls cfg requests) sched m).1 := by
      rw [← htail]
      exact fun _ => mem_pastOf
    obtain ⟨m₁, hm₁, hturn₁, rfl⟩ := hturns (i₁, s₁) (by simp)
    obtain ⟨m₀, hm₀, hturn₀, rfl⟩ := hturns (i₀, s₀) (by simp)
    have hstart : ¬ Connected cfg s sender := by
      unfold Connected
      rw [hs]
      exact laws.lawful.connected_nil sender
    exact ⟨dto, sender, k, n, rfl, {
      turn := ⟨i, hn⟩
      request := hr
      sender_ne := fun heq => hne (congrArg some heq)
      subscribed := subscribed_before laws hother hs hsubscribed
      connected := ⟨m₀, hm₀, ⟨i₀, hturn₀⟩, connected_since laws hother _ hstart hconnected⟩
      order := ⟨m₁, hm₁, ⟨i₁, hturn₁⟩, horder⟩ }⟩
  | handleWebhook body =>
    obtain ⟨_, _, _, -, -, -, _, -, _, -, hsent⟩ := htells
    cases (hsent.of_mem hmem).1
  | _ => exact htells.elim

theorem location_received_sample :
    ∃ dto sender k n,
      sampleLocation = ⟨dto.staffId, dto.latitude, dto.longitude, dto.isFinished⟩ ∧
      Relayed Sample.gatewayConfig samplePool Sample.gatewayDB sampleSched 7 dto sender k n :=
  location_received sample_laws sample_others rfl sampleSched (by decide +kernel)

/-- The message of a payment: the webhook it comes from. -/
structure Reported (cfg : GatewayConfig) (requests : List GatewayRequest) (s : GatewayDB)
    (sched : List (ℕ × NoticeInput)) (socket : SocketId) (data : PaymentUpdate)
    (body : WebhookType) (k n : ℕ) : Prop where
  turn : ∃ i, sched[n]? = some (k, i)
  request : requests[k]? = some (.handleWebhook body)
  verified : cfg.verifyPaymentWebhookData body = true
  /-- The transaction has left this of the order. -/
  settled : ∃ m < n, (∃ i, sched[m]? = some (k, i)) ∧
    Settles body (before s (gatewayCalls cfg requests) sched m).1.toDB data
  /-- The socket has asked for the payment of this order, and not given it up since. -/
  subscribed : SubscribedSince cfg requests s (.payment (.text data.orderId)) socket (sched.take n)

/-- **Where a payment update comes from**: from the start of the server on, whatever runs in
between, it is what the transaction of a webhook with a valid signature has left of the order, and
reaches a socket only while it is told about the payment of that order. -/
theorem payment_received (laws : SocketLaws cfg.io) (hother : OthersKeep requests)
    (hs : s.sockets = []) (sched : List (ℕ × NoticeInput)) {data : PaymentUpdate}
    (h : .paymentUpdate data ∈ cfg.io.received
      (interleave s (gatewayCalls cfg requests) sched).1.sockets socket) :
    ∃ body k n, Reported cfg requests s sched socket data body k n := by
  obtain ⟨k, n, i, r, paid, hn, hr, hmem, htells⟩ := exists_turn laws hother hs h
  cases r with
  | locationUpdate dto sender =>
    obtain ⟨_, _, _, _, _, _, -, -, -, hsent⟩ := htells
    cases (hsent.of_mem hmem).1
  | handleWebhook body =>
    obtain ⟨_, _, _, hpast, hverified, -, e, he, _, hsettles, hsent⟩ := htells
    obtain ⟨hhead, rfl⟩ := List.cons.inj hpast
    cases hhead
    obtain ⟨hevent, hsubscribed, -⟩ := hsent.of_mem hmem
    cases hevent
    obtain ⟨m, hm, hturn, he⟩ := mem_pastOf he
    rw [he] at hsettles
    exact ⟨body, k, n, {
      turn := ⟨i, hn⟩
      request := hr
      verified := hverified
      settled := ⟨m, hm, ⟨_, hturn⟩, hsettles⟩
      subscribed := subscribed_before laws hother hs hsubscribed }⟩
  | _ => exact htells.elim

theorem payment_received_sample :
    ∃ body k n, Reported Sample.gatewayConfig samplePool Sample.gatewayDB sampleSched 7
      samplePayment body k n :=
  payment_received sample_laws sample_others rfl sampleSched (by decide +kernel)

end TsaBackend.Sockets
