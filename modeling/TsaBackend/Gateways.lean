import TsaBackend.Notifications
import TsaBackend.Payments
import TsaBackend.PubSub

/-!
The gateways of the sockets: `geolocation/geolocation.gateway.ts`, `payment/payment.gateway.ts`,
and the webhook of `payment/payment.service.impl.ts` with all it tells the student.

Both gateways share one server. The pipe that validates the bodies of requests does not see
messages: their values are what the client of the socket wrote.
-/

namespace TsaBackend

open Call (throwIf when)

abbrev SocketId : Type := ℕ

/-- A value of a message: absent, `null`, a string, or another value by its JSON. -/
inductive MessageValue
  | undefined
  | null
  | text (id : Id)
  | other (json : String)
  deriving DecidableEq, Repr

/-- The values of a position are passed on as they came, by their JSON. -/
structure LocationUpdateDto where
  orderId : MessageValue
  staffId : MessageValue
  latitude : Option String
  longitude : Option String
  isFinished : Option String
  deriving DecidableEq, Repr

/-- `Omit<LocationUpdateDto, 'orderId'>` -/
structure LocationData where
  staffId : MessageValue
  latitude : Option String
  longitude : Option String
  isFinished : Option String
  deriving DecidableEq, Repr

def LocationUpdateDto.locationData (data : LocationUpdateDto) : LocationData where
  staffId := data.staffId
  latitude := data.latitude
  longitude := data.longitude
  isFinished := data.isFinished

structure PaymentUpdate where
  orderId : Id
  isPaid : Bool
  remainingAmount : Option Money
  deriving DecidableEq, Repr

inductive SocketEvent
  | locationUpdate (data : LocationData)
  | paymentUpdate (data : PaymentUpdate)
  deriving DecidableEq, Repr

abbrev SocketOp : Type := BrokerOp SocketId String SocketEvent

/-- The tables and queues, with what the server of the sockets was asked for, the last first. -/
structure GatewayDB extends NoticeDB where
  sockets : List SocketOp

structure GatewayConfig extends AuthConfig where
  /-- The server of the sockets. -/
  io : Broker SocketId String SocketEvent
  /-- The string that an id is. -/
  idText : Id → String
  /-- A value in a template literal; the conversion of an object can throw. -/
  jsonText : String → Option String
  /-- What a value keeps as a filter on a column of ids; the client refuses some values. -/
  jsonFilter : String → Option (Option Id → Bool)
  /-- `toUpperCase` of a text. -/
  toUpperCase : String → String
  /-- `toLocaleString('vi-VN', { style: 'currency', currency: 'VND' })` of an amount. -/
  formatVnd : Money → String

abbrev GatewayCall (α : Type) : Type := Call GatewayDB NoticeInput Exn α

def socketLens : Lens GatewayDB NoticeDB where
  get := GatewayDB.toNoticeDB
  set s t := { t with toNoticeDB := s }
  get_set _ _ := rfl
  set_get _ := rfl
  set_set _ _ _ := rfl

/-- A call of the services on the whole store. -/
def onGateway {α : Type} (c : NoticeCall α) : GatewayCall α := c.zoom socketLens id

/-- A value in a template literal. -/
def template (cfg : GatewayConfig) : MessageValue → GatewayCall String
  | .undefined => pure "undefined"
  | .null => pure "null"
  | .text id => pure (cfg.idText id)
  | .other json =>
    match cfg.jsonText json with
    | none => throw (.error "Cannot convert object to primitive value")
    | some text => pure text

/-- A value in a filter on a column of ids. -/
def MessageValue.field (cfg : GatewayConfig) : MessageValue → Field Id
  | .undefined => .undefined
  | .null => .null
  | .text id => .val id
  | .other json =>
    match cfg.jsonFilter json with
    | none => .other none none
    | some f => .filter f

/-- A step of a gateway on its sockets. -/
def onSockets (op : SocketOp) : GatewayCall Unit :=
  .atomic fun _ s => .ok ((), { s with sockets := op :: s.sockets })

namespace GeolocationGateway

variable (cfg : GatewayConfig)

def getRoom (shipperId : MessageValue) : GatewayCall String := do
  return "shipper:" ++ (← template cfg shipperId)

/-- The token of an `Authorization` header. -/
def bearer (authorization : Option String) : Option String :=
  let parts := authorization.map fun header => (header.toList.splitOn ' ').map String.ofList
  match parts.getD [] with
  | type :: token :: _ => if type = "Bearer" ∧ token ≠ "" then some token else none
  | _ => none

/-- The middleware lets a request pass: what has a session id in its query is no handshake for it
and needs no token. -/
def afterInit (sid authorization : Option String) (now : ℕ) : Bool :=
  let isHandshake := sid.isNone
  if isHandshake then ((bearer authorization).bind (cfg.jwtVerify · now)).isSome else true

/-- A request that the middleware lets pass and that the server takes for a handshake connects its
socket; the server takes an empty session id for none. -/
def handleConnection (socket : SocketId) (sid authorization : Option String) : GatewayCall Unit :=
  .atomic fun i s =>
    if afterInit cfg sid authorization i.now then
      .ok ((), { s with sockets := .connect socket :: s.sockets })
    else .error (.error "Phiên đăng nhập không hợp lệ.")

def handleDisconnect (socket : SocketId) : GatewayCall Unit := onSockets (.disconnect socket)

def handleSubscribeToShipper (shipperId : MessageValue) (socket : SocketId) :
    GatewayCall Unit := do
  onSockets (.join (← getRoom cfg shipperId) socket)

def handleUnsubscribeFromOrder (shipperId : MessageValue) (socket : SocketId) :
    GatewayCall Unit := do
  onSockets (.leave (← getRoom cfg shipperId) socket)

def isStaffAuthorizedToUpdateLocation (staffId orderId : MessageValue) : GatewayCall Bool :=
  .atomic fun i s =>
    if ¬ i.ok then .error .rejected
    else if ¬ ((orderId.field cfg).filters false ∧ (staffId.field cfg).filters true) then
      .error (.prisma .validation)
    else .ok ((s.orders.findFirst i.pick fun id o =>
      (orderId.field cfg).keeps (some id) && (staffId.field cfg).keeps o.shipperId).isSome, s)

/-- The packet of a socket comes in while it is connected. -/
def packet (socket : SocketId) : GatewayCall Unit :=
  .atomic fun _ s => if cfg.io.connected s.sockets socket then .ok ((), s) else .error .rejected

def handleEvent (data : LocationUpdateDto) (socket : SocketId) : GatewayCall Unit := do
  packet cfg socket
  let allowed ← isStaffAuthorizedToUpdateLocation cfg data.staffId data.orderId
  throwIf (¬ allowed) (.error "Bạn không có quyền cập nhật vị trí cho đơn hàng này.")
  onSockets (.emit (← getRoom cfg data.staffId) (some socket) (.locationUpdate data.locationData))

end GeolocationGateway

/-! ### Payments, and calls that run together -/

namespace PaymentGateway

variable (cfg : GatewayConfig)

def getPaymentRoom (orderId : MessageValue) : GatewayCall String := do
  return "payment:" ++ (← template cfg orderId)

def handleSubscribeToPayment (orderId : MessageValue) (client : SocketId) :
    GatewayCall Unit := do
  onSockets (.join (← getPaymentRoom cfg orderId) client)

def handleUnsubscribeFromPayment (orderId : MessageValue) (client : SocketId) :
    GatewayCall Unit := do
  onSockets (.leave (← getPaymentRoom cfg orderId) client)

def notifyPaymentUpdate (orderId : Id) (data : PaymentUpdate) : GatewayCall Unit := do
  onSockets (.emit (← getPaymentRoom cfg (.text orderId)) none (.paymentUpdate data))

end PaymentGateway

namespace PaymentService

/-- The transaction of the webhook, with the id of the order. -/
def updateOrder (body : WebhookType) (s : DB) : Except Exn ((Id × Order) × DB) :=
  match s.findPayment (toString body.orderCode) with
  | none => .error (.error "Payment not found")
  | some (_, payment) => do
    let (updatedOrder, s) ← webhookTransaction body s
    return ((payment.orderId, updatedOrder), s)

def title (updatedOrder : Order) : String :=
  if updatedOrder.isPaid then "Thanh toán thành công" else "Thanh toán một phần"

def content (cfg : GatewayConfig) (amount : Money) (updatedOrder : Order) : String :=
  let code := shortenUUID cfg.toUpperCase updatedOrder.checkCode .order
  if updatedOrder.isPaid then "Đơn hàng " ++ code ++ " đã được thanh toán thành công"
  else "Đã thanh toán " ++ cfg.formatVnd amount ++ " \n           cho đơn hàng " ++ code ++
    ". Còn lại " ++ cfg.formatVnd (updatedOrder.remainingAmount.getD 0)

/-- What the student is told in the app. -/
def notification (cfg : GatewayConfig) (amount : Money) (id : Id) (updatedOrder : Order) :
    FullNotification where
  message := content cfg amount updatedOrder
  title := title updatedOrder
  type := .order
  userId := updatedOrder.studentId
  orderId := .val id
  deliveryId := .null
  reportId := .null

/-- What the sockets are told. -/
def update (id : Id) (updatedOrder : Order) : PaymentUpdate where
  orderId := id
  isPaid := updatedOrder.isPaid
  remainingAmount := updatedOrder.remainingAmount

def processWebhook (cfg : GatewayConfig) (body : WebhookType) : GatewayCall Unit := do
  throwIf (¬ cfg.verifyPaymentWebhookData body) (.error "Invalid signature")
  when (body.orderCode ≠ 123) do
    let (id, updatedOrder) ← (.atomic fun _ s => (updateOrder body s.toDB).map fun (o, t) =>
      (o, { s with toDB := t }) : GatewayCall (Id × Order))
    onGateway (NotificationsService.sendFullNotification
      (notification cfg body.amount id updatedOrder))
    PaymentGateway.notifyPaymentUpdate cfg id (update id updatedOrder)

/-- Every exception is caught and logged. -/
def handleWebhook (cfg : GatewayConfig) (body : WebhookType) : GatewayCall Unit :=
  tryCatch (processWebhook cfg body) fun _ => pure ()

end PaymentService

/-- What runs at the same time: the handshakes and messages of all sockets, webhooks, and calls
that are not about sockets. -/
inductive GatewayRequest
  | connect (socket : SocketId) (sid authorization : Option String)
  | disconnect (socket : SocketId)
  | subscribeToShipper (shipperId : MessageValue) (socket : SocketId)
  | unsubscribeFromShipper (shipperId : MessageValue) (socket : SocketId)
  | subscribeToPayment (orderId : MessageValue) (socket : SocketId)
  | unsubscribeFromPayment (orderId : MessageValue) (socket : SocketId)
  | locationUpdate (data : LocationUpdateDto) (socket : SocketId)
  | handleWebhook (body : WebhookType)
  | other (c : GatewayCall Unit)

open GeolocationGateway PaymentGateway in
def GatewayRequest.call (cfg : GatewayConfig) : GatewayRequest → GatewayCall Unit
  | .connect socket sid authorization => handleConnection cfg socket sid authorization
  | .disconnect socket => handleDisconnect socket
  | .subscribeToShipper shipperId socket => handleSubscribeToShipper cfg shipperId socket
  | .unsubscribeFromShipper shipperId socket => handleUnsubscribeFromOrder cfg shipperId socket
  | .subscribeToPayment orderId socket => handleSubscribeToPayment cfg orderId socket
  | .unsubscribeFromPayment orderId socket => handleUnsubscribeFromPayment cfg orderId socket
  | .locationUpdate data socket => handleEvent cfg data socket
  | .handleWebhook body => PaymentService.handleWebhook cfg body
  | .other c => c

def gatewayCalls (cfg : GatewayConfig) (requests : List GatewayRequest) : List (GatewayCall Unit) :=
  requests.map (·.call cfg)

namespace Sample

/-- An order with a shipper and two payments, and no sockets yet. -/
def gatewayDB : GatewayDB where
  toNoticeDB := { noticeDB with
    toDB := { dbWithPayments with orders := AList.insert 10 { order with shipperId := some 3 } ∅ } }
  sockets := []

/-- One token, which is accepted for some time; ids of sockets are made of one letter. -/
def gatewayConfig : GatewayConfig where
  toConfig := config
  jwtSign _ _ _ _ := "token"
  jwtVerify token now :=
    if token = "token" ∧ now < 2000 then some (.user "an@hcmut.edu.vn" .student 1) else none
  bcryptHash password _ := password
  bcryptCompare password hash := password = hash
  verifyIdToken _ _ := none
  appUrl := "https://tsa"
  mobileUrlCompleteSignup := "tsa://complete"
  frontendUrlCompleteSignup := "https://tsa/complete"
  io := .ofLog fun socket => String.ofList (List.replicate socket 'x')
  idText id := toString id
  jsonText json := some json
  jsonFilter _ := none
  toUpperCase := id
  formatVnd amount := toString amount.floor ++ " ₫"

end Sample

end TsaBackend
