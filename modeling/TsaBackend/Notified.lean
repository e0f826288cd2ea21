import TsaBackend.Gateways
import TsaBackend.Requests

/-!
The calls of the other services with all they tell students and shippers: the notifications of
`orders/orders.service.impl.ts` and `deliveries/deliveries.service.impl.ts`, with their texts.

The parts of a call that tell nobody anything are those of its model on the tables alone.
-/

namespace TsaBackend

open Call (throwIf when)

/-- The tables of the services of orders, deliveries and payments. -/
def storeLens : Lens GatewayDB DB where
  get s := s.toDB
  set s t := { t with toDB := s }
  get_set _ _ := rfl
  set_get _ := rfl
  set_set _ _ _ := rfl

/-- A call on these tables. -/
def onStore {α : Type} (c : Async α) : GatewayCall α := c.zoom storeLens NoticeInput.toInput

namespace Notified

variable (cfg : GatewayConfig)

def sendFullNotification (n : FullNotification) : GatewayCall Unit :=
  onGateway (NotificationsService.sendFullNotification n)

def sendPushNotification (userId : Id) (message : PushNotificationMessage) : GatewayCall Unit :=
  onGateway (NotificationsService.sendPushNotification (some userId) message)

/-- The branches of a `Promise.all`. -/
def promiseAll (cs : List (GatewayCall Unit)) : GatewayCall Unit :=
  Call.all (fun k i => i.branch = k) cs

def orderCode (order : Order) : String := shortenUUID cfg.toUpperCase order.checkCode .order

/-- A status in a message to a student. -/
def statusText : OrderStatus → String
  | .canceled => "Bị Hủy"
  | .delivered => "Đã Giao"
  | .rejected => "Bị Từ Chối"
  | .accepted => "Xác nhận"
  | .pending => "Đang chờ xử lý"
  | _ => "Đang vận chuyển"

/-- A message to the student of an order. -/
def orderNotification (id : Id) (order : Order) (title message : String) : FullNotification where
  type := .order
  title
  message
  userId := order.studentId
  orderId := .val id
  deliveryId := .undefined
  reportId := .undefined

def statusNotification (id : Id) (order : Order) (status : OrderStatus) : FullNotification :=
  orderNotification id order "Thay đổi trạng thái đơn hàng"
    ("Đơn hàng " ++ orderCode cfg order ++ " của bạn đã chuyển sang trạng thái " ++
      statusText status)

/-- The student is told, then the change is recorded. -/
def recordStatus (id : Id) (dto : UpdateStatusDto) (order : Order) : GatewayCall String := do
  when order.studentId.isSome (sendFullNotification (statusNotification cfg id order dto.status))
  onStore (createOrderStatusHistory id dto.status (mapReason dto.cancelReasonType dto.reason)
    dto.canceledImage dto.finishedImage dto.receivedImage)
  return "Order status updated"

def changeStatus (id : Id) (dto : UpdateStatusDto) (user : GetUserType) (order : Order) :
    GatewayCall String := do
  throwIf (¬ isValidTransition order.latestStatus dto.status)
    (invalidTransition order.latestStatus dto.status)
  when (paysCash order dto.status user) (onStore (execute fun _ s => s.updateOrder id payCash))
  recordStatus cfg id dto order

def updateStatus (id : Id) (dto : UpdateStatusDto) (user : GetUserType) : GatewayCall String := do
  let some order ← onStore (findOrder id) | throw (.badRequest "Order not found")
  throwIf (dto.status = .receivedExternal ∧ ¬ dto.receivedImage.truthy)
    (.badRequest "Cần phải có hình ảnh khi nhận hàng từ bên ngoài")
  throwIf (dto.status = .delivered ∧ ¬ dto.finishedImage.truthy)
    (.badRequest "Cần phải có hình ảnh khi giao hàng")
  when (dto.status = .canceled) (onStore (checkCancel cfg.toConfig order dto user))
  changeStatus cfg id dto user order

def claimOrder (dto : CreateOrderDto) (user : GetUserType) (id : Id) (existingOrder : Order) :
    GatewayCall CreateOrderResponse := do
  onStore (execute fun _ s => s.updateOrderData id (claimData cfg.toConfig dto user))
  let _ ← updateStatus cfg id (.only .accepted) user
  onStore (createOrderStatusHistory id .accepted none .undefined .undefined .undefined)
  let historyTime ← onStore (getHistoryTimee id)
  let latestStatus ← onStore (getLatestOrderStatus id)
  return { message := "Order updated and status set to ACCEPTED", id
           data := { existingOrder with latestStatus }, historyTime }

def placeOrder (dto : CreateOrderDto) (user : GetUserType) : GatewayCall CreateOrderResponse := do
  match ← onStore (findExistingOrder dto.checkCode dto.brand) with
  | some (id, existingOrder) =>
    if existingOrder.unclaimed then
      claimOrder cfg dto user id existingOrder
    else if existingOrder.studentId.isSome ∧ existingOrder.studentId ≠ some user.id then
      throw (.unauthorized "Đơn hàng này đã thuộc về người khác, bạn không thể tạo đơn hàng này")
    else
      throw (.badRequest "Bạn đã tạo đơn hàng này rồi!")
  | none =>
    let newOrder ← onStore (insertOrder (studentRow cfg.toConfig dto user))
    let historyTime ← onStore (getHistoryTimee newOrder.1)
    sendPushNotification user.id {
      title := "Tạo đơn hàng thành công"
      message := "Đơn hàng " ++ orderCode cfg newOrder.2 ++
        " của bạn đã được tạo thành công. Vui lòng chờ admin xác nhận" }
    return { message := "Order created and status set to PENDING", id := newOrder.1,
             data := newOrder.2, historyTime }

def createOrderByStudent (dto : CreateOrderDto) (user : GetUserType) :
    GatewayCall CreateOrderResponse := do
  onStore (validateUserForOrder user dto .student)
  let some fullUser ← onStore (.read fun _ s => s.users.lookup user.id) | throw .typeError
  throwIf (fullUser.status = .banned)
    (.badRequest "Tài khoản của bạn đã bị khóa, không thể tạo đơn hàng")
  let now ← onStore input
  throwIf (dto.deliveryDate.arg = .val now.today)
    (.badRequest "Ngày giao hàng không được là ngày hôm nay")
  placeOrder cfg dto user

def confirmation (id : Id) (order : Order) : FullNotification :=
  orderNotification id order "Xác nhận đơn hàng"
    ("Đơn hàng Đơn hàng " ++ orderCode cfg order ++ " của bạn đã được xác nhận")

def confirmOrder (user : GetUserType) (id : Id) (existingOrder : Order) :
    GatewayCall CreateOrderResponse := do
  let _ ← updateStatus cfg id (.only .accepted) user
  onStore (createOrderStatusHistory id .accepted none .undefined .undefined .undefined)
  sendFullNotification (confirmation cfg id existingOrder)
  let historyTime ← onStore (getHistoryTimee id)
  let latestStatus ← onStore (getLatestOrderStatus id)
  return { message := "Order updated and status set to ACCEPTED", id
           data := { existingOrder with latestStatus }, historyTime }

def createOrderByAdmin (dto : CreateOrderDto) (user : GetUserType) :
    GatewayCall CreateOrderResponse := do
  onStore (validateUserForOrder user dto .admin)
  match ← onStore (findExistingOrder dto.checkCode dto.brand) with
  | some (id, existingOrder) =>
    if existingOrder.unaddressed then
      throw (.badRequest "Đơn hàng này đã được tạo trước đó từ quản trị viên!")
    else
      confirmOrder cfg user id existingOrder
  | none =>
    let newOrder ← onStore (insertOrder (adminRow dto))
    let historyTime ← onStore (getHistoryTimee newOrder.1)
    return { message := "Order created and status set to PENDING", id := newOrder.1,
             data := newOrder.2, historyTime }

def createOrder (dto : CreateOrderDto) (user : GetUserType) : GatewayCall CreateOrderResponse :=
  if user.role = .student then createOrderByStudent cfg dto user
  else if user.role = .admin then createOrderByAdmin cfg dto user
  else throw (.badRequest "Invalid order creation request")

/-- What the deletion of an order leaves of what points to it: its reports go with it, and the
notifications of both stay without it. -/
def detachOrder (s : NoticeDB) (id : Id) : NoticeDB :=
  { s with
    reports := s.reports.filter fun _ report => report.orderId ≠ id
    notifications := s.notifications.mapRows fun row => { row with
      orderId := row.orderId.filter (· ≠ id)
      reportId := row.reportId.filter fun r =>
        (s.reports.lookup r).all fun report => report.orderId ≠ id } }

def deleteOrder (id : Id) (user : GetUserType) : GatewayCall String := do
  let order ← onStore (findOrder id)
  let latest ← onStore (.read fun i s => s.findLatestStatusRow i.pick id)
  let some order := order | throw (.badRequest "Order not found")
  onStore (validateUserForOrder user order user.role)
  when (user.role = .student) (onStore (checkDelete latest))
  (.atomic fun _ s => (s.toDB.deleteOrder id).map fun t =>
    ((), { s with toNoticeDB := { detachOrder s.toNoticeDB id with toDB := t } }) :
      GatewayCall Unit)
  return "Order deleted"

/-! ### Trips -/

/-- A message to the shipper of a trip. -/
def deliveryNotification (id : Id) (staffId : Option Id) (title message : String) :
    FullNotification where
  type := .delivery
  title
  message
  userId := staffId
  orderId := .undefined
  deliveryId := .val id
  reportId := .undefined

def createDelivery (dto : CreateDeliveryDto) : GatewayCall (Id × Delivery) := do
  let orders ← onStore (.read fun _ s => s.ordersIn dto.orderIds)
  throwIf (orders.length ≠ dto.orderIds.length) (.badRequest "One or more orders do not exist")
  throwIf (orders.any fun e => e.2.2 && e.2.1.latestStatus ≠ some .receivedExternal)
    (.badRequest "One or more orders have not received from external first")
  let now ← onStore input
  let displayId ← onStore (generateUniqueId 5)
  let d : Delivery := {
    createdAt := toString now.now
    staffId := dto.staffId.toOption
    limitTime := dto.limitTime
    latestStatus := .pending
    numberOrder := dto.orderIds.length
    displayId }
  let newDelivery ← onStore (.atomic fun i s => do
    let s ← s.insertDelivery (orders.map (·.1)) dto i.fresh d
    return ((i.fresh, d), s))
  when dto.staffId.toOption.isSome (sendFullNotification (deliveryNotification newDelivery.1
    dto.staffId.toOption "Chuyến đi mới vừa được tạo"
    ("Chuyến đi " ++ newDelivery.2.displayId ++ " đã được tạo")))
  return newDelivery

/-- A text in a template literal. -/
def text : Arg String → String
  | .undefined => "undefined"
  | .null => "null"
  | .val s => s

/-- What the student of an order of a canceled trip is told. -/
def cancelNotification (deliveryId : Id) (reason : Arg String) (e : Id × Order) :
    FullNotification :=
  { orderNotification e.1 e.2 "Đơn hàng bị hủy"
      ("Đơn hàng " ++ orderCode cfg e.2 ++ " đã bị hủy vì: " ++ text reason) with
    deliveryId := .val deliveryId }

/-- Cancel one order of a canceled trip and tell its student. -/
def cancelOrder (deliveryId : Id) (dto : UpdateDeliveryStatusDto) (e : Id × Order) :
    GatewayCall Unit := do
  onStore (createOrderStatusHistory e.1 .canceled (mapReason (.val .fromStaff) dto.reason)
    dto.canceledImage .undefined .undefined)
  sendFullNotification (cancelNotification cfg deliveryId dto.reason e)

def cancelDelivery (id : Id) (dto : UpdateDeliveryStatusDto) (delivery : Delivery)
    (orders : List (Id × Order)) : GatewayCall Delivery := do
  throwIf (¬ dto.reason.truthy ∨ ¬ dto.canceledImage.truthy)
    (.badRequest "Cần phải có lí do hoặc hình ảnh minh chứng khi huỷ chuyến đi")
  let inTransportOrders := orders.filter fun e => e.2.latestStatus = some .inTransport
  promiseAll (inTransportOrders.map (cancelOrder cfg id dto))
  sendFullNotification (deliveryNotification id delivery.staffId "Thay đổi trạng thái chuyến đi"
    ("Chuyến đi " ++ delivery.displayId ++ " đã bị hủy, lý do: " ++ text dto.reason))
  onStore (writeDeliveryStatus id dto.status dto.reason dto.canceledImage)

/-- The title and the message of a new status of a trip. -/
def advanceTexts (displayId : String) : DeliveryStatus → String × String
  | .pending => ("Chuyến đi đang chờ nhận", "Chuyến đi " ++ displayId ++ " đang chờ shipper nhận")
  | .accepted => ("Chuyến đi đã được nhận", "Chuyến đi " ++ displayId ++ " đã được shipper nhận")
  | .finished => ("Chuyến đi đã hoàn thành", "Chuyến đi " ++ displayId ++ " đã hoàn thành")
  | .canceled => ("", "")

def advanceDelivery (id : Id) (dto : UpdateDeliveryStatusDto) (delivery : Delivery)
    (orders : List (Id × Order)) : GatewayCall Delivery := do
  throwIf ((dto.status = .pending ∨ dto.status = .accepted) ∧
      (dto.reason.truthy ∨ dto.canceledImage.truthy))
    (.conflict "Không thể cập nhật lí do hoặc hình ảnh huỷ cho trạng thái của chuyến đi này")
  when (dto.status = .accepted)
    (promiseAll (orders.map fun e => onStore (transportOrder e)))
  let isAllOrdersCanceled := orders.all fun e => e.2.latestStatus = some .canceled
  throwIf (isAllOrdersCanceled ∧ (¬ dto.reason.truthy ∨ ¬ dto.canceledImage.truthy))
    (.badRequest "Cần phải có lí do hoặc hình ảnh minh chứng khi huỷ chuyến đi")
  let (title, message) := advanceTexts delivery.displayId dto.status
  sendFullNotification (deliveryNotification id delivery.staffId title message)
  onStore (writeDeliveryStatus id (if isAllOrdersCanceled then .canceled else dto.status)
    dto.reason dto.canceledImage)

def updateDeliveryStatus (id : Id) (dto : UpdateDeliveryStatusDto) (user : GetUserType) :
    GatewayCall Delivery := do
  let isGoingDelivery ← onStore (.read fun _ s => s.isGoingDelivery user)
  throwIf (isGoingDelivery ∧ dto.status = .accepted)
    (.badRequest "Bạn chỉ có thể nhận một chuyến đi tại một thời điểm")
  let found ← onStore (.read fun _ s => (s.deliveries.lookup id).map fun d => (d, s.ordersOf id))
  let some (delivery, orders) := found | throw (.notFound "Không tìm thấy chuyến đi")
  if dto.status = .canceled then cancelDelivery cfg id dto delivery orders
  else advanceDelivery id dto delivery orders

/-- The notifications of a trip stay without it. -/
def detachDelivery (s : NoticeDB) (id : Id) : NoticeDB :=
  { s with notifications := s.notifications.mapRows fun row =>
      { row with deliveryId := row.deliveryId.filter (· ≠ id) } }

def deleteDelivery (id : Id) : GatewayCall Delivery := do
  let some delivery ← onStore (.read fun _ s => s.deliveries.lookup id)
    | throw (.notFound "Delivery not found")
  let latest ← onStore (.read fun i s => s.findLatestDeliveryStatusRow i.pick id)
  let some row := latest | throw .typeError
  throwIf (row.status ≠ .pending) (.badRequest "You can only delete deliveries that are pending")
  (.atomic fun _ s => (s.toDB.deleteDelivery id).map fun t =>
    ((), { s with toNoticeDB := { detachDelivery s.toNoticeDB id with toDB := t } }) :
      GatewayCall Unit)
  return delivery

end Notified

/-- The call of a request with all it tells, its result dropped. -/
def Request.notified (cfg : GatewayConfig) : Request → GatewayCall Unit
  | .createOrder dto user => do let _ ← Notified.createOrder cfg dto user
  | .updateStatus id dto user => do let _ ← Notified.updateStatus cfg id dto user
  | .createDelivery dto => do let _ ← Notified.createDelivery dto
  | .updateDeliveryStatus id dto user => do let _ ← Notified.updateDeliveryStatus cfg id dto user
  | .handleWebhook body => PaymentService.handleWebhook cfg body
  | .updateOrderInfo id dto user => onStore ((Request.updateOrderInfo id dto user).call cfg.toConfig)
  | .deleteOrder id user => do let _ ← Notified.deleteOrder id user
  | .delayOrders dto => onStore ((Request.delayOrders dto).call cfg.toConfig)
  | .updateDelivery id dto => onStore ((Request.updateDelivery id dto).call cfg.toConfig)
  | .deleteDelivery id => do let _ ← Notified.deleteDelivery id
  | .createPayOSPayment dto => onStore ((Request.createPayOSPayment dto).call cfg.toConfig)

end TsaBackend
