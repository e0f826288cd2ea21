import TsaBackend.Orders

/-!
`deliveries/deliveries.service.impl.ts`: planning, editing, running and deleting trips.
-/

namespace TsaBackend

open Call (throwIf when)

structure CreateDeliveryDto where
  limitTime : ℤ
  staffId : Arg Id
  orderIds : List Id
  deriving DecidableEq, Repr

structure UpdateDeliveryDto where
  limitTime : Arg ℤ
  staffId : Arg Id
  orderIds : Arg (List Id)
  deriving DecidableEq, Repr

structure UpdateDeliveryStatusDto where
  status : DeliveryStatus
  reason : Arg String
  canceledImage : Arg String
  deriving DecidableEq, Repr

/-- `generateUniqueId('delivery', 'displayId', 'DEL')`, with the number of tries left. -/
def generateUniqueId : ℕ → Async String
  | 0 => throw (.internalServerError "Failed to generate unique ID after multiple attempts")
  | retries + 1 => do
    let (id, taken) ← (.read fun i s =>
      (i.displayId, s.deliveries.entries.any (·.2.displayId = i.displayId)) : Async _)
    if taken then generateUniqueId retries else pure id

/-- The transaction that stores a trip: its orders, its row, its first history row and its
join rows. -/
def DB.insertDelivery (s : DB) (orders : List Id) (dto : CreateDeliveryDto) (id : Id)
    (d : Delivery) : Except Exn DB := do
  let s ← s.updateOrders orders fun o => { o with shipperId := dto.staffId.patch o.shipperId }
  let s ← s.createDelivery id d
  let s ← s.createDeliveryStatusRow
    { deliveryId := id, status := .pending, reason := none, time := d.createdAt,
      canceledImage := none }
  s.createManyOrdersOnDelivery id 1 dto.orderIds

def createDelivery (dto : CreateDeliveryDto) : Async (Id × Delivery) := do
  let orders ← (.read fun _ s => s.ordersIn dto.orderIds : Async _)
  throwIf (orders.length ≠ dto.orderIds.length) (.badRequest "One or more orders do not exist")
  throwIf (orders.any fun e => e.2.2 && e.2.1.latestStatus ≠ some .receivedExternal)
    (.badRequest "One or more orders have not received from external first")
  let now ← input
  let displayId ← generateUniqueId 5
  let d : Delivery := {
    createdAt := toString now.now
    staffId := dto.staffId.toOption
    limitTime := dto.limitTime
    latestStatus := .pending
    numberOrder := dto.orderIds.length
    displayId }
  let newDelivery ← (.atomic fun i s => do
    let s ← s.insertDelivery (orders.map (·.1)) dto i.fresh d
    return ((i.fresh, d), s) : Async _)
  when dto.staffId.toOption.isSome (sendFullNotification dto.staffId.toOption)
  return newDelivery

def updateDelivery (id : Id) (dto : UpdateDeliveryDto) : Async Delivery := do
  let some delivery ← (.read fun _ s => s.deliveries.lookup id : Async _)
    | throw (.notFound "Delivery not found")
  throwIf (delivery.latestStatus ≠ .pending)
    (.badRequest "You can only update deliveries that are pending")
  throwIf (dto.orderIds = .null) (.prisma .validation)
  -- without a list the lookup has no filter, and then its length is read
  let .val orderIds := dto.orderIds | throw .typeError
  let orders ← (.read fun _ s => s.ordersIn orderIds : Async _)
  throwIf (orders.length ≠ orderIds.length) (.badRequest "One or more orders do not exist")
  throwIf (dto.limitTime = .null) (.prisma .validation)
  executeReturning (fun s => s.deliveries.lookup id) fun _ s => do
    let s ← s.updateDelivery id fun d => { d with
      limitTime := dto.limitTime.patchReq d.limitTime
      staffId := dto.staffId.patch d.staffId }
    s.createManyOrdersOnDelivery id 1 orderIds

/-- The last write of a status change: a history row and the column. -/
def writeDeliveryStatus (id : Id) (status : DeliveryStatus) (reason canceledImage : Arg String) :
    Async Delivery :=
  executeReturning (fun s => s.deliveries.lookup id) fun i s => do
    let s ← s.updateDelivery id fun d => { d with latestStatus := status }
    s.createDeliveryStatusRow
      { deliveryId := id, status, reason := reason.toOption, time := toString i.now
        canceledImage := canceledImage.toOption }

/-- Cancel one order of a canceled trip and tell its student. -/
def cancelOrder (dto : UpdateDeliveryStatusDto) (e : Id × Order) : Async Unit := do
  createOrderStatusHistory e.1 .canceled (mapReason (.val .fromStaff) dto.reason)
    dto.canceledImage .undefined .undefined
  sendFullNotification e.2.studentId

def transportOrder (e : Id × Order) : Async Unit :=
  createOrderStatusHistory e.1 .inTransport none .undefined .undefined .undefined

/-- The trip is canceled together with its orders that are on the way. -/
def cancelDelivery (id : Id) (dto : UpdateDeliveryStatusDto) (delivery : Delivery)
    (orders : List (Id × Order)) : Async Delivery := do
  throwIf (¬ dto.reason.truthy ∨ ¬ dto.canceledImage.truthy)
    (.badRequest "Cần phải có lí do hoặc hình ảnh minh chứng khi huỷ chuyến đi")
  let inTransportOrders := orders.filter fun e => e.2.latestStatus = some .inTransport
  promiseAll (inTransportOrders.map (cancelOrder dto))
  sendFullNotification delivery.staffId
  writeDeliveryStatus id dto.status dto.reason dto.canceledImage

/-- Every other status of a trip. -/
def advanceDelivery (id : Id) (dto : UpdateDeliveryStatusDto) (delivery : Delivery)
    (orders : List (Id × Order)) : Async Delivery := do
  throwIf ((dto.status = .pending ∨ dto.status = .accepted) ∧
      (dto.reason.truthy ∨ dto.canceledImage.truthy))
    (.conflict "Không thể cập nhật lí do hoặc hình ảnh huỷ cho trạng thái của chuyến đi này")
  when (dto.status = .accepted) (promiseAll (orders.map transportOrder))
  let isAllOrdersCanceled := orders.all fun e => e.2.latestStatus = some .canceled
  throwIf (isAllOrdersCanceled ∧ (¬ dto.reason.truthy ∨ ¬ dto.canceledImage.truthy))
    (.badRequest "Cần phải có lí do hoặc hình ảnh minh chứng khi huỷ chuyến đi")
  sendFullNotification delivery.staffId
  writeDeliveryStatus id (if isAllOrdersCanceled then .canceled else dto.status) dto.reason
    dto.canceledImage

/-- Whether the user has a trip under way. -/
def DB.isGoingDelivery (s : DB) (user : GetUserType) : Bool :=
  s.deliveries.entries.any fun e => e.2.staffId = some user.id ∧ e.2.latestStatus = .accepted

def updateDeliveryStatus (id : Id) (dto : UpdateDeliveryStatusDto) (user : GetUserType) :
    Async Delivery := do
  let isGoingDelivery ← (.read fun _ s => s.isGoingDelivery user : Async _)
  throwIf (isGoingDelivery ∧ dto.status = .accepted)
    (.badRequest "Bạn chỉ có thể nhận một chuyến đi tại một thời điểm")
  let found ← (.read fun _ s => (s.deliveries.lookup id).map fun d => (d, s.ordersOf id) : Async _)
  let some (delivery, orders) := found | throw (.notFound "Không tìm thấy chuyến đi")
  if dto.status = .canceled then cancelDelivery id dto delivery orders
  else advanceDelivery id dto delivery orders

/-- The newest status row of a trip, by the text of its time. -/
def DB.findLatestDeliveryStatusRow (s : DB) (pick : ℕ) (id : Id) : Option DeliveryStatusHistory :=
  let rows := s.deliveryHistoryOf id
  let latest := rows.filter fun h => rows.all fun h' => ¬ h.time < h'.time
  latest[pick % latest.length]?

def deleteDelivery (id : Id) : Async Delivery := do
  let some delivery ← (.read fun _ s => s.deliveries.lookup id : Async _)
    | throw (.notFound "Delivery not found")
  let latest ← (.read fun i s => s.findLatestDeliveryStatusRow i.pick id : Async _)
  let some row := latest | throw .typeError
  throwIf (row.status ≠ .pending) (.badRequest "You can only delete deliveries that are pending")
  execute fun _ s => s.deleteDelivery id
  return delivery

end TsaBackend
