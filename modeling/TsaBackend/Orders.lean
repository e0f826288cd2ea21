import TsaBackend.OrderUtil

/-!
`orders/orders.service.impl.ts`: the calls that create, change, move and delete orders.
-/

namespace TsaBackend

open Call (throwIf when)

/-- The request body of creation and edit: every column but the id, none of them validated. -/
structure CreateOrderDto where
  studentId : Field Id
  shippingFee : Field Money
  deliveryDate : Field String
  dormitory : Field Dormitory
  building : Field String
  room : Field String
  phone : Field String
  checkCode : Field String
  weight : Field ℚ
  shipperId : Field Id
  isPaid : Field Bool
  paymentMethod : Field PaymentMethod
  product : Field String
  latestStatus : Field OrderStatus
  brand : Field String
  remainingAmount : Field Money
  finishedImage : Field String
  receivedImage : Field String

namespace CreateOrderDto

def empty : CreateOrderDto where
  studentId := .undefined
  shippingFee := .undefined
  deliveryDate := .undefined
  dormitory := .undefined
  building := .undefined
  room := .undefined
  phone := .undefined
  checkCode := .undefined
  weight := .undefined
  shipperId := .undefined
  isPaid := .undefined
  paymentMethod := .undefined
  product := .undefined
  latestStatus := .undefined
  brand := .undefined
  remainingAmount := .undefined
  finishedImage := .undefined
  receivedImage := .undefined

/-- The client takes the body for a new row, but for a text `checkCode`. -/
def creates (dto : CreateOrderDto) : Bool :=
  dto.studentId.creates true && dto.shippingFee.creates true && dto.deliveryDate.creates true &&
    dto.dormitory.creates true && dto.building.creates true && dto.room.creates true &&
    dto.phone.creates true && dto.weight.creates true && dto.shipperId.creates true &&
    dto.isPaid.creates false && dto.paymentMethod.creates true && dto.product.creates true &&
    dto.latestStatus.creates true && dto.brand.creates true && dto.remainingAmount.creates true &&
    dto.finishedImage.creates true && dto.receivedImage.creates true

/-- The row of `order.create({ data: dto })`. -/
def create (dto : CreateOrderDto) : Except Exn Order :=
  match dto.checkCode with
  | .val checkCode =>
    if ¬ dto.creates then .error (.prisma .validation)
    else .ok {
      shippingFee := dto.shippingFee.patch none
      studentId := dto.studentId.patch none
      checkCode
      weight := dto.weight.patch none
      shipperId := dto.shipperId.patch none
      isPaid := dto.isPaid.patchReq false
      paymentMethod := dto.paymentMethod.patch none
      building := dto.building.patch none
      deliveryDate := dto.deliveryDate.patch none
      dormitory := dto.dormitory.patch none
      phone := dto.phone.patch none
      product := dto.product.patch none
      room := dto.room.patch none
      latestStatus := dto.latestStatus.patch none
      brand := dto.brand.patch none
      remainingAmount := dto.remainingAmount.patch none
      finishedImage := dto.finishedImage.patch none
      receivedImage := dto.receivedImage.patch none }
  | _ => .error (.prisma .validation)

/-- The client takes the body for a row that is changed. -/
def updates (dto : CreateOrderDto) : Bool :=
  dto.studentId.updates true && dto.shippingFee.updates true && dto.deliveryDate.updates true &&
    dto.dormitory.updates true && dto.building.updates true && dto.room.updates true &&
    dto.phone.updates true && dto.checkCode.updates false && dto.weight.updates true &&
    dto.shipperId.updates true && dto.isPaid.updates false && dto.paymentMethod.updates true &&
    dto.product.updates true && dto.latestStatus.updates true && dto.brand.updates true &&
    dto.remainingAmount.updates true && dto.finishedImage.updates true &&
    dto.receivedImage.updates true

/-- A column of the order cannot be computed. -/
def fails (dto : CreateOrderDto) (o : Order) : Bool :=
  dto.studentId.fails o.studentId || dto.shippingFee.fails o.shippingFee ||
    dto.deliveryDate.fails o.deliveryDate || dto.dormitory.fails o.dormitory ||
    dto.building.fails o.building || dto.room.fails o.room || dto.phone.fails o.phone ||
    dto.checkCode.fails (some o.checkCode) || dto.weight.fails o.weight ||
    dto.shipperId.fails o.shipperId || dto.isPaid.fails (some o.isPaid) ||
    dto.paymentMethod.fails o.paymentMethod || dto.product.fails o.product ||
    dto.latestStatus.fails o.latestStatus || dto.brand.fails o.brand ||
    dto.remainingAmount.fails o.remainingAmount || dto.finishedImage.fails o.finishedImage ||
    dto.receivedImage.fails o.receivedImage

/-- The row after `order.update({ data: dto })`. -/
def update (dto : CreateOrderDto) (o : Order) : Order where
  shippingFee := dto.shippingFee.patch o.shippingFee
  studentId := dto.studentId.patch o.studentId
  checkCode := dto.checkCode.patchReq o.checkCode
  weight := dto.weight.patch o.weight
  shipperId := dto.shipperId.patch o.shipperId
  isPaid := dto.isPaid.patchReq o.isPaid
  paymentMethod := dto.paymentMethod.patch o.paymentMethod
  building := dto.building.patch o.building
  deliveryDate := dto.deliveryDate.patch o.deliveryDate
  dormitory := dto.dormitory.patch o.dormitory
  phone := dto.phone.patch o.phone
  product := dto.product.patch o.product
  room := dto.room.patch o.room
  latestStatus := dto.latestStatus.patch o.latestStatus
  brand := dto.brand.patch o.brand
  remainingAmount := dto.remainingAmount.patch o.remainingAmount
  finishedImage := dto.finishedImage.patch o.finishedImage
  receivedImage := dto.receivedImage.patch o.receivedImage

/-- The fee of the parcel that the body describes. -/
def amount (dto : CreateOrderDto) : ℕ :=
  getShippingFee dto.room.arg dto.building.arg dto.dormitory.arg dto.weight.number

end CreateOrderDto

/-- `order.update({ where: { id }, data })` -/
def DB.updateOrderData (s : DB) (id : Id) (data : CreateOrderDto) : Except Exn DB :=
  if ¬ data.updates then .error (.prisma .validation)
  else if (s.orders.lookup id).any data.fails then .error (.prisma .valueOutOfRange)
  else s.updateOrder id data.update

/-- The client and the database take the body as an update of this order. -/
structure DB.Takes (s : DB) (data : CreateOrderDto) (o : Order) : Prop where
  updates : data.updates = true
  computed : data.fails o = false
  texts : OrderTexts (some o) (data.update o)
  keys : s.OrderKeys o (data.update o)

lemma DB.takes_iff {s : DB} {data : CreateOrderDto} {o : Order} :
    s.Takes data o ↔ data.updates = true ∧ data.fails o = false ∧
      OrderTexts (some o) (data.update o) ∧ s.OrderKeys o (data.update o) :=
  ⟨fun h => ⟨h.updates, h.computed, h.texts, h.keys⟩, fun ⟨h₁, h₂, h₃, h₄⟩ => ⟨h₁, h₂, h₃, h₄⟩⟩

instance (s : DB) (data : CreateOrderDto) (o : Order) : Decidable (s.Takes data o) :=
  decidable_of_iff' _ DB.takes_iff

lemma DB.updateOrderData_eq {s : DB} {id : Id} {data : CreateOrderDto} {o : Order}
    (ho : s.orders.lookup id = some o) (h : s.Takes data o) :
    s.updateOrderData id data = .ok { s with orders := s.orders.modify id data.update } := by
  simp [updateOrderData, updateOrder, ho, h.updates, h.computed, h.texts, h.keys]

lemma DB.updateOrderData_ok {s t : DB} {id : Id} {data : CreateOrderDto}
    (h : s.updateOrderData id data = .ok t) : ∃ o, s.orders.lookup id = some o ∧
      s.Takes data o ∧ t = { s with orders := s.orders.modify id data.update } := by
  unfold updateOrderData at h
  split at h
  · cases h
  next hupdates =>
  split at h
  · cases h
  next hfails =>
  unfold updateOrder at h
  rcases ho : s.orders.lookup id with _ | o
  · rw [ho] at h
    cases h
  simp only [ho] at h hfails
  split at h
  · cases h
  next htexts =>
  split at h <;> cases h
  next hkeys =>
    exact ⟨o, rfl, ⟨not_not.mp hupdates, by simpa using hfails, not_not.mp htexts, hkeys⟩, rfl⟩

lemma DB.updateOrderData_error {s : DB} {id : Id} {data : CreateOrderDto} {o : Order}
    (ho : s.orders.lookup id = some o) (h : ¬ s.Takes data o) :
    ∃ e, s.updateOrderData id data = .error e := by
  rcases hd : s.updateOrderData id data with e | t
  · exact ⟨e, rfl⟩
  · obtain ⟨o', ho', htakes, -⟩ := updateOrderData_ok hd
    cases ho.symm.trans ho'
    exact absurd htakes h

structure UpdateStatusDto where
  status : OrderStatus
  finishedImage : Arg String
  canceledImage : Arg String
  reason : Arg String
  cancelReasonType : Arg OrderCancelType
  receivedImage : Arg String
  deriving DecidableEq, Repr

/-- A status change that carries nothing else. -/
def UpdateStatusDto.only (status : OrderStatus) : UpdateStatusDto where
  status
  finishedImage := .undefined
  canceledImage := .undefined
  reason := .undefined
  cancelReasonType := .undefined
  receivedImage := .undefined

structure CreateOrderResponse where
  message : String
  id : Id
  data : Order
  historyTime : List OrderStatusHistory

/-! ### Status changes -/

/-- `regulation?.banThreshold || Number(process.env.BANNED_STUDENT_NUMBER)` -/
def bannedThreshold (cfg : Config) (banThreshold : Option ℤ) : Option ℤ :=
  match banThreshold with
  | some t => if t = 0 then cfg.bannedStudentNumber else some t
  | none => cfg.bannedStudentNumber

def shouldBan (newFailedCount : ℤ) (threshold : Option ℤ) : Bool :=
  match threshold with
  | some t => newFailedCount ≥ t
  | none => false

/-- The transaction of a charged cancellation. -/
def DB.chargeStudent (s : DB) (studentId : Id) (newFailedCount : ℤ) (ban : Bool) :
    Except Exn DB := do
  let s ← s.updateStudent studentId fun st => { st with numberFault := newFailedCount }
  if ban then s.updateUser studentId fun u => { u with status := .banned } else .ok s

/-- The branch that charges a cancellation to the student of the order. -/
def chargeFault (cfg : Config) (order : Order) : Async Unit := do
  let some studentId := order.studentId | throw (.prisma .validation)
  let some student ← (.read fun _ s => s.students.lookup studentId : Async _)
    | throw (.notFound "Không tìm thấy người dùng")
  let some dormitory := student.dormitory | throw (.prisma .validation)
  let banThreshold ← (.read fun _ s => s.dormitoryRegulations.lookup dormitory : Async _)
  let newFailedCount := student.numberFault + 1
  execute fun _ s => s.chargeStudent studentId newFailedCount
    (shouldBan newFailedCount (bannedThreshold cfg banThreshold))

/-- The checks of a cancellation, and the fault when it comes from the student. -/
def checkCancel (cfg : Config) (order : Order) (dto : UpdateStatusDto) (user : GetUserType) :
    Async Unit := do
  throwIf (¬ getCancelPermission user.role order.latestStatus)
    (.forbidden "Bạn không có quyền huỷ đơn hàng ở trạng thái này")
  throwIf (dto.cancelReasonType.toOption.isNone ∨ ¬ dto.reason.truthy)
    (.badRequest "Cần phải có lý do khi hủy đơn hangf")
  throwIf (¬ dto.canceledImage.truthy)
    (.badRequest "Cần phải có ảnh minh chứng khi huỷ đơn hàng")
  when (dto.cancelReasonType = .val .fromStudent) (chargeFault cfg order)

def invalidTransition (src : Option OrderStatus) (dst : OrderStatus) : Exn :=
  .badRequest ("Không được phép chuyển trạng thái từ " ++
    (src.map OrderStatus.name).getD "null" ++ " sang " ++ dst.name)

/-- Whether staff hands over an order that is paid in cash. -/
def paysCash (order : Order) (status : OrderStatus) (user : GetUserType) : Prop :=
  user.role = .staff ∧ status = .delivered ∧ order.paymentMethod = some .cash

instance (order : Order) (status : OrderStatus) (user : GetUserType) :
    Decidable (paysCash order status user) := by
  unfold paysCash; infer_instance

def payCash (o : Order) : Order := { o with isPaid := true }

/-- The student is told, then the change is recorded. -/
def recordStatus (id : Id) (dto : UpdateStatusDto) (order : Order) : Async String := do
  when order.studentId.isSome (sendFullNotification order.studentId)
  createOrderStatusHistory id dto.status (mapReason dto.cancelReasonType dto.reason)
    dto.canceledImage dto.finishedImage dto.receivedImage
  return "Order status updated"

/-- What follows the checks of the request: the transition check and the writes. -/
def changeStatus (id : Id) (dto : UpdateStatusDto) (user : GetUserType) (order : Order) :
    Async String := do
  throwIf (¬ isValidTransition order.latestStatus dto.status)
    (invalidTransition order.latestStatus dto.status)
  when (paysCash order dto.status user) (execute fun _ s => s.updateOrder id payCash)
  recordStatus id dto order

def updateStatus (cfg : Config) (id : Id) (dto : UpdateStatusDto) (user : GetUserType) :
    Async String := do
  let some order ← findOrder id | throw (.badRequest "Order not found")
  throwIf (dto.status = .receivedExternal ∧ ¬ dto.receivedImage.truthy)
    (.badRequest "Cần phải có hình ảnh khi nhận hàng từ bên ngoài")
  throwIf (dto.status = .delivered ∧ ¬ dto.finishedImage.truthy)
    (.badRequest "Cần phải có hình ảnh khi giao hàng")
  when (dto.status = .canceled) (checkCancel cfg order dto user)
  changeStatus id dto user order

/-! ### Creation, edit, deletion and delay -/

/-- An order an administrator registered that no student has claimed. -/
def Order.unclaimed (o : Order) : Bool :=
  o.studentId.isNone && !truthy o.deliveryDate && !truthy o.room && !truthy o.building &&
    o.dormitory.isNone

/-- An order without a delivery address. -/
def Order.unaddressed (o : Order) : Bool :=
  !truthy o.deliveryDate && !truthy o.room && !truthy o.building && o.dormitory.isNone

/-- The columns that a claim sets. -/
def claimData (cfg : Config) (dto : CreateOrderDto) (user : GetUserType) : CreateOrderDto :=
  { CreateOrderDto.empty with
    studentId := .val user.id
    shippingFee := .val dto.amount
    deliveryDate := .val (convertToUnixTimestamp cfg dto.deliveryDate)
    room := dto.room
    building := dto.building
    dormitory := dto.dormitory
    remainingAmount := .val dto.amount }

/-- What a claim makes of the order. -/
def claim (cfg : Config) (dto : CreateOrderDto) (user : GetUserType) (o : Order) : Order :=
  { o with
    studentId := some user.id
    shippingFee := some dto.amount
    deliveryDate := some (convertToUnixTimestamp cfg dto.deliveryDate)
    room := dto.room.patch o.room
    building := dto.building.patch o.building
    dormitory := dto.dormitory.patch o.dormitory
    remainingAmount := some dto.amount }

lemma claimData_update (cfg : Config) (dto : CreateOrderDto) (user : GetUserType) :
    (claimData cfg dto user).update = claim cfg dto user := rfl

def claimOrder (cfg : Config) (dto : CreateOrderDto) (user : GetUserType) (id : Id)
    (existingOrder : Order) : Async CreateOrderResponse := do
  execute fun _ s => s.updateOrderData id (claimData cfg dto user)
  let _ ← updateStatus cfg id (.only .accepted) user
  createOrderStatusHistory id .accepted none .undefined .undefined .undefined
  let historyTime ← getHistoryTimee id
  let latestStatus ← getLatestOrderStatus id
  return { message := "Order updated and status set to ACCEPTED", id
           data := { existingOrder with latestStatus }, historyTime }

/-- `order.create` and its first log row. -/
def insertOrder (row : Except Exn Order) : Async (Id × Order) := do
  let newOrder ← (.atomic fun i s => do
    let o ← row
    let s ← s.createOrder i.fresh o
    return ((i.fresh, o), s) : Async _)
  createOrderStatusHistory newOrder.1 .pending none .undefined .undefined .undefined
  return newOrder

/-- The row a student creates: the body, with the columns that follow it in the literal. -/
def studentRow (cfg : Config) (dto : CreateOrderDto) (user : GetUserType) : Except Exn Order :=
  CreateOrderDto.create { dto with
    studentId := .val user.id
    latestStatus := .val .pending
    deliveryDate := .val (convertToUnixTimestamp cfg dto.deliveryDate)
    shippingFee := .val dto.amount
    remainingAmount := .val dto.amount }

def adminRow (dto : CreateOrderDto) : Except Exn Order :=
  CreateOrderDto.create { dto with latestStatus := .val .pending }

/-- A row that was created has the columns of the body. -/
lemma CreateOrderDto.create_ok {dto : CreateOrderDto} {o : Order} (h : dto.create = .ok o) :
    dto.creates = true ∧ ∃ checkCode, dto.checkCode = .val checkCode ∧ o = {
      shippingFee := dto.shippingFee.patch none
      studentId := dto.studentId.patch none
      checkCode
      weight := dto.weight.patch none
      shipperId := dto.shipperId.patch none
      isPaid := dto.isPaid.patchReq false
      paymentMethod := dto.paymentMethod.patch none
      building := dto.building.patch none
      deliveryDate := dto.deliveryDate.patch none
      dormitory := dto.dormitory.patch none
      phone := dto.phone.patch none
      product := dto.product.patch none
      room := dto.room.patch none
      latestStatus := dto.latestStatus.patch none
      brand := dto.brand.patch none
      remainingAmount := dto.remainingAmount.patch none
      finishedImage := dto.finishedImage.patch none
      receivedImage := dto.receivedImage.patch none } := by
  unfold create at h
  split at h
  · next checkCode hcode =>
    split at h
    · cases h
    · next hcreates =>
      cases h
      exact ⟨not_not.mp hcreates, checkCode, hcode, rfl⟩
  · cases h

/-- From the search for an existing order on. -/
def placeOrder (cfg : Config) (dto : CreateOrderDto) (user : GetUserType) :
    Async CreateOrderResponse := do
  match ← findExistingOrder dto.checkCode dto.brand with
  | some (id, existingOrder) =>
    if existingOrder.unclaimed then
      claimOrder cfg dto user id existingOrder
    else if existingOrder.studentId.isSome ∧ existingOrder.studentId ≠ some user.id then
      throw (.unauthorized "Đơn hàng này đã thuộc về người khác, bạn không thể tạo đơn hàng này")
    else
      throw (.badRequest "Bạn đã tạo đơn hàng này rồi!")
  | none =>
    let newOrder ← insertOrder (studentRow cfg dto user)
    let historyTime ← getHistoryTimee newOrder.1
    service
    return { message := "Order created and status set to PENDING", id := newOrder.1,
             data := newOrder.2, historyTime }

def createOrderByStudent (cfg : Config) (dto : CreateOrderDto) (user : GetUserType) :
    Async CreateOrderResponse := do
  validateUserForOrder user dto .student
  let some fullUser ← (.read fun _ s => s.users.lookup user.id : Async _) | throw .typeError
  throwIf (fullUser.status = .banned)
    (.badRequest "Tài khoản của bạn đã bị khóa, không thể tạo đơn hàng")
  let now ← input
  throwIf (dto.deliveryDate.arg = .val now.today)
    (.badRequest "Ngày giao hàng không được là ngày hôm nay")
  placeOrder cfg dto user

def confirmOrder (cfg : Config) (user : GetUserType) (id : Id) (existingOrder : Order) :
    Async CreateOrderResponse := do
  let _ ← updateStatus cfg id (.only .accepted) user
  createOrderStatusHistory id .accepted none .undefined .undefined .undefined
  sendFullNotification existingOrder.studentId
  let historyTime ← getHistoryTimee id
  let latestStatus ← getLatestOrderStatus id
  return { message := "Order updated and status set to ACCEPTED", id
           data := { existingOrder with latestStatus }, historyTime }

def createOrderByAdmin (cfg : Config) (dto : CreateOrderDto) (user : GetUserType) :
    Async CreateOrderResponse := do
  validateUserForOrder user dto .admin
  match ← findExistingOrder dto.checkCode dto.brand with
  | some (id, existingOrder) =>
    if existingOrder.unaddressed then
      throw (.badRequest "Đơn hàng này đã được tạo trước đó từ quản trị viên!")
    else
      confirmOrder cfg user id existingOrder
  | none =>
    let newOrder ← insertOrder (adminRow dto)
    let historyTime ← getHistoryTimee newOrder.1
    return { message := "Order created and status set to PENDING", id := newOrder.1,
             data := newOrder.2, historyTime }

def createOrder (cfg : Config) (dto : CreateOrderDto) (user : GetUserType) :
    Async CreateOrderResponse :=
  if user.role = .student then createOrderByStudent cfg dto user
  else if user.role = .admin then createOrderByAdmin cfg dto user
  else throw (.badRequest "Invalid order creation request")

/-- The body, with the date that follows it in the literal. -/
def editData (cfg : Config) (dto : CreateOrderDto) : CreateOrderDto :=
  { dto with deliveryDate := .val (convertToUnixTimestamp cfg dto.deliveryDate) }

/-- What an edit makes of the order. -/
def editInfo (cfg : Config) (dto : CreateOrderDto) (o : Order) : Order :=
  { dto.update o with deliveryDate := some (convertToUnixTimestamp cfg dto.deliveryDate) }

lemma editData_update (cfg : Config) (dto : CreateOrderDto) :
    (editData cfg dto).update = editInfo cfg dto := rfl

def updateOrderInfo (cfg : Config) (id : Id) (dto : CreateOrderDto) (user : GetUserType) :
    Async CreateOrderResponse := do
  let some order ← findOrder id | throw (.badRequest "Order not found")
  validateUserForOrder user order user.role
  execute fun _ s => s.updateOrderData id (editData cfg dto)
  let latestStatus ← getLatestOrderStatus id
  let historyTime ← getHistoryTimee id
  return { message := "Order updated", id, data := { order with latestStatus }, historyTime }

/-- A student deletes only orders whose newest status row is pending or rejected. -/
def checkDelete (latest : Option OrderStatusHistory) : Async Unit := do
  let some row := latest | throw .typeError
  throwIf (row.status ≠ .rejected ∧ row.status ≠ .pending)
    (.unauthorized "You can only delete orders that are pending or rejected")

def deleteOrder (id : Id) (user : GetUserType) : Async String := do
  let order ← findOrder id
  let latest ← (.read fun i s => s.findLatestStatusRow i.pick id : Async _)
  let some order := order | throw (.badRequest "Order not found")
  validateUserForOrder user order user.role
  when (user.role = .student) (checkDelete latest)
  execute fun _ s => s.deleteOrder id
  return "Order deleted"

structure DelayOrdersDto where
  timeslot : String
  orderIds : List Id
  deriving DecidableEq, Repr

def DB.inDelivery (s : DB) (id : Id) : Bool := s.ordersOnDeliveries.keys.any (·.2 = id)

/-- The orders with these ids, and whether they have join rows. -/
def DB.ordersIn (s : DB) (ids : List Id) : List (Id × Order × Bool) :=
  (s.orders.entries.filter fun e => e.1 ∈ ids).map fun e => (e.1, e.2, s.inDelivery e.1)

/-- `Number(deliveryDate) > Number(timeslot)`; `Number(null)` is `0`. -/
def laterThan (cfg : Config) (deliveryDate : Option String) (timeslot : String) : Bool :=
  let date := match deliveryDate with
    | none => some 0
    | some s => cfg.toNumber s
  match date, cfg.toNumber timeslot with
  | some x, some y => x > y
  | _, _ => false

/-- The same update on each of the orders. -/
def DB.updateOrders (s : DB) (ids : List Id) (f : Order → Order) : Except Exn DB :=
  ids.foldlM (fun s id => s.updateOrder id f) s

def delayOrders (cfg : Config) (dto : DelayOrdersDto) : Async String := do
  let orders ← (.read fun _ s => s.ordersIn dto.orderIds : Async _)
  throwIf (orders.length ≠ dto.orderIds.length) (.badRequest "One or more orders do not exist")
  throwIf (orders.any fun e => e.2.2 && e.2.1.latestStatus ≠ some .canceled)
    (.badRequest "One or more orders are already in a delivery")
  throwIf (orders.any fun e => laterThan cfg e.2.1.deliveryDate dto.timeslot)
    (.badRequest "One or more orders has delayed time smaller than before")
  execute fun _ s => s.updateOrders (orders.map (·.1)) fun o =>
    { o with deliveryDate := some dto.timeslot }
  return "Orders successfully delayed"

end TsaBackend
