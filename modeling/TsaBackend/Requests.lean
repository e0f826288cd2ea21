import TsaBackend.Deliveries
import TsaBackend.Machine
import TsaBackend.Payments

/-!
The endpoints of the order controller with their guards, the requests of all services, and
the machine that serves requests one after another.
-/

namespace TsaBackend

/-- `RolesGuard.canActivate` -/
def rolesGuard (roles : List UserRole) (user : GetUserType) : Async Unit :=
  if user.role ∈ roles then pure () else throw (.unauthorized "Không có quyền truy cập.")

/-- `undefined` is returned as `false`. -/
def checkRowLevelPermission (user : GetUserType) (requestedUid : Option (List Id))
    (roles : List UserRole) : Async Bool :=
  match requestedUid with
  | none => pure false
  | some uids =>
    if user.role ∈ roles then pure true
    else if user.id ∈ uids then pure false
    else throw (.forbidden "Forbidden")

namespace OrdersController

def create (cfg : Config) (dto : CreateOrderDto) (user : GetUserType) :
    Async CreateOrderResponse := do
  rolesGuard [.admin, .student] user
  let _ ← checkRowLevelPermission user (dto.studentId.arg.toOption.map fun u => [u])
    [.admin, .staff, .student]
  createOrder cfg dto user

def updateInfo (cfg : Config) (id : Id) (dto : CreateOrderDto) (user : GetUserType) :
    Async CreateOrderResponse := do
  rolesGuard [.admin, .student] user
  updateOrderInfo cfg id dto user

def updateStatus (cfg : Config) (id : Id) (dto : UpdateStatusDto) (user : GetUserType) :
    Async String := do
  rolesGuard [.admin, .staff, .student] user
  TsaBackend.updateStatus cfg id dto user

def remove (id : Id) (user : GetUserType) : Async String := do
  rolesGuard [.admin, .student] user
  deleteOrder id user

end OrdersController

/-- A call of a service. -/
inductive Request
  | createOrder (dto : CreateOrderDto) (user : GetUserType)
  | updateOrderInfo (id : Id) (dto : CreateOrderDto) (user : GetUserType)
  | updateStatus (id : Id) (dto : UpdateStatusDto) (user : GetUserType)
  | deleteOrder (id : Id) (user : GetUserType)
  | delayOrders (dto : DelayOrdersDto)
  | createDelivery (dto : CreateDeliveryDto)
  | updateDelivery (id : Id) (dto : UpdateDeliveryDto)
  | updateDeliveryStatus (id : Id) (dto : UpdateDeliveryStatusDto) (user : GetUserType)
  | deleteDelivery (id : Id)
  | createPayOSPayment (dto : PayOsRequestDto)
  | handleWebhook (body : WebhookType)

/-- The call of a request, its result dropped. -/
def Request.call (cfg : Config) : Request → Async Unit
  | .createOrder dto user => do let _ ← TsaBackend.createOrder cfg dto user
  | .updateOrderInfo id dto user => do let _ ← TsaBackend.updateOrderInfo cfg id dto user
  | .updateStatus id dto user => do let _ ← TsaBackend.updateStatus cfg id dto user
  | .deleteOrder id user => do let _ ← TsaBackend.deleteOrder id user
  | .delayOrders dto => do let _ ← TsaBackend.delayOrders cfg dto
  | .createDelivery dto => do let _ ← TsaBackend.createDelivery dto
  | .updateDelivery id dto => do let _ ← TsaBackend.updateDelivery id dto
  | .updateDeliveryStatus id dto user => do let _ ← TsaBackend.updateDeliveryStatus id dto user
  | .deleteDelivery id => do let _ ← TsaBackend.deleteDelivery id
  | .createPayOSPayment dto => TsaBackend.createPayOSPayment dto
  | .handleWebhook body => TsaBackend.handleWebhook cfg body

/-- The tables after a request that ran alone, on the inputs it was given. -/
def serve (cfg : Config) (s : DB) (e : Request × (ℕ → Input)) : DB :=
  ((e.1.call cfg).exec e.2 s).2

/-! ### A small deployment, for concrete runs -/

namespace Sample

/-- Signatures are checked against one word; numbers and dates are not needed. -/
def config : Config where
  getTime := fun _ => none
  toNumber := fun _ => none
  bannedStudentNumber := some 3
  verifyPaymentWebhookData := fun body => body.signature = "signed"

def student : GetUserType := ⟨1, .student⟩
def otherStudent : GetUserType := ⟨2, .student⟩
def staff : GetUserType := ⟨3, .staff⟩
def admin : GetUserType := ⟨4, .admin⟩

/-- Two students, a shipper and an administrator, and no orders yet. -/
def db : DB where
  users := [(4, ⟨.admin, .available⟩), (3, ⟨.staff, .available⟩), (2, ⟨.student, .available⟩),
    (1, ⟨.student, .available⟩)].foldl (fun t e => t.insert e.1 e.2) ∅
  students := [(2, ⟨some .a, 0⟩), (1, ⟨some .a, 0⟩)].foldl (fun t e => t.insert e.1 e.2) ∅
  staffs := [3]
  orders := ∅
  orderStatusHistory := []
  deliveries := ∅
  deliveryStatusHistory := []
  ordersOnDeliveries := ∅
  payments := ∅
  dormitoryRegulations := ∅

/-- An order of the first student that has its first status row. -/
def order : Order where
  shippingFee := some 12000
  studentId := some 1
  checkCode := "SPX0"
  weight := none
  shipperId := none
  isPaid := false
  paymentMethod := some .cash
  building := none
  deliveryDate := none
  dormitory := none
  phone := none
  product := none
  room := none
  latestStatus := some .pending
  brand := none
  remainingAmount := some 12000
  finishedImage := none
  receivedImage := none

def dbWithOrder : DB := { db with
  orders := AList.insert 10 order ∅
  orderStatusHistory := [⟨10, .pending, none, "900", none⟩] }

def payment (amount : Money) (orderCode : String) : Payment where
  orderId := 10
  amount
  isPaid := false
  orderCode
  counterAccountBankName := none
  counterAccountName := none
  counterAccountNumber := none

/-- Two unpaid payments of that order. -/
def dbWithPayments : DB := { dbWithOrder with
  payments := [(31, payment 7000 "8"), (30, payment 5000 "7")].foldl
    (fun t e => t.insert e.1 e.2) ∅ }

/-- The inputs of a call whose new row gets the id `fresh`. -/
def inputs (fresh : Id) (_ : ℕ) : Input where
  ok := true
  now := 1000
  today := "2025-01-01"
  fresh
  displayId := "DEL1"
  pick := 0
  random := 0
  branch := 0

/-- A body with a tracking code and nothing else; its fee is 12000. -/
def body : CreateOrderDto := { CreateOrderDto.empty with checkCode := .val "SPX1" }

/-- A signed notification that `amount` was paid for this code. -/
def webhook (orderCode : ℤ) (amount : Money) : WebhookType where
  orderCode
  amount
  counterAccountName := .undefined
  counterAccountNumber := .undefined
  counterAccountBankName := .undefined
  signature := "signed"

end Sample

end TsaBackend
