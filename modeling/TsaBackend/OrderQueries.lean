import Mathlib.Data.String.Basic
import Mathlib.Order.WithBot
import TsaBackend.Auth
import TsaBackend.Calendar
import TsaBackend.Paging
import TsaBackend.Reports

/-!
`orders/orders.service.impl.ts` and `reports/reports.service.impl.ts`: the paged lists of orders
and reports with their filters.
-/

namespace TsaBackend

open Calendar

/-- The deployment: the offset of its local time from UTC in milliseconds, and the search of the
database that ignores case. -/
structure QueryConfig extends Config where
  utcOffset : ℤ
  containsInsensitive : String → String → Bool

inductive SortOrder
  | asc | desc
  deriving DecidableEq, Repr

/-- The columns of an order. -/
inductive OrderScalarFieldEnum
  | id | shippingFee | studentId | checkCode | weight | shipperId | isPaid | paymentMethod
  | building | deliveryDate | dormitory | phone | product | room | latestStatus | brand
  | remainingAmount | finishedImage | receivedImage
  deriving DecidableEq, Repr

/-- A query that has passed its checks; `isPaid` is absent unless it says `true` or `false`. -/
structure OrderQueryDto where
  page : ℕ
  size : ℕ
  search : Option String
  status : Option String
  isPaid : Option Bool
  sortBy : Option OrderScalarFieldEnum
  sortOrder : Option SortOrder
  startDate : Option String
  endDate : Option String
  one_le_page : 1 ≤ page
  one_le_size : 1 ≤ size

structure ReportQueryDto where
  page : ℕ
  size : ℕ
  status : Option String
  sortBy : Option String
  sortOrder : Option SortOrder
  startDate : Option String
  endDate : Option String
  one_le_page : 1 ≤ page
  one_le_size : 1 ≤ size

structure PageResponseDto (α : Type) where
  totalElements : ℕ
  totalPages : ℕ
  results : List α

structure StaffInfo where
  lastName : Option String
  firstName : Option String
  phoneNumber : Option String
  photoUrl : Option String
  deriving DecidableEq, Repr

/-- The row, its newest logged status in place of the column, and its history. -/
structure GetOrderResponseDto where
  id : Id
  order : Order
  latestStatus : Option OrderStatus
  historyTime : List OrderStatusHistory
  staffInfo : Option StaffInfo

/-- `setDate(getDate() + 1)`, which keeps the local time of the day. -/
def setNextDate (offset ms : ℤ) : Option ℤ :=
  let t := ms + offset
  let d := ofDay (t / msPerDay)
  let newDate := makeDay d.year d.month (d.day + 1) * msPerDay + t % msPerDay - offset
  if InRange newDate then some newDate else none

/-- `toISOString().split('T')[0]` -/
def toISODate (ms : ℤ) : String := (ofDay (ms / msPerDay)).iso

/-- The text of the day after `endDate`, which an invalid date does not have. -/
def nextDayText (cfg : QueryConfig) (endDate : String) : Option String :=
  (cfg.getTime endDate).bind fun ms => (setNextDate cfg.utcOffset ms).map toISODate

/-- `if (text)` -/
def given (text : Option String) : Option String := text.filter fun t => t ≠ ""

/-- `gte` and `lte` on a text column. -/
def withinBounds (gte lte column : Option String) : Bool :=
  (gte.isNone && lte.isNone) ||
    column.any fun c => gte.all (fun g => ¬ c < g) && lte.all (fun l => ¬ l < c)

/-- The filter that both lists build from `startDate` and `endDate`. -/
def dateFilter (cfg : QueryConfig) (startDate endDate : Option String) :
    Except Exn (Option String → Bool) :=
  let gte := (given startDate).map fun d => convertToUnixTimestamp cfg.toConfig (.val d)
  match given endDate with
  | none => .ok (withinBounds gte none)
  | some d =>
    match nextDayText cfg d with
    | some nextDay =>
      .ok (withinBounds gte (some (convertToUnixTimestamp cfg.toConfig (.val nextDay))))
    | none => .error (.error "Invalid time value")

/-- The key of a nullable column: `null` comes last. -/
def nullsLast {α : Type} (x : Option α) : WithTop α := x

/-- `x` need not come after `y` in ascending order; enums are in the order of the schema. -/
def OrderScalarFieldEnum.Before (x y : Id × Order) : OrderScalarFieldEnum → Prop
  | .id => x.1 ≤ y.1
  | .shippingFee => nullsLast x.2.shippingFee ≤ nullsLast y.2.shippingFee
  | .studentId => nullsLast x.2.studentId ≤ nullsLast y.2.studentId
  | .checkCode => x.2.checkCode ≤ y.2.checkCode
  | .weight => nullsLast x.2.weight ≤ nullsLast y.2.weight
  | .shipperId => nullsLast x.2.shipperId ≤ nullsLast y.2.shipperId
  | .isPaid => x.2.isPaid ≤ y.2.isPaid
  | .paymentMethod => nullsLast (x.2.paymentMethod.map PaymentMethod.ctorIdx) ≤
      nullsLast (y.2.paymentMethod.map PaymentMethod.ctorIdx)
  | .building => nullsLast x.2.building ≤ nullsLast y.2.building
  | .deliveryDate => nullsLast x.2.deliveryDate ≤ nullsLast y.2.deliveryDate
  | .dormitory => nullsLast (x.2.dormitory.map Dormitory.ctorIdx) ≤
      nullsLast (y.2.dormitory.map Dormitory.ctorIdx)
  | .phone => nullsLast x.2.phone ≤ nullsLast y.2.phone
  | .product => nullsLast x.2.product ≤ nullsLast y.2.product
  | .room => nullsLast x.2.room ≤ nullsLast y.2.room
  | .latestStatus => nullsLast (x.2.latestStatus.map OrderStatus.ctorIdx) ≤
      nullsLast (y.2.latestStatus.map OrderStatus.ctorIdx)
  | .brand => nullsLast x.2.brand ≤ nullsLast y.2.brand
  | .remainingAmount => nullsLast x.2.remainingAmount ≤ nullsLast y.2.remainingAmount
  | .finishedImage => nullsLast x.2.finishedImage ≤ nullsLast y.2.finishedImage
  | .receivedImage => nullsLast x.2.receivedImage ≤ nullsLast y.2.receivedImage

instance (field : OrderScalarFieldEnum) (x y : Id × Order) : Decidable (field.Before x y) := by
  cases field <;> unfold OrderScalarFieldEnum.Before <;> infer_instance

/-- `orderBy: [{ [sortBy]: sortOrder || 'asc' }]`; to an empty `orderBy` of a page the client adds
the id. -/
def orderBefore (sortBy : Option OrderScalarFieldEnum) (sortOrder : Option SortOrder)
    (x y : Id × Order) : Prop :=
  match sortBy with
  | none => OrderScalarFieldEnum.id.Before x y
  | some field => if sortOrder = some .desc then field.Before y x else field.Before x y

instance (sortBy : Option OrderScalarFieldEnum) (sortOrder : Option SortOrder) :
    DecidableRel (orderBefore sortBy sortOrder) := fun x y => by
  unfold orderBefore
  split <;> infer_instance

/-- `findMany` with `skip` and `take`: the page of the rows in some order that the database
allows. -/
def findPage {α : Type} (pick : ℕ) (le : α → α → Prop) [DecidableRel le] (page size : ℕ)
    (rows : List α) : List α :=
  Paging.pageOf size (page - 1) ((Table.anyOrder pick rows).insertionSort le)

/-! ### Orders and reports -/

def OrderStatus.ofName (text : String) : Option OrderStatus :=
  [.pending, .accepted, .rejected, .delivered, .canceled, .inTransport, .receivedExternal].find?
    fun st => st.name = text

/-- A status in a `where`, which must be one of the schema. -/
def statusFilter {σ : Type} (ofName : String → Option σ) (status : Option String) :
    Except Exn (Option σ) :=
  match given status with
  | none => .ok none
  | some text =>
    match ofName text with
    | some st => .ok (some st)
    | none => .error (.prisma .validation)

/-- What a query asks of an order besides its date. -/
def matchesOrder (cfg : QueryConfig) (query : OrderQueryDto) (user : GetUserType)
    (status : Option OrderStatus) (o : Order) : Bool :=
  (user.role ≠ .student || o.studentId = some user.id) &&
  (given query.search).all (fun text => cfg.containsInsensitive o.checkCode text ||
    o.product.any fun p => cfg.containsInsensitive p text) &&
  status.all (fun st => o.latestStatus = some st) &&
  query.isPaid.all (fun paid => o.isPaid = paid)

/-- The `where` of `getOrders`. -/
def orderWhere (cfg : QueryConfig) (query : OrderQueryDto) (user : GetUserType) :
    Except Exn (Id → Order → Bool) := do
  let dated ← dateFilter cfg query.startDate query.endDate
  let status ← statusFilter OrderStatus.ofName query.status
  return fun _ o => matchesOrder cfg query user status o && dated o.deliveryDate

/-- The rows of a `where`. -/
def DB.ordersWhere (s : DB) (p : Id → Order → Bool) : List (Id × Order) :=
  (s.orders.matching p).map fun e => (e.1, e.2)

/-- A call of the other services. -/
def onAuth {α : Type} (c : Async α) : AuthCall α := c.zoom authLens AuthInput.toInput

/-- `staff.lastName` throws when the shipper has no account. -/
def staffInfo (shipperId : Option Id) : AuthCall (Option StaffInfo) :=
  match shipperId with
  | none => pure none
  | some u => do
    let some staff ← (.read fun _ s => s.accounts.lookup u : AuthCall _) | throw .typeError
    return some ⟨staff.lastName, staff.firstName, staff.phoneNumber, staff.photoUrl⟩

/-- An order with its newest logged status, its history and its shipper. -/
def withStatus (e : Id × Order) : AuthCall GetOrderResponseDto := do
  let latestStatus ← onAuth (getLatestOrderStatus e.1)
  let historyTime ← onAuth (getHistoryTimee e.1)
  let staffInfo ← staffInfo e.2.shipperId
  return { id := e.1, order := e.2, latestStatus, historyTime, staffInfo }

def getOrders (cfg : QueryConfig) (query : OrderQueryDto) (user : GetUserType) :
    AuthCall (PageResponseDto GetOrderResponseDto) := do
  match orderWhere cfg query user with
  | .error e => throw e
  | .ok p =>
    let orders ← (.read fun i s => findPage i.pick (orderBefore query.sortBy query.sortOrder)
      query.page query.size (s.ordersWhere p) : AuthCall _)
    let totalElements ← (.read fun _ s => (s.ordersWhere p).length : AuthCall _)
    let results ← orders.mapM withStatus
    return { totalElements, totalPages := Paging.pagesOf query.size totalElements, results }

/-- `order.id` throws when there is no order. -/
def getOrder (id : Id) : Async GetOrderResponseDto := do
  let order ← findOrder id
  let latestStatus ← getLatestOrderStatus id
  let some order := order | throw .typeError
  let historyTime ← getHistoryTimee id
  return { id, order, latestStatus, historyTime, staffInfo := none }

def ReportStatus.ofName : String → Option ReportStatus
  | "PENDING" => some .pending
  | "REPLIED" => some .replied
  | _ => none

/-- The columns a report can be sorted by. -/
def reportBefore (sortBy : String) : Option ((Id × ReportEntity) → (Id × ReportEntity) → Bool) :=
  match sortBy with
  | "id" => some fun x y => x.1 ≤ y.1
  | "orderId" => some fun x y => x.2.orderId ≤ y.2.orderId
  | "content" => some fun x y => x.2.content ≤ y.2.content
  | "reportedAt" => some fun x y => x.2.reportedAt ≤ y.2.reportedAt
  | "proof" => some fun x y => x.2.proof ≤ y.2.proof
  | "reply" => some fun x y => nullsLast x.2.reply ≤ nullsLast y.2.reply
  | "status" => some fun x y => x.2.status.ctorIdx ≤ y.2.status.ctorIdx
  | "repliedAt" => some fun x y => nullsLast x.2.repliedAt ≤ nullsLast y.2.repliedAt
  | "replierId" => some fun x y => nullsLast x.2.replierId ≤ nullsLast y.2.replierId
  | "studentId" => some fun x y => x.2.studentId ≤ y.2.studentId
  | _ => none

/-- `orderBy` of `getReports`; a name that is no column is refused, and to an empty one the client
adds the id. -/
def reportOrder (sortBy : Option String) (sortOrder : Option SortOrder) :
    Except Exn ((Id × ReportEntity) → (Id × ReportEntity) → Bool) :=
  match given sortBy with
  | none => .ok fun x y => x.1 ≤ y.1
  | some field =>
    match reportBefore field with
    | some before => .ok fun x y => if sortOrder = some .desc then before y x else before x y
    | none => .error (.prisma .validation)

/-- What a query asks of a report besides its date. -/
def matchesReport (user : GetUserType) (status : Option ReportStatus) (r : ReportEntity) : Bool :=
  (user.role ≠ .student || r.studentId = user.id) && status.all fun st => r.status = st

/-- The `where` of `getReports`. -/
def reportWhere (cfg : QueryConfig) (query : ReportQueryDto) (user : GetUserType) :
    Except Exn (Id → ReportEntity → Bool) := do
  let dated ← dateFilter cfg query.startDate query.endDate
  let status ← statusFilter ReportStatus.ofName query.status
  return fun _ r => matchesReport user status r && dated (some r.reportedAt)

def ReportDB.reportsWhere (s : ReportDB) (p : Id → ReportEntity → Bool) :
    List (Id × ReportEntity) :=
  (s.reports.matching p).map fun e => (e.1, e.2)

def getReports (cfg : QueryConfig) (query : ReportQueryDto) (user : GetUserType) :
    ReportCall (PageResponseDto (Id × ReportEntity)) := do
  match reportWhere cfg query user, reportOrder query.sortBy query.sortOrder with
  | .ok p, .ok before =>
    let results ← (.read fun i s => findPage i.pick (fun x y => before x y = true) query.page
      query.size (s.reportsWhere p) : ReportCall _)
    let totalElements ← (.read fun _ s => (s.reportsWhere p).length : ReportCall _)
    return { totalElements, totalPages := Paging.pagesOf query.size totalElements, results }
  | .error e, _ => throw e
  | _, .error e => throw e

end TsaBackend
