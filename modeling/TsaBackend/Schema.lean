import Mathlib.Data.Rat.Defs
import TsaBackend.Table

/-!
The data model: the enums and tables of `schema.prisma`, optional JSON values, exceptions,
and what a call reads from outside the database.

Ids are opaque, only compared. Money and weights are the exact values of their columns.
The tables and columns that no modelled function reads or writes are left out.
-/

namespace TsaBackend

inductive UserRole
  | admin | student | staff
  deriving DecidableEq, Repr

inductive UserStatus
  | available | deactivated | banned
  deriving DecidableEq, Repr

inductive Dormitory
  | a | b
  deriving DecidableEq, Repr

inductive PaymentMethod
  | credit | cash | momo
  deriving DecidableEq, Repr

inductive OrderStatus
  | pending | accepted | rejected | delivered | canceled | inTransport | receivedExternal
  deriving DecidableEq, Repr

inductive DeliveryStatus
  | pending | accepted | finished | canceled
  deriving DecidableEq, Repr

inductive OrderCancelType
  | fromStudent | fromStaff
  deriving DecidableEq, Repr

/-- The name of a status in the schema, as it appears in messages. -/
def OrderStatus.name : OrderStatus → String
  | .pending => "PENDING"
  | .accepted => "ACCEPTED"
  | .rejected => "REJECTED"
  | .delivered => "DELIVERED"
  | .canceled => "CANCELED"
  | .inTransport => "IN_TRANSPORT"
  | .receivedExternal => "RECEIVED_EXTERNAL"

/-- A property of a JSON body: absent, `null`, or a value of its declared type. -/
inductive Arg (α : Type)
  | undefined
  | null
  | val (a : α)
  deriving DecidableEq, Repr

namespace Arg

variable {α : Type}

def toOption : Arg α → Option α
  | .val a => some a
  | _ => none

/-- What an update leaves in a nullable column: an absent property keeps it. -/
def patch : Arg α → Option α → Option α
  | .undefined, old => old
  | .null, _ => none
  | .val a, _ => some a

/-- What an update leaves in a required column; `null` is refused before. -/
def patchReq : Arg α → α → α
  | .val a, _ => a
  | _, old => old

/-- A filter on a column: an absent value filters nothing. -/
def accepts [DecidableEq α] : Arg α → Option α → Bool
  | .undefined, _ => true
  | .null, x => x.isNone
  | .val a, x => x == some a

/-- Truth of an optional string. -/
def truthy : Arg String → Bool
  | .val s => s ≠ ""
  | _ => false

end Arg

/-- A property that is not validated. Besides what an `Arg` holds it can be an object that the client
reads as an operation on the column or as a filter, or a value of another type. -/
inductive Field (α : Type)
  | undefined
  | null
  | val (a : α)
  /-- `{ set: a }`, `{ increment: n }` and the like, by what they make of the column; a computation
  can fail. -/
  | op (f : Option α → Option (Option α))
  /-- `{ not: a }`, `{ in: as }` and the like, by what they keep. -/
  | filter (f : Option α → Bool)
  /-- A value that the client refuses, with the number and the time the language reads in it. -/
  | other (number : Option ℚ) (time : Option ℤ)

namespace Field

variable {α : Type}

/-- The value, and an absent one in place of an object or of a value of another type. -/
def arg : Field α → Arg α
  | .null => .null
  | .val a => .val a
  | _ => .undefined

/-- The client takes the value for a column of a new row. -/
def creates (nullable : Bool) : Field α → Bool
  | .null => nullable
  | .undefined | .val _ => true
  | _ => false

/-- The client takes the value for a column of a row that is changed. -/
def updates (nullable : Bool) : Field α → Bool
  | .null => nullable
  | .filter _ | .other .. => false
  | _ => true

/-- The database cannot compute the new value. -/
def fails : Field α → Option α → Bool
  | .op f, old => (f old).isNone
  | _, _ => false

/-- What an update leaves in a nullable column; the values that are refused are not written. -/
def patch : Field α → Option α → Option α
  | .null, _ => none
  | .val a, _ => some a
  | .op f, old => (f old).getD old
  | _, old => old

/-- What an update leaves in a required column. -/
def patchReq (x : Field α) (old : α) : α := (x.patch (some old)).getD old

/-- The client takes the value as a filter on a column. -/
def filters (nullable : Bool) : Field α → Bool
  | .null => nullable
  | .op _ | .other .. => false
  | _ => true

/-- What a filter keeps; other values are refused before. -/
def keeps [DecidableEq α] : Field α → Option α → Bool
  | .undefined, _ => true
  | .null, x => x.isNone
  | .val a, x => x == some a
  | .filter f, x => f x
  | _, _ => false

@[simp] lemma creates_undefined (n : Bool) : (undefined : Field α).creates n = true := rfl

@[simp] lemma creates_val (n : Bool) (a : α) : (val a).creates n = true := rfl

@[simp] lemma updates_undefined (n : Bool) : (undefined : Field α).updates n = true := rfl

@[simp] lemma updates_val (n : Bool) (a : α) : (val a).updates n = true := rfl

@[simp] lemma fails_undefined (old : Option α) : (undefined : Field α).fails old = false := rfl

@[simp] lemma fails_val (a : α) (old : Option α) : (val a).fails old = false := rfl

/-- A value for a new row is one for a row that is changed, and can be written. -/
lemma of_creates {x : Field α} {n : Bool} (h : x.creates n = true) :
    x.updates n = true ∧ x.filters n = true ∧ (∀ old, x.fails old = false) ∧
      x.patch none = x.arg.toOption := by
  cases x with
  | undefined | val => exact ⟨rfl, rfl, fun _ => rfl, rfl⟩
  | null => exact ⟨h, h, fun _ => rfl, rfl⟩
  | op | filter | other => cases h

end Field

/-- Truth of a nullable text column. -/
def truthy : Option String → Bool
  | some s => s ≠ ""
  | none => false

/-! ### Rows -/

abbrev Id := ℕ

abbrev Money := ℚ

structure User where
  role : UserRole
  status : UserStatus
  deriving DecidableEq, Repr

structure Student where
  dormitory : Option Dormitory
  numberFault : ℤ
  deriving DecidableEq, Repr

structure Order where
  shippingFee : Option Money
  studentId : Option Id
  checkCode : String
  weight : Option ℚ
  shipperId : Option Id
  isPaid : Bool
  paymentMethod : Option PaymentMethod
  building : Option String
  deliveryDate : Option String
  dormitory : Option Dormitory
  phone : Option String
  product : Option String
  room : Option String
  latestStatus : Option OrderStatus
  brand : Option String
  remainingAmount : Option Money
  finishedImage : Option String
  receivedImage : Option String
  deriving DecidableEq, Repr

structure OrderStatusHistory where
  orderId : Id
  status : OrderStatus
  reason : Option String
  time : String
  canceledImage : Option String
  deriving DecidableEq, Repr

structure Delivery where
  createdAt : String
  staffId : Option Id
  limitTime : ℤ
  latestStatus : DeliveryStatus
  numberOrder : ℕ
  displayId : String
  deriving DecidableEq, Repr

structure DeliveryStatusHistory where
  deliveryId : Id
  status : DeliveryStatus
  reason : Option String
  time : String
  canceledImage : Option String
  deriving DecidableEq, Repr

structure Payment where
  orderId : Id
  amount : Money
  isPaid : Bool
  orderCode : String
  counterAccountBankName : Option String
  counterAccountName : Option String
  counterAccountNumber : Option String
  deriving DecidableEq, Repr

/-- The tables. A history is in the order its rows were committed; a join row is keyed by
its delivery and its order. -/
structure DB where
  users : Table Id User
  students : Table Id Student
  staffs : List Id
  orders : Table Id Order
  orderStatusHistory : List OrderStatusHistory
  deliveries : Table Id Delivery
  deliveryStatusHistory : List DeliveryStatusHistory
  ordersOnDeliveries : Table (Id × Id) ℕ
  payments : Table Id Payment
  dormitoryRegulations : Table Dormitory ℤ
  deriving DecidableEq

namespace DB

/-- The status rows of an order, in the order they were committed. -/
def historyOf (s : DB) (id : Id) : List OrderStatusHistory :=
  s.orderStatusHistory.filter fun h => h.orderId = id

def deliveryHistoryOf (s : DB) (id : Id) : List DeliveryStatusHistory :=
  s.deliveryStatusHistory.filter fun h => h.deliveryId = id

end DB

inductive PrismaError
  | validation | uniqueConstraint | foreignKeyConstraint | recordNotFound | valueTooLong
  | valueOutOfRange
  deriving DecidableEq, Repr

inductive Exn
  | badRequest (message : String)
  | unauthorized (message : String)
  | forbidden (message : String)
  | notFound (message : String)
  | conflict (message : String)
  | internalServerError (message : String)
  | error (message : String)
  /-- A property of `null` or `undefined` was read. -/
  | typeError
  | prisma (e : PrismaError)
  /-- A service outside the database refused. -/
  | rejected
  deriving DecidableEq, Repr

/-- What one step reads from outside: whether the service it asks answers, the clock, what
the database generates or chooses, and which of several pending branches it belongs to. -/
structure Input where
  ok : Bool
  /-- Unix time in seconds. -/
  now : ℕ
  /-- The UTC date as `YYYY-MM-DD`. -/
  today : String
  fresh : Id
  displayId : String
  pick : ℕ
  random : ℕ
  branch : ℕ
  deriving DecidableEq, Repr, Inhabited

structure GetUserType where
  id : Id
  role : UserRole
  deriving DecidableEq, Repr

/-- A payment notification: what the handler reads of its data, and the signature. -/
structure WebhookType where
  orderCode : ℤ
  amount : Money
  counterAccountName : Arg String
  counterAccountNumber : Arg String
  counterAccountBankName : Arg String
  signature : String
  deriving DecidableEq, Repr

/-- The deployment and the libraries the code relies on. -/
structure Config where
  /-- `new Date(s).getTime()`, `none` for an invalid date. -/
  getTime : String → Option ℤ
  /-- `Number(s)`, `none` for `NaN`. -/
  toNumber : String → Option ℚ
  /-- `Number(process.env.BANNED_STUDENT_NUMBER)`, `none` for `NaN`. -/
  bannedStudentNumber : Option ℤ
  verifyPaymentWebhookData : WebhookType → Bool

end TsaBackend
