import Mathlib.Algebra.Order.Ring.Rat
import Mathlib.Data.List.Sort
import TsaBackend.Prisma

/-!
`orders/utils/order.util.ts`: status transitions, permissions, fees and the history log.
-/

namespace TsaBackend

def validTransitions : OrderStatus → List OrderStatus
  | .pending => [.accepted, .rejected, .canceled]
  | .accepted => [.receivedExternal, .canceled]
  | .receivedExternal => [.inTransport, .canceled]
  | .inTransport => [.delivered, .canceled]
  | .delivered => []
  | .rejected => [.pending]
  | .canceled => [.pending]

def isValidTransition (src : Option OrderStatus) (dst : OrderStatus) : Bool :=
  match src with
  | some st => dst ∈ validTransitions st
  | none => false

def getCancelPermission (role : UserRole) (orderStatus : Option OrderStatus) : Bool :=
  match orderStatus with
  | some .inTransport => role = .admin ∨ role = .staff
  | some .receivedExternal | some .accepted | some .pending => role = .admin ∨ role = .student
  | _ => false

namespace shippingFeeList

def weight : List ℕ := [5000, 8000, 12000]

def floor : List ℕ := [0, 1000, 2000]

def buildingA : List (List String × ℕ) :=
  [(["A4", "A7", "A8", "A9"], 0),
   (["A1", "A2", "A3", "A5", "A6", "A10", "A11", "A12", "A13", "A14", "A15", "A16", "A17",
     "A18", "A19", "A20"], 2000),
   (["AH1", "AH2", "AG3", "AG4"], 4000)]

def buildingB : List (List String × ℕ) :=
  [(["BD2", "BD3", "BD4", "BD5", "BD6"], 0),
   (["BC1", "BC2", "BC3", "BC4", "BC5", "BC6", "BE1", "BE2", "BE3", "BE4"], 2000),
   (["BA1", "BA2", "BA3", "BA4", "BA5", "BB1", "BB2", "BB3", "BB4", "BB5"], 4000)]

end shippingFeeList

/-- The number that a comparison reads in a value. -/
def Field.number : Field ℚ → Arg ℚ
  | .other (some q) _ => .val q
  | x => x.arg

/-- The number a comparison sees: `NaN` for an absent value and `0` for `null`. -/
def Arg.toNumber : Arg ℚ → Option ℚ
  | .undefined => none
  | .null => some 0
  | .val q => some q

def weightFee (weight : Arg ℚ) : ℕ :=
  match weight.toNumber with
  | none => 12000
  | some w => if w < 1 then 5000 else if 1 ≤ w ∧ w ≤ 3 then 8000 else 12000

/-- `parseInt` of one character. -/
def parseIntChar (c : Char) : Option ℕ :=
  if c.isDigit then some (c.toNat - '0'.toNat) else none

def floorOf : Arg String → Option ℕ
  | .val room =>
    match room.toList with
    | [] => some 0
    | c :: _ => parseIntChar c
  | _ => some 0

def floorFee (room : Arg String) : ℕ :=
  match floorOf room with
  | none => 2000
  | some floor => if floor < 4 then 0 else if 4 ≤ floor ∧ floor ≤ 6 then 1000 else 2000

def buildingFees : Arg Dormitory → List (List String × ℕ)
  | .val .a => shippingFeeList.buildingA
  | _ => shippingFeeList.buildingB

def buildingFee (building : Arg String) (dormitory : Arg Dormitory) : ℕ :=
  ((buildingFees dormitory).filter fun e => e.1.any fun b => building = .val b).foldl
    (fun fee e => fee + e.2) 0

def getShippingFee (room building : Arg String) (dormitory : Arg Dormitory) (weight : Arg ℚ) : ℕ :=
  let fee := weightFee weight + floorFee room + buildingFee building dormitory
  if fee > 15000 then 15000 else fee

/-! ### Helpers, lookups and the history log -/

/-- `null` is the epoch for `new Date`, an absent value or an object an invalid date. -/
def convertToUnixTimestamp (cfg : Config) (dateString : Field String) : String :=
  let time := match dateString with
    | .null => some 0
    | .val s => cfg.getTime s
    | .other _ time => time
    | _ => none
  match time with
  | some ms => toString (ms / 1000)
  | none => "NaN"

def mapReason (type : Arg OrderCancelType) (reason : Arg String) : Option String :=
  match type, reason with
  | .val t, .val r =>
    if r = "" then none
    else match t with
      | .fromStaff => some ("Lí do xuất phát từ nhân viên: " ++ r)
      | .fromStudent => some ("Lí do xuất phát từ sinh viên: " ++ r)
  | _, _ => none

inductive ShortIdType
  | order | delivery
  deriving DecidableEq, Repr

/-- `s.slice(start)`; a negative start counts from the end. -/
def slice (s : String) (start : ℤ) : String :=
  .ofList (s.toList.drop (if start < 0 then start + s.length else start).toNat)

def shortenUUID (toUpperCase : String → String) (uuid : String) (type : ShortIdType) : String :=
  "#" ++ (if type = .order then "TSA" else "DELI") ++ toUpperCase (slice uuid (uuid.length - 6))

/-- The order is not looked at. -/
def validateUserForOrder {α : Type} (user : GetUserType) (_order : α) (role : UserRole) :
    Async Unit :=
  if role = .student ∧ user.role ≠ .student then throw (.unauthorized "Unauthorized") else pure ()

def existingOrder (checkCode brand : Field String) (_ : Id) (o : Order) : Bool :=
  checkCode.keeps (some o.checkCode) && brand.keeps o.brand

def findExistingOrder (checkCode brand : Field String) : Async (Option (Id × Order)) :=
  if ¬ (checkCode.filters false ∧ brand.filters true) then throw (.prisma .validation)
  else .read fun i s => s.orders.findFirst i.pick (existingOrder checkCode brand)

def setStatus (status : OrderStatus) (finishedImage receivedImage : Arg String) (o : Order) :
    Order :=
  { o with
    latestStatus := some status
    finishedImage := finishedImage.patch o.finishedImage
    receivedImage := receivedImage.patch o.receivedImage }

/-- The log row of a change at the time of the input. -/
def statusRow (orderId : Id) (status : OrderStatus) (reason : Option String)
    (canceledImage : Arg String) (i : Input) : OrderStatusHistory where
  orderId
  status
  reason
  time := toString i.now
  canceledImage := canceledImage.toOption

def createOrderStatusHistory (orderId : Id) (status : OrderStatus) (reason : Option String)
    (canceledImage finishedImage receivedImage : Arg String) : Async Unit :=
  execute fun i s => do
    let s ← s.createOrderStatusRow (statusRow orderId status reason canceledImage i)
    s.updateOrder orderId (setStatus status finishedImage receivedImage)

/-- The rows with the largest time; times are compared as text. -/
def latestRows (rows : List OrderStatusHistory) : List OrderStatusHistory :=
  rows.filter fun h => rows.all fun h' => ¬ h.time < h'.time

def DB.findLatestStatusRow (s : DB) (pick : ℕ) (orderId : Id) : Option OrderStatusHistory :=
  (latestRows (s.historyOf orderId))[pick % (latestRows (s.historyOf orderId)).length]?

def getLatestOrderStatus (orderId : Id) : Async (Option OrderStatus) :=
  .read fun i s => (s.findLatestStatusRow i.pick orderId).map (·.status)

def getHistoryTimee (orderId : Id) : Async (List OrderStatusHistory) :=
  .read fun _ s => (s.historyOf orderId).insertionSort fun h h' => ¬ h.time < h'.time

end TsaBackend
