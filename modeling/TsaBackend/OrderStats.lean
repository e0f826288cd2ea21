import Mathlib.Data.Rat.Floor
import TsaBackend.Calendar
import TsaBackend.Grouping
import TsaBackend.Requests

/-!
`orders/orders.service.impl.ts`: the statistics of staff and students, with
`date/date.service.impl.ts`.
-/

namespace TsaBackend

open Calendar

/-- The deployment with its local time and the texts of its percentages. -/
structure StatsConfig extends Config where
  zone : Zone
  /-- `((count / total) * 100).toFixed(2)` -/
  toPercentage : ℕ → ℕ → String

structure BrandPercentage where
  brand : String
  count : ℕ
  percentage : String
  deriving DecidableEq, Repr

structure DayStats where
  orderCount : ℕ
  totalShippingFee : Money
  deliveryCount : ℕ
  deriving DecidableEq, Repr

structure PeriodStats extends DayStats where
  period : String
  deriving DecidableEq, Repr

structure StaffOrdersStatsDto where
  totalOrders : ℕ
  totalShippingFee : Money
  brandPercentages : List BrandPercentage
  resultByDay : List PeriodStats
  deriving DecidableEq, Repr

structure StudentOrdersStatsDto where
  totalOrdersLastWeek : ℕ
  totalOrdersLastMonth : ℕ
  brandPercentages : List BrandPercentage
  deriving DecidableEq, Repr

/-- A number without its fraction. -/
def truncate (q : ℚ) : ℤ := if 0 ≤ q then ⌊q⌋ else ⌈q⌉

/-- The local date of a timestamp in seconds, `none` for an invalid date. -/
def StatsConfig.localDate (cfg : StatsConfig) (timestamp : Option ℚ) : Option CivilDate :=
  timestamp.bind fun t => cfg.zone.dateOf (truncate (t * 1000))

/-- The text of a date: neither day nor month is filled up, and the year has no century. -/
def periodOf (d : CivilDate) : String :=
  toString d.day ++ "/" ++ toString d.month ++ "/" ++ toString (d.year.tmod 100)

def getDateFromUnixTimestamp (cfg : StatsConfig) (timestamp : Option ℚ) : String :=
  match cfg.localDate timestamp with
  | some d => periodOf d
  | none => "NaN/NaN/NaN"

/-- `Number(order.deliveryDate)` -/
def deliveryTime (cfg : StatsConfig) (order : Order) : Option ℚ :=
  match order.deliveryDate with
  | none => some 0
  | some d => cfg.toNumber d

def creationTime (cfg : StatsConfig) (delivery : Delivery) : Option ℚ :=
  cfg.toNumber delivery.createdAt

/-! ### Statistics -/

namespace DayStats

def zero : DayStats := ⟨0, 0, 0⟩

def addOrder (order : Order) (s : DayStats) : DayStats :=
  { s with
    orderCount := s.orderCount + 1
    totalShippingFee := s.totalShippingFee + order.shippingFee.getD 0 }

def addDelivery (_ : Delivery) (s : DayStats) : DayStats :=
  { s with deliveryCount := s.deliveryCount + 1 }

end DayStats

/-- The orders and then the deliveries, grouped by day. -/
def groupedByDay (cfg : StatsConfig) (orders : List Order) (deliveries : List Delivery) :
    List (String × DayStats) :=
  Grouping.collect .zero (fun d => getDateFromUnixTimestamp cfg (creationTime cfg d))
    DayStats.addDelivery
    (Grouping.collect .zero (fun o => getDateFromUnixTimestamp cfg (deliveryTime cfg o))
      DayStats.addOrder [] orders) deliveries

/-- The time of the date that the comparison of periods reads off a text. -/
def timeOfPeriod (cfg : StatsConfig) (period : String) : Option ℤ :=
  match (period.toList.splitOn '/').map fun l => cfg.toNumber (String.ofList l) with
  | some d :: some m :: some y :: _ =>
    cfg.zone.startOf (truncate (2000 + y)) (truncate (m - 1) + 1) (truncate d)
  | _ => none

/-- `a` need not come after `b`; a comparison that is `NaN` counts as 0. -/
def comesFirst (cfg : StatsConfig) (a b : String) : Prop :=
  match timeOfPeriod cfg a, timeOfPeriod cfg b with
  | some x, some y => x ≤ y
  | _, _ => True

instance (cfg : StatsConfig) : DecidableRel (comesFirst cfg) := fun a b => by
  unfold comesFirst
  split <;> infer_instance

def staffStats (cfg : StatsConfig) (orders : List Order) (deliveries : List Delivery) :
    StaffOrdersStatsDto :=
  let grouped := groupedByDay cfg orders deliveries
  { totalOrders := orders.length
    totalShippingFee := orders.foldl (fun sum o => sum + o.shippingFee.getD 0) 0
    brandPercentages := []
    resultByDay := ((Grouping.keys grouped).insertionSort (comesFirst cfg)).map fun period =>
      { Grouping.value .zero period grouped with period } }

/-- The days a statistic goes back. -/
def statsDays (type : String) : Option ℤ :=
  match type with
  | "week" => some 7
  | "month" => some 30
  | "year" => some 365
  | _ => none

/-- `gte` on a text column. -/
def since (startTime : ℤ) (column : Option String) : Bool :=
  column.any fun d => ¬ d < toString startTime

namespace DB

/-- The delivered orders of a shipper from a time on. -/
def deliveredOrders (s : DB) (shipper : Id) (startTime : ℤ) : List Order :=
  (s.orders.matching fun _ o => o.shipperId = some shipper && since startTime o.deliveryDate &&
    o.latestStatus = some .delivered).map (·.2)

/-- The finished deliveries of a shipper from a time on. -/
def finishedDeliveries (s : DB) (shipper : Id) (startTime : ℤ) : List Delivery :=
  (s.deliveries.matching fun _ d => d.staffId = some shipper && d.latestStatus = .finished &&
    since startTime (some d.createdAt)).map (·.2)

end DB

def getOrdersStatsForStaff (cfg : StatsConfig) (type : String) (user : GetUserType) :
    Async StaffOrdersStatsDto := do
  let now ← input
  let some days := statsDays type | throw (.badRequest "Invalid type")
  let startTime := (now.now : ℤ) - days * 24 * 60 * 60
  let orders ← (.read fun i s => Table.anyOrder i.pick (s.deliveredOrders user.id startTime) :
    Async _)
  let deliveries ← (.read fun i s =>
    Table.anyOrder i.pick (s.finishedDeliveries user.id startTime) : Async _)
  return staffStats cfg orders deliveries

namespace DB

/-- The number of the orders of a student from a time on. -/
def countOrdersSince (s : DB) (student : Id) (startTime : ℤ) : ℕ :=
  (s.orders.matching fun _ o => o.studentId = some student && since startTime o.deliveryDate).length

/-- The accepted and delivered orders of a student. -/
def acceptedOrders (s : DB) (student : Id) : List Order :=
  (s.orders.matching fun _ o => o.studentId = some student &&
    (o.latestStatus = some .accepted ∨ o.latestStatus = some .delivered)).map (·.2)

end DB

/-- `groupBy`: the brands of the orders, each with the number of its rows whose brand is not
`null`. -/
def ordersByBrand (orders : List Order) : List (Option String × ℕ) :=
  (orders.map (·.brand)).dedup.map fun brand =>
    (brand, (orders.filter fun o => o.brand = brand ∧ o.brand.isSome).length)

/-- `entry.brand || 'Unknown'` -/
def brandLabel (brand : Option String) : String :=
  if truthy brand then brand.getD "" else "Unknown"

def brandPercentage (cfg : StatsConfig) (totalOrders : ℕ) (entry : Option String × ℕ) :
    BrandPercentage where
  brand := brandLabel entry.1
  count := entry.2
  percentage := cfg.toPercentage entry.2 totalOrders

def getOrdersStatsForStudent (cfg : StatsConfig) (user : GetUserType) :
    Async StudentOrdersStatsDto := do
  let now ← input
  let lastWeek := (now.now : ℤ) - 7 * 24 * 60 * 60
  let lastMonth := (now.now : ℤ) - 30 * 24 * 60 * 60
  let (totalOrdersLastWeek, totalOrdersLastMonth, totalOrders) ← (.read fun _ s =>
    (s.countOrdersSince user.id lastWeek, s.countOrdersSince user.id lastMonth,
      (s.acceptedOrders user.id).length) : Async _)
  if totalOrders > 0 then
    let ordersByBrand ← (.read fun i s =>
      Table.anyOrder i.pick (ordersByBrand (s.acceptedOrders user.id)) : Async _)
    return { totalOrdersLastWeek, totalOrdersLastMonth
             brandPercentages := ordersByBrand.map (brandPercentage cfg totalOrders) }
  else
    return { totalOrdersLastWeek, totalOrdersLastMonth, brandPercentages := [] }

/-- What the endpoint returns. -/
inductive OrdersStatsDto
  | staff (stats : StaffOrdersStatsDto)
  | student (stats : StudentOrdersStatsDto)

def getOrdersStats (cfg : StatsConfig) (type : String) (user : GetUserType) :
    Async OrdersStatsDto := do
  match user.role with
  | .admin => throw (.error "Not Implemented")
  | .staff => return .staff (← getOrdersStatsForStaff cfg type user)
  | .student => return .student (← getOrdersStatsForStudent cfg user)

end TsaBackend
