import TsaBackend.Lens
import TsaBackend.Requests

/-!
Reports of students on their orders: `reports/reports.service.impl.ts` and the endpoints of its
controller that write.

The notification of a reply is not waited for, so that a call does not depend on it.
-/

namespace TsaBackend

open Call (throwIf)

inductive ReportStatus
  | pending | replied
  deriving DecidableEq, Repr

structure ReportEntity where
  orderId : Id
  content : String
  reportedAt : String
  proof : String
  reply : Option String
  repliedAt : Option String
  status : ReportStatus
  replierId : Option Id
  studentId : Id
  deriving DecidableEq, Repr

/-- The tables with the reports and the administrators who reply to them. -/
structure ReportDB extends DB where
  admins : List Id
  reports : Table Id ReportEntity
  deriving DecidableEq

def reportLens : Lens ReportDB DB where
  get := ReportDB.toDB
  set s t := { t with toDB := s }
  get_set _ _ := rfl
  set_get _ := rfl
  set_set _ _ _ := rfl

abbrev ReportCall (α : Type) : Type := Call ReportDB Input Exn α

/-- A check of a request among the calls on reports. -/
def onReports {α : Type} (c : Async α) : ReportCall α := c.zoom reportLens id

/-- A status is not validated before it reaches the client. -/
structure CreateReport where
  orderId : Id
  content : String
  reportedAt : String
  proof : String
  reply : Arg String
  repliedAt : Arg String
  status : Field ReportStatus
  replierId : Arg Id
  studentId : Id

/-- The same properties, all optional; the body has no `id`. -/
structure UpdateReport where
  orderId : Arg Id
  content : Arg String
  reportedAt : Arg String
  proof : Arg String
  reply : Arg String
  repliedAt : Arg String
  status : Field ReportStatus
  replierId : Arg Id
  studentId : Arg Id

/-- The row of `report.create({ data: dto })`. -/
def CreateReport.create (dto : CreateReport) : Except Exn ReportEntity :=
  if dto.status.creates false then .ok {
    orderId := dto.orderId
    content := dto.content
    reportedAt := dto.reportedAt
    proof := dto.proof
    reply := dto.reply.toOption
    repliedAt := dto.repliedAt.toOption
    status := dto.status.patchReq .pending
    replierId := dto.replierId.toOption
    studentId := dto.studentId }
  else .error (.prisma .validation)

/-- A required column is set to `null`. -/
def UpdateReport.nulls (dto : UpdateReport) : Prop :=
  dto.orderId = .null ∨ dto.content = .null ∨ dto.reportedAt = .null ∨ dto.proof = .null ∨
    dto.studentId = .null

instance (dto : UpdateReport) : Decidable dto.nulls := by unfold UpdateReport.nulls; infer_instance

/-- The row after `report.update({ data: dto })`. -/
def UpdateReport.update (dto : UpdateReport) (r : ReportEntity) : Except Exn ReportEntity :=
  if dto.nulls ∨ dto.status.updates false = false ∨ dto.status.fails (some r.status) then
    .error (.prisma .validation)
  else .ok {
    orderId := dto.orderId.patchReq r.orderId
    content := dto.content.patchReq r.content
    reportedAt := dto.reportedAt.patchReq r.reportedAt
    proof := dto.proof.patchReq r.proof
    reply := dto.reply.patch r.reply
    repliedAt := dto.repliedAt.patch r.repliedAt
    status := dto.status.patchReq r.status
    replierId := dto.replierId.patch r.replierId
    studentId := dto.studentId.patchReq r.studentId }

/-! ### Statements and the service -/

namespace ReportDB

/-- Foreign keys of a report that a write sets point to rows. -/
def ReportKeys (s : ReportDB) (old : Option ReportEntity) (new : ReportEntity) : Prop :=
  (old.map (·.orderId) = some new.orderId ∨ new.orderId ∈ s.orders) ∧
    (old.map (·.studentId) = some new.studentId ∨ new.studentId ∈ s.students) ∧
    (old.map (·.replierId) = some new.replierId ∨ ∀ u ∈ new.replierId, u ∈ s.admins)

instance (s : ReportDB) (old : Option ReportEntity) (new : ReportEntity) :
    Decidable (s.ReportKeys old new) := by
  unfold ReportKeys; infer_instance

/-- The texts of a report that a write sets fit their columns; the others have no limit. -/
def ReportTexts (old : Option ReportEntity) (new : ReportEntity) : Prop :=
  Fits 255 (old.map (·.reportedAt)) (some new.reportedAt) ∧
    Fits 255 (old.map (·.proof)) (some new.proof) ∧
    Fits 255 (old.bind (·.repliedAt)) new.repliedAt

instance (old : Option ReportEntity) (new : ReportEntity) : Decidable (ReportTexts old new) := by
  unfold ReportTexts; infer_instance

def createReport (s : ReportDB) (id : Id) (r : ReportEntity) : Except Exn ReportDB :=
  if id ∈ s.reports then .error (.prisma .uniqueConstraint)
  else if ¬ ReportTexts none r then .error (.prisma .valueTooLong)
  else if s.ReportKeys none r then .ok { s with reports := s.reports.insert id r }
  else .error (.prisma .foreignKeyConstraint)

def updateReport (s : ReportDB) (id : Id) (dto : UpdateReport) :
    Except Exn (ReportEntity × ReportDB) :=
  match s.reports.lookup id with
  | none => .error (.prisma .recordNotFound)
  | some r => do
    let report ← dto.update r
    if ¬ ReportTexts (some r) report then .error (.prisma .valueTooLong)
    else if s.ReportKeys (some r) report then
      return (report, { s with reports := s.reports.modify id fun _ => report })
    else .error (.prisma .foreignKeyConstraint)

/-- Notifications lose their report. -/
def deleteReport (s : ReportDB) (id : Id) : Except Exn (ReportEntity × ReportDB) :=
  match s.reports.lookup id with
  | none => .error (.prisma .recordNotFound)
  | some r => .ok (r, { s with reports := s.reports.erase id })

end ReportDB

/-- `checkRowLevelPermission` with the roles it has by default. -/
def checkReportPermission (user : GetUserType) (requestedUid : Option Id) : ReportCall Bool :=
  onReports (checkRowLevelPermission user (requestedUid.map fun u => [u])
    [.admin, .staff, .student])

/-- The transaction of a creation. -/
def createTransaction (dto : CreateReport) (i : Input) (s : ReportDB) :
    Except Exn ((Id × ReportEntity) × ReportDB) :=
  if dto.orderId ∈ s.orders then do
    let report ← dto.create
    let s ← s.createReport i.fresh report
    return ((i.fresh, report), s)
  else .error (.badRequest "Không tìm thấy đơn hàng dưới hệ thống")

def createReport (dto : CreateReport) (user : GetUserType) : ReportCall (Id × ReportEntity) := do
  let _ ← checkReportPermission user (some dto.studentId)
  .atomic fun i s => createTransaction dto i s

def updateReport (id : Id) (dto : UpdateReport) (user : GetUserType) :
    ReportCall ReportEntity := do
  let some report ← (.read fun _ s => s.reports.lookup id : ReportCall _)
    | throw (.notFound "Report not found")
  let order ← (.read fun _ s => s.orders.lookup report.orderId : ReportCall _)
  let _ ← checkReportPermission user report.replierId
  -- the code of the order is put into the message
  throwIf (user.role = .admin ∧ dto.reply.truthy ∧ order.isNone) .typeError
  .atomic fun _ s => s.updateReport id dto

def deleteReport (id : Id) (user : GetUserType) : ReportCall ReportEntity := do
  let some report ← (.read fun _ s => s.reports.lookup id : ReportCall _)
    | throw (.notFound "Report not found")
  let _ ← checkReportPermission user report.replierId
  .atomic fun _ s => s.deleteReport id

namespace ReportsController

def create (dto : CreateReport) (user : GetUserType) : ReportCall (Id × ReportEntity) := do
  onReports (rolesGuard [.student] user)
  createReport dto user

/-- The endpoint names no roles. -/
def update (id : Id) (dto : UpdateReport) (user : GetUserType) : ReportCall ReportEntity :=
  updateReport id dto user

def remove (id : Id) (user : GetUserType) : ReportCall ReportEntity := do
  onReports (rolesGuard [.admin, .student] user)
  deleteReport id user

end ReportsController

/-- A request that writes reports. -/
inductive ReportRequest
  | create (dto : CreateReport)
  | update (id : Id) (dto : UpdateReport)
  | remove (id : Id)

def ReportRequest.call (user : GetUserType) : ReportRequest → ReportCall Unit
  | .create dto => do let _ ← ReportsController.create dto user
  | .update id dto => do let _ ← ReportsController.update id dto user
  | .remove id => do let _ ← ReportsController.remove id user

end TsaBackend
