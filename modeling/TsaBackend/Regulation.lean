import TsaBackend.Schema
import TsaBackend.Concurrent
import TsaBackend.Machine

/-!
The regulations of the dormitories and their delivery slots:
`regulation/regulation.service.impl.ts`.
-/

namespace TsaBackend

open Call (throwIf)

structure DormitoryRegulation where
  name : Dormitory
  banThreshold : ℤ
  updateAt : ℕ
  deriving DecidableEq, Repr

structure AllowedDeliverySlot where
  regulationId : Id
  startTime : String
  endTime : String
  updateAt : ℕ
  deriving DecidableEq, Repr

structure RegulationDB where
  dormitoryRegulations : Table Id DormitoryRegulation
  allowedDeliverySlots : Table Id AllowedDeliverySlot
  deriving DecidableEq

abbrev RegulationCall (α : Type) : Type := Call RegulationDB Input Exn α

/-- The number of two digits. -/
def twoDigits (c c' : Char) : ℕ := 10 * (c.toNat - '0'.toNat) + (c'.toNat - '0'.toNat)

/-- `IsDeliveryTimeSlot`: two digits, a colon and two digits, a time of day. -/
def isDeliveryTimeSlot (time : String) : Bool :=
  match time.toList with
  | [h, h', ':', m, m'] =>
    [h, h', m, m'].all Char.isDigit && twoDigits h h' < 24 && twoDigits m m' < 60
  | _ => false

/-- A body of these types is not admitted unless its times are times of day. -/
structure CreateSlotDto where
  startTime : String
  endTime : String
  valid : isDeliveryTimeSlot startTime = true ∧ isDeliveryTimeSlot endTime = true

structure UpdateSlotDto where
  id : Id
  startTime : Arg String
  endTime : Arg String
  valid : startTime.toOption.all isDeliveryTimeSlot = true ∧
    endTime.toOption.all isDeliveryTimeSlot = true

structure RemoveSlotDto where
  id : Id

structure UpdateBanThresholdDto where
  banThreshold : ℕ

namespace RegulationDB

/-- The slots of a regulation with these times; an absent time filters nothing. -/
def slotFilter (dormitoryId : Id) (startTime endTime : Arg String)
    (slot : AllowedDeliverySlot) : Bool :=
  slot.regulationId = dormitoryId && startTime.accepts (some slot.startTime) &&
    endTime.accepts (some slot.endTime)

/-- `dormitoryRegulation.update({ data: { updateAt } })` -/
def touch (s : RegulationDB) (dormitoryId : Id) (i : Input) : Except Exn RegulationDB :=
  if dormitoryId ∈ s.dormitoryRegulations then
    .ok { s with dormitoryRegulations :=
      s.dormitoryRegulations.modify dormitoryId fun r => { r with updateAt := i.now } }
  else .error (.prisma .recordNotFound)

def createSlot (s : RegulationDB) (id : Id) (slot : AllowedDeliverySlot) :
    Except Exn RegulationDB :=
  if id ∈ s.allowedDeliverySlots then .error (.prisma .uniqueConstraint)
  else if slot.regulationId ∈ s.dormitoryRegulations then
    .ok { s with allowedDeliverySlots := s.allowedDeliverySlots.insert id slot }
  else .error (.prisma .foreignKeyConstraint)

/-- The slot of this id, when it is one of the regulation. -/
def findSlot (s : RegulationDB) (dormitoryId id : Id) : Option AllowedDeliverySlot :=
  (s.allowedDeliverySlots.lookup id).filter fun slot => slot.regulationId = dormitoryId

/-- The times of a slot after an update. -/
def changeSlot (dto : UpdateSlotDto) (i : Input) (slot : AllowedDeliverySlot) :
    AllowedDeliverySlot :=
  { slot with
    startTime := dto.startTime.patchReq slot.startTime
    endTime := dto.endTime.patchReq slot.endTime
    updateAt := i.now }

def updateSlot (s : RegulationDB) (dormitoryId : Id) (dto : UpdateSlotDto) (i : Input) :
    Except Exn RegulationDB :=
  match s.findSlot dormitoryId dto.id with
  | none => .error (.prisma .recordNotFound)
  | some _ => .ok { s with allowedDeliverySlots :=
      s.allowedDeliverySlots.modify dto.id (changeSlot dto i) }

def deleteSlot (s : RegulationDB) (dormitoryId id : Id) : Except Exn RegulationDB :=
  match s.findSlot dormitoryId id with
  | none => .error (.prisma .recordNotFound)
  | some _ => .ok { s with allowedDeliverySlots := s.allowedDeliverySlots.erase id }

end RegulationDB

/-- A transaction of these statements, as one step. -/
def regulationTransaction (f : Input → RegulationDB → Except Exn RegulationDB) :
    RegulationCall Unit :=
  .atomic fun i s => (f i s).map fun t => ((), t)

/-! ### The service -/

/-- A regulation and its slots. -/
def getRegulation (dormitory : Dormitory) :
    RegulationCall ((Id × DormitoryRegulation) × List (Id × AllowedDeliverySlot)) := do
  let found ← (.read fun i s =>
    (s.dormitoryRegulations.findFirst i.pick fun _ r => r.name = dormitory).map fun r =>
      (r, Table.anyOrder i.pick
        ((s.allowedDeliverySlots.matching fun _ slot => slot.regulationId = r.1).map
          fun e => (e.1, e.2))) : RegulationCall _)
  let some regulation := found
    | throw (.notFound "Không tìm thấy quy định cho ký túc xá này")
  return regulation

def addDeliverySlot (dormitoryId : Id) (dto : CreateSlotDto) : RegulationCall Unit := do
  let existingSlot ← (.read fun i s => s.allowedDeliverySlots.findFirst i.pick fun _ =>
    RegulationDB.slotFilter dormitoryId (.val dto.startTime) (.val dto.endTime) : RegulationCall _)
  throwIf existingSlot.isSome
    (.conflict "Timeslot này đã có sẵn trong quy định của KTX này")
  regulationTransaction fun i s => do
    let s ← s.touch dormitoryId i
    s.createSlot i.fresh
      { regulationId := dormitoryId, startTime := dto.startTime, endTime := dto.endTime,
        updateAt := i.now }

/-- The slot of the request itself is looked up, with the times of the request. -/
def updateDeliverySlot (dormitoryId : Id) (dto : UpdateSlotDto) : RegulationCall Unit := do
  throwIf (dto.startTime = .null ∨ dto.endTime = .null) (.prisma .validation)
  let existingSlot ← (.read fun i s => s.allowedDeliverySlots.findFirst i.pick fun id slot =>
    id = dto.id && RegulationDB.slotFilter dormitoryId dto.startTime dto.endTime slot :
      RegulationCall _)
  throwIf existingSlot.isSome
    (.conflict "Timeslot này đã có sẵn trong quy định của KTX này")
  regulationTransaction fun i s => do
    let s ← s.touch dormitoryId i
    s.updateSlot dormitoryId dto i

def removeDeliverySlot (dormitoryId : Id) (dto : RemoveSlotDto) : RegulationCall Unit := do
  let existingSlot ← (.read fun _ s => s.findSlot dormitoryId dto.id : RegulationCall _)
  throwIf existingSlot.isNone
    (.conflict "Timeslot này không tồn tại trong quy định của KTX này")
  regulationTransaction fun i s => do
    let s ← s.touch dormitoryId i
    s.deleteSlot dormitoryId dto.id

def updateBanThreshold (dormitoryId : Id) (dto : UpdateBanThresholdDto) : RegulationCall Unit := do
  let regulation ← (.read fun _ s => s.dormitoryRegulations.lookup dormitoryId : RegulationCall _)
  throwIf regulation.isNone (.notFound "Không tìm thấy quy định cho ký túc xá này")
  regulationTransaction fun i s =>
    if dormitoryId ∈ s.dormitoryRegulations then
      .ok { s with dormitoryRegulations := s.dormitoryRegulations.modify dormitoryId fun r =>
        { r with banThreshold := dto.banThreshold, updateAt := i.now } }
    else .error (.prisma .recordNotFound)

/-- A request that writes regulations. -/
inductive RegulationRequest
  | addDeliverySlot (dormitoryId : Id) (dto : CreateSlotDto)
  | updateDeliverySlot (dormitoryId : Id) (dto : UpdateSlotDto)
  | removeDeliverySlot (dormitoryId : Id) (dto : RemoveSlotDto)
  | updateBanThreshold (dormitoryId : Id) (dto : UpdateBanThresholdDto)

def RegulationRequest.call : RegulationRequest → RegulationCall Unit
  | .addDeliverySlot dormitoryId dto => TsaBackend.addDeliverySlot dormitoryId dto
  | .updateDeliverySlot dormitoryId dto => TsaBackend.updateDeliverySlot dormitoryId dto
  | .removeDeliverySlot dormitoryId dto => TsaBackend.removeDeliverySlot dormitoryId dto
  | .updateBanThreshold dormitoryId dto => TsaBackend.updateBanThreshold dormitoryId dto

/-- The tables after a request that ran alone. -/
def serveRegulation (s : RegulationDB) (l : RegulationRequest × (ℕ → Input)) : RegulationDB :=
  (l.1.call.exec l.2 s).2

end TsaBackend
