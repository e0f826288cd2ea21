import TsaBackend.Requests

/-!
`users/users.service.impl.ts`: the status of an account and the faults that go with it.
-/

namespace TsaBackend

/-- `student?.dormitory`: absent without a student. -/
def dormitoryOf : Option Student → Arg Dormitory
  | none => .undefined
  | some student =>
    match student.dormitory with
    | none => .null
    | some dormitory => .val dormitory

/-- The threshold of a regulation with this name, or of any one for an absent name. -/
def findRegulation (name : Arg Dormitory) : Async (Option ℤ) :=
  if name = .null then throw (.prisma .validation)
  else .read fun i s => (s.dormitoryRegulations.findFirst i.pick fun dormitory _ =>
    name.accepts (some dormitory)).map (·.2)

/-- `regulation?.banThreshold || student?.numberFault || 0` -/
def oldNumberFault (banThreshold : Option ℤ) (student : Option Student) : ℤ :=
  let numberFault := (student.map (·.numberFault)).getD 0
  match banThreshold with
  | some t => if t = 0 then numberFault else t
  | none => numberFault

/-- `user.update` with the nested update of the student. -/
def DB.updateAccount (s : DB) (userId : Id) (status : UserStatus) (numberFault : Option ℤ) :
    Except Exn DB := do
  let s ← s.updateUser userId fun user => { user with status }
  match numberFault with
  | none => .ok s
  | some n => s.updateStudent userId fun student => { student with numberFault := n }

def writeAccount (userId : Id) (status : UserStatus) (numberFault : Option ℤ) : Async User :=
  executeReturning (fun s => s.users.lookup userId) fun _ s =>
    s.updateAccount userId status numberFault

/-- A ban sets the faults to the threshold; `NaN` is refused by the client. -/
def banStudent (cfg : Config) (userId : Id) (student : Option Student) : Async User := do
  let banThreshold ← findRegulation (dormitoryOf student)
  match bannedThreshold cfg banThreshold with
  | none => throw (.prisma .validation)
  | some threshold => writeAccount userId .banned (some threshold)

def unbanStudent (userId : Id) (student : Option Student) : Async User := do
  let banThreshold ← findRegulation (dormitoryOf student)
  writeAccount userId .available (some (max (oldNumberFault banThreshold student - 1) 0))

def updateUserStatus (cfg : Config) (userId : Id) (status : UserStatus) : Async User := do
  let (userToUpdate, student) ←
    (.read fun _ s => (s.users.lookup userId, s.students.lookup userId) : Async _)
  let some userToUpdate := userToUpdate | throw (.notFound "User not found")
  if status = .banned ∧ userToUpdate.role = .student then banStudent cfg userId student
  else if userToUpdate.role = .student ∧ userToUpdate.status = .banned ∧ status = .available then
    unbanStudent userId student
  else writeAccount userId status none

/-- A request of the application, or a change of an account's status. -/
inductive AccountRequest
  | request (r : Request)
  | updateUserStatus (userId : Id) (status : UserStatus)

def AccountRequest.call (cfg : Config) : AccountRequest → Async Unit
  | .request r => r.call cfg
  | .updateUserStatus userId status => do let _ ← TsaBackend.updateUserStatus cfg userId status

/-- One request after the other; what a request meets outside are its inputs. -/
def serveAccount (cfg : Config) (s : DB) (e : AccountRequest × (ℕ → Input)) : DB :=
  ((e.1.call cfg).exec e.2 s).2

end TsaBackend
