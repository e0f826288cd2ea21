import TsaBackend.Sessions

/-!
The endpoints of `auth/auth.controller.ts` and `users/users.controller.ts` behind their guards, and
the profiles and passwords of `users/users.service.impl.ts`.
-/

namespace TsaBackend

open Call (throwIf)

/-- What a step reads from outside: also what the image service answers, and the places of users
that no `orderBy` orders. -/
structure ApiInput extends AuthInput where
  uploadImage : String → Option String
  userRank : Id → ℕ

abbrev ApiCall (α : Type) : Type := Call ProfileDB ApiInput Exn α

/-- All tables, for calls that read less of the inputs. -/
def allTables : Lens ProfileDB ProfileDB where
  get s := s
  set s _ := s
  get_set _ _ := rfl
  set_get _ := rfl
  set_set _ _ _ := rfl

def onApi {α : Type} (c : ProfileCall α) : ApiCall α := c.zoom allTables ApiInput.toAuthInput

structure UpdatePasswordDto where
  currentPassword : String
  newPassword : String
  deriving DecidableEq, Repr

structure UpdateStudentDto where
  firstName : Arg String
  lastName : Arg String
  phoneNumber : Arg String
  dormitory : Arg Dormitory
  building : Arg String
  room : Arg String
  photoUrl : Arg String
  deriving DecidableEq, Repr

/-- A user, with the columns of the student that go with it. -/
structure UserEntity where
  id : Id
  user : User
  account : UserAccount
  student : Option (Option Dormitory × Residence)
  deriving DecidableEq, Repr

/-- A user of the list, with what it includes. -/
structure UserListItem extends UserEntity where
  studentRow : Option (Student × Residence)
  staffRow : Option Id
  deriving DecidableEq, Repr

structure StudentEntity extends UserEntity where
  numberFault : Option ℤ
  deriving DecidableEq, Repr

namespace UsersService

/-- The row of a student. -/
def findStudent (s : ProfileDB) (id : Id) : Option (Student × Residence) := do
  let student ← s.students.lookup id
  let residence ← s.residences.lookup id
  return (student, residence)

/-- The columns of the student that are shown with the user. -/
def studentInfo (row : Student × Residence) : Option Dormitory × Residence :=
  (row.1.dormitory, row.2)

def getUsers : ApiCall (List UserListItem) :=
  .read fun i s => (s.accounts.ranked i.userRank fun _ => true).filterMap fun (id, account) =>
    (s.users.lookup id).map fun user =>
      let studentRow := findStudent s id
      { id, user, account, studentRow
        staffRow := if id ∈ s.staffs then some id else none
        student := if user.role = .student then studentRow.map studentInfo else none }

/-- The password is left out. -/
def findById (id : Id) : ApiCall UserEntity := do
  let found ← (.read fun _ s => s.findUser id : ApiCall _)
  let some (user, account) := found | throw (.notFound "User not found")
  let student ← onApi (onProfiles (findStudentInfo id user))
  return { id, user, account := { account with password := none }, student }

/-- The columns of the user that the body has. -/
def patchAccount (data : UpdateStudentDto) (photoUrl : Arg String) (account : UserAccount) :
    UserAccount :=
  { account with
    firstName := data.firstName.patch account.firstName
    lastName := data.lastName.patch account.lastName
    phoneNumber := data.phoneNumber.patch account.phoneNumber
    photoUrl := photoUrl.patch account.photoUrl }

/-- `user.update` of these columns, and the row it leaves. -/
def updateUser (id : Id) (data : UpdateStudentDto) (photoUrl : Arg String) :
    ApiCall (User × UserAccount) :=
  .atomic fun _ s => do
    let t ← s.updateAccountRow id (patchAccount data photoUrl)
    match t.findUser id with
    | none => .error (.prisma .recordNotFound)
    | some found => .ok (found, { s with toAuthDB := t })

/-- `student.update` of the residence, and the row it leaves. -/
def updateStudent (id : Id) (data : UpdateStudentDto) : ApiCall (Student × Residence) :=
  .atomic fun _ s =>
    let t := { s with
      students := s.students.modify id fun student =>
        { student with dormitory := data.dormitory.patch student.dormitory }
      residences := s.residences.modify id fun residence =>
        { building := data.building.patch residence.building
          room := data.room.patch residence.room } }
    match findStudent t id with
    | none => .error (.prisma .recordNotFound)
    | some row => .ok (row, t)

/-- The URL of a new avatar, or the one of the body. -/
def avatarUrl (data : UpdateStudentDto) : Option String → ApiCall (Arg String)
  | none => return data.photoUrl
  | some avatar => .atomic fun i s =>
    match i.uploadImage avatar with
    | none => .error .rejected
    | some secureUrl => .ok (.val secureUrl, s)

/-- The password is in what is returned. -/
def updateStudentById (id : Id) (data : UpdateStudentDto) (avatar : Option String) :
    ApiCall StudentEntity := do
  let found ← (.read fun _ s => s.users.lookup id : ApiCall _)
  throwIf found.isNone (.notFound "Người dùng không tồn tại")
  let photoUrl ← avatarUrl data avatar
  let (user, account) ← updateUser id data photoUrl
  if user.role = .student then
    let row ← updateStudent id data
    return { id, user, account, student := some (studentInfo row)
             numberFault := some row.1.numberFault }
  else
    return { id, user, account, student := none, numberFault := none }

/-- `bcrypt.compare` throws without a hash. -/
def checkCurrentPassword (cfg : AuthConfig) (currentPassword : String) :
    Option String → ApiCall Unit
  | none => throw (.error "data and hash arguments required")
  | some hash => throwIf (¬ cfg.bcryptCompare currentPassword hash)
      (.badRequest "Mật khẩu hiện tại không đúng")

/-- The hash is computed on the way to the statement. -/
def setPassword (cfg : AuthConfig) (userId : Id) (newPassword : String) : ApiCall Unit :=
  .atomic fun i s => (s.updateAccountRow userId fun account =>
    { account with password := some (cfg.bcryptHash newPassword i.random) }).map fun t =>
      ((), { s with toAuthDB := t })

def updatePassword (cfg : AuthConfig) (userId : Id) (dto : UpdatePasswordDto) : ApiCall Unit := do
  let found ← (.read fun _ s => s.findUser userId : ApiCall _)
  let some (_, account) := found | throw (.badRequest "Người dùng không tồn tại")
  checkCurrentPassword cfg dto.currentPassword account.password
  setPassword cfg userId dto.newPassword

end UsersService

/-! ### Guards and requests -/

/-- A token without claims of a session leaves no role in the request. -/
def RolesGuard.canActivate (requiredRoles : List UserRole) : JwtPayload → ApiCall Unit
  | .user _ role _ => throwIf (requiredRoles ≠ [] ∧ role ∉ requiredRoles)
      (.unauthorized "Không có quyền truy cập.")
  | .registration _ => throwIf (requiredRoles ≠ []) (.unauthorized "Không có quyền truy cập.")

/-- `@Auth(...requiredRoles)` -/
def auth (cfg : SessionConfig) (requiredRoles : List UserRole) (accessToken : String) :
    ApiCall JwtPayload := do
  let user ← onApi (onProfiles (jwtAuthGuard cfg accessToken))
  RolesGuard.canActivate requiredRoles user
  return user

/-- `user.id`; without one the client refuses the first search of every service. -/
def ownId : JwtPayload → ApiCall Id
  | .user _ _ id => return id
  | .registration _ => throw (.prisma .validation)

/-- A request to these endpoints, or a call of another service. -/
inductive ApiRequest
  | initiateRegistration (email : String) (mobile : Bool)
  | verifyEmail (token : Field String) (mobile : Bool)
  | completeRegistration (dto : SignUpDto)
  | signin (email password : String) (mobile : Bool)
  | signInWithGoogle (idToken : String) (mobile : Bool)
  | refreshTokens (refreshToken : String)
  | signout (refreshToken : String)
  | getAllUsers (accessToken : String)
  | get (accessToken : String)
  | update (accessToken : String) (dto : UpdateStudentDto) (avatar : Option String)
  | updateStatus (accessToken : String) (id : Id) (status : UserStatus)
  | updatePassword (accessToken : String) (dto : UpdatePasswordDto)
  | updateRole (accessToken : String) (id : Id) (role : String)
  | delete (accessToken : String) (id : Id)
  | other (c : ApiCall Unit)

inductive ApiResponse
  | session (response : SessionResponse)
  | user (user : UserEntity)
  | users (users : List UserListItem)
  | student (student : StudentEntity)
  deriving DecidableEq, Repr

namespace ApiRequest

/-- An endpoint without a guard. -/
def publicCall (cfg : SessionConfig) (r : SessionRequest) : ApiCall ApiResponse := do
  let response ← onApi (r.call cfg)
  return .session response

open UsersService in
def call (cfg : SessionConfig) : ApiRequest → ApiCall ApiResponse
  | .initiateRegistration email mobile => publicCall cfg (.initiateRegistration email mobile)
  | .verifyEmail token mobile => publicCall cfg (.verifyEmail token mobile)
  | .completeRegistration dto => publicCall cfg (.completeRegistration dto)
  | .signin email password mobile => publicCall cfg (.signin email password mobile)
  | .signInWithGoogle idToken mobile => publicCall cfg (.signInWithGoogle idToken mobile)
  | .refreshTokens refreshToken => publicCall cfg (.refreshTokens refreshToken)
  | .signout refreshToken => publicCall cfg (.signout refreshToken)
  | .getAllUsers accessToken => do
    let _ ← auth cfg [.admin] accessToken
    return .users (← getUsers)
  | .get accessToken => do
    let id ← ownId (← auth cfg [] accessToken)
    return .user (← findById id)
  | .update accessToken dto avatar => do
    let id ← ownId (← auth cfg [] accessToken)
    return .student (← updateStudentById id dto avatar)
  | .updateStatus accessToken id status => do
    let _ ← auth cfg [.admin] accessToken
    publicCall cfg (.other (.updateUserStatus id status))
  | .updatePassword accessToken dto => do
    let id ← ownId (← auth cfg [] accessToken)
    UsersService.updatePassword cfg.toAuthConfig id dto
    return .session (.message "Cập nhật mật khẩu thành công")
  | .updateRole accessToken id role => do
    let _ ← auth cfg [.admin] accessToken
    publicCall cfg (.updateUserRole id role)
  | .delete accessToken id => do
    let _ ← auth cfg [.admin] accessToken
    publicCall cfg (.deleteUser id)
  | .other c => do
    c
    return .session .done

end ApiRequest

/-- The calls of some requests. -/
def apiCalls (cfg : SessionConfig) (requests : List ApiRequest) : List (ApiCall ApiResponse) :=
  requests.map (·.call cfg)

lemma apiCalls_get {cfg : SessionConfig} {requests : List ApiRequest} {k : ℕ} {r : ApiRequest}
    (hr : requests[k]? = some r) : (apiCalls cfg requests)[k]? = some (r.call cfg) := by
  rw [apiCalls, List.getElem?_map, hr, Option.map_some]

/-- A request to another service, among these calls. -/
def otherService (cfg : Config) (r : AccountRequest) : ApiCall Unit :=
  onApi (onProfiles ((r.call cfg).zoom authLens AuthInput.toInput))

end TsaBackend
