import TsaBackend.Auth

/-!
Sessions and accounts: the tokens of `auth/auth.service.impl.ts`, the strategy in front of every
authenticated request, and the roles and the deletion of accounts in
`users/users.service.impl.ts`.

The changes of a role are single statements, any of which the database may not answer.
-/

namespace TsaBackend

open Call (throwIf)

/-- The columns of a report that refer to profiles. -/
structure Report where
  studentId : Id
  replierId : Option Id
  deriving DecidableEq, Repr

/-- The tables with the profiles of administrators. -/
structure ProfileDB extends AuthDB where
  admins : List Id
  reports : List Report
  deriving DecidableEq

/-- The tables of registration and sign-in. -/
def profileLens : Lens ProfileDB AuthDB where
  get := ProfileDB.toAuthDB
  set s t := { t with toAuthDB := s }
  get_set _ _ := rfl
  set_get _ := rfl
  set_set _ _ _ := rfl

abbrev ProfileCall (α : Type) : Type := Call ProfileDB AuthInput Exn α

/-- A call of registration or sign-in among the calls on accounts. -/
def onProfiles {α : Type} (c : AuthCall α) : ProfileCall α := c.zoom profileLens id

/-- A statement the database may not answer. -/
def statement {α : Type} (f : ProfileDB → Except Exn (α × ProfileDB)) : ProfileCall α :=
  .atomic fun i s => if i.ok then f s else .error .rejected

structure SessionConfig extends AuthConfig where
  /-- A token without claims. -/
  jwtSignEmpty : ℕ → ℕ → String

/-- `sign` of the claims of a session; a registration token has none of them. -/
def signSession (cfg : SessionConfig) (payload : JwtPayload) (iat : ℕ) : String :=
  match payload with
  | .user email role id => cfg.jwtSign .roleFirst (.user email role id) iat defaultExpiresIn
  | .registration _ => cfg.jwtSignEmpty iat defaultExpiresIn

def invalidRefreshToken : Exn := .unauthorized "Invalid refresh token"

/-- `verify`, which throws on a token that is not accepted. -/
def verifyToken (cfg : SessionConfig) (token : String) : AuthCall JwtPayload :=
  .atomic fun i s => match cfg.jwtVerify token i.now with
    | some payload => .ok (payload, s)
    | none => .error .rejected

def refreshTokens (cfg : SessionConfig) (refreshToken : String) : AuthCall (String × String) :=
  tryCatch (do
    let payload ← verifyToken cfg refreshToken
    let (storedToken, now) ←
      (.read fun i s => (s.refreshTokens.lookup refreshToken, i.ms) : AuthCall _)
    throwIf (storedToken.all fun row => row.expiresAt < now) invalidRefreshToken
    let accessToken ← (.read fun i _ => signSession cfg payload i.now : AuthCall _)
    return (accessToken, refreshToken)) fun _ => throw invalidRefreshToken

def AuthDB.deleteRefreshToken (s : AuthDB) (token : String) : Except Exn AuthDB :=
  if token ∈ s.refreshTokens then .ok { s with refreshTokens := s.refreshTokens.erase token }
  else .error (.prisma .recordNotFound)

def signout (cfg : SessionConfig) (refreshToken : String) : AuthCall String :=
  tryCatch (do
    let _ ← verifyToken cfg refreshToken
    let storedToken ← (.read fun _ s => s.refreshTokens.lookup refreshToken : AuthCall _)
    throwIf storedToken.isNone invalidRefreshToken
    (.atomic fun _ s => (s.deleteRefreshToken refreshToken).map fun s => ((), s) : AuthCall _)
    return "Sign out successful") fun _ => throw invalidRefreshToken

/-- The claims of a registration token have no id to look for. -/
def validateUserForJwt (jwtPayload : JwtPayload) : AuthCall (User × UserAccount) :=
  match jwtPayload with
  | .registration _ => throw (.prisma .validation)
  | .user _ _ id => do
    let some (user, account) ← (.read fun _ s => s.findUser id : AuthCall _)
      | throw (.unauthorized "Invalid token")
    throwIf (user.status = .deactivated) (.unauthorized "Invalid token")
    return (user, account)

/-- The promise is not awaited: its result and its error are lost. -/
def JwtStrategy.validate (payload : JwtPayload) : AuthCall JwtPayload := do
  tryCatch (do let _ ← validateUserForJwt payload) fun _ => pure ()
  return payload

/-- `JwtAuthGuard`: the strategy on an access token. -/
def jwtAuthGuard (cfg : SessionConfig) (token : String) : AuthCall JwtPayload := do
  let payload ← (.read fun i _ => cfg.jwtVerify token i.now : AuthCall _)
  let some payload := payload | throw (.unauthorized "Phiên đăng nhập không hợp lệ.")
  JwtStrategy.validate payload

/-! ### Roles and deletion -/

/-- The role a string of the request names. -/
def parseRole : String → Option UserRole
  | "ADMIN" => some .admin
  | "STUDENT" => some .student
  | "STAFF" => some .staff
  | _ => none

namespace ProfileDB

/-- Tickets go with the student, orders stay without one, reports keep the row. -/
def deleteStudent (s : ProfileDB) (id : Id) : Except Exn ProfileDB :=
  if id ∉ s.students then .error (.prisma .recordNotFound)
  else if s.reports.any (·.studentId = id) then .error (.prisma .foreignKeyConstraint)
  else .ok { s with
    students := s.students.erase id
    residences := s.residences.erase id
    orders := s.orders.mapRows fun o =>
      if o.studentId = some id then { o with studentId := none } else o }

def deleteStaff (s : ProfileDB) (id : Id) : Except Exn ProfileDB :=
  if id ∉ s.staffs then .error (.prisma .recordNotFound)
  else .ok { s with
    staffs := s.staffs.filter (· ≠ id)
    orders := s.orders.mapRows fun o =>
      if o.shipperId = some id then { o with shipperId := none } else o
    deliveries := s.deliveries.mapRows fun d =>
      if d.staffId = some id then { d with staffId := none } else d }

def deleteAdmin (s : ProfileDB) (id : Id) : Except Exn ProfileDB :=
  if id ∉ s.admins then .error (.prisma .recordNotFound)
  else .ok { s with
    admins := s.admins.filter (· ≠ id)
    reports := s.reports.map fun r =>
      if r.replierId = some id then { r with replierId := none } else r }

def createStudent (s : ProfileDB) (id : Id) : Except Exn ProfileDB :=
  if id ∉ s.users then .error (.prisma .recordNotFound)
  else if id ∈ s.students then .error (.prisma .uniqueConstraint)
  else .ok { s with
    students := s.students.insert id { dormitory := none, numberFault := 0 }
    residences := s.residences.insert id { building := none, room := none } }

def createStaff (s : ProfileDB) (id : Id) : Except Exn ProfileDB :=
  if id ∉ s.users then .error (.prisma .recordNotFound)
  else if id ∈ s.staffs then .error (.prisma .uniqueConstraint)
  else .ok { s with staffs := id :: s.staffs }

def createAdmin (s : ProfileDB) (id : Id) : Except Exn ProfileDB :=
  if id ∉ s.users then .error (.prisma .recordNotFound)
  else if id ∈ s.admins then .error (.prisma .uniqueConstraint)
  else .ok { s with admins := id :: s.admins }

/-- `user.update` of the role; the client refuses a value outside the enum. -/
def updateRole (s : ProfileDB) (id : Id) (newRole : String) :
    Except Exn ((User × UserAccount) × ProfileDB) :=
  match parseRole newRole with
  | none => .error (.prisma .validation)
  | some role =>
    let t := { s with users := s.users.modify id fun user => { user with role } }
    match t.findUser id with
    | none => .error (.prisma .recordNotFound)
    | some user => .ok (user, t)

end ProfileDB

/-- Delete the profile of the old role, if there is one. -/
def deleteProfile (id : Id) (role : UserRole) (student staff admin : Bool) : ProfileCall Unit :=
  let delete (f : ProfileDB → Id → Except Exn ProfileDB) : ProfileCall Unit :=
    statement fun s => (f s id).map fun s => ((), s)
  if role = .student ∧ student then delete ProfileDB.deleteStudent
  else if role = .staff ∧ staff then delete ProfileDB.deleteStaff
  else if role = .admin ∧ admin then delete ProfileDB.deleteAdmin
  else pure ()

/-- Create the profile of the new role. -/
def createProfile (id : Id) (newRole : String) : ProfileCall Unit :=
  let create (f : ProfileDB → Id → Except Exn ProfileDB) : ProfileCall Unit :=
    statement fun s => (f s id).map fun s => ((), s)
  if newRole = "STUDENT" then create ProfileDB.createStudent
  else if newRole = "STAFF" then create ProfileDB.createStaff
  else if newRole = "ADMIN" then create ProfileDB.createAdmin
  else pure ()

def updateUserRole (id : Id) (newRole : String) : ProfileCall (User × UserAccount) := do
  let found ← statement fun s => .ok ((s.users.lookup id).map fun user =>
    (user.role, decide (id ∈ s.students), decide (id ∈ s.staffs), decide (id ∈ s.admins)), s)
  let some (role, student, staff, admin) := found | throw (.badRequest "User not exist!")
  deleteProfile id role student staff admin
  let updatedUser ← statement fun s => s.updateRole id newRole
  createProfile id newRole
  return updatedUser

/-- The rows of a user go with it; an administrator and the reports of a student keep it. -/
def ProfileDB.deleteUser (s : ProfileDB) (id : Id) : Except Exn ProfileDB :=
  if id ∉ s.users then .error (.prisma .recordNotFound)
  else if id ∈ s.admins ∨ s.reports.any (·.studentId = id) then
    .error (.prisma .foreignKeyConstraint)
  else .ok { s with
    users := s.users.erase id
    accounts := s.accounts.erase id
    students := s.students.erase id
    residences := s.residences.erase id
    staffs := s.staffs.filter (· ≠ id)
    verificationEmails := s.verificationEmails.erase id
    authProviders := s.authProviders.erase id
    refreshTokens := s.refreshTokens.filter fun _ row => row.userId ≠ id
    orders := s.orders.mapRows fun o => { o with
      studentId := if o.studentId = some id then none else o.studentId
      shipperId := if o.shipperId = some id then none else o.shipperId }
    deliveries := s.deliveries.mapRows fun d =>
      if d.staffId = some id then { d with staffId := none } else d }

def deleteUser (id : Id) : ProfileCall String := do
  statement fun s => (s.deleteUser id).map fun s => ((), s)
  return "User deleted successfully"

/-- A request of any service. -/
inductive SessionRequest
  | other (r : AccountRequest)
  | initiateRegistration (email : String) (mobile : Bool)
  | verifyEmail (token : Field String) (mobile : Bool)
  | completeRegistration (dto : SignUpDto)
  | signin (email password : String) (mobile : Bool)
  | signInWithGoogle (idToken : String) (mobile : Bool)
  | refreshTokens (refreshToken : String)
  | signout (refreshToken : String)
  | authenticate (accessToken : String)
  | updateUserRole (id : Id) (newRole : String)
  | deleteUser (id : Id)

inductive SessionResponse
  | done
  | message (text : String)
  | link (url : String)
  | session (result : SignInResult)
  | tokens (accessToken refreshToken : String)
  | payload (payload : JwtPayload)
  | user (user : User × UserAccount)
  deriving DecidableEq, Repr

/-- The sign-in of the local strategy. -/
def passwordSignin (cfg : AuthConfig) (email password : String) (mobile : Bool) :
    AuthCall SignInResult := do
  let (id, user, account) ← validateUser cfg email password
  signin cfg id user account mobile

def SessionRequest.call (cfg : SessionConfig) : SessionRequest → ProfileCall SessionResponse
  | .other r => do
    onProfiles ((r.call cfg.toConfig).zoom authLens AuthInput.toInput)
    return .done
  | .initiateRegistration email mobile =>
    onProfiles (TsaBackend.initiateRegistration cfg.toAuthConfig email mobile) >>= (pure ∘ .message)
  | .verifyEmail token mobile =>
    onProfiles (TsaBackend.verifyEmail cfg.toAuthConfig token mobile) >>= (pure ∘ .link)
  | .completeRegistration dto =>
    onProfiles (TsaBackend.completeRegistration cfg.toAuthConfig dto) >>= (pure ∘ .message)
  | .signin email password mobile =>
    onProfiles (passwordSignin cfg.toAuthConfig email password mobile) >>= (pure ∘ .session)
  | .signInWithGoogle idToken mobile =>
    onProfiles (TsaBackend.signInWithGoogle cfg.toAuthConfig idToken mobile) >>= (pure ∘ .session)
  | .refreshTokens refreshToken => do
    let (accessToken, refreshToken) ← onProfiles (TsaBackend.refreshTokens cfg refreshToken)
    return .tokens accessToken refreshToken
  | .signout refreshToken => onProfiles (TsaBackend.signout cfg refreshToken) >>= (pure ∘ .message)
  | .authenticate accessToken => onProfiles (jwtAuthGuard cfg accessToken) >>= (pure ∘ .payload)
  | .updateUserRole id newRole => TsaBackend.updateUserRole id newRole >>= (pure ∘ .user)
  | .deleteUser id => TsaBackend.deleteUser id >>= (pure ∘ .message)

/-- The response to a request that ran alone, and the tables after it. -/
def respond (cfg : SessionConfig) (s : ProfileDB) (l : SessionRequest × (ℕ → AuthInput)) :
    Except Exn SessionResponse × ProfileDB :=
  (l.1.call cfg).exec l.2 s

/-- One request after the other. -/
def serveSession (cfg : SessionConfig) (s : ProfileDB) (l : SessionRequest × (ℕ → AuthInput)) :
    ProfileDB :=
  (respond cfg s l).2

end TsaBackend
