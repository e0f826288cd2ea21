import TsaBackend.Lens
import TsaBackend.Users

/-!
`auth/auth.service.impl.ts`: registration and sign-in.

What these calls keep of users and students besides the columns of `DB` are tables of their
own with the same keys. Tokens, password hashes and Google's answers are functions of the
deployment. A sign-in on a phone waits for the query of the devices that it greets.
-/

namespace TsaBackend

/-- The columns of a user that only these calls use. -/
structure UserAccount where
  firstName : Option String
  lastName : Option String
  verified : Bool
  phoneNumber : Option String
  photoUrl : Option String
  email : String
  password : Option String
  deriving DecidableEq, Repr

/-- The columns of a student that only these calls use. -/
structure Residence where
  building : Option String
  room : Option String
  deriving DecidableEq, Repr

/-- Times are in milliseconds. -/
structure VerificationEmail where
  expiresAt : ℕ
  token : String
  deriving DecidableEq, Repr

structure RefreshToken where
  expiresAt : ℕ
  userId : Id
  deriving DecidableEq, Repr

inductive AuthProviderType
  | google | credentials
  deriving DecidableEq, Repr

/-- The tables of all services. A verification is keyed by its user, a refresh token by its
text; the queue holds the address and the link of each verification email. -/
structure AuthDB extends DB where
  accounts : Table Id UserAccount
  residences : Table Id Residence
  verificationEmails : Table Id VerificationEmail
  refreshTokens : Table String RefreshToken
  authProviders : Table Id AuthProviderType
  emailQueue : List (String × String)
  deriving DecidableEq

/-- The tables of the other services. -/
def authLens : Lens AuthDB DB where
  get := AuthDB.toDB
  set s t := { t with toDB := s }
  get_set _ _ := rfl
  set_get _ := rfl
  set_set _ _ _ := rfl

/-- What one step reads from outside, with milliseconds and a generated token. -/
structure AuthInput extends Input where
  millis : ℕ
  uuid : String
  deriving DecidableEq, Repr, Inhabited

/-- `Date.now()` -/
def AuthInput.ms (i : AuthInput) : ℕ := i.now * 1000 + i.millis

abbrev AuthCall (α : Type) : Type := Call AuthDB AuthInput Exn α

/-- The claims of a token. -/
inductive JwtPayload
  | user (email : String) (role : UserRole) (id : Id)
  | registration (userId : Id)
  deriving DecidableEq, Repr

/-- The order in which a caller writes the claims of a session; a token signs their text. -/
inductive ClaimOrder
  | roleFirst | idFirst
  deriving DecidableEq, Repr

structure DecodedIdToken where
  email : Option String
  name : Option String
  picture : Option String
  deriving DecidableEq, Repr

structure AuthConfig extends Config where
  /-- A token for the claims in this order, the time of issue and the lifetime, in seconds. -/
  jwtSign : ClaimOrder → JwtPayload → ℕ → ℕ → String
  /-- The claims of a token, if it is accepted at this time. -/
  jwtVerify : String → ℕ → Option JwtPayload
  /-- The hash of a password under a salt. -/
  bcryptHash : String → ℕ → String
  bcryptCompare : String → String → Bool
  verifyIdToken : String → ℕ → Option DecodedIdToken
  appUrl : String
  mobileUrlCompleteSignup : String
  frontendUrlCompleteSignup : String

/-- The lifetime of a token without one of its own. -/
def defaultExpiresIn : ℕ := 3600

namespace AuthDB

/-- `user.findUnique` by id. -/
def findUser (s : AuthDB) (id : Id) : Option (User × UserAccount) := do
  let user ← s.users.lookup id
  let account ← s.accounts.lookup id
  return (user, account)

/-- `user.findUnique` by email. -/
def findUserByEmail (s : AuthDB) (email : String) : Option (Id × User × UserAccount) := do
  let (id, account) ← s.accounts.findFirst 0 fun _ account => account.email = email
  let user ← s.users.lookup id
  return (id, user, account)

/-- A new user with the defaults of the schema, and the student that comes with it. -/
def createUser (s : AuthDB) (id : Id) (account : UserAccount) : Except Exn AuthDB :=
  if id ∈ s.users ∨ id ∈ s.students ∨
      s.accounts.entries.any (fun e => e.2.email = account.email) then
    .error (.prisma .uniqueConstraint)
  else .ok { s with
    users := s.users.insert id { role := .student, status := .available }
    accounts := s.accounts.insert id account
    students := s.students.insert id { dormitory := none, numberFault := 0 }
    residences := s.residences.insert id { building := none, room := none } }

/-- `user.update` of columns that only these calls use; phone numbers are unique. -/
def updateAccountRow (s : AuthDB) (id : Id) (f : UserAccount → UserAccount) : Except Exn AuthDB :=
  match s.accounts.lookup id with
  | none => .error (.prisma .recordNotFound)
  | some account =>
    if (f account).phoneNumber.isSome ∧ s.accounts.entries.any (fun e =>
        e.1 ≠ id ∧ e.2.phoneNumber = (f account).phoneNumber) then
      .error (.prisma .uniqueConstraint)
    else .ok { s with accounts := s.accounts.modify id f }

def updateStudentRow (s : AuthDB) (id : Id) (dormitory : Dormitory) (residence : Residence) :
    Except Exn AuthDB :=
  if id ∈ s.students then .ok { s with
    students := s.students.modify id fun student => { student with dormitory := some dormitory }
    residences := s.residences.modify id fun _ => residence }
  else .error (.prisma .recordNotFound)

def createVerificationEmail (s : AuthDB) (userId : Id) (v : VerificationEmail) :
    Except Exn AuthDB :=
  if userId ∈ s.verificationEmails then .error (.prisma .uniqueConstraint)
  else if userId ∈ s.users then
    .ok { s with verificationEmails := s.verificationEmails.insert userId v }
  else .error (.prisma .foreignKeyConstraint)

def upsertVerificationEmail (s : AuthDB) (userId : Id) (v : VerificationEmail) :
    Except Exn AuthDB :=
  if userId ∈ s.verificationEmails then
    .ok { s with verificationEmails := s.verificationEmails.modify userId fun _ => v }
  else s.createVerificationEmail userId v

def deleteVerificationEmail (s : AuthDB) (userId : Id) : Except Exn AuthDB :=
  if userId ∈ s.verificationEmails then
    .ok { s with verificationEmails := s.verificationEmails.erase userId }
  else .error (.prisma .recordNotFound)

def createRefreshToken (s : AuthDB) (token : String) (r : RefreshToken) : Except Exn AuthDB :=
  if token ∈ s.refreshTokens then .error (.prisma .uniqueConstraint)
  else if r.userId ∈ s.users then
    .ok { s with refreshTokens := s.refreshTokens.insert token r }
  else .error (.prisma .foreignKeyConstraint)

variable {s t : AuthDB} {id : Id}

lemma createUser_ok {account : UserAccount} (h : s.createUser id account = .ok t) :
    id ∉ s.users ∧ id ∉ s.students ∧ t = { s with
      users := s.users.insert id { role := .student, status := .available }
      accounts := s.accounts.insert id account
      students := s.students.insert id { dormitory := none, numberFault := 0 }
      residences := s.residences.insert id { building := none, room := none } } := by
  unfold createUser at h
  split at h
  · cases h
  · next hid =>
    cases h
    exact ⟨fun hu => hid (.inl hu), fun hst => hid (.inr (.inl hst)), rfl⟩

lemma updateAccountRow_ok {f : UserAccount → UserAccount} (h : s.updateAccountRow id f = .ok t) :
    id ∈ s.accounts ∧ t = { s with accounts := s.accounts.modify id f } := by
  unfold updateAccountRow at h
  rcases ha : s.accounts.lookup id with _ | account
  · rw [ha] at h
    cases h
  · simp only [ha] at h
    split at h
    · cases h
    · cases h
      exact ⟨Table.mem_iff_lookup.mpr ⟨account, ha⟩, rfl⟩

lemma updateStudentRow_ok {dormitory : Dormitory} {residence : Residence}
    (h : s.updateStudentRow id dormitory residence = .ok t) : id ∈ s.students ∧ t = { s with
      students := s.students.modify id fun student => { student with dormitory := some dormitory }
      residences := s.residences.modify id fun _ => residence } := by
  unfold updateStudentRow at h
  split at h
  · next hid =>
    cases h
    exact ⟨hid, rfl⟩
  · cases h

lemma createVerificationEmail_ok {v : VerificationEmail}
    (h : s.createVerificationEmail id v = .ok t) : id ∉ s.verificationEmails ∧ id ∈ s.users ∧
      t = { s with verificationEmails := s.verificationEmails.insert id v } := by
  unfold createVerificationEmail at h
  split at h
  · cases h
  next hid =>
  split at h
  · next hu =>
    cases h
    exact ⟨hid, hu, rfl⟩
  · cases h

lemma upsertVerificationEmail_ok {v : VerificationEmail}
    (h : s.upsertVerificationEmail id v = .ok t) :
    ∃ verificationEmails, t = { s with verificationEmails } := by
  unfold upsertVerificationEmail at h
  split at h
  · cases h
    exact ⟨_, rfl⟩
  · obtain ⟨-, -, rfl⟩ := createVerificationEmail_ok h
    exact ⟨_, rfl⟩

lemma deleteVerificationEmail_ok (h : s.deleteVerificationEmail id = .ok t) :
    id ∈ s.verificationEmails ∧
      t = { s with verificationEmails := s.verificationEmails.erase id } := by
  unfold deleteVerificationEmail at h
  split at h
  · next hid =>
    cases h
    exact ⟨hid, rfl⟩
  · cases h

lemma createRefreshToken_ok {token : String} {r : RefreshToken}
    (h : s.createRefreshToken token r = .ok t) : token ∉ s.refreshTokens ∧ r.userId ∈ s.users ∧
      t = { s with refreshTokens := s.refreshTokens.insert token r } := by
  unfold createRefreshToken at h
  split at h
  · cases h
  next htoken =>
  split at h
  · next hu =>
    cases h
    exact ⟨htoken, hu, rfl⟩
  · cases h

end AuthDB

/-! ### Registration -/

def newAccount (email : String) : UserAccount where
  firstName := none
  lastName := none
  verified := false
  phoneNumber := none
  photoUrl := none
  email
  password := none

/-- The link is queued when the queue answers. -/
def sendVerificationEmail (email verificationLink : String) : AuthCall Unit :=
  .atomic fun i s =>
    if i.ok then .ok ((), { s with emailQueue := s.emailQueue ++ [(email, verificationLink)] })
    else .error .rejected

/-- A new token for a user, who is created with it when there is none; the token is
generated on the way to the statement. -/
def storeVerification (email : String) (user : Option (Id × User × UserAccount)) : AuthCall String :=
  .atomic fun i s => do
    let v : VerificationEmail := { token := i.uuid, expiresAt := i.ms + 3600000 }
    match user with
    | some (id, _, _) => return (i.uuid, ← s.upsertVerificationEmail id v)
    | none =>
      let s ← s.createUser i.fresh (newAccount email)
      return (i.uuid, ← s.createVerificationEmail i.fresh v)

def initiateRegistration (cfg : AuthConfig) (email : String) (mobile : Bool) : AuthCall String := do
  let user ← (.read fun _ s => s.findUserByEmail email : AuthCall _)
  Call.throwIf (user.any fun (_, _, account) => account.verified)
    (.badRequest "Email already registered")
  let token ← storeVerification email user
  sendVerificationEmail email
    (cfg.appUrl ++ "/api/auth/signup/verify?token=" ++ token ++ "&mobile=" ++ toString mobile)
  return "Verification email sent"

/-- An absent token filters nothing, and a parameter such as `token[not]` is an object that does
what it says. -/
def verifyEmail (cfg : AuthConfig) (token : Field String) (mobile : Bool) : AuthCall String := do
  Call.throwIf (¬ token.filters false) (.prisma .validation)
  let verificationEmail ← (.read fun i s => s.verificationEmails.findFirst i.pick fun _ v =>
    token.keeps (some v.token) && decide (i.ms < v.expiresAt) : AuthCall _)
  let some (userId, _) := verificationEmail | throw (.badRequest "Invalid or expired token")
  let jwtToken ← (.read fun i _ =>
    cfg.jwtSign .roleFirst (.registration userId) i.now defaultExpiresIn : AuthCall _)
  if mobile then return cfg.mobileUrlCompleteSignup ++ "/" ++ jwtToken
  else return cfg.frontendUrlCompleteSignup ++ "?token=" ++ jwtToken

structure SignUpDto where
  firstName : String
  lastName : String
  phoneNumber : Arg String
  password : String
  dormitory : Dormitory
  building : String
  room : String
  token : String
  deriving DecidableEq, Repr

/-- `verify(dto.token).userId`: tokens of a session have no such claim, and the client refuses
to look for a user without an id. -/
def registrationUser (cfg : AuthConfig) (token : String) (now : ℕ) : Except Exn Id :=
  match cfg.jwtVerify token now with
  | none => .error (.unauthorized "Invalid or expired token")
  | some (.user ..) => .error (.prisma .validation)
  | some (.registration userId) => .ok userId

/-- The transaction that completes a registration. -/
def AuthDB.completeRegistration (s : AuthDB) (userId : Id) (dto : SignUpDto)
    (hashedPassword : String) : Except Exn AuthDB := do
  let s ← s.updateAccountRow userId fun account => { account with
    firstName := some dto.firstName
    lastName := some dto.lastName
    phoneNumber := dto.phoneNumber.patch account.phoneNumber
    password := some hashedPassword
    verified := true }
  let s ← s.updateStudentRow userId dto.dormitory
    { building := some dto.building, room := some dto.room }
  s.deleteVerificationEmail userId

def completeRegistration (cfg : AuthConfig) (dto : SignUpDto) : AuthCall String := do
  let userId ← (.atomic fun i s =>
    (registrationUser cfg dto.token i.now).map fun userId => (userId, s) : AuthCall _)
  let user ← (.read fun _ s => s.findUser userId : AuthCall _)
  Call.throwIf (user.all fun (_, account) => account.verified)
    (.badRequest "User not found or already verified")
  (.atomic fun i s => (s.completeRegistration userId dto (cfg.bcryptHash dto.password i.random)).map
    fun s => ((), s) : AuthCall _)
  return "Registration completed successfully"

/-! ### Sign-in, refreshes and runs -/

def invalidEmailOrPassword : Exn := .unauthorized "Invalid email or password"

/-- The password of an account that signs in with Google is `null`. -/
def checkPassword (cfg : AuthConfig) (password : String) : Option String → AuthCall Unit
  | none => throw (.error "data and hash arguments required")
  | some hash => Call.throwIf (¬ cfg.bcryptCompare password hash) invalidEmailOrPassword

def validateUser (cfg : AuthConfig) (email password : String) :
    AuthCall (Id × User × UserAccount) := do
  let found ← (.read fun _ s => s.findUserByEmail email : AuthCall _)
  let some (id, user, account) := found | throw invalidEmailOrPassword
  Call.throwIf (¬ account.verified) invalidEmailOrPassword
  Call.throwIf (user.status = .deactivated) invalidEmailOrPassword
  checkPassword cfg password account.password
  return (id, user, account)

/-- The access token and the refresh token. -/
def generateTokens (cfg : AuthConfig) (order : ClaimOrder) (email : String) (id : Id)
    (role : UserRole) : AuthCall (String × String) :=
  .atomic fun i s => do
    let accessToken := cfg.jwtSign order (.user email role id) i.now defaultExpiresIn
    let refreshToken := cfg.jwtSign order (.user email role id) i.now 86400
    let s ← s.createRefreshToken refreshToken
      { expiresAt := i.ms + 24 * 60 * 60 * 1000, userId := id }
    return ((accessToken, refreshToken), s)

structure SignInResult where
  accessToken : String
  refreshToken : String
  id : Id
  user : User
  /-- Without the password. -/
  account : UserAccount
  studentAdditionalInfo : Option (Option Dormitory × Residence)
  deriving DecidableEq, Repr

/-- The profile of a student; one without a row has no fields to read. -/
def findStudentInfo (id : Id) (user : User) :
    AuthCall (Option (Option Dormitory × Residence)) := do
  if user.role = .student then
    let found ← (.read fun _ s => (s.students.lookup id, s.residences.lookup id) : AuthCall _)
    match found with
    | (some student, some residence) => return some (student.dormitory, residence)
    | _ => throw .typeError
  else return none

/-- `sendPushNotification` to the user: it waits for the query of the user's devices, and not for the
jobs it adds for them. -/
def sendGreeting : AuthCall Unit :=
  .atomic fun i s => if i.ok then .ok ((), s) else .error .rejected

/-- What both sign-ins do once the user is known. -/
def openSession (cfg : AuthConfig) (order : ClaimOrder) (id : Id) (user : User)
    (account : UserAccount) (mobile : Bool) : AuthCall SignInResult := do
  let studentAdditionalInfo ← findStudentInfo id user
  let (accessToken, refreshToken) ← generateTokens cfg order account.email id user.role
  Call.when mobile sendGreeting
  let account := { account with password := none }
  return { accessToken, refreshToken, id, user, account, studentAdditionalInfo }

def signin (cfg : AuthConfig) (id : Id) (user : User) (account : UserAccount) (mobile : Bool) :
    AuthCall SignInResult :=
  openSession cfg .roleFirst id user account mobile

/-- The names are the first word and the rest. -/
def googleAccount (email name : String) (picture : Option String) : UserAccount where
  firstName := some ((name.splitOn " ").headD "")
  lastName := some (" ".intercalate (name.splitOn " ").tail)
  verified := true
  phoneNumber := none
  photoUrl := picture
  email
  password := none

def createGoogleUser (email name : String) (picture : Option String) :
    AuthCall (Id × User × UserAccount) :=
  .atomic fun i s => do
    let account := googleAccount email name picture
    let s ← s.createUser i.fresh account
    return ((i.fresh, { role := .student, status := .available }, account),
      { s with authProviders := s.authProviders.insert i.fresh .google })

def findOrCreateGoogleUser (email : String) (decoded : DecodedIdToken) :
    AuthCall (Id × User × UserAccount) := do
  let found ← (.read fun _ s => s.findUserByEmail email : AuthCall _)
  match found with
  | some user => return user
  | none =>
    let some name := decoded.name | throw .typeError
    createGoogleUser email name decoded.picture

/-- Google's keys may be out of reach; then every token is invalid. -/
def signInWithGoogle (cfg : AuthConfig) (idToken : String) (mobile : Bool) :
    AuthCall SignInResult := do
  let decodedToken ← (.read fun i _ =>
    if i.ok then cfg.verifyIdToken idToken i.now else none : AuthCall _)
  let some decoded := decodedToken | throw (.unauthorized "Invalid Google ID token")
  let some email := decoded.email | throw (.prisma .validation)
  let (id, user, account) ← findOrCreateGoogleUser email decoded
  Call.when (¬ truthy account.photoUrl) (.atomic fun _ s =>
    (s.updateAccountRow id fun account =>
      { account with photoUrl := decoded.picture <|> account.photoUrl }).map fun s => ((), s))
  openSession cfg .idFirst id user account mobile

/-- A request of any service. A sign-in has passed the local strategy. -/
inductive AuthRequest
  | other (r : AccountRequest)
  | initiateRegistration (email : String) (mobile : Bool)
  | verifyEmail (token : Field String) (mobile : Bool)
  | completeRegistration (dto : SignUpDto)
  | signin (email password : String) (mobile : Bool)
  | signInWithGoogle (idToken : String) (mobile : Bool)

def AuthRequest.call (cfg : AuthConfig) : AuthRequest → AuthCall Unit
  | .other r => (r.call cfg.toConfig).zoom authLens AuthInput.toInput
  | .initiateRegistration email mobile => do
    let _ ← TsaBackend.initiateRegistration cfg email mobile
  | .verifyEmail token mobile => do let _ ← TsaBackend.verifyEmail cfg token mobile
  | .completeRegistration dto => do let _ ← TsaBackend.completeRegistration cfg dto
  | .signin email password mobile => do
    let (id, user, account) ← validateUser cfg email password
    let _ ← TsaBackend.signin cfg id user account mobile
  | .signInWithGoogle idToken mobile => do
    let _ ← TsaBackend.signInWithGoogle cfg idToken mobile

/-- One request after the other. -/
def serveAuth (cfg : AuthConfig) (s : AuthDB) (e : AuthRequest × (ℕ → AuthInput)) : AuthDB :=
  ((e.1.call cfg).exec e.2 s).2

end TsaBackend
