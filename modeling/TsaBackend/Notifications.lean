import Mathlib.Data.String.Basic
import TsaBackend.Reports
import TsaBackend.Sessions

/-!
Notifications: `notifications/notifications.service.impl.ts`, its controller, and the worker of
`notifications/push-notifications.processor.ts`.

The queue of pushes is the log of the jobs that the code adds. Which of them a worker runs, when and
how often is left open.
-/

namespace TsaBackend

open Call (throwIf)

inductive NotificatioType
  | order | delivery | report
  deriving DecidableEq, Repr

inductive PushNotiType
  | enabled | disabled | logout
  deriving DecidableEq, Repr

inductive Platform
  | android | ios
  deriving DecidableEq, Repr

structure Notification where
  type : NotificatioType
  title : String
  content : String
  createdAt : String
  orderId : Option Id
  deliveryId : Option Id
  reportId : Option Id
  userId : Id
  isRead : Bool
  deriving DecidableEq, Repr

structure DeviceToken where
  userId : Id
  platform : Platform
  pushNotiType : PushNotiType
  createdAt : String
  deriving DecidableEq, Repr

structure PushNotificationMessage where
  title : String
  message : String
  deriving DecidableEq, Repr

structure PushNotificationJobData where
  userId : Id
  token : String
  message : PushNotificationMessage
  deriving DecidableEq, Repr

/-- What Firebase is asked to deliver. -/
structure FirebaseMessage where
  token : String
  message : PushNotificationMessage
  channelId : String
  scopeKey : String
  experienceId : String
  deriving DecidableEq, Repr

/-- The job of a notification email: what its markup is filled with. -/
structure NotificationEmail where
  address : String
  subject : String
  name : String
  content : String
  deriving DecidableEq, Repr

/-- The tables of the other services, with notifications, devices by their unique tokens, the jobs
added to both queues, and the messages Firebase has confirmed. -/
structure NoticeDB extends AuthDB where
  reports : Table Id ReportEntity
  notifications : Table Id Notification
  deviceTokens : Table String DeviceToken
  emailJobs : List NotificationEmail
  pushJobs : List PushNotificationJobData
  firebase : List FirebaseMessage
  deriving DecidableEq

/-- What a step reads from outside: also which of the two calls of `sendFullNotification` it belongs
to, the places of rows that no `orderBy` tells apart, and the text of an error. -/
structure NoticeInput extends Input where
  task : ℕ
  notificationRank : Id → ℕ
  deviceRank : String → ℕ
  error : String

structure NoticeConfig where
  expoInfo : String

abbrev NoticeCall (α : Type) : Type := Call NoticeDB NoticeInput Exn α

/-- The body of `POST /api/notifications`, and what services fill in: their `userId` can be a
column that is `null`. The type is not validated before it reaches the database. -/
structure CreateNotificationDto where
  type : String
  title : String
  content : String
  orderId : Arg Id
  deliveryId : Arg Id
  reportId : Arg Id
  userId : Option Id
  deriving DecidableEq, Repr

structure RegisterPushNotificationDto where
  userId : Id
  token : String
  platform : String
  deriving DecidableEq, Repr

structure UnregisterPushNotificationDto where
  userId : Id
  token : String
  type : String
  deriving DecidableEq, Repr

structure CheckPushNotificationDto where
  userId : Id
  token : String
  deriving DecidableEq, Repr

/-- The argument of `sendFullNotification`. -/
structure FullNotification where
  userId : Option Id
  type : NotificatioType
  title : String
  message : String
  orderId : Arg Id
  deliveryId : Arg Id
  reportId : Arg Id
  deriving DecidableEq, Repr

structure GetNotificationsDto where
  notifications : List (Id × Notification)
  unreadCount : ℕ
  deriving DecidableEq, Repr

/-! The names of the enums in the schema. -/

def NotificatioType.name : NotificatioType → String
  | .order => "ORDER"
  | .delivery => "DELIVERY"
  | .report => "REPORT"

def parseNotificatioType : String → Option NotificatioType
  | "ORDER" => some .order
  | "DELIVERY" => some .delivery
  | "REPORT" => some .report
  | _ => none

def parsePlatform : String → Option Platform
  | "ANDROID" => some .android
  | "IOS" => some .ios
  | _ => none

def parsePushNotiType : String → Option PushNotiType
  | "ENABLED" => some .enabled
  | "DISABLED" => some .disabled
  | "LOGOUT" => some .logout
  | _ => none

@[simp] lemma parse_name (type : NotificatioType) : parseNotificatioType type.name = some type := by
  cases type <;> rfl

/-- The row of `notification.create({ data: { ...dto, createdAt } })`. -/
def CreateNotificationDto.create (dto : CreateNotificationDto) (createdAt : String) :
    Option Notification := do
  let type ← parseNotificatioType dto.type
  let userId ← dto.userId
  return {
    type
    title := dto.title
    content := dto.content
    createdAt
    orderId := dto.orderId.toOption
    deliveryId := dto.deliveryId.toOption
    reportId := dto.reportId.toOption
    userId
    isRead := false }

/-! ### Statements and the service -/

namespace NoticeDB

/-- The foreign keys of a notification point to rows. -/
def NotificationKeys (s : NoticeDB) (row : Notification) : Prop :=
  row.userId ∈ s.users ∧ (∀ id ∈ row.orderId, id ∈ s.orders) ∧
    (∀ id ∈ row.deliveryId, id ∈ s.deliveries) ∧ ∀ id ∈ row.reportId, id ∈ s.reports

instance (s : NoticeDB) (row : Notification) : Decidable (s.NotificationKeys row) := by
  unfold NotificationKeys; infer_instance

def createNotification (s : NoticeDB) (id : Id) (row : Option Notification) :
    Except Exn ((Id × Notification) × NoticeDB) :=
  match row with
  | none => .error (.prisma .validation)
  | some row =>
    if id ∈ s.notifications then .error (.prisma .uniqueConstraint)
    else if s.NotificationKeys row then
      .ok ((id, row), { s with notifications := s.notifications.insert id row })
    else .error (.prisma .foreignKeyConstraint)

/-- `notification.update` of `isRead`. -/
def readNotification (s : NoticeDB) (id : Id) : Except Exn ((Id × Notification) × NoticeDB) :=
  match s.notifications.lookup id with
  | none => .error (.prisma .recordNotFound)
  | some row => .ok ((id, { row with isRead := true }),
      { s with notifications := s.notifications.modify id fun row => { row with isRead := true } })

/-- `notification.updateMany` of `isRead`, and the number of rows. -/
def readNotifications (s : NoticeDB) (userId : Id) : ℕ × NoticeDB :=
  ((s.notifications.matching fun _ row => row.userId = userId).length,
    { s with notifications := s.notifications.mapRows fun row =>
        if row.userId = userId then { row with isRead := true } else row })

/-- `notification.findMany` by user, the newest first. -/
def findNotifications (s : NoticeDB) (i : NoticeInput) (userId : Id) : List (Id × Notification) :=
  (s.notifications.ranked i.notificationRank fun row => row.userId = userId).insertionSort
    fun a b => b.2.createdAt ≤ a.2.createdAt

def countUnread (s : NoticeDB) (userId : Id) : ℕ :=
  (s.notifications.matching fun _ row => row.userId = userId ∧ row.isRead = false).length

/-- The devices to send to. -/
def enabledDevices (s : NoticeDB) (i : NoticeInput) (userId : Id) : List (String × DeviceToken) :=
  s.deviceTokens.ranked i.deviceRank fun device =>
    device.userId = userId ∧ device.pushNotiType = .enabled ∧ device.platform = .android

/-- `deviceToken.upsert`: a token of another user or platform is not found and not free. -/
def upsertDevice (s : NoticeDB) (dto : RegisterPushNotificationDto) (createdAt : String) :
    Except Exn NoticeDB :=
  match parsePlatform dto.platform with
  | none => .error (.prisma .validation)
  | some platform =>
    match s.deviceTokens.lookup dto.token with
    | some device =>
      if device.userId = dto.userId ∧ device.platform = platform then .ok { s with
        deviceTokens := s.deviceTokens.modify dto.token fun device =>
          { device with pushNotiType := .enabled } }
      else .error (.prisma .uniqueConstraint)
    | none =>
      if dto.userId ∈ s.users then .ok { s with
        deviceTokens := s.deviceTokens.insert dto.token
          { userId := dto.userId, platform, pushNotiType := .enabled, createdAt } }
      else .error (.prisma .foreignKeyConstraint)

def updateDevice (s : NoticeDB) (dto : UnregisterPushNotificationDto) : Except Exn NoticeDB :=
  match parsePushNotiType dto.type with
  | none => .error (.prisma .validation)
  | some type =>
    match s.deviceTokens.lookup dto.token with
    | none => .error (.prisma .recordNotFound)
    | some device =>
      if device.userId = dto.userId then .ok { s with
        deviceTokens := s.deviceTokens.modify dto.token fun device =>
          { device with pushNotiType := type } }
      else .error (.prisma .recordNotFound)

end NoticeDB

namespace NotificationsService

/-- The text of a time. -/
def getCurrentUnixTimestamp : NoticeCall String := .read fun i _ => toString i.now

/-- A request to the database or to a queue, which may not answer. -/
def request {α : Type} (f : NoticeInput → NoticeDB → Except Exn (α × NoticeDB)) : NoticeCall α :=
  .atomic fun i s => if i.ok then f i s else .error .rejected

/-- `EmailService.sendNotificationEmail` -/
def sendNotificationEmail (toUser : UserAccount) (subject content : String) : NoticeCall Unit :=
  request fun _ s => .ok ((), { s with
    emailJobs := s.emailJobs ++ [{
      address := toUser.email
      subject
      name := interpolate toUser.lastName ++ " " ++ interpolate toUser.firstName
      content }] })
where
  interpolate (column : Option String) : String := column.getD "null"

def sendNotification (dto : CreateNotificationDto) : NoticeCall (Id × Notification) := do
  let createdAt ← getCurrentUnixTimestamp
  let newNotification ← request fun i s => s.createNotification i.fresh (dto.create createdAt)
  let user ← request fun _ s => .ok (dto.userId.bind s.findUser, s)
  match user with
  | some (_, account) => sendNotificationEmail account dto.title dto.content
  | none => pure ()
  return newNotification

def getNotifications (user : GetUserType) : NoticeCall GetNotificationsDto := do
  let notifications ← request fun i s => .ok (s.findNotifications i user.id, s)
  let unreadCount ← request fun _ s => .ok (s.countUnread user.id, s)
  return { notifications, unreadCount }

def updateNotificationStatus (id : Id) (user : GetUserType) : NoticeCall (Id × Notification) := do
  let notification ← request fun _ s =>
    .ok ((s.notifications.lookup id).filter (·.userId = user.id), s)
  throwIf notification.isNone (.notFound "Không tìm thấy thông báo")
  request fun _ s => s.readNotification id

def markAllNotificationsAsRead (user : GetUserType) : NoticeCall ℕ :=
  request fun _ s => .ok (s.readNotifications user.id)

/-- The jobs of a message to some devices. -/
def pushes (devices : List (String × DeviceToken)) (message : PushNotificationMessage) :
    List PushNotificationJobData :=
  devices.map fun (token, device) => { userId := device.userId, token, message }

/-- The adds for the devices that were found are not waited for. -/
def sendPushNotification (userId : Option Id) (message : PushNotificationMessage) :
    NoticeCall Unit :=
  match userId with
  | none => throw (.prisma .validation)
  | some userId => request fun i s => .ok ((), { s with
      pushJobs := s.pushJobs ++ pushes (s.enabledDevices i userId) message })

def registerPushNotification (dto : RegisterPushNotificationDto) : NoticeCall Unit := do
  let createdAt ← getCurrentUnixTimestamp
  request fun _ s => (s.upsertDevice dto createdAt).map fun s => ((), s)

def unregisterPushNotification (dto : UnregisterPushNotificationDto) : NoticeCall Unit :=
  request fun _ s => (s.updateDevice dto).map fun s => ((), s)

def checkPushNotification (dto : CheckPushNotificationDto) : NoticeCall (Option PushNotiType) :=
  request fun _ s => .ok (((s.deviceTokens.lookup dto.token).filter (·.userId = dto.userId)).map
    (·.pushNotiType), s)

def sendFullNotification (n : FullNotification) : NoticeCall Unit :=
  .all (fun k i => i.task = k) [
    do let _ ← sendNotification {
        type := n.type.name
        title := n.title
        content := n.message
        orderId := n.orderId
        userId := n.userId
        deliveryId := n.deliveryId
        reportId := n.reportId },
    sendPushNotification n.userId { title := n.title, message := n.message }]

/-! ### The queue of pushes, and calls that run together -/

def firebaseMessage (cfg : NoticeConfig) (job : PushNotificationJobData) : FirebaseMessage where
  token := job.token
  message := job.message
  channelId := "default"
  scopeKey := cfg.expoInfo
  experienceId := cfg.expoInfo

def sendPushNotificationForDevice (cfg : NoticeConfig) (job : PushNotificationJobData) :
    NoticeCall Unit :=
  .atomic fun i s =>
    if i.ok then .ok ((), { s with firebase := s.firebase ++ [firebaseMessage cfg job] })
    else .error (.error ("Failed to send push notification: " ++ i.error))

/-- One attempt of a worker at the job that was added as number `n`, if it has been. -/
def process (cfg : NoticeConfig) (n : ℕ) : NoticeCall Unit := do
  let some job ← (.read fun _ s => s.pushJobs[n]? : NoticeCall _) | pure ()
  sendPushNotificationForDevice cfg job

end NotificationsService

/-- What runs at the same time: the endpoints, the calls of other services, the workers, and calls
that are not about notifications. -/
inductive NoticeRequest
  | sendNotification (dto : CreateNotificationDto)
  | getNotifications (user : GetUserType)
  | updateNotificationStatus (id : Id) (user : GetUserType)
  | markAllNotificationsAsRead (user : GetUserType)
  | registerPushNotification (dto : RegisterPushNotificationDto)
  | unregisterPushNotification (dto : UnregisterPushNotificationDto)
  | checkPushNotification (dto : CheckPushNotificationDto)
  | sendPushNotification (userId : Option Id) (message : PushNotificationMessage)
  | sendFullNotification (n : FullNotification)
  | process (n : ℕ)
  | other (c : NoticeCall Unit)

inductive NoticeResponse
  | done
  | notification (id : Id) (row : Notification)
  | notifications (dto : GetNotificationsDto)
  | count (count : ℕ)
  | pushNotiType (pusNotiType : Option PushNotiType)
  deriving DecidableEq, Repr

def NoticeRequest.call (cfg : NoticeConfig) : NoticeRequest → NoticeCall NoticeResponse
  | .sendNotification dto => do
    let (id, row) ← NotificationsService.sendNotification dto
    return .notification id row
  | .getNotifications user => do
    return .notifications (← NotificationsService.getNotifications user)
  | .updateNotificationStatus id user => do
    let (id, row) ← NotificationsService.updateNotificationStatus id user
    return .notification id row
  | .markAllNotificationsAsRead user => do
    return .count (← NotificationsService.markAllNotificationsAsRead user)
  | .registerPushNotification dto => do
    NotificationsService.registerPushNotification dto
    return .done
  | .unregisterPushNotification dto => do
    NotificationsService.unregisterPushNotification dto
    return .done
  | .checkPushNotification dto => do
    return .pushNotiType (← NotificationsService.checkPushNotification dto)
  | .sendPushNotification userId message => do
    NotificationsService.sendPushNotification userId message
    return .done
  | .sendFullNotification n => do
    NotificationsService.sendFullNotification n
    return .done
  | .process n => do
    NotificationsService.process cfg n
    return .done
  | .other c => do
    c
    return .done

/-- The calls of some requests. -/
def noticeCalls (cfg : NoticeConfig) (requests : List NoticeRequest) :
    List (NoticeCall NoticeResponse) :=
  requests.map (·.call cfg)

namespace Sample

def studentAccount : UserAccount where
  firstName := some "An"
  lastName := some "Nguyen"
  verified := true
  phoneNumber := none
  photoUrl := none
  email := "an@hcmut.edu.vn"
  password := none

/-- A student has one device that takes pushes and one that does not. -/
def noticeDB : NoticeDB where
  toDB := db
  accounts := AList.insert 1 studentAccount ∅
  residences := ∅
  verificationEmails := ∅
  refreshTokens := ∅
  authProviders := ∅
  emailQueue := []
  reports := ∅
  notifications := ∅
  deviceTokens := [("off", ⟨1, .android, .logout, "0"⟩), ("on", ⟨1, .android, .enabled, "0"⟩)].foldl
    (fun t e => t.insert e.1 e.2) ∅
  emailJobs := []
  pushJobs := []
  firebase := []

def noticeConfig : NoticeConfig := ⟨"@tsa/app"⟩

/-- A service that answers, or one that does not. -/
def noticeInput (ok : Bool) (task : ℕ) : NoticeInput where
  toInput := { inputs 5 0 with ok }
  task
  notificationRank := id
  deviceRank := String.length
  error := "unavailable"

end Sample

end TsaBackend
