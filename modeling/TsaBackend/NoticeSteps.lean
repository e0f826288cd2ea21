import TsaBackend.Notifications
import TsaBackend.Protocol

/-!
What a single step of a call on notifications can do, one constructor for each statement that
writes, with the request it is a step of.
-/

namespace TsaBackend.NoticeSteps

open Call NotificationsService

variable {cfg : NoticeConfig} {s t : NoticeDB} {r : NoticeRequest}
  {G : NoticeDB → NoticeDB → Prop}

lemma createNotification_ok {id : Id} {row : Option Notification} {a : Id × Notification}
    (h : s.createNotification id row = .ok (a, t)) : a.1 = id ∧ row = some a.2 ∧
      id ∉ s.notifications ∧ t = { s with notifications := s.notifications.insert id a.2 } := by
  unfold NoticeDB.createNotification at h
  split at h
  · cases h
  split at h
  · cases h
  next hid =>
  split at h
  · cases h
    exact ⟨rfl, rfl, hid, rfl⟩
  · cases h

/-- A new notification is for the user that was asked for, and unread. -/
lemma create_some {dto : CreateNotificationDto} {createdAt : String} {row : Notification}
    (h : dto.create createdAt = some row) :
    dto.userId = some row.userId ∧ row.isRead = false ∧ row.createdAt = createdAt := by
  obtain ⟨type, -, h⟩ := Option.bind_eq_some_iff.mp h
  obtain ⟨userId, huser, h⟩ := Option.bind_eq_some_iff.mp h
  cases h
  exact ⟨huser, rfl, rfl⟩

lemma readNotification_ok {id : Id} {a : Id × Notification}
    (h : s.readNotification id = .ok (a, t)) :
    ∃ row, s.notifications.lookup id = some row ∧ a = (id, { row with isRead := true }) ∧
      t = { s with notifications :=
        s.notifications.modify id fun row => { row with isRead := true } } := by
  unfold NoticeDB.readNotification at h
  split at h
  · cases h
  · next row hrow =>
    cases h
    exact ⟨row, hrow, rfl, rfl⟩

/-- A registration switches a device of the user on, or adds one. -/
lemma upsertDevice_ok {dto : RegisterPushNotificationDto} {createdAt : String}
    (h : s.upsertDevice dto createdAt = .ok t) : ∃ deviceTokens,
      t = { s with deviceTokens } ∧ ∃ platform, parsePlatform dto.platform = some platform ∧
      ((∃ device, s.deviceTokens.lookup dto.token = some device ∧ device.userId = dto.userId ∧
        device.platform = platform ∧ deviceTokens = s.deviceTokens.modify dto.token fun device =>
          { device with pushNotiType := .enabled }) ∨
        s.deviceTokens.lookup dto.token = none ∧ deviceTokens = s.deviceTokens.insert dto.token
          { userId := dto.userId, platform, pushNotiType := .enabled, createdAt }) := by
  unfold NoticeDB.upsertDevice at h
  split at h
  · cases h
  next platform hplatform =>
  split at h
  · next device hdevice =>
    split at h
    · next heq =>
      cases h
      exact ⟨_, rfl, platform, hplatform, .inl ⟨device, hdevice, heq.1, heq.2, rfl⟩⟩
    · cases h
  · next hnone =>
    split at h
    · cases h
      exact ⟨_, rfl, platform, hplatform, .inr ⟨hnone, rfl⟩⟩
    · cases h

lemma updateDevice_ok {dto : UnregisterPushNotificationDto} (h : s.updateDevice dto = .ok t) :
    ∃ deviceTokens, t = { s with deviceTokens } ∧ ∃ type device,
      s.deviceTokens.lookup dto.token = some device ∧ device.userId = dto.userId ∧
        deviceTokens = s.deviceTokens.modify dto.token fun device =>
          { device with pushNotiType := type } := by
  unfold NoticeDB.updateDevice at h
  split at h
  · cases h
  next type htype =>
  split at h
  · cases h
  next device hdevice =>
  split at h
  · next heq =>
    cases h
    exact ⟨_, rfl, type, device, hdevice, heq, rfl⟩
  · cases h

/-! ### Steps -/

/-- What a request asks to be pushed. -/
def pushOf : NoticeRequest → Option (Id × PushNotificationMessage)
  | .sendPushNotification userId message => userId.map fun userId => (userId, message)
  | .sendFullNotification n => n.userId.map fun userId => (userId, ⟨n.title, n.message⟩)
  | _ => none

/-- The notification a request asks to be stored. -/
def letterOf : NoticeRequest → Option CreateNotificationDto
  | .sendNotification dto => some dto
  | .sendFullNotification n => some {
      type := n.type.name
      title := n.title
      content := n.message
      orderId := n.orderId
      userId := n.userId
      deliveryId := n.deliveryId
      reportId := n.reportId }
  | _ => none

/-- One step of a request; the steps of calls that are not about notifications are `G` steps. -/
inductive NoticeStep (cfg : NoticeConfig) (G : NoticeDB → NoticeDB → Prop) :
    NoticeRequest → NoticeDB → NoticeDB → Prop
  | none {r : NoticeRequest} {s : NoticeDB} : NoticeStep cfg G r s s
  | create {r : NoticeRequest} {dto : CreateNotificationDto} {id : Id} {createdAt : String}
      {a : Id × Notification} {s t : NoticeDB} (hr : letterOf r = some dto)
      (h : s.createNotification id (dto.create createdAt) = .ok (a, t)) : NoticeStep cfg G r s t
  | email {r : NoticeRequest} {dto : CreateNotificationDto} {job : NotificationEmail}
      {s : NoticeDB} (hr : letterOf r = some dto) :
      NoticeStep cfg G r s { s with emailJobs := s.emailJobs ++ [job] }
  | read {id : Id} {user : GetUserType} {a : Id × Notification} {s t : NoticeDB}
      (h : s.readNotification id = .ok (a, t)) :
      NoticeStep cfg G (.updateNotificationStatus id user) s t
  | readAll {user : GetUserType} {s : NoticeDB} :
      NoticeStep cfg G (.markAllNotificationsAsRead user) s (s.readNotifications user.id).2
  | register {dto : RegisterPushNotificationDto} {createdAt : String} {s t : NoticeDB}
      (h : s.upsertDevice dto createdAt = .ok t) :
      NoticeStep cfg G (.registerPushNotification dto) s t
  | unregister {dto : UnregisterPushNotificationDto} {s t : NoticeDB}
      (h : s.updateDevice dto = .ok t) : NoticeStep cfg G (.unregisterPushNotification dto) s t
  | push {r : NoticeRequest} {userId : Id} {message : PushNotificationMessage} {i : NoticeInput}
      {s : NoticeDB} (hr : pushOf r = some (userId, message)) : NoticeStep cfg G r s { s with
        pushJobs := s.pushJobs ++ pushes (s.enabledDevices i userId) message }
  | send {n : ℕ} {job : PushNotificationJobData} {s : NoticeDB} : NoticeStep cfg G (.process n) s
      { s with firebase := s.firebase ++ [firebaseMessage cfg job] }
  | other {c : NoticeCall Unit} {s t : NoticeDB} (h : G s t) : NoticeStep cfg G (.other c) s t

lemma steps_request {α : Type} {f : NoticeInput → NoticeDB → Except Exn (α × NoticeDB)}
    (hrefl : ∀ s, G s s) (hok : ∀ i s a t, f i s = .ok (a, t) → G s t) :
    (request f).Steps G := by
  refine steps_atomic (fun i s a t h => ?_) hrefl
  split at h
  · exact hok i s a t h
  · cases h

lemma steps_query {α : Type} {f : NoticeInput → NoticeDB → α} (hrefl : ∀ s, G s s) :
    (request fun i s => .ok (f i s, s)).Steps G := by
  refine steps_request hrefl fun i s a t h => ?_
  cases h
  exact hrefl s

lemma ok_of_map {x : Except Exn NoticeDB} {a : Unit}
    (h : (x.map fun s => ((), s)) = .ok (a, t)) : x = .ok t := by
  rcases x with e | x
  · cases h
  · cases h
    rfl

lemma sendNotification_steps {dto : CreateNotificationDto} (hr : letterOf r = some dto) :
    (sendNotification dto).Steps (NoticeStep cfg G r) := by
  unfold sendNotification
  refine (steps_read _ fun _ => .none).bind fun createdAt => ?_
  refine (steps_request (fun _ => .none) fun i s a t h => .create hr h).bind fun row => ?_
  refine (steps_query fun _ => .none).bind fun user => ?_
  rcases user with _ | ⟨_, account⟩
  · exact steps_pure _
  · refine (steps_request (fun _ => .none) fun i s a t h => ?_).bind fun _ => steps_pure _
    cases h
    exact .email hr

lemma sendPushNotification_steps {userId : Option Id} {message : PushNotificationMessage}
    (hr : ∀ id ∈ userId, pushOf r = some (id, message)) :
    (sendPushNotification userId message).Steps (NoticeStep cfg G r) := by
  rcases userId with _ | userId
  · exact steps_throw _
  refine steps_request (fun _ => .none) fun i s a t h => ?_
  cases h
  exact .push (hr userId rfl)

lemma process_steps (n : ℕ) : (process cfg n).Steps (NoticeStep cfg G (.process n)) := by
  unfold process
  refine (steps_read _ fun _ => .none).bind fun found => ?_
  rcases found with _ | job
  · exact steps_pure _
  refine steps_atomic (fun i s a t h => ?_) fun _ => .none
  split at h
  · cases h
    exact .send
  · cases h

/-- **The steps of a request.** -/
theorem call_steps (hother : ∀ c, r = .other c → c.Steps G) :
    (r.call cfg).Steps (NoticeStep cfg G r) := by
  cases r with
  | sendNotification dto => exact (sendNotification_steps rfl).bind fun _ => steps_pure _
  | getNotifications user =>
    refine Steps.bind ?_ fun _ => steps_pure _
    exact (steps_query fun _ => .none).bind fun _ => (steps_query fun _ => .none).bind fun _ =>
      steps_pure _
  | updateNotificationStatus id user =>
    refine Steps.bind ((steps_query fun _ => .none).bind fun found => ?_) fun _ => steps_pure _
    refine (steps_throwIf _ _).bind fun _ => ?_
    exact steps_request (fun _ => .none) fun i s a t h => .read h
  | markAllNotificationsAsRead user =>
    refine (steps_request (fun _ => .none) fun i s a t h => ?_).bind fun _ => steps_pure _
    cases h
    exact .readAll
  | registerPushNotification dto =>
    refine Steps.bind ((steps_read _ fun _ => .none).bind fun createdAt => ?_)
      fun _ => steps_pure _
    exact steps_request (fun _ => .none) fun i s a t h => .register (ok_of_map h)
  | unregisterPushNotification dto =>
    exact (steps_request (fun _ => .none) fun i s a t h => .unregister (ok_of_map h)).bind
      fun _ => steps_pure _
  | checkPushNotification dto => exact (steps_query fun _ => .none).bind fun _ => steps_pure _
  | sendPushNotification userId message =>
    refine (sendPushNotification_steps fun id hid => ?_).bind fun _ => steps_pure _
    rw [Option.mem_def.mp hid]
    rfl
  | sendFullNotification n =>
    refine Steps.bind (Steps.all fun c hc => ?_) fun _ => steps_pure _
    rcases List.mem_pair.mp hc with rfl | rfl
    · exact (sendNotification_steps rfl).bind fun _ => steps_pure _
    · refine sendPushNotification_steps fun id hid => ?_
      rw [pushOf, Option.mem_def.mp hid]
      rfl
  | process n => exact (process_steps n).bind fun _ => steps_pure _
  | other c => exact ((hother c rfl).mono fun _ _ => .other).bind fun _ => steps_pure _

/-- The steps of calls that are not about notifications are `G` steps. -/
def OthersKeep (G : NoticeDB → NoticeDB → Prop) (requests : List NoticeRequest) : Prop :=
  ∀ c, .other c ∈ requests → c.Steps G

end TsaBackend.NoticeSteps
