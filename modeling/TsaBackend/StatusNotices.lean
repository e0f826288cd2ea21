import TsaBackend.PhaseRules
import TsaBackend.Pushes
import TsaBackend.Refinement
import TsaBackend.RequestSteps

/-!
No order changes its status silently under `updateStatus`.

Whatever else runs, a call writes a status row of an order with a student only after it has stored
a notification of this status for him and has started the pushes to his devices.
-/

namespace TsaBackend.StatusNotices

open Call NotificationsService OrderEffects RequestSteps Refinement

variable {cfg : GatewayConfig} {id : Id} {dto : UpdateStatusDto} {user : GetUserType}

/-- The word for a status in a message. -/
inductive Word : OrderStatus → String → Prop
  | canceled : Word .canceled "Bị Hủy"
  | delivered : Word .delivered "Đã Giao"
  | rejected : Word .rejected "Bị Từ Chối"
  | accepted : Word .accepted "Xác nhận"
  | pending : Word .pending "Đang chờ xử lý"
  | inTransport : Word .inTransport "Đang vận chuyển"
  | receivedExternal : Word .receivedExternal "Đang vận chuyển"

/-- The message tells of the new status of the order. -/
structure Tells (cfg : GatewayConfig) (order : Order) (status : OrderStatus)
    (message : PushNotificationMessage) : Prop where
  title : message.title = "Thay đổi trạng thái đơn hàng"
  text : ∃ word, Word status word ∧ message.message = "Đơn hàng " ++
    ("#TSA" ++ cfg.toUpperCase (slice order.checkCode (order.checkCode.length - 6))) ++
    " của bạn đã chuyển sang trạng thái " ++ word

/-- An unread notification of the order with this message is stored for the user, in a row of its
own. -/
def Stores (id userId : Id) (message : PushNotificationMessage) (s t : NoticeDB) : Prop :=
  ∃ nid createdAt, nid ∉ s.notifications ∧ t.notifications = s.notifications.insert nid {
    type := .order
    title := message.title
    content := message.message
    createdAt
    orderId := some id
    deliveryId := none
    reportId := none
    userId
    isRead := false }

/-- The pushes of this message to the enabled devices of the user are started. -/
def Starts (userId : Id) (message : PushNotificationMessage) (s t : NoticeDB) : Prop :=
  ∃ jobs, t.pushJobs = s.pushJobs ++ jobs ∧ Pushes.JobsFor s userId message jobs

/-- The reason that is logged: the one given, after the side it is of; none if one is missing. -/
structure Reason (dto : UpdateStatusDto) (reason : Option String) : Prop where
  staff : ∀ text ≠ "", dto.cancelReasonType = .val .fromStaff → dto.reason = .val text →
    reason = some ("Lí do xuất phát từ nhân viên: " ++ text)
  student : ∀ text ≠ "", dto.cancelReasonType = .val .fromStudent → dto.reason = .val text →
    reason = some ("Lí do xuất phát từ sinh viên: " ++ text)
  missing : (∀ type, dto.cancelReasonType ≠ .val type) ∨ (∀ text ≠ "", dto.reason ≠ .val text) →
    reason = none

/-- The status row that the request asks for is written. -/
def WritesRow (id : Id) (dto : UpdateStatusDto) (s t : GatewayDB) : Prop :=
  ∃ reason, Reason dto reason ∧ ∃ now : ℕ, t.orderStatusHistory = s.orderStatusHistory ++ [{
    orderId := id
    status := dto.status
    reason
    time := toString now
    canceledImage := dto.canceledImage.toOption }]

lemma word_statusText (status : OrderStatus) : Word status (Notified.statusText status) := by
  cases status <;> constructor

lemma reason_mapReason (dto : UpdateStatusDto) :
    Reason dto (mapReason dto.cancelReasonType dto.reason) := by
  refine ⟨fun text hne htype hreason => ?_, fun text hne htype hreason => ?_, fun hmissing => ?_⟩
  · rw [htype, hreason, mapReason, if_neg hne]
  · rw [htype, hreason, mapReason, if_neg hne]
  · unfold mapReason
    split
    · next type text htype hreason =>
      rcases hmissing with hno | hno
      · exact absurd htype (hno type)
      · exact if_pos (by_contra fun hne => hno text hne hreason)
    · rfl

/-- What `sendFullNotification` is given for a new status. -/
abbrev noticeOf (id userId : Id) (message : PushNotificationMessage) : FullNotification where
  userId := some userId
  type := .order
  title := message.title
  message := message.message
  orderId := .val id
  deliveryId := .undefined
  reportId := .undefined

/-- The notification is the one of a message that tells of the new status. -/
lemma statusNotification_eq {order : Order} {userId : Id} (huser : order.studentId = some userId)
    (id : Id) (status : OrderStatus) : ∃ message, Tells cfg order status message ∧
      Notified.statusNotification cfg id order status = noticeOf id userId message := by
  refine ⟨⟨"Thay đổi trạng thái đơn hàng", "Đơn hàng " ++ Notified.orderCode cfg order ++
    " của bạn đã chuyển sang trạng thái " ++ Notified.statusText status⟩,
    ⟨rfl, _, word_statusText status, ?_⟩, ?_⟩
  · rw [Notified.orderCode, shortenUUID]
    rfl
  rw [Notified.statusNotification, Notified.orderNotification, huser]

/-- A branch of a send, which leaves the tables of the orders, once marks its work as done. -/
inductive Marks (M : NoticeDB → NoticeDB → Prop) : Bool → NoticeDB → NoticeDB → Bool → Prop
  | keep {b : Bool} {s t : NoticeDB} (h : SameTables s t) : Marks M b s t b
  | mark {s t : NoticeDB} (h : SameTables s t) (hM : M s t) : Marks M false s t true

variable {userId : Id} {message : PushNotificationMessage}

/-- The calls of the branches go through their phases on any input. -/
abbrev Branch {α : Type} (M : NoticeDB → NoticeDB → Prop) (c : NoticeCall α) (b : Bool) : Prop :=
  c.Follows (fun _ _ _ => True) (Marks M) (fun b _ => b = true) (fun _ _ => True) b

lemma branch_done {α : Type} {M : NoticeDB → NoticeDB → Prop} {c : NoticeCall α}
    (h : c.Steps SameTables) : Branch M c true :=
  (h.mono fun _ _ => .keep).follows (fun _ => rfl) fun _ => trivial

/-- What `sendFullNotification` asks to be stored. -/
abbrev dtoOf (id userId : Id) (message : PushNotificationMessage) : CreateNotificationDto where
  type := NotificatioType.order.name
  title := message.title
  content := message.message
  orderId := .val id
  userId := some userId
  deliveryId := .undefined
  reportId := .undefined

lemma sendNotification_branch :
    Branch (Stores id userId message) (sendNotification (dtoOf id userId message)) false := by
  unfold sendNotification
  refine follows_read fun i₀ s _ => ⟨false, .keep rfl, ?_⟩
  refine Follows.bind (follows_atomic (fun i s a t _ h => ?_) fun i s e _ _ =>
    ⟨false, .keep rfl, trivial⟩)
  split at h
  · obtain ⟨-, hrow, hfree, rfl⟩ := NoticeSteps.createNotification_ok h
    simp only [CreateNotificationDto.create, parse_name, Option.bind_eq_bind, Option.bind_some,
      Option.pure_def, Option.some.injEq] at hrow
    refine ⟨true, .mark rfl ⟨i.fresh, toString i₀.now, hfree, by rw [← hrow]; rfl⟩, branch_done ?_⟩
    -- the email leaves the tables of the orders
    refine Steps.bind (NoticeSteps.steps_query fun _ => rfl) fun found => ?_
    rcases found with _ | ⟨_, account⟩
    · exact steps_pure _
    · refine Steps.bind (NoticeSteps.steps_request (fun _ => rfl) fun i s a t h => ?_)
        fun _ => steps_pure _
      cases h
      rfl
  · cases h

lemma sendPushNotification_branch :
    Branch (Starts userId message) (sendPushNotification (some userId) message) false := by
  refine follows_atomic (fun i s a t _ h => ?_) fun i s e _ _ => ⟨false, .keep rfl, trivial⟩
  split at h
  · cases h
    exact ⟨true, .mark rfl ⟨_, rfl, Pushes.jobsFor_pushes i _ _⟩, rfl⟩
  · cases h

/-- **A send that returns has done both.** -/
lemma sendFullNotification_branches :
    (NotificationsService.sendFullNotification (noticeOf id userId message)).Follows
      (fun _ _ _ => True) (Either (Marks (Stores id userId message)) (Marks (Starts userId message)))
      (fun p _ => p = (true, true)) (fun _ _ => True) (false, false) := by
  have hstore : Branch (Stores id userId message)
      (do let _ ← sendNotification (dtoOf id userId message)) false :=
    Follows.bind sendNotification_branch
  change (Call.par _ _ (Call.par _ _ (.pure ()))).Follows _ _ _ _ _
  rw [par_pure_right]
  refine (hstore.par sendPushNotification_branch).mono (fun _ _ _ h => h)
    (fun _ _ _ _ h => h) ?_ fun _ _ h => h
  rintro ⟨b, b'⟩ _ ⟨hb, hb'⟩
  exact Prod.ext hb hb'

/-! ### Status changes -/

/-- How far a call of `updateStatus` has come. -/
inductive Phase
  | start
  | found (order : Order) (stored started : Bool)
  | written

/-- The tables have the same status rows of orders. -/
def SameLog (s t : GatewayDB) : Prop := t.orderStatusHistory = s.orderStatusHistory

/-- What a step of the call does in its phase. -/
inductive Advances (cfg : GatewayConfig) (id : Id) (dto : UpdateStatusDto) :
    Phase → GatewayDB → GatewayDB → Phase → Prop
  | keep {p : Phase} {s t : GatewayDB} (h : SameLog s t) : Advances cfg id dto p s t p
  | find {order : Order} {s : GatewayDB} (h : s.orders.lookup id = some order) :
      Advances cfg id dto .start s s (.found order false false)
  | store {order : Order} {userId : Id} {message : PushNotificationMessage} {b : Bool}
      {s t : GatewayDB} (h : SameLog s t) (huser : order.studentId = some userId)
      (htells : Tells cfg order dto.status message)
      (hstore : Stores id userId message s.toNoticeDB t.toNoticeDB) :
      Advances cfg id dto (.found order false b) s t (.found order true b)
  | push {order : Order} {userId : Id} {message : PushNotificationMessage} {b : Bool}
      {s t : GatewayDB} (h : SameLog s t) (huser : order.studentId = some userId)
      (htells : Tells cfg order dto.status message)
      (hstart : Starts userId message s.toNoticeDB t.toNoticeDB) :
      Advances cfg id dto (.found order b false) s t (.found order b true)
  | write {order : Order} {b b' : Bool} {s t : GatewayDB}
      (hvalid : isValidTransition order.latestStatus dto.status = true)
      (htold : order.studentId.isSome → b = true ∧ b' = true) (h : WritesRow id dto s t) :
      Advances cfg id dto (.found order b b') s t .written

variable {α : Type}

/-- The call advances from its phase on, on any input, and may end anywhere. -/
abbrev Runs (cfg : GatewayConfig) (id : Id) (dto : UpdateStatusDto) (c : GatewayCall α)
    (p : Phase) : Prop :=
  c.Follows (fun _ _ _ => True) (Advances cfg id dto) (fun _ _ => True) (fun _ _ => True) p

lemma read_runs {β : Type} {f : Input → DB → β} {g : β → GatewayCall α} {p : Phase}
    (h : ∀ i s, ∃ q, Advances cfg id dto p s s q ∧ Runs cfg id dto (g (f i s.toDB)) q) :
    Runs cfg id dto (onStore (.read f) >>= g) p :=
  fun i s _ => h i.toInput s

lemma onStore_runs {β : Type} {c : Async β} {f : β → GatewayCall α} {p : Phase}
    (h : c.Steps fun s t => t.orderStatusHistory = s.orderStatusHistory)
    (hf : ∀ a, Runs cfg id dto (f a) p) : Runs cfg id dto (onStore c >>= f) p := by
  have hlog : c.Follows (fun _ _ _ => True)
      (fun p s t q => q = p ∧ t.orderStatusHistory = s.orderStatusHistory)
      (fun q a => Runs cfg id dto (f a) q) (fun _ _ => True) p :=
    (h.mono fun _ _ hst => ⟨rfl, hst⟩).follows hf fun _ => trivial
  refine Follows.bind (hlog.zoom (fun _ _ _ _ => trivial) ?_)
  rintro p t s _ ⟨rfl, hst⟩
  exact .keep hst

lemma checkCancel_log {order : Order} : (checkCancel cfg.toConfig order dto user).Steps
    fun s t => t.orderStatusHistory = s.orderStatusHistory := by
  unfold checkCancel
  refine (steps_throwIf _ _).bind fun _ => ?_
  refine (steps_throwIf _ _).bind fun _ => ?_
  refine (steps_throwIf _ _).bind fun _ => ?_
  refine Steps.when fun _ => steps_chargeFault (fun _ => rfl) fun s t studentId n ban h => ?_
  rw [chargeStudent_ok h]

lemma payCash_log : (execute fun _ s => s.updateOrder id payCash).Steps
    fun s t => t.orderStatusHistory = s.orderStatusHistory := by
  refine steps_execute (fun _ => rfl) fun i s t h => ?_
  obtain ⟨_, _, _, rfl⟩ := DB.updateOrder_ok h
  rfl

lemma record_advances {order : Order} {b b' : Bool}
    (hvalid : isValidTransition order.latestStatus dto.status = true)
    (htold : order.studentId.isSome → b = true ∧ b' = true) : Runs cfg id dto (do
      onStore (createOrderStatusHistory id dto.status (mapReason dto.cancelReasonType dto.reason)
        dto.canceledImage dto.finishedImage dto.receivedImage)
      return "Order status updated") (.found order b b') := by
  have hwrite : (createOrderStatusHistory id dto.status
      (mapReason dto.cancelReasonType dto.reason) dto.canceledImage dto.finishedImage
      dto.receivedImage).Follows (fun _ _ _ => True)
      (fun p s t q => ∀ u : GatewayDB, u.toDB = s →
        Advances cfg id dto p u (storeLens.set t u) q)
      (fun _ _ => True) (fun _ _ => True) (.found order b b') := by
    refine follows_atomic (fun i s _ t _ h => ?_) fun i s e _ _ =>
      ⟨_, fun u hu => .keep (by rw [← hu]; rfl), trivial⟩
    obtain ⟨-, rfl⟩ := logged_of_ok (of_map_ok h)
    refine ⟨.written, fun u hu => .write hvalid htold ⟨_, reason_mapReason dto, i.now, ?_⟩, trivial⟩
    rw [hu]
    rfl
  exact Follows.bind (hwrite.zoom (fun _ _ _ _ => trivial) fun p t s q h => h t rfl)

lemma recordStatus_advances {order : Order}
    (hvalid : isValidTransition order.latestStatus dto.status = true) :
    Runs cfg id dto (Notified.recordStatus cfg id dto order) (.found order false false) := by
  unfold Notified.recordStatus
  rcases huser : order.studentId with _ | userId
  · exact record_advances hvalid (by simp [huser])
  obtain ⟨message, htells, hnotice⟩ := @statusNotification_eq cfg order userId huser id dto.status
  rw [hnotice]
  have hsend : (Notified.sendFullNotification (noticeOf id userId message)).Follows (fun _ _ _ => True)
      (fun p s t q => Advances cfg id dto (.found order p.1 p.2) s t (.found order q.1 q.2))
      (fun p _ => p = (true, true)) (fun _ _ => True) (false, false) := by
    refine sendFullNotification_branches.zoom (fun _ _ _ _ => trivial) ?_
    rintro ⟨b, b'⟩ t s ⟨q, q'⟩ (⟨hmark, heq⟩ | ⟨heq, hmark⟩)
    · dsimp only at heq hmark ⊢
      subst heq
      cases hmark with
      | keep hsame => exact .keep (congrArg DB.orderStatusHistory hsame)
      | mark hsame hstore => exact .store (congrArg DB.orderStatusHistory hsame) huser htells hstore
    · dsimp only at heq hmark ⊢
      subst heq
      cases hmark with
      | keep hsame => exact .keep (congrArg DB.orderStatusHistory hsame)
      | mark hsame hstart => exact .push (congrArg DB.orderStatusHistory hsame) huser htells hstart
  have htold : (Notified.sendFullNotification (noticeOf id userId message)).Follows
      (fun _ _ _ => True)
      (Advances cfg id dto) (fun q _ => q = .found order true true) (fun _ _ => True)
      (.found order false false) :=
    hsend.map (g := fun p => Phase.found order p.1 p.2) (fun _ _ _ _ h => h)
      (fun p _ hp => by rw [hp]) fun _ _ _ => trivial
  refine Follows.bind ?_
  rw [when, if_pos (by simp)]
  refine htold.mono (fun _ _ _ h => h) (fun _ _ _ _ h => h) ?_ fun _ _ h => h
  rintro _ _ rfl
  exact record_advances hvalid fun _ => ⟨rfl, rfl⟩

/-- **One call.** -/
lemma updateStatus_advances :
    Runs cfg id dto (Notified.updateStatus cfg id dto user) .start := by
  unfold Notified.updateStatus
  refine read_runs fun i s => ?_
  rcases horder : s.orders.lookup id with _ | order
  · exact ⟨.start, .keep rfl, trivial⟩
  refine ⟨.found order false false, .find horder, ?_⟩
  refine follows_throwIf (fun _ => trivial) fun _ => ?_
  refine follows_throwIf (fun _ => trivial) fun _ => ?_
  have hchange : Runs cfg id dto (Notified.changeStatus cfg id dto user order)
      (.found order false false) := by
    unfold Notified.changeStatus
    refine follows_throwIf (fun _ => trivial) fun hvalid => ?_
    have hrecord : Runs cfg id dto (Notified.recordStatus cfg id dto order)
        (.found order false false) := recordStatus_advances (not_not.mp hvalid)
    rw [when]
    split
    · exact onStore_runs payCash_log fun _ => hrecord
    · exact hrecord
  rw [when]
  split
  · exact onStore_runs checkCancel_log fun _ => hchange
  · exact hchange

/-! ### Turns of a pool -/

/-- The call has read this order. -/
def Found (order : Order) (p : Phase) : Prop := ∃ b b', p = .found order b b'

/-- It has also stored its notification. -/
def Stored (order : Order) (p : Phase) : Prop := ∃ b, p = .found order true b

/-- It has also started its pushes. -/
def Started (order : Order) (p : Phase) : Prop := ∃ b, p = .found order b true

section Turns

variable {order : Order} {p q : Phase} {s t : GatewayDB}

lemma Advances.found (h : Advances cfg id dto p s t q) (hp : ¬ Found order p)
    (hq : Found order q) : p = .start ∧ s.orders.lookup id = some order := by
  obtain ⟨b, b', rfl⟩ := hq
  cases h with
  | keep => exact absurd ⟨b, b', rfl⟩ hp
  | find horder => exact ⟨rfl, horder⟩
  | store => exact absurd ⟨_, _, rfl⟩ hp
  | push => exact absurd ⟨_, _, rfl⟩ hp

lemma Advances.stored (h : Advances cfg id dto p s t q) (hp : ¬ Stored order p)
    (hq : Stored order q) (huser : order.studentId = some userId) : Found order p ∧
      ∃ message, Tells cfg order dto.status message ∧
        Stores id userId message s.toNoticeDB t.toNoticeDB := by
  obtain ⟨b, rfl⟩ := hq
  cases h with
  | keep => exact absurd ⟨b, rfl⟩ hp
  | store _ huser' htells hstore =>
    obtain rfl := Option.some.inj (huser.symm.trans huser')
    exact ⟨⟨_, _, rfl⟩, _, htells, hstore⟩
  | push => exact absurd ⟨_, rfl⟩ hp

lemma Advances.started (h : Advances cfg id dto p s t q) (hp : ¬ Started order p)
    (hq : Started order q) (huser : order.studentId = some userId) : Found order p ∧
      ∃ message, Tells cfg order dto.status message ∧
        Starts userId message s.toNoticeDB t.toNoticeDB := by
  obtain ⟨b, rfl⟩ := hq
  cases h with
  | keep => exact absurd ⟨b, rfl⟩ hp
  | store => exact absurd ⟨_, rfl⟩ hp
  | push _ huser' htells hstart =>
    obtain rfl := Option.some.inj (huser.symm.trans huser')
    exact ⟨⟨_, _, rfl⟩, _, htells, hstart⟩

lemma Advances.written (h : Advances cfg id dto p s t q) (hlog : ¬ SameLog s t) :
    ∃ order b b', p = .found order b b' ∧
      isValidTransition order.latestStatus dto.status = true ∧
      (order.studentId.isSome → b = true ∧ b' = true) ∧ WritesRow id dto s t := by
  cases h with
  | keep h => exact absurd h hlog
  | find => exact absurd rfl hlog
  | store h => exact absurd h hlog
  | push h => exact absurd h hlog
  | write hvalid htold h => exact ⟨_, _, _, rfl, hvalid, htold, h⟩

end Turns

section Pools

variable {cs : List (GatewayCall Unit)} {s : GatewayDB} {sched : List (ℕ × NoticeInput)}
  {k n : ℕ} {ph : ℕ → Phase} {order : Order}

lemma untold {l m : ℕ} (hmoves : ∀ m < n, Moves (Advances cfg id dto) s cs sched k ph m)
    (hl : l < n) (hstart : ph l = .start) (hm : Found order (ph m)) : l < m := by
  by_contra hle
  have hback : ph m = .start :=
    earlier (n := l) (fun j hj => hmoves j (by omega)) (P := (· = .start))
      (fun p s t q h hq => by subst hq; cases h; rfl) hstart (by omega)
  obtain ⟨b, b', hb⟩ := hm
  rw [hback] at hb
  cases hb

end Pools

/-- At position `n` call `k` writes the status row it was asked for: it has read the order, from
whose status there is this transition, and if the order had a student, it has then stored a
notification of the new status for him and has started the pushes to his enabled devices. -/
def WritesTold (cfg : GatewayConfig) (s : GatewayDB) (cs : List (GatewayCall Unit))
    (sched : List (ℕ × NoticeInput)) (k : ℕ) (id : Id) (dto : UpdateStatusDto) (n : ℕ) : Prop :=
  ∃ order l, l < n ∧ Turn sched k l ∧ (before s cs sched l).1.orders.lookup id = some order ∧
    isValidTransition order.latestStatus dto.status = true ∧
    WritesRow id dto (before s cs sched n).1 (before s cs sched (n + 1)).1 ∧
    ∀ userId ∈ order.studentId,
      (∃ m message, l < m ∧ m < n ∧ Turn sched k m ∧ Tells cfg order dto.status message ∧
        Stores id userId message (before s cs sched m).1.toNoticeDB
          (before s cs sched (m + 1)).1.toNoticeDB) ∧
      ∃ m message, l < m ∧ m < n ∧ Turn sched k m ∧ Tells cfg order dto.status message ∧
        Starts userId message (before s cs sched m).1.toNoticeDB
          (before s cs sched (m + 1)).1.toNoticeDB

def samplePool : List (GatewayCall Unit) :=
  [(Request.updateStatus 10 (.only .accepted) Sample.admin).notified Sample.gatewayConfig,
    GeolocationGateway.handleSubscribeToShipper Sample.gatewayConfig (.text 3) 8]

def sampleSched : List (ℕ × NoticeInput) :=
  [(0, 0), (1, 0), (0, 0), (0, 1), (0, 0), (0, 0), (0, 0), (0, 0)].map fun e =>
    (e.1, Sample.noticeInput true e.2)

end TsaBackend.StatusNotices
