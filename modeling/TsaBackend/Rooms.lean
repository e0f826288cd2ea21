import TsaBackend.Gateways
import TsaBackend.Pools

/-!
The rooms of the sockets: who is connected, and who is told about what.

A socket is in the room of a subject just since it has asked for it and not left. The server of the
sockets is any that keeps its laws.
-/

namespace TsaBackend.Sockets

open Call GeolocationGateway PaymentGateway

variable {cfg : GatewayConfig} {s t : GatewayDB} {r : GatewayRequest}
  {requests : List GatewayRequest} {socket : SocketId}

/-- What a socket can be told about. -/
inductive Subject
  | shipper (shipperId : MessageValue)
  | payment (orderId : MessageValue)
  deriving DecidableEq, Repr

/-- The text of a value. -/
inductive Written (cfg : GatewayConfig) : MessageValue → String → Prop
  | undefined : Written cfg .undefined "undefined"
  | null : Written cfg .null "null"
  | text (id : Id) : Written cfg (.text id) (cfg.idText id)
  | other {json text : String} (h : cfg.jsonText json = some text) : Written cfg (.other json) text

/-- The room of a subject. -/
def Room (cfg : GatewayConfig) : Subject → String → Prop
  | .shipper v, room => ∃ text, Written cfg v text ∧ room = "shipper:" ++ text
  | .payment v, room => ∃ text, Written cfg v text ∧ room = "payment:" ++ text

/-- Subjects of one kind whose values have one text: the server cannot tell them apart. -/
def Alike (cfg : GatewayConfig) : Subject → Subject → Prop
  | .shipper v, .shipper w | .payment v, .payment w =>
    ∃ text, Written cfg v text ∧ Written cfg w text
  | _, _ => False

lemma Written.unique {v : MessageValue} {x y : String} (hx : Written cfg v x)
    (hy : Written cfg v y) : x = y := by
  cases hx with
  | other h =>
    cases hy with
    | other h' => exact Option.some.inj (h.symm.trans h')
  | _ =>
    cases hy
    rfl

lemma Room.unique {subject : Subject} {x y : String} (hx : Room cfg subject x)
    (hy : Room cfg subject y) : x = y := by
  cases subject with
  | shipper v =>
    obtain ⟨text, htext, rfl⟩ := hx
    obtain ⟨text', htext', rfl⟩ := hy
    rw [htext.unique htext']
  | payment v =>
    obtain ⟨text, htext, rfl⟩ := hx
    obtain ⟨text', htext', rfl⟩ := hy
    rw [htext.unique htext']

lemma shipper_ne_payment (x y : String) : "shipper:" ++ x ≠ "payment:" ++ y := by
  intro h
  have hhead := congrArg (fun room => room.toList.head?) h
  simp only [String.toList_append] at hhead
  have hshipper : "shipper:".toList = 's' :: "hipper:".toList := by decide
  have hpayment : "payment:".toList = 'p' :: "ayment:".toList := by decide
  rw [hshipper, hpayment] at hhead
  simp at hhead

lemma Written.eq_iff {v w : MessageValue} {x y : String} (hx : Written cfg v x)
    (hy : Written cfg w y) : x = y ↔ ∃ text, Written cfg v text ∧ Written cfg w text := by
  constructor
  · rintro rfl
    exact ⟨x, hx, hy⟩
  · rintro ⟨text, hv, hw⟩
    rw [hx.unique hv, hy.unique hw]

/-- **Two subjects have one room just if they are alike.** -/
theorem room_eq_iff {a b : Subject} {x y : String} (ha : Room cfg a x) (hb : Room cfg b y) :
    x = y ↔ Alike cfg a b := by
  cases a with
  | shipper v =>
    obtain ⟨text, hv, rfl⟩ := ha
    cases b with
    | shipper w =>
      obtain ⟨text', hw, rfl⟩ := hb
      rw [String.append_right_inj]
      exact hv.eq_iff hw
    | payment w =>
      obtain ⟨text', -, rfl⟩ := hb
      exact iff_of_false (shipper_ne_payment text text') not_false
  | payment v =>
    obtain ⟨text, hv, rfl⟩ := ha
    cases b with
    | shipper w =>
      obtain ⟨text', -, rfl⟩ := hb
      exact iff_of_false (shipper_ne_payment text' text).symm not_false
    | payment w =>
      obtain ⟨text', hw, rfl⟩ := hb
      rw [String.append_right_inj]
      exact hv.eq_iff hw

def roomOf (cfg : GatewayConfig) : Subject → GatewayCall String
  | .shipper v => getRoom cfg v
  | .payment v => getPaymentRoom cfg v

lemma template_cases (cfg : GatewayConfig) (v : MessageValue) : (∃ text, Written cfg v text ∧
    template cfg v = Pure.pure text) ∨ ∃ e, template cfg v = MonadExcept.throw e := by
  cases v with
  | undefined => exact .inl ⟨_, .undefined, rfl⟩
  | null => exact .inl ⟨_, .null, rfl⟩
  | text id => exact .inl ⟨_, .text id, rfl⟩
  | other json =>
    rcases htext : cfg.jsonText json with _ | text
    · exact .inr ⟨_, by simp only [template, htext]; rfl⟩
    · exact .inl ⟨text, .other htext, by simp only [template, htext]⟩

/-- The gateways find the room of a subject, or throw before they do anything. -/
lemma roomOf_cases (cfg : GatewayConfig) (subject : Subject) : (∃ room, Room cfg subject room ∧
    roomOf cfg subject = Pure.pure room) ∨ ∃ e, roomOf cfg subject = MonadExcept.throw e := by
  cases subject with
  | shipper v =>
    rcases template_cases cfg v with ⟨text, htext, heq⟩ | ⟨e, heq⟩
    · exact .inl ⟨_, ⟨text, htext, rfl⟩, by rw [roomOf, getRoom, heq]; rfl⟩
    · exact .inr ⟨e, by rw [roomOf, getRoom, heq]; rfl⟩
  | payment v =>
    rcases template_cases cfg v with ⟨text, htext, heq⟩ | ⟨e, heq⟩
    · exact .inl ⟨_, ⟨text, htext, rfl⟩, by rw [roomOf, getPaymentRoom, heq]; rfl⟩
    · exact .inr ⟨e, by rw [roomOf, getPaymentRoom, heq]; rfl⟩

lemma steps_room {α : Type} (subject : Subject) {f : String → GatewayCall α}
    {G : GatewayDB → GatewayDB → Prop} (hf : ∀ room, Room cfg subject room → (f room).Steps G) :
    (roomOf cfg subject >>= f).Steps G := by
  rcases roomOf_cases cfg subject with ⟨room, hroom, heq⟩ | ⟨e, heq⟩
  · rw [heq, pure_bind]
    exact hf room hroom
  · rw [heq]
    exact steps_throw e

/-! ### Steps and subscriptions -/

/-- What the gateways rely on: the server keeps its laws, and the id of a socket has no colon. -/
structure SocketLaws (io : Broker SocketId String SocketEvent) : Prop where
  lawful : io.Lawful
  ownTopic : ∀ socket, ':' ∉ (io.ownTopic socket).toList

lemma Room.ne_ownTopic {subject : Subject} {room : String} (laws : SocketLaws cfg.io)
    (h : Room cfg subject room) (socket : SocketId) : room ≠ cfg.io.ownTopic socket := by
  rintro rfl
  refine laws.ownTopic socket ?_
  cases subject with
  | shipper v =>
    obtain ⟨text, -, heq⟩ := h
    rw [heq, String.toList_append]
    exact List.mem_append_left _ (by decide)
  | payment v =>
    obtain ⟨text, -, heq⟩ := h
    rw [heq, String.toList_append]
    exact List.mem_append_left _ (by decide)

/-- The subject that a request asks for, and its socket. -/
def asked : GatewayRequest → Option (Subject × SocketId)
  | .subscribeToShipper shipperId socket => some (.shipper shipperId, socket)
  | .subscribeToPayment orderId socket => some (.payment orderId, socket)
  | _ => none

/-- The subject that a request gives up, and its socket. -/
def givenUp : GatewayRequest → Option (Subject × SocketId)
  | .unsubscribeFromShipper shipperId socket => some (.shipper shipperId, socket)
  | .unsubscribeFromPayment orderId socket => some (.payment orderId, socket)
  | _ => none

/-- The request asks to tell the socket about the subject. -/
def Starts (cfg : GatewayConfig) (subject : Subject) (socket : SocketId) (r : GatewayRequest) :
    Prop := ∃ other, asked r = some (other, socket) ∧ Alike cfg subject other

/-- The request asks to tell the socket about the subject no more, or disconnects it. -/
def Ends (cfg : GatewayConfig) (subject : Subject) (socket : SocketId) (r : GatewayRequest) :
    Prop :=
  (∃ other, givenUp r = some (other, socket) ∧ Alike cfg subject other) ∨ r = .disconnect socket

/-- The request takes no socket into a room or out of one. -/
structure Stays (r : GatewayRequest) : Prop where
  asked : asked r = none
  givenUp : givenUp r = none
  connected : ∀ socket, r ≠ .disconnect socket

/-- The request may send something. -/
def Emits : GatewayRequest → Prop
  | .locationUpdate _ _ | .handleWebhook _ => True
  | _ => False

lemma Emits.stays (h : Emits r) : Stays r := by
  cases r with
  | locationUpdate data socket => exact ⟨rfl, rfl, by simp⟩
  | handleWebhook body => exact ⟨rfl, rfl, by simp⟩
  | _ => exact h.elim

section Requests

variable {subject other : Subject} {socket' : SocketId} {room room' : String}

lemma starts_iff (hr : asked r = some (other, socket')) (hroom : Room cfg subject room)
    (hroom' : Room cfg other room') :
    Starts cfg subject socket r ↔ room = room' ∧ socket = socket' := by
  rw [room_eq_iff hroom hroom', Starts, hr]
  constructor
  · rintro ⟨_, heq, halike⟩
    cases heq
    exact ⟨halike, rfl⟩
  · rintro ⟨halike, rfl⟩
    exact ⟨other, rfl, halike⟩

lemma ends_iff (hr : givenUp r = some (other, socket')) (hroom : Room cfg subject room)
    (hroom' : Room cfg other room') :
    Ends cfg subject socket r ↔ room = room' ∧ socket = socket' := by
  rw [room_eq_iff hroom hroom', Ends, hr]
  constructor
  · rintro (⟨_, heq, halike⟩ | rfl)
    · cases heq
      exact ⟨halike, rfl⟩
    · cases hr
  · rintro ⟨halike, rfl⟩
    exact .inl ⟨other, rfl, halike⟩

lemma not_ends_of_asked (hr : asked r = some (other, socket')) : ¬ Ends cfg subject socket r := by
  rintro (⟨_, hgiven, -⟩ | rfl)
  · cases r <;> cases hr <;> cases hgiven
  · cases hr

lemma not_starts_of_givenUp (hr : givenUp r = some (other, socket')) :
    ¬ Starts cfg subject socket r := by
  rintro ⟨_, hasked, -⟩
  cases r <;> cases hr <;> cases hasked

/-- Nobody can ask for a subject without a room. -/
lemma not_starts_of_room (h : ¬ ∃ room, Room cfg subject room) :
    ¬ Starts cfg subject socket r := by
  rintro ⟨other, -, halike⟩
  refine h ?_
  cases subject <;> cases other <;> first
    | exact halike.elim
    | exact halike.imp' _ fun text ⟨hv, _⟩ => ⟨text, hv, rfl⟩

end Requests

lemma Stays.not_starts {subject : Subject} (h : Stays r) : ¬ Starts cfg subject socket r := by
  rintro ⟨other, hasked, -⟩
  rw [h.asked] at hasked
  cases hasked

lemma Stays.not_ends {subject : Subject} (h : Stays r) : ¬ Ends cfg subject socket r := by
  rintro (⟨other, hgiven, -⟩ | hconnected)
  · rw [h.givenUp] at hgiven
    cases hgiven
  · exact h.connected _ hconnected

/-- The socket is connected. -/
def Connected (cfg : GatewayConfig) (s : GatewayDB) (socket : SocketId) : Prop :=
  cfg.io.connected s.sockets socket

/-- The socket is in the room of the subject. -/
def Subscribed (cfg : GatewayConfig) (s : GatewayDB) (subject : Subject) (socket : SocketId) :
    Prop :=
  ∃ room, Room cfg subject room ∧ cfg.io.subscribed s.sockets room socket

lemma subscribed_iff {subject : Subject} {room : String} (h : Room cfg subject room) :
    Subscribed cfg s subject socket ↔ cfg.io.subscribed s.sockets room socket := by
  constructor
  · rintro ⟨room', hroom', hs⟩
    rwa [h.unique hroom']
  · exact fun hs => ⟨room, h, hs⟩

/-- What lets a request for a socket in: the token of its header, which is accepted at some time, or
a session id in its query. -/
inductive Admitted (cfg : GatewayConfig) (sid authorization : Option String) : Prop
  | token {header token : String} {rest : List (List Char)} {now : ℕ} {payload : JwtPayload}
      (hheader : authorization = some header)
      (hsplit : header.toList.splitOn ' ' = "Bearer".toList :: token.toList :: rest)
      (hne : token ≠ "") (hverify : cfg.jwtVerify token now = some payload)
  | session {id : String} (hsid : sid = some id)

/-- What a step of a request asks the server for. -/
inductive SocketStep (cfg : GatewayConfig) (r : GatewayRequest) (s t : GatewayDB) : Prop
  | same (hr : Stays r) (h : t.sockets = s.sockets)
  | connect {socket : SocketId} {sid authorization : Option String}
      (hr : r = .connect socket sid authorization) (hin : Admitted cfg sid authorization)
      (h : t.sockets = .connect socket :: s.sockets)
  | disconnect {socket : SocketId} (hr : r = .disconnect socket)
      (h : t.sockets = .disconnect socket :: s.sockets)
  | join {subject : Subject} {socket : SocketId} {room : String}
      (hr : asked r = some (subject, socket)) (hroom : Room cfg subject room)
      (h : t.sockets = .join room socket :: s.sockets)
  | leave {subject : Subject} {socket : SocketId} {room : String}
      (hr : givenUp r = some (subject, socket)) (hroom : Room cfg subject room)
      (h : t.sockets = .leave room socket :: s.sockets)
  | emit {room : String} {sender : Option SocketId} {event : SocketEvent} (hr : Emits r)
      (h : t.sockets = .emit room sender event :: s.sockets)

/-- The server is asked for nothing. -/
def SameSockets (s t : GatewayDB) : Prop := t.sockets = s.sockets

lemma sameSockets_refl (s : GatewayDB) : SameSockets s s := rfl

/-- The calls that are not about sockets leave them. -/
def OthersKeep (requests : List GatewayRequest) : Prop :=
  ∀ c, .other c ∈ requests → c.Steps SameSockets

lemma steps_onSockets {op : SocketOp} {G : GatewayDB → GatewayDB → Prop}
    (hop : ∀ s, G s { s with sockets := op :: s.sockets }) : (onSockets op).Steps G :=
  steps_act.mpr fun _ s => ⟨hop s, steps_pure ()⟩

lemma onGateway_sameSockets {α : Type} (c : NoticeCall α) : (onGateway c).Steps SameSockets := by
  unfold onGateway
  induction c with
  | pure a => exact steps_pure a
  | throw e => exact steps_throw e
  | act eff next ih => exact steps_act.mpr fun i t => ⟨rfl, ih _ _⟩

lemma packet_sameSockets (socket : SocketId) : (packet cfg socket).Steps SameSockets := by
  refine steps_atomic (fun i s a t h => ?_) sameSockets_refl
  split at h
  · cases h
    rfl
  · cases h

lemma authorized_sameSockets (staffId orderId : MessageValue) :
    (isStaffAuthorizedToUpdateLocation cfg staffId orderId).Steps SameSockets := by
  refine steps_atomic (fun i s a t h => ?_) sameSockets_refl
  split at h
  · cases h
  · split at h
    · cases h
    · cases h
      rfl

lemma transaction_sameSockets (body : WebhookType) :
    (.atomic fun _ s => (PaymentService.updateOrder body s.toDB).map fun (o, t) =>
      (o, { s with toDB := t }) : GatewayCall (Id × Order)).Steps SameSockets := by
  refine steps_atomic (fun i s a t h => ?_) sameSockets_refl
  rcases hu : PaymentService.updateOrder body s.toDB with e | o
  · rw [hu] at h
    cases h
  · rw [hu] at h
    cases h
    rfl

lemma steps_same {α : Type} {c : GatewayCall α} (hr : Stays r) (hc : c.Steps SameSockets) :
    c.Steps (SocketStep cfg r) := hc.mono fun _ _ => .same hr

lemma bearer_some {authorization : Option String} {token : String}
    (h : bearer authorization = some token) : ∃ header rest, authorization = some header ∧
      header.toList.splitOn ' ' = "Bearer".toList :: token.toList :: rest ∧ token ≠ "" := by
  rcases authorization with _ | header
  · cases h
  unfold bearer at h
  simp only [Option.map_some, Option.getD_some] at h
  rcases hsplit : header.toList.splitOn ' ' with _ | ⟨type, _ | ⟨text, rest⟩⟩
  · rw [hsplit] at h
    cases h
  · rw [hsplit] at h
    cases h
  · rw [hsplit] at h
    simp only [List.map_cons] at h
    split at h
    · next hparts =>
      obtain ⟨htype, hne⟩ := hparts
      cases h
      refine ⟨header, rest, rfl, ?_, hne⟩
      rw [hsplit, ← htype, String.toList_ofList, String.toList_ofList]
    · cases h

lemma afterInit_admitted {sid authorization : Option String} {now : ℕ}
    (h : afterInit cfg sid authorization now = true) : Admitted cfg sid authorization := by
  rcases sid with _ | id
  · obtain ⟨payload, hpayload⟩ := Option.isSome_iff_exists.mp h
    obtain ⟨token, htoken, hverify⟩ := Option.bind_eq_some_iff.mp hpayload
    obtain ⟨header, rest, hheader, hsplit, hne⟩ := bearer_some htoken
    exact .token hheader hsplit hne hverify
  · exact .session rfl

/-- **What the steps of a request ask the server for.** -/
theorem call_sockets (hother : ∀ c, r = .other c → c.Steps SameSockets) :
    (r.call cfg).Steps (SocketStep cfg r) := by
  cases r with
  | connect socket sid authorization =>
    have hr : Stays (.connect socket sid authorization) := ⟨rfl, rfl, by simp⟩
    refine steps_atomic (fun i s a t h => ?_) fun s => .same hr rfl
    split at h
    · next hin =>
      cases h
      exact .connect rfl (afterInit_admitted hin) rfl
    · cases h
  | disconnect socket =>
    rw [GatewayRequest.call, handleDisconnect]
    exact steps_onSockets fun s => .disconnect rfl rfl
  | subscribeToShipper shipperId socket =>
    exact steps_room (.shipper shipperId) fun room hroom =>
      steps_onSockets fun s => .join rfl hroom rfl
  | unsubscribeFromShipper shipperId socket =>
    exact steps_room (.shipper shipperId) fun room hroom =>
      steps_onSockets fun s => .leave rfl hroom rfl
  | subscribeToPayment orderId socket =>
    exact steps_room (.payment orderId) fun room hroom =>
      steps_onSockets fun s => .join rfl hroom rfl
  | unsubscribeFromPayment orderId socket =>
    exact steps_room (.payment orderId) fun room hroom =>
      steps_onSockets fun s => .leave rfl hroom rfl
  | locationUpdate data socket =>
    have hr : Emits (.locationUpdate data socket) := trivial
    refine (steps_same hr.stays (packet_sameSockets socket)).bind fun _ => ?_
    refine (steps_same hr.stays (authorized_sameSockets _ _)).bind fun allowed => ?_
    refine (steps_throwIf _ _).bind fun _ => ?_
    exact steps_room (.shipper data.staffId) fun room _ =>
      steps_onSockets fun s => .emit hr rfl
  | handleWebhook body =>
    have hr : Emits (.handleWebhook body) := trivial
    refine Steps.tryCatch ?_ fun _ => steps_pure _
    refine (steps_throwIf _ _).bind fun _ => Steps.when fun _ => ?_
    refine (steps_same hr.stays (transaction_sameSockets body)).bind fun o => ?_
    refine (steps_same hr.stays (onGateway_sameSockets _)).bind fun _ => ?_
    exact steps_room (.payment (.text o.1)) fun room _ =>
      steps_onSockets fun s => .emit hr rfl
  | other c => exact steps_same ⟨rfl, rfl, by simp⟩ (hother c rfl)

/-- **What a step does to a subscription.** -/
theorem subscribed_step (laws : SocketLaws cfg.io) {subject : Subject}
    (h : SocketStep cfg r s t) : Subscribed cfg t subject socket ↔
      Starts cfg subject socket r ∧ Connected cfg s socket ∨
        Subscribed cfg s subject socket ∧ ¬ Ends cfg subject socket r := by
  by_cases hroom : ∃ room, Room cfg subject room
  swap
  · simp only [Subscribed, not_exists.mp hroom, false_and, exists_false,
      not_starts_of_room hroom, or_self]
  obtain ⟨room, hroom⟩ := hroom
  rw [subscribed_iff hroom, subscribed_iff hroom]
  cases h with
  | same hr h => simp [h, hr.not_starts, hr.not_ends]
  | @connect socket' sid authorization hr _ h =>
    have hstays : Stays r := hr ▸ ⟨rfl, rfl, by simp⟩
    rw [h, laws.lawful.subscribed_connect]
    simp [hstays.not_starts, hstays.not_ends, hroom.ne_ownTopic laws]
  | @disconnect socket' hr h =>
    subst hr
    have hends : Ends cfg subject socket (.disconnect socket') ↔ socket = socket' := by
      simp [Ends, givenUp, eq_comm]
    have hstarts : ¬ Starts cfg subject socket (.disconnect socket') := by simp [Starts, asked]
    rw [h, laws.lawful.subscribed_disconnect, hends]
    simp [hstarts, and_comm]
  | join hr hroom' h =>
    rw [h, laws.lawful.subscribed_join, starts_iff hr hroom hroom']
    simp [not_ends_of_asked hr, Connected]
  | leave hr hroom' h =>
    rw [h, laws.lawful.subscribed_leave, ends_iff hr hroom hroom']
    simp [not_starts_of_givenUp hr, and_comm]
  | emit hr h =>
    rw [h, laws.lawful.subscribed_emit]
    simp [hr.stays.not_starts, hr.stays.not_ends]

/-- A request of this kind takes a step. -/
def Turn (requests : List GatewayRequest) (P : GatewayRequest → Prop)
    (x : GatewayDB × List (GatewayCall Unit)) (e : ℕ × NoticeInput) : Prop :=
  ∃ r, requests[e.1]? = some r ∧ P r ∧ x.2[e.1]?.any running = true

/-- The steps of the calls of a pool are those of their requests. -/
abbrev SocketSteps (cfg : GatewayConfig) (requests : List GatewayRequest) (k : ℕ)
    (s t : GatewayDB) : Prop := ∃ r, requests[k]? = some r ∧ SocketStep cfg r s t

lemma pool_sockets (hother : OthersKeep requests) :
    PoolSteps (SocketSteps cfg requests) (s, gatewayCalls cfg requests) := by
  intro k c hc
  obtain ⟨r, hr, rfl⟩ := Option.map_eq_some_iff.mp ((List.getElem?_map ..).symm.trans hc)
  exact (call_sockets fun c hc => hother c (hc ▸ List.mem_of_getElem? hr)).mono
    fun _ _ hstep => ⟨r, hr, hstep⟩

/-- At each position nothing happens, or one request takes a step. -/
lemma poolStep_turn {x : GatewayDB × List (GatewayCall Unit)} {e : ℕ × NoticeInput}
    (hx : PoolSteps (SocketSteps cfg requests) x) :
    (∀ P, ¬ Turn requests P x e) ∧ poolStep x e = x ∨
      ∃ r, (∀ P, Turn requests P x e ↔ P r) ∧ SocketStep cfg r x.1 (poolStep x e).1 := by
  rcases poolStep_cases x e with ⟨hend, hstay⟩ | ⟨eff, next, hact, hstep⟩
  · refine .inl ⟨fun P => ?_, hstay⟩
    rintro ⟨r, -, -, hrun⟩
    obtain ⟨c, hc, hrun⟩ := Option.any_eq_true _ _ |>.mp hrun
    rw [hend c hc] at hrun
    cases hrun
  · obtain ⟨⟨r, hr, hsocket⟩, -⟩ := steps_act.mp (hx _ _ hact) e.2 x.1
    refine .inr ⟨r, fun P => ⟨?_, fun hP => ⟨r, hr, hP, by rw [hact]; rfl⟩⟩, ?_⟩
    · rintro ⟨r', hr', hP, -⟩
      rw [hr, Option.some.injEq] at hr'
      rwa [hr']
    · rw [hstep]
      exact hsocket

/-- The history of a subscription: the socket has asked for such a subject while it was connected,
and has neither given one up nor disconnected since. -/
def SubscribedSince (cfg : GatewayConfig) (requests : List GatewayRequest) (s : GatewayDB)
    (subject : Subject) (socket : SocketId) : List (ℕ × NoticeInput) → Prop :=
  Machine.Since poolStep
    (fun x e => Turn requests (Starts cfg subject socket) x e ∧ Connected cfg x.1 socket)
    (Turn requests (Ends cfg subject socket)) (s, gatewayCalls cfg requests)

/-! A student follows an order. -/

/-- A student is told about the shipper and the payment of an order, of which both a location and
a payment come in. -/
def samplePool : List GatewayRequest :=
  [.connect 7 none (some "Bearer token"), .connect 8 none (some "Bearer token"),
    .subscribeToShipper (.text 3) 7, .subscribeToPayment (.text 10) 7,
    .locationUpdate ⟨.text 10, .text 3, some "10.77", some "106.66", none⟩ 8,
    .handleWebhook (Sample.webhook 7 5000)]

def sampleSched : List (ℕ × NoticeInput) :=
  [(0, 0), (1, 0), (2, 0), (3, 0), (4, 0), (5, 0), (4, 0), (4, 0), (5, 0), (5, 0), (5, 0), (5, 0),
    (5, 1), (5, 0)].map fun e => (e.1, Sample.noticeInput true e.2)

def sampleLocation : LocationData := ⟨.text 3, some "10.77", some "106.66", none⟩

def samplePayment : PaymentUpdate := ⟨10, false, some 7000⟩

lemma sample_laws : SocketLaws Sample.gatewayConfig.io where
  lawful := Broker.ofLog_lawful _
  ownTopic socket := by
    change ':' ∉ (String.ofList (List.replicate socket 'x')).toList
    rw [String.toList_ofList, List.mem_replicate]
    rintro ⟨-, heq⟩
    exact absurd heq (by decide)

lemma sample_others : OthersKeep samplePool := by
  intro c hc
  simp [samplePool] at hc

lemma subscribed_run (laws : SocketLaws cfg.io) (hother : OthersKeep requests)
    {sched : List (ℕ × NoticeInput)} {subject : Subject}
    (hs : ¬ Subscribed cfg s subject socket) :
    Subscribed cfg (Machine.run poolStep (s, gatewayCalls cfg requests) sched).1 subject socket ↔
      SubscribedSince cfg requests s subject socket sched := by
  refine Machine.since_iff (fun x => Subscribed cfg x.1 subject socket) (fun x e hx => ?_) hs
    (along_poolSteps (pool_sockets hother) sched)
  rcases poolStep_turn (e := e) hx with ⟨hnone, hstay⟩ | ⟨r, hturn, hstep⟩
  · rw [hstay]
    simp [hnone]
  · rw [hturn, hturn]
    exact subscribed_step laws hstep

/-- **Who is subscribed**: whatever runs in between, a socket is in the room of a subject just if it
has asked for this subject, or for one written the same, and not given it up since. -/
theorem subscribed_since (laws : SocketLaws cfg.io) (hother : OthersKeep requests)
    (sched : List (ℕ × NoticeInput)) {subject : Subject}
    (hs : ¬ Subscribed cfg s subject socket) :
    Subscribed cfg (interleave s (gatewayCalls cfg requests) sched).1 subject socket ↔
      SubscribedSince cfg requests s subject socket sched := subscribed_run laws hother hs

theorem subscribed_since_sample :
    (Subscribed Sample.gatewayConfig (interleave Sample.gatewayDB
        (gatewayCalls Sample.gatewayConfig samplePool) sampleSched).1 (.shipper (.text 3)) 7 ↔
      SubscribedSince Sample.gatewayConfig samplePool Sample.gatewayDB (.shipper (.text 3)) 7
        sampleSched) ∧
    Subscribed Sample.gatewayConfig (interleave Sample.gatewayDB
        (gatewayCalls Sample.gatewayConfig samplePool) sampleSched).1 (.shipper (.text 3)) 7 := by
  refine ⟨subscribed_since sample_laws sample_others sampleSched ?_, ?_⟩
  · rintro ⟨room, -, hs⟩
    cases hs
  · exact ⟨_, ⟨_, .text 3, rfl⟩, by decide +kernel⟩

/-- The history of a connection: the socket was let in, and has not disconnected since. -/
def ConnectedSince (cfg : GatewayConfig) (requests : List GatewayRequest) (s : GatewayDB)
    (socket : SocketId) : List (ℕ × NoticeInput) → Prop :=
  Machine.Since poolStep
    (Turn requests fun r => ∃ sid authorization, r = .connect socket sid authorization ∧
      Admitted cfg sid authorization)
    (Turn requests (· = .disconnect socket)) (s, gatewayCalls cfg requests)

lemma connected_step (laws : SocketLaws cfg.io) (h : SocketStep cfg r s t)
    (ht : Connected cfg t socket) :
    (∃ sid authorization, r = .connect socket sid authorization ∧ Admitted cfg sid authorization) ∨
      Connected cfg s socket ∧ r ≠ .disconnect socket := by
  unfold Connected at ht ⊢
  cases h with
  | same hr h => exact .inr ⟨by rwa [h] at ht, hr.connected socket⟩
  | connect hr hin h =>
    subst hr
    rw [h, laws.lawful.connected_connect] at ht
    rcases ht with rfl | ht
    · exact .inl ⟨_, _, rfl, hin⟩
    · exact .inr ⟨ht, by simp⟩
  | disconnect hr h =>
    subst hr
    rw [h, laws.lawful.connected_disconnect] at ht
    refine .inr ⟨ht.2, ?_⟩
    rintro heq
    cases heq
    exact ht.1 rfl
  | join hr _ h =>
    rw [h, laws.lawful.connected_other (.join _ _) _ _ trivial] at ht
    refine .inr ⟨ht, ?_⟩
    rintro rfl
    cases hr
  | leave hr _ h =>
    rw [h, laws.lawful.connected_other (.leave _ _) _ _ trivial] at ht
    refine .inr ⟨ht, ?_⟩
    rintro rfl
    cases hr
  | emit hr h =>
    rw [h, laws.lawful.connected_other (.emit _ _ _) _ _ trivial] at ht
    exact .inr ⟨ht, hr.stays.connected socket⟩

/-- **Who is connected** was let in. -/
theorem connected_since (laws : SocketLaws cfg.io) (hother : OthersKeep requests)
    (sched : List (ℕ × NoticeInput)) (hs : ¬ Connected cfg s socket)
    (h : Connected cfg (interleave s (gatewayCalls cfg requests) sched).1 socket) :
    ConnectedSince cfg requests s socket sched := by
  refine Machine.since_of_run (fun x : GatewayDB × List (GatewayCall Unit) =>
    Connected cfg x.1 socket) (fun x e hx hmem => ?_) hs
    (along_poolSteps (pool_sockets hother) sched) h
  rcases poolStep_turn (e := e) hx with ⟨hnone, hstay⟩ | ⟨r, hturn, hstep⟩
  · rw [hstay] at hmem
    exact .inr ⟨hmem, hnone _⟩
  · rw [hturn, hturn]
    exact connected_step laws hstep hmem

end TsaBackend.Sockets
