import TsaBackend.Ledger
import TsaBackend.NoticeSteps
import TsaBackend.PhaseRules

/-!
The notifications of a user as an inbox.

Whatever runs at the same time, each send that goes through stores one row, no row is lost or
rewritten, a row is only marked as read, and only by a request of the user it is for.
-/

namespace TsaBackend.Inbox

open Call NoticeSteps NotificationsService

variable {cfg : NoticeConfig} {s t u : NoticeDB} {r : NoticeRequest}
  {requests : List NoticeRequest}

/-- What a row says, apart from whether it has been read. -/
def letter (row : Notification) : Notification := { row with isRead := false }

/-- The request marks this notification of this user as read. -/
def Marks (userId id : Id) : NoticeRequest → Prop
  | .updateNotificationStatus id' user => id' = id ∧ user.id = userId
  | .markAllNotificationsAsRead user => user.id = userId
  | _ => False

/-- The unread row of a notification with this content. -/
structure Says (row : Notification) (type title content : String) (userId : Option Id)
    (orderId deliveryId reportId : Arg Id) : Prop where
  type : row.type.name = type
  title : row.title = title
  content : row.content = content
  userId : some row.userId = userId
  orderId : row.orderId = orderId.toOption
  deliveryId : row.deliveryId = deliveryId.toOption
  reportId : row.reportId = reportId.toOption
  unread : row.isRead = false

/-- The request sends this notification. -/
def Sends (row : Notification) : NoticeRequest → Prop
  | .sendNotification dto =>
    Says row dto.type dto.title dto.content dto.userId dto.orderId dto.deliveryId dto.reportId
  | .sendFullNotification n =>
    Says row n.type.name n.title n.message n.userId n.orderId n.deliveryId n.reportId
  | _ => False

lemma parse_eq_some {name : String} {type : NotificatioType}
    (h : parseNotificatioType name = some type) : type.name = name := by
  unfold parseNotificatioType at h
  split at h <;> cases h <;> rfl

lemma sends_of_create {dto : CreateNotificationDto} {createdAt : String} {row : Notification}
    (hr : letterOf r = some dto) (h : dto.create createdAt = some row) : Sends row r := by
  have hsays : Says row dto.type dto.title dto.content dto.userId dto.orderId dto.deliveryId
      dto.reportId := by
    obtain ⟨type, htype, h⟩ := Option.bind_eq_some_iff.mp h
    obtain ⟨userId, huser, h⟩ := Option.bind_eq_some_iff.mp h
    cases h
    exact ⟨parse_eq_some htype, rfl, rfl, huser.symm, rfl, rfl, rfl, rfl⟩
  cases r with
  | sendNotification _ | sendFullNotification _ =>
    cases hr
    exact hsays
  | _ => cases hr

/-- What some requests leave of the notifications: what they said, read where it was or where one
of the requests has marked it, and new ones that one of the requests sends. -/
structure NotesRun (requests : List NoticeRequest) (s t : NoticeDB) : Prop where
  kept : ∀ id row, s.notifications.lookup id = some row →
    ∃ row', t.notifications.lookup id = some row' ∧ letter row' = letter row ∧
      (row'.isRead = row.isRead ∨ row'.isRead = true ∧ ∃ r ∈ requests, Marks row.userId id r)
  new : ∀ id row', t.notifications.lookup id = some row' →
    (∃ row, s.notifications.lookup id = some row) ∨
      (∃ row, letter row' = letter row ∧ ∃ r ∈ requests, Sends row r) ∧
        (row'.isRead = false ∨ ∃ r ∈ requests, Marks row'.userId id r)

/-- The notifications are the same. -/
def SameNotes (s t : NoticeDB) : Prop := t.notifications = s.notifications

lemma letter_userId {row row' : Notification} (h : letter row' = letter row) :
    row'.userId = row.userId := by
  have huser := congrArg Notification.userId h
  exact huser

lemma SameNotes.run (h : SameNotes s t) : NotesRun requests s t where
  kept id row hrow := ⟨row, by rw [h, hrow], rfl, .inl rfl⟩
  new id row hrow := .inl ⟨row, by rw [← h, hrow]⟩

lemma notesRun_refl (s : NoticeDB) : NotesRun requests s s := SameNotes.run rfl

lemma NotesRun.trans (h : NotesRun requests s t) (h' : NotesRun requests t u) :
    NotesRun requests s u where
  kept id row hrow := by
    obtain ⟨row', hrow', hletter, hread⟩ := h.kept id row hrow
    obtain ⟨row'', hrow'', hletter', hread'⟩ := h'.kept id row' hrow'
    refine ⟨row'', hrow'', hletter'.trans hletter, ?_⟩
    rw [letter_userId hletter] at hread'
    rcases hread' with hread' | hmarked
    · rw [hread']
      exact hread
    · exact .inr hmarked
  new id row'' hrow'' := by
    rcases h'.new id row'' hrow'' with ⟨row', hrow'⟩ | hnew
    · rcases h.new id row' hrow' with hold | ⟨⟨row, hletter, hsends⟩, hread⟩
      · exact .inl hold
      · obtain ⟨_, hrow₂, hletter', hread'⟩ := h'.kept id row' hrow'
        rw [hrow'', Option.some.injEq] at hrow₂
        subst hrow₂
        refine .inr ⟨⟨row, hletter'.trans hletter, hsends⟩, ?_⟩
        rw [letter_userId hletter']
        rcases hread' with hread' | ⟨-, hmarked⟩
        · rw [hread']
          exact hread
        · exact .inr hmarked
    · exact .inr hnew

lemma readNotification_run {id : Id} {user : GetUserType} {a : Id × Notification}
    (hr : .updateNotificationStatus id user ∈ requests)
    (howner : ∀ row, s.notifications.lookup id = some row → row.userId = user.id)
    (h : s.readNotification id = .ok (a, t)) : NotesRun requests s t := by
  obtain ⟨row₀, hrow₀, -, rfl⟩ := readNotification_ok h
  refine ⟨fun id' row hrow => ?_, fun id' row hrow => ?_⟩
  · rw [Table.lookup_modify]
    split
    · next heq =>
      subst heq
      rw [hrow, Option.map_some]
      exact ⟨_, rfl, rfl, .inr ⟨rfl, _, hr, rfl, (howner row hrow).symm⟩⟩
    · exact ⟨row, hrow, rfl, .inl rfl⟩
  · rw [Table.lookup_modify] at hrow
    split at hrow
    · next heq =>
      subst heq
      exact .inl ⟨row₀, hrow₀⟩
    · exact .inl ⟨row, hrow⟩

lemma readNotifications_run {user : GetUserType}
    (hr : .markAllNotificationsAsRead user ∈ requests) :
    NotesRun requests s (s.readNotifications user.id).2 := by
  refine ⟨fun id row hrow => ?_, fun id row hrow => ?_⟩
  · refine ⟨_, (Table.lookup_mapRows _ _ _).trans (congrArg _ hrow), ?_⟩
    beta_reduce
    split
    · next huser => exact ⟨rfl, .inr ⟨rfl, _, hr, huser.symm⟩⟩
    · exact ⟨rfl, .inl rfl⟩
  · obtain ⟨row', hrow', -⟩ := Option.map_eq_some_iff.mp
      ((Table.lookup_mapRows _ _ _).symm.trans hrow)
    exact .inl ⟨row', hrow'⟩

lemma create_run {dto : CreateNotificationDto} {id : Id} {createdAt : String}
    {a : Id × Notification} (hr : r ∈ requests) (hdto : letterOf r = some dto)
    (h : s.createNotification id (dto.create createdAt) = .ok (a, t)) : NotesRun requests s t := by
  obtain ⟨rfl, hrow, hid, rfl⟩ := createNotification_ok h
  refine ⟨fun id' row hrow' => ?_, fun id' row hrow' => ?_⟩
  · have hne : id' ≠ a.1 := by
      rintro rfl
      exact hid (Table.mem_iff_lookup.mpr ⟨row, hrow'⟩)
    exact ⟨row, by rw [AList.lookup_insert_ne hne, hrow'], rfl, .inl rfl⟩
  · by_cases heq : id' = a.1
    · subst heq
      rw [AList.lookup_insert, Option.some.injEq] at hrow'
      subst hrow'
      exact .inr ⟨⟨_, rfl, r, hr, sends_of_create hdto hrow⟩, .inl (create_some hrow).2.1⟩
    · rw [AList.lookup_insert_ne heq] at hrow'
      exact .inl ⟨row, hrow'⟩

/-- Steps of a request other than a mark of one row, which is found to be the user's beforehand. -/
lemma step_run (hr : r ∈ requests) (hmark : ∀ id user, r ≠ .updateNotificationStatus id user)
    (h : NoticeStep cfg SameNotes r s t) : NotesRun requests s t := by
  cases h with
  | none => exact notesRun_refl s
  | create hdto h => exact create_run hr hdto h
  | email hdto => exact SameNotes.run rfl
  | read h => exact absurd rfl (hmark _ _)
  | readAll => exact readNotifications_run hr
  | register h =>
    obtain ⟨_, rfl, _⟩ := upsertDevice_ok h
    exact SameNotes.run rfl
  | unregister h =>
    obtain ⟨_, rfl, _⟩ := updateDevice_ok h
    exact SameNotes.run rfl
  | push hpush => exact SameNotes.run rfl
  | send => exact SameNotes.run rfl
  | other h => exact h.run

lemma NotesRun.mono {requests' : List NoticeRequest} (h : NotesRun requests s t)
    (hsub : requests ⊆ requests') : NotesRun requests' s t where
  kept id row hrow := by
    obtain ⟨row', hrow', hletter, hread⟩ := h.kept id row hrow
    exact ⟨row', hrow', hletter, hread.imp_right fun ⟨hflag, r, hr, hmarks⟩ =>
      ⟨hflag, r, hsub hr, hmarks⟩⟩
  new id row hrow := (h.new id row hrow).imp_right fun ⟨⟨row', hletter, r, hr, hsends⟩, hread⟩ =>
    ⟨⟨row', hletter, r, hsub hr, hsends⟩, hread.imp_right fun ⟨r, hr, hmarks⟩ => ⟨r, hsub hr, hmarks⟩⟩

/-! ### What a request ensures, in any interleaving -/

lemma notesRun_star (h : Relation.ReflTransGen (NotesRun requests) s t) : NotesRun requests s t := by
  induction h with
  | refl => exact notesRun_refl s
  | tail _ hstep ih => exact ih.trans hstep

lemma ensures_query {α : Type} {own : List NoticeRequest} (f : NoticeInput → NoticeDB → α) :
    (request fun i s => .ok (f i s, s)).Ensures (fun _ => True) (NotesRun requests)
      (NotesRun own)
      (fun a t => ∃ i s₁, NotesRun requests s s₁ ∧ NotesRun requests s₁ t ∧ a = f i s₁)
      (fun _ => True) s := by
  refine Ensures.atomic (fun s₁ h₁ i _ a u hf => ?_) fun s₁ _ i _ e _ =>
    ⟨notesRun_refl s₁, fun _ _ => trivial⟩
  split at hf
  · cases hf
    exact ⟨notesRun_refl s₁, fun t ht => ⟨i, s₁, notesRun_star h₁, notesRun_star ht, rfl⟩⟩
  · cases hf

lemma updateNotificationStatus_ensures {id : Id} {user : GetUserType} :
    (updateNotificationStatus id user).Ensures (fun _ => True) (NotesRun requests)
      (NotesRun [.updateNotificationStatus id user]) (fun _ _ => True) (fun _ => True) s := by
  unfold updateNotificationStatus
  refine Ensures.bind (ensures_query _) (fun _ h => h) fun found t hfound => ?_
  obtain ⟨_, s₁, _, ht, hrow⟩ := hfound t .refl
  rcases found with _ | row
  · exact fun _ _ => trivial
  obtain ⟨hlookup, huser⟩ := Option.filter_eq_some_iff.mp hrow.symm
  refine Ensures.atomic (fun t' ht' i _ a u hf => ?_) fun t' _ i _ e _ =>
    ⟨notesRun_refl t', fun _ _ => trivial⟩
  split at hf
  · refine ⟨readNotification_run (List.mem_singleton_self _) (fun row' hrow' => ?_) hf,
      fun _ _ => trivial⟩
    obtain ⟨_, hlater, hletter, -⟩ := (ht.trans (notesRun_star ht')).kept id row hlookup
    rw [hrow', Option.some.injEq] at hlater
    subst hlater
    exact (letter_userId hletter).trans (by simpa using huser)
  · cases hf

/-- **What a request does to the notifications**, whatever the others do between its steps. -/
theorem call_ensures (hr : r ∈ requests) (hother : OthersKeep SameNotes requests) :
    (r.call cfg).Ensures (fun _ => True) (NotesRun requests) (NotesRun [r]) (fun _ _ => True)
      (fun _ => True) s := by
  cases r with
  | updateNotificationStatus id user =>
    exact Ensures.bind updateNotificationStatus_ensures (fun _ h => h) fun _ t _ _ _ => trivial
  | _ =>
    have hsteps := (@call_steps cfg _ _ fun c hc => hother c (hc ▸ hr)).mono
      fun _ _ => step_run (List.mem_singleton_self _) (by simp)
    exact (guar_iff.mp ((hsteps s).mono (fun _ _ _ => trivial) fun _ _ => id)).mono
      (fun _ _ => id) (fun _ _ => id) (fun _ _ _ => trivial) fun _ => id

lemma pool_ensures (hother : OthersKeep SameNotes requests) :
    PoolEnsures (fun _ => True) (NotesRun requests) (fun k => NotesRun requests[k]?.toList)
      (fun _ _ _ => True) (fun _ _ => True) (s, noticeCalls cfg requests) := by
  intro k c hc
  obtain ⟨r, hr, rfl⟩ := Option.map_eq_some_iff.mp ((List.getElem?_map ..).symm.trans hc)
  dsimp only
  rw [hr]
  exact call_ensures (List.mem_of_getElem? hr) hother

lemma notesRun_of_turn {k : ℕ} (h : NotesRun requests[k]?.toList s t) : NotesRun requests s t :=
  h.mono fun _ hr => List.mem_of_getElem? (Option.mem_toList.mp hr)

/-! A user reads the inbox while two notifications are sent. -/

def sampleUser : GetUserType := ⟨1, .student⟩

def samplePool : List NoticeRequest :=
  [.sendNotification ⟨"ORDER", "TSA", "welcome", .undefined, .undefined, .undefined, some 1⟩,
    .getNotifications sampleUser,
    .sendFullNotification ⟨some 1, .order, "TSA", "shipping", .undefined, .undefined, .undefined⟩,
    .updateNotificationStatus 5 sampleUser]

/-- The first is stored before the user asks, the second between the list and the number. -/
def sampleSched : List (ℕ × NoticeInput) :=
  [(0, 5, 0), (0, 5, 0), (1, 0, 0), (2, 6, 0), (2, 6, 0), (1, 0, 0), (2, 0, 1), (3, 0, 0), (3, 0, 0),
    (0, 0, 0), (0, 0, 0)].map fun (k, fresh, task) =>
      (k, { Sample.noticeInput true task with fresh })

lemma sample_others {G : NoticeDB → NoticeDB → Prop} : OthersKeep G samplePool := by
  intro c hc
  simp [samplePool] at hc

/-- **An inbox only grows, and only its user reads it.** Whatever runs in between, no notification
is lost or rewritten, only requests that send one add it, and only requests of its user mark it. -/
theorem inbox_kept (hother : OthersKeep SameNotes requests) (sched : List (ℕ × NoticeInput)) :
    NotesRun requests s (interleave s (noticeCalls cfg requests) sched).1 :=
  ((pool_ensures hother).run (fun _ _ _ => notesRun_of_turn) (fun _ _ _ => notesRun_of_turn)
    notesRun_refl (fun _ _ _ => NotesRun.trans) sched fun _ _ => trivial).2

theorem inbox_kept_sample : NotesRun samplePool Sample.noticeDB
    (interleave Sample.noticeDB (noticeCalls Sample.noticeConfig samplePool) sampleSched).1 :=
  inbox_kept sample_others sampleSched

/-- The rows as they were stored. -/
def stored (s : NoticeDB) : Multiset (Id × Notification) :=
  (s.notifications.entries.map fun e => (e.1, letter e.2) : List _)

/-- The row that a request stores: the notification it was asked for, with a new id. -/
def Stores (r : NoticeRequest) (_ : NoticeInput) (s : NoticeDB)
    (rows : Multiset (Id × Notification)) : Prop :=
  ∃ id row, Sends row r ∧ id ∉ s.notifications ∧ rows = {(id, row)}

/-- A request that sends nothing may return without. -/
def StoresNone (r : NoticeRequest) {α : Type} (_ : α) (_ : Past NoticeDB NoticeInput) : Prop :=
  letterOf r = none

lemma SameNotes.keeps (h : SameNotes s t) : Keeps stored s t := by
  unfold Keeps stored
  rw [h]

lemma stored_modify (id : Id) : Keeps stored s { s with
    notifications := s.notifications.modify id fun row => { row with isRead := true } } := by
  unfold Keeps stored Table.modify
  rw [List.map_map]
  refine congrArg _ (List.map_congr_left fun e _ => ?_)
  rw [Function.comp_apply]
  split <;> rfl

lemma stored_mapRows (userId : Id) : Keeps stored s (s.readNotifications userId).2 := by
  unfold Keeps stored NoticeDB.readNotifications Table.mapRows
  rw [List.map_map]
  refine congrArg _ (List.map_congr_left fun e _ => ?_)
  rw [Function.comp_apply]
  dsimp only
  split <;> rfl

lemma stored_insert {id : Id} {row : Notification} (hid : id ∉ s.notifications) :
    stored { s with notifications := s.notifications.insert id row } =
      stored s + {(id, letter row)} := by
  unfold stored
  rw [AList.entries_insert_of_notMem hid, List.map_cons, ← Multiset.cons_coe, add_comm,
    Multiset.singleton_add]

lemma step_stored (hletter : letterOf r = none) (h : NoticeStep cfg SameNotes r s t) :
    Keeps stored s t := by
  cases h with
  | create hr h =>
    rw [hletter] at hr
    cases hr
  | read h =>
    obtain ⟨_, _, _, rfl⟩ := readNotification_ok h
    exact stored_modify _
  | readAll => exact stored_mapRows _
  | register h =>
    obtain ⟨_, rfl, _⟩ := upsertDevice_ok h
    exact SameNotes.keeps rfl
  | unregister h =>
    obtain ⟨_, rfl, _⟩ := updateDevice_ok h
    exact SameNotes.keeps rfl
  | other h => exact h.keeps
  | _ => exact SameNotes.keeps rfl

lemma sendNotification_deposits {dto : CreateNotificationDto}
    {past : Past NoticeDB NoticeInput} (hr : letterOf r = some dto) :
    (sendNotification dto).Deposits stored (Now (Stores r)) (StoresNone r) past := by
  unfold sendNotification
  refine (steps_read _ keeps_refl).deposits_bind fun createdAt past => ?_
  refine Deposits.bind_steps (Q := StoresNone r) (deposits_atomic fun i s a t h => ?_)
    (fun row => ?_) fun _ _ h _ _ => h
  · split at h
    · obtain ⟨-, hrow, hid, rfl⟩ := createNotification_ok h
      refine ⟨_, ⟨_, a.2, sends_of_create hr hrow, hid, rfl⟩, (stored_insert hid).trans ?_⟩
      have hletter : letter a.2 = a.2 := by
        have hunread := (create_some hrow).2.1
        unfold letter
        rw [← hunread]
      rw [hletter]
    · cases h
  · refine (steps_query keeps_refl).bind fun user => ?_
    rcases user with _ | ⟨_, account⟩
    · exact steps_pure _
    · refine (steps_request keeps_refl fun i s a t h => ?_).bind fun _ => steps_pure _
      cases h
      exact SameNotes.keeps rfl

lemma sendPush_stored (userId : Option Id) (message : PushNotificationMessage) :
    (sendPushNotification userId message).Steps (Keeps stored) := by
  rcases userId with _ | userId
  · exact steps_throw _
  refine steps_request keeps_refl fun i s a t h => ?_
  cases h
  exact SameNotes.keeps rfl

/-- **What a request stores**, whatever happens between its steps. -/
theorem call_deposits (hother : ∀ c, r = .other c → c.Steps SameNotes) :
    (r.call cfg).Deposits stored (Now (Stores r)) (StoresNone r) [] := by
  rcases hletter : letterOf r with _ | dto
  · exact ((call_steps hother).mono fun _ _ => step_stored hletter).deposits fun _ _ => hletter
  · cases r with
    | sendNotification dto' =>
      exact (sendNotification_deposits rfl).bind_steps (fun _ => steps_pure _) fun _ _ h _ _ => h
    | sendFullNotification n =>
      refine Deposits.bind_steps ?_ (fun _ => steps_pure _) fun _ _ h _ _ => h
      refine Deposits.par ?_ ((sendPush_stored _ _).par (steps_pure _))
      exact (sendNotification_deposits rfl).bind_steps (fun _ => steps_pure _) fun _ _ h _ _ => h
    | _ => cases hletter

/-- **Each send stores one notification**: whatever runs in between, the rows are those there were
and one for each send that has stored its own, with an id no other row has, and every send that has
returned has. -/
theorem notifications_stored (hother : OthersKeep SameNotes requests)
    (sched : List (ℕ × NoticeInput)) :
    ∃ rows : ℕ → Multiset (Id × Notification),
      stored (interleave s (noticeCalls cfg requests) sched).1 =
        stored s + ∑ k ∈ Finset.range requests.length, rows k ∧
      ∀ k r, requests[k]? = some r →
        Accounted s (noticeCalls cfg requests) sched (Now (Stores r)) (StoresNone r) k (rows k) :=
  deposits_map (fun _ hr => call_deposits fun c hc => hother c (hc ▸ hr)) sched

theorem notifications_stored_sample :
    ∃ rows : ℕ → Multiset (Id × Notification),
      stored (interleave Sample.noticeDB (noticeCalls Sample.noticeConfig samplePool)
          sampleSched).1 =
        stored Sample.noticeDB + ∑ k ∈ Finset.range samplePool.length, rows k ∧
      ∀ k r, samplePool[k]? = some r →
        Accounted Sample.noticeDB (noticeCalls Sample.noticeConfig samplePool) sampleSched
          (Now (Stores r)) (StoresNone r) k (rows k) :=
  notifications_stored sample_others sampleSched

/-! ### Listed -/

/-- The unread notifications of a list. -/
def unread (rows : List (Id × Notification)) : List (Id × Notification) :=
  rows.filter fun e => e.2.isRead = false

lemma mem_findNotifications {i : NoticeInput} {userId : Id} {e : Id × Notification} :
    e ∈ s.findNotifications i userId ↔
      s.notifications.lookup e.1 = some e.2 ∧ e.2.userId = userId := by
  rw [NoticeDB.findNotifications, List.mem_insertionSort]
  exact Table.mem_ranked.trans (by simp)

lemma findNotifications_nodup (i : NoticeInput) (userId : Id) :
    ((s.findNotifications i userId).map Prod.fst).Nodup := by
  have hrows : (s.findNotifications i userId).Nodup :=
    (List.perm_insertionSort _ _).nodup_iff.mpr Table.ranked_nodup
  refine hrows.map_on fun a ha b hb hab => ?_
  have hb' := (mem_findNotifications.mp hb).1
  rw [← hab, (mem_findNotifications.mp ha).1, Option.some.injEq] at hb'
  exact Prod.ext hab hb'

/-- The ids of a user's unread rows. -/
def unreadIds (s : NoticeDB) (userId : Id) : List Id :=
  (s.notifications.matching fun _ row => row.userId = userId ∧ row.isRead = false).map Sigma.fst

lemma mem_unreadIds {id userId : Id} : id ∈ unreadIds s userId ↔
    ∃ row, s.notifications.lookup id = some row ∧ row.userId = userId ∧ row.isRead = false := by
  simp only [unreadIds, Table.matching, List.mem_map, List.mem_filter, decide_eq_true_eq,
    Table.lookup_eq_some]
  constructor
  · rintro ⟨⟨_, row⟩, ⟨hmem, hrow⟩, rfl⟩
    exact ⟨row, hmem, hrow⟩
  · rintro ⟨row, hmem, hrow⟩
    exact ⟨⟨id, row⟩, ⟨hmem, hrow⟩, rfl⟩

lemma unreadIds_nodup (userId : Id) : (unreadIds s userId).Nodup :=
  (List.filter_sublist.map Sigma.fst).nodup s.notifications.nodupKeys

lemma unreadIds_length (userId : Id) : (unreadIds s userId).length = s.countUnread userId :=
  List.length_map _

/-- No request marks a notification of the user. -/
def Unmarked (requests : List NoticeRequest) (userId : Id) : Prop :=
  ∀ r ∈ requests, ∀ id, ¬ Marks userId id r

/-- No request sends to the user. -/
def Unsent (requests : List NoticeRequest) (userId : Id) : Prop :=
  ∀ r ∈ requests, ∀ row, Sends row r → row.userId ≠ userId

/-- The number of unread rows of a list, and a number counted later. -/
lemma unread_le (i : NoticeInput) {userId : Id} (h : NotesRun requests s t)
    (hmarks : Unmarked requests userId) :
    (unread (s.findNotifications i userId)).length ≤ t.countUnread userId := by
  have hsub : (unread (s.findNotifications i userId)).map Prod.fst ⊆ unreadIds t userId := by
    intro id hid
    obtain ⟨⟨_, row⟩, hmem, rfl⟩ := List.mem_map.mp hid
    obtain ⟨hmem, hread⟩ := List.mem_filter.mp hmem
    obtain ⟨hrow, huser⟩ := mem_findNotifications.mp hmem
    obtain ⟨row', hrow', hletter, hsame | ⟨-, r, hr, hmarked⟩⟩ := h.kept _ _ hrow
    · exact mem_unreadIds.mpr ⟨row', hrow', (letter_userId hletter).trans huser,
        hsame.trans (by simpa using hread)⟩
    · rw [huser] at hmarked
      exact absurd hmarked (hmarks r hr _)
  have hnodup : ((unread (s.findNotifications i userId)).map Prod.fst).Nodup :=
    (List.filter_sublist.map Prod.fst).nodup (findNotifications_nodup i userId)
  simpa [unreadIds_length] using (hnodup.subperm hsub).length_le

lemma le_unread (i : NoticeInput) {userId : Id} (h : NotesRun requests s t)
    (hsends : Unsent requests userId) :
    t.countUnread userId ≤ (unread (s.findNotifications i userId)).length := by
  have hsub : unreadIds t userId ⊆ (unread (s.findNotifications i userId)).map Prod.fst := by
    intro id hid
    obtain ⟨row', hrow', huser, hread⟩ := mem_unreadIds.mp hid
    rcases h.new id row' hrow' with ⟨row, hrow⟩ | ⟨⟨row, hletter, r, hr, hsent⟩, -⟩
    · obtain ⟨_, hlater, hletter, hflag⟩ := h.kept id row hrow
      rw [hrow', Option.some.injEq] at hlater
      subst hlater
      have hold : row.isRead = false := by
        rcases hflag with hflag | ⟨hflag, -⟩
        · exact hflag.symm.trans hread
        · rw [hread] at hflag
          cases hflag
      refine List.mem_map.mpr ⟨(id, row), List.mem_filter.mpr ⟨?_, by simpa using hold⟩, rfl⟩
      exact mem_findNotifications.mpr ⟨hrow, (letter_userId hletter).symm.trans huser⟩
    · exact absurd ((letter_userId hletter).symm.trans huser) (hsends r hr row hsent)
  simpa [unreadIds_length] using ((unreadIds_nodup userId).subperm hsub).length_le

/-- The requests that have a turn from position `l` on and before `m`. -/
def meanwhile (requests : List NoticeRequest) (sched : List (ℕ × NoticeInput)) (l m : ℕ) :
    List NoticeRequest :=
  ((sched.take m).drop l).filterMap fun e => requests[e.1]?

variable {sched : List (ℕ × NoticeInput)} {l m : ℕ}

lemma mem_meanwhile {k j : ℕ} (hlj : l ≤ j) (hjm : j < m) (hturn : Turn sched k j)
    (hr : requests[k]? = some r) : r ∈ meanwhile requests sched l m := by
  obtain ⟨i, hi⟩ := hturn
  refine List.mem_filterMap.mpr ⟨(k, i), ?_, hr⟩
  rw [List.mem_iff_getElem?]
  refine ⟨j - l, ?_⟩
  rw [List.getElem?_drop, List.getElem?_take, if_pos (by omega), Nat.add_sub_of_le hlj, hi]

lemma notesRun_meanwhile (hother : OthersKeep SameNotes requests) (hlm : l ≤ m)
    (hm : m ≤ sched.length) : NotesRun (meanwhile requests sched l m)
      (before s (noticeCalls cfg requests) sched l).1
      (before s (noticeCalls cfg requests) sched m).1 := by
  suffices hrun : ∀ n, l ≤ n → n ≤ m → NotesRun (meanwhile requests sched l m)
      (before s (noticeCalls cfg requests) sched l).1
      (before s (noticeCalls cfg requests) sched n).1 from hrun m hlm le_rfl
  intro n hln
  induction n, hln using Nat.le_induction with
  | base => exact fun _ => notesRun_refl _
  | succ n hln ih =>
    intro hnm
    have hget : sched[n]? = some sched[n] := List.getElem?_eq_getElem (by omega)
    refine (ih (by omega)).trans ?_
    rcases (@pool_ensures cfg s requests hother).next (fun _ _ _ => notesRun_of_turn)
      (fun _ _ => trivial) hget with hstay | hstep
    · rw [hstay]
      exact notesRun_refl _
    · refine hstep.mono fun r hr => ?_
      exact mem_meanwhile hln (by omega) ⟨_, hget⟩ (Option.mem_toList.mp hr)

/-- What call `k` has listed at its first turn `l` and counted at its next turn `m`. -/
structure Listing (cfg : NoticeConfig) (requests : List NoticeRequest) (s : NoticeDB)
    (sched : List (ℕ × NoticeInput)) (k : ℕ) (user : GetUserType) (dto : GetNotificationsDto)
    (l m : ℕ) : Prop where
  first : Turn sched k l ∧ ∀ j < l, ¬ Turn sched k j
  next : Turn sched k m ∧ l < m
  /-- Each row is one the user had when the call began, and it is still there. -/
  own : ∀ e ∈ dto.notifications, e.2.userId = user.id ∧
    (before s (noticeCalls cfg requests) sched l).1.notifications.lookup e.1 = some e.2 ∧
    ∃ row, (interleave s (noticeCalls cfg requests) sched).1.notifications.lookup e.1 = some row ∧
      letter row = letter e.2
  /-- No row that was there when the call began is missing. -/
  complete : ∀ id row, row.userId = user.id →
    (before s (noticeCalls cfg requests) sched l).1.notifications.lookup id = some row →
    (id, row) ∈ dto.notifications
  nodup : (dto.notifications.map Prod.fst).Nodup
  newest : dto.notifications.Pairwise fun a b => b.2.createdAt ≤ a.2.createdAt
  /-- Only marks between the two turns make the number smaller than the list, and only sends
  between them make it larger. -/
  unmarked : Unmarked (meanwhile requests sched l m) user.id →
    (unread dto.notifications).length ≤ dto.unreadCount
  unsent : Unsent (meanwhile requests sched l m) user.id →
    dto.unreadCount ≤ (unread dto.notifications).length

lemma findNotifications_newest (i : NoticeInput) (userId : Id) :
    (s.findNotifications i userId).Pairwise fun a b => b.2.createdAt ≤ a.2.createdAt := by
  have htotal : Std.Total fun a b : Id × Notification => b.2.createdAt ≤ a.2.createdAt :=
    ⟨fun a b => le_total b.2.createdAt a.2.createdAt⟩
  have htrans : IsTrans (Id × Notification) fun a b => b.2.createdAt ≤ a.2.createdAt :=
    ⟨fun _ _ _ hab hbc => le_trans hbc hab⟩
  exact List.pairwise_insertionSort _ _

/-- What the call returns is the rows it has read first, and the number it has read then. -/
lemma getNotifications_reads (user : GetUserType) :
    (NoticeRequest.call cfg (.getNotifications user)).Deposits (fun _ => (0 : ℕ))
      (fun _ _ => False) (fun a past => ∃ i₁ s₁ i₂ s₂, past = [(i₂, s₂), (i₁, s₁)] ∧
        a = .notifications ⟨s₁.findNotifications i₁ user.id, s₂.countUnread user.id⟩) [] := by
  refine Deposits.bind (Deposits.bind (deposits_read fun i₁ s₁ _ t h => ?_))
  split at h
  swap
  · cases h
  cases h
  refine ⟨rfl, Deposits.bind (deposits_read fun i₂ s₂ _ t h => ?_)⟩
  split at h
  swap
  · cases h
  cases h
  exact ⟨rfl, i₁, s₁, i₂, s₂, rfl, rfl⟩

/-- **What `getNotifications` returns among other requests**: the rows that the user had when the
call began, the newest first, and a number of unread ones that is that of the list unless the user
marks some or is sent some in between. -/
theorem notifications_listed (hother : OthersKeep SameNotes requests)
    (sched : List (ℕ × NoticeInput)) {k : ℕ} {user : GetUserType} {dto : GetNotificationsDto}
    (hr : requests[k]? = some (.getNotifications user))
    (hreturned : (interleave s (noticeCalls cfg requests) sched).2[k]? =
      some (.pure (.notifications dto))) :
    ∃ l m, Listing cfg requests s sched k user dto l m := by
  have hk : (noticeCalls cfg requests)[k]? =
      some (NoticeRequest.call cfg (.getNotifications user)) := by
    rw [noticeCalls, List.getElem?_map, hr]
    rfl
  obtain ⟨i₁, s₁, i₂, s₂, hreads, hdto⟩ :=
    returned_past (getNotifications_reads user) hk hreturned
  obtain ⟨m, hm, hturnm, hcounted, hread⟩ := pastOf_cons hreads
  obtain ⟨l, hlm, hturnl, hlisted, hnone⟩ := pastOf_cons hread
  dsimp only at hturnm hturnl hcounted hlisted
  obtain rfl : dto = ⟨_, _⟩ := NoticeResponse.notifications.inj hdto
  subst hcounted hlisted
  have hbetween := @notesRun_meanwhile cfg s requests sched l m hother hlm.le hm.le
  have hafter := @notesRun_meanwhile cfg s requests sched l sched.length hother (by omega) le_rfl
  rw [before_length] at hafter
  refine ⟨l, m, ⟨⟨i₁, hturnl⟩, fun j hj ⟨i, hi⟩ => no_turn_of_pastOf hk rfl hnone hj hi⟩,
    ⟨⟨i₂, hturnm⟩, hlm⟩, fun e he => ?_, fun id row huser hrow => ?_, findNotifications_nodup _ _,
    findNotifications_newest _ _, unread_le i₁ hbetween, le_unread i₁ hbetween⟩
  · obtain ⟨hrow, huser⟩ := mem_findNotifications.mp he
    obtain ⟨row, hrow', hletter, -⟩ := hafter.kept _ _ hrow
    exact ⟨huser, hrow, row, hrow', hletter⟩
  · exact mem_findNotifications.mpr ⟨hrow, huser⟩

/-- One row is there before, one is sent between the list and the number. -/
def sampleDB : NoticeDB :=
  { Sample.noticeDB with
    notifications := AList.insert 4 ⟨.order, "TSA", "hello", "0", none, none, none, 1, true⟩ ∅ }

theorem notifications_listed_sample : ∃ l m,
    Listing Sample.noticeConfig samplePool sampleDB sampleSched 1 sampleUser
      ⟨[(5, ⟨.order, "TSA", "welcome", "1000", none, none, none, 1, false⟩),
        (4, ⟨.order, "TSA", "hello", "0", none, none, none, 1, true⟩)], 2⟩ l m :=
  notifications_listed sample_others sampleSched rfl rfl

end TsaBackend.Inbox
