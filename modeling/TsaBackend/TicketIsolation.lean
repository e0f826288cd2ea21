import TsaBackend.Lockout
import TsaBackend.Tickets

/-!
Two runs of the requests of one student, over tables that differ in the tickets of others.

The student is told the same in both, and changes nothing but the own tickets.
-/

namespace TsaBackend.TicketIsolation

open Call

variable {s t s' t' : TicketDB} {u id k : Id} {i : TicketInput} {ω : ℕ → TicketInput}
  {ticket : Ticket} {reply : TicketReply}

/-- The references of the rows name rows. -/
structure ForeignKeys (s : TicketDB) : Prop where
  student : ∀ id ticket, s.tickets.lookup id = some ticket →
    (s.findUser ticket.studentId).isSome = true
  user : ∀ id reply, s.ticketReplies.lookup id = some reply →
    (s.findUser reply.userId).isSome = true
  reply : ∀ id attachment k, s.ticketAttachments.lookup id = some attachment →
    attachment.replyId = some k → k ∈ s.ticketReplies

/-- The ticket is one of this student. -/
def Owns (s : TicketDB) (u id : Id) : Prop :=
  ∃ ticket, s.tickets.lookup id = some ticket ∧ ticket.studentId = u

/-- The reply is one to a ticket of this student. -/
def OwnsReply (s : TicketDB) (u k : Id) : Prop :=
  ∃ reply, s.ticketReplies.lookup k = some reply ∧ Owns s u reply.ticketId

/-- The tickets of this student show the user. -/
def Shows (s : TicketDB) (u v : Id) : Prop :=
  (v = u ∧ ∃ id, Owns s u id) ∨
    ∃ k reply, s.ticketReplies.lookup k = some reply ∧ Owns s u reply.ticketId ∧ reply.userId = v

/-- The tickets of this student are the same, with their replies, the attachments of both and
what is shown of users. -/
structure SameTickets (u : Id) (s t : TicketDB) : Prop where
  ticket : ∀ id, (s.tickets.lookup id).filter (fun ticket => ticket.studentId = u) =
    (t.tickets.lookup id).filter fun ticket => ticket.studentId = u
  reply : ∀ id, Owns s u id → ∀ k,
    (s.ticketReplies.lookup k).filter (fun reply => reply.ticketId = id) =
      (t.ticketReplies.lookup k).filter fun reply => reply.ticketId = id
  attachment : ∀ id, Owns s u id → ∀ k,
    (s.ticketAttachments.lookup k).filter (fun attachment => attachment.ticketId = some id) =
      (t.ticketAttachments.lookup k).filter fun attachment => attachment.ticketId = some id
  replyAttachment : ∀ id, OwnsReply s u id → ∀ k,
    (s.ticketAttachments.lookup k).filter (fun attachment => attachment.replyId = some id) =
      (t.ticketAttachments.lookup k).filter fun attachment => attachment.replyId = some id
  user : ∀ v, Shows s u v → s.userDetails v = t.userDetails v

lemma owns_iff : Owns s u id ↔
    ∃ ticket, (s.tickets.lookup id).filter (fun ticket => ticket.studentId = u) = some ticket := by
  simp only [Owns, Option.filter_eq_some_iff, decide_eq_true_eq]

lemma SameTickets.owns (h : SameTickets u s t) : Owns s u id ↔ Owns t u id := by
  rw [owns_iff, owns_iff, h.ticket]

lemma SameTickets.lookup (h : SameTickets u s t) (ht : s.tickets.lookup id = some ticket)
    (hu : ticket.studentId = u) : t.tickets.lookup id = some ticket := by
  have hfilter := h.ticket id
  rw [ht, Option.filter_some_pos (by simpa using hu), eq_comm, Option.filter_eq_some_iff] at hfilter
  exact hfilter.1

lemma mapM_congr {α β ε : Type} {f g : α → Except ε β} {l : List α} (h : ∀ a ∈ l, f a = g a) :
    l.mapM f = l.mapM g := by
  induction l with
  | nil => rfl
  | cons a l ih =>
    rw [List.mapM_cons, List.mapM_cons, h a List.mem_cons_self,
      ih fun b hb => h b (List.mem_cons_of_mem _ hb)]

lemma mapM_isOk {α β ε : Type} {f : α → Except ε β} {l : List α} (h : ∀ a ∈ l, ∃ b, f a = .ok b) :
    ∃ bs, l.mapM f = .ok bs := by
  induction l with
  | nil => exact ⟨[], rfl⟩
  | cons a l ih =>
    obtain ⟨b, hb⟩ := h a List.mem_cons_self
    obtain ⟨bs, hbs⟩ := ih fun b hb => h b (List.mem_cons_of_mem _ hb)
    exact ⟨b :: bs, by rw [List.mapM_cons, hb, hbs]; rfl⟩

lemma same_attachments {p : TicketAttachment → Bool} (h : ∀ k,
    (s.ticketAttachments.lookup k).filter p = (t.ticketAttachments.lookup k).filter p) :
    s.attachmentsOf i p = t.attachmentsOf i p := by
  rw [TicketDB.attachmentsOf, Table.ranked_congr h, TicketDB.attachmentsOf]

lemma same_replyRow (h : SameTickets u s t) (hr : s.ticketReplies.lookup k = some reply)
    (ho : Owns s u reply.ticketId) : s.replyRow i k reply = t.replyRow i k reply := by
  rw [TicketDB.replyRow, TicketDB.replyRow, h.user _ (.inr ⟨k, reply, hr, ho, rfl⟩),
    same_attachments (h.replyAttachment k ⟨reply, hr, ho⟩)]

lemma same_replies (h : SameTickets u s t) (ho : Owns s u id) :
    s.repliesOf i id = t.repliesOf i id := by
  rw [TicketDB.repliesOf, TicketDB.repliesOf, ← Table.ranked_congr (h.reply id ho)]
  refine mapM_congr fun e he => ?_
  obtain ⟨hr, hid⟩ := Table.mem_ranked.mp he
  obtain rfl := of_decide_eq_true hid
  exact same_replyRow h hr ho

lemma same_ticketRow (h : SameTickets u s t) (hid : s.tickets.lookup id = some ticket)
    (hu : ticket.studentId = u) : s.ticketRow i id ticket = t.ticketRow i id ticket := by
  have ho : Owns s u id := ⟨ticket, hid, hu⟩
  rw [TicketDB.ticketRow, TicketDB.ticketRow, same_replies h ho, h.user _ (.inl ⟨hu, id, ho⟩),
    same_attachments (h.attachment id ho)]

lemma filter_of_imp {ρ : Type} {p q : ρ → Bool} (x : Option ρ) (h : ∀ r, p r = true → q r = true) :
    x.filter p = (x.filter q).filter p := by
  rw [Option.filter_filter]
  congr 1
  funext r
  by_cases hr : p r = true
  · rw [hr, h r hr, Bool.and_self]
  · rw [Bool.eq_false_iff.mpr hr, Bool.and_false]

lemma same_findTickets (h : SameTickets u s t) {p : Ticket → Bool}
    (hp : ∀ ticket, p ticket = true → ticket.studentId = u) :
    s.findTickets i p = t.findTickets i p := by
  have hranked : s.tickets.ranked i.ticketRank p = t.tickets.ranked i.ticketRank p := by
    refine Table.ranked_congr fun k => ?_
    have hown : ∀ ticket, p ticket = true → decide (ticket.studentId = u) = true :=
      fun ticket hticket => decide_eq_true (hp ticket hticket)
    rw [filter_of_imp _ hown, h.ticket, ← filter_of_imp _ hown]
  rw [TicketDB.findTickets, TicketDB.findTickets, ← hranked]
  refine mapM_congr fun e he => ?_
  obtain ⟨hid, hpe⟩ := Table.mem_ranked.mp ((List.mem_insertionSort _).mp he)
  exact same_ticketRow h hid (hp _ hpe)

/-- The foreign keys let every ticket be read. -/
lemma ticketRow_isOk (hs : ForeignKeys s) (hid : s.tickets.lookup id = some ticket) :
    ∃ row, s.ticketRow i id ticket = .ok row ∧ row.ticket = ticket := by
  have huser : ∀ v, (s.findUser v).isSome = true → ∃ details, s.userDetails v = .ok details := by
    intro v hv
    obtain ⟨user, hv⟩ := Option.isSome_iff_exists.mp hv
    exact ⟨_, by rw [TicketDB.userDetails, hv]⟩
  obtain ⟨replies, hreplies⟩ : ∃ replies, s.repliesOf i id = .ok replies := by
    refine mapM_isOk fun e he => ?_
    obtain ⟨details, hdetails⟩ := huser _ (hs.user _ _ (Table.mem_ranked.mp he).1)
    exact ⟨_, by rw [TicketDB.replyRow, hdetails]; rfl⟩
  obtain ⟨details, hdetails⟩ := huser _ (hs.student _ _ hid)
  exact ⟨_, by rw [TicketDB.ticketRow, hreplies, hdetails]; rfl, rfl⟩

/-- A student of this id. -/
abbrev student (u : Id) : GetUserType := ⟨u, .student⟩

lemma call_findAllTickets (s : TicketDB) (query : TicketQueryDto) (user : GetUserType)
    (ω : ℕ → TicketInput) : (TicketRequest.findAllTickets query user).call.exec ω s =
      ((s.findTickets (ω 0) (ticketFilter query user)).map fun rows =>
        .tickets (rows.map ticketWithUserDetails), s) := by
  change (findAllTickets query user >>= fun a => (Pure.pure (TicketResponse.tickets a) :
    TicketCall _)).exec ω s = _
  rw [exec_map, findAllTickets, exec_atomic_bind]
  rcases s.findTickets (ω 0) (ticketFilter query user) with e | rows <;> rfl

lemma findTicketById_exec (s : TicketDB) (id : Id) (user : GetUserType) (ω : ℕ → TicketInput) :
    (findTicketById id user).exec ω s = (match s.findTicket (ω 0) id with
      | .error e => .error e
      | .ok none => .error (.notFound "Ticket not found")
      | .ok (some row) => if user.role = .student ∧ row.ticket.studentId ≠ user.id then
          .error (.notFound "Ticket not found") else .ok (ticketWithUserDetails row), s) := by
  rw [findTicketById, exec_atomic_bind]
  rcases s.findTicket (ω 0) id with e | _ | row
  · rfl
  · rfl
  · dsimp only [Except.map]
    rw [exec_throwIf_bind]
    split <;> rfl

lemma call_findTicketById (s : TicketDB) (id : Id) (user : GetUserType) (ω : ℕ → TicketInput) :
    (TicketRequest.findTicketById id user).call.exec ω s =
      (((findTicketById id user).exec ω s).1.map .ticket, s) := by
  change (findTicketById id user >>= fun a => (Pure.pure (TicketResponse.ticket a) :
    TicketCall _)).exec ω s = _
  rw [exec_map, findTicketById_exec]

lemma replyToTicket_exec (s : TicketDB) (id : Id) (attachments : List String)
    (dto : ReplyTicketDto) (user : GetUserType) (ω : ℕ → TicketInput) :
    (replyToTicket id attachments dto user).exec ω s =
      match (if (ω 0).ok then replyTransaction (ω 0) s id attachments dto user
        else .error .rejected) with
      | .ok (reply, t) => (.ok reply, t)
      | .error e => (.error e, s) := by
  change Call.exec (.act _ _) ω s = _
  rcases hf : (if (ω 0).ok = true then replyTransaction (ω 0) s id attachments dto user
    else .error .rejected) with e | ⟨reply, t⟩ <;> simp only [exec, hf]

lemma call_replyToTicket (s : TicketDB) (id : Id) (attachments : List String)
    (dto : ReplyTicketDto) (user : GetUserType) (ω : ℕ → TicketInput) :
    (TicketRequest.replyToTicket id attachments dto user).call.exec ω s =
      (((replyToTicket id attachments dto user).exec ω s).1.map .reply,
        ((replyToTicket id attachments dto user).exec ω s).2) := by
  change (replyToTicket id attachments dto user >>= fun a => (Pure.pure (TicketResponse.reply a) :
    TicketCall _)).exec ω s = _
  rw [exec_map]

/-! ### A reply, and what the student leaves alone -/

/-- The ids that a reply generates are new. -/
def Unused (i : TicketInput) (s : TicketDB) : Prop :=
  i.fresh ∉ s.ticketReplies ∧ ∀ n, i.attachmentId n ∉ s.ticketAttachments

/-- The tables with a reply and these attachments. -/
abbrev withReply (s : TicketDB) (id : Id) (reply : TicketReply)
    (ticketAttachments : Table Id TicketAttachment) : TicketDB :=
  { s with ticketReplies := s.ticketReplies.insert id reply, ticketAttachments }

/-- The reply is created, with these attachments. -/
structure Creates (i : TicketInput) (reply : TicketReply) (fileUrls : List String)
    (s t : TicketDB) : Prop where
  user : (s.findUser reply.userId).isSome = true
  fresh : i.fresh ∉ s.ticketReplies
  tables : ∃ attachments,
    s.ticketAttachments.insertNew (TicketDB.newAttachments i fileUrls) = some attachments ∧
      t = withReply s i.fresh reply attachments

lemma createTicketReply_ok {fileUrls : List String}
    (h : s.createTicketReply i reply fileUrls = .ok t) : Creates i reply fileUrls s t := by
  unfold TicketDB.createTicketReply at h
  split at h
  · cases h
  next hmissing =>
  have huser := (not_or.mp hmissing).2
  split at h
  · cases h
  next hfresh =>
  split at h
  · cases h
  next attachments hattachments =>
  cases h
  refine ⟨?_, hfresh, attachments, hattachments, rfl⟩
  rwa [Bool.not_eq_true, Option.isNone_eq_false_iff] at huser

lemma mem_newAttachments {fileUrls : List String} {e : Id × TicketAttachment}
    (h : e ∈ TicketDB.newAttachments i fileUrls) :
    (∃ n, e.1 = i.attachmentId n) ∧ e.2.ticketId = none ∧ e.2.replyId = some i.fresh := by
  obtain ⟨⟨fileUrl, n⟩, -, rfl⟩ := List.mem_map.mp h
  exact ⟨⟨n, rfl⟩, rfl, rfl⟩

lemma Creates.attachment {fileUrls : List String} (h : Creates i reply fileUrls s t) (k : Id)
    (attachment : TicketAttachment) (hk : t.ticketAttachments.lookup k = some attachment) :
    s.ticketAttachments.lookup k = some attachment ∨
      s.ticketAttachments.lookup k = none ∧ attachment.ticketId = none ∧
        attachment.replyId = some i.fresh := by
  obtain ⟨attachments, hinsert, rfl⟩ := h.tables
  rcases Table.insertNew_lookup (k := k) hinsert with heq | ⟨hnone, e, he, -, heq⟩
  · exact .inl (heq.symm.trans hk)
  · obtain ⟨-, hticket, hreply⟩ := mem_newAttachments he
    obtain rfl := Option.some.inj (heq.symm.trans hk)
    exact .inr ⟨hnone, hticket, hreply⟩

lemma ForeignKeys.creates {fileUrls : List String} (hs : ForeignKeys s)
    (h : Creates i reply fileUrls s t) : ForeignKeys t := by
  have hattachment := h.attachment
  obtain ⟨attachments, -, rfl⟩ := h.tables
  refine ⟨hs.student, fun id r hr => ?_, fun id attachment k hk hreply => ?_⟩
  · by_cases hid : id = i.fresh
    · subst hid
      rw [AList.lookup_insert, Option.some.injEq] at hr
      exact hr ▸ h.user
    · rw [AList.lookup_insert_ne hid] at hr
      exact hs.user id r hr
  · rw [AList.mem_insert]
    rcases hattachment id attachment hk with hold | ⟨-, -, hnew⟩
    · exact .inr (hs.reply id attachment k hold hreply)
    · exact .inl (Option.some.inj (hreply.symm.trans hnew))

/-- No attachment refers to a reply that is not there. -/
lemma ForeignKeys.no_attachment (hs : ForeignKeys s) (h : id ∉ s.ticketReplies) (k : Id) :
    (s.ticketAttachments.lookup k).filter (fun attachment => attachment.replyId = some id) =
      none := by
  rw [Option.filter_eq_none_iff]
  intro attachment hk hreply
  exact h (hs.reply k attachment id hk (of_decide_eq_true hreply))

/-- **The same new reply in two runs.** -/
lemma SameTickets.replied (h : SameTickets u s t) (hs : ForeignKeys s) (ht : ForeignKeys t)
    (ho : Owns s u reply.ticketId) (hu : reply.userId = u) (his : i.fresh ∉ s.ticketReplies)
    (hit : i.fresh ∉ t.ticketReplies) {as bs : Table Id TicketAttachment}
    (hattachments : ∀ p : TicketAttachment → Bool,
      (∀ k, (s.ticketAttachments.lookup k).filter p = (t.ticketAttachments.lookup k).filter p) →
      ∀ k, (as.lookup k).filter p = (bs.lookup k).filter p) :
    SameTickets u (withReply s i.fresh reply as) (withReply t i.fresh reply bs) := by
  have hold : ∀ {k r}, k ≠ i.fresh →
      (withReply s i.fresh reply as).ticketReplies.lookup k = some r →
      s.ticketReplies.lookup k = some r := fun hk hr => by rwa [AList.lookup_insert_ne hk] at hr
  refine ⟨h.ticket, fun id hid k => ?_, fun id hid => hattachments _ (h.attachment id hid),
    fun id hid => hattachments _ ?_, fun v hv => ?_⟩
  · by_cases hk : k = i.fresh
    · subst hk
      rw [AList.lookup_insert, AList.lookup_insert]
    · rw [AList.lookup_insert_ne hk, AList.lookup_insert_ne hk]
      exact h.reply id hid k
  · by_cases hnew : id = i.fresh
    · subst hnew
      intro k
      rw [hs.no_attachment his, ht.no_attachment hit]
    · obtain ⟨r, hr, hor⟩ := hid
      exact h.replyAttachment id ⟨r, hold hnew hr, hor⟩
  · refine h.user v ?_
    rcases hv with hv | ⟨k, r, hr, hor, rfl⟩
    · exact .inl hv
    · by_cases hk : k = i.fresh
      · subst hk
        rw [AList.lookup_insert, Option.some.injEq] at hr
        exact .inl ⟨hr ▸ hu, _, ho⟩
      · exact .inr ⟨k, r, hold hk hr, hor, rfl⟩

variable {attachments : List String} {dto : ReplyTicketDto}

/-- The row of a reply of the student. -/
abbrev newReply (i : TicketInput) (u id : Id) (dto : ReplyTicketDto) : TicketReply :=
  { ticketId := id, userId := u, content := dto.content, createdAt := i.ms }

lemma createReply_ok {r : ReplyResponseDto}
    (h : createReply i s id attachments dto (student u) = .ok (r, t)) :
    ∃ fileUrls, Creates i (newReply i u id dto) fileUrls s t := by
  obtain ⟨fileUrls, -, h⟩ := ok_of_bind h
  obtain ⟨s₁, hcreate, h⟩ := ok_of_bind h
  obtain ⟨details, -, h⟩ := ok_of_bind h
  cases h
  exact ⟨fileUrls, createTicketReply_ok hcreate⟩

lemma createTicketReply_eq (fileUrls : List String) (hticket : reply.ticketId ∈ s.tickets)
    (huser : (s.findUser reply.userId).isSome = true) (hfresh : i.fresh ∉ s.ticketReplies) :
    s.createTicketReply i reply fileUrls =
      match s.ticketAttachments.insertNew (TicketDB.newAttachments i fileUrls) with
      | none => .error (.prisma .uniqueConstraint)
      | some attachments => .ok (withReply s i.fresh reply attachments) := by
  have hthere : ¬ (reply.ticketId ∉ s.tickets ∨ (s.findUser reply.userId).isNone = true) := by
    rw [not_or, not_not, Bool.not_eq_true, Option.isNone_eq_false_iff]
    exact ⟨hticket, huser⟩
  refine (if_neg hthere).trans ((if_neg hfresh).trans ?_)
  rcases s.ticketAttachments.insertNew (TicketDB.newAttachments i fileUrls) with _ | as <;> rfl

lemma createReply_eq {fileUrls : List String}
    (hsaved : saveTicketAttachments i attachments = .ok fileUrls) (hs : ForeignKeys s)
    (ho : Owns s u id) (hfresh : i.fresh ∉ s.ticketReplies) :
    createReply i s id attachments dto (student u) =
      match s.ticketAttachments.insertNew (TicketDB.newAttachments i fileUrls) with
      | none => .error (.prisma .uniqueConstraint)
      | some attachments =>
        let s := withReply s i.fresh (newReply i u id dto) attachments
        (s.userDetails u).map fun details =>
          ({ id := i.fresh, reply := newReply i u id dto
             attachments := s.attachmentsOf i fun attachment => attachment.replyId = some i.fresh
             userName := interpolate details.lastName ++ " " ++ interpolate details.firstName
             photoUrl := details.photoUrl }, s) := by
  obtain ⟨ticket, hid, hu⟩ := ho
  have huser : (s.findUser (newReply i u id dto).userId).isSome = true :=
    hu ▸ hs.student id ticket hid
  have hticket : (newReply i u id dto).ticketId ∈ s.tickets :=
    Table.mem_iff_lookup.mpr ⟨ticket, hid⟩
  have hcreate := createTicketReply_eq fileUrls hticket huser hfresh
  rw [createReply, hsaved]
  change (s.createTicketReply i (newReply i u id dto) fileUrls >>= _) = _
  rw [hcreate]
  rcases s.ticketAttachments.insertNew (TicketDB.newAttachments i fileUrls) with _ | as
  · rfl
  · change ((withReply s i.fresh (newReply i u id dto) as).userDetails u >>= _) = _
    dsimp only
    rcases (withReply s i.fresh (newReply i u id dto) as).userDetails u with e | details <;> rfl

/-- **A reply in two runs**: both throw the same, or both return the same. -/
lemma createReply_same (attachments : List String) (dto : ReplyTicketDto) (h : SameTickets u s t)
    (hs : ForeignKeys s) (ht : ForeignKeys t) (ho : Owns s u id) (his : Unused i s)
    (hit : Unused i t) :
    (∃ e, createReply i s id attachments dto (student u) = .error e ∧
      createReply i t id attachments dto (student u) = .error e) ∨
    ∃ r s' t', createReply i s id attachments dto (student u) = .ok (r, s') ∧
      createReply i t id attachments dto (student u) = .ok (r, t') ∧ SameTickets u s' t' := by
  rcases hsaved : saveTicketAttachments i attachments with e | fileUrls
  · exact .inl ⟨e, by rw [createReply, hsaved]; rfl, by rw [createReply, hsaved]; rfl⟩
  rw [createReply_eq hsaved hs ho his.1, createReply_eq hsaved ht (h.owns.mp ho) hit.1]
  have hkeys : ∀ e ∈ TicketDB.newAttachments i fileUrls,
      e.1 ∈ s.ticketAttachments ↔ e.1 ∈ t.ticketAttachments := by
    intro e he
    obtain ⟨⟨n, hn⟩, -⟩ := mem_newAttachments he
    rw [hn]
    exact iff_of_false (his.2 n) (hit.2 n)
  rcases Table.insertNew_congr hkeys with ⟨hns, hnt⟩ | ⟨as, bs, has, hbs, hsame⟩
  · rw [hns, hnt]
    exact .inl ⟨_, rfl, rfl⟩
  rw [has, hbs]
  have hreplied : SameTickets u (withReply s i.fresh (newReply i u id dto) as)
      (withReply t i.fresh (newReply i u id dto) bs) :=
    h.replied hs ht ho rfl his.1 hit.1 hsame
  have hdetails := hreplied.user u (.inl ⟨rfl, id, ho⟩)
  have hattachments := same_attachments (i := i)
    (hreplied.replyAttachment i.fresh ⟨_, AList.lookup_insert _, ho⟩)
  dsimp only
  rw [hdetails, hattachments]
  rcases (withReply t i.fresh (newReply i u id dto) bs).userDetails u with e | details
  · exact .inl ⟨e, rfl, rfl⟩
  · exact .inr ⟨_, _, _, rfl, rfl, hreplied⟩

/-- Only replies of the student to own tickets are new, with their attachments; all else is as it
was. -/
structure Confined (u : Id) (s t : TicketDB) : Prop where
  profiles : t.toProfileDB = s.toProfileDB
  tickets : t.tickets = s.tickets
  reply : ∀ k ∈ s.ticketReplies, t.ticketReplies.lookup k = s.ticketReplies.lookup k
  newReply : ∀ k ∉ s.ticketReplies, ∀ reply, t.ticketReplies.lookup k = some reply →
    Owns s u reply.ticketId ∧ reply.userId = u
  attachment : ∀ k ∈ s.ticketAttachments,
    t.ticketAttachments.lookup k = s.ticketAttachments.lookup k
  newAttachment : ∀ k ∉ s.ticketAttachments, ∀ attachment,
    t.ticketAttachments.lookup k = some attachment → attachment.ticketId = none ∧
      ∃ id, attachment.replyId = some id ∧ id ∉ s.ticketReplies ∧ OwnsReply t u id

lemma confined_refl : Confined u s s := by
  refine ⟨rfl, rfl, fun _ _ => rfl, fun k hk reply hr => ?_, fun _ _ => rfl,
    fun k hk attachment ha => ?_⟩
  · exact absurd (Table.mem_iff_lookup.mpr ⟨reply, hr⟩) hk
  · exact absurd (Table.mem_iff_lookup.mpr ⟨attachment, ha⟩) hk

lemma Confined.owns (h : Confined u s t) : Owns t u id ↔ Owns s u id := by
  rw [Owns, h.tickets, Owns]

lemma mem_of_lookup_eq {ρ : Type} {t t' : Table Id ρ} (h : t'.lookup k = t.lookup k) (hk : k ∈ t) :
    k ∈ t' := by
  rw [← AList.lookup_isSome, h, AList.lookup_isSome]
  exact hk

lemma Confined.trans (h : Confined u s s') (h' : Confined u s' t) : Confined u s t := by
  refine ⟨h'.profiles.trans h.profiles, h'.tickets.trans h.tickets, fun k hk => ?_,
    fun k hk reply hr => ?_, fun k hk => ?_, fun k hk attachment ha => ?_⟩
  · exact (h'.reply k (mem_of_lookup_eq (h.reply k hk) hk)).trans (h.reply k hk)
  · by_cases hk' : k ∈ s'.ticketReplies
    · exact h.newReply k hk reply ((h'.reply k hk').symm.trans hr)
    · obtain ⟨ho, hu⟩ := h'.newReply k hk' reply hr
      exact ⟨h.owns.mp ho, hu⟩
  · exact (h'.attachment k (mem_of_lookup_eq (h.attachment k hk) hk)).trans (h.attachment k hk)
  · by_cases hk' : k ∈ s'.ticketAttachments
    · obtain ⟨hticket, id, hid, hold, reply, hr, ho⟩ :=
        h.newAttachment k hk attachment ((h'.attachment k hk').symm.trans ha)
      have hmem : id ∈ s'.ticketReplies := Table.mem_iff_lookup.mpr ⟨reply, hr⟩
      exact ⟨hticket, id, hid, hold, reply, (h'.reply id hmem).trans hr, h'.owns.mpr ho⟩
    · obtain ⟨hticket, id, hid, hnew, hreply⟩ := h'.newAttachment k hk' attachment ha
      exact ⟨hticket, id, hid, fun hold => hnew (mem_of_lookup_eq (h.reply id hold) hold), hreply⟩

lemma Creates.confined {fileUrls : List String} (h : Creates i reply fileUrls s t)
    (ho : Owns s u reply.ticketId) (hu : reply.userId = u) : Confined u s t := by
  have hattachment := h.attachment
  have hfresh := h.fresh
  obtain ⟨attachments, hinsert, rfl⟩ := h.tables
  refine ⟨rfl, rfl, fun k hk => AList.lookup_insert_ne fun heq => hfresh (heq ▸ hk),
    fun k hk r hr => ?_, fun k hk => ?_, fun k hk attachment ha => ?_⟩
  · by_cases hnew : k = i.fresh
    · subst hnew
      rw [AList.lookup_insert, Option.some.injEq] at hr
      exact hr ▸ ⟨ho, hu⟩
    · rw [AList.lookup_insert_ne hnew] at hr
      exact absurd (Table.mem_iff_lookup.mpr ⟨r, hr⟩) hk
  · rcases Table.insertNew_lookup (k := k) hinsert with heq | ⟨hnone, -⟩
    · exact heq
    · exact absurd hk (AList.lookup_eq_none.mp hnone)
  · rcases hattachment k attachment ha with hold | ⟨-, hticket, hreply⟩
    · exact absurd (Table.mem_iff_lookup.mpr ⟨attachment, hold⟩) hk
    · exact ⟨hticket, i.fresh, hreply, hfresh, reply, AList.lookup_insert _, ho⟩

/-! ### One request -/

lemma replyTransaction_hidden (h : ¬ Owns s u id) :
    replyTransaction i s id attachments dto (student u) =
      .error (.notFound "Yêu cầu không tồn tại") := by
  unfold replyTransaction
  split
  · rfl
  next ticket hid =>
  exact if_pos ⟨rfl, fun hu => h ⟨ticket, hid, hu⟩⟩

lemma replyTransaction_own (hid : s.tickets.lookup id = some ticket) (hu : ticket.studentId = u) :
    replyTransaction i s id attachments dto (student u) =
      if ticket.status = .closed then .error (.badRequest "Yêu cầu đã được đóng")
      else createReply i s id attachments dto (student u) := by
  have hthere : ¬ ((student u).role = .student ∧ ticket.studentId ≠ (student u).id) :=
    fun hne => hne.2 hu
  have hstudent : ¬ (ticket.status = .pending ∧ (student u).role = .admin) := fun h => by
    cases h.2
  rw [replyTransaction, hid]
  dsimp only
  rw [if_neg hthere, if_neg hstudent]

lemma findTicketById_hidden (hs : ForeignKeys s) (h : ¬ Owns s u id) :
    ((findTicketById id (student u)).exec ω s).1 = .error (.notFound "Ticket not found") := by
  rw [findTicketById_exec, TicketDB.findTicket]
  rcases hid : s.tickets.lookup id with _ | ticket
  · rfl
  · obtain ⟨row, hrow, hticket⟩ := ticketRow_isOk (i := ω 0) hs hid
    simp only [hrow, Except.map]
    exact if_pos ⟨trivial, fun hu => h ⟨ticket, hid, hticket ▸ hu⟩⟩

/-- **A request of the student changes no other ticket.** -/
lemma serve_confined {l : TicketRequest × (ℕ → TicketInput)} (hs : ForeignKeys s)
    (hl : l.1.user = student u) :
    ForeignKeys (serveTicket s l) ∧ Confined u s (serveTicket s l) := by
  obtain ⟨r, ω⟩ := l
  cases r with
  | findAllTickets query user =>
    rw [serveTicket, call_findAllTickets]
    exact ⟨hs, confined_refl⟩
  | findTicketById id user =>
    rw [serveTicket, call_findTicketById]
    exact ⟨hs, confined_refl⟩
  | replyToTicket id attachments dto user =>
    obtain rfl : user = student u := hl
    rw [serveTicket, call_replyToTicket, replyToTicket_exec]
    split
    · next r t htransaction =>
      split at htransaction
      swap
      · cases htransaction
      by_cases ho : Owns s u id
      · obtain ⟨ticket, hid, hu⟩ := ho
        rw [replyTransaction_own hid hu] at htransaction
        split at htransaction
        · cases htransaction
        · obtain ⟨fileUrls, hcreates⟩ := createReply_ok htransaction
          exact ⟨hs.creates hcreates, hcreates.confined ⟨ticket, hid, hu⟩ rfl⟩
      · rw [replyTransaction_hidden ho] at htransaction
        cases htransaction
    · exact ⟨hs, confined_refl⟩

/-- The ids that the request generates are new. -/
def NewIds (s : TicketDB) : TicketRequest × (ℕ → TicketInput) → Prop
  | (.replyToTicket _ _ _ _, ω) => Unused (ω 0) s
  | _ => True

/-- **A request of the student in two runs.** -/
lemma serve_same {l : TicketRequest × (ℕ → TicketInput)} (h : SameTickets u s t)
    (hs : ForeignKeys s) (ht : ForeignKeys t) (hl : l.1.user = student u) (his : NewIds s l)
    (hit : NewIds t l) : answerTicket s l = answerTicket t l ∧
      SameTickets u (serveTicket s l) (serveTicket t l) := by
  obtain ⟨r, ω⟩ := l
  cases r with
  | findAllTickets query user =>
    obtain rfl : user = student u := hl
    simp only [answerTicket, serveTicket, call_findAllTickets]
    have hown : ∀ ticket, ticketFilter query (student u) ticket = true → ticket.studentId = u := by
      intro ticket hticket
      simpa [ticketFilter] using (of_decide_eq_true hticket).1
    exact ⟨by rw [same_findTickets h hown], h⟩
  | findTicketById id user =>
    obtain rfl : user = student u := hl
    simp only [answerTicket, serveTicket, call_findTicketById]
    refine ⟨?_, h⟩
    by_cases ho : Owns s u id
    · obtain ⟨ticket, hid, hu⟩ := ho
      rw [findTicketById_exec, findTicketById_exec, TicketDB.findTicket, TicketDB.findTicket, hid,
        h.lookup hid hu]
      dsimp only
      rw [same_ticketRow h hid hu]
    · rw [findTicketById_hidden hs ho, findTicketById_hidden ht fun hot => ho (h.owns.mpr hot)]
  | replyToTicket id attachments dto user =>
    obtain rfl : user = student u := hl
    simp only [answerTicket, serveTicket, call_replyToTicket, replyToTicket_exec]
    by_cases hok : (ω 0).ok = true
    swap
    · simp only [if_neg hok]
      exact ⟨trivial, h⟩
    simp only [if_pos hok]
    by_cases ho : Owns s u id
    swap
    · rw [replyTransaction_hidden ho, replyTransaction_hidden fun hot => ho (h.owns.mpr hot)]
      exact ⟨rfl, h⟩
    obtain ⟨ticket, hid, hu⟩ := ho
    rw [replyTransaction_own hid hu, replyTransaction_own (h.lookup hid hu) hu]
    by_cases hclosed : ticket.status = .closed
    · simp only [if_pos hclosed]
      exact ⟨trivial, h⟩
    simp only [if_neg hclosed]
    rcases createReply_same attachments dto h hs ht ⟨ticket, hid, hu⟩ his hit
      with ⟨e, hcs, hct⟩ | ⟨r, s', t', hcs, hct, hsame⟩
    · rw [hcs, hct]
      exact ⟨rfl, h⟩
    · rw [hcs, hct]
      exact ⟨rfl, hsame⟩

/-- **The tickets of others stay hidden and untouched**: in two runs of the same requests of a
student, from tables with the same tickets of the student, every request gets the same answer, and
the tickets of the student are the same at the end; each run leaves everything else as it was; and
an id of another student's ticket is answered like one that does not exist. -/
theorem tickets_isolated (u : Id) (s t : TicketDB) (hs : ForeignKeys s) (ht : ForeignKeys t)
    (h : SameTickets u s t) (ls : List (TicketRequest × (ℕ → TicketInput)))
    (hls : ∀ l ∈ ls, l.1.user = student u) (his : Machine.Along serveTicket NewIds s ls)
    (hit : Machine.Along serveTicket NewIds t ls) :
    Machine.outputs serveTicket answerTicket s ls = Machine.outputs serveTicket answerTicket t ls ∧
      SameTickets u (Machine.run serveTicket s ls) (Machine.run serveTicket t ls) ∧
      Confined u s (Machine.run serveTicket s ls) ∧
      ∀ id id' ω, ¬ Owns s u id → ¬ Owns s u id' →
        answerTicket s (.findTicketById id (student u), ω) =
            answerTicket s (.findTicketById id' (student u), ω) ∧
          ∀ attachments dto, answerTicket s (.replyToTicket id attachments dto (student u), ω) =
            answerTicket s (.replyToTicket id' attachments dto (student u), ω) := by
  obtain ⟨houtputs, -, -, hsame⟩ := Machine.outputs_congr
    (fun s t => ForeignKeys s ∧ ForeignKeys t ∧ SameTickets u s t)
    (fun s t l hl ⟨hs, ht, h⟩ his hit =>
      have hserve := serve_same h hs ht (hls l hl) his hit
      ⟨hserve.1, (serve_confined hs (hls l hl)).1, (serve_confined ht (hls l hl)).1, hserve.2⟩)
    ⟨hs, ht, h⟩ his hit
  obtain ⟨-, hconfined⟩ := Machine.run_inv (fun s' => ForeignKeys s' ∧ Confined u s s')
    (fun s' l ⟨hs', hconfined⟩ hl =>
      have hserve := serve_confined hs' hl
      ⟨hserve.1, hconfined.trans hserve.2⟩)
    ⟨hs, confined_refl⟩ (Machine.along_of_forall fun l hl _ => hls l hl)
  refine ⟨houtputs, hsame, hconfined, fun id id' ω ho ho' => ⟨?_, fun attachments dto => ?_⟩⟩
  · simp only [answerTicket, call_findTicketById, findTicketById_hidden hs ho,
      findTicketById_hidden hs ho']
  · simp only [answerTicket, call_replyToTicket, replyToTicket_exec, replyTransaction_hidden ho,
      replyTransaction_hidden ho']

lemma any_iff {ρ : Type} {P : ρ → Prop} [DecidablePred P] {x : Option ρ} :
    x.any (fun r => P r) = true ↔ ∃ r, x = some r ∧ P r := by
  cases x <;> simp

instance (s : TicketDB) (u id : Id) : Decidable (Owns s u id) := decidable_of_iff _ any_iff

instance (s : TicketDB) (u k : Id) : Decidable (OwnsReply s u k) := decidable_of_iff _ any_iff

/-- The tables with no tickets but those of this student. -/
def onlyOf (u : Id) (s : TicketDB) : TicketDB :=
  { s with
    tickets := s.tickets.filter fun _ ticket => ticket.studentId = u
    ticketReplies := s.ticketReplies.filter fun _ reply => Owns s u reply.ticketId
    ticketAttachments := s.ticketAttachments.filter fun _ attachment =>
      attachment.ticketId.any (Owns s u ·) || attachment.replyId.any (OwnsReply s u ·) }

/-- The student sees the same without the tickets of others. -/
lemma sameTickets_onlyOf (u : Id) (s : TicketDB) : SameTickets u s (onlyOf u s) := by
  refine ⟨fun id => ?_, fun id hid k => ?_, fun id hid k => ?_, fun id hid k => ?_, fun v _ => rfl⟩
  · rw [onlyOf, Table.lookup_filter, ← filter_of_imp _ fun _ h => h]
  · rw [onlyOf, Table.lookup_filter, ← filter_of_imp]
    intro reply hreply
    exact decide_eq_true (of_decide_eq_true hreply ▸ hid)
  · rw [onlyOf, Table.lookup_filter, ← filter_of_imp]
    intro attachment hticket
    rw [of_decide_eq_true hticket, Option.any_some, decide_eq_true hid, Bool.true_or]
  · rw [onlyOf, Table.lookup_filter, ← filter_of_imp]
    intro attachment hreply
    rw [of_decide_eq_true hreply, Option.any_some, decide_eq_true hid, Bool.or_true]

/-- A ticket of each of two students, the second one with a reply. -/
def twoTickets : TicketDB where
  toProfileDB := Lockout.sampleDB
  tickets := AList.insert 11 ⟨2, "Lost", "My parcel", .processing, 1, 0, "TKT1"⟩
    (AList.insert 10 ⟨1, "Late", "My parcel", .pending, 1, 0, "TKT0"⟩ ∅)
  ticketReplies := AList.insert 20 ⟨11, 4, "We look for it", 0⟩ ∅
  ticketAttachments := AList.insert 30 ⟨none, some 20, "https://x/30", 0⟩ ∅

def sampleInput : TicketInput where
  toAuthInput := Lockout.sampleInputs 0 0
  attachmentId n := 100 + n
  uploadImage _ buffer _ := some ("https://x/" ++ buffer)
  ticketRank _ := 0
  replyRank _ := 0
  attachmentRank _ := 0

/-- The first student replies and looks at both tickets. -/
def replyAndLook : List (TicketRequest × (ℕ → TicketInput)) :=
  [(.replyToTicket 10 ["a"] ⟨"Any news?"⟩ (student 1), fun _ => sampleInput),
    (.findTicketById 10 (student 1), fun _ => sampleInput),
    (.findTicketById 11 (student 1), fun _ => sampleInput)]

lemma foreignKeys_of_entries
    (htickets : ∀ e ∈ s.tickets.entries, (s.findUser e.2.studentId).isSome = true)
    (hreplies : ∀ e ∈ s.ticketReplies.entries, (s.findUser e.2.userId).isSome = true)
    (hattachments : ∀ e ∈ s.ticketAttachments.entries, ∀ k ∈ e.2.replyId, k ∈ s.ticketReplies) :
    ForeignKeys s :=
  ⟨fun _ _ h => htickets _ (Table.lookup_eq_some.mp h),
    fun _ _ h => hreplies _ (Table.lookup_eq_some.mp h),
    fun _ _ k h hk => hattachments _ (Table.lookup_eq_some.mp h) k hk⟩

theorem tickets_isolated_two :
    ¬ Owns twoTickets 1 11 ∧ 11 ∈ twoTickets.tickets ∧ 11 ∉ (onlyOf 1 twoTickets).tickets ∧
      Machine.outputs serveTicket answerTicket twoTickets replyAndLook =
        Machine.outputs serveTicket answerTicket (onlyOf 1 twoTickets) replyAndLook := by
  refine ⟨by decide +kernel, by decide +kernel, by decide +kernel,
    (tickets_isolated 1 twoTickets (onlyOf 1 twoTickets) ?_ ?_ (sameTickets_onlyOf 1 twoTickets)
      replyAndLook (by decide +kernel) ?_ ?_).1⟩
  · exact foreignKeys_of_entries (by decide +kernel) (by decide +kernel) (by decide +kernel)
  · exact foreignKeys_of_entries (by decide +kernel) (by decide +kernel) (by decide +kernel)
  · refine ⟨⟨by decide +kernel, fun n h => ?_⟩, trivial, trivial, trivial⟩
    rcases (AList.mem_insert _).mp h with h | h
    · change 100 + n = 30 at h
      omega
    · cases h
  · refine ⟨⟨by decide +kernel, fun n h => ?_⟩, trivial, trivial, trivial⟩
    cases h

end TsaBackend.TicketIsolation
