import TsaBackend.ReadCommitted
import TsaBackend.TicketIsolation

/-!
Replies to a ticket and changes of its status, interleaved statement by statement at READ
COMMITTED.

A reply looks at the status, may write PROCESSING, waits for its uploads and then writes its row.
A ticket that is closed in between is replied to all the same.
-/

namespace TsaBackend.TicketRaces

open ReadCommitted

/-- A row lock. -/
inductive Row
  | ticket (id : Id)
  | reply (id : Id)
  deriving DecidableEq

/-- The statement of `ticketReply.create` that writes the reply and its attachments. -/
def insertReply (i : TicketInput) (reply : TicketReply) (fileUrls : List String) (s : TicketDB) :
    TicketDB := (s.createTicketReply i reply fileUrls).toOption.getD s

/-- From `saveTicketAttachments` on. The ticket and the user are looked up to be connected, and
then the reply is written; the transaction may have run out of time by then. -/
def createReplyTx (id : Id) (attachments : List String) (dto : ReplyTicketDto)
    (user : GetUserType) (i : TicketInput) : Tx TicketDB Row :=
  match saveTicketAttachments i attachments with
  | .error _ => .rollback
  | .ok savedAttachments =>
    let reply : TicketReply :=
      { ticketId := id, userId := user.id, content := dto.content, createdAt := i.ms }
    .query fun s =>
      match s.createTicketReply i reply savedAttachments with
      | .error _ => .rollback
      | .ok _ =>
        .update (.reply i.fresh) (insertReply i reply savedAttachments)
          (if i.ok then .commit else .rollback)

/-- The whole transaction, from `tx.ticket.findUnique` on. -/
def replyTx (id : Id) (attachments : List String) (dto : ReplyTicketDto) (user : GetUserType)
    (i : TicketInput) : Tx TicketDB Row :=
  .query fun s =>
    match s.tickets.lookup id with
    | none => .rollback
    | some ticket =>
      if user.role = .student ∧ ticket.studentId ≠ user.id then .rollback
      else if ticket.status = .closed then .rollback
      else if ticket.status = .pending ∧ user.role = .admin then
        .update (.ticket id) (fun s => s.setTicketStatus id .processing)
          (createReplyTx id attachments dto user i)
      else createReplyTx id attachments dto user i

def statusTx (id : Id) (dto : UpdateTicketStatusDto) : Tx TicketDB Row :=
  .query fun s =>
    if id ∈ s.tickets then
      .update (.ticket id) (fun s => s.setTicketStatus id dto.status) .commit
    else .rollback

section Alone

variable {id : Id} {attachments : List String} {dto : ReplyTicketDto} {user : GetUserType}
  {i : TicketInput} {s t : TicketDB} {w : TicketDB → TicketDB}

lemma userDetails_of_find {u : Id} {user : User} {account : UserAccount}
    (h : s.findUser u = some (user, account)) :
    s.userDetails u = .ok ⟨account.photoUrl, account.firstName, account.lastName⟩ := by
  unfold TicketDB.userDetails
  rw [h]

lemma userDetails_created {reply : TicketReply} {fileUrls : List String}
    (h : s.createTicketReply i reply fileUrls = .ok t) : ∃ d, t.userDetails reply.userId = .ok d := by
  unfold TicketDB.createTicketReply at h
  split at h
  · cases h
  next hconnect =>
  split at h
  · cases h
  split at h
  · cases h
  cases h
  rw [not_or, Bool.not_eq_true, Option.isNone_eq_false_iff, Option.isSome_iff_exists] at hconnect
  obtain ⟨-, ⟨u, account⟩, hu⟩ := hconnect
  exact ⟨_, userDetails_of_find hu⟩

/-- The tables after a step that commits or changes nothing. -/
def left {α : Type} (s : TicketDB) : Except Exn (α × TicketDB) → TicketDB
  | .ok r => r.2
  | .error _ => s

lemma exec_replyToTicket : ((replyToTicket id attachments dto user).exec (fun _ => i) s).2 =
    left s (if i.ok then replyTransaction i s id attachments dto user else .error .rejected) := by
  have hstep : ((replyToTicket id attachments dto user).exec (fun _ => i) s).2 =
      ((replyToTicket id attachments dto user >>= pure).exec (fun _ => i) s).2 := by
    rw [bind_pure]
  rw [hstep, replyToTicket, Call.exec_atomic_bind]
  rcases (if i.ok then replyTransaction i s id attachments dto user else .error .rejected)
    with e | ⟨r, t⟩ <;> rfl

lemma alone_createReplyTx : (createReplyTx id attachments dto user i).alone s w =
    left s (if i.ok then createReply i (w s) id attachments dto user else .error .rejected) := by
  unfold createReplyTx createReply
  rcases saveTicketAttachments i attachments with e | fileUrls
  · cases i.ok <;> rfl
  let reply : TicketReply :=
    { ticketId := id, userId := user.id, content := dto.content, createdAt := i.ms }
  dsimp only [Tx.alone]
  rcases hc : (w s).createTicketReply i reply fileUrls with e | t
  · cases i.ok
    · rfl
    · change s = left s ((w s).createTicketReply i reply fileUrls >>= _)
      rw [hc]
      rfl
  obtain ⟨d, hd⟩ := userDetails_created hc
  have hinsert : insertReply i reply fileUrls (w s) = t := by
    rw [insertReply, hc]
    rfl
  dsimp only [Tx.alone]
  cases hok : i.ok with
  | false => rfl
  | true =>
    change insertReply i reply fileUrls (w s) =
      left s ((w s).createTicketReply i reply fileUrls >>= _)
    rw [hinsert, hc]
    change t = left s (t.userDetails user.id >>= _)
    change t.userDetails user.id = .ok d at hd
    rw [hd]
    rfl

/-- **Alone the transaction of a reply is the atomic one.** -/
theorem alone_replyTx : (replyTx id attachments dto user i).alone s (fun s => s) =
    ((replyToTicket id attachments dto user).exec (fun _ => i) s).2 := by
  rw [exec_replyToTicket]
  unfold replyTransaction replyTx
  dsimp only [Tx.alone]
  rcases s.tickets.lookup id with _ | ticket
  · cases i.ok <;> rfl
  dsimp only
  by_cases howner : user.role = .student ∧ ticket.studentId ≠ user.id
  · rw [if_pos howner, if_pos howner]
    cases i.ok <;> rfl
  rw [if_neg howner, if_neg howner]
  by_cases hclosed : ticket.status = .closed
  · rw [if_pos hclosed, if_pos hclosed]
    cases i.ok <;> rfl
  rw [if_neg hclosed, if_neg hclosed]
  by_cases hpending : ticket.status = .pending ∧ user.role = .admin
  · rw [if_pos hpending, if_pos hpending, Tx.alone, alone_createReplyTx]
    rfl
  · rw [if_neg hpending, if_neg hpending, alone_createReplyTx]

/-- **Alone a status change that returns is the atomic one.** -/
theorem alone_statusTx {dto : UpdateTicketStatusDto} {r : TicketResponseDto}
    (h : (updateTicketStatus id dto).exec (fun _ => i) s = (.ok r, t)) :
    (statusTx id dto).alone s (fun s => s) = t := by
  rw [← bind_pure (updateTicketStatus id dto), updateTicketStatus, Call.exec_atomic_bind] at h
  dsimp only at h
  by_cases hok : i.ok = true
  · rw [if_pos hok] at h
    rcases hfind : (s.setTicketStatus id dto.status).findTicket i id with e | row | row
    · rw [hfind] at h
      cases h
    · rw [hfind] at h
      cases h
    · rw [hfind] at h
      cases h
      have hid : id ∈ s.tickets := by
        by_contra hid
        rw [TicketDB.findTicket, TicketDB.setTicketStatus, Table.lookup_modify_self,
          AList.lookup_eq_none.mpr hid] at hfind
        cases hfind
      rw [statusTx, Tx.alone, if_pos hid]
      rfl
  · rw [if_neg hok] at h
    cases h

end Alone

/-! ### Runs -/

/-- A call on the ticket, with what it is given. -/
inductive TicketWrite
  | replyToTicket (attachments : List String) (dto : ReplyTicketDto) (user : GetUserType)
    (i : TicketInput)
  | updateTicketStatus (dto : UpdateTicketStatusDto)

def TicketWrite.isReply : TicketWrite → Bool
  | .replyToTicket _ _ _ _ => true
  | .updateTicketStatus _ => false

def TicketWrite.tx (id : Id) : TicketWrite → Tx TicketDB Row
  | .replyToTicket attachments dto user i => replyTx id attachments dto user i
  | .updateTicketStatus dto => statusTx id dto

variable {I : Type} [DecidableEq I] [Fintype I]

/-- All transactions are about to begin. -/
def init (s : TicketDB) (id : Id) (calls : I → TicketWrite) : State TicketDB Row I :=
  ⟨s, fun k => .start ((calls k).tx id)⟩

/-- The step commits a status change to CLOSED. -/
def Closes (calls : I → TicketWrite) (st : State TicketDB Row I) (k : I) : Prop :=
  calls k = .updateTicketStatus ⟨.closed⟩ ∧ Committing st k

/-- The step commits a status change to another status. -/
def Reopens (calls : I → TicketWrite) (st : State TicketDB Row I) (k : I) : Prop :=
  ∃ dto : UpdateTicketStatusDto, calls k = .updateTicketStatus dto ∧ dto.status ≠ .closed ∧
    Committing st k

/-- A status change to CLOSED has been committed, and since then none to another status. -/
def Closed (calls : I → TicketWrite) : State TicketDB Row I → List I → Prop :=
  Machine.Since step (Closes calls) (Reopens calls)

/-- While the ticket is closed, the steps of replies change nothing and commit nothing. -/
def StaysClosed (calls : I → TicketWrite) (st : State TicketDB Row I) (sched : List I) : Prop :=
  ∀ before k after, sched = before ++ k :: after → (calls k).isReply = true →
    Closed calls st before →
      ¬ Committing (Machine.run step st before) k ∧
        (Machine.run step st (before ++ [k])).db = (Machine.run step st before).db

/-- Since transaction `k` took its first step, the ticket has been closed. -/
def Overtaken (calls : I → TicketWrite) (st : State TicketDB Row I) (ls : List I) (k : I) : Prop :=
  ∃ before after, ls = before ++ k :: after ∧ k ∉ before ∧
    Closed calls (Machine.run step st (before ++ [k])) after

/-- No reply commits that the closing of the ticket has overtaken. -/
def InTime (calls : I → TicketWrite) (st : State TicketDB Row I) (sched : List I) : Prop :=
  ∀ before k after, sched = before ++ k :: after → (calls k).isReply = true →
    Committing (Machine.run step st before) k → ¬ Overtaken calls st before k

/-- The ticket is closed in the tables. -/
def ClosedRow (id : Id) (s : TicketDB) : Prop :=
  ∀ ticket, s.tickets.lookup id = some ticket → ticket.status = .closed

section Races

variable {s : TicketDB} {id : Id} {calls : I → TicketWrite} {before after ls : List I} {k : I}

lemma statusTx_commits {dto : UpdateTicketStatusDto} :
    (statusTx id dto).Commits (fun w => w = fun s => s.setTicketStatus id dto.status)
      (fun s => s) := by
  intro s
  dsimp only
  split
  · rfl
  · trivial

lemma closedRow_of_closes (hk : calls k = .updateTicketStatus ⟨.closed⟩)
    (hc : Committing (Machine.run step (init s id calls) ls) k) :
    ClosedRow id (Machine.run step (init s id calls) (ls ++ [k])).db := by
  have hstart : ((init s id calls).sessions k).Commits
      fun w => w = fun s => s.setTicketStatus id .closed := by
    rintro tx htx
    obtain rfl : (calls k).tx id = tx := by simpa [init, Session.start] using htx
    rw [hk]
    exact statusTx_commits
  have hw := (run_commits hstart ls).at_commit hc
  rw [Machine.run_append, Machine.run_cons, Machine.run_nil, step_committing hc, hw]
  intro ticket hticket
  dsimp only [TicketDB.setTicketStatus] at hticket
  rw [Table.lookup_modify_self] at hticket
  obtain ⟨old, -, rfl⟩ := Option.map_eq_some_iff.mp hticket
  rfl

lemma replyTx_closed (attachments : List String) (dto : ReplyTicketDto) (user : GetUserType)
    (i : TicketInput) (h : ClosedRow id s) :
    ∃ next, replyTx id attachments dto user i = .query next ∧ next s = .rollback := by
  refine ⟨_, rfl, ?_⟩
  rcases hticket : s.tickets.lookup id with _ | ticket
  · rfl
  dsimp only
  split
  · rfl
  · exact if_pos (h ticket hticket)

lemma not_committing_of_closedRow (hk : (calls k).isReply = true) (hnew : k ∉ before)
    (hrow : ClosedRow id (Machine.run step (init s id calls) before).db) (after : List I) :
    ¬ Committing (Machine.run step (init s id calls) (before ++ k :: after)) k := by
  obtain ⟨attachments, dto, user, i, hcall⟩ : ∃ attachments dto user i,
      calls k = .replyToTicket attachments dto user i := by
    rcases hc : calls k with ⟨attachments, dto, user, i⟩ | dto
    · exact ⟨attachments, dto, user, i, rfl⟩
    · rw [hc] at hk
      cases hk
  set st := Machine.run step (init s id calls) before with hst
  obtain ⟨next, htx, hguard⟩ := replyTx_closed attachments dto user i hrow
  have hsession : st.sessions k = .start (.query next) := by
    rw [hst, run_other hnew, ← htx]
    simp [init, hcall, TicketWrite.tx]
  have hdone : ((step st k).sessions k).Commits fun _ => False := by
    rw [step_query hsession]
    rintro tx htx
    obtain rfl : next st.db = tx := by simpa using htx
    rw [hguard]
    trivial
  intro hc
  rw [Machine.run_append, Machine.run_cons] at hc
  exact (run_commits hdone after).at_commit hc

lemma mem_of_committing (hk : (calls k).isReply = true)
    (hc : Committing (Machine.run step (init s id calls) ls) k) : k ∈ ls := by
  by_contra hnew
  rw [committing_iff, run_other hnew] at hc
  rcases hcall : calls k with ⟨attachments, dto, user, i⟩ | dto
  · simp [init, hcall, TicketWrite.tx, Session.start, replyTx] at hc
  · rw [hcall] at hk
    cases hk

/-- A reply that commits while the ticket is closed has been overtaken. -/
lemma overtaken_of_closed (hk : (calls k).isReply = true)
    (hrow : ∀ before after, ls = before ++ k :: after →
      Closed calls (init s id calls) before →
        ClosedRow id (Machine.run step (init s id calls) before).db)
    (hclosed : Closed calls (init s id calls) ls)
    (hc : Committing (Machine.run step (init s id calls) ls) k) :
    Overtaken calls (init s id calls) ls k := by
  obtain ⟨before, after, rfl, hnew⟩ := List.eq_append_cons_of_mem (mem_of_committing hk hc)
  refine ⟨before, after, rfl, hnew, ?_⟩
  have hsplit : before ++ k :: after = (before ++ [k]) ++ after := by simp
  rw [Closed, hsplit, Machine.since_append] at hclosed
  rcases hclosed with hafter | ⟨hbefore, -⟩
  · exact hafter
  rcases Machine.since_concat.mp hbefore with ⟨hcloses, -⟩ | ⟨hbefore, -⟩
  · rw [hcloses] at hk
    cases hk
  · exact absurd hc (not_committing_of_closedRow hk hnew (hrow before after rfl hbefore) after)

lemma InTime.left (h : InTime calls (init s id calls) (ls ++ after)) :
    InTime calls (init s id calls) ls := by
  rintro before k rest rfl
  exact h before k (rest ++ after) (by simp)

/-- **Replies that are in time leave a closed ticket closed.** -/
theorem closedRow_of_closed (h : InTime calls (init s id calls) ls)
    (hclosed : Closed calls (init s id calls) ls) :
    ClosedRow id (Machine.run step (init s id calls) ls).db := by
  induction hn : ls.length using Nat.strong_induction_on generalizing ls with
  | _ n ih =>
    rcases List.eq_nil_or_concat ls with rfl | ⟨ls, k, rfl⟩
    · obtain ⟨before, l, after, heq, -⟩ := hclosed
      simp at heq
    rw [List.concat_eq_append] at h hclosed hn ⊢
    rw [Closed, Machine.since_concat] at hclosed
    rcases hclosed with ⟨hcall, hc⟩ | ⟨hclosed, hopen⟩
    · exact closedRow_of_closes hcall hc
    have hrow : ClosedRow id (Machine.run step (init s id calls) ls).db :=
      ih ls.length (by simp [← hn]) h.left hclosed rfl
    by_cases hc : Committing (Machine.run step (init s id calls) ls) k
    · rcases hcall : calls k with ⟨attachments, dto, user, i⟩ | ⟨⟨status⟩⟩
      · -- a reply that commits now would have been overtaken
        have hk : (calls k).isReply = true := by rw [hcall]; rfl
        refine absurd (overtaken_of_closed hk (fun before after heq hbefore => ?_) hclosed hc)
          (h ls k [] rfl hk hc)
        subst heq
        refine ih before.length ?_ (h.left.left) hbefore rfl
        rw [← hn]
        simp
      · by_cases hst : status = .closed
        · subst hst
          exact closedRow_of_closes hcall hc
        · exact absurd ⟨_, hcall, hst, hc⟩ hopen
    · rw [Machine.run_append, Machine.run_cons, Machine.run_nil, step_db hc]
      exact hrow

/-- **When a closed ticket stays closed and silent**: in any interleaving of replies and status
changes on a ticket, just when no reply commits that has been overtaken by a closing. -/
theorem closed_ticket_stays_closed (s : TicketDB) (id : Id) (calls : I → TicketWrite)
    (sched : List I) :
    StaysClosed calls (init s id calls) sched ↔ InTime calls (init s id calls) sched := by
  constructor
  · rintro h before k after rfl hk hc ⟨first, rest, rfl, -, hrest⟩
    refine (h _ k after rfl hk ?_).1 hc
    have hsplit : first ++ k :: rest = (first ++ [k]) ++ rest := by simp
    rw [Closed, hsplit, Machine.since_append]
    exact .inl hrest
  · rintro h before k after rfl hk hclosed
    have hnot : ¬ Committing (Machine.run step (init s id calls) before) k := by
      intro hc
      refine h before k after rfl hk hc (overtaken_of_closed hk ?_ hclosed hc)
      rintro first rest rfl hfirst
      exact closedRow_of_closed h.left.left hfirst
    refine ⟨hnot, ?_⟩
    rw [Machine.run_append, Machine.run_cons, Machine.run_nil, step_db hnot]

end Races

/-- An administrator replies to the first ticket while it is being closed. -/
def replyAndClose : Fin 2 → TicketWrite :=
  ![.replyToTicket [] ⟨"It is on its way"⟩ Sample.admin TicketIsolation.sampleInput,
    .updateTicketStatus ⟨.closed⟩]

/-- The ticket is closed after the reply has looked at it: the reply sets it to PROCESSING and is
written. -/
theorem closed_ticket_replied_to :
    let st := init TicketIsolation.twoTickets 10 replyAndClose
    let closed := Machine.run step st [0, 1, 1, 1]
    let t := Machine.run step st [0, 1, 1, 1, 0, 0, 0, 0]
    (closed.db.tickets.lookup 10).map (·.status) = some .closed ∧
      closed.db.ticketReplies.keys = [20] ∧
      (t.db.tickets.lookup 10).map (·.status) = some .processing ∧
      t.db.ticketReplies.keys = [0, 20] ∧
      ¬ StaysClosed replyAndClose st [0, 1, 1, 1, 0, 0, 0, 0] := by
  intro st closed t
  refine ⟨by decide +kernel, by decide +kernel, by decide +kernel, by decide +kernel, fun h => ?_⟩
  have hopen : ∀ st, ¬ Reopens replyAndClose st 0 := by
    rintro st ⟨dto, hcall, -⟩
    cases hcall
  have hclosed : Closed replyAndClose st [0, 1, 1, 1, 0, 0, 0] :=
    ⟨[0, 1, 1], 1, [0, 0, 0], rfl, ⟨rfl, by decide +kernel⟩, hopen _, hopen _, hopen _, trivial⟩
  exact (h [0, 1, 1, 1, 0, 0, 0] 0 [] rfl rfl hclosed).1 (by decide +kernel)

end TsaBackend.TicketRaces
