import TsaBackend.Sessions

/-!
Tickets and their replies: `tickets/tickets.service.impl.ts`.

A student is shown the tickets of the student. A reply is one transaction, which the uploads of
its attachments are part of.
-/

namespace TsaBackend

open Call (throwIf)

inductive TicketStatus
  | pending | processing | closed
  deriving DecidableEq, Repr

structure Ticket where
  studentId : Id
  title : String
  content : String
  status : TicketStatus
  categoryId : Id
  createdAt : ℕ
  displayId : String
  deriving DecidableEq, Repr

structure TicketReply where
  ticketId : Id
  userId : Id
  content : String
  createdAt : ℕ
  deriving DecidableEq, Repr

/-- An attachment of a ticket or of a reply. -/
structure TicketAttachment where
  ticketId : Option Id
  replyId : Option Id
  fileUrl : String
  uploadedAt : ℕ
  deriving DecidableEq, Repr

structure TicketDB extends ProfileDB where
  tickets : Table Id Ticket
  ticketReplies : Table Id TicketReply
  ticketAttachments : Table Id TicketAttachment
  deriving DecidableEq

/-- What a step reads from outside: also the ids of the attachments it creates, the URLs of the
images it uploads, and the places of the rows that no `orderBy` orders. -/
structure TicketInput extends AuthInput where
  attachmentId : ℕ → Id
  uploadImage : ℕ → String → String → Option String
  ticketRank : Id → ℕ
  replyRank : Id → ℕ
  attachmentRank : Id → ℕ

abbrev TicketCall (α : Type) : Type := Call TicketDB TicketInput Exn α

structure TicketQueryDto where
  status : Arg TicketStatus

structure ReplyTicketDto where
  content : String

structure UpdateTicketStatusDto where
  status : TicketStatus

structure AttachmentResponseDto where
  fileUrl : String
  uploadedAt : ℕ
  deriving DecidableEq, Repr

/-- The selected columns of a user. -/
structure UserDetails where
  photoUrl : Option String
  firstName : Option String
  lastName : Option String
  deriving DecidableEq, Repr

/-- A reply with what is selected of it. -/
structure ReplyRow where
  id : Id
  content : String
  createdAt : ℕ
  userId : Id
  user : UserDetails
  attachments : List AttachmentResponseDto
  deriving DecidableEq, Repr

/-- A ticket with what it includes. -/
structure TicketRow where
  id : Id
  ticket : Ticket
  attachments : List AttachmentResponseDto
  replies : List ReplyRow
  student : UserDetails
  deriving DecidableEq, Repr

structure ReplyDetails extends ReplyRow where
  userName : String
  photoUrl : Option String
  deriving DecidableEq, Repr

structure TicketResponseDto where
  id : Id
  ticket : Ticket
  attachments : List AttachmentResponseDto
  replies : List ReplyDetails
  userName : String
  photoUrl : Option String
  deriving DecidableEq, Repr

structure ReplyResponseDto where
  id : Id
  reply : TicketReply
  attachments : List AttachmentResponseDto
  userName : String
  photoUrl : Option String
  deriving DecidableEq, Repr

/-- A nullable column in a text. -/
def interpolate (column : Option String) : String := column.getD "null"

/-! ### Statements and the service -/

namespace TicketDB

def userDetails (s : TicketDB) (id : Id) : Except Exn UserDetails :=
  match s.findUser id with
  | some (_, account) => .ok ⟨account.photoUrl, account.firstName, account.lastName⟩
  | none => .error .typeError

def attachmentsOf (s : TicketDB) (i : TicketInput) (p : TicketAttachment → Bool) :
    List AttachmentResponseDto :=
  (s.ticketAttachments.ranked i.attachmentRank p).map fun e => ⟨e.2.fileUrl, e.2.uploadedAt⟩

def replyRow (s : TicketDB) (i : TicketInput) (id : Id) (reply : TicketReply) :
    Except Exn ReplyRow := do
  let user ← s.userDetails reply.userId
  return { id, content := reply.content, createdAt := reply.createdAt, userId := reply.userId, user
           attachments := s.attachmentsOf i fun attachment => attachment.replyId = some id }

def repliesOf (s : TicketDB) (i : TicketInput) (id : Id) : Except Exn (List ReplyRow) :=
  (s.ticketReplies.ranked i.replyRank fun reply => reply.ticketId = id).mapM fun e =>
    s.replyRow i e.1 e.2

/-- `include` of the attachments, the replies and the student of a ticket. -/
def ticketRow (s : TicketDB) (i : TicketInput) (id : Id) (ticket : Ticket) :
    Except Exn TicketRow := do
  let replies ← s.repliesOf i id
  let student ← s.userDetails ticket.studentId
  return { id, ticket, replies, student
           attachments := s.attachmentsOf i fun attachment => attachment.ticketId = some id }

/-- `ticket.findUnique` -/
def findTicket (s : TicketDB) (i : TicketInput) (id : Id) : Except Exn (Option TicketRow) :=
  match s.tickets.lookup id with
  | none => .ok none
  | some ticket => (s.ticketRow i id ticket).map some

/-- `ticket.findMany`, the newest first. -/
def findTickets (s : TicketDB) (i : TicketInput) (p : Ticket → Bool) :
    Except Exn (List TicketRow) :=
  ((s.tickets.ranked i.ticketRank p).insertionSort fun a b => b.2.createdAt ≤ a.2.createdAt).mapM
    fun e => s.ticketRow i e.1 e.2

def setTicketStatus (s : TicketDB) (id : Id) (status : TicketStatus) : TicketDB :=
  { s with tickets := s.tickets.modify id fun ticket => { ticket with status } }

/-- The rows of the attachments that a reply is created with. -/
def newAttachments (i : TicketInput) (fileUrls : List String) : List (Id × TicketAttachment) :=
  fileUrls.zipIdx.map fun (fileUrl, n) =>
    (i.attachmentId n, { ticketId := none, replyId := some i.fresh, fileUrl, uploadedAt := i.ms })

/-- `ticketReply.create`, with its attachments. -/
def createTicketReply (s : TicketDB) (i : TicketInput) (reply : TicketReply)
    (fileUrls : List String) : Except Exn TicketDB :=
  if reply.ticketId ∉ s.tickets ∨ (s.findUser reply.userId).isNone then
    .error (.prisma .recordNotFound)
  else if i.fresh ∈ s.ticketReplies then .error (.prisma .uniqueConstraint)
  else match s.ticketAttachments.insertNew (newAttachments i fileUrls) with
    | none => .error (.prisma .uniqueConstraint)
    | some ticketAttachments => .ok { s with
        ticketReplies := s.ticketReplies.insert i.fresh reply
        ticketAttachments }

end TicketDB

/-- What is shown of a ticket: `omit` finds no `user` in the list of the replies, so that each of
them keeps its own. -/
def ticketWithUserDetails (row : TicketRow) : TicketResponseDto where
  id := row.id
  ticket := row.ticket
  attachments := row.attachments
  replies := row.replies.map fun reply =>
    { reply with
      userName := interpolate reply.user.firstName ++ " " ++ interpolate reply.user.lastName
      photoUrl := reply.user.photoUrl }
  userName := interpolate row.student.firstName ++ " " ++ interpolate row.student.lastName
  photoUrl := row.student.photoUrl

/-- The filter of a search; an absent status filters nothing. -/
def ticketFilter (query : TicketQueryDto) (user : GetUserType) (ticket : Ticket) : Bool :=
  (user.role ≠ .student ∨ ticket.studentId = user.id) ∧
    query.status.toOption.all (ticket.status = ·)

def findAllTickets (query : TicketQueryDto) (user : GetUserType) :
    TicketCall (List TicketResponseDto) := do
  let tickets ← (.atomic fun i s =>
    (s.findTickets i (ticketFilter query user)).map fun tickets => (tickets, s) : TicketCall _)
  return tickets.map ticketWithUserDetails

def findTicketById (id : Id) (user : GetUserType) : TicketCall TicketResponseDto := do
  let ticket ← (.atomic fun i s => (s.findTicket i id).map fun ticket => (ticket, s) : TicketCall _)
  let some row := ticket | throw (.notFound "Ticket not found")
  throwIf (user.role = .student ∧ row.ticket.studentId ≠ user.id) (.notFound "Ticket not found")
  return ticketWithUserDetails row

/-- The uploads of the attachments, all at once. -/
def saveTicketAttachments (i : TicketInput) (attachments : List String) :
    Except Exn (List String) :=
  attachments.zipIdx.mapM fun (buffer, n) =>
    match i.uploadImage n buffer "tsa_image/ticket_attachments" with
    | some secureUrl => .ok secureUrl
    | none => .error .rejected

/-- The reply of a user to this ticket, and what the caller is told. -/
def createReply (i : TicketInput) (s : TicketDB) (id : Id) (attachments : List String)
    (dto : ReplyTicketDto) (user : GetUserType) : Except Exn (ReplyResponseDto × TicketDB) := do
  let savedAttachments ← saveTicketAttachments i attachments
  let reply : TicketReply :=
    { ticketId := id, userId := user.id, content := dto.content, createdAt := i.ms }
  let s ← s.createTicketReply i reply savedAttachments
  let details ← s.userDetails user.id
  return ({ id := i.fresh, reply
            attachments := s.attachmentsOf i fun attachment => attachment.replyId = some i.fresh
            userName := interpolate details.lastName ++ " " ++ interpolate details.firstName
            photoUrl := details.photoUrl }, s)

/-- The transaction of a reply. -/
def replyTransaction (i : TicketInput) (s : TicketDB) (id : Id) (attachments : List String)
    (dto : ReplyTicketDto) (user : GetUserType) : Except Exn (ReplyResponseDto × TicketDB) :=
  match s.tickets.lookup id with
  | none => .error (.notFound "Yêu cầu không tồn tại")
  | some ticket =>
    if user.role = .student ∧ ticket.studentId ≠ user.id then
      .error (.notFound "Yêu cầu không tồn tại")
    else if ticket.status = .closed then .error (.badRequest "Yêu cầu đã được đóng")
    else
      let s := if ticket.status = .pending ∧ user.role = .admin then
          s.setTicketStatus id .processing
        else s
      createReply i s id attachments dto user

/-- A transaction the database may not answer. -/
def replyToTicket (id : Id) (attachments : List String) (dto : ReplyTicketDto)
    (user : GetUserType) : TicketCall ReplyResponseDto :=
  .atomic fun i s => if i.ok then replyTransaction i s id attachments dto user else .error .rejected

/-- The update, and the ticket it leaves with what it includes. -/
def updateTicketStatus (id : Id) (dto : UpdateTicketStatusDto) : TicketCall TicketResponseDto :=
  .atomic fun i s =>
    let t := s.setTicketStatus id dto.status
    if i.ok then
      match t.findTicket i id with
      | .error e => .error e
      | .ok none => .error (.prisma .recordNotFound)
      | .ok (some row) => .ok (ticketWithUserDetails row, t)
    else .error .rejected

inductive TicketRequest
  | findAllTickets (query : TicketQueryDto) (user : GetUserType)
  | findTicketById (id : Id) (user : GetUserType)
  | replyToTicket (id : Id) (attachments : List String) (dto : ReplyTicketDto) (user : GetUserType)

inductive TicketResponse
  | tickets (tickets : List TicketResponseDto)
  | ticket (ticket : TicketResponseDto)
  | reply (reply : ReplyResponseDto)
  deriving DecidableEq, Repr

/-- Who makes the request. -/
def TicketRequest.user : TicketRequest → GetUserType
  | .findAllTickets _ user => user
  | .findTicketById _ user => user
  | .replyToTicket _ _ _ user => user

def TicketRequest.call : TicketRequest → TicketCall TicketResponse
  | .findAllTickets query user => TsaBackend.findAllTickets query user >>= (pure ∘ .tickets)
  | .findTicketById id user => TsaBackend.findTicketById id user >>= (pure ∘ .ticket)
  | .replyToTicket id attachments dto user =>
    TsaBackend.replyToTicket id attachments dto user >>= (pure ∘ .reply)

/-- The response to a request that ran alone. -/
def answerTicket (s : TicketDB) (l : TicketRequest × (ℕ → TicketInput)) :
    Except Exn TicketResponse :=
  (l.1.call.exec l.2 s).1

/-- One request after the other. -/
def serveTicket (s : TicketDB) (l : TicketRequest × (ℕ → TicketInput)) : TicketDB :=
  (l.1.call.exec l.2 s).2

end TsaBackend
