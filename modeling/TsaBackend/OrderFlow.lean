import Mathlib.Data.List.Chain
import TsaBackend.OrderEffects

/-!
The life of one order under `updateStatus`: whatever is asked and by whom, its history is a
path of the transition table, cancellations are justified, and a refused call leaves
nothing behind.
-/

namespace TsaBackend.OrderFlow

open Call OrderEffects

/-- Consecutive statuses are transitions. -/
def Path (l : List OrderStatus) : Prop := l.IsChain fun src dst => dst ∈ validTransitions src

variable {l pre post : List OrderStatus}

/-- An entry that only one status leads to comes right after that status. -/
lemma Path.reached {st : OrderStatus} (src : OrderStatus) (h : Path (.pending :: l))
    (he : .pending :: l = pre ++ st :: post) (hst : st ≠ .pending)
    (honly : ∀ x, st ∈ validTransitions x → x = src) : ∃ pre', pre = pre' ++ [src] := by
  rcases List.eq_nil_or_concat pre with rfl | ⟨pre', x, rfl⟩
  · cases he
    exact absurd rfl hst
  · rw [he, List.concat_eq_append, List.append_assoc] at h
    have hx : st ∈ validTransitions x := (List.isChain_append_cons_cons.mp h).2.1
    exact ⟨pre', by rw [List.concat_eq_append, honly x hx]⟩

/-- **Only the full way leads to a delivery, and nothing follows it.** -/
theorem Path.delivered (h : Path (.pending :: l)) (he : .pending :: l = pre ++ .delivered :: post) :
    post = [] ∧
      ∃ pre', pre = pre' ++ [.pending, .accepted, .receivedExternal, .inTransport] := by
  constructor
  · cases post with
    | nil => rfl
    | cons x post =>
      rw [he] at h
      exact absurd (List.isChain_append_cons_cons.mp h).2.1 (by simp [validTransitions])
  · obtain ⟨p₁, rfl⟩ := h.reached .inTransport he (by decide) fun x => by cases x <;> decide
    rw [List.append_assoc] at he
    obtain ⟨p₂, rfl⟩ := h.reached .receivedExternal he (by decide) fun x => by cases x <;> decide
    rw [List.append_assoc] at he
    obtain ⟨p₃, rfl⟩ := h.reached .accepted he (by decide) fun x => by cases x <;> decide
    rw [List.append_assoc] at he
    obtain ⟨p₄, rfl⟩ := h.reached .pending he (by decide) fun x => by cases x <;> decide
    exact ⟨p₄, by simp⟩

/-- A call of `updateStatus` on the order, with the inputs it meets. -/
structure StatusCall where
  dto : UpdateStatusDto
  user : GetUserType
  inputs : ℕ → Input

variable (cfg : Config) (id : Id)

def callStatus (s : DB) (c : StatusCall) : DB :=
  ((updateStatus cfg id c.dto c.user).exec c.inputs s).2

/-- The history rows the call adds, with the user who asked for it. -/
def written (s : DB) (c : StatusCall) : List (OrderStatusHistory × GetUserType) :=
  (((callStatus cfg id s c).historyOf id).drop (s.historyOf id).length).map fun h => (h, c.user)

/-- What is asked of a row that a user writes after a row of status `prev`. -/
structure Allowed (prev : OrderStatus) (h : OrderStatusHistory) (user : GetUserType) : Prop where
  valid : h.status ∈ validTransitions prev
  evidence : h.status = .canceled → truthy h.reason = true ∧ truthy h.canceledImage = true
  author : h.status = .canceled →
    if prev = .inTransport then user.role = .admin ∨ user.role = .staff
    else user.role = .admin ∨ user.role = .student

variable {cfg id} {s : DB} {o : Order} {prev : OrderStatus} {c : StatusCall}

lemma truthy_mapReason {type : Arg OrderCancelType} {reason : Arg String}
    (ht : type.toOption.isSome) (hr : reason.truthy = true) :
    truthy (mapReason type reason) = true := by
  rcases type with _ | _ | t
  · cases ht
  · cases ht
  rcases reason with _ | _ | r
  · cases hr
  · cases hr
  have hr : r ≠ "" := by simpa [Arg.truthy] using hr
  cases t <;> simp [mapReason, hr, truthy]

lemma allowed_of_passed {dto : UpdateStatusDto} {user : GetUserType} {s₁ : DB} {i : Input}
    (hst : o.latestStatus = some prev) (h : Passed cfg o dto user s s₁) :
    Allowed prev (statusRow id dto.status (mapReason dto.cancelReasonType dto.reason)
      dto.canceledImage i) user where
  valid := by simpa [isValidTransition, hst, statusRow] using h.valid
  evidence hc := by
    refine ⟨truthy_mapReason (h.reason hc).1 (h.reason hc).2, ?_⟩
    have himage := h.canceledImage hc
    rcases hi : dto.canceledImage with _ | _ | image
    · simp [hi, Arg.truthy] at himage
    · simp [hi, Arg.truthy] at himage
    · simpa [hi, Arg.truthy, truthy, Arg.toOption, statusRow] using himage
  author hc := by
    have hperm := h.permission hc
    rw [hst] at hperm
    cases prev <;> simp_all [getCancelPermission]

/-- When the services answer, a throwing call has not written anything, unless the database refuses a
text. -/
lemma throw_leaves {e : Exn} (hok : ∀ n, (c.inputs n).ok = true) (hshort : e ≠ .prisma .valueTooLong)
    (he : ((updateStatus cfg id c.dto c.user).exec c.inputs s).1 = .error e) :
    callStatus cfg id s c = s := by
  unfold callStatus
  rcases ho : s.orders.lookup id with _ | o
  · have hwp : (updateStatus cfg id c.dto c.user).wp (fun i => i.ok = true) Any _ _ s :=
      updateStatus_wp_none ho
    have hrun := (wp_run hwp hok).2
    split at hrun
    · exact hrun.elim
    · next hexec => rw [hexec]; exact hrun
  · have hwp : (updateStatus cfg id c.dto c.user).wp (fun i => i.ok = true) Any _ _ s :=
      updateStatus_wp ho
    have hrun := (wp_run hwp hok).2
    split at hrun
    · next hexec => rw [hexec] at he; cases he
    · next hexec =>
      rw [hexec]
      rcases hrun with ⟨rfl, _⟩ | ⟨_, _, ⟨i, hi, hno, _⟩ | ⟨hlong, _⟩, _⟩
      · rfl
      · rw [hi] at hno
        cases hno
      · rw [hexec, hlong] at he
        exact absurd (Except.error.inj he).symm hshort

/-- Checks and cash payments leave the history of the order and its status. -/
lemma paid_keeps {dto : UpdateStatusDto} {user : GetUserType} {s₁ : DB}
    (ho : s.orders.lookup id = some o) (hs₁ : Passed cfg o dto user s s₁) :
    (paid id o dto user s₁).historyOf id = s.historyOf id ∧
      ∃ o₁, (paid id o dto user s₁).orders.lookup id = some o₁ ∧
        o₁.latestStatus = o.latestStatus := by
  obtain ⟨horders, hhist⟩ := passed_orders hs₁
  refine ⟨by simp [DB.historyOf, hhist], ?_⟩
  rw [lookup_paid, horders, ho]
  split
  · exact ⟨_, rfl, rfl⟩
  · exact ⟨o, rfl, rfl⟩

variable (cfg) in
/-- **What one call can do**: it returns and adds one allowed row, or throws and leaves the history
and the status as they were. -/
theorem callStatus_cases (ho : s.orders.lookup id = some o) (hst : o.latestStatus = some prev) :
    ((callStatus cfg id s c).historyOf id = s.historyOf id ∧
      ∃ o', (callStatus cfg id s c).orders.lookup id = some o' ∧ o'.latestStatus = some prev) ∨
    ∃ h o', (callStatus cfg id s c).historyOf id = s.historyOf id ++ [h] ∧
      (callStatus cfg id s c).orders.lookup id = some o' ∧ o'.latestStatus = some h.status ∧
      Allowed prev h c.user := by
  have hwp : (updateStatus cfg id c.dto c.user).wp (fun _ => True) Any _ _ s :=
    updateStatus_wp ho
  have hrun := (wp_run (ω := c.inputs) hwp fun _ => trivial).2
  unfold callStatus
  split at hrun
  case h_2 e t hexec =>
    rw [hexec]
    left
    rcases hrun with ⟨rfl, _⟩ | ⟨s₁, hs₁, _, rfl⟩
    · exact ⟨rfl, o, ho, hst⟩
    · obtain ⟨hhist, o₁, ho₁, hsame⟩ := paid_keeps ho hs₁
      exact ⟨hhist, o₁, ho₁, hsame.trans hst⟩
  case h_1 a t hexec =>
    rw [hexec]
    right
    obtain ⟨s₁, i, hs₁, _, _, rfl⟩ := hrun
    obtain ⟨hhist, o₁, ho₁, -⟩ := paid_keeps ho hs₁
    have hallowed : Allowed prev (statusRow id c.dto.status
        (mapReason c.dto.cancelReasonType c.dto.reason) c.dto.canceledImage i) c.user :=
      allowed_of_passed hst hs₁
    refine ⟨_, setStatus c.dto.status c.dto.finishedImage c.dto.receivedImage o₁, ?_, ?_,
      rfl, hallowed⟩
    · simp [recorded, historyOf_logged, hhist]
    · simp [recorded, lookup_logged, ho₁]

/-! ### Runs -/

variable (cfg id) in
/-- The history rows that a run adds, in order, each with its author. -/
def journal : DB → List StatusCall → List (OrderStatusHistory × GetUserType)
  | _, [] => []
  | s, c :: cs => written cfg id s c ++ journal (callStatus cfg id s c) cs

/-- Every row is allowed after the one before it, the first one after a row of status `prev`. -/
def Justified : OrderStatus → List (OrderStatusHistory × GetUserType) → Prop
  | _, [] => True
  | prev, (h, user) :: rows => Allowed prev h user ∧ Justified h.status rows

lemma Justified.path {rows : List (OrderStatusHistory × GetUserType)}
    (h : Justified prev rows) : Path (prev :: rows.map fun r => r.1.status) := by
  induction rows generalizing prev with
  | nil => exact List.isChain_singleton _
  | cons r rows ih => exact List.isChain_cons_cons.mpr ⟨h.1.valid, ih h.2⟩

lemma Justified.split {pre post : List (OrderStatusHistory × GetUserType)}
    {h : OrderStatusHistory} {user : GetUserType} (hj : Justified prev (pre ++ (h, user) :: post)) :
    Allowed ((prev :: pre.map fun r => r.1.status).getLast (by simp)) h user := by
  induction pre generalizing prev with
  | nil => exact hj.1
  | cons r pre ih => simpa using ih hj.2

variable (cfg) in
lemma journal_run {cs : List StatusCall} (ho : s.orders.lookup id = some o)
    (hst : o.latestStatus = some prev) :
    (Machine.run (callStatus cfg id) s cs).historyOf id =
        s.historyOf id ++ (journal cfg id s cs).map Prod.fst ∧
      Justified prev (journal cfg id s cs) := by
  induction cs generalizing s o prev with
  | nil => exact ⟨by simp [journal], trivial⟩
  | cons c cs ih =>
    rw [Machine.run_cons, journal]
    rcases callStatus_cases cfg (c := c) ho hst with
      ⟨hh, o', ho', hst'⟩ | ⟨h, o', hh, ho', hst', hal⟩
    · have hw : written cfg id s c = [] := by simp [written, hh]
      obtain ⟨hrun, hjust⟩ := ih ho' hst'
      rw [hrun, hh, hw]
      exact ⟨by simp, hjust⟩
    · have hw : written cfg id s c = [(h, c.user)] := by simp [written, hh]
      obtain ⟨hrun, hjust⟩ := ih ho' hst'
      rw [hrun, hh, hw]
      exact ⟨by simp, hal, hjust⟩

/-- **The life of an order under `updateStatus`**, for any calls by anyone, the services
answering: its history is a path of the table that reaches `DELIVERED` only by the full way
and ends there, each cancellation has its evidence and an author with permission, and a
call that throws changes no row, unless the database fails because a text is too long. -/
theorem updateStatus_runs (cfg : Config) (id : Id) (s : DB) (o : Order)
    (ho : s.orders.lookup id = some o) (hst : o.latestStatus = some .pending)
    (hhist : (s.historyOf id).map (·.status) = [.pending]) (cs : List StatusCall)
    (hok : ∀ c ∈ cs, ∀ n, (c.inputs n).ok = true) :
    let t := Machine.run (callStatus cfg id) s cs
    let rows := journal cfg id s cs
    (Path ((t.historyOf id).map (·.status)) ∧
      ∀ pre post, (t.historyOf id).map (·.status) = pre ++ .delivered :: post → post = [] ∧
        ∃ pre', pre = pre' ++ [.pending, .accepted, .receivedExternal, .inTransport]) ∧
    (t.historyOf id = s.historyOf id ++ rows.map Prod.fst ∧
      ∀ pre h user post, rows = pre ++ (h, user) :: post → h.status = .canceled →
        truthy h.reason = true ∧ truthy h.canceledImage = true ∧
        ∀ prev, (s.historyOf id ++ pre.map Prod.fst).getLast? = some prev →
          if prev.status = .inTransport then user.role = .admin ∨ user.role = .staff
          else user.role = .admin ∨ user.role = .student) ∧
    Machine.Along (callStatus cfg id) (fun s c => ∀ e, e ≠ .prisma .valueTooLong →
      ((updateStatus cfg id c.dto c.user).exec c.inputs s).1 = .error e →
        callStatus cfg id s c = s) s cs := by
  intro t rows
  obtain ⟨hrun, hjust⟩ := journal_run cfg ho hst
  have hstatus : (t.historyOf id).map (·.status) = .pending :: rows.map fun r => r.1.status := by
    rw [hrun, List.map_append, hhist, List.map_map]
    rfl
  have hpath : Path (.pending :: rows.map fun r => r.1.status) := hjust.path
  refine ⟨⟨?_, fun pre post he => ?_⟩, ⟨hrun, fun pre h user post he hc => ?_⟩, ?_⟩
  · rw [hstatus]
    exact hpath
  · rw [hstatus] at he
    exact hpath.delivered he
  · change journal cfg id s cs = _ at he
    rw [he] at hjust
    have hal := hjust.split
    refine ⟨(hal.evidence hc).1, (hal.evidence hc).2, fun prev hprev => ?_⟩
    have hlast : prev.status = (OrderStatus.pending :: pre.map fun r => r.1.status).getLast
        (by simp) := by
      have := congrArg (Option.map (·.status)) hprev
      rw [← List.getLast?_map, List.map_append, hhist, List.map_map] at this
      rw [← Option.some.injEq, ← List.getLast?_eq_some_getLast, ← Option.map_some, ← this]
      rfl
    rw [hlast]
    exact hal.author hc
  · exact Machine.along_of_forall fun c hc s e hshort he => throw_leaves (hok c hc) hshort he

/-- The way to a handover by staff, a refused cancellation in its middle. -/
def fullWay : List StatusCall :=
  [⟨.only .accepted, Sample.admin, Sample.inputs 0⟩,
   ⟨{ UpdateStatusDto.only .receivedExternal with receivedImage := .val "r.png" }, Sample.staff,
    Sample.inputs 0⟩,
   ⟨.only .canceled, Sample.staff, Sample.inputs 0⟩,
   ⟨.only .inTransport, Sample.staff, Sample.inputs 0⟩,
   ⟨{ UpdateStatusDto.only .delivered with finishedImage := .val "f.png" }, Sample.staff,
    Sample.inputs 0⟩]

theorem updateStatus_runs_fullWay :
    (journal Sample.config 10 Sample.dbWithOrder fullWay).map (fun r => r.1.status) =
      [.accepted, .receivedExternal, .inTransport, .delivered] ∧
    Path (((Machine.run (callStatus Sample.config 10) Sample.dbWithOrder fullWay).historyOf
      10).map (·.status)) :=
  ⟨by decide, (updateStatus_runs Sample.config 10 Sample.dbWithOrder Sample.order (by decide)
    (by decide) (by decide) fullWay (by simp [fullWay, Sample.inputs])).1.1⟩

end TsaBackend.OrderFlow
