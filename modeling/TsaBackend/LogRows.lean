import TsaBackend.OrderWrites
import TsaBackend.StatusLog

/-!
How many status rows a creation and a status change write.

A status change writes one. A creation that accepts an order it finds writes two: one through
`updateStatus`, and one of its own.
-/

namespace TsaBackend.LogRows

open Call OrderEffects OrderWrites

variable {E : Input → Prop} {cfg : Config} {dto : CreateOrderDto} {user : GetUserType}
  {s t : DB} {id : Id} {o row : Order}

/-- One row was added to the log, of this order; its status is the new content of the status
column, which held another one before. No other order was changed. -/
structure OneRow (id : Id) (s t : DB) : Prop where
  row : ∃ h o, t.orderStatusHistory = s.orderStatusHistory ++ [h] ∧ h.orderId = id ∧
    t.orders.lookup id = some o ∧ o.latestStatus = some h.status ∧
    ∀ o', s.orders.lookup id = some o' → o'.latestStatus ≠ some h.status
  others : ∀ j, j ≠ id → t.orders.lookup j = s.orders.lookup j

/-- Two rows were added. -/
def TwoRows (s t : DB) : Prop :=
  t.orderStatusHistory.length = s.orderStatusHistory.length + 2

lemma OneRow.not_two (h : OneRow id s t) : ¬ TwoRows s t := by
  obtain ⟨r, o, hlog, -⟩ := h.row
  have hlen := congrArg List.length hlog
  rw [List.length_append, List.length_singleton] at hlen
  unfold TwoRows
  omega

lemma valid_ne {src : Option OrderStatus} {dst : OrderStatus}
    (h : isValidTransition src dst = true) : src ≠ some dst := by
  rintro rfl
  cases dst <;> simp [isValidTransition, validTransitions] at h

lemma recorded_oneRow {dto : UpdateStatusDto} {s₁ : DB} {i : Input}
    (ho : s.orders.lookup id = some o) (hs₁ : Passed cfg o dto user s s₁) :
    OneRow id s (recorded i id dto (paid id o dto user s₁)) := by
  obtain ⟨horders, hlog⟩ := passed_orders hs₁
  let o₁ := if paysCash o dto.status user then payCash o else o
  have ho₁ : (paid id o dto user s₁).orders.lookup id = some o₁ := by
    simp only [lookup_paid, horders, ho, true_and, o₁]
    split <;> rfl
  refine ⟨⟨statusRow id dto.status (mapReason dto.cancelReasonType dto.reason)
    dto.canceledImage i, setStatus dto.status dto.finishedImage dto.receivedImage o₁, ?_, rfl, ?_,
    rfl, ?_⟩, fun j hj => ?_⟩
  · rw [recorded, logged, paid_orderStatusHistory, hlog]
  · rw [recorded, lookup_logged, if_pos rfl, ho₁, Option.map_some]
  · intro o' ho'
    obtain rfl := Option.some.inj (ho.symm.trans ho')
    exact valid_ne hs₁.valid
  · rw [recorded, lookup_logged, if_neg hj, lookup_paid, if_neg fun h => hj h.1, horders]

/-- **A status change writes one row.** -/
theorem updateStatus_oneRow (cfg : Config) (id : Id) (dto : UpdateStatusDto)
    (user : GetUserType) (s : DB) :
    OnReturn (fun _ => True) (updateStatus cfg id dto user) (fun _ t => OneRow id s t) s := by
  rw [onReturn_iff ⟨default, trivial⟩]
  rcases ho : s.orders.lookup id with _ | o
  · exact wp_mono (updateStatus_wp_none ho) (fun _ _ h => h.elim) fun _ _ _ => trivial
  · refine wp_mono (updateStatus_wp ho) (fun _ t ht => ?_) fun _ _ _ => trivial
    obtain ⟨s₁, i, hs₁, -, -, rfl⟩ := ht
    exact recorded_oneRow ho hs₁

lemma accept_pending_wp (ho : s.orders.lookup id = some o) (hst : o.latestStatus = some .pending)
    (hE : ∀ i, E i → i.ok = true) :
    (updateStatus cfg id (.only .accepted) user).wp E Any
      (fun _ t => ∃ i, t = recorded i id (.only .accepted) s) (fun _ _ => False) s := by
  have hcharges : ¬ charges (.only .accepted) := fun h => by cases h.1
  have hpassed : Passed cfg o (.only .accepted) user s s := by
    refine ⟨nofun, nofun, nofun, nofun, nofun, ?_, ?_⟩
    · rw [if_neg hcharges]
    · rw [hst]
      rfl
  refine wp_mono (updateStatus_wp ho) (fun _ t ht => ?_) fun _ t ht => ?_
  · obtain ⟨s₁, i, hs₁, -, -, rfl⟩ := ht
    have hsame : s₁ = s := by simpa [hcharges] using hs₁.charge
    rw [hsame, paid_accepted (by decide)]
    exact ⟨i, rfl⟩
  · rcases ht with ⟨-, hno⟩ | ⟨_, _, ⟨i, hi, hstop, _⟩ | ⟨_, hlong⟩, _⟩
    · exact hno s hpassed
    · rw [hE i hi] at hstop
      cases hstop
    · exact hlong imagesFit_undefined

lemma accept_twice_wp {α : Type} {c : Unit → Async α} {Q : α → DB → Prop} {X : Exn → DB → Prop}
    (ho : s.orders.lookup id = some o) (hst : o.latestStatus = some .pending)
    (hE : ∀ i, E i → i.ok = true)
    (hc : ∀ t, TwoRows s t → (c ()).wp E Any Q X t) :
    (updateStatus cfg id (.only .accepted) user >>= fun _ =>
      createOrderStatusHistory id .accepted none .undefined .undefined .undefined >>= c).wp
      E Any Q X s := by
  rw [wp_bind]
  refine wp_mono (accept_pending_wp ho hst hE) (fun _ t ht => ?_) fun _ _ h => h.elim
  obtain ⟨i, rfl⟩ := ht
  have hmem : id ∈ (recorded i id (.only .accepted) s).orders := by
    simp [recorded, logged, Table.mem_iff_lookup, ho]
  rw [wp_bind]
  refine createOrderStatusHistory_undefined_wp hmem fun j _ => hc _ ?_
  simp [TwoRows, recorded, logged]

lemma claimOrder_twoRows (ho : s.orders.lookup id = some o)
    (hst : o.latestStatus = some .pending) (htakes : s.Takes (claimData cfg dto user) o)
    (hE : ∀ i, E i → i.ok = true) :
    (claimOrder cfg dto user id o).wp E Any (fun _ t => TwoRows s t) (fun _ _ => False) s := by
  unfold claimOrder
  rw [wp_bind, wp_execute]
  intro i _
  rw [DB.updateOrderData_eq ho htakes, claimData_update]
  refine ⟨trivial, ?_⟩
  have ho' : (claimed cfg dto user id s).orders.lookup id = some (claim cfg dto user o) := by
    rw [claimed, Table.lookup_modify_self, ho, Option.map_some]
  refine accept_twice_wp (s := claimed cfg dto user id s) ho' hst hE fun t ht => ?_
  rw [wp_bind, getHistoryTimee, wp_read]
  refine fun _ _ => ⟨trivial, ?_⟩
  rw [wp_bind, getLatestOrderStatus, wp_read]
  exact fun _ _ => ⟨trivial, ht⟩

lemma confirmOrder_twoRows (ho : s.orders.lookup id = some o)
    (hst : o.latestStatus = some .pending) (hstudent : o.studentId.isSome)
    (hE : ∀ i, E i → i.ok = true) :
    (confirmOrder cfg user id o).wp E Any (fun _ t => TwoRows s t) (fun _ _ => False) s := by
  obtain ⟨u, hu⟩ := Option.isSome_iff_exists.mp hstudent
  unfold confirmOrder
  refine accept_twice_wp ho hst hE fun t ht => ?_
  rw [hu, wp_bind]
  refine wp_service.mpr fun i hi => ⟨trivial, ?_⟩
  rw [if_pos (hE i hi), wp_bind, getHistoryTimee, wp_read]
  refine fun _ _ => ⟨trivial, ?_⟩
  rw [wp_bind, getLatestOrderStatus, wp_read]
  exact fun _ _ => ⟨trivial, ht⟩

/-! ### Creation -/

/-- A creation accepts an order it finds: a student an unclaimed one, an administrator the
addressed one of a student. -/
inductive Accepts (cfg : Config) (s : DB) (dto : CreateOrderDto) (user : GetUserType) : Prop
  | claim {id : Id} {o : Order} (h : Claims cfg s dto user id o)
    (hst : o.latestStatus = some .pending)
  | confirm {id : Id} {o : Order} (h : Confirms s dto user id o) (hstudent : o.studentId.isSome)

lemma insertOrder_oneRow {α : Type} {e : Except Exn Order} {c : Id × Order → Async α}
    {Q : α → DB → Prop} (hrow : ∀ row, e = .ok row → row.latestStatus = some .pending)
    (hc : ∀ id row t, OneRow id s t → (c (id, row)).wp E Any Q (fun _ _ => True) t) :
    (insertOrder e >>= c).wp E Any Q (fun _ _ => True) s := by
  unfold insertOrder
  rw [wp_bind, wp_bind, wp_atomic]
  intro i _
  rcases e with e | row
  · exact ⟨trivial, trivial⟩
  rw [insertRow_eq, DB.createOrder]
  by_cases hid : i.fresh ∈ s.orders
  · rw [if_pos hid]
    exact ⟨trivial, trivial⟩
  rw [if_neg hid]
  by_cases htexts : OrderTexts none row
  swap
  · rw [if_pos htexts]
    exact ⟨trivial, trivial⟩
  rw [if_neg (not_not.mpr htexts)]
  by_cases hkeys : s.OrderKeys { row with studentId := none, shipperId := none } row
  · rw [if_pos hkeys]
    refine ⟨trivial, ?_⟩
    rw [wp_bind]
    refine createOrderStatusHistory_undefined_wp ?_ fun j _ => ?_
    · exact (AList.mem_insert _).mpr (.inl rfl)
    refine hc _ _ _ ⟨⟨statusRow i.fresh .pending none .undefined j,
      setStatus .pending .undefined .undefined row, rfl, rfl, ?_, rfl, ?_⟩, fun k hk => ?_⟩
    · rw [lookup_logged, if_pos rfl, AList.lookup_insert, Option.map_some]
    · intro o' ho'
      exact absurd (Table.mem_iff_lookup.mpr ⟨o', ho'⟩) hid
    · rw [lookup_logged, if_neg hk, AList.lookup_insert_ne hk]
  · rw [if_neg hkeys]
    exact ⟨trivial, trivial⟩

lemma placeOrder_oneRow (hrole : user.role = .student)
    (hu : ∃ u, s.users.lookup user.id = some u ∧ u.status ≠ .banned)
    (h : ¬ Accepts cfg s dto user) :
    (placeOrder cfg dto user).wp (fun _ => True) Any (fun a t => OneRow a.id s t)
      (fun _ _ => True) s := by
  refine findExistingOrder_wp (fun _ => trivial) ?_ ?_
  · intro id o hfilters ho hsame
    dsimp only
    rw [wp_ite, wp_ite]
    split
    swap
    · split <;> trivial
    next hun =>
    unfold claimOrder
    rw [wp_bind, wp_execute]
    intro i _
    by_cases htakes : s.Takes (claimData cfg dto user) o
    swap
    · obtain ⟨e, he⟩ := DB.updateOrderData_error ho htakes
      rw [he]
      exact ⟨trivial, trivial⟩
    rw [DB.updateOrderData_eq ho htakes, claimData_update]
    refine ⟨trivial, ?_⟩
    -- an order that is not pending is refused, so that nothing is returned
    have hst : (claim cfg dto user o).latestStatus ≠ some .pending := fun hst =>
      h (.claim ⟨hrole, hu, hfilters, ho, hsame, hun, htakes⟩ hst)
    have ho' : (claimed cfg dto user id s).orders.lookup id = some (claim cfg dto user o) := by
      rw [claimed, Table.lookup_modify_self, ho, Option.map_some]
    rw [wp_bind]
    exact wp_mono (accept_refused_wp ho' hst) (fun _ _ hno => hno.elim) fun _ _ _ => trivial
  · intro _
    refine insertOrder_oneRow (fun _ hrow => StatusLog.studentRow_latestStatus hrow)
      fun id row t ht => ?_
    rw [wp_bind, getHistoryTimee, wp_read]
    refine fun _ _ => ⟨trivial, ?_⟩
    rw [wp_bind, wp_service]
    refine fun i _ => ⟨trivial, ?_⟩
    split
    · exact ht
    · trivial

lemma createOrderByAdmin_oneRow (hrole : user.role = .admin) (h : ¬ Accepts cfg s dto user) :
    (createOrderByAdmin cfg dto user).wp (fun _ => True) Any (fun a t => OneRow a.id s t)
      (fun _ _ => True) s := by
  unfold createOrderByAdmin validateUserForOrder
  rw [if_neg (by simp), wp_bind, wp_pure]
  refine findExistingOrder_wp (fun _ => trivial) ?_ ?_
  · intro id o hfilters ho hsame
    dsimp only
    rw [wp_ite]
    split
    · trivial
    next haddr =>
    unfold confirmOrder
    by_cases hst : o.latestStatus = some .pending
    swap
    · rw [wp_bind]
      exact wp_mono (accept_refused_wp ho hst) (fun _ _ hno => hno.elim) fun _ _ _ => trivial
    have hstudent : o.studentId = none := by
      by_contra hne
      refine h (.confirm ⟨hrole, hfilters, ho, hsame, by simpa using haddr, hst⟩ ?_)
      exact Option.isSome_iff_ne_none.mpr hne
    have hid : id ∈ s.orders := Table.mem_iff_lookup.mpr ⟨o, ho⟩
    refine accept_bind_wp hid (fun _ _ _ => trivial) fun _ t ht => ?_
    rw [wp_bind]
    refine createOrderStatusHistory_undefined_wp (ht.mem.mpr hid) fun _ _ => ?_
    -- the order has nobody to tell
    rw [wp_bind, hstudent]
    trivial
  · intro _
    refine insertOrder_oneRow (fun _ hrow => StatusLog.adminRow_latestStatus hrow)
      fun id row t ht => ?_
    rw [wp_bind, getHistoryTimee, wp_read]
    exact fun _ _ => ⟨trivial, ht⟩

lemma createOrder_oneRow (h : ¬ Accepts cfg s dto user) :
    (createOrder cfg dto user).wp (fun _ => True) Any (fun a t => OneRow a.id s t)
      (fun _ _ => True) s := by
  unfold createOrder
  split
  · next hrole =>
    exact createOrderByStudent_rule (X := fun _ => True) hrole trivial fun hu =>
      placeOrder_oneRow hrole hu h
  · split
    · next hrole => exact createOrderByAdmin_oneRow hrole h
    · trivial

lemma Accepts.not_oneRow (h : Accepts cfg s dto user) :
    ¬ (createOrder cfg dto user).wp (fun _ => True) Any (fun a t => OneRow a.id s t)
      (fun _ _ => True) s := by
  intro hwp
  have hmeet : ∀ {c : Async CreateOrderResponse},
      c.wp (fun _ => True) Any (fun a t => OneRow a.id s t) (fun _ _ => True) s →
      c.wp (fun i => i.ok = true) Any (fun _ t => TwoRows s t) (fun _ _ => False) s → False := by
    intro c hone htwo
    rcases wp_meet hone htwo ⟨{ (default : Input) with ok := true }, trivial, rfl⟩ with
      ⟨_, _, hrow, hrows⟩ | ⟨_, _, _, hno⟩
    · exact hrow.not_two hrows
    · exact hno
  cases h with
  | claim h hst =>
    have hplace := placeOrder_of_wp h.role h.account (fun _ _ => trivial) hwp
    unfold placeOrder at hplace
    replace hplace := found_of_wp h.filters h.lookup h.same (fun _ _ => trivial) hplace
    simp only [h.unclaimed, if_true] at hplace
    exact hmeet hplace (claimOrder_twoRows h.lookup hst h.takes fun _ hi => hi)
  | confirm h hstudent =>
    unfold createOrder createOrderByAdmin validateUserForOrder at hwp
    rw [if_neg (by simp [h.role]), if_pos h.role, if_neg (by simp), wp_bind, wp_pure] at hwp
    replace hwp := found_of_wp h.filters h.lookup h.same (fun _ _ => trivial) hwp
    simp only [h.addressed, Bool.false_eq_true, if_false] at hwp
    exact hmeet hwp (confirmOrder_twoRows h.lookup h.pending hstudent fun _ hi => hi)

/-- **A creation writes one row** unless it accepts an order. -/
theorem createOrder_oneRow_iff :
    OnReturn (fun _ => True) (createOrder cfg dto user) (fun a t => OneRow a.id s t) s ↔
      ¬ Accepts cfg s dto user := by
  rw [onReturn_iff ⟨default, trivial⟩]
  exact ⟨fun hwp haccepts => haccepts.not_oneRow hwp, fun h => createOrder_oneRow h⟩

/-- The call, if it returns, writes one status row, of the order it created or changed. -/
def LogsOnce (cfg : Config) (s : DB) : Request → Prop
  | .createOrder dto user =>
    OnReturn (fun _ => True) (createOrder cfg dto user) (fun a t => OneRow a.id s t) s
  | .updateStatus id dto user =>
    OnReturn (fun _ => True) (updateStatus cfg id dto user) (fun _ t => OneRow id s t) s
  | _ => True

/-- The request is a creation that can accept an order. -/
def CanAccept (cfg : Config) (s : DB) : Request → Prop
  | .createOrder dto user => Accepts cfg s dto user
  | _ => False

lemma logsOnce_iff {r : Request} : LogsOnce cfg s r ↔ ¬ CanAccept cfg s r := by
  cases r with
  | createOrder dto user => exact createOrder_oneRow_iff
  | updateStatus id dto user =>
    exact iff_of_true (updateStatus_oneRow cfg id dto user s) fun h => h
  | _ => exact iff_of_true trivial fun h => h

/-- **One status row for one change**: in every run, each creation and each status change that
returns writes just one row exactly when no creation finds a pending order it can accept. -/
theorem logs_once_iff (cfg : Config) (s : DB) (es : List (Request × (ℕ → Input))) :
    Machine.Along (serve cfg) (fun s e => LogsOnce cfg s e.1) s es ↔
      Machine.Along (serve cfg) (fun s e => ¬ CanAccept cfg s e.1) s es :=
  ⟨fun h => h.mono fun _ _ => logsOnce_iff.mp, fun h => h.mono fun _ _ => logsOnce_iff.mpr⟩

/-- A parcel that an administrator has registered. -/
def registered : DB := serve Sample.config Sample.db (.createOrder Sample.body Sample.admin,
  Sample.inputs 10)

/-- Its student claims it, and the log tells of two acceptances. -/
theorem claim_logged_twice :
    ¬ LogsOnce Sample.config registered (.createOrder Sample.body Sample.student) := by
  intro h
  have hok : ((createOrder Sample.config Sample.body Sample.student).exec (Sample.inputs 20)
      registered).1.isOk = true := by decide +kernel
  have htwo : TwoRows registered ((createOrder Sample.config Sample.body Sample.student).exec
      (Sample.inputs 20) registered).2 := by
    unfold TwoRows
    decide +kernel
  rcases hexec : (createOrder Sample.config Sample.body Sample.student).exec (Sample.inputs 20)
    registered with ⟨e | a, t⟩
  · rw [hexec] at hok
    cases hok
  · rw [hexec] at htwo
    exact (h _ (fun _ => trivial) a t hexec).not_two htwo

end TsaBackend.LogRows
