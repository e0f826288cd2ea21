import TsaBackend.Requests

/-!
What the calls on orders leave in the tables when they run alone: for each call one rule
that says, for the inputs it meets, every way it can end.
-/

namespace TsaBackend.OrderEffects

open Call

/-- Steps are not judged, only ends. -/
abbrev Any : DB → DB → Prop := fun _ _ => True

variable {E : Input → Prop} {cfg : Config} {user : GetUserType} {s t : DB} {id : Id} {o : Order}

section Ends

variable {α : Type} {Q Q' : DB → Prop}

/-- Whatever the call meets outside, it ends in tables that satisfy `Q`. -/
def Ends (c : Async α) (s : DB) (Q : DB → Prop) : Prop := ∀ ω, Q (c.exec ω s).2

lemma ends_iff {c : Async α} : Ends c s Q ↔
    c.wp (fun _ => True) Any (fun _ t => Q t) (fun _ t => Q t) s := by
  rw [wp_iff_outcome c ⟨default, trivial⟩]
  refine forall_congr' fun ω => ?_
  simp only [Outcome, Any, implies_true, forall_const, true_and]
  rcases c.exec ω s with ⟨_ | _, t⟩ <;> rfl

lemma ends_of_wp {c : Async α}
    (h : c.wp (fun _ => True) Any (fun _ t => Q t) (fun _ t => Q t) s) : Ends c s Q :=
  ends_iff.mpr h

lemma ends_drop {c : Async α} :
    Ends (c >>= fun _ => (Pure.pure () : Async Unit)) s Q ↔ Ends c s Q := by
  rw [ends_iff, ends_iff, wp_bind]
  rfl

lemma Ends.mono {c : Async α} (h : Ends c s Q) (hQ : ∀ t, Q t → Q' t) : Ends c s Q' :=
  fun ω => hQ _ (h ω)

/-- Two descriptions of the ends of a call have an end in common. -/
lemma Ends.meet {c : Async α} (h : Ends c s Q) (h' : Ends c s Q') : ∃ t, Q t ∧ Q' t :=
  ⟨_, h fun _ => default, h' fun _ => default⟩

lemma ends_meet {c : Async α} (h : Ends c s Q) {i : Input} (hi : E i)
    (hwp : c.wp E Any (fun _ t => Q' t) (fun _ t => Q' t) s) : ∃ t, Q t ∧ Q' t := by
  refine ⟨_, h fun _ => i, ?_⟩
  have hω : ∀ n, E ((fun _ => i : ℕ → Input) n) := fun _ => hi
  have hout := (wp_run hwp hω).2
  rcases hc : c.exec (fun _ => i) s with ⟨_ | _, t⟩ <;> simpa [hc] using hout

end Ends

/-! ### Charged cancellations -/

lemma chargeStudent_ok {studentId : Id} {n : ℤ} {ban : Bool}
    (h : s.chargeStudent studentId n ban = .ok t) : t = { s with
      students := s.students.modify studentId fun st => { st with numberFault := n }
      users := if ban then s.users.modify studentId fun u => { u with status := .banned }
        else s.users } := by
  unfold DB.chargeStudent at h
  obtain ⟨s', hs', h⟩ := ok_of_bind h
  obtain ⟨_, rfl⟩ := DB.updateStudent_ok hs'
  cases ban with
  | false => cases h; rfl
  | true => obtain ⟨_, rfl⟩ := DB.updateUser_ok h; rfl

/-- The cancellation of the order has been charged to its student. -/
def Charged (cfg : Config) (o : Order) (s t : DB) : Prop :=
  ∃ studentId student dormitory, o.studentId = some studentId ∧
    s.students.lookup studentId = some student ∧ student.dormitory = some dormitory ∧
    s.chargeStudent studentId (student.numberFault + 1) (shouldBan (student.numberFault + 1)
      (bannedThreshold cfg (s.dormitoryRegulations.lookup dormitory))) = .ok t

lemma chargeFault_wp : (chargeFault cfg o).wp E Any (fun _ t => Charged cfg o s t)
    (fun _ t => t = s ∧ ∀ u, ¬ Charged cfg o s u) s := by
  unfold chargeFault
  rcases ho : o.studentId with _ | studentId
  · refine ⟨rfl, ?_⟩
    rintro u ⟨_, _, _, h, _⟩
    simp [ho] at h
  rw [wp_bind, wp_read]
  intro i _
  refine ⟨trivial, ?_⟩
  rcases hst : s.students.lookup studentId with _ | student
  · refine ⟨rfl, ?_⟩
    rintro u ⟨_, _, _, h, h', _⟩
    cases ho.symm.trans h
    cases hst.symm.trans h'
  dsimp only
  rcases hd : student.dormitory with _ | dormitory
  · refine ⟨rfl, ?_⟩
    rintro u ⟨_, _, _, h, h', h'', _⟩
    cases ho.symm.trans h
    cases hst.symm.trans h'
    cases hd.symm.trans h''
  rw [wp_bind, wp_read]
  intro i _
  refine ⟨trivial, ?_⟩
  rw [wp_execute]
  intro i _
  rcases hc : s.chargeStudent studentId (student.numberFault + 1)
    (shouldBan (student.numberFault + 1)
      (bannedThreshold cfg (s.dormitoryRegulations.lookup dormitory))) with e | t
  · refine ⟨trivial, rfl, ?_⟩
    rintro u ⟨_, _, _, h, h', h'', hu⟩
    cases ho.symm.trans h
    cases hst.symm.trans h'
    cases hd.symm.trans h''
    cases hc.symm.trans hu
  · exact ⟨trivial, studentId, student, dormitory, ho, hst, hd, hc⟩

/-! ### Status changes -/

/-- Whether the cancellation is charged. -/
def charges (dto : UpdateStatusDto) : Prop :=
  dto.status = .canceled ∧ dto.cancelReasonType = .val .fromStudent

instance (dto : UpdateStatusDto) : Decidable (charges dto) := by unfold charges; infer_instance

/-- The checks of a status change have passed and left the tables `t`. -/
structure Passed (cfg : Config) (o : Order) (dto : UpdateStatusDto) (user : GetUserType)
    (s t : DB) : Prop where
  receivedImage : dto.status = .receivedExternal → dto.receivedImage.truthy = true
  finishedImage : dto.status = .delivered → dto.finishedImage.truthy = true
  permission : dto.status = .canceled → getCancelPermission user.role o.latestStatus = true
  reason : dto.status = .canceled → dto.cancelReasonType.toOption.isSome ∧ dto.reason.truthy = true
  canceledImage : dto.status = .canceled → dto.canceledImage.truthy = true
  charge : if charges dto then Charged cfg o s t else t = s
  valid : isValidTransition o.latestStatus dto.status = true

lemma valid_of_permission {role : UserRole} {src : Option OrderStatus}
    (h : getCancelPermission role src = true) : isValidTransition src .canceled = true := by
  rcases src with _ | src
  · simp [getCancelPermission] at h
  · cases src <;> simp_all [getCancelPermission, isValidTransition, validTransitions]

/-- The checks of a cancellation that are made before the transition is looked up. -/
lemma checkCancel_wp {dto : UpdateStatusDto} (hst : dto.status = .canceled) :
    (checkCancel cfg o dto user).wp E Any (fun _ t => Passed cfg o dto user s t)
      (fun _ t => t = s ∧ ∀ u, ¬ Passed cfg o dto user s u) s := by
  unfold checkCancel
  rw [wp_throwIf_bind]
  refine ⟨fun h => ⟨rfl, fun u hu => h (hu.permission hst)⟩, fun hperm => ?_⟩
  rw [wp_throwIf_bind]
  refine ⟨fun h => ⟨rfl, fun u hu => ?_⟩, fun hreason => ?_⟩
  · obtain ⟨h₁, h₂⟩ := hu.reason hst
    rcases h with h | h
    · rw [Option.isNone_iff_eq_none] at h
      simp [h] at h₁
    · exact h h₂
  rw [wp_throwIf_bind]
  refine ⟨fun h => ⟨rfl, fun u hu => h (hu.canceledImage hst)⟩, fun himage => ?_⟩
  -- the remaining conditions do not depend on the charge
  have hpass : ∀ t, (if charges dto then Charged cfg o s t else t = s) →
      Passed cfg o dto user s t := by
    intro t ht
    rw [not_not] at hperm himage
    refine ⟨by simp [hst], by simp [hst], fun _ => hperm, fun _ => ?_, fun _ => himage, ht, ?_⟩
    · rw [not_or, not_not] at hreason
      exact ⟨by simpa [Option.isSome_iff_ne_none] using hreason.1, hreason.2⟩
    · rw [hst]
      exact valid_of_permission hperm
  rw [wp_when]
  by_cases hc : dto.cancelReasonType = .val .fromStudent
  · rw [if_pos hc]
    have hcharges : charges dto := ⟨hst, hc⟩
    refine wp_mono chargeFault_wp (fun _ t ht => hpass t (by rwa [if_pos hcharges])) ?_
    rintro e t ⟨rfl, hno⟩
    refine ⟨rfl, fun u hu => hno u ?_⟩
    simpa [hcharges] using hu.charge
  · rw [if_neg hc]
    have hcharges : ¬ charges dto := fun h => hc h.2
    exact hpass s (by rw [if_neg hcharges])

/-- The cash payment that comes with a handover. -/
def paid (id : Id) (o : Order) (dto : UpdateStatusDto) (user : GetUserType) (s : DB) : DB :=
  if paysCash o dto.status user then { s with orders := s.orders.modify id payCash } else s

/-- The tables after `createOrderStatusHistory`. -/
def logged (i : Input) (id : Id) (status : OrderStatus) (reason : Option String)
    (canceledImage finishedImage receivedImage : Arg String) (s : DB) : DB :=
  { s with
    orders := s.orders.modify id (setStatus status finishedImage receivedImage)
    orderStatusHistory := s.orderStatusHistory ++ [statusRow id status reason canceledImage i] }

/-- The history row of a status change and the column. -/
def recorded (i : Input) (id : Id) (dto : UpdateStatusDto) (s : DB) : DB :=
  logged i id dto.status (mapReason dto.cancelReasonType dto.reason) dto.canceledImage
    dto.finishedImage dto.receivedImage s

/-- The images of a status row and of its order fit their columns. -/
def ImagesFit (o : Order) (canceledImage finishedImage : Arg String) : Prop :=
  Fits 255 none canceledImage.toOption ∧
    Fits 255 o.finishedImage (finishedImage.patch o.finishedImage)

instance (o : Order) (canceledImage finishedImage : Arg String) :
    Decidable (ImagesFit o canceledImage finishedImage) := by
  unfold ImagesFit; infer_instance

lemma imagesFit_of_new {o : Order} {canceledImage finishedImage : Arg String}
    (hcanceled : Fits 255 none canceledImage.toOption)
    (hfinished : Fits 255 none finishedImage.toOption) :
    ImagesFit o canceledImage finishedImage := by
  refine ⟨hcanceled, ?_⟩
  cases finishedImage with
  | undefined => exact .inl rfl
  | null => exact .inr nofun
  | val x => exact .inr (hfinished.resolve_left nofun)

lemma imagesFit_undefined {o : Order} : ImagesFit o .undefined .undefined :=
  ⟨.inl rfl, .inl rfl⟩

section Frame

variable {i : Input} {dto : UpdateStatusDto} {status : OrderStatus} {reason : Option String}
  {canceledImage finishedImage receivedImage : Arg String} {j : Id}

@[simp] lemma paid_orderStatusHistory :
    (paid id o dto user s).orderStatusHistory = s.orderStatusHistory := by
  unfold paid
  split <;> rfl

lemma lookup_paid : (paid id o dto user s).orders.lookup j =
    if j = id ∧ paysCash o dto.status user then (s.orders.lookup j).map payCash
    else s.orders.lookup j := by
  unfold paid
  by_cases hj : j = id
  · subst hj
    split <;> simp_all
  · split <;> simp [hj]

lemma lookup_logged : (logged i id status reason canceledImage finishedImage receivedImage
      s).orders.lookup j =
    if j = id then (s.orders.lookup j).map (setStatus status finishedImage receivedImage)
    else s.orders.lookup j := by
  simp only [logged, Table.lookup_modify]
  split
  · next h => rw [h]
  · rfl

lemma historyOf_logged : (logged i id status reason canceledImage finishedImage receivedImage
      s).historyOf j =
    s.historyOf j ++ if j = id then [statusRow id status reason canceledImage i] else [] := by
  by_cases hj : j = id
  · simp [DB.historyOf, logged, List.filter_append, statusRow, hj]
  · simp [DB.historyOf, logged, List.filter_append, statusRow, hj, Ne.symm hj]

end Frame

/-- The transaction of `createOrderStatusHistory` on an order that exists. -/
lemma logged_eq {i : Input} {status : OrderStatus} {reason : Option String}
    {canceledImage finishedImage receivedImage : Arg String} (ho : s.orders.lookup id = some o)
    (hfit : ImagesFit o canceledImage finishedImage) :
    (do
      let s ← s.createOrderStatusRow (statusRow id status reason canceledImage i)
      s.updateOrder id (setStatus status finishedImage receivedImage)) =
      .ok (logged i id status reason canceledImage finishedImage receivedImage s) := by
  rw [DB.createOrderStatusRow_eq (r := statusRow id status reason canceledImage i) hfit.1
    (Table.mem_iff_lookup.mpr ⟨o, ho⟩)]
  exact DB.updateOrder_eq ho ⟨.inl rfl, .inl rfl, .inl rfl, .inl rfl, .inl rfl, .inl rfl, hfit.2⟩
    rfl rfl

lemma logged_eq_undefined {i : Input} {status : OrderStatus} {reason : Option String}
    (hid : id ∈ s.orders) : (do
      let s ← s.createOrderStatusRow (statusRow id status reason .undefined i)
      s.updateOrder id (setStatus status .undefined .undefined)) =
      .ok (logged i id status reason .undefined .undefined .undefined s) := by
  obtain ⟨o, ho⟩ := Table.mem_iff_lookup.mp hid
  exact logged_eq ho imagesFit_undefined

lemma logged_of_ok {i : Input} {status : OrderStatus} {reason : Option String}
    {canceledImage finishedImage receivedImage : Arg String}
    (h : (do
      let s ← s.createOrderStatusRow (statusRow id status reason canceledImage i)
      s.updateOrder id (setStatus status finishedImage receivedImage)) = .ok t) :
    (∃ o, s.orders.lookup id = some o ∧ ImagesFit o canceledImage finishedImage) ∧
      t = logged i id status reason canceledImage finishedImage receivedImage s := by
  obtain ⟨_, hrow, hupdate⟩ := ok_of_bind h
  obtain ⟨hfits, -, rfl⟩ := DB.createOrderStatusRow_ok hrow
  obtain ⟨o, ho, htexts, rfl⟩ := DB.updateOrder_ok hupdate
  exact ⟨⟨o, ho, hfits, htexts.2.2.2.2.2.2⟩, rfl⟩

/-- Images that do not fit are the only thing that the database can refuse. -/
lemma logged_error {i : Input} {status : OrderStatus} {reason : Option String}
    {canceledImage finishedImage receivedImage : Arg String} (ho : s.orders.lookup id = some o)
    (hfit : ¬ ImagesFit o canceledImage finishedImage) :
    (do
      let s ← s.createOrderStatusRow (statusRow id status reason canceledImage i)
      s.updateOrder id (setStatus status finishedImage receivedImage)) =
      .error (.prisma .valueTooLong) := by
  by_cases hfits : Fits 255 none canceledImage.toOption
  · rw [DB.createOrderStatusRow_eq (r := statusRow id status reason canceledImage i) hfits
      (Table.mem_iff_lookup.mpr ⟨o, ho⟩)]
    change DB.updateOrder { s with orderStatusHistory := _ } id _ = _
    unfold DB.updateOrder
    dsimp only
    rw [ho]
    exact if_pos fun htexts => hfit ⟨hfits, htexts.2.2.2.2.2.2⟩
  · have hrow : s.createOrderStatusRow (statusRow id status reason canceledImage i) =
        .error (.prisma .valueTooLong) := if_pos hfits
    rw [hrow]
    rfl

lemma createOrderStatusHistory_wp {status : OrderStatus} {reason : Option String}
    {canceledImage finishedImage receivedImage : Arg String} {Q : Unit → DB → Prop}
    {X : Exn → DB → Prop} (ho : s.orders.lookup id = some o)
    (h : ImagesFit o canceledImage finishedImage → ∀ i, E i →
      Q () (logged i id status reason canceledImage finishedImage receivedImage s))
    (hlong : ¬ ImagesFit o canceledImage finishedImage → X (.prisma .valueTooLong) s) :
    (createOrderStatusHistory id status reason canceledImage finishedImage receivedImage).wp
      E Any Q X s := by
  unfold createOrderStatusHistory
  rw [wp_execute]
  intro i hi
  by_cases hfit : ImagesFit o canceledImage finishedImage
  · rw [logged_eq ho hfit]
    exact ⟨trivial, h hfit i hi⟩
  · rw [logged_error ho hfit]
    exact ⟨trivial, hlong hfit⟩

lemma createOrderStatusHistory_undefined_wp {status : OrderStatus} {reason : Option String}
    {Q : Unit → DB → Prop} {X : Exn → DB → Prop} (hid : id ∈ s.orders)
    (h : ∀ i, E i → Q () (logged i id status reason .undefined .undefined .undefined s)) :
    (createOrderStatusHistory id status reason .undefined .undefined .undefined).wp E Any Q X s :=
  wp_execute_of_ok fun i hi => ⟨_, logged_eq_undefined hid, trivial, h i hi⟩

lemma passed_orders {dto : UpdateStatusDto} (h : Passed cfg o dto user s t) :
    t.orders = s.orders ∧ t.orderStatusHistory = s.orderStatusHistory := by
  have hc := h.charge
  split at hc
  · obtain ⟨_, _, _, _, _, _, hc⟩ := hc
    rw [chargeStudent_ok hc]
    exact ⟨rfl, rfl⟩
  · rw [hc]
    exact ⟨rfl, rfl⟩

/-- The change was recorded. -/
def Recorded (E : Input → Prop) (cfg : Config) (id : Id) (o : Order) (dto : UpdateStatusDto)
    (user : GetUserType) (s t : DB) : Prop :=
  ∃ s₁ i, Passed cfg o dto user s s₁ ∧ E i ∧ ImagesFit o dto.canceledImage dto.finishedImage ∧
    t = recorded i id dto (paid id o dto user s₁)

/-- A check failed before the first write, or a service refused after the checks, or the database
did because an image is too long. -/
def Stopped (E : Input → Prop) (cfg : Config) (id : Id) (o : Order) (dto : UpdateStatusDto)
    (user : GetUserType) (s : DB) (e : Exn) (t : DB) : Prop :=
  (t = s ∧ ∀ s₁, ¬ Passed cfg o dto user s s₁) ∨
    ∃ s₁, Passed cfg o dto user s s₁ ∧ ((∃ i, E i ∧ i.ok = false ∧ o.studentId.isSome) ∨
      e = .prisma .valueTooLong ∧ ¬ ImagesFit o dto.canceledImage dto.finishedImage) ∧
      t = paid id o dto user s₁

variable {dto : UpdateStatusDto} {s₁ : DB} {o₁ : Order}

/-- After the checks, telling the student can fail, and images that are too long. -/
lemma recordStatus_rule {Q : DB → Prop} {X : Exn → DB → Prop} (ho₁ : s.orders.lookup id = some o₁)
    (hlog : ImagesFit o₁ dto.canceledImage dto.finishedImage → ∀ i, E i → Q (recorded i id dto s))
    (hfail : ∀ i e, E i → i.ok = false → o.studentId.isSome → X e s)
    (hlong : ¬ ImagesFit o₁ dto.canceledImage dto.finishedImage → X (.prisma .valueTooLong) s) :
    (recordStatus id dto o).wp E Any (fun _ t => Q t) X s := by
  unfold recordStatus
  rw [wp_when_bind]
  refine ⟨fun hsome => ?_, fun _ => ?_⟩
  · obtain ⟨u, hu⟩ := Option.isSome_iff_exists.mp hsome
    rw [hu]
    change wp E Any service _ _ _
    rw [wp_service]
    intro i hi
    refine ⟨trivial, ?_⟩
    split
    · rw [wp_bind]
      exact createOrderStatusHistory_wp ho₁ hlog hlong
    · next hok => exact hfail i _ hi (by simpa using hok) hsome
  · rw [wp_bind]
    exact createOrderStatusHistory_wp ho₁ hlog hlong

variable (dto user) in
lemma lookup_paid_fit (ho : s.orders.lookup id = some o) : ∃ o₁,
    (paid id o dto user s).orders.lookup id = some o₁ ∧ ∀ canceledImage finishedImage,
      ImagesFit o₁ canceledImage finishedImage ↔ ImagesFit o canceledImage finishedImage := by
  rw [lookup_paid, ho]
  split
  · exact ⟨_, rfl, fun _ _ => Iff.rfl⟩
  · exact ⟨o, rfl, fun _ _ => Iff.rfl⟩

lemma recordStatus_wp (hs₁ : Passed cfg o dto user s s₁) (ho : s₁.orders.lookup id = some o) :
    (recordStatus id dto o).wp E Any (fun _ t => Recorded E cfg id o dto user s t)
      (Stopped E cfg id o dto user s) (paid id o dto user s₁) := by
  obtain ⟨o₁, ho₁, hfit⟩ := lookup_paid_fit user dto ho
  refine recordStatus_rule ho₁ (fun h i hi => ?_) (fun i e hi hok hsome => ?_) fun h => ?_
  · exact ⟨s₁, i, hs₁, hi, (hfit _ _).mp h, rfl⟩
  · exact .inr ⟨s₁, hs₁, .inl ⟨i, hi, hok, hsome⟩, rfl⟩
  · exact .inr ⟨s₁, hs₁, .inr ⟨rfl, fun h' => h ((hfit _ _).mpr h')⟩, rfl⟩

lemma changeStatus_wp {Q : String → DB → Prop} {X : Exn → DB → Prop}
    (ho : s₁.orders.lookup id = some o)
    (hpass : isValidTransition o.latestStatus dto.status = true →
      (recordStatus id dto o).wp E Any Q X (paid id o dto user s₁))
    (hfail : isValidTransition o.latestStatus dto.status = false → ∀ e, X e s₁) :
    (changeStatus id dto user o).wp E Any Q X s₁ := by
  unfold changeStatus
  rw [wp_throwIf_bind]
  refine ⟨fun h => hfail (Bool.not_eq_true _ ▸ h) _, fun hvalid => ?_⟩
  have hrecord := hpass (not_not.mp hvalid)
  rw [wp_when_bind]
  refine ⟨fun hcash => ?_, fun hcash => ?_⟩
  · refine wp_execute_of_ok fun i hi => ⟨_, DB.updateOrder_eq ho .kept rfl rfl, trivial, ?_⟩
    simpa only [paid, hcash, if_true] using hrecord
  · simpa only [paid, hcash, if_false] using hrecord

/-- **What `updateStatus` comes to**: when all checks pass it tells the student and records the
change, and otherwise it throws before the first write. -/
theorem updateStatus_wp_of {Q : String → DB → Prop} {X : Exn → DB → Prop}
    (ho : s.orders.lookup id = some o)
    (hrecord : ∀ s₁, Passed cfg o dto user s s₁ →
      (recordStatus id dto o).wp E Any Q X (paid id o dto user s₁))
    (hno : (∀ s₁, ¬ Passed cfg o dto user s s₁) → ∀ e, X e s) :
    (updateStatus cfg id dto user).wp E Any Q X s := by
  unfold updateStatus
  rw [wp_bind, wp_findOrder]
  intro i hi
  refine ⟨trivial, ?_⟩
  rw [ho]
  dsimp only
  rw [wp_throwIf_bind]
  refine ⟨fun h => hno (fun u hu => h.2 (hu.receivedImage h.1)) _, fun hreceived => ?_⟩
  rw [wp_throwIf_bind]
  refine ⟨fun h => hno (fun u hu => h.2 (hu.finishedImage h.1)) _, fun hdelivered => ?_⟩
  rw [wp_when_bind]
  refine ⟨fun hst => ?_, fun hst => ?_⟩
  · refine wp_mono (checkCancel_wp hst) (fun _ s₁ hs₁ => ?_) (fun e _ h => h.1 ▸ hno h.2 e)
    -- permission to cancel comes with a valid transition, so nothing charged is refused
    have ho₁ : s₁.orders.lookup id = some o := by rw [(passed_orders hs₁).1, ho]
    exact changeStatus_wp ho₁ (fun _ => hrecord s₁ hs₁) fun h => by simp [hs₁.valid] at h
  · refine changeStatus_wp ho (fun hvalid => hrecord s ?_)
      fun hvalid => hno fun u hu => by simp [hu.valid] at hvalid
    have hcharges : ¬ charges dto := fun h => hst h.1
    refine ⟨fun h => ?_, fun h => ?_, fun h => absurd h hst, fun h => absurd h hst,
      fun h => absurd h hst, by rw [if_neg hcharges], hvalid⟩
    · exact not_not.mp fun h' => hreceived ⟨h, h'⟩
    · exact not_not.mp fun h' => hdelivered ⟨h, h'⟩

/-- **The ends of `updateStatus`**: it records the change when all checks pass, unless a
service or the database refuses after the checks, and otherwise throws before the first write. -/
theorem updateStatus_wp (ho : s.orders.lookup id = some o) :
    (updateStatus cfg id dto user).wp E Any (fun _ t => Recorded E cfg id o dto user s t)
      (Stopped E cfg id o dto user s) s := by
  refine updateStatus_wp_of ho (fun s₁ hs₁ => recordStatus_wp hs₁ ?_) fun hno _ => .inl ⟨rfl, hno⟩
  rw [(passed_orders hs₁).1, ho]

/-- A student who cannot be told keeps the change from being recorded. -/
lemma recordStatus_throws_wp (hst : o.studentId.isSome) (hE : ∀ i, E i → i.ok = false) :
    (recordStatus id dto o).wp E Any (fun _ _ => False) (fun _ t => t = s) s := by
  unfold recordStatus
  rw [wp_when_bind]
  refine ⟨fun hsome => ?_, fun hno => absurd hst hno⟩
  obtain ⟨u, hu⟩ := Option.isSome_iff_exists.mp hsome
  rw [hu]
  change wp E Any service _ _ _
  rw [wp_service]
  intro i hi
  rw [if_neg (by simp [hE i hi])]
  exact ⟨trivial, rfl⟩

lemma updateStatus_wp_none (ho : s.orders.lookup id = none) :
    (updateStatus cfg id dto user).wp E Any (fun _ _ => False) (fun _ t => t = s) s := by
  unfold updateStatus
  rw [wp_bind, wp_findOrder]
  intro i hi
  rw [ho]
  exact ⟨trivial, rfl⟩

end TsaBackend.OrderEffects
