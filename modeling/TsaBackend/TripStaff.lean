import TsaBackend.Trips

/-!
The staff of trips: how many trips a staff member has under way, and whether the orders of a
trip name its staff member.

A status change looks at the trips of its caller, who need not be the staff of the trip. Orders
get their shipper when a trip is created and keep it when the trip is edited.
-/

namespace TsaBackend.Trips

open Call OrderEffects OrderWrites RequestSteps

variable {cfg : Config} {user : GetUserType} {s t : DB} {id d o u : Id}

/-! ### One trip at a time -/

/-- The staff member has accepted this trip and not finished it. -/
def Underway (s : DB) (u d : Id) : Prop :=
  ∃ r, s.deliveries.lookup d = some r ∧ r.staffId = some u ∧ r.latestStatus = .accepted

instance (s : DB) (u d : Id) : Decidable (Underway s u d) :=
  decidable_of_iff ((s.deliveries.lookup d).any fun r =>
    r.staffId = some u ∧ r.latestStatus = .accepted) (by
    unfold Underway
    cases s.deliveries.lookup d <;> simp)

/-- Nobody has two trips under way. -/
def OneUnderway (s : DB) : Prop := ∀ u d d', Underway s u d → Underway s u d' → d = d'

lemma oneUnderway_of_sub (hs : OneUnderway s) (h : ∀ u d, Underway t u d → Underway s u d) :
    OneUnderway t := fun u d d' hd hd' => hs u d d' (h u d hd) (h u d' hd')

lemma oneUnderway_same (hs : OneUnderway s) (h : SameTrips s t) : OneUnderway t := by
  refine oneUnderway_of_sub hs fun u d hd => ?_
  unfold Underway at hd
  rwa [h.1] at hd

lemma not_underway {r : Delivery} (hr : s.deliveries.lookup d = some r)
    (hst : r.latestStatus ≠ .accepted) : ¬ Underway s u d := by
  rintro ⟨r', hr', -, hacc⟩
  rw [hr, Option.some.injEq] at hr'
  exact hst (hr' ▸ hacc)

lemma underway_of_ne (h : ∀ d, d ≠ id → t.deliveries.lookup d = s.deliveries.lookup d)
    (hd : d ≠ id) : Underway t u d ↔ Underway s u d := by
  rw [Underway, Underway, h d hd]

lemma oneUnderway_changed (hs : OneUnderway s)
    (h : ∀ d, d ≠ id → t.deliveries.lookup d = s.deliveries.lookup d)
    (hr : ∀ r, t.deliveries.lookup id = some r → r.latestStatus ≠ .accepted) : OneUnderway t := by
  refine oneUnderway_of_sub hs fun u d hd => ?_
  by_cases hdi : d = id
  · subst hdi
    obtain ⟨r, hr', -⟩ := id hd
    exact absurd hd (not_underway hr' (hr r hr'))
  · exact (underway_of_ne h hdi).mp hd

/-- **When an accepted trip is the only one of its staff member.** -/
lemma oneUnderway_accepted {r : Delivery} (hs : OneUnderway s)
    (hr : s.deliveries.lookup id = some r) (h : Moved s id .accepted t) :
    OneUnderway t ↔ ∀ u ∈ r.staffId, ∀ d, d ≠ id → ¬ Underway s u d := by
  have hother : ∀ d, d ≠ id → t.deliveries.lookup d = s.deliveries.lookup d := fun d hd => by
    rw [h.deliveries, Table.lookup_modify_ne _ _ hd]
  have hself : ∀ u, Underway t u id ↔ r.staffId = some u := by
    intro u
    rw [Underway, h.deliveries, Table.lookup_modify_self, hr]
    simp
  constructor
  · intro ht u hu d hd hon
    exact hd (ht u d id ((underway_of_ne hother hd).mpr hon) ((hself u).mpr hu))
  · intro hfree u d d' hd hd'
    by_cases hdi : d = id
    · by_contra hne
      have hd'i : d' ≠ id := fun heq => hne (hdi.trans heq.symm)
      rw [hdi, hself] at hd
      exact hfree u hd d' hd'i ((underway_of_ne hother hd'i).mp hd')
    · by_cases hd'i : d' = id
      · rw [hd'i, hself] at hd'
        exact absurd ((underway_of_ne hother hdi).mp hd) (hfree u hd' d hdi)
      · exact hs u d d' ((underway_of_ne hother hdi).mp hd) ((underway_of_ne hother hd'i).mp hd')

/-- A trip is accepted only when its staff member has no other one under way. -/
def KeepsUnderway (s : DB) : Request → Prop
  | .updateDeliveryStatus id dto user => dto.status = .accepted → ∀ r, Resumes s id dto user r →
      ∀ u ∈ r.staffId, ∀ d, d ≠ id → ¬ Underway s u d
  | _ => True

lemma createDelivery_underway {dto : CreateDeliveryDto} (hs : OneUnderway s) :
    Ends (createDelivery dto) s OneUnderway := by
  refine createDelivery_ends.mono fun t ht => ?_
  rcases ht with hsame | ⟨id, r, -, hr, hadds⟩
  · exact oneUnderway_same hs hsame
  · refine oneUnderway_changed hs (fun d (hd : d ≠ id) => ?_) fun r' hr' => ?_
    · rw [hadds.deliveries, AList.lookup_insert_ne hd]
    · rw [hadds.deliveries, AList.lookup_insert, Option.some.injEq] at hr'
      rw [← hr', hr]
      decide

lemma updateDelivery_underway {dto : UpdateDeliveryDto} (hs : OneUnderway s) :
    Ends (updateDelivery id dto) s OneUnderway := by
  refine updateDelivery_edits.mono fun t ht => ?_
  rcases ht with rfl | ⟨orderIds, r, hr, hedits⟩
  · exact hs
  · refine oneUnderway_changed hs (fun d (hd : d ≠ id) => ?_) fun r' hr' => ?_
    · rw [hedits.extend.deliveries, Table.lookup_modify_ne _ _ hd]
    · rw [hedits.extend.deliveries, Table.lookup_modify_self, hr.lookup, Option.map_some,
        Option.some.injEq] at hr'
      rw [← hr']
      change r.latestStatus ≠ .accepted
      rw [hr.pending]
      decide

lemma oneUnderway_moved {status : DeliveryStatus} (hs : OneUnderway s) (h : Moved s id status t)
    (hst : status ≠ .accepted) : OneUnderway t := by
  refine oneUnderway_changed hs (fun d (hd : d ≠ id) => ?_) fun r' hr' => ?_
  · rw [h.deliveries, Table.lookup_modify_ne _ _ hd]
  · rw [h.deliveries, Table.lookup_modify_self] at hr'
    obtain ⟨r, -, rfl⟩ := Option.map_eq_some_iff.mp hr'
    exact hst

lemma deleteDelivery_underway (hs : OneUnderway s) (h : s.deleteDelivery id = .ok t) :
    OneUnderway t := by
  obtain ⟨_, rfl⟩ := DB.deleteDelivery_ok h
  refine oneUnderway_changed hs (fun d (hd : d ≠ id) => ?_) fun r' hr' => ?_
  · exact AList.lookup_erase_ne hd
  · rw [AList.lookup_erase] at hr'
    cases hr'

lemma resumes_underway {dto : UpdateDeliveryStatusDto} {r : Delivery} (hs : OneUnderway s)
    (hr : Resumes s id dto user r) (h : Moved s id dto.status t) : OneUnderway t ↔
      (dto.status = .accepted → ∀ u ∈ r.staffId, ∀ d, d ≠ id → ¬ Underway s u d) := by
  by_cases hst : dto.status = .accepted
  · rw [hst] at h
    exact (oneUnderway_accepted hs hr.lookup h).trans ⟨fun hfree _ => hfree, fun hfree => hfree hst⟩
  · exact iff_of_true (oneUnderway_moved hs h hst) fun hacc => absurd hacc hst

/-- **When a request keeps everybody on one trip.** -/
lemma underway_iff {r : Request} (hs : OneUnderway s) :
    Ends (r.call cfg) s OneUnderway ↔ KeepsUnderway s r := by
  have hother : ¬ WritesTrips r → Ends (r.call cfg) s OneUnderway := by
    intro hr
    refine ((call_steps r).preserves fun a b hw ha => ?_).exec hs
    exact oneUnderway_same ha (sameTrips_writes hr hw)
  cases r with
  | createDelivery dto => exact iff_of_true (ends_drop.mpr (createDelivery_underway hs)) trivial
  | updateDelivery id dto => exact iff_of_true (ends_drop.mpr (updateDelivery_underway hs)) trivial
  | updateDeliveryStatus id dto user =>
    refine ends_drop.trans ⟨fun h hst r hr => ?_, fun hk => ?_⟩
    · obtain ⟨t, ht, hmoved⟩ := hr.reached h
      exact (resumes_underway hs hr hmoved).mp ht hst
    · refine updateDeliveryStatus_ends.mono fun t ht => ?_
      cases ht with
      | same h => exact oneUnderway_same hs h
      | ended hst h => exact oneUnderway_moved hs h hst.2
      | resumed hr h => exact (resumes_underway hs hr h).mpr fun hst => hk hst _ hr
  | deleteDelivery id =>
    refine iff_of_true (((call_steps (.deleteDelivery id)).preserves fun a b hw ha => ?_).exec hs)
      trivial
    cases hw with
    | none => exact ha
    | drop h => exact deleteDelivery_underway ha h
  | _ => exact iff_of_true (hother fun h => h) trivial

/-- **When nobody has two trips under way**: in a run of any requests by any callers, from tables
where that holds, it holds in every state whose steps all accept a trip only for staff without
another one, and a step that does not can end where somebody has two. -/
theorem one_trip_at_a_time (cfg : Config) (s : DB) (hs : OneUnderway s)
    (ls : List (Request × (ℕ → Input))) :
    (Machine.Along (serve cfg) (fun s l => KeepsUnderway s l.1) s ls →
      OneUnderway (Machine.run (serve cfg) s ls)) ∧
    (Machine.Along (serve cfg) (fun s l => Ends (l.1.call cfg) s OneUnderway) s ls ↔
      Machine.Along (serve cfg) (fun s l => KeepsUnderway s l.1) s ls) :=
  Machine.inv_along_iff OneUnderway (fun _ l hends => hends l.2) (fun _ _ _ hs => underway_iff hs)
    hs

/-- A second order next to the first one. -/
def twoOrders : DB := { Sample.dbWithOrder with
  orders := Sample.dbWithOrder.orders.insert 11 { Sample.order with checkCode := "SPX2" }
  orderStatusHistory := [⟨10, .pending, none, "900", none⟩, ⟨11, .pending, none, "900", none⟩] }

/-- Two trips of one staff member. -/
def planTwo : List (Request × (ℕ → Input)) :=
  [(.createDelivery ⟨60, .val 3, [10]⟩, Sample.inputs 20),
   (.createDelivery ⟨60, .val 3, [11]⟩, fun n => { Sample.inputs 21 n with displayId := "DEL2" })]

/-- The acceptance of a trip. -/
def accept (id : Id) (user : GetUserType) : Request × (ℕ → Input) :=
  (.updateDeliveryStatus id ⟨.accepted, .undefined, .undefined⟩ user, Sample.inputs 0)

lemma oneUnderway_of_no_trips (h : s.deliveries.keys = []) : OneUnderway s := by
  rintro u d d' ⟨r, hr, -⟩
  have hmem : d ∈ s.deliveries.keys := AList.mem_keys.mp (Table.mem_iff_lookup.mpr ⟨r, hr⟩)
  rw [h] at hmem
  cases hmem

theorem one_trip_at_a_time_accepted :
    let t := Machine.run (serve Sample.config) twoOrders (planTwo ++ [accept 20 Sample.staff])
    Underway t 3 20 ∧ OneUnderway t := by
  refine ⟨by decide +kernel, (one_trip_at_a_time Sample.config twoOrders
    (oneUnderway_of_no_trips rfl) (planTwo ++ [accept 20 Sample.staff])).1
      ⟨trivial, trivial, ?_, trivial⟩⟩
  rintro - r - u - d - ⟨r', hr', -, hacc⟩
  -- both trips still wait to be accepted
  have hpending : ((Machine.run (serve Sample.config) twoOrders planTwo).deliveries.entries.all
      fun e => e.2.latestStatus = .pending) = true := by decide +kernel
  have hrow := List.all_eq_true.mp hpending _ (Table.lookup_eq_some.mp hr')
  rw [hacc] at hrow
  cases hrow

/-- The administrator, who has no trip under way, accepts the second one for the staff member. -/
theorem admin_accepts_second_trip : OneUnderway twoOrders ∧
    ¬ OneUnderway (Machine.run (serve Sample.config) twoOrders
      (planTwo ++ [accept 20 Sample.staff, accept 21 Sample.admin])) := by
  refine ⟨oneUnderway_of_no_trips rfl, fun h => ?_⟩
  have hfirst : Underway (Machine.run (serve Sample.config) twoOrders
      (planTwo ++ [accept 20 Sample.staff, accept 21 Sample.admin])) 3 20 := by decide +kernel
  have hsecond : Underway (Machine.run (serve Sample.config) twoOrders
      (planTwo ++ [accept 20 Sample.staff, accept 21 Sample.admin])) 3 21 := by decide +kernel
  exact absurd (h 3 20 21 hfirst hsecond) (by decide)

/-! ### The shipper of an order -/

/-- The orders of active trips name the staff member of their trip. -/
def ShippersAgree (s : DB) : Prop := ∀ o d, On s o d → ∀ r order,
  s.deliveries.lookup d = some r → s.orders.lookup o = some order → order.shipperId = r.staffId

structure Staffed (s : DB) : Prop where
  agree : ShippersAgree s
  joined : Joined s

/-- No order has got another shipper. -/
def SameShippers (s t : DB) : Prop :=
  ∀ o, (t.orders.lookup o).map (·.shipperId) = (s.orders.lookup o).map (·.shipperId)

lemma sameShippers_refl (s : DB) : SameShippers s s := fun _ => rfl

lemma SameShippers.trans {u : DB} (h : SameShippers s t) (h' : SameShippers t u) :
    SameShippers s u := fun o => (h' o).trans (h o)

lemma SameShippers.order {order : Order} (h : SameShippers s t)
    (ho : t.orders.lookup o = some order) :
    ∃ order', s.orders.lookup o = some order' ∧ order'.shipperId = order.shipperId := by
  have hmap := h o
  rw [ho, Option.map_some] at hmap
  exact Option.map_eq_some_iff.mp hmap.symm

lemma sameShippers_modify {f : Order → Order}
    (hf : ∀ order, (f order).shipperId = order.shipperId) :
    SameShippers s { s with orders := s.orders.modify id f } := by
  intro o
  by_cases ho : o = id
  · subst ho
    rcases hl : s.orders.lookup o with _ | order
    · simp [hl]
    · simp [hl, hf]
  · simp [ho]

lemma sameShippers_writes {r : Request} (h : Writes cfg s r t)
    (hr : (∃ id dto user, r = .updateStatus id dto user) ∨
      ∃ id dto user, r = .updateDeliveryStatus id dto user) : SameShippers s t := by
  cases h with
  | none => exact sameShippers_refl s
  | charge _ ht =>
    rw [chargeStudent_ok ht]
    exact sameShippers_refl s
  | cash _ => exact sameShippers_modify fun _ => rfl
  | change i hid => exact sameShippers_modify (s := s) fun _ => rfl
  | order i _ _ _ hid => exact sameShippers_modify (s := s) fun _ => rfl
  | move _ _ hu hrow =>
    obtain ⟨_, _, rfl⟩ := DB.updateDelivery_ok hu
    obtain ⟨_, _, rfl⟩ := DB.createDeliveryStatusRow_ok hrow
    exact sameShippers_refl s
  | _ => simp at hr

lemma sameShippers_ends {r : Request} (hr : (∃ id dto user, r = .updateStatus id dto user) ∨
      ∃ id dto user, r = .updateDeliveryStatus id dto user) :
    Ends (r.call cfg) s (SameShippers s) := by
  refine ((call_steps r).preserves fun a b hw ha => ?_).exec (sameShippers_refl s)
  exact ha.trans (sameShippers_writes hw hr)

lemma staffed_same (hs : Staffed s) (htrips : SameTrips s t) (hships : SameShippers s t) :
    Staffed t := by
  have hactive : ∀ d, Active t d ↔ Active s d := fun d => by rw [Active, Active, htrips.1]
  refine ⟨fun o d hon r order hr ho => ?_, fun d o hjoin => ?_⟩
  · obtain ⟨order', ho', heq⟩ := hships.order ho
    have hon' : On s o d := ⟨htrips.2 ▸ hon.1, (hactive d).mp hon.2⟩
    exact heq ▸ hs.agree o d hon' r order' (htrips.1 ▸ hr) ho'
  · rw [htrips.1]
    exact hs.joined d o (htrips.2 ▸ hjoin)

/-- What an absent shipper leaves is no shipper only where there was none. -/
lemma patch_eq {staffId : Arg Id} {old : Option Id} :
    staffId.patch old = staffId.toOption ↔ (staffId = .undefined → old = none) := by
  cases staffId <;> simp [Arg.patch, Arg.toOption]

/-- The orders of a new trip have no shipper when the trip has none, and are on other active trips
of its staff member only. -/
def KeepsNew (s : DB) (dto : CreateDeliveryDto) : Prop := ∀ o ∈ dto.orderIds,
  (dto.staffId = .undefined → ∀ order, s.orders.lookup o = some order → order.shipperId = none) ∧
    ∀ d r, On s o d → s.deliveries.lookup d = some r → r.staffId = dto.staffId.toOption

lemma Plans.mem_orders {dto : CreateDeliveryDto} (hp : Plans s dto) :
    o ∈ (s.ordersIn dto.orderIds).map (·.1) ↔ o ∈ dto.orderIds := by
  rw [mem_ordersIn, and_iff_right_iff_imp]
  exact (ordersIn_length hp.exist).2 o

lemma Plans.orders_of_insert {dto : CreateDeliveryDto} {r : Delivery} (hp : Plans s dto)
    (h : s.insertDelivery ((s.ordersIn dto.orderIds).map (·.1)) dto id r = .ok t) (o : Id) :
    t.orders.lookup o = if o ∈ dto.orderIds then (s.orders.lookup o).map fun order =>
      { order with shipperId := dto.staffId.patch order.shipperId } else s.orders.lookup o := by
  rw [insertDelivery_orders h]
  simp only [hp.mem_orders]

/-- **When a new trip keeps the shippers right.** -/
lemma staffed_inserts {dto : CreateDeliveryDto} (hs : Staffed s) (hp : Plans s dto)
    (h : Inserts s dto t) : Staffed t ↔ KeepsNew s dto := by
  obtain ⟨id, r, hr, h⟩ := h
  have hadds := insertDelivery_adds h
  have hmem := (ordersIn_length hp.exist).2
  have hon : ∀ o d, On t o d ↔ On s o d ∨ d = id ∧ o ∈ dto.orderIds := fun o d =>
    hadds.on hs.joined hr.pending
  have horders := hp.orders_of_insert h
  have hself : t.deliveries.lookup id = some r := by rw [hadds.deliveries, AList.lookup_insert]
  have hother : ∀ d, d ≠ id → t.deliveries.lookup d = s.deliveries.lookup d := fun d hd => by
    rw [hadds.deliveries, AList.lookup_insert_ne hd]
  constructor
  · intro ht o ho
    have hpatch : ∀ order, s.orders.lookup o = some order →
        dto.staffId.patch order.shipperId = dto.staffId.toOption := by
      intro order horder
      rw [← hr.staffId]
      refine ht.agree o id ((hon o id).mpr (.inr ⟨rfl, ho⟩)) r
        { order with shipperId := dto.staffId.patch order.shipperId } hself ?_
      rw [horders, if_pos ho, horder]
      rfl
    refine ⟨fun hundef order horder => patch_eq.mp (hpatch order horder) hundef, ?_⟩
    intro d r' hd hr'
    obtain ⟨order, horder⟩ := Table.mem_iff_lookup.mp (hmem o ho)
    rw [← hpatch order horder]
    symm
    refine ht.agree o d ((hon o d).mpr (.inl hd)) r'
      { order with shipperId := dto.staffId.patch order.shipperId } ?_ ?_
    · rw [hother d (hadds.ne hs.joined hd), hr']
    · rw [horders, if_pos ho, horder]
      rfl
  · refine fun hk => ⟨fun o d hd r' order hr' horder => ?_, hadds.joined hs.joined⟩
    by_cases ho : o ∈ dto.orderIds
    · rw [horders, if_pos ho] at horder
      obtain ⟨order', horder', rfl⟩ := Option.map_eq_some_iff.mp horder
      have hpatch : dto.staffId.patch order'.shipperId = dto.staffId.toOption :=
        patch_eq.mpr fun hundef => (hk o ho).1 hundef order' horder'
      change dto.staffId.patch order'.shipperId = _
      rw [hpatch]
      rcases (hon o d).mp hd with hd | ⟨rfl, -⟩
      · rw [hother d (hadds.ne hs.joined hd)] at hr'
        exact ((hk o ho).2 d r' hd hr').symm
      · rw [hself, Option.some.injEq] at hr'
        rw [← hr', hr.staffId]
    · rw [horders, if_neg ho] at horder
      rcases (hon o d).mp hd with hd | ⟨-, hin⟩
      · rw [hother d (hadds.ne hs.joined hd)] at hr'
        exact hs.agree o d hd r' order hr' horder
      · exact absurd hin ho

/-- A trip with orders keeps its staff member, and gets orders that name the staff member. -/
def KeepsEdited (s : DB) (id : Id) (dto : UpdateDeliveryDto) (orderIds : List Id) (r : Delivery) :
    Prop :=
  (∀ o order, (id, o) ∈ s.ordersOnDeliveries → s.orders.lookup o = some order →
      dto.staffId.patch r.staffId = r.staffId) ∧
    ∀ o ∈ orderIds, ∀ order, s.orders.lookup o = some order →
      order.shipperId = dto.staffId.patch r.staffId

/-- **When an edit keeps the shippers right.** -/
lemma staffed_edits {dto : UpdateDeliveryDto} {orderIds : List Id} {r : Delivery} (hs : Staffed s)
    (hr : Replans s id dto orderIds r) (h : Edits s id dto orderIds t) :
    Staffed t ↔ KeepsEdited s id dto orderIds r := by
  have hid : Active s id := ⟨r, hr.lookup, .inl hr.pending⟩
  have hon : ∀ o d, On t o d ↔ On s o d ∨ d = id ∧ o ∈ orderIds := fun o d =>
    h.extend.on (f := replanned dto) hid fun _ => rfl
  have horders : t.orders = s.orders := by
    obtain ⟨joins, rfl⟩ := DB.createManyOrdersOnDelivery_ok h
    rfl
  have hself : t.deliveries.lookup id = some (replanned dto r) := by
    rw [h.extend.deliveries, Table.lookup_modify_self, hr.lookup, Option.map_some]
  have hother : ∀ d, d ≠ id → t.deliveries.lookup d = s.deliveries.lookup d := fun d hd => by
    rw [h.extend.deliveries, Table.lookup_modify_ne _ _ hd]
  constructor
  · intro ht
    have hnamed : ∀ o, On t o id → ∀ order, s.orders.lookup o = some order →
        order.shipperId = dto.staffId.patch r.staffId := fun o hd order horder =>
      ht.agree o id hd _ order hself (by rw [horders, horder])
    refine ⟨fun o order hjoin horder => ?_, fun o ho => hnamed o ((hon o id).mpr (.inr ⟨rfl, ho⟩))⟩
    rw [← hnamed o ((hon o id).mpr (.inl ⟨hjoin, hid⟩)) order horder]
    exact hs.agree o id ⟨hjoin, hid⟩ r order hr.lookup horder
  · rintro ⟨hold, hnew⟩
    refine ⟨fun o d hd r' order hr' horder => ?_, h.extend.joined hs.joined hid⟩
    rw [horders] at horder
    by_cases hdi : d = id
    · subst hdi
      rw [hself, Option.some.injEq] at hr'
      subst hr'
      change order.shipperId = dto.staffId.patch r.staffId
      rcases (hon o d).mp hd with hd | ⟨-, ho⟩
      · rw [hold o order hd.1 horder]
        exact hs.agree o d hd r order hr.lookup horder
      · exact hnew o ho order horder
    · rcases (hon o d).mp hd with hd | ⟨rfl, -⟩
      · rw [hother d hdi] at hr'
        exact hs.agree o d hd r' order hr' horder
      · exact absurd rfl hdi

lemma staffed_moved_of_ne {status : DeliveryStatus} (hs : Staffed s) (h : Moved s id status t)
    (hships : SameShippers s t) (hd : d ≠ id) (hon : On t o d) {r : Delivery} {order : Order}
    (hr : t.deliveries.lookup d = some r) (ho : t.orders.lookup o = some order) :
    order.shipperId = r.staffId := by
  obtain ⟨order', ho', heq⟩ := hships.order ho
  rw [h.deliveries, Table.lookup_modify_ne _ _ hd] at hr
  exact heq ▸ hs.agree o d ((moved_on h hd).mp hon) r order' hr ho'

lemma staffed_ended {status : DeliveryStatus} (hs : Staffed s) (h : Moved s id status t)
    (hships : SameShippers s t) (hst : status ≠ .pending ∧ status ≠ .accepted) : Staffed t := by
  refine ⟨fun o d hon r order hr ho => ?_, moved_joined hs.joined h⟩
  refine staffed_moved_of_ne hs h hships ?_ hon hr ho
  rintro rfl
  obtain ⟨-, r', hr', hactive⟩ := hon
  rw [h.deliveries, Table.lookup_modify_self] at hr'
  obtain ⟨r'', -, rfl⟩ := Option.map_eq_some_iff.mp hr'
  exact hactive.elim hst.1 hst.2

/-- **When a trip that becomes active keeps the shippers right.** -/
lemma staffed_resumed {status : DeliveryStatus} {r : Delivery} (hs : Staffed s)
    (hr : s.deliveries.lookup id = some r) (h : Moved s id status t) (hships : SameShippers s t)
    (hst : status = .pending ∨ status = .accepted) : Staffed t ↔
      ∀ o order, (id, o) ∈ s.ordersOnDeliveries → s.orders.lookup o = some order →
        order.shipperId = r.staffId := by
  have hself : t.deliveries.lookup id = some { r with latestStatus := status } := by
    rw [h.deliveries, Table.lookup_modify_self, hr, Option.map_some]
  constructor
  · intro ht o order hjoin horder
    have hmap := hships o
    rw [horder, Option.map_some] at hmap
    obtain ⟨order', ho', heq⟩ := Option.map_eq_some_iff.mp hmap
    rw [← heq]
    exact ht.agree o id ⟨h.joins ▸ hjoin, _, hself, hst⟩ { r with latestStatus := status } order'
      hself ho'
  · refine fun hk => ⟨fun o d hon r' order hr' ho => ?_, moved_joined hs.joined h⟩
    by_cases hdi : d = id
    · subst hdi
      obtain ⟨order', ho', heq⟩ := hships.order ho
      rw [hself, Option.some.injEq] at hr'
      rw [← heq, ← hr']
      exact hk o order' (h.joins ▸ hon.1) ho'
    · exact staffed_moved_of_ne hs h hships hdi hon hr' ho

/-- The requests of these runs. -/
def SchedulesTrips : Request → Prop
  | .createDelivery _ | .updateDelivery _ _ | .updateDeliveryStatus _ _ _ | .updateStatus _ _ _ =>
    True
  | _ => False

instance (r : Request) : Decidable (SchedulesTrips r) := by
  cases r <;> unfold SchedulesTrips <;> infer_instance

/-- The trips that are planned, edited or made active have orders that name their staff member. -/
def KeepsStaffed (s : DB) : Request → Prop
  | .createDelivery dto => Plans s dto → KeepsNew s dto
  | .updateDelivery id dto => ∀ orderIds r, Replans s id dto orderIds r →
      KeepsEdited s id dto orderIds r
  | .updateDeliveryStatus id dto user => ∀ r, Resumes s id dto user r →
      ∀ o order, (id, o) ∈ s.ordersOnDeliveries → s.orders.lookup o = some order →
        order.shipperId = r.staffId
  | _ => True

/-- **When a request keeps the shippers right.** -/
lemma staffed_iff {r : Request} (hs : Staffed s) (hsched : SchedulesTrips r) :
    Ends (r.call cfg) s Staffed ↔ KeepsStaffed s r := by
  cases r with
  | createDelivery dto =>
    refine ends_drop.trans
      ⟨fun h hplans => ?_, fun hk => createDelivery_inserts.mono fun t ht => ?_⟩
    · obtain ⟨t, ht, hins⟩ := hplans.inserted hs.joined h
      exact (staffed_inserts hs hplans hins).mp ht
    · rcases ht with rfl | ⟨hplans, hins⟩
      · exact hs
      · exact (staffed_inserts hs hplans hins).mpr (hk hplans)
  | updateDelivery id dto =>
    refine ends_drop.trans ⟨fun h orderIds r hr => ?_, fun hk => ?_⟩
    · obtain ⟨t, ht, hedits⟩ := hr.edited h
      exact (staffed_edits hs hr hedits).mp ht
    · refine updateDelivery_edits.mono fun t ht => ?_
      rcases ht with rfl | ⟨orderIds, r, hr, hedits⟩
      · exact hs
      · exact (staffed_edits hs hr hedits).mpr (hk orderIds r hr)
  | updateDeliveryStatus id dto user =>
    have hcall : Ends ((Request.updateDeliveryStatus id dto user).call cfg) s (SameShippers s) :=
      sameShippers_ends (.inr ⟨id, dto, user, rfl⟩)
    have hships : Ends (updateDeliveryStatus id dto user) s (SameShippers s) := ends_drop.mp hcall
    refine ends_drop.trans ⟨fun h r hr => ?_, fun hk => ?_⟩
    · obtain ⟨t, ⟨ht, hsame⟩, hmoved⟩ :=
        hr.reached (Q := fun t => Staffed t ∧ SameShippers s t) fun ω => ⟨h ω, hships ω⟩
      exact (staffed_resumed hs hr.lookup hmoved hsame hr.status).mp ht
    · intro ω
      have hsame := hships ω
      have hchanged : Changed s id dto user _ := updateDeliveryStatus_ends ω
      rcases hchanged with h | ⟨hst, h⟩ | ⟨hr, h⟩
      · exact staffed_same hs h hsame
      · exact staffed_ended hs h hsame hst
      · exact (staffed_resumed hs hr.lookup h hsame hr.status).mpr (hk _ hr)
  | updateStatus id dto user =>
    refine iff_of_true (fun ω => ?_) trivial
    have htrips : Ends ((Request.updateStatus id dto user).call cfg) s (SameTrips s) := by
      refine ((call_steps (.updateStatus id dto user)).preserves
        fun a b hw ha => ?_).exec ⟨rfl, rfl⟩
      have hno : ¬ WritesTrips (.updateStatus id dto user) := fun h => h
      have hab := sameTrips_writes hno hw
      exact ⟨hab.1.trans ha.1, hab.2.trans ha.2⟩
    exact staffed_same hs (htrips ω) (sameShippers_ends (.inl ⟨id, dto, user, rfl⟩) ω)
  | _ => exact hsched.elim

/-- **When the shipper of an order is the staff of its trip**: in a run of these requests, from
tables where that holds, it holds in every state whose steps all keep the shippers, and a step
that does not can end where an order of an active trip names somebody else. -/
theorem shippers_agree (cfg : Config) (s : DB) (hs : Staffed s)
    (ls : List (Request × (ℕ → Input))) (hls : ∀ l ∈ ls, SchedulesTrips l.1) :
    (Machine.Along (serve cfg) (fun s l => KeepsStaffed s l.1) s ls →
      Staffed (Machine.run (serve cfg) s ls)) ∧
    (Machine.Along (serve cfg) (fun s l => Ends (l.1.call cfg) s Staffed) s ls ↔
      Machine.Along (serve cfg) (fun s l => KeepsStaffed s l.1) s ls) :=
  Machine.inv_along_iff Staffed (fun _ l hends => hends l.2)
    (fun _ l hl hs => staffed_iff hs (hls l hl)) hs

lemma staffed_of_no_joins (h : s.ordersOnDeliveries.keys = []) : Staffed s :=
  ⟨fun _ _ hon => absurd hon.1 (not_mem_of_no_joins h _), fun _ _ hjoin =>
    absurd hjoin (not_mem_of_no_joins h _)⟩

/-- A trip that is planned for a staff member and accepted. -/
def plannedAndAccepted : List (Request × (ℕ → Input)) := planTwo.take 1 ++ [accept 20 Sample.staff]

theorem shippers_agree_accepted :
    let t := Machine.run (serve Sample.config) twoOrders plannedAndAccepted
    On t 10 20 ∧ Staffed t := by
  refine ⟨by decide +kernel, (shippers_agree Sample.config twoOrders (staffed_of_no_joins rfl)
    plannedAndAccepted (by decide +kernel)).1 ⟨?_, ?_, trivial⟩⟩
  · intro _ o _
    refine ⟨fun h => ?_, fun d _ hon => absurd hon.1 (not_mem_of_no_joins rfl _)⟩
    cases h
  · intro r hr o order hjoin horder
    have hkeys : (Machine.run (serve Sample.config) twoOrders
        (planTwo.take 1)).ordersOnDeliveries.keys = [(20, 10)] := by decide +kernel
    have hmem : ((20 : Id), o) ∈ [((20 : Id), (10 : Id))] := hkeys ▸ AList.mem_keys.mp hjoin
    obtain rfl : o = 10 := by simpa using hmem
    have hshipper : ((Machine.run (serve Sample.config) twoOrders (planTwo.take 1)).orders.lookup
        10).map (·.shipperId) = some (some 3) := by decide +kernel
    have hstaff : ((Machine.run (serve Sample.config) twoOrders (planTwo.take 1)).deliveries.lookup
        20).map (·.staffId) = some (some 3) := by decide +kernel
    have horder' : (Machine.run (serve Sample.config) twoOrders (planTwo.take 1)).orders.lookup
        10 = some order := horder
    have hlookup : (Machine.run (serve Sample.config) twoOrders (planTwo.take 1)).deliveries.lookup
        20 = some r := hr.lookup
    rw [horder', Option.map_some, Option.some.injEq] at hshipper
    rw [hlookup, Option.map_some, Option.some.injEq] at hstaff
    rw [hshipper, hstaff]

/-- A trip that gets a second order. -/
def extendedTrip : List (Request × (ℕ → Input)) := planTwo.take 1 ++
  [(.updateDelivery 20 ⟨.undefined, .undefined, .val [11]⟩, Sample.inputs 0)]

/-- The second order of the trip has no shipper. -/
theorem extended_order_without_shipper : Staffed twoOrders ∧ (∀ l ∈ extendedTrip,
      SchedulesTrips l.1) ∧
    ¬ ShippersAgree (Machine.run (serve Sample.config) twoOrders extendedTrip) := by
  refine ⟨staffed_of_no_joins rfl, by decide +kernel, fun h => ?_⟩
  have hon : On (Machine.run (serve Sample.config) twoOrders extendedTrip) 11 20 := by
    decide +kernel
  have hstaff : ((Machine.run (serve Sample.config) twoOrders extendedTrip).deliveries.lookup
      20).map (·.staffId) = some (some 3) := by decide +kernel
  have hshipper : ((Machine.run (serve Sample.config) twoOrders extendedTrip).orders.lookup
      11).map (·.shipperId) = some none := by decide +kernel
  obtain ⟨r, hr, hr'⟩ := Option.map_eq_some_iff.mp hstaff
  obtain ⟨order, ho, ho'⟩ := Option.map_eq_some_iff.mp hshipper
  have hagree := h 11 20 hon r order hr ho
  rw [hr', ho'] at hagree
  cases hagree

end TsaBackend.Trips
