import TsaBackend.TripWrites

/-!
Orders on active trips, over runs of any requests.

A new trip looks at the status of orders that are on a trip, not at the trips; an edit adds
orders without a look, and a status change can make a trip active again.
-/

namespace TsaBackend.Trips

open Call OrderEffects OrderWrites RequestSteps

variable {cfg : Config} {s t : DB} {id d o : Id}

/-- The trip is planned or under way. -/
def Active (s : DB) (d : Id) : Prop :=
  ∃ r, s.deliveries.lookup d = some r ∧ (r.latestStatus = .pending ∨ r.latestStatus = .accepted)

instance (s : DB) (d : Id) : Decidable (Active s d) :=
  decidable_of_iff ((s.deliveries.lookup d).any fun r =>
    r.latestStatus = .pending ∨ r.latestStatus = .accepted) (by
    unfold Active
    cases s.deliveries.lookup d <;> simp)

/-- The order is on this trip, and the trip is active. -/
def On (s : DB) (o d : Id) : Prop := (d, o) ∈ s.ordersOnDeliveries ∧ Active s d

instance (s : DB) (o d : Id) : Decidable (On s o d) := by unfold On; infer_instance

/-- No order is on two active trips. -/
def OneTrip (s : DB) : Prop := ∀ o d d', On s o d → On s o d' → d = d'

structure Planned (s : DB) : Prop where
  oneTrip : OneTrip s
  joined : Joined s

lemma planned_same (h : SameTrips s t) : Planned t ↔ Planned s := by
  have hactive : ∀ d, Active t d ↔ Active s d := fun d => by rw [Active, Active, h.1]
  have hon : ∀ o d, On t o d ↔ On s o d := fun o d => by rw [On, On, h.2, hactive]
  have hone : OneTrip t ↔ OneTrip s := by simp only [OneTrip, hon]
  have hjoin : Joined t ↔ Joined s := by simp only [Joined, h.1, h.2]
  exact ⟨fun ht => ⟨hone.mp ht.1, hjoin.mp ht.2⟩, fun hs => ⟨hone.mpr hs.1, hjoin.mpr hs.2⟩⟩

variable {r : Delivery} {orderIds : List Id}

/-- A new trip makes no trip active but itself. -/
lemma Adds.active (h : Adds s id r orderIds t) (hr : r.latestStatus = .pending) :
    Active t d ↔ Active s d ∨ d = id := by
  unfold Active
  rw [h.deliveries]
  by_cases hd : d = id
  · subst hd
    simp [hr]
  · simp [hd]

/-- The orders of a new trip are on it, the others on the trips they were on. -/
lemma Adds.on (hs : Joined s) (h : Adds s id r orderIds t) (hr : r.latestStatus = .pending) :
    On t o d ↔ On s o d ∨ d = id ∧ o ∈ orderIds := by
  rw [On, On, h.joins, h.active hr]
  constructor
  · rintro ⟨hjoin | ⟨rfl, ho⟩, hd⟩
    · rcases hd with hd | rfl
      · exact .inl ⟨hjoin, hd⟩
      · exact absurd (hs _ _ hjoin) h.new
    · exact .inr ⟨rfl, ho⟩
  · rintro (⟨hjoin, hd⟩ | ⟨rfl, ho⟩)
    · exact ⟨.inl hjoin, .inl hd⟩
    · exact ⟨.inr ⟨rfl, ho⟩, .inr rfl⟩

lemma Adds.ne (hs : Joined s) (h : Adds s id r orderIds t) (hon : On s o d) : d ≠ id := by
  rintro rfl
  exact h.new (hs _ _ hon.1)

lemma Adds.joined (hs : Joined s) (h : Adds s id r orderIds t) : Joined t := by
  intro d o hjoin
  rw [h.deliveries, AList.mem_insert]
  rcases (h.joins d o).mp hjoin with hjoin | ⟨rfl, -⟩
  · exact .inr (hs d o hjoin)
  · exact .inl rfl

/-- **When a new trip keeps orders on one active trip.** -/
lemma planned_adds (hs : Planned s) (h : Adds s id r orderIds t) (hr : r.latestStatus = .pending) :
    Planned t ↔ ∀ o ∈ orderIds, ∀ d, ¬ On s o d := by
  have hon : ∀ o d, On t o d ↔ On s o d ∨ d = id ∧ o ∈ orderIds := fun o d => h.on hs.joined hr
  constructor
  · intro ht o ho d hd
    exact h.ne hs.joined hd
      (ht.oneTrip o d id ((hon o d).mpr (.inl hd)) ((hon o id).mpr (.inr ⟨rfl, ho⟩)))
  · refine fun hfree => ⟨fun o d d' hd hd' => ?_, h.joined hs.joined⟩
    rcases (hon o d).mp hd with h₁ | ⟨rfl, h₁⟩ <;> rcases (hon o d').mp hd' with h₂ | ⟨rfl, h₂⟩
    · exact hs.oneTrip o d d' h₁ h₂
    · exact absurd h₁ (hfree o h₂ d)
    · exact absurd h₂ (hfree o h₁ d')
    · rfl

lemma active_modify {f : Delivery → Delivery} (ht : t.deliveries = s.deliveries.modify id f)
    (hf : ∀ r, (f r).latestStatus = r.latestStatus) : Active t d ↔ Active s d := by
  unfold Active
  rw [ht]
  by_cases hd : d = id
  · subst hd
    rcases hl : s.deliveries.lookup d with _ | r
    · simp [hl]
    · simp [hl, hf]
  · simp [hd]

section Extends

variable {f : Delivery → Delivery}

/-- The orders that are added to a trip are on it as well. -/
lemma Extends.on (hid : Active s id) (hf : ∀ r, (f r).latestStatus = r.latestStatus)
    (h : Extends s id f orderIds t) : On t o d ↔ On s o d ∨ d = id ∧ o ∈ orderIds := by
  rw [On, On, h.joins, active_modify h.deliveries hf]
  constructor
  · rintro ⟨hjoin | hnew, hd⟩
    · exact .inl ⟨hjoin, hd⟩
    · exact .inr hnew
  · rintro (⟨hjoin, hd⟩ | ⟨rfl, ho⟩)
    · exact ⟨.inl hjoin, hd⟩
    · exact ⟨.inr ⟨rfl, ho⟩, hid⟩

lemma Extends.joined (hs : Joined s) (hid : Active s id) (h : Extends s id f orderIds t) :
    Joined t := by
  intro d o hjoin
  rw [h.deliveries, Table.mem_modify]
  rcases (h.joins d o).mp hjoin with hjoin | ⟨rfl, -⟩
  · exact hs d o hjoin
  · obtain ⟨r, hr, -⟩ := hid
    exact Table.mem_iff_lookup.mpr ⟨r, hr⟩

/-- **When an edit keeps orders on one active trip.** -/
lemma planned_extends (hs : Planned s) (hid : Active s id)
    (hf : ∀ r, (f r).latestStatus = r.latestStatus) (h : Extends s id f orderIds t) :
    Planned t ↔ ∀ o ∈ orderIds, ∀ d, d ≠ id → ¬ On s o d := by
  have hon : ∀ o d, On t o d ↔ On s o d ∨ d = id ∧ o ∈ orderIds := fun o d => h.on hid hf
  constructor
  · intro ht o ho d hd hon'
    exact hd (ht.oneTrip o d id ((hon o d).mpr (.inl hon')) ((hon o id).mpr (.inr ⟨rfl, ho⟩)))
  · refine fun hfree => ⟨fun o d d' hd hd' => ?_, h.joined hs.joined hid⟩
    rcases (hon o d).mp hd with h₁ | ⟨rfl, h₁⟩ <;> rcases (hon o d').mp hd' with h₂ | ⟨rfl, h₂⟩
    · exact hs.oneTrip o d d' h₁ h₂
    · exact by_contra fun hne => hfree o h₂ d hne h₁
    · exact by_contra fun hne => hfree o h₁ d' (Ne.symm hne) h₂
    · rfl

end Extends

/-! ### Status changes of trips, and runs -/

variable {status : DeliveryStatus}

lemma moved_active (h : Moved s id status t) (hd : d ≠ id) : Active t d ↔ Active s d := by
  unfold Active
  rw [h.deliveries, Table.lookup_modify_ne _ _ hd]

lemma moved_joined (hs : Joined s) (h : Moved s id status t) : Joined t := by
  intro d o hjoin
  rw [h.deliveries, Table.mem_modify]
  exact hs d o (h.joins ▸ hjoin)

lemma moved_on (h : Moved s id status t) (hd : d ≠ id) : On t o d ↔ On s o d := by
  rw [On, On, h.joins, moved_active h hd]

/-- A trip that ends takes its orders from no other trip. -/
lemma planned_ended (hs : Planned s) (h : Moved s id status t)
    (hst : status ≠ .pending ∧ status ≠ .accepted) : Planned t := by
  have hno : ∀ o, ¬ On t o id := by
    rintro o ⟨-, r, hr, hactive⟩
    rw [h.deliveries, Table.lookup_modify_self] at hr
    obtain ⟨r', -, rfl⟩ := Option.map_eq_some_iff.mp hr
    exact hactive.elim hst.1 hst.2
  refine ⟨fun o d d' hd hd' => ?_, moved_joined hs.joined h⟩
  have hne : d ≠ id := fun heq => hno o (heq ▸ hd)
  have hne' : d' ≠ id := fun heq => hno o (heq ▸ hd')
  exact hs.oneTrip o d d' ((moved_on h hne).mp hd) ((moved_on h hne').mp hd')

/-- **When a trip that becomes active keeps orders on one active trip.** -/
lemma planned_resumed (hs : Planned s) (hid : id ∈ s.deliveries) (h : Moved s id status t)
    (hst : status = .pending ∨ status = .accepted) :
    Planned t ↔ ∀ o, (id, o) ∈ s.ordersOnDeliveries → ∀ d, d ≠ id → ¬ On s o d := by
  have hactive : Active t id := by
    obtain ⟨r, hr⟩ := Table.mem_iff_lookup.mp hid
    refine ⟨{ r with latestStatus := status }, ?_, hst⟩
    rw [h.deliveries, Table.lookup_modify_self, hr]
    rfl
  constructor
  · intro ht o ho d hd hon
    refine hd (ht.oneTrip o d id ((moved_on h hd).mpr hon) ⟨?_, hactive⟩)
    rw [h.joins]
    exact ho
  · refine fun hfree => ⟨fun o d d' hd hd' => ?_, moved_joined hs.joined h⟩
    by_cases hdi : d = id
    · by_contra hne
      have hd'i : d' ≠ id := fun heq => hne (hdi.trans heq.symm)
      refine hfree o ?_ d' hd'i ((moved_on h hd'i).mp hd')
      rw [← h.joins, ← hdi]
      exact hd.1
    · by_cases hd'i : d' = id
      · refine absurd ((moved_on h hdi).mp hd) (hfree o ?_ d hdi)
        rw [← h.joins, ← hd'i]
        exact hd'.1
      · exact hs.oneTrip o d d' ((moved_on h hdi).mp hd) ((moved_on h hd'i).mp hd')

lemma planned_deleted (hs : Planned s) (h : s.deleteDelivery id = .ok t) : Planned t := by
  have hfree := deleteDelivery_free h
  obtain ⟨_, rfl⟩ := DB.deleteDelivery_ok h
  have hon : ∀ {o d}, On { s with
      deliveries := s.deliveries.erase id
      deliveryStatusHistory := s.deliveryStatusHistory.filter fun h => h.deliveryId ≠ id } o d →
      On s o d := by
    rintro o d ⟨hjoin, r, hr, hst⟩
    have hd : d ≠ id := by
      rintro rfl
      exact hfree o hjoin
    exact ⟨hjoin, r, by simpa [hd] using hr, hst⟩
  refine ⟨fun o d d' hd hd' => hs.oneTrip o d d' (hon hd) (hon hd'), fun d o hjoin => ?_⟩
  have hd : d ≠ id := by
    rintro rfl
    exact hfree o hjoin
  exact (AList.mem_erase).mpr ⟨hd, hs.joined d o hjoin⟩

/-- The orders of a trip that is planned, extended or made active are on no other active
trip. -/
def KeepsTrips (s : DB) : Request → Prop
  | .createDelivery dto => Plans s dto → ∀ o ∈ dto.orderIds, ∀ d, ¬ On s o d
  | .updateDelivery id dto => ∀ orderIds r, Replans s id dto orderIds r →
      ∀ o ∈ orderIds, ∀ d, d ≠ id → ¬ On s o d
  | .updateDeliveryStatus id dto user => ∀ r, Resumes s id dto user r →
      ∀ o, (id, o) ∈ s.ordersOnDeliveries → ∀ d, d ≠ id → ¬ On s o d
  | _ => True

/-- **When a request keeps orders on one active trip.** -/
lemma planned_iff {r : Request} (hs : Planned s) :
    Ends (r.call cfg) s Planned ↔ KeepsTrips s r := by
  have hother : ¬ WritesTrips r → Ends (r.call cfg) s Planned := by
    intro hr
    refine ((call_steps r).preserves fun a b hw ha => ?_).exec hs
    exact (planned_same (sameTrips_writes hr hw)).mpr ha
  cases r with
  | createDelivery dto =>
    refine ends_drop.trans ⟨fun h hplans => ?_, fun hk => createDelivery_ends.mono fun t ht => ?_⟩
    · obtain ⟨t, id, r, ht, hr, hadds⟩ := hplans.reached hs.joined h
      exact (planned_adds hs hadds hr).mp ht
    · rcases ht with hsame | ⟨id, r, hplans, hr, hadds⟩
      · exact (planned_same hsame).mpr hs
      · exact (planned_adds hs hadds hr).mpr (hk hplans)
  | updateDelivery id dto =>
    have hextends : ∀ {orderIds r t}, Replans s id dto orderIds r →
        Extends s id (replanned dto) orderIds t → (Planned t ↔
          ∀ o ∈ orderIds, ∀ d, d ≠ id → ¬ On s o d) := fun hr ht =>
      planned_extends (f := replanned dto) hs ⟨_, hr.lookup, .inl hr.pending⟩ (fun _ => rfl) ht
    refine ends_drop.trans ⟨fun h orderIds r hr => ?_, fun hk => ?_⟩
    · obtain ⟨t, ht, hedits⟩ := hr.edited h
      exact (hextends hr hedits.extend).mp ht
    · refine updateDelivery_edits.mono fun t ht => ?_
      rcases ht with rfl | ⟨orderIds, r, hr, hedits⟩
      · exact hs
      · exact (hextends hr hedits.extend).mpr (hk orderIds r hr)
  | updateDeliveryStatus id dto user =>
    have hresumed : ∀ {r t}, Resumes s id dto user r → Moved s id dto.status t → (Planned t ↔
        ∀ o, (id, o) ∈ s.ordersOnDeliveries → ∀ d, d ≠ id → ¬ On s o d) := fun hr ht =>
      planned_resumed hs (Table.mem_iff_lookup.mpr ⟨_, hr.lookup⟩) ht hr.status
    refine ends_drop.trans ⟨fun h r hr => ?_, fun hk => ?_⟩
    · obtain ⟨t, ht, hmoved⟩ := hr.reached h
      exact (hresumed hr hmoved).mp ht
    · refine updateDeliveryStatus_ends.mono fun t ht => ?_
      cases ht with
      | same h => exact (planned_same h).mpr hs
      | ended hst h => exact planned_ended hs h hst
      | resumed hr h => exact (hresumed hr h).mpr (hk _ hr)
  | deleteDelivery id =>
    simp only [KeepsTrips, iff_true]
    refine ((call_steps (.deleteDelivery id)).preserves fun a b hw ha => ?_).exec hs
    cases hw with
    | none => exact ha
    | drop h => exact planned_deleted ha h
  | _ => exact iff_of_true (hother fun h => h) trivial

/-- **When orders are on one active trip**: in a run of any requests, from tables where they
are, they are in every state whose steps all keep trips, and a step that does not can end
where an order is on two. -/
theorem one_active_trip (cfg : Config) (s : DB) (hs : Planned s)
    (ls : List (Request × (ℕ → Input))) :
    (Machine.Along (serve cfg) (fun s l => KeepsTrips s l.1) s ls →
      Planned (Machine.run (serve cfg) s ls)) ∧
    (Machine.Along (serve cfg) (fun s l => Ends (l.1.call cfg) s Planned) s ls ↔
      Machine.Along (serve cfg) (fun s l => KeepsTrips s l.1) s ls) :=
  Machine.inv_along_iff Planned (fun _ l hends => hends l.2) (fun _ _ _ hs => planned_iff hs) hs

/-- A parcel that is received, planned, taken along and brought back. -/
def returnedParcel : List (Request × (ℕ → Input)) :=
  [(.createOrder Sample.body Sample.student, Sample.inputs 10),
   (.createDelivery ⟨60, .val 3, [10]⟩, Sample.inputs 20),
   (.updateDeliveryStatus 20 ⟨.accepted, .undefined, .undefined⟩ Sample.staff, Sample.inputs 0),
   (.updateDeliveryStatus 20 ⟨.canceled, .val "rain", .val "c.png"⟩ Sample.staff,
      Sample.inputs 0)]

lemma not_mem_of_no_joins (h : s.ordersOnDeliveries.keys = []) (k : Id × Id) :
    k ∉ s.ordersOnDeliveries := by
  intro hjoin
  have hmem := AList.mem_keys.mp hjoin
  rw [h] at hmem
  cases hmem

lemma planned_of_no_joins (h : s.ordersOnDeliveries.keys = []) : Planned s :=
  ⟨fun _ _ _ hd => absurd hd.1 (not_mem_of_no_joins h _), fun _ _ hjoin =>
    absurd hjoin (not_mem_of_no_joins h _)⟩

theorem one_active_trip_returned :
    let t := Machine.run (serve Sample.config) Sample.db returnedParcel
    (t.deliveries.lookup 20).map (·.latestStatus) = some .canceled ∧ Planned t := by
  refine ⟨by decide +kernel, (one_active_trip Sample.config Sample.db (planned_of_no_joins rfl)
    returnedParcel).1 ⟨trivial, ?_, ?_, ?_, trivial⟩⟩
  · intro _ o _ d hon
    exact not_mem_of_no_joins (by decide +kernel) _ hon.1
  · rintro r - o ho d hd ⟨hjoin, -⟩
    have hkeys : (Machine.run (serve Sample.config) Sample.db
        (returnedParcel.take 2)).ordersOnDeliveries.keys = [(20, 10)] := by decide +kernel
    have hmem : (d, o) ∈ [((20 : Id), (10 : Id))] := hkeys ▸ AList.mem_keys.mp hjoin
    simp only [List.mem_singleton, Prod.mk.injEq] at hmem
    exact hd hmem.1
  · intro r hr
    rcases hr.status with h | h <;> cases h

/-- A received parcel that is planned twice. -/
def plannedTwice : List (Request × (ℕ → Input)) :=
  [(.createOrder Sample.body Sample.student, Sample.inputs 10),
   (.updateStatus 10 (.only .accepted) Sample.admin, Sample.inputs 0),
   (.updateStatus 10 { UpdateStatusDto.only .receivedExternal with receivedImage := .val "r.png" }
      Sample.staff, Sample.inputs 0),
   (.createDelivery ⟨60, .val 3, [10]⟩, Sample.inputs 20),
   (.createDelivery ⟨60, .val 3, [10]⟩, fun n => { Sample.inputs 21 n with displayId := "DEL2" })]

/-- Both trips are waiting to be accepted with the same order. -/
theorem received_order_on_two_trips : Planned Sample.db ∧
    ¬ OneTrip (Machine.run (serve Sample.config) Sample.db plannedTwice) := by
  refine ⟨planned_of_no_joins rfl, fun h => ?_⟩
  have htwenty : On (Machine.run (serve Sample.config) Sample.db plannedTwice) 10 20 := by
    decide +kernel
  have hother : On (Machine.run (serve Sample.config) Sample.db plannedTwice) 10 21 := by
    decide +kernel
  exact absurd (h 10 20 21 htwenty hother) (by decide)

end TsaBackend.Trips
