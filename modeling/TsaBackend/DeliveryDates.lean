import TsaBackend.Registration
import TsaBackend.TripWrites

/-!
The delivery dates of orders, over runs of creations, edits and delays.

Students' dates are converted to seconds, an administrator's date and the timeslot of a delay are
stored as they are. A date that cannot be read converts to `NaN`, which no comparison is later than.
-/

namespace TsaBackend.DeliveryDates

open Call OrderEffects OrderWrites Registration Trips

variable {cfg : Config} {dto : CreateOrderDto} {user : GetUserType} {s t : DB} {id : Id}
  {o row : Order} {d : String}

/-- The decimal numeral of a whole number of seconds. -/
def Timestamp (d : String) : Prop := ∃ n : ℤ, d = toString n

/-- The date of the order is a timestamp, if it has one. -/
def Dated (o : Order) : Prop := ∀ d, o.deliveryDate = some d → Timestamp d

lemma toString_inj {n m : ℤ} (h : toString n = toString m) : n = m := Int.repr_injective h

lemma Timestamp.head {c : Char} (h : Timestamp d) (hc : d.toList.head? = some c) :
    c.isDigit = true ∨ c = '-' := by
  obtain ⟨n, rfl⟩ := h
  rw [show toString n = n.repr from rfl, Int.repr_eq_if] at hc
  split at hc
  · rw [Nat.toList_repr] at hc
    exact .inl (Nat.isDigit_of_mem_toDigits (by omega) (by omega) (List.mem_of_mem_head? hc))
  · simp only [String.toList_append, List.head?_append] at hc
    exact .inr (Option.some.inj hc).symm

lemma not_timestamp_nan : ¬ Timestamp "NaN" := fun h =>
  absurd (h.head (c := 'N') (by decide +kernel)) (by decide)

/-- The date of a body is `null`, or a text or another value that a time can be read in. -/
def Readable (cfg : Config) : Field String → Prop
  | .null => True
  | .val d => (cfg.getTime d).isSome
  | .other _ time => time.isSome
  | _ => False

lemma timestamp_convert {deliveryDate : Field String} :
    Timestamp (convertToUnixTimestamp cfg deliveryDate) ↔ Readable cfg deliveryDate := by
  cases deliveryDate with
  | undefined | op | filter => exact iff_of_false not_timestamp_nan id
  | null => exact iff_of_true ⟨_, rfl⟩ trivial
  | val d =>
    unfold convertToUnixTimestamp
    rcases h : cfg.getTime d with _ | ms
    · exact iff_of_false (by simpa [h] using not_timestamp_nan) (by simp [Readable, h])
    · exact iff_of_true ⟨ms / 1000, by simp [h]⟩ (by simp [Readable, h])
  | other n time =>
    rcases time with _ | ms
    · exact iff_of_false not_timestamp_nan (by simp [Readable])
    · exact iff_of_true ⟨ms / 1000, rfl⟩ rfl

lemma dated_setStatus (o : Order) (status : OrderStatus) (finishedImage receivedImage : Arg String) :
    Dated (setStatus status finishedImage receivedImage o) ↔ Dated o := Iff.rfl

lemma dated_of_date (h : o.deliveryDate = some d) : Dated o ↔ Timestamp d := by
  simp [Dated, h]

lemma dated_claim : Dated (claim cfg dto user o) ↔ Readable cfg dto.deliveryDate :=
  (dated_of_date rfl).trans timestamp_convert

lemma dated_editInfo : Dated (editInfo cfg dto o) ↔ Readable cfg dto.deliveryDate :=
  (dated_of_date rfl).trans timestamp_convert

lemma dated_studentRow (h : studentRow cfg dto user = .ok row) :
    Dated row ↔ Readable cfg dto.deliveryDate := by
  refine Iff.trans (dated_of_date ?_) timestamp_convert
  obtain ⟨_, _, _, rfl⟩ := CreateOrderDto.create_ok h
  rfl

lemma dated_adminRow (h : adminRow dto = .ok row) :
    Dated row ↔ ∀ d, dto.deliveryDate = .val d → Timestamp d := by
  obtain ⟨hcreates, _, _, rfl⟩ := CreateOrderDto.create_ok h
  simp only [CreateOrderDto.creates, Bool.and_eq_true] at hcreates
  have hdate : dto.deliveryDate.creates true = true := by tauto
  rw [Dated, (Field.of_creates hdate).2.2.2]
  cases hd : dto.deliveryDate with
  | undefined | null | val => simp [Field.arg, Arg.toOption]
  | op | filter | other =>
    rw [hd] at hdate
    cases hdate

/-- A delay of an order. -/
def delayed (dto : DelayOrdersDto) (o : Order) : Order :=
  { o with deliveryDate := some dto.timeslot }

/-- The orders can be delayed: each id has one, none is underway, and none is seen to be later. -/
structure Delays (cfg : Config) (s : DB) (dto : DelayOrdersDto) : Prop where
  exist : (s.ordersIn dto.orderIds).length = dto.orderIds.length
  free : ∀ e ∈ s.ordersIn dto.orderIds, e.2.2 = true → e.2.1.latestStatus = some .canceled
  later : ∀ e ∈ s.ordersIn dto.orderIds, laterThan cfg e.2.1.deliveryDate dto.timeslot = false

/-- **A delay writes the timeslot into each of the orders, or changes nothing.** -/
lemma delayOrders_exact {dto : DelayOrdersDto} : Ends (delayOrders cfg dto) s fun t =>
    Delays cfg s dto ∧ s.updateOrders ((s.ordersIn dto.orderIds).map (·.1)) (delayed dto) = .ok t ∨
      ¬ Delays cfg s dto ∧ t = s := by
  refine ends_of_wp ?_
  unfold delayOrders
  rw [wp_bind, wp_read]
  refine fun _ _ => ⟨trivial, ?_⟩
  rw [wp_throwIf_bind]
  refine ⟨fun h => .inr ⟨fun hd => h hd.exist, rfl⟩, fun hexist => ?_⟩
  rw [wp_throwIf_bind]
  refine ⟨fun h => .inr ⟨fun hd => ?_, rfl⟩, fun hfree => ?_⟩
  · obtain ⟨e, he, hp⟩ := List.any_eq_true.mp h
    simp only [Bool.and_eq_true, decide_eq_true_eq] at hp
    exact hp.2 (hd.free e he hp.1)
  rw [wp_throwIf_bind]
  refine ⟨fun h => .inr ⟨fun hd => ?_, rfl⟩, fun hlater => ?_⟩
  · obtain ⟨e, he, hp⟩ := List.any_eq_true.mp h
    rw [hd.later e he] at hp
    cases hp
  have hdelays : Delays cfg s dto := by
    refine ⟨not_not.mp hexist, fun e he hin => ?_, fun e he => ?_⟩
    · by_contra hst
      exact hfree (List.any_eq_true.mpr ⟨e, he, by simp [hin, hst]⟩)
    · by_contra hl
      exact hlater (List.any_eq_true.mpr ⟨e, he, by simpa using hl⟩)
  have hmem : ∀ j ∈ (s.ordersIn dto.orderIds).map (·.1), j ∈ s.orders :=
    fun j hj => (mem_ordersIn.mp hj).1
  obtain ⟨t, ht⟩ := updateOrders_eq (f := delayed dto) hmem (fun _ => .kept) (fun _ => rfl)
    fun _ => .inl rfl
  rw [wp_bind]
  exact wp_execute_of_ok fun i _ => ⟨t, ht, trivial, .inl ⟨hdelays, ht⟩⟩

/-- No order that has a numeric date before and after has an earlier one after. -/
def NotEarlier (s t : DB) : Prop :=
  ∀ id o o' (n m : ℤ), s.orders.lookup id = some o → t.orders.lookup id = some o' →
    o.deliveryDate = some (toString n) → o'.deliveryDate = some (toString m) → n ≤ m

lemma notEarlier_refl (s : DB) : NotEarlier s s := by
  intro id o o' n m ho ho' hn hm
  obtain rfl := Option.some.inj (ho.symm.trans ho')
  exact (toString_inj (Option.some.inj (hn.symm.trans hm))).le

/-- A date after the timeslot is seen to be later. -/
def SeenLater (cfg : Config) (date : Option String) (timeslot : String) : Prop :=
  ∀ n m : ℤ, date = some (toString n) → timeslot = toString m → m < n →
    laterThan cfg date timeslot = true

lemma seenLater_of_exact {n m : ℤ} (hn : cfg.toNumber (toString n) = some (n : ℚ))
    (hm : cfg.toNumber (toString m) = some (m : ℚ)) :
    SeenLater cfg (some (toString n)) (toString m) := by
  intro n' m' hn' hm' hlt
  obtain rfl := toString_inj (Option.some.inj hn')
  obtain rfl := toString_inj hm'
  rw [laterThan, hn, hm]
  simp [hlt]

/-- The timeslot of a delay is a timestamp, and later dates are seen. -/
def KeepsOrder (cfg : Config) (s : DB) (dto : DelayOrdersDto) : Prop :=
  (dto.orderIds ≠ [] → Timestamp dto.timeslot) ∧
    ∀ e ∈ s.ordersIn dto.orderIds, SeenLater cfg e.2.1.deliveryDate dto.timeslot

lemma ordersIn_mem {ids : List Id} {e : Id × Order × Bool} (he : e ∈ s.ordersIn ids) :
    s.orders.lookup e.1 = some e.2.1 ∧ e.1 ∈ (s.ordersIn ids).map (·.1) := by
  exact ⟨(mem_ordersIn_iff.mp he).2.1, List.mem_map_of_mem he⟩

lemma exists_ordersIn {ids : List Id} (ho : s.orders.lookup id = some o)
    (hid : id ∈ (s.ordersIn ids).map (·.1)) : ∃ e ∈ s.ordersIn ids, e.2.1 = o := by
  obtain ⟨e, he, rfl⟩ := List.mem_map.mp hid
  exact ⟨e, he, Option.some.inj ((ordersIn_mem he).1.symm.trans ho)⟩

lemma delayed_iff {dto : DelayOrdersDto} (hs : Every Dated s) (hd : Delays cfg s dto)
    (ht : s.updateOrders ((s.ordersIn dto.orderIds).map (·.1)) (delayed dto) = .ok t) :
    Every Dated t ∧ NotEarlier s t ↔ KeepsOrder cfg s dto := by
  have hlookup := updateOrders_lookup ht fun _ => rfl
  have hself : ∀ e ∈ s.ordersIn dto.orderIds,
      t.orders.lookup e.1 = some (delayed dto e.2.1) := by
    intro e he
    rw [hlookup, if_pos (ordersIn_mem he).2, (ordersIn_mem he).1]
    rfl
  constructor
  · rintro ⟨hdated, hearlier⟩
    refine ⟨fun hne => ?_, fun e he n m hn hm hlt => ?_⟩
    · have hlen := hd.exist
      rcases hids : s.ordersIn dto.orderIds with _ | ⟨e, es⟩
      · rw [hids] at hlen
        exact absurd (List.length_eq_zero_iff.mp hlen.symm) hne
      · exact hdated e.1 _ (hself e (by simp [hids])) _ rfl
    · have hle := hearlier e.1 _ _ n m (ordersIn_mem he).1 (hself e he) hn (by simp [delayed, hm])
      omega
  · rintro ⟨htimeslot, hseen⟩
    refine ⟨fun j o ho => ?_, fun j o o' n m ho ho' hn hm => ?_⟩
    · rw [hlookup] at ho
      split at ho
      · next hj =>
        obtain ⟨r, hr, rfl⟩ := Option.map_eq_some_iff.mp ho
        refine (dated_of_date rfl).mpr (htimeslot ?_)
        exact List.ne_nil_of_mem (mem_ordersIn.mp hj).2
      · exact hs j o ho
    · rw [hlookup] at ho'
      split at ho'
      · next hj =>
        rw [ho] at ho'
        cases ho'
        obtain ⟨e, he, rfl⟩ := exists_ordersIn ho hj
        have hslot : dto.timeslot = toString m := Option.some.inj hm
        by_contra hle
        have hlater := hseen e he n m hn hslot (by omega)
        rw [hd.later e he] at hlater
        cases hlater
      · exact notEarlier_refl s j o o' n m ho ho' hn hm

/-! ### Runs -/

/-- The requests that write dates. -/
def Dating : Request → Prop
  | .createOrder _ _ | .updateOrderInfo _ _ _ | .delayOrders _ => True
  | _ => False

/-- All dates are timestamps after the request, and a delay has made none earlier. -/
def DatesKept (s t : DB) : Request → Prop
  | .delayOrders _ => Every Dated t ∧ NotEarlier s t
  | _ => Every Dated t

/-- Dates that are converted can be read, dates that are copied are timestamps, and a delay sees
which dates are later. -/
def KeepsDates (cfg : Config) (s : DB) : Request → Prop
  | .createOrder dto user =>
    (∀ id o, Claims cfg s dto user id o → Readable cfg dto.deliveryDate) ∧
      (∀ row, Inserts cfg s dto user row → Readable cfg dto.deliveryDate) ∧
      ∀ row, AdminInserts s dto user row → ∀ d, dto.deliveryDate = .val d → Timestamp d
  | .updateOrderInfo id dto _ => ∀ o, Edits cfg s id dto o → Readable cfg dto.deliveryDate
  | .delayOrders dto => Delays cfg s dto → KeepsOrder cfg s dto
  | _ => True

/-- **When a request keeps the dates.** -/
lemma dates_iff {r : Request} (hr : Dating r) (hs : Every Dated s) :
    Ends (r.call cfg) s (fun t => DatesKept s t r) ↔ KeepsDates cfg s r := by
  cases r with
  | createOrder dto user =>
    refine ends_drop.trans ((createOrder_every_iff dated_setStatus hs).trans ?_)
    refine and_congr ?_ (and_congr ?_ ?_)
    · exact forall₃_congr fun id o h => dated_claim
    · exact forall₂_congr fun row h => dated_studentRow h.made
    · exact forall₂_congr fun row h => dated_adminRow h.made
  | updateOrderInfo id dto user =>
    refine ends_drop.trans ((updateOrderInfo_every_iff hs).trans ?_)
    exact forall₂_congr fun o h => dated_editInfo
  | delayOrders dto =>
    refine ends_drop.trans ⟨fun h hd => ?_, fun h => delayOrders_exact.mono fun t ht => ?_⟩
    · obtain ⟨t, ht, hkept⟩ := delayOrders_exact.meet h
      rcases ht with ⟨-, ht⟩ | ⟨hno, -⟩
      · exact (delayed_iff hs hd ht).mp hkept
      · exact absurd hd hno
    · rcases ht with ⟨hd, ht⟩ | ⟨-, rfl⟩
      · exact (delayed_iff hs hd ht).mpr (h hd)
      · exact ⟨hs, notEarlier_refl t⟩
  | _ => exact hr.elim

/-- **When delivery dates are timestamps**: in a run of creations, edits and delays, from tables
where they are, they are in every state and delays move them on when each request keeps the dates,
and in just these runs they do after each request. -/
theorem dates_are_timestamps (cfg : Config) (s : DB) (hs : Every Dated s)
    (ls : List (Request × (ℕ → Input))) (hls : ∀ l ∈ ls, Dating l.1) :
    (Machine.Along (serve cfg) (fun s l => KeepsDates cfg s l.1) s ls →
      Every Dated (Machine.run (serve cfg) s ls)) ∧
    (Machine.Along (serve cfg)
        (fun s l => Ends (l.1.call cfg) s fun t => DatesKept s t l.1) s ls ↔
      Machine.Along (serve cfg) (fun s l => KeepsDates cfg s l.1) s ls) := by
  refine Machine.inv_along_iff (Every Dated) (fun s l hends => ?_)
    (fun _ l hl hs => dates_iff (hls l hl) hs) hs
  have hkept : DatesKept s (serve cfg s l) l.1 := hends l.2
  unfold DatesKept at hkept
  split at hkept
  · exact hkept.1
  · exact hkept

/-- Two days, as dates and as seconds. -/
def sampleConfig : Config :=
  { Sample.config with
    getTime := fun d => if d = "2024-05-01" then some 1714521600000 else none
    toNumber := fun d =>
      if d = "1714521600" then some 1714521600
      else if d = "1714608000" then some 1714608000
      else none }

/-- A parcel for one day, delayed to the next. -/
def delayedParcel : List (Request × (ℕ → Input)) :=
  [(.createOrder { Sample.body with deliveryDate := .val "2024-05-01" } Sample.student,
      Sample.inputs 10),
   (.delayOrders ⟨"1714608000", [10]⟩, Sample.inputs 0)]

theorem dates_are_timestamps_delayedParcel :
    let t := Machine.run (serve sampleConfig) Sample.db delayedParcel
    (t.orders.lookup 10).map (·.deliveryDate) = some (some "1714608000") ∧ Every Dated t := by
  have hreadable : Readable sampleConfig (.val "2024-05-01") := by
    change (sampleConfig.getTime "2024-05-01").isSome = true
    decide +kernel
  have hday : "1714521600" = toString (1714521600 : ℤ) := by decide +kernel
  have hslot : "1714608000" = toString (1714608000 : ℤ) := by decide +kernel
  have hseen : SeenLater sampleConfig (some "1714521600") "1714608000" := by
    rw [hday, hslot]
    exact seenLater_of_exact (by decide +kernel) (by decide +kernel)
  refine ⟨by decide +kernel, (dates_are_timestamps sampleConfig Sample.db (every_of_no_orders rfl)
    delayedParcel ?_).1 ?_⟩
  · simp [delayedParcel, Dating]
  · refine ⟨⟨fun id o h => hreadable, fun row h => hreadable, fun row h => ?_⟩, fun _ => ⟨?_, ?_⟩,
      trivial⟩
    · cases h.role
    · exact fun _ => ⟨1714608000, hslot⟩
    · have hdates : ∀ e ∈ (Machine.run (serve sampleConfig) Sample.db
          (delayedParcel.take 1)).ordersIn [10], e.2.1.deliveryDate = some "1714521600" := by
        decide +kernel
      intro e he
      rw [hdates e he]
      exact hseen

/-- A parcel without a date. -/
def undatedParcel : List (Request × (ℕ → Input)) :=
  [(.createOrder Sample.body Sample.student, Sample.inputs 10)]

/-- A parcel for a day, delayed to a word. -/
def wordyDelay : List (Request × (ℕ → Input)) :=
  [(.createOrder { Sample.body with deliveryDate := .val "2024-05-01" } Sample.student,
      Sample.inputs 10),
   (.delayOrders ⟨"tomorrow", [10]⟩, Sample.inputs 0)]

lemma timestamp_of_every (j : Id) (h : Every Dated s)
    (hd : (s.orders.lookup j).map (·.deliveryDate) = some (some d)) : Timestamp d := by
  obtain ⟨o, ho, hdate⟩ := Option.map_eq_some_iff.mp hd
  exact h j o ho d hdate

theorem undated_parcels :
    (∀ l ∈ undatedParcel ++ wordyDelay, Dating l.1) ∧ Every Dated Sample.db ∧
    ¬ Every Dated (Machine.run (serve sampleConfig) Sample.db undatedParcel) ∧
    ¬ Every Dated (Machine.run (serve sampleConfig) Sample.db wordyDelay) := by
  refine ⟨by simp [undatedParcel, wordyDelay, Dating], every_of_no_orders rfl, fun h => ?_,
    fun h => ?_⟩
  · exact not_timestamp_nan (timestamp_of_every 10 h (by decide +kernel))
  · have hword : Timestamp "tomorrow" := timestamp_of_every 10 h (by decide +kernel)
    exact absurd (hword.head (c := 't') (by decide +kernel)) (by decide)

end TsaBackend.DeliveryDates
