import TsaBackend.OrderStats

/-!
The statistics of staff by local day.

In one century the text of a date gives the date back, so that the entries are days, and the
comparison that reads the texts compares days.
-/

namespace TsaBackend.StaffStats

open Call Calendar Numerals

variable {cfg : StatsConfig} {orders : List Order} {deliveries : List Delivery} {d e : CivilDate}

/-- The local day of an order. -/
def orderDay (cfg : StatsConfig) (o : Order) : Option CivilDate :=
  cfg.localDate (deliveryTime cfg o)

/-- The local day of a delivery. -/
def deliveryDay (cfg : StatsConfig) (d : Delivery) : Option CivilDate :=
  cfg.localDate (creationTime cfg d)

/-- `Number` reads numerals of two digits. -/
def ReadsNumerals (cfg : StatsConfig) : Prop :=
  ∀ n : ℕ, n < 100 → cfg.toNumber (toString n) = some (n : ℚ)

/-- A day of the century that some instant has. -/
structure Occurs (cfg : StatsConfig) (d : CivilDate) : Prop where
  low : 2000 ≤ d.year
  high : d.year ≤ 2099
  at_some : ∃ ms, cfg.zone.dateOf ms = some d

/-- The rows have a local day of this century. -/
structure Dated (cfg : StatsConfig) (orders : List Order) (deliveries : List Delivery) : Prop where
  orders : ∀ o ∈ orders, ∃ d, orderDay cfg o = some d ∧ 2000 ≤ d.year ∧ d.year ≤ 2099
  deliveries : ∀ e ∈ deliveries, ∃ d, deliveryDay cfg e = some d ∧ 2000 ≤ d.year ∧ d.year ≤ 2099

lemma occurs_of_localDate {t : Option ℚ} (h : cfg.localDate t = some d) (hl : 2000 ≤ d.year)
    (hh : d.year ≤ 2099) : Occurs cfg d := by
  obtain ⟨q, -, hq⟩ := Option.bind_eq_some_iff.mp h
  exact ⟨hl, hh, _, hq⟩

lemma truncate_intCast (n : ℤ) : truncate n = n := by
  unfold truncate
  split <;> simp

lemma slash_notMem_digits (n : ℕ) : '/' ∉ Nat.toDigits 10 n := fun h =>
  absurd (digits_toDigits n '/' h) (by decide)

lemma splitOn_periodOf (h : Occurs cfg d) : (periodOf d).toList.splitOn '/' =
    [Nat.toDigits 10 d.day, Nat.toDigits 10 d.month, Nat.toDigits 10 (d.year - 2000).toNat] := by
  have hlow := h.low
  have hhigh := h.high
  have hyear : d.year.tmod 100 = ((d.year - 2000).toNat : ℤ) := by
    rw [Int.tmod_eq_emod_of_nonneg (by omega)]
    omega
  have htext : ∀ n : ℕ, (toString n).toList = Nat.toDigits 10 n := fun n => Nat.toList_repr
  have hint : toString ((d.year - 2000).toNat : ℤ) = toString (d.year - 2000).toNat :=
    toString_of_nonneg (Int.natCast_nonneg _)
  have hparts : (periodOf d).toList = ['/'].intercalate [Nat.toDigits 10 d.day,
      Nat.toDigits 10 d.month, Nat.toDigits 10 (d.year - 2000).toNat] := by
    unfold periodOf
    rw [hyear, hint]
    simp only [String.toList_append, htext]
    simp [List.intercalate, List.intersperse]
  rw [hparts, List.splitOn_intercalate]
  · intro l hl
    simp only [List.mem_cons, List.not_mem_nil, or_false] at hl
    rcases hl with rfl | rfl | rfl <;> exact slash_notMem_digits _
  · simp

lemma timeOfPeriod_periodOf (hcfg : ReadsNumerals cfg) (h : Occurs cfg d) :
    ∃ ms, timeOfPeriod cfg (periodOf d) = some ms ∧ cfg.zone.dateOf ms = some d := by
  obtain ⟨hlow, hhigh, at_ms, hms⟩ := h
  have hlengths : ∀ l : Bool, ∀ m < 13, daysInMonth l m < 100 := by decide
  have hday : d.day < 100 := lt_of_le_of_lt d.day_le (hlengths _ _ (Nat.lt_succ_of_le d.month_le))
  have hmonth : d.month < 100 := lt_of_le_of_lt d.month_le (by decide)
  have hread : ∀ n : ℕ, n < 100 → cfg.toNumber (String.ofList (Nat.toDigits 10 n)) = some (n : ℚ) :=
    hcfg
  obtain ⟨start, hstart, hdate⟩ := cfg.zone.dateOf_startOf hms (by omega) (by omega)
  refine ⟨start, ?_, hdate⟩
  unfold timeOfPeriod
  rw [splitOn_periodOf ⟨hlow, hhigh, at_ms, hms⟩]
  simp only [List.map_cons, List.map_nil, hread _ hday, hread _ hmonth,
    hread (d.year - 2000).toNat (by omega)]
  -- the numbers are whole, so that nothing is cut off
  have hy : truncate (2000 + ((d.year - 2000).toNat : ℚ)) = d.year := by
    have hcast : 2000 + ((d.year - 2000).toNat : ℚ) = (d.year : ℚ) := by
      have : (((d.year - 2000).toNat : ℤ) : ℚ) = ((d.year - 2000 : ℤ) : ℚ) := by
        congr 1
        omega
      push_cast at this
      rw [this]
      ring
    rw [hcast, truncate_intCast]
  have hm : truncate ((d.month : ℚ) - 1) + 1 = d.month := by
    have hcast : (d.month : ℚ) - 1 = (((d.month : ℤ) - 1 : ℤ) : ℚ) := by push_cast; ring
    rw [hcast, truncate_intCast]
    omega
  have hd : truncate (d.day : ℚ) = d.day := truncate_intCast d.day
  rw [hy, hm, hd, hstart]

lemma periodOf_injective (hcfg : ReadsNumerals cfg) (hd : Occurs cfg d) (he : Occurs cfg e)
    (h : periodOf d = periodOf e) : d = e := by
  obtain ⟨x, hx, hxd⟩ := timeOfPeriod_periodOf hcfg hd
  obtain ⟨y, hy, hye⟩ := timeOfPeriod_periodOf hcfg he
  rw [h, hy] at hx
  cases hx
  exact Option.some.inj (hxd.symm.trans hye)

lemma comesFirst_iff (hcfg : ReadsNumerals cfg) (hd : Occurs cfg d) (he : Occurs cfg e) :
    comesFirst cfg (periodOf d) (periodOf e) ↔ d ≤ e := by
  obtain ⟨x, hx, hxd⟩ := timeOfPeriod_periodOf hcfg hd
  obtain ⟨y, hy, hye⟩ := timeOfPeriod_periodOf hcfg he
  unfold comesFirst
  rw [hx, hy]
  constructor
  · exact fun h => cfg.zone.mono h hxd hye
  · intro hle
    by_contra hlt
    have hge := cfg.zone.mono (le_of_lt (not_le.mp hlt)) hye hxd
    obtain rfl := le_antisymm hle hge
    rw [hx] at hy
    cases hy
    exact hlt le_rfl

lemma period_eq_iff {t : Option ℚ} {f : CivilDate} (hcfg : ReadsNumerals cfg)
    (ht : cfg.localDate t = some f) (hf : Occurs cfg f) (hd : Occurs cfg d) :
    getDateFromUnixTimestamp cfg t = periodOf d ↔ cfg.localDate t = some d := by
  unfold getDateFromUnixTimestamp
  rw [ht]
  constructor
  · exact fun h => congrArg some (periodOf_injective hcfg hf hd h)
  · intro h
    cases h
    rfl

/-- The entry of a day: its orders, their fees, its deliveries. -/
def dayEntry (cfg : StatsConfig) (orders : List Order) (deliveries : List Delivery)
    (d : CivilDate) : PeriodStats where
  period := periodOf d
  orderCount := (orders.filter fun o => orderDay cfg o = some d).length
  totalShippingFee := ((orders.filter fun o => orderDay cfg o = some d).map
    fun o => o.shippingFee.getD 0).sum
  deliveryCount := (deliveries.filter fun e => deliveryDay cfg e = some d).length

lemma foldl_addOrder (l : List Order) (s : DayStats) :
    l.foldl (fun s o => DayStats.addOrder o s) s =
      { s with
        orderCount := s.orderCount + l.length
        totalShippingFee := s.totalShippingFee + (l.map fun o => o.shippingFee.getD 0).sum } := by
  induction l generalizing s with
  | nil => simp
  | cons o l ih =>
    rw [List.foldl_cons, ih]
    simp only [DayStats.addOrder, List.length_cons, List.map_cons, List.sum_cons]
    congr 1
    · omega
    · ring

lemma foldl_addDelivery (l : List Delivery) (s : DayStats) :
    l.foldl (fun s d => DayStats.addDelivery d s) s =
      { s with deliveryCount := s.deliveryCount + l.length } := by
  induction l generalizing s with
  | nil => simp
  | cons d l ih =>
    rw [List.foldl_cons, ih]
    simp only [DayStats.addDelivery, List.length_cons]
    congr 1
    omega

/-- **The object holds the entry of each day.** -/
lemma value_groupedByDay (hcfg : ReadsNumerals cfg) (h : Dated cfg orders deliveries)
    (hd : Occurs cfg d) :
    ({ Grouping.value .zero (periodOf d) (groupedByDay cfg orders deliveries) with
      period := periodOf d } : PeriodStats) = dayEntry cfg orders deliveries d := by
  have horders : (orders.filter fun o =>
      getDateFromUnixTimestamp cfg (deliveryTime cfg o) = periodOf d) =
      orders.filter fun o => orderDay cfg o = some d := by
    refine List.filter_congr fun o ho => ?_
    obtain ⟨f, hf, hlow, hhigh⟩ := h.orders o ho
    rw [decide_eq_decide]
    exact period_eq_iff hcfg hf (occurs_of_localDate hf hlow hhigh) hd
  have hdeliveries : (deliveries.filter fun e =>
      getDateFromUnixTimestamp cfg (creationTime cfg e) = periodOf d) =
      deliveries.filter fun e => deliveryDay cfg e = some d := by
    refine List.filter_congr fun e he => ?_
    obtain ⟨f, hf, hlow, hhigh⟩ := h.deliveries e he
    rw [decide_eq_decide]
    exact period_eq_iff hcfg hf (occurs_of_localDate hf hlow hhigh) hd
  unfold groupedByDay
  rw [Grouping.value_collect, Grouping.value_collect, horders, hdeliveries, foldl_addOrder,
    foldl_addDelivery]
  simp [Grouping.value, DayStats.zero, dayEntry]

/-- The keys of the object are the texts of the days of the rows. -/
lemma mem_keys_groupedByDay (h : Dated cfg orders deliveries) (period : String) :
    period ∈ Grouping.keys (groupedByDay cfg orders deliveries) ↔
      ∃ d, ((∃ o ∈ orders, orderDay cfg o = some d) ∨ ∃ e ∈ deliveries, deliveryDay cfg e = some d)
        ∧ Occurs cfg d ∧ periodOf d = period := by
  unfold groupedByDay
  rw [Grouping.mem_keys_collect, Grouping.mem_keys_collect]
  constructor
  · rintro ((hnil | ⟨o, ho, hperiod⟩) | ⟨e, he, hperiod⟩)
    · simp [Grouping.keys] at hnil
    · obtain ⟨d, hd, hlow, hhigh⟩ := h.orders o ho
      refine ⟨d, .inl ⟨o, ho, hd⟩, occurs_of_localDate hd hlow hhigh, ?_⟩
      rw [← hperiod, getDateFromUnixTimestamp, show cfg.localDate _ = some d from hd]
    · obtain ⟨d, hd, hlow, hhigh⟩ := h.deliveries e he
      refine ⟨d, .inr ⟨e, he, hd⟩, occurs_of_localDate hd hlow hhigh, ?_⟩
      rw [← hperiod, getDateFromUnixTimestamp, show cfg.localDate _ = some d from hd]
  · rintro ⟨d, hrow, -, rfl⟩
    rcases hrow with ⟨o, ho, hd⟩ | ⟨e, he, hd⟩
    · refine .inl (.inr ⟨o, ho, ?_⟩)
      rw [getDateFromUnixTimestamp, show cfg.localDate _ = some d from hd]
    · refine .inr ⟨e, he, ?_⟩
      rw [getDateFromUnixTimestamp, show cfg.localDate _ = some d from hd]

/-! ### The result -/

/-- A statistic is one of the days: an entry for each day that has a row, from the first to the
last, with the numbers of the rows of that day, so that they add up to the totals. -/
structure ByDay (cfg : StatsConfig) (orders : List Order) (deliveries : List Delivery)
    (a : StaffOrdersStatsDto) : Prop where
  days : ∃ days : List CivilDate, days.Pairwise (· < ·) ∧
    (∀ d, d ∈ days ↔ (∃ o ∈ orders, orderDay cfg o = some d) ∨
      ∃ e ∈ deliveries, deliveryDay cfg e = some d) ∧
    a.resultByDay = days.map (dayEntry cfg orders deliveries)
  periods : (a.resultByDay.map (·.period)).Nodup
  totalOrders : a.totalOrders = orders.length ∧
    (a.resultByDay.map (·.orderCount)).sum = a.totalOrders
  totalShippingFee : a.totalShippingFee = (orders.map fun o => o.shippingFee.getD 0).sum ∧
    (a.resultByDay.map (·.totalShippingFee)).sum = a.totalShippingFee
  deliveries : (a.resultByDay.map (·.deliveryCount)).sum = deliveries.length

lemma exists_map_eq {α β : Type} {f : α → β} {P : α → Prop} {l : List β}
    (h : ∀ b ∈ l, ∃ a, P a ∧ f a = b) : ∃ l' : List α, (∀ a ∈ l', P a) ∧ l'.map f = l := by
  induction l with
  | nil => exact ⟨[], by simp, rfl⟩
  | cons b l ih =>
    obtain ⟨a, ha, rfl⟩ := h b List.mem_cons_self
    obtain ⟨l', hl', rfl⟩ := ih fun b hb => h b (List.mem_cons_of_mem _ hb)
    exact ⟨a :: l', List.forall_mem_cons.mpr ⟨ha, hl'⟩, rfl⟩

lemma exists_days (hcfg : ReadsNumerals cfg) (h : Dated cfg orders deliveries) :
    ∃ days : List CivilDate, days.Pairwise (· < ·) ∧
      (∀ d, d ∈ days ↔ (∃ o ∈ orders, orderDay cfg o = some d) ∨
        ∃ e ∈ deliveries, deliveryDay cfg e = some d) ∧ (∀ d ∈ days, Occurs cfg d) ∧
      (Grouping.keys (groupedByDay cfg orders deliveries)).insertionSort (comesFirst cfg) =
        days.map periodOf := by
  have hnodup : (Grouping.keys (groupedByDay cfg orders deliveries)).Nodup :=
    Grouping.nodup_collect (Grouping.nodup_collect List.nodup_nil)
  have hmem := mem_keys_groupedByDay h
  obtain ⟨days, hdays, hkeys⟩ := exists_map_eq (f := periodOf) (P := Occurs cfg)
    (l := Grouping.keys (groupedByDay cfg orders deliveries)) fun period hperiod => by
      obtain ⟨d, -, hocc, hd⟩ := (hmem period).mp hperiod
      exact ⟨d, hocc, hd⟩
  have hsort : (days.map periodOf).insertionSort (comesFirst cfg) =
      (days.insertionSort (· ≤ ·)).map periodOf :=
    (List.map_insertionSort _ _ periodOf days fun d hd e he =>
      (comesFirst_iff hcfg (hdays d hd) (hdays e he)).symm).symm
  have hperm := List.perm_insertionSort (· ≤ ·) days
  refine ⟨days.insertionSort (· ≤ ·), ?_, fun d => ?_, fun d hd => ?_, ?_⟩
  · have hdistinct : (days.insertionSort (· ≤ ·)).Nodup := by
      rw [hperm.nodup_iff]
      rw [← hkeys] at hnodup
      exact List.Nodup.of_map periodOf hnodup
    have hsorted := (List.pairwise_insertionSort (· ≤ ·) days).and hdistinct
    exact hsorted.imp fun hle => lt_of_le_of_ne hle.1 hle.2
  · rw [hperm.mem_iff]
    constructor
    · intro hd
      have hperiod := (hmem (periodOf d)).mp (hkeys ▸ List.mem_map_of_mem hd)
      obtain ⟨e, hrow, hocc, heq⟩ := hperiod
      obtain rfl := periodOf_injective hcfg hocc (hdays d hd) heq
      exact hrow
    · intro hrow
      have hocc : Occurs cfg d := by
        rcases hrow with ⟨o, ho, hd⟩ | ⟨e, he, hd⟩
        · obtain ⟨f, hf, hlow, hhigh⟩ := h.orders o ho
          cases hf.symm.trans hd
          exact occurs_of_localDate hd hlow hhigh
        · obtain ⟨f, hf, hlow, hhigh⟩ := h.deliveries e he
          cases hf.symm.trans hd
          exact occurs_of_localDate hd hlow hhigh
      have hperiod := (hmem (periodOf d)).mpr ⟨d, hrow, hocc, rfl⟩
      rw [← hkeys] at hperiod
      obtain ⟨e, he, heq⟩ := List.mem_map.mp hperiod
      obtain rfl := periodOf_injective hcfg (hdays e he) hocc heq
      exact he
  · exact hdays d (hperm.mem_iff.mp hd)
  · rw [← hkeys, hsort]

/-- The numbers of a row that counts for its day add up over the days. -/
lemma sum_over_days {α M : Type} [AddCommMonoid M] {days : List CivilDate} {rows : List α}
    {day : α → Option CivilDate} (w : α → M) (hdays : days.Nodup)
    (hrows : ∀ x ∈ rows, ∃ d ∈ days, day x = some d) :
    (days.map fun d => ((rows.filter fun x => day x = some d).map w).sum).sum =
      (rows.map w).sum := by
  have hks : (days.map some).Nodup := hdays.map (Option.some_injective _)
  have hsum := Grouping.sum_by_key day rows w hks fun x hx => by
    obtain ⟨d, hd, heq⟩ := hrows x hx
    exact heq ▸ List.mem_map_of_mem hd
  rw [← hsum, List.map_map]
  rfl

/-- **The statistics of lists of rows.** -/
theorem staffStats_byDay (hcfg : ReadsNumerals cfg) (h : Dated cfg orders deliveries) :
    ByDay cfg orders deliveries (staffStats cfg orders deliveries) := by
  obtain ⟨days, hsorted, hmem, hocc, hkeys⟩ := exists_days hcfg h
  have hresult : (staffStats cfg orders deliveries).resultByDay =
      days.map (dayEntry cfg orders deliveries) := by
    unfold staffStats
    dsimp only
    rw [hkeys, List.map_map]
    exact List.map_congr_left fun d hd => value_groupedByDay hcfg h (hocc d hd)
  have hnodup : days.Nodup := hsorted.imp ne_of_lt
  have horders : ∀ o ∈ orders, ∃ d ∈ days, orderDay cfg o = some d := by
    intro o ho
    obtain ⟨d, hd, -⟩ := h.orders o ho
    exact ⟨d, (hmem d).mpr (.inl ⟨o, ho, hd⟩), hd⟩
  have hdeliveries : ∀ e ∈ deliveries, ∃ d ∈ days, deliveryDay cfg e = some d := by
    intro e he
    obtain ⟨d, hd, -⟩ := h.deliveries e he
    exact ⟨d, (hmem d).mpr (.inr ⟨e, he, hd⟩), hd⟩
  have hfees : (staffStats cfg orders deliveries).totalShippingFee =
      (orders.map fun o => o.shippingFee.getD 0).sum := by
    unfold staffStats
    dsimp only
    rw [List.sum_eq_foldl, List.foldl_map]
  refine ⟨⟨days, hsorted, hmem, hresult⟩, ?_, ⟨rfl, ?_⟩, ⟨hfees, ?_⟩, ?_⟩
  · rw [hresult, List.map_map]
    refine hnodup.map_on fun d hd e he heq => ?_
    exact periodOf_injective hcfg (hocc d hd) (hocc e he) heq
  · have hsum := sum_over_days (fun _ : Order => 1) hnodup horders
    rw [hresult, List.map_map]
    simpa [dayEntry, staffStats, Function.comp_def] using hsum
  · rw [hfees, hresult, List.map_map]
    exact sum_over_days (fun o : Order => o.shippingFee.getD 0) hnodup horders
  · have hsum := sum_over_days (fun _ : Delivery => 1) hnodup hdeliveries
    rw [hresult, List.map_map]
    simpa [dayEntry, Function.comp_def] using hsum

lemma Dated.perm {orders' : List Order} {deliveries' : List Delivery}
    (ho : orders'.Perm orders) (hd : deliveries'.Perm deliveries)
    (h : Dated cfg orders deliveries) : Dated cfg orders' deliveries' where
  orders o hmem := h.orders o (ho.mem_iff.mp hmem)
  deliveries e hmem := h.deliveries e (hd.mem_iff.mp hmem)

/-- **Staff statistics are a partition by day**, for whatever rows the two queries return and in
whatever order, if their local days are in this century. -/
theorem staff_stats_byDay (cfg : StatsConfig) (type : String) (user : GetUserType) (s : DB)
    (ω : ℕ → Input) (back : ℤ) (hcfg : ReadsNumerals cfg) (htype : statsDays type = some back)
    (hrows : Dated cfg (s.deliveredOrders user.id ((ω 0).now - back * 24 * 60 * 60))
      (s.finishedDeliveries user.id ((ω 0).now - back * 24 * 60 * 60))) :
    ∃ a orders deliveries, (getOrdersStatsForStaff cfg type user).exec ω s = (.ok a, s) ∧
      orders.Perm (s.deliveredOrders user.id ((ω 0).now - back * 24 * 60 * 60)) ∧
      deliveries.Perm (s.finishedDeliveries user.id ((ω 0).now - back * 24 * 60 * 60)) ∧
      ByDay cfg orders deliveries a := by
  have ho := Table.anyOrder_perm (ω 1).pick
    (s.deliveredOrders user.id ((ω 0).now - back * 24 * 60 * 60))
  have hd := Table.anyOrder_perm (ω 2).pick
    (s.finishedDeliveries user.id ((ω 0).now - back * 24 * 60 * 60))
  refine ⟨_, _, _, ?_, ho, hd, staffStats_byDay hcfg (hrows.perm ho hd)⟩
  unfold getOrdersStatsForStaff input
  rw [exec_read_bind, htype]
  rfl

/-- A shipper's handed over parcel and finished trip, of two days in a zone east of UTC. -/
def busyShipper : DB := { Sample.db with
  orders := AList.insert 10 { Sample.order with
    shipperId := some 3, latestStatus := some .delivered, deliveryDate := some "1714521600" } ∅
  deliveries := AList.insert 20 ⟨"1714480000", some 3, 3600, .finished, 1, "DEL1"⟩ ∅ }

/-- Seven hours east of UTC, with numbers read digit by digit. -/
def sampleConfig : StatsConfig := { Sample.config with
  toNumber := fun text => (number text.toList).map (↑)
  zone := .fixed 25200000 (by decide)
  toPercentage := fun _ _ => "" }

lemma sampleConfig_readsNumerals : ReadsNumerals sampleConfig := by
  intro n _
  have hdigits : (Nat.toDigits 10 n).all Char.isDigit = true :=
    List.all_eq_true.mpr (digits_toDigits n)
  have htext : (toString n).toList = Nat.toDigits 10 n := Nat.toList_repr
  simp only [sampleConfig, htext, number, hdigits, if_true, value_toDigits, Option.map_some]

/-- A clock of the next day. -/
def nextDay (n : ℕ) : Input := { Sample.inputs 0 n with now := 1714608000 }

theorem staff_stats_busyShipper :
    ∃ a orders deliveries, (getOrdersStatsForStaff sampleConfig "week" Sample.staff).exec nextDay
        busyShipper = (.ok a, busyShipper) ∧
      orders.Perm (busyShipper.deliveredOrders 3 (1714608000 - 7 * 24 * 60 * 60)) ∧
      deliveries.Perm (busyShipper.finishedDeliveries 3 (1714608000 - 7 * 24 * 60 * 60)) ∧
      ByDay sampleConfig orders deliveries a := by
  have hdated : Dated sampleConfig
      (busyShipper.deliveredOrders 3 (1714608000 - 7 * 24 * 60 * 60))
      (busyShipper.finishedDeliveries 3 (1714608000 - 7 * 24 * 60 * 60)) := by
    have horders : ∀ o ∈ busyShipper.deliveredOrders 3 (1714608000 - 7 * 24 * 60 * 60),
        (orderDay sampleConfig o).any (fun d => 2000 ≤ d.year ∧ d.year ≤ 2099) = true := by
      decide +kernel
    have hdeliveries : ∀ e ∈ busyShipper.finishedDeliveries 3 (1714608000 - 7 * 24 * 60 * 60),
        (deliveryDay sampleConfig e).any (fun d => 2000 ≤ d.year ∧ d.year ≤ 2099) = true := by
      decide +kernel
    refine ⟨fun o ho => ?_, fun e he => ?_⟩
    · obtain ⟨d, hd, hyear⟩ := Option.any_eq_true _ _ |>.mp (horders o ho)
      exact ⟨d, hd, of_decide_eq_true hyear⟩
    · obtain ⟨d, hd, hyear⟩ := Option.any_eq_true _ _ |>.mp (hdeliveries e he)
      exact ⟨d, hd, of_decide_eq_true hyear⟩
  exact staff_stats_byDay sampleConfig "week" Sample.staff busyShipper nextDay 7
    sampleConfig_readsNumerals rfl hdated

end TsaBackend.StaffStats
