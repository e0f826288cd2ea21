import TsaBackend.OrderQueries

/-!
Which rows the date range of a list admits.

The bounds are compared as texts, and the upper one is the next midnight itself.
-/

namespace TsaBackend.DateRanges

open Call Calendar Numerals

variable {cfg : QueryConfig} {first last : Option CivilDate} {d : CivilDate} {t : ℤ}

/-- `new Date` reads the texts of dates as midnights in UTC. -/
def ReadsDates (cfg : QueryConfig) : Prop :=
  ∀ d : CivilDate, 0 ≤ d.year → d.year ≤ 10000 → cfg.getTime d.iso = some (d.toDay * msPerDay)

/-- A date whose text has four digits for the year. -/
def FourDigits (d : CivilDate) : Prop := 0 ≤ d.year ∧ d.year ≤ 9999

/-- The first second of a date in UTC. -/
def midnight (d : CivilDate) : ℤ := d.toDay * 86400

lemma setNextDate_eq (offset ms : ℤ) : setNextDate offset ms =
    if InRange (ms + msPerDay) then some (ms + msPerDay) else none := by
  have hday := toDay_ofDay ((ms + offset) / msPerDay)
  rw [CivilDate.toDay] at hday
  have hnew : makeDay (ofDay ((ms + offset) / msPerDay)).year
      (ofDay ((ms + offset) / msPerDay)).month (((ofDay ((ms + offset) / msPerDay)).day : ℤ) + 1) *
      msPerDay + (ms + offset) % msPerDay - offset = ms + msPerDay := by
    rw [makeDay_succ, hday]
    unfold msPerDay
    omega
  unfold setNextDate
  dsimp only
  rw [hnew]

lemma FourDigits.toDay_bounds (h : FourDigits d) : -719528 ≤ d.toDay ∧ d.toDay < 2932897 := by
  obtain ⟨hl, hr⟩ := d.toDay_bounds
  have hfrom := dayFromYear_mono h.1
  have hto := dayFromYear_mono (show d.year + 1 ≤ 10000 by have := h.2; omega)
  have hfirst : dayFromYear 0 = -719528 := by decide
  have hlast : dayFromYear 10000 = 2932897 := by decide
  omega

lemma nextDayText_iso (hcfg : ReadsDates cfg) (hd : FourDigits d) :
    nextDayText cfg d.iso = some (ofDay (d.toDay + 1)).iso := by
  have hbounds := hd.toDay_bounds
  have hrange : InRange (d.toDay * msPerDay + msPerDay) := by
    unfold InRange msPerDay
    omega
  have hdiv : (d.toDay * msPerDay + msPerDay) / msPerDay = d.toDay + 1 := by
    unfold msPerDay
    omega
  rw [nextDayText, hcfg d hd.1 (by have := hd.2; omega), Option.bind_some, setNextDate_eq,
    if_pos hrange, Option.map_some, toISODate, hdiv]

lemma convert_iso (hcfg : ReadsDates cfg) (hlow : 0 ≤ d.year) (hhigh : d.year ≤ 10000) :
    convertToUnixTimestamp cfg.toConfig (.val d.iso) = toString (midnight d) := by
  have hdiv : d.toDay * msPerDay / 1000 = midnight d := by
    unfold msPerDay midnight
    omega
  unfold convertToUnixTimestamp
  dsimp only
  rw [hcfg d hlow hhigh]
  dsimp only
  rw [hdiv]

lemma given_iso : given (some d.iso) = some d.iso := by
  have hne : d.iso ≠ "" := by
    intro h
    have hlist := congrArg String.toList h
    simp [CivilDate.iso] at hlist
  simp [given, Option.filter_some, hne]

/-- The bounds of a range of dates as texts. -/
def lower (first : Option CivilDate) : Option String := first.map fun d => toString (midnight d)

def upper (last : Option CivilDate) : Option String :=
  last.map fun d => toString (midnight d + 86400)

/-- **The filter of a range of dates.** -/
lemma dateFilter_eq (hcfg : ReadsDates cfg) (hfirst : ∀ d ∈ first, FourDigits d)
    (hlast : ∀ d ∈ last, FourDigits d) :
    dateFilter cfg (first.map CivilDate.iso) (last.map CivilDate.iso) =
      .ok (withinBounds (lower first) (upper last)) := by
  have hgte : (given (first.map CivilDate.iso)).map
      (fun d => convertToUnixTimestamp cfg.toConfig (.val d)) = lower first := by
    rcases first with _ | d
    · rfl
    · have hd := hfirst d rfl
      rw [Option.map_some, given_iso, Option.map_some,
        convert_iso hcfg hd.1 (by have := hd.2; omega)]
      rfl
  unfold dateFilter
  dsimp only
  rw [hgte]
  rcases last with _ | d
  · rfl
  · have hd := hlast d rfl
    obtain ⟨hl, hr⟩ := ofDay_succ_year d
    have hlow := hd.1
    have hhigh := hd.2
    have hnext : midnight (ofDay (d.toDay + 1)) = midnight d + 86400 := by
      unfold midnight
      rw [toDay_ofDay]
      ring
    rw [Option.map_some, given_iso]
    dsimp only
    rw [nextDayText_iso hcfg hd]
    dsimp only
    rw [convert_iso hcfg (by omega) (by omega), hnext]
    rfl

/-- The timestamp is in the range: from the first midnight on, and before the one after the last
date. -/
structure Within (first last : Option CivilDate) (t : ℤ) : Prop where
  ge : ∀ d ∈ first, midnight d ≤ t
  lt : ∀ d ∈ last, t < midnight d + 86400

/-- What the comparison of numerals admits. -/
structure Admitted (first last : Option CivilDate) (t : ℤ) : Prop where
  ge : ∀ d ∈ first, ¬ Before t (midnight d)
  le : ∀ d ∈ last, ¬ Before (midnight d + 86400) t

lemma withinBounds_iff : withinBounds (lower first) (upper last) (some (toString t)) = true ↔
    Admitted first last t := by
  have hbounds : withinBounds (lower first) (upper last) (some (toString t)) = true ↔
      (∀ d ∈ first, ¬ toString t < toString (midnight d)) ∧
        ∀ d ∈ last, ¬ toString (midnight d + 86400) < toString t := by
    rcases first with _ | d <;> rcases last with _ | e <;> simp [withinBounds, lower, upper]
  rw [hbounds]
  constructor
  · rintro ⟨hge, hle⟩
    exact ⟨fun d hd => by rw [← toString_lt_iff]; exact hge d hd,
      fun d hd => by rw [← toString_lt_iff]; exact hle d hd⟩
  · rintro ⟨hge, hle⟩
    exact ⟨fun d hd => by rw [toString_lt_iff]; exact hge d hd,
      fun d hd => by rw [toString_lt_iff]; exact hle d hd⟩

/-- The ways in which a row is counted wrongly: at the midnight after the last date; in the range,
with a numeral that stands outside its bounds; out of the range, with one that stands inside. -/
inductive Misfiltered (first last : Option CivilDate) (t : ℤ) : Prop
  | boundary {e : CivilDate} (he : last = some e) (ht : t = midnight e + 86400)
    (hge : ∀ d ∈ first, ¬ Before t (midnight d))
  | standsBelow {d : CivilDate} (hd : first = some d) (hbefore : Before t (midnight d))
    (hin : Within first last t)
  | standsAbove {e : CivilDate} (he : last = some e) (hbefore : Before (midnight e + 86400) t)
    (hin : Within first last t)
  | early {d : CivilDate} (hd : first = some d) (ht : t < midnight d)
    (hge : ¬ Before t (midnight d)) (hle : ∀ e ∈ last, ¬ Before (midnight e + 86400) t)
  | late {e : CivilDate} (he : last = some e) (ht : midnight e + 86400 < t)
    (hle : ¬ Before (midnight e + 86400) t) (hge : ∀ d ∈ first, ¬ Before t (midnight d))

lemma not_before_self (a : ℤ) : ¬ Before a a := by
  rw [← toString_lt_iff]
  exact lt_irrefl _

/-- Numerals and numbers disagree just in these ways. -/
theorem admitted_iff : (Admitted first last t ↔ Within first last t) ↔
    ¬ Misfiltered first last t := by
  constructor
  · rintro h (⟨he, rfl, hge⟩ | ⟨hd, hbefore, hin⟩ | ⟨he, hbefore, hin⟩ | ⟨hd, ht, hge, hle⟩ |
      ⟨he, ht, hle, hge⟩)
    · have hin := h.mp ⟨hge, fun e' he' => by
        cases he.symm.trans he'
        exact not_before_self _⟩
      exact lt_irrefl _ (hin.lt _ he)
    · exact (h.mpr hin).ge _ hd hbefore
    · exact (h.mpr hin).le _ he hbefore
    · have hin := h.mp ⟨fun d' hd' => by
        cases hd.symm.trans hd'
        exact hge, hle⟩
      exact absurd (hin.ge _ hd) (not_le.mpr ht)
    · have hin := h.mp ⟨hge, fun e' he' => by
        cases he.symm.trans he'
        exact hle⟩
      exact lt_asymm ht (hin.lt _ he)
  · intro h
    constructor
    · intro hadm
      refine ⟨fun d hd => ?_, fun e he => ?_⟩
      · by_contra ht
        exact h (.early hd (not_le.mp ht) (hadm.ge d hd) hadm.le)
      · by_contra ht
        rcases (not_lt.mp ht).lt_or_eq with hlt | heq
        · exact h (.late he hlt (hadm.le e he) hadm.ge)
        · exact h (.boundary he heq.symm hadm.ge)
    · intro hin
      refine ⟨fun d hd hbefore => ?_, fun e he hbefore => ?_⟩
      · exact h (.standsBelow hd hbefore hin)
      · exact h (.standsAbove he hbefore hin)

/-- The timestamp and the bounds are not negative and have one number of digits. -/
structure SameLength (first last : Option CivilDate) (t : ℤ) : Prop where
  nonneg : 0 ≤ t
  first : ∀ d ∈ first, 0 ≤ midnight d ∧ width (midnight d).natAbs = width t.natAbs
  last : ∀ d ∈ last, 0 ≤ midnight d ∧ width (midnight d + 86400).natAbs = width t.natAbs

/-- **With numerals of one length** only the midnight after the last date is counted wrongly. -/
theorem misfiltered_iff_boundary (h : SameLength first last t) :
    Misfiltered first last t ↔
      (∃ e, last = some e ∧ t = midnight e + 86400) ∧ ∀ d ∈ first, midnight d ≤ t := by
  have hfirst : ∀ d ∈ first, Before t (midnight d) ↔ t < midnight d := by
    intro d hd
    obtain ⟨hpos, hwidth⟩ := h.first d hd
    rw [← toString_lt_iff, toString_lt_of_width h.nonneg hpos hwidth.symm]
  have hlast : ∀ e ∈ last, Before (midnight e + 86400) t ↔ midnight e + 86400 < t := by
    intro e he
    obtain ⟨hpos, hwidth⟩ := h.last e he
    rw [← toString_lt_iff, toString_lt_of_width (by omega) h.nonneg hwidth]
  constructor
  · rintro (⟨he, ht, hge⟩ | ⟨hd, hbefore, hin⟩ | ⟨he, hbefore, hin⟩ | ⟨hd, ht, hge, hle⟩ |
      ⟨he, ht, hle, hge⟩)
    · exact ⟨⟨_, he, ht⟩, fun d hd => not_lt.mp fun hlt => hge d hd ((hfirst d hd).mpr hlt)⟩
    · exact absurd ((hfirst _ hd).mp hbefore) (not_lt.mpr (hin.ge _ hd))
    · exact absurd ((hlast _ he).mp hbefore) (lt_asymm (hin.lt _ he))
    · exact absurd ((hfirst _ hd).mpr ht) hge
    · exact absurd ((hlast _ he).mpr ht) hle
  · rintro ⟨⟨e, he, ht⟩, hge⟩
    exact .boundary he ht fun d hd hbefore => absurd ((hfirst d hd).mp hbefore)
      (not_lt.mpr (hge d hd))

/-! ### The lists -/

/-- The `where` of a query admits the row. -/
def Counts {ρ : Type} (rows : Except Exn (Id → ρ → Bool)) (id : Id) (r : ρ) : Prop :=
  ∃ p, rows = .ok p ∧ p id r = true

/-- A row that passes the other conditions of a `where` is counted by its date. -/
lemma counts_iff {σ ρ : Type} (accepts : σ → ρ → Bool) {column : ρ → Option String}
    {dated undated : Option String → Bool} {status : Except Exn σ} {id : Id} {r : ρ}
    (h : Counts (do
      let st ← status
      return fun _ r => accepts st r && undated (column r)) id r) :
    Counts (do
      let st ← status
      return fun _ r => accepts st r && dated (column r)) id r ↔ dated (column r) = true := by
  obtain ⟨p, hp, hrow⟩ := h
  obtain ⟨st, rfl, hp⟩ := ok_of_bind hp
  cases hp
  have haccepts : accepts st r = true := (Bool.and_eq_true _ _ ▸ hrow).1
  constructor
  · rintro ⟨p, hp, hrow⟩
    cases hp
    exact (Bool.and_eq_true _ _ ▸ hrow).2
  · intro hdated
    exact ⟨_, rfl, by rw [haccepts, hdated]; rfl⟩

lemma order_counts_iff {query : OrderQueryDto} {user : GetUserType} {id : Id} {o : Order}
    {dated : Option String → Bool}
    (hdated : dateFilter cfg query.startDate query.endDate = .ok dated)
    (h : Counts (orderWhere cfg { query with startDate := none, endDate := none } user) id o) :
    Counts (orderWhere cfg query user) id o ↔ dated o.deliveryDate = true := by
  unfold orderWhere
  rw [hdated]
  exact counts_iff (fun st o => matchesOrder cfg query user st o) h

lemma report_counts_iff {query : ReportQueryDto} {user : GetUserType} {id : Id}
    {r : ReportEntity} {dated : Option String → Bool}
    (hdated : dateFilter cfg query.startDate query.endDate = .ok dated)
    (h : Counts (reportWhere cfg { query with startDate := none, endDate := none } user) id r) :
    Counts (reportWhere cfg query user) id r ↔ dated (some r.reportedAt) = true := by
  unfold reportWhere
  rw [hdated]
  exact counts_iff (fun st r => matchesReport user st r) h

lemma getOrders_total {query : OrderQueryDto} {user : GetUserType} {ω : ℕ → AuthInput}
    {s t : AuthDB} {a : PageResponseDto GetOrderResponseDto}
    (h : (getOrders cfg query user).exec ω s = (.ok a, t)) :
    ∃ p, orderWhere cfg query user = .ok p ∧ a.totalElements = (s.ordersWhere p).length := by
  unfold getOrders at h
  rcases hp : orderWhere cfg query user with e | p
  · rw [hp] at h
    cases h
  rw [hp] at h
  dsimp only at h
  rw [exec_read_bind, exec_read_bind, exec_map] at h
  refine ⟨p, rfl, ?_⟩
  have hresult := congrArg Prod.fst h
  dsimp only at hresult
  rcases hr : ((findPage (ω 0).pick (orderBefore query.sortBy query.sortOrder) query.page query.size
    (s.ordersWhere p)).mapM withStatus).exec (fun n => ω (n + 1 + 1)) s with ⟨e | rows, u⟩
  · rw [hr] at hresult
    cases hresult
  · rw [hr] at hresult
    cases hresult
    rfl

lemma getReports_total {query : ReportQueryDto} {user : GetUserType} {ω : ℕ → Input}
    {s t : ReportDB} {a : PageResponseDto (Id × ReportEntity)}
    (h : (getReports cfg query user).exec ω s = (.ok a, t)) :
    ∃ p, reportWhere cfg query user = .ok p ∧ a.totalElements = (s.reportsWhere p).length := by
  unfold getReports at h
  rcases hp : reportWhere cfg query user with e | p
  · rw [hp] at h
    cases h
  rcases ho : reportOrder query.sortBy query.sortOrder with e | before
  · rw [hp, ho] at h
    cases h
  rw [hp, ho] at h
  cases h
  exact ⟨p, rfl, rfl⟩

/-- The order is counted just when its timestamp is in the range. -/
def OrderExact (cfg : QueryConfig) (first last : Option CivilDate) (t : ℤ)
    (query : OrderQueryDto) (user : GetUserType) (id : Id) (o : Order) : Prop :=
  Counts (orderWhere cfg query user) id o ↔ Within first last t

def ReportExact (cfg : QueryConfig) (first last : Option CivilDate) (t : ℤ)
    (query : ReportQueryDto) (user : GetUserType) (id : Id) (r : ReportEntity) : Prop :=
  Counts (reportWhere cfg query user) id r ↔ Within first last t

/-- **The date range**, in every zone with a fixed offset: the pages tell the number of the rows
that the query admits; a row that passes the other conditions is admitted exactly as the range
says unless it is one of the misfiltered ones; and among numerals of one length these are the
rows at the midnight after the last date. -/
theorem date_range_iff (cfg : QueryConfig) (hcfg : ReadsDates cfg) (first last : Option CivilDate)
    (hfirst : ∀ d ∈ first, FourDigits d) (hlast : ∀ d ∈ last, FourDigits d) (t : ℤ) :
    ((∀ query user ω s a s', (getOrders cfg query user).exec ω s = (.ok a, s') →
        ∃ p, orderWhere cfg query user = .ok p ∧ a.totalElements = (s.ordersWhere p).length) ∧
      ∀ query user ω s a s', (getReports cfg query user).exec ω s = (.ok a, s') →
        ∃ p, reportWhere cfg query user = .ok p ∧
          a.totalElements = (s.reportsWhere p).length) ∧
    ((∀ (query : OrderQueryDto) user id o, query.startDate = first.map CivilDate.iso →
        query.endDate = last.map CivilDate.iso → o.deliveryDate = some (toString t) →
        Counts (orderWhere cfg { query with startDate := none, endDate := none } user) id o →
        (OrderExact cfg first last t query user id o ↔ ¬ Misfiltered first last t)) ∧
      ∀ (query : ReportQueryDto) user id r, query.startDate = first.map CivilDate.iso →
        query.endDate = last.map CivilDate.iso → r.reportedAt = toString t →
        Counts (reportWhere cfg { query with startDate := none, endDate := none } user) id r →
        (ReportExact cfg first last t query user id r ↔ ¬ Misfiltered first last t)) ∧
    (SameLength first last t → (Misfiltered first last t ↔
      (∃ e, last = some e ∧ t = midnight e + 86400) ∧ ∀ d ∈ first, midnight d ≤ t)) := by
  have hfilter := dateFilter_eq hcfg hfirst hlast
  refine ⟨⟨fun _ _ _ _ _ _ => getOrders_total, fun _ _ _ _ _ _ => getReports_total⟩,
    ⟨fun query user id o hs he ho h => ?_, fun query user id r hs he hr h => ?_⟩,
    misfiltered_iff_boundary⟩
  · rw [← hs, ← he] at hfilter
    rw [OrderExact, order_counts_iff hfilter h, ho, withinBounds_iff, admitted_iff]
  · rw [← hs, ← he] at hfilter
    rw [ReportExact, report_counts_iff hfilter h, hr, withinBounds_iff, admitted_iff]

/-- Seven hours east of UTC, with dates read as in UTC. -/
def sampleConfig : QueryConfig := { Sample.config with
  getTime := fun text => (CivilDate.parse text).map fun d => d.toDay * msPerDay
  utcOffset := 25200000
  containsInsensitive := fun _ _ => false }

lemma sampleConfig_readsDates : ReadsDates sampleConfig := by
  intro d hlow hhigh
  have hparse := d.parse_iso (by omega)
  simp only [sampleConfig, hparse, Option.map_some]

def firstDay : CivilDate := ⟨2024, 5, 1, by decide, by decide, by decide, by decide⟩
def lastDay : CivilDate := ⟨2024, 5, 2, by decide, by decide, by decide, by decide⟩

def twoDays : OrderQueryDto where
  page := 1
  size := 10
  search := none
  status := none
  isPaid := none
  sortBy := none
  sortOrder := none
  startDate := some "2024-05-01"
  endDate := some "2024-05-02"
  one_le_page := Nat.le_refl 1
  one_le_size := by decide

/-- The order of the student, for a time. -/
def orderAt (t : ℤ) : Order := { Sample.order with deliveryDate := some (toString t) }

lemma orderAt_undated (t : ℤ) :
    Counts (orderWhere sampleConfig { twoDays with startDate := none, endDate := none }
      Sample.student) 10 (orderAt t) :=
  ⟨_, rfl, rfl⟩

/-- Ten in the morning of the second day. -/
theorem date_range_twoDays :
    OrderExact sampleConfig (some firstDay) (some lastDay) 1714644000 twoDays Sample.student 10
      (orderAt 1714644000) := by
  have hdays : ∀ d : CivilDate, d = firstDay ∨ d = lastDay → FourDigits d := by
    rintro d (rfl | rfl) <;> exact ⟨by decide, by decide⟩
  have hlength : SameLength (some firstDay) (some lastDay) 1714644000 := by
    refine ⟨by decide, ?_, ?_⟩
    · rintro d ⟨⟩
      decide +kernel
    · rintro d ⟨⟩
      decide +kernel
  have hmain := date_range_iff sampleConfig sampleConfig_readsDates (some firstDay) (some lastDay)
    (by rintro d ⟨⟩; exact hdays _ (.inl rfl)) (by rintro d ⟨⟩; exact hdays _ (.inr rfl)) 1714644000
  refine (hmain.2.1.1 twoDays Sample.student 10 (orderAt 1714644000) (by decide +kernel)
    (by decide +kernel) rfl (orderAt_undated _)).mpr fun h => ?_
  obtain ⟨⟨e, he, ht⟩, -⟩ := (hmain.2.2 hlength).mp h
  cases he
  exact absurd ht (by decide +kernel)

/-- An order of the midnight after the second day is counted. -/
theorem next_midnight_counted :
    ¬ OrderExact sampleConfig (some firstDay) (some lastDay) 1714694400 twoDays Sample.student 10
      (orderAt 1714694400) := by
  intro h
  have hcounted : Counts (orderWhere sampleConfig twoDays Sample.student) 10
      (orderAt 1714694400) := by
    have hrow : (orderWhere sampleConfig twoDays Sample.student).map
        (fun p => p 10 (orderAt 1714694400)) = .ok true := by decide +kernel
    rcases hp : orderWhere sampleConfig twoDays Sample.student with e | p
    · rw [hp] at hrow
      cases hrow
    · rw [hp] at hrow
      exact ⟨p, rfl, Except.ok.inj hrow⟩
  have hlt := (h.mp hcounted).lt lastDay rfl
  exact absurd hlt (by decide +kernel)

end TsaBackend.DateRanges
