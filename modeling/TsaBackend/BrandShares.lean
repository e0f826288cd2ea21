import TsaBackend.OrderStats

/-!
The brands in the statistics of a student.

Each group is counted by the rows whose brand is not `null`, so that the orders without a brand are
missing, and an empty brand is shown under the name of the missing ones.
-/

namespace TsaBackend.BrandShares

open Call

variable {cfg : StatsConfig} {user : GetUserType} {s : DB} {orders : List Order}

/-- The counts add up to the orders, and each of them is that of the orders under its name. -/
structure SharesAddUp (orders : List Order) (shares : List BrandPercentage) : Prop where
  total : (shares.map (·.count)).sum = orders.length
  entry : ∀ e ∈ shares, e.count = (orders.filter fun o => brandLabel o.brand = e.brand).length

/-- Every order has a brand, and not both an empty one and the name for a missing one occur. -/
structure Branded (orders : List Order) : Prop where
  some : ∀ o ∈ orders, o.brand.isSome
  apart : ¬ ((∃ o ∈ orders, o.brand = .some "") ∧ ∃ o ∈ orders, o.brand = .some "Unknown")

lemma SharesAddUp.perm {shares shares' : List BrandPercentage} (h : shares'.Perm shares)
    (hs : SharesAddUp orders shares) : SharesAddUp orders shares' where
  total := by rw [(h.map _).sum_eq, hs.total]
  entry e he := hs.entry e (h.mem_iff.mp he)

lemma brandLabel_eq_iff {x y : String} : brandLabel (some x) = brandLabel (some y) ↔
    x = y ∨ x = "" ∧ y = "Unknown" ∨ x = "Unknown" ∧ y = "" := by
  by_cases hx : x = "" <;> by_cases hy : y = ""
  · simp [hx, hy]
  · have hflip : "Unknown" = y ↔ y = "Unknown" := eq_comm
    simp [brandLabel, truthy, hx, hy, Ne.symm hy, hflip]
  · simp [brandLabel, truthy, hx, hy]
  · simp [brandLabel, truthy, hx, hy]

lemma sum_ordersByBrand :
    ((ordersByBrand orders).map (·.2)).sum = (orders.filter fun o => o.brand.isSome).length := by
  let w : Order → ℕ := fun o => if o.brand.isSome then 1 else 0
  have hlen : ∀ l : List Order, (l.filter fun o => o.brand.isSome).length = (l.map w).sum := by
    intro l
    induction l with
    | nil => rfl
    | cons o l ih =>
      by_cases h : o.brand.isSome
      · simp [h, ih, w, Nat.add_comm]
      · simp [h, ih, w]
  have hgroup : ∀ b : Option String,
      (orders.filter fun o => o.brand = b ∧ o.brand.isSome).length =
        ((orders.filter fun o => o.brand = b).map w).sum := by
    intro b
    rw [← hlen, List.filter_filter]
    congr 1
    refine List.filter_congr fun o _ => ?_
    simp [Bool.and_comm]
  have hsum := Grouping.sum_by_key (fun o : Order => o.brand) orders w
    (List.nodup_dedup (orders.map (·.brand)))
    fun o ho => List.mem_dedup.mpr (List.mem_map_of_mem ho)
  rw [hlen, ← hsum, ordersByBrand, List.map_map]
  congr 1
  exact List.map_congr_left fun b _ => hgroup b

/-- The group of `Unknown` does not count an order with the empty brand, which has its label. -/
lemma not_both_unknown {total : ℕ}
    (h : SharesAddUp orders ((ordersByBrand orders).map (brandPercentage cfg total)))
    (hempty : ∃ o ∈ orders, o.brand = some "") :
    ¬ ∃ o ∈ orders, o.brand = some "Unknown" := by
  rintro ⟨o', ho', hunknown⟩
  obtain ⟨o, ho, hempty⟩ := hempty
  have hmem : (some "Unknown", (orders.filter fun o =>
      o.brand = some "Unknown" ∧ o.brand.isSome).length) ∈ ordersByBrand orders := by
    refine List.mem_map.mpr ⟨some "Unknown", ?_, rfl⟩
    exact List.mem_dedup.mpr (List.mem_map.mpr ⟨o', ho', hunknown⟩)
  have hentry := h.entry _ (List.mem_map_of_mem hmem)
  have hsub : (orders.filter fun o => o.brand = some "Unknown" ∧ o.brand.isSome).Sublist
      (orders.filter fun o => brandLabel o.brand = brandLabel (some "Unknown")) := by
    refine List.monotone_filter_right orders fun o ho => ?_
    have hbrand : o.brand = some "Unknown" := by simpa using (of_decide_eq_true ho).1
    simp [hbrand]
  have heq := hsub.eq_of_length hentry
  have hin : o ∈ orders.filter fun o => brandLabel o.brand = brandLabel (some "Unknown") :=
    List.mem_filter.mpr ⟨ho, by simp [hempty, brandLabel_eq_iff]⟩
  rw [← heq, List.mem_filter] at hin
  have hbrand : o.brand = some "Unknown" := (of_decide_eq_true hin.2).1
  exact absurd (hempty.symm.trans hbrand) (by decide)

lemma label_iff_of_branded {o o' : Order} {x y : String} (h : Branded orders) (ho : o ∈ orders)
    (hx : o.brand = some x) (ho' : o' ∈ orders) (hy : o'.brand = some y) :
    brandLabel (some x) = brandLabel (some y) ↔ x = y := by
  rw [brandLabel_eq_iff]
  refine ⟨?_, .inl⟩
  rintro (hxy | ⟨rfl, rfl⟩ | ⟨rfl, rfl⟩)
  · exact hxy
  · exact absurd ⟨⟨o, ho, hx⟩, o', ho', hy⟩ h.apart
  · exact absurd ⟨⟨o', ho', hy⟩, o, ho, hx⟩ h.apart

/-- **When the groups add up.** -/
theorem shares_iff {total : ℕ} :
    SharesAddUp orders ((ordersByBrand orders).map (brandPercentage cfg total)) ↔
      Branded orders := by
  have hcounts : (((ordersByBrand orders).map (brandPercentage cfg total)).map (·.count)).sum =
      (orders.filter fun o => o.brand.isSome).length := by
    rw [← sum_ordersByBrand, List.map_map]
    rfl
  have hall : (orders.filter fun o => o.brand.isSome).length = orders.length ↔
      ∀ o ∈ orders, o.brand.isSome := by
    rw [List.length_filter_eq_length_iff]
  constructor
  · intro h
    exact ⟨hall.mp (hcounts.symm.trans h.total), fun ⟨hempty, hunknown⟩ =>
      not_both_unknown h hempty hunknown⟩
  · intro h
    refine ⟨hcounts.trans (hall.mpr h.some), fun e he => ?_⟩
    obtain ⟨entry, hentry, rfl⟩ := List.mem_map.mp he
    obtain ⟨b, hb, rfl⟩ := List.mem_map.mp hentry
    obtain ⟨o', ho', hbrand'⟩ := List.mem_map.mp (List.mem_dedup.mp hb)
    obtain ⟨y, hy⟩ := Option.isSome_iff_exists.mp (h.some o' ho')
    rw [← hbrand', hy]
    change (orders.filter _).length = (orders.filter _).length
    congr 1
    refine List.filter_congr fun o ho => ?_
    obtain ⟨x, hx⟩ := Option.isSome_iff_exists.mp (h.some o ho)
    simp [hx, brandPercentage, label_iff_of_branded h ho hx ho' hy]

/-! ### The endpoint -/

/-- What the endpoint returns: the groups in some order, if there are any. -/
lemma exec_getOrdersStatsForStudent (cfg : StatsConfig) (user : GetUserType) (s : DB)
    (ω : ℕ → Input) :
    ∃ pick a, (getOrdersStatsForStudent cfg user).exec ω s = (.ok a, s) ∧
      a.brandPercentages = if 0 < (s.acceptedOrders user.id).length then
        (Table.anyOrder pick (ordersByBrand (s.acceptedOrders user.id))).map
          (brandPercentage cfg (s.acceptedOrders user.id).length) else [] := by
  refine ⟨(ω 2).pick, ?_⟩
  unfold getOrdersStatsForStudent input
  rw [exec_read_bind, exec_read_bind]
  dsimp only
  split
  · exact ⟨_, rfl, rfl⟩
  · exact ⟨_, rfl, rfl⟩

lemma some_order_iff {pick : ℕ} :
    SharesAddUp orders (if 0 < orders.length then
      (Table.anyOrder pick (ordersByBrand orders)).map (brandPercentage cfg orders.length)
      else []) ↔ Branded orders := by
  split
  · have hshares : SharesAddUp orders ((ordersByBrand orders).map
        (brandPercentage cfg orders.length)) ↔ Branded orders := shares_iff
    rw [← hshares]
    have hperm := (Table.anyOrder_perm pick (ordersByBrand orders)).map
      (brandPercentage cfg orders.length)
    exact ⟨SharesAddUp.perm hperm.symm, SharesAddUp.perm hperm⟩
  · next hlen =>
    obtain rfl : orders = [] := List.length_eq_zero_iff.mp (by omega)
    exact iff_of_true ⟨rfl, by simp⟩ ⟨by simp, by simp⟩

/-- **Brand shares add up**, in whatever order the groups come, exactly when every accepted or
delivered order of the student has a brand, and not both an empty one and `Unknown` occur. -/
theorem brand_shares_iff (cfg : StatsConfig) (user : GetUserType) (s : DB) :
    (∀ ω, ∃ a, (getOrdersStatsForStudent cfg user).exec ω s = (.ok a, s) ∧
      SharesAddUp (s.acceptedOrders user.id) a.brandPercentages) ↔
      Branded (s.acceptedOrders user.id) := by
  constructor
  · intro h
    obtain ⟨a, ha, hshares⟩ := h fun _ => default
    obtain ⟨pick, a', ha', heq⟩ := exec_getOrdersStatsForStudent cfg user s fun _ => default
    cases ha.symm.trans ha'
    rw [heq] at hshares
    exact some_order_iff.mp hshares
  · intro h ω
    obtain ⟨pick, a, ha, heq⟩ := exec_getOrdersStatsForStudent cfg user s ω
    refine ⟨a, ha, ?_⟩
    rw [heq]
    exact some_order_iff.mpr h

/-- A student's accepted parcel without a brand. -/
def unbranded : DB := { Sample.db with
  orders := AList.insert 10 { Sample.order with latestStatus := some .accepted } ∅ }

/-- A deployment in UTC whose percentages are not looked at. -/
def sampleConfig : StatsConfig := { Sample.config with
  zone := .fixed 0 (by decide)
  toPercentage := fun _ _ => "" }

/-- The parcel is in a group, which is counted as empty. -/
theorem unbranded_not_counted :
    ¬ ∀ ω, ∃ a, (getOrdersStatsForStudent sampleConfig Sample.student).exec ω unbranded =
        (.ok a, unbranded) ∧
      SharesAddUp (unbranded.acceptedOrders Sample.student.id) a.brandPercentages := by
  intro h
  obtain ⟨a, ha, hshares⟩ := h (Sample.inputs 0)
  have hshown : ((getOrdersStatsForStudent sampleConfig Sample.student).exec (Sample.inputs 0)
      unbranded).1 = .ok ⟨0, 0, [⟨"Unknown", 0, ""⟩]⟩ := by decide +kernel
  rw [ha] at hshown
  cases hshown
  exact absurd hshares.total (by decide +kernel)

end TsaBackend.BrandShares
