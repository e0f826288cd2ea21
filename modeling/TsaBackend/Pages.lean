import TsaBackend.OrderQueries

/-!
The pages of the list of orders over a table that does not change.

Each page is a query of its own, and the database may order rows of equal keys differently each
time.
-/

namespace TsaBackend.Pages

open Call Paging

variable {cfg : QueryConfig} {query : OrderQueryDto} {user : GetUserType} {s : AuthDB}
  {p : Id → Order → Bool} {rows : List (Id × Order)} {β : Type}

lemma before_key (field : OrderScalarFieldEnum) :
    ∃ (κ : Type) (_ : LinearOrder κ) (key : Id × Order → κ),
      ∀ x y, field.Before x y ↔ key x ≤ key y := by
  cases field with
  | id => exact ⟨_, inferInstance, fun e => e.1, fun _ _ => Iff.rfl⟩
  | checkCode => exact ⟨_, inferInstance, fun e => e.2.checkCode, fun _ _ => Iff.rfl⟩
  | isPaid => exact ⟨_, inferInstance, fun e => e.2.isPaid, fun _ _ => Iff.rfl⟩
  | _ => exact ⟨_, inferInstance, _, fun _ _ => Iff.rfl⟩

variable {sortBy : Option OrderScalarFieldEnum} {sortOrder : Option SortOrder} {x y z : Id × Order}

lemma orderBefore_total : orderBefore sortBy sortOrder x y ∨ orderBefore sortBy sortOrder y x := by
  rcases sortBy with _ | field
  · exact le_total x.1 y.1
  obtain ⟨κ, _, key, hkey⟩ := before_key field
  simp only [orderBefore, hkey]
  split
  · exact le_total _ _
  · exact le_total _ _

lemma orderBefore_trans (hxy : orderBefore sortBy sortOrder x y)
    (hyz : orderBefore sortBy sortOrder y z) : orderBefore sortBy sortOrder x z := by
  rcases sortBy with _ | field
  · exact le_trans (a := x.1) hxy hyz
  obtain ⟨κ, _, key, hkey⟩ := before_key field
  simp only [orderBefore, hkey] at hxy hyz ⊢
  split at hxy
  · next h =>
    rw [if_pos h] at hyz ⊢
    exact le_trans hyz hxy
  · next h =>
    rw [if_neg h] at hyz ⊢
    exact le_trans hxy hyz

/-- The orders the database may choose are the sorted arrangements of the rows. -/
lemma arrangement_iff {l : List (Id × Order)} :
    Arrangement (orderBefore sortBy sortOrder) rows l ↔
      ∃ pick, (Table.anyOrder pick rows).insertionSort (orderBefore sortBy sortOrder) = l := by
  have : Std.Total (orderBefore sortBy sortOrder) := ⟨fun _ _ => orderBefore_total⟩
  have : IsTrans (Id × Order) (orderBefore sortBy sortOrder) := ⟨fun _ _ _ => orderBefore_trans⟩
  constructor
  · intro h
    obtain ⟨pick, hpick⟩ := Table.exists_pick (List.mem_permutations'.mpr h.perm)
    refine ⟨pick, ?_⟩
    rw [Table.anyOrder, hpick, Option.getD_some, h.sorted.insertionSort_eq]
  · rintro ⟨pick, rfl⟩
    exact ⟨(List.perm_insertionSort _ _).trans (Table.anyOrder_perm pick rows),
      List.pairwise_insertionSort _ _⟩

lemma ordersWhere_nodup_id {t : DB} : ((t.ordersWhere p).map Prod.fst).Nodup := by
  rw [DB.ordersWhere, List.map_map]
  exact (List.filter_sublist.map Sigma.fst).nodup t.orders.nodupKeys

lemma ordersWhere_nodup {t : DB} : (t.ordersWhere p).Nodup :=
  List.Nodup.of_map Prod.fst ordersWhere_nodup_id

/-- The shippers of the rows have accounts. -/
def Staffed (s : AuthDB) (rows : List (Id × Order)) : Prop :=
  ∀ e ∈ rows, ∀ u, e.2.shipperId = some u → u ∈ s.accounts

lemma exec_onAuth_read_bind {α : Type} (f : Input → DB → α) (g : α → AuthCall β)
    (ω : ℕ → AuthInput) : (onAuth (.read f) >>= g).exec ω s =
      (g (f (ω 0).toInput s.toDB)).exec (fun n => ω (n + 1)) s := rfl

lemma exec_withStatus {e : Id × Order} {g : GetOrderResponseDto → AuthCall β} (ω : ℕ → AuthInput)
    (h : ∀ u, e.2.shipperId = some u → u ∈ s.accounts) :
    ∃ r ω', (withStatus e >>= g).exec ω s = (g r).exec ω' s ∧ (r.id, r.order) = e := by
  unfold withStatus getLatestOrderStatus getHistoryTimee staffInfo
  rcases hu : e.2.shipperId with _ | u
  · exact ⟨_, _, rfl, rfl⟩
  · obtain ⟨staff, hstaff⟩ := Table.mem_iff_lookup.mp (h u hu)
    simp only [bind_assoc, exec_onAuth_read_bind, exec_read_bind, hstaff]
    exact ⟨_, _, rfl, rfl⟩

lemma exec_mapM_withStatus (rows : List (Id × Order))
    {g : List GetOrderResponseDto → AuthCall β} (ω : ℕ → AuthInput) (h : Staffed s rows) :
    ∃ results ω', (rows.mapM withStatus >>= g).exec ω s = (g results).exec ω' s ∧
      results.map (fun r => (r.id, r.order)) = rows := by
  induction rows generalizing ω g with
  | nil => exact ⟨[], ω, rfl, rfl⟩
  | cons e rows ih =>
    obtain ⟨r, ω₁, hexec, he⟩ := exec_withStatus ω (g := fun r =>
      rows.mapM withStatus >>= fun results => g (r :: results)) (h e List.mem_cons_self)
    obtain ⟨results, ω₂, hexecs, hrows⟩ := ih ω₁ (g := fun results => g (r :: results))
      fun e he => h e (List.mem_cons_of_mem _ he)
    refine ⟨r :: results, ω₂, ?_, by rw [List.map_cons, he, hrows]⟩
    rw [List.mapM_cons, bind_assoc]
    simp only [bind_assoc, pure_bind]
    rw [hexec, hexecs]

lemma mem_of_mem_page {α : Type} {pick k size : ℕ} {le : α → α → Prop} [DecidableRel le]
    {l : List α} {a : α} (h : a ∈ pageOf size k ((Table.anyOrder pick l).insertionSort le)) :
    a ∈ l :=
  (Table.anyOrder_perm _ _).mem_iff.mp ((List.mem_insertionSort _).mp
    (List.mem_of_mem_drop (List.mem_of_mem_take h)))

/-- The query for another page. -/
def onPage (query : OrderQueryDto) (page : ℕ) : OrderQueryDto :=
  { query with page := page + 1, one_le_page := Nat.le_add_left 1 page }

/-- **What a page holds**: a piece of the rows in an order that the database chose. -/
lemma exec_getOrders (hp : orderWhere cfg query user = .ok p) (hstaff : Staffed s (s.ordersWhere p))
    (k : ℕ) (ω : ℕ → AuthInput) :
    ∃ a, (getOrders cfg (onPage query k) user).exec ω s = (.ok a, s) ∧
      a.totalElements = (s.ordersWhere p).length ∧
      a.totalPages = pagesOf query.size (s.ordersWhere p).length ∧
      a.results.map (fun r => (r.id, r.order)) = pageOf query.size k
        ((Table.anyOrder (ω 0).pick (s.ordersWhere p)).insertionSort
          (orderBefore query.sortBy query.sortOrder)) := by
  have hp' : orderWhere cfg (onPage query k) user = .ok p := hp
  let l := (Table.anyOrder (ω 0).pick (s.ordersWhere p)).insertionSort
    (orderBefore query.sortBy query.sortOrder)
  let page (results : List GetOrderResponseDto) : PageResponseDto GetOrderResponseDto :=
    ⟨(s.ordersWhere p).length, pagesOf query.size (s.ordersWhere p).length, results⟩
  obtain ⟨results, ω', hexec, hrows⟩ := exec_mapM_withStatus (pageOf query.size k l)
    (fun n => ω (n + 1 + 1)) (g := fun results => (Pure.pure (page results) : AuthCall _))
    fun e he => hstaff e (mem_of_mem_page he)
  refine ⟨page results, ?_, rfl, rfl, hrows⟩
  unfold getOrders
  rw [hp']
  dsimp only
  rw [exec_read_bind, exec_read_bind]
  exact hexec

/-! ### All pages -/

/-- The pages tell the number of the rows and hold each of them once. -/
structure HoldAll (rows : List (Id × Order)) (pages : ℕ → PageResponseDto GetOrderResponseDto) :
    Prop where
  total : ∀ k, (pages k).totalElements = rows.length
  once : ((List.range (pages 0).totalPages).flatMap fun k =>
    (pages k).results.map fun r => (r.id, r.order)).Perm rows

/-- Just as many rows as a number of pages holds come strictly before some row. -/
def BordersSplit (query : OrderQueryDto) (rows : List (Id × Order)) : Prop :=
  ∀ k, 0 < k → k * query.size < rows.length →
    SplitsAt (orderBefore query.sortBy query.sortOrder) rows (k * query.size)

lemma bordersSplit_by_id (hrows : (rows.map Prod.fst).Nodup)
    (h : query.sortBy = none ∨ query.sortBy = some .id) : BordersSplit query rows := by
  intro k hk hlt
  refine splitsAt_of_antisymm (fun _ _ => orderBefore_total) (fun _ _ _ => orderBefore_trans)
    (List.Nodup.of_map _ hrows) (fun x hx y hy hxy hyx => ?_)
    (Nat.mul_pos hk query.one_le_size) hlt
  refine List.inj_on_of_nodup_map hrows hx hy ?_
  rcases h with h | h
  · rw [h] at hxy hyx
    exact le_antisymm hxy hyx
  simp only [orderBefore, h, OrderScalarFieldEnum.Before] at hxy hyx
  split at hxy
  · next hdesc =>
    rw [if_pos hdesc] at hyx
    exact le_antisymm hyx hxy
  · next hasc =>
    rw [if_neg hasc] at hyx
    exact le_antisymm hxy hyx

/-- **The pages partition the result**, however the database orders equal rows in each query,
exactly when every border of two pages lies between rows of different keys: always when they are
sorted by their ids, as they are when the query names no column. -/
theorem order_pages_iff (cfg : QueryConfig) (query : OrderQueryDto)
    (user : GetUserType) (s : AuthDB) (p : Id → Order → Bool)
    (hp : orderWhere cfg query user = .ok p) (hstaff : Staffed s (s.ordersWhere p)) :
    ((∀ ωs : ℕ → ℕ → AuthInput, ∃ pages,
      (∀ k, (getOrders cfg (onPage query k) user).exec (ωs k) s = (.ok (pages k), s)) ∧
        HoldAll (s.ordersWhere p) pages) ↔ BordersSplit query (s.ordersWhere p)) ∧
    (query.sortBy = none ∨ query.sortBy = some .id → BordersSplit query (s.ordersWhere p)) := by
  have hpages := pages_partition_iff (orderBefore query.sortBy query.sortOrder)
    (s.ordersWhere p) (fun _ _ => orderBefore_total) (fun _ _ _ => orderBefore_trans)
    ordersWhere_nodup query.one_le_size
  refine ⟨?_, bordersSplit_by_id ordersWhere_nodup_id⟩
  rw [BordersSplit, ← hpages]
  constructor
  · intro h ls hls
    choose pick hpick using fun k => arrangement_iff.mp (hls k)
    obtain ⟨pages, hexec, hall⟩ := h fun k _ =>
      { (default : AuthInput) with pick := pick k }
    have hpage : ∀ k, (pages k).totalPages = pagesOf query.size (s.ordersWhere p).length ∧
        (pages k).results.map (fun r => (r.id, r.order)) = pageOf query.size k (ls k) := by
      intro k
      obtain ⟨a, ha, -, htotal, hrows⟩ := exec_getOrders hp hstaff k fun _ =>
        { (default : AuthInput) with pick := pick k }
      cases ha.symm.trans (hexec k)
      rw [← hpick k]
      exact ⟨htotal, hrows⟩
    have honce := hall.once
    rw [(hpage 0).1] at honce
    simpa only [(hpage _).2] using honce
  · intro h ωs
    choose pages hexec htotal hcount hrows using fun k => exec_getOrders hp hstaff k (ωs k)
    refine ⟨pages, hexec, htotal, ?_⟩
    rw [hcount 0]
    simp only [hrows]
    exact h _ fun k => arrangement_iff.mpr ⟨_, rfl⟩

/-- Two orders of the first student. -/
def twoOrders : AuthDB where
  toDB := { Sample.db with
    orders := AList.insert 11 Sample.order (AList.insert 10 Sample.order ∅) }
  accounts := ∅
  residences := ∅
  verificationEmails := ∅
  refreshTokens := ∅
  authProviders := ∅
  emailQueue := []

/-- A deployment in UTC. -/
def sampleConfig : QueryConfig := { Sample.config with
  utcOffset := 0
  containsInsensitive := fun _ _ => false }

/-- Pages of one order. -/
def onePerPage (sortBy : Option OrderScalarFieldEnum) : OrderQueryDto where
  page := 1
  size := 1
  search := none
  status := none
  isPaid := none
  sortBy
  sortOrder := none
  startDate := none
  endDate := none
  one_le_page := Nat.one_pos
  one_le_size := Nat.one_pos

lemma twoOrders_staffed (rows : Id → Order → Bool) :
    Staffed twoOrders (twoOrders.ordersWhere rows) := by
  intro e he u hu
  obtain ⟨row, hrow, rfl⟩ := List.mem_map.mp he
  have hnone : ∀ row ∈ twoOrders.orders.entries, row.2.shipperId = none := by decide
  rw [hnone row (List.mem_of_mem_filter hrow)] at hu
  cases hu

/-- The inputs of a page, with the order the database chooses. -/
def ordering (k _ : ℕ) : AuthInput := { (default : AuthInput) with pick := k }

theorem order_pages_unsorted : ∃ pages,
    (∀ k, (getOrders sampleConfig (onPage (onePerPage none) k) Sample.student).exec
      (ordering k) twoOrders = (.ok (pages k), twoOrders)) ∧
    HoldAll (twoOrders.ordersWhere fun _ o => matchesOrder sampleConfig (onePerPage none)
      Sample.student none o && withinBounds none none o.deliveryDate) pages :=
  have hmain := order_pages_iff sampleConfig (onePerPage none) Sample.student twoOrders
    (fun _ o => matchesOrder sampleConfig (onePerPage none) Sample.student none o &&
      withinBounds none none o.deliveryDate) rfl (twoOrders_staffed _)
  hmain.1.mpr (hmain.2 (.inl rfl)) ordering

/-- Sorted by the date of delivery, which they share, both pages may show the same order. -/
theorem order_twice : ¬ ∀ ωs : ℕ → ℕ → AuthInput, ∃ pages,
    (∀ k, (getOrders sampleConfig (onPage (onePerPage (some .deliveryDate)) k)
      Sample.student).exec (ωs k) twoOrders = (.ok (pages k), twoOrders)) ∧
    HoldAll (twoOrders.ordersWhere fun _ o =>
      matchesOrder sampleConfig (onePerPage (some .deliveryDate)) Sample.student none o &&
        withinBounds none none o.deliveryDate) pages := by
  intro h
  obtain ⟨pages, hexec, hall⟩ := h ordering
  have hids : ∀ k < 2, ((getOrders sampleConfig (onPage (onePerPage (some .deliveryDate)) k)
      Sample.student).exec (ordering k) twoOrders).1.map (fun a => (a.results.map (·.id),
        a.totalPages)) = .ok ([11], 2) := by decide +kernel
  have hpage : ∀ k < 2, (pages k).results.map (·.id) = [11] ∧ (pages k).totalPages = 2 := by
    intro k hk
    have hk' := hids k hk
    rw [hexec k] at hk'
    exact ⟨congrArg Prod.fst (Except.ok.inj hk'), congrArg Prod.snd (Except.ok.inj hk')⟩
  have honce := (hall.once.map Prod.fst).nodup_iff.mpr ordersWhere_nodup_id
  rw [(hpage 0 (by decide)).2, List.map_flatMap] at honce
  have htwo : (List.range 2).flatMap (fun k => ((pages k).results.map
      fun r => (r.id, r.order)).map Prod.fst) = [11, 11] := by
    have hfst : ∀ k < 2, ((pages k).results.map fun r => (r.id, r.order)).map Prod.fst = [11] := by
      intro k hk
      rw [List.map_map]
      exact (hpage k hk).1
    have hrange : List.range 2 = [0, 1] := rfl
    rw [hrange, List.flatMap_cons, List.flatMap_cons, List.flatMap_nil, hfst 0 (by decide),
      hfst 1 (by decide)]
    rfl
  rw [htwo] at honce
  exact absurd honce (by decide)

end TsaBackend.Pages
