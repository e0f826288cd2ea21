import Mathlib.Data.Finset.Max
import Mathlib.Data.String.Basic
import TsaBackend.StatusLog
import TsaBackend.Trips

/-!
The deletion of a trip, in every state that requests can leave.

The guard looks at the newest row of the history of the trip, by the text of its time; the
statement is refused as long as the trip has orders.
-/

namespace TsaBackend.TripDeletion

open Call StatusLog Trips

variable {s t : DB} {id : Id} {r : Delivery} {row : DeliveryStatusHistory} {ω : ℕ → Input}

/-- No row of the history of the trip has a later time. -/
def Newest (s : DB) (id : Id) (row : DeliveryStatusHistory) : Prop :=
  row ∈ s.deliveryHistoryOf id ∧ ∀ row' ∈ s.deliveryHistoryOf id, ¬ row.time < row'.time

/-- The rows among which the database chooses. -/
def newestRows (s : DB) (id : Id) : List DeliveryStatusHistory :=
  (s.deliveryHistoryOf id).filter fun h => (s.deliveryHistoryOf id).all fun h' => ¬ h.time < h'.time

lemma findLatest_eq (pick : ℕ) : s.findLatestDeliveryStatusRow pick id =
    (newestRows s id)[pick % (newestRows s id).length]? := rfl

lemma mem_newestRows : row ∈ newestRows s id ↔ Newest s id row := by
  simp [newestRows, Newest]

lemma exists_newest (h : s.deliveryHistoryOf id ≠ []) : ∃ row, Newest s id row := by
  have hne : (s.deliveryHistoryOf id).toFinset.Nonempty :=
    (List.toFinset_nonempty_iff (s.deliveryHistoryOf id)).mpr h
  obtain ⟨row, hrow, hmax⟩ := (s.deliveryHistoryOf id).toFinset.exists_max_image (·.time) hne
  refine ⟨row, List.mem_toFinset.mp hrow, fun row' hrow' => ?_⟩
  apply not_lt.mpr
  exact hmax row' (List.mem_toFinset.mpr hrow')

lemma newest_of_findLatest {pick : ℕ} (h : s.findLatestDeliveryStatusRow pick id = some row) :
    Newest s id row := by
  rw [findLatest_eq] at h
  exact mem_newestRows.mp (List.mem_of_getElem? h)

lemma Newest.found (h : Newest s id row) :
    ∃ pick, s.findLatestDeliveryStatusRow pick id = some row :=
  Table.exists_pick (mem_newestRows.mpr h)

lemma findLatest_some (h : s.deliveryHistoryOf id ≠ []) (pick : ℕ) :
    ∃ row, s.findLatestDeliveryStatusRow pick id = some row := by
  obtain ⟨row, hrow⟩ := exists_newest h
  have hne : newestRows s id ≠ [] := List.ne_nil_of_mem (mem_newestRows.mpr hrow)
  rw [findLatest_eq, ← Option.ne_none_iff_exists']
  exact fun hnone => hne (Table.pick_eq_none.mp hnone)

lemma deleteDelivery_eq (hid : id ∈ s.deliveries) (hfree : ∀ o, (id, o) ∉ s.ordersOnDeliveries) :
    ∃ t, s.deleteDelivery id = .ok t := by
  have hany : s.ordersOnDeliveries.keys.any (·.1 = id) = false := by
    rw [List.any_eq_false]
    rintro ⟨d, o⟩ hmem heq
    obtain rfl : d = id := by simpa using heq
    exact hfree o (AList.mem_keys.mpr hmem)
  unfold DB.deleteDelivery
  rw [if_neg (not_not.mpr hid), hany, if_neg (by simp)]
  exact ⟨_, rfl⟩

/-- A trip that exists, the row that was found for it, and its guard. -/
lemma deleteDelivery_exec (hr : s.deliveries.lookup id = some r)
    (hrow : s.findLatestDeliveryStatusRow (ω 1).pick id = some row) :
    (deleteDelivery id).exec ω s =
      (do
        throwIf (row.status ≠ .pending)
          (.badRequest "You can only delete deliveries that are pending")
        execute fun _ s => s.deleteDelivery id
        return r : Async Delivery).exec (fun n => ω (n + 2)) s := by
  unfold deleteDelivery
  rw [exec_read_bind, hr]
  dsimp only
  rw [exec_read_bind, hrow]

/-- A pending row that is found lets a trip without orders be deleted. -/
lemma deleteDelivery_succeeds (hr : s.deliveries.lookup id = some r)
    (hrow : s.findLatestDeliveryStatusRow (ω 1).pick id = some row) (hst : row.status = .pending)
    (ht : s.deleteDelivery id = .ok t) : (deleteDelivery id).exec ω s = (.ok r, t) := by
  rw [deleteDelivery_exec hr hrow, exec_throwIf_bind, if_neg (not_not.mpr hst), execute,
    exec_atomic_bind_ok (a := ()) (t := t)]
  case h => exact congrArg (Except.map _) ht
  rfl

/-- What a deletion that goes through has found, and what it has written. -/
lemma deleteDelivery_inv {d : Delivery} (h : (deleteDelivery id).exec ω s = (.ok d, t)) :
    (∃ r, s.deliveries.lookup id = some r) ∧
      (∃ row, s.findLatestDeliveryStatusRow (ω 1).pick id = some row ∧ row.status = .pending) ∧
      s.deleteDelivery id = .ok t := by
  rcases hr : s.deliveries.lookup id with _ | r
  · unfold deleteDelivery at h
    rw [exec_read_bind, hr] at h
    cases h
  rcases hrow : s.findLatestDeliveryStatusRow (ω 1).pick id with _ | row
  · unfold deleteDelivery at h
    rw [exec_read_bind, hr] at h
    dsimp only at h
    rw [exec_read_bind, hrow] at h
    cases h
  rw [deleteDelivery_exec hr hrow, exec_throwIf_bind] at h
  split at h
  · cases h
  next hst =>
  refine ⟨⟨r, rfl⟩, ⟨row, rfl, not_not.mp hst⟩, ?_⟩
  rw [execute, exec_atomic_bind] at h
  rcases ht : s.deleteDelivery id with e | t'
  · rw [ht] at h
    cases h
  · rw [ht] at h
    cases h
    rfl

/-! ### Deleting pending trips, and reachable states -/

def Pending (s : DB) (id : Id) : Prop :=
  ∃ r, s.deliveries.lookup id = some r ∧ r.latestStatus = .pending

/-- What a deletion leaves: nothing of the trip, and all else as it was. -/
structure Deleted (s : DB) (id : Id) (t : DB) : Prop where
  delivery : id ∉ t.deliveries
  history : t.deliveryHistoryOf id = []
  joins : ∀ o, (id, o) ∉ t.ordersOnDeliveries
  orders : t.orders = s.orders
  rest : t = { s with
    deliveries := s.deliveries.erase id
    deliveryStatusHistory := s.deliveryStatusHistory.filter fun h => h.deliveryId ≠ id }

/-- The deletion goes through if the trip is pending and not otherwise, and deletes the trip. -/
structure DeletesPending (s : DB) (id : Id) (ω : ℕ → Input) : Prop where
  goes : ((deleteDelivery id).exec ω s).1.isOk = true ↔ Pending s id
  deletes : ((deleteDelivery id).exec ω s).1.isOk = true →
    Deleted s id ((deleteDelivery id).exec ω s).2

/-- A pending trip has no orders and no newest row of another status; a trip of another status
has orders or no newest row that is pending. -/
structure Expected (s : DB) (id : Id) : Prop where
  pending : Pending s id →
    (∀ o, (id, o) ∉ s.ordersOnDeliveries) ∧ ∀ row, Newest s id row → row.status = .pending
  other : id ∈ s.deliveries → ¬ Pending s id →
    (∃ o, (id, o) ∈ s.ordersOnDeliveries) ∨ ∀ row, Newest s id row → row.status ≠ .pending

lemma deleted_of_delete (h : s.deleteDelivery id = .ok t) : Deleted s id t := by
  have hfree := deleteDelivery_free h
  obtain ⟨-, rfl⟩ := DB.deleteDelivery_ok h
  refine ⟨fun hmem => (AList.mem_erase.mp hmem).1 rfl, ?_, hfree, rfl, rfl⟩
  refine List.filter_eq_nil_iff.mpr fun row hrow => ?_
  have hne := (List.mem_filter.mp hrow).2
  simpa using hne

lemma history_ne_nil (hs : TripsAgree s) (hid : id ∈ s.deliveries) :
    s.deliveryHistoryOf id ≠ [] := by
  obtain ⟨r, hr⟩ := Table.mem_iff_lookup.mp hid
  intro hnil
  have hfits := hs.fits id r hr
  change LogColumn.Fits _ (s.deliveryHistoryOf id) _ at hfits
  rw [hnil] at hfits
  exact hfits

lemma expected_of_deletes (h : ∀ ω, DeletesPending s id ω) : Expected s id where
  pending hpending := by
    have hinv : ∀ pick, ∃ row, s.findLatestDeliveryStatusRow pick id = some row ∧
        row.status = .pending ∧ ∀ o, (id, o) ∉ s.ordersOnDeliveries := by
      intro pick
      obtain ⟨ω, hω⟩ : ∃ ω : ℕ → Input, (ω 1).pick = pick :=
        ⟨fun _ => { (default : Input) with pick }, rfl⟩
      have hok := (h ω).goes.mpr hpending
      rcases hexec : (deleteDelivery id).exec ω s with ⟨e | d, t⟩
      · rw [hexec] at hok
        cases hok
      · obtain ⟨-, ⟨row, hrow, hst⟩, ht⟩ := deleteDelivery_inv hexec
        exact ⟨row, hω ▸ hrow, hst, deleteDelivery_free ht⟩
    refine ⟨(hinv 0).choose_spec.2.2, fun row hrow => ?_⟩
    obtain ⟨pick, hpick⟩ := hrow.found
    obtain ⟨row', hrow', hst, -⟩ := hinv pick
    obtain rfl := Option.some.inj (hpick.symm.trans hrow')
    exact hst
  other hid hpending := by
    by_contra hno
    rw [not_or, not_exists] at hno
    obtain ⟨hfree, hrows⟩ := hno
    push Not at hrows
    obtain ⟨row, hnewest, hst⟩ := hrows
    obtain ⟨pick, hpick⟩ := hnewest.found
    obtain ⟨r, hr⟩ := Table.mem_iff_lookup.mp hid
    obtain ⟨t, ht⟩ := deleteDelivery_eq hid hfree
    have hexec := deleteDelivery_succeeds (ω := fun _ => { (default : Input) with pick }) hr hpick
      hst ht
    apply hpending
    apply (h _).goes.mp
    rw [hexec]
    rfl

lemma pending_of_inv (h : Expected s id) (hid : id ∈ s.deliveries)
    (hrow : ∃ row, s.findLatestDeliveryStatusRow (ω 1).pick id = some row ∧ row.status = .pending)
    (hfree : ∀ o, (id, o) ∉ s.ordersOnDeliveries) : Pending s id := by
  obtain ⟨row, hrow, hst⟩ := hrow
  by_contra hno
  rcases h.other hid hno with ⟨o, hjoin⟩ | hrows
  · exact hfree o hjoin
  · exact hrows row (newest_of_findLatest hrow) hst

lemma deletes_of_expected (hs : TripsAgree s) (h : Expected s id) (ω : ℕ → Input) :
    DeletesPending s id ω := by
  have hgoes : Pending s id → ∃ d t, (deleteDelivery id).exec ω s = (.ok d, t) := by
    intro hpending
    obtain ⟨hfree, hrows⟩ := h.pending hpending
    obtain ⟨r, hr, -⟩ := hpending
    have hid : id ∈ s.deliveries := Table.mem_iff_lookup.mpr ⟨r, hr⟩
    obtain ⟨row, hrow⟩ := findLatest_some (history_ne_nil hs hid) (ω 1).pick
    obtain ⟨t, ht⟩ := deleteDelivery_eq hid hfree
    exact ⟨r, t, deleteDelivery_succeeds hr hrow (hrows row (newest_of_findLatest hrow)) ht⟩
  rcases hexec : (deleteDelivery id).exec ω s with ⟨e | d, t⟩
  · constructor
    · rw [hexec]
      refine iff_of_false (fun hok => by cases hok) fun hpending => ?_
      obtain ⟨d, t', hok⟩ := hgoes hpending
      cases hexec.symm.trans hok
    · rw [hexec]
      intro hok
      cases hok
  · obtain ⟨⟨r, hr⟩, hrow, ht⟩ := deleteDelivery_inv hexec
    have hid : id ∈ s.deliveries := Table.mem_iff_lookup.mpr ⟨r, hr⟩
    constructor
    · rw [hexec]
      exact iff_of_true rfl (pending_of_inv h hid hrow (deleteDelivery_free ht))
    · rw [hexec]
      exact fun _ => deleted_of_delete ht

/-- Each row of the history of the trip has a later time than those before it. -/
def Rising (s : DB) (id : Id) : Prop :=
  (s.deliveryHistoryOf id).Pairwise fun a b => a.time < b.time

lemma newest_status (hs : TripsAgree s) (hrise : Rising s id) (hr : s.deliveries.lookup id = some r)
    (hrow : Newest s id row) : row.status = r.latestStatus := by
  have hfits := hs.fits id r hr
  change LogColumn.Fits _ (s.deliveryHistoryOf id) _ at hfits
  obtain ⟨hmem, hmax⟩ := hrow
  rcases List.eq_nil_or_concat' (s.deliveryHistoryOf id) with hnil | ⟨rows, last, hrows⟩
  · rw [hnil] at hmem
    cases hmem
  rw [hrows, LogColumn.fits_snoc] at hfits
  rw [Rising, hrows, List.pairwise_append] at hrise
  rw [hrows, List.mem_append, List.mem_singleton] at hmem
  rcases hmem with hold | rfl
  · have hlater : row.time < last.time := hrise.2.2 row hold last (List.mem_singleton_self last)
    have hlast : last ∈ s.deliveryHistoryOf id := by
      rw [hrows]
      exact List.mem_append_right rows (List.mem_singleton_self last)
    exact absurd hlater (hmax last hlast)
  · exact hfits.symm

/-- **Where times rise**, a deletion is as expected if pending trips have no orders. -/
lemma expected_iff_of_rising (hs : TripsAgree s) (hrise : Rising s id) :
    Expected s id ↔ (Pending s id → ∀ o, (id, o) ∉ s.ordersOnDeliveries) := by
  refine ⟨fun h hpending => (h.pending hpending).1, fun h => ⟨fun hpending => ?_, fun hid hno => ?_⟩⟩
  · refine ⟨h hpending, fun row hrow => ?_⟩
    obtain ⟨r, hr, hst⟩ := hpending
    exact (newest_status hs hrise hr hrow).trans hst
  · obtain ⟨r, hr⟩ := Table.mem_iff_lookup.mp hid
    refine .inr fun row hrow hst => hno ⟨r, hr, ?_⟩
    exact (newest_status hs hrise hr hrow).symm.trans hst

lemma preserves_trips (cfg : Config) (r : Request) : (r.call cfg).Preserves TripsAgree :=
  (RequestSteps.call_steps r).preserves fun _ _ hw hs => tripsAgree_writes hw hs

/-- **When a deletion is as expected**: in every state that an interleaving of requests leaves,
from tables where the statuses of trips follow their history, the deletion goes through exactly
for a pending trip, and deletes it, if the pending trip has no orders and no newest row of another
status, and a trip of another status has orders or no newest row that is pending; where times rise
only the orders of pending trips are left of this. -/
theorem deleteDelivery_iff (cfg : Config) (s : DB) (hs : TripsAgree s) (rs : List Request)
    (sched : List (ℕ × Input)) (id : Id) :
    let t := (interleave s (rs.map (Request.call cfg)) sched).1
    ((∀ ω, DeletesPending t id ω) ↔ Expected t id) ∧
      (Rising t id → ((∀ ω, DeletesPending t id ω) ↔
        (Pending t id → ∀ o, (id, o) ∉ t.ordersOnDeliveries))) := by
  intro t
  have hcalls : ∀ c ∈ rs.map (Request.call cfg), c.Preserves TripsAgree := by
    intro c hc
    obtain ⟨r, -, rfl⟩ := List.mem_map.mp hc
    exact preserves_trips cfg r
  have ht : TripsAgree t := interleave_inv hcalls hs sched
  have hiff : (∀ ω, DeletesPending t id ω) ↔ Expected t id :=
    ⟨expected_of_deletes, fun h ω => deletes_of_expected ht h ω⟩
  exact ⟨hiff, fun hrise => hiff.trans (expected_iff_of_rising ht hrise)⟩

lemma tripsAgree_of_no_trips (hd : s.deliveries.keys = []) (hh : s.deliveryStatusHistory = []) :
    TripsAgree s := by
  refine ⟨fun d r hr => ?_, fun row hrow => ?_⟩
  · have hmem : d ∈ s.deliveries.keys := AList.mem_keys.mp (Table.mem_iff_lookup.mpr ⟨r, hr⟩)
    rw [hd] at hmem
    cases hmem
  · rw [hh] at hrow
    cases hrow

/-- The tables after a trip with these orders is planned. -/
def afterPlan (orderIds : List Id) : DB :=
  (interleave Sample.dbWithOrder
    ([.createDelivery ⟨60, .val 3, orderIds⟩].map (Request.call Sample.config))
    (List.replicate 5 (0, Sample.inputs 20 0))).1

theorem deleteDelivery_iff_empty :
    Pending (afterPlan []) 20 ∧ ∀ ω, DeletesPending (afterPlan []) 20 ω := by
  have hs : TripsAgree Sample.dbWithOrder := tripsAgree_of_no_trips rfl rfl
  have hiff := (deleteDelivery_iff Sample.config Sample.dbWithOrder hs
    [.createDelivery ⟨60, .val 3, []⟩] (List.replicate 5 (0, Sample.inputs 20 0)) 20).2
  have hkeys : (afterPlan []).ordersOnDeliveries.keys = [] := by decide +kernel
  have hrow : ((afterPlan []).deliveries.lookup 20).map (·.latestStatus) = some .pending := by
    decide +kernel
  refine ⟨Option.map_eq_some_iff.mp hrow, (hiff ?_).mpr fun _ o => not_mem_of_no_joins hkeys _⟩
  unfold Rising
  decide +kernel

/-- A pending trip with an order is not deleted. -/
theorem planned_trip_not_deleted : TripsAgree Sample.dbWithOrder ∧ Pending (afterPlan [10]) 20 ∧
    ((deleteDelivery 20).exec (Sample.inputs 0) (afterPlan [10])).1 =
      .error (.prisma .foreignKeyConstraint) ∧
    ¬ DeletesPending (afterPlan [10]) 20 (Sample.inputs 0) := by
  have hrow : ((afterPlan [10]).deliveries.lookup 20).map (·.latestStatus) = some .pending := by
    decide +kernel
  have hpending : Pending (afterPlan [10]) 20 := Option.map_eq_some_iff.mp hrow
  have hresult : ((deleteDelivery 20).exec (Sample.inputs 0) (afterPlan [10])).1 =
      .error (.prisma .foreignKeyConstraint) := by decide +kernel
  refine ⟨tripsAgree_of_no_trips rfl rfl, hpending, hresult, fun h => ?_⟩
  have hok := h.goes.mpr hpending
  rw [hresult] at hok
  cases hok

end TsaBackend.TripDeletion
