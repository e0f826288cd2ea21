import TsaBackend.Auth
import TsaBackend.TripStaff

/-!
The places of the orders of a trip, over runs of any requests, and the reading of a trip in the
order of these places.

A new trip numbers its orders from one; an edit numbers the orders it adds from one again and
leaves the count of the trip.
-/

namespace TsaBackend

/-- What is shown of the student of an order. -/
structure StudentInfo where
  lastName : Option String
  firstName : Option String
  phoneNumber : Option String
  photoUrl : Option String
  deriving DecidableEq, Repr

structure GetDeliveryDto where
  id : Id
  delivery : Delivery
  deliveryStatusHistory : List DeliveryStatusHistory
  orders : List (Id × Order × Option StudentInfo)
  deriving DecidableEq, Repr

/-- `order.student?.user` -/
def AuthDB.studentInfo (s : AuthDB) (o : Order) : Option StudentInfo := do
  let id ← o.studentId
  let _ ← s.students.lookup id
  let account ← s.accounts.lookup id
  return { account with }

/-- The orders of a trip with their places. -/
def AuthDB.placedOrders (s : AuthDB) (id : Id) : List (ℕ × Id × Order × Option StudentInfo) :=
  (s.ordersOnDeliveries.entries.filter fun e => e.1.1 = id).filterMap fun e =>
    (s.orders.lookup e.1.2).map fun o => (e.2, e.1.2, o, s.studentInfo o)

/-- The rows of a relation come in any order. -/
def getDelivery (id : Id) : AuthCall GetDeliveryDto := do
  let found ← (.read fun i s => (s.deliveries.lookup id).map fun delivery =>
    (delivery, Table.anyOrder i.pick (s.deliveryHistoryOf id),
      Table.anyOrder i.pick (s.placedOrders id)) : AuthCall _)
  let some (delivery, deliveryStatusHistory, orders) := found
    | throw (.notFound "Delivery not found")
  return { id, delivery, deliveryStatusHistory
           orders := (orders.insertionSort fun a b => a.1 ≤ b.1).map (·.2) }

namespace Trips

open Call OrderEffects OrderWrites RequestSteps

variable {cfg : Config} {user : GetUserType} {s t : DB} {id d : Id}

/-- The places of the orders of a trip. -/
def sequences (s : DB) (d : Id) : List ℕ :=
  (s.ordersOnDeliveries.entries.filter fun e => e.1.1 = d).map (·.2)

/-- The orders of a trip have the places from one to their number. -/
def Sequenced (s : DB) : Prop :=
  ∀ d r, s.deliveries.lookup d = some r → (sequences s d).Perm (List.range' 1 r.numberOrder)

structure Numbered (s : DB) : Prop where
  sequenced : Sequenced s
  joined : Joined s

/-- The join rows of a trip whose orders get the places from `n` on. -/
def joinRows (id : Id) (n : ℕ) (os : List Id) : List (Σ _ : Id × Id, ℕ) :=
  (os.zipIdx n).map fun p => ⟨(id, p.1), p.2⟩

lemma joins_createMany {n : ℕ} {os : List Id} (h : s.createManyOrdersOnDelivery id n os = .ok t)
    (d : Id) : t.ordersOnDeliveries.entries.filter (fun e => e.1.1 = d) =
      (if d = id then (joinRows id n os).reverse else []) ++
        s.ordersOnDeliveries.entries.filter fun e => e.1.1 = d := by
  induction os generalizing s n with
  | nil =>
    simp only [DB.createManyOrdersOnDelivery, Except.ok.injEq] at h
    simp [h, joinRows]
  | cons o os ih =>
    unfold DB.createManyOrdersOnDelivery at h
    split at h
    · cases h
    next hnew =>
    split at h
    · cases h
    rw [ih h, AList.entries_insert_of_notMem hnew]
    by_cases hd : d = id
    · subst hd
      simp [joinRows]
    · simp [hd, Ne.symm hd]

lemma joins_insertDelivery {orders : List Id} {dto : CreateDeliveryDto} {r : Delivery}
    (h : s.insertDelivery orders dto id r = .ok t) (d : Id) :
    t.ordersOnDeliveries.entries.filter (fun e => e.1.1 = d) =
      (if d = id then (joinRows id 1 dto.orderIds).reverse else []) ++
        s.ordersOnDeliveries.entries.filter fun e => e.1.1 = d := by
  obtain ⟨s₁, h₁, h⟩ := ok_of_bind h
  obtain ⟨s₂, h₂, h⟩ := ok_of_bind h
  obtain ⟨s₃, h₃, h⟩ := ok_of_bind h
  have hjoins : s₃.ordersOnDeliveries = s.ordersOnDeliveries := by
    obtain ⟨orders, rfl, -⟩ := updateOrders_ok h₁
    obtain ⟨-, rfl⟩ := DB.createDelivery_ok h₂
    obtain ⟨-, -, rfl⟩ := DB.createDeliveryStatusRow_ok h₃
    rfl
  rw [joins_createMany h, hjoins]

lemma joinRows_places (n : ℕ) (os : List Id) :
    (joinRows id n os).map (·.2) = List.range' n os.length := by
  rw [joinRows, List.map_map]
  exact List.zipIdx_map_snd n os

lemma sequences_of_joins {n : ℕ} {os : List Id}
    (h : t.ordersOnDeliveries.entries.filter (fun e => e.1.1 = d) =
      (if d = id then (joinRows id n os).reverse else []) ++
        s.ordersOnDeliveries.entries.filter fun e => e.1.1 = d) :
    sequences t d = (if d = id then (List.range' n os.length).reverse else []) ++ sequences s d := by
  rw [sequences, h, List.map_append]
  split
  · rw [List.map_reverse, joinRows_places]
    rfl
  · rfl

lemma sequences_of_not_joined (hs : Joined s) (hid : id ∉ s.deliveries) : sequences s id = [] := by
  rw [sequences, List.map_eq_nil_iff, List.filter_eq_nil_iff]
  intro e he
  rw [decide_eq_true_eq]
  rintro rfl
  exact hid (hs e.1.1 e.1.2 (Table.mem_iff_lookup.mpr ⟨e.2, Table.lookup_eq_some.mpr he⟩))

lemma numbered_same (hs : Numbered s) (h : SameTrips s t) : Numbered t := by
  have hseq : ∀ d, sequences t d = sequences s d := fun d => by rw [sequences, sequences, h.2]
  refine ⟨fun d r hr => ?_, fun d o hjoin => ?_⟩
  · rw [hseq]
    exact hs.sequenced d r (h.1 ▸ hr)
  · rw [h.1]
    exact hs.joined d o (h.2 ▸ hjoin)

lemma numbered_inserts {dto : CreateDeliveryDto} (hs : Numbered s) (h : Inserts s dto t) :
    Numbered t := by
  obtain ⟨id, r, hr, h⟩ := h
  have hadds := insertDelivery_adds h
  refine ⟨fun d r' hr' => ?_, hadds.joined hs.joined⟩
  rw [sequences_of_joins (joins_insertDelivery h d)]
  by_cases hd : d = id
  · subst hd
    rw [hadds.deliveries, AList.lookup_insert, Option.some.injEq] at hr'
    rw [if_pos rfl, sequences_of_not_joined hs.joined hadds.new, List.append_nil, ← hr',
      hr.numberOrder]
    exact List.reverse_perm _
  · rw [hadds.deliveries, AList.lookup_insert_ne hd] at hr'
    rw [if_neg hd]
    exact hs.sequenced d r' hr'

/-- **When an edit keeps the places right.** -/
lemma numbered_edits {dto : UpdateDeliveryDto} {orderIds : List Id} {r : Delivery}
    (hs : Numbered s) (hr : Replans s id dto orderIds r) (h : Edits s id dto orderIds t) :
    Numbered t ↔ orderIds = [] := by
  have hid : Active s id := ⟨r, hr.lookup, .inl hr.pending⟩
  have hseq : ∀ d, sequences t d =
      (if d = id then (List.range' 1 orderIds.length).reverse else []) ++ sequences s d :=
    fun d => sequences_of_joins (joins_createMany h d)
  have hself : t.deliveries.lookup id = some (replanned dto r) := by
    rw [h.extend.deliveries, Table.lookup_modify_self, hr.lookup, Option.map_some]
  constructor
  · intro ht
    have hnew := (ht.sequenced id _ hself).length_eq
    have hold := (hs.sequenced id r hr.lookup).length_eq
    rw [hseq, if_pos rfl, List.length_append, List.length_reverse, List.length_range', hold,
      List.length_range', List.length_range'] at hnew
    change orderIds.length + r.numberOrder = r.numberOrder at hnew
    exact List.length_eq_zero_iff.mp (by omega)
  · rintro rfl
    refine ⟨fun d r' hr' => ?_, h.extend.joined hs.joined hid⟩
    have hsame : sequences t d = sequences s d := by
      rw [hseq]
      split <;> rfl
    rw [hsame]
    by_cases hd : d = id
    · subst hd
      rw [hself, Option.some.injEq] at hr'
      rw [← hr']
      exact hs.sequenced d r hr.lookup
    · rw [h.extend.deliveries, Table.lookup_modify_ne _ _ hd] at hr'
      exact hs.sequenced d r' hr'

lemma numbered_moved {status : DeliveryStatus} (hs : Numbered s) (h : Moved s id status t) :
    Numbered t := by
  refine ⟨fun d r hr => ?_, moved_joined hs.joined h⟩
  have hseq : sequences t d = sequences s d := by rw [sequences, sequences, h.joins]
  rw [hseq]
  by_cases hd : d = id
  · subst hd
    rw [h.deliveries, Table.lookup_modify_self] at hr
    obtain ⟨r', hr', rfl⟩ := Option.map_eq_some_iff.mp hr
    exact hs.sequenced d r' hr'
  · rw [h.deliveries, Table.lookup_modify_ne _ _ hd] at hr
    exact hs.sequenced d r hr

lemma numbered_deleted (hs : Numbered s) (h : s.deleteDelivery id = .ok t) : Numbered t := by
  have hfree := deleteDelivery_free h
  obtain ⟨_, rfl⟩ := DB.deleteDelivery_ok h
  refine ⟨fun d r hr => ?_, fun d o hjoin => ?_⟩
  · by_cases hd : d = id
    · subst hd
      rw [AList.lookup_erase] at hr
      cases hr
    · rw [AList.lookup_erase_ne hd] at hr
      exact hs.sequenced d r hr
  · have hd : d ≠ id := by
      rintro rfl
      exact hfree o hjoin
    exact AList.mem_erase.mpr ⟨hd, hs.joined d o hjoin⟩

/-! ### Runs, and how a trip is read -/

/-- An edit that goes through adds no orders. -/
def KeepsNumbers (s : DB) : Request → Prop
  | .updateDelivery id dto => ∀ orderIds r, Replans s id dto orderIds r → orderIds = []
  | _ => True

/-- **When a request keeps the places right.** -/
lemma numbered_iff {r : Request} (hs : Numbered s) :
    Ends (r.call cfg) s Numbered ↔ KeepsNumbers s r := by
  have hother : ¬ WritesTrips r → Ends (r.call cfg) s Numbered := by
    intro hr
    refine ((call_steps r).preserves fun a b hw ha => ?_).exec hs
    exact numbered_same ha (sameTrips_writes hr hw)
  cases r with
  | createDelivery dto =>
    refine iff_of_true (ends_drop.mpr (createDelivery_inserts.mono fun t ht => ?_)) trivial
    rcases ht with rfl | ⟨-, hins⟩
    · exact hs
    · exact numbered_inserts hs hins
  | updateDelivery id dto =>
    refine ends_drop.trans ⟨fun h orderIds r hr => ?_, fun hk => ?_⟩
    · obtain ⟨t, ht, hedits⟩ := hr.edited h
      exact (numbered_edits hs hr hedits).mp ht
    · refine updateDelivery_edits.mono fun t ht => ?_
      rcases ht with rfl | ⟨orderIds, r, hr, hedits⟩
      · exact hs
      · exact (numbered_edits hs hr hedits).mpr (hk orderIds r hr)
  | updateDeliveryStatus id dto user =>
    refine iff_of_true (ends_drop.mpr (updateDeliveryStatus_ends.mono fun t ht => ?_)) trivial
    cases ht with
    | same h => exact numbered_same hs h
    | ended _ h => exact numbered_moved hs h
    | resumed _ h => exact numbered_moved hs h
  | deleteDelivery id =>
    refine iff_of_true (((call_steps (.deleteDelivery id)).preserves fun a b hw ha => ?_).exec hs)
      trivial
    cases hw with
    | none => exact ha
    | drop h => exact numbered_deleted ha h
  | _ => exact iff_of_true (hother fun h => h) trivial

/-- However the rows come, the trip is read with its orders in one order. -/
def FixedOrder (s : AuthDB) (id : Id) : Prop := ∀ ω ω' r r',
  ((getDelivery id).exec ω s).1 = .ok r → ((getDelivery id).exec ω' s).1 = .ok r' →
    r.orders = r'.orders

lemma getDelivery_ok {s : AuthDB} {ω : ℕ → AuthInput} {r : GetDeliveryDto}
    (h : ((getDelivery id).exec ω s).1 = .ok r) : (∃ d, s.deliveries.lookup id = some d) ∧
      r.orders = ((Table.anyOrder (ω 0).pick (s.placedOrders id)).insertionSort
        fun a b => a.1 ≤ b.1).map (·.2) := by
  unfold getDelivery at h
  rw [exec_read_bind] at h
  rcases hd : s.deliveries.lookup id with _ | d
  · rw [hd] at h
    cases h
  · rw [hd] at h
    cases h
    exact ⟨⟨d, rfl⟩, rfl⟩

lemma sort_unique {α : Type} {l l' : List (ℕ × α)} (h : l.Perm l') (hnd : (l.map (·.1)).Nodup) :
    l.insertionSort (fun a b => a.1 ≤ b.1) = l'.insertionSort fun a b => a.1 ≤ b.1 := by
  have hperm := ((l.perm_insertionSort fun a b => a.1 ≤ b.1).trans h).trans
    (l'.perm_insertionSort fun a b => a.1 ≤ b.1).symm
  have : IsTrans (ℕ × α) fun a b => a.1 ≤ b.1 := ⟨fun _ _ _ => le_trans⟩
  have : Std.Total (fun a b : ℕ × α => a.1 ≤ b.1) := ⟨fun a b => le_total a.1 b.1⟩
  refine hperm.eq_of_pairwise (fun a b ha hb hab hba => ?_) (List.pairwise_insertionSort _ _)
    (List.pairwise_insertionSort _ _)
  have ha' : a ∈ l := ((l.perm_insertionSort fun a b => a.1 ≤ b.1).mem_iff).mp ha
  have hb' : b ∈ l := h.mem_iff.mpr (((l'.perm_insertionSort fun a b => a.1 ≤ b.1).mem_iff).mp hb)
  exact List.inj_on_of_nodup_map hnd ha' hb' (le_antisymm hab hba)

lemma placedOrders_sublist {s : AuthDB} :
    ((s.placedOrders id).map (·.1)).Sublist (sequences s.toDB id) := by
  unfold AuthDB.placedOrders sequences
  induction s.ordersOnDeliveries.entries.filter fun e => e.1.1 = id with
  | nil => exact .refl _
  | cons e es ih =>
    rcases ho : s.orders.lookup e.1.2 with _ | o
    · rw [List.filterMap_cons_none (by rw [ho]; rfl), List.map_cons]
      exact ih.cons _
    · rw [List.filterMap_cons_some (by rw [ho]; rfl), List.map_cons, List.map_cons]
      exact ih.cons_cons _

lemma fixedOrder_of_sequenced {s : AuthDB} (hs : Sequenced s.toDB) : FixedOrder s id := by
  intro ω ω' r r' hr hr'
  obtain ⟨⟨d, hd⟩, hr⟩ := getDelivery_ok hr
  obtain ⟨-, hr'⟩ := getDelivery_ok hr'
  have hnd : (sequences s.toDB id).Nodup :=
    (hs id d hd).nodup_iff.mpr List.nodup_range'
  have hperm := Table.anyOrder_perm (ω 0).pick (s.placedOrders id)
  have hperm' := Table.anyOrder_perm (ω' 0).pick (s.placedOrders id)
  have hplaces : ((Table.anyOrder (ω 0).pick (s.placedOrders id)).map (·.1)).Nodup :=
    (hperm.map _).nodup_iff.mpr (placedOrders_sublist.nodup hnd)
  rw [hr, hr', sort_unique (hperm.trans hperm'.symm) hplaces]

/-- **When the orders of trips have the places from one to their number**: in a run of any
requests, from tables where they do, they do in every state whose steps all add no orders to a
trip by an edit, a step that does can end where they do not, and where they do a trip is read with
its orders in one order. -/
theorem numbered_trips (cfg : Config) (s : DB) (hs : Numbered s)
    (ls : List (Request × (ℕ → Input))) :
    (Machine.Along (serve cfg) (fun s l => KeepsNumbers s l.1) s ls →
      Numbered (Machine.run (serve cfg) s ls) ∧
        ∀ t : AuthDB, t.toDB = Machine.run (serve cfg) s ls → ∀ id, FixedOrder t id) ∧
    (Machine.Along (serve cfg) (fun s l => Ends (l.1.call cfg) s Numbered) s ls ↔
      Machine.Along (serve cfg) (fun s l => KeepsNumbers s l.1) s ls) := by
  obtain ⟨hrun, hiff⟩ : (Machine.Along (serve cfg) (fun s l => KeepsNumbers s l.1) s ls →
        Numbered (Machine.run (serve cfg) s ls)) ∧
      (Machine.Along (serve cfg) (fun s l => Ends (l.1.call cfg) s Numbered) s ls ↔
        Machine.Along (serve cfg) (fun s l => KeepsNumbers s l.1) s ls) :=
    Machine.inv_along_iff Numbered (fun _ l hends => hends l.2)
      (fun _ _ _ hs => numbered_iff hs) hs
  refine ⟨fun hk => ⟨hrun hk, fun t ht id => fixedOrder_of_sequenced ?_⟩, hiff⟩
  rw [ht]
  exact (hrun hk).sequenced

/-- The tables with nothing in those of accounts. -/
def withoutAccounts (s : DB) : AuthDB where
  toDB := s
  accounts := ∅
  residences := ∅
  verificationEmails := ∅
  refreshTokens := ∅
  authProviders := ∅
  emailQueue := []

lemma numbered_of_no_trips (hj : s.ordersOnDeliveries.keys = []) (hd : s.deliveries.keys = []) :
    Numbered s := by
  refine ⟨fun d r hr => ?_, fun d o hjoin => absurd hjoin (not_mem_of_no_joins hj _)⟩
  have hmem : d ∈ s.deliveries.keys := AList.mem_keys.mp (Table.mem_iff_lookup.mpr ⟨r, hr⟩)
  rw [hd] at hmem
  cases hmem

/-- A trip with both orders. -/
def planBoth : List (Request × (ℕ → Input)) :=
  [(.createDelivery ⟨60, .val 3, [11, 10]⟩, Sample.inputs 20)]

theorem numbered_trips_both :
    let t := Machine.run (serve Sample.config) twoOrders planBoth
    sequences t 20 = [2, 1] ∧ Numbered t ∧ FixedOrder (withoutAccounts t) 20 := by
  have h := (numbered_trips Sample.config twoOrders (numbered_of_no_trips rfl rfl) planBoth).1
    ⟨trivial, trivial⟩
  exact ⟨by decide +kernel, h.1, h.2 _ rfl 20⟩

/-- The inputs of a read whose rows come in this order. -/
def inOrder (pick n : ℕ) : AuthInput :=
  { toInput := { Sample.inputs 0 n with pick }, millis := 0, uuid := "" }

/-- The added order gets the place of the first one, and the trip is read in two orders. -/
theorem extended_trip_has_two_firsts : Numbered twoOrders ∧
    let t := Machine.run (serve Sample.config) twoOrders extendedTrip
    sequences t 20 = [1, 1] ∧ ¬ Numbered t ∧ ¬ FixedOrder (withoutAccounts t) 20 := by
  have hrow : ((Machine.run (serve Sample.config) twoOrders extendedTrip).deliveries.lookup
      20).map (·.numberOrder) = some 1 := by decide +kernel
  have hseq : sequences (Machine.run (serve Sample.config) twoOrders extendedTrip) 20 = [1, 1] := by
    decide +kernel
  refine ⟨numbered_of_no_trips rfl rfl, hseq, fun h => ?_, fun h => ?_⟩
  · obtain ⟨r, hr, hone⟩ := Option.map_eq_some_iff.mp hrow
    have hperm := h.sequenced 20 r hr
    rw [hseq, hone] at hperm
    exact absurd hperm.length_eq (by decide)
  · have hread : ∀ pick ids, (((getDelivery 20).exec (inOrder pick) (withoutAccounts
        (Machine.run (serve Sample.config) twoOrders extendedTrip))).1.toOption.map
          fun r => r.orders.map (·.1)) = some ids →
        ∃ r, ((getDelivery 20).exec (inOrder pick) (withoutAccounts
          (Machine.run (serve Sample.config) twoOrders extendedTrip))).1 = .ok r ∧
            r.orders.map (·.1) = ids := by
      intro pick ids hids
      rcases hr : ((getDelivery 20).exec (inOrder pick) (withoutAccounts
        (Machine.run (serve Sample.config) twoOrders extendedTrip))).1 with e | r
      · rw [hr] at hids
        cases hids
      · rw [hr] at hids
        exact ⟨r, rfl, Option.some.inj hids⟩
    obtain ⟨r, hr, hids⟩ := hread 0 [11, 10] (by decide +kernel)
    obtain ⟨r', hr', hids'⟩ := hread 1 [10, 11] (by decide +kernel)
    rw [h _ _ r r' hr hr', hids'] at hids
    exact absurd hids (by decide)

end Trips

end TsaBackend
