import Mathlib.Data.List.MinMax
import TsaBackend.Machine
import TsaBackend.Numerals
import TsaBackend.OrderEffects
import TsaBackend.Pages

/-!
The newest row of an order's log against its status column.

The log is sorted by its times as texts, and any of the rows of the largest one may come first;
the column holds the status that was written last.
-/

namespace TsaBackend.LatestStatus

open Call OrderEffects Machine Numerals

variable {cfg : QueryConfig} {query : OrderQueryDto} {user : GetUserType} {s t : AuthDB} {id : Id}
  {o : Order}

/-- What one `createOrderStatusHistory` writes, and what it meets outside. The images fit their
columns; otherwise nothing is written. -/
structure StatusChange where
  status : OrderStatus
  reason : Option String
  canceledImage : Arg String
  finishedImage : Arg String
  receivedImage : Arg String
  inputs : ℕ → AuthInput
  canceledFits : Fits 255 none canceledImage.toOption
  finishedFits : Fits 255 none finishedImage.toOption

namespace StatusChange

/-- The second in which the change is written. -/
def time (c : StatusChange) : ℕ := (c.inputs 0).now

def row (id : Id) (c : StatusChange) : OrderStatusHistory :=
  statusRow id c.status c.reason c.canceledImage (c.inputs 0).toInput

/-- The call that writes the change. -/
def write (id : Id) (c : StatusChange) : AuthCall Unit :=
  onAuth (createOrderStatusHistory id c.status c.reason c.canceledImage c.finishedImage
    c.receivedImage)

end StatusChange

/-- A change of the status of an order, or anything else that happens to the tables. -/
inductive Event
  | change (id : Id) (c : StatusChange)
  | other (f : AuthDB → AuthDB)

def apply (s : AuthDB) : Event → AuthDB
  | .change id c => ((c.write id).exec c.inputs s).2
  | .other f => f s

/-- The status column and the log of the order stay as they are. -/
structure Keeps (id : Id) (s t : AuthDB) : Prop where
  column : (t.orders.lookup id).map (·.latestStatus) = (s.orders.lookup id).map (·.latestStatus)
  history : t.historyOf id = s.historyOf id

/-- Only `createOrderStatusHistory` changes the status of the order. -/
def OnlyLogged (id : Id) (s : AuthDB) : Event → Prop
  | .change .. => True
  | .other f => Keeps id s (f s)

/-- The changes of one order, in the order they were written. -/
def changesOf (id : Id) (es : List Event) : List StatusChange :=
  es.filterMap fun
    | .change j c => if j = id then some c else none
    | .other _ => none

/-- The status after the changes. -/
def current (first : Option OrderStatus) (cs : List StatusChange) : Option OrderStatus :=
  cs.foldl (fun _ c => some c.status) first

lemma apply_change (ho : s.orders.lookup id = some o) (j : Id) (c : StatusChange) :
    (apply s (.change j c)).historyOf id =
      s.historyOf id ++ (if j = id then [c] else []).map (StatusChange.row id) ∧
    ((apply s (.change j c)).orders.lookup id).map (·.latestStatus) =
      some (current o.latestStatus (if j = id then [c] else [])) := by
  have hexec : (apply s (.change j c)).toDB =
      ((createOrderStatusHistory j c.status c.reason c.canceledImage c.finishedImage
        c.receivedImage).exec (fun n => (c.inputs n).toInput) s.toDB).2 := by
    rw [apply, StatusChange.write, onAuth, exec_zoom]
    rfl
  rw [hexec, createOrderStatusHistory, exec_execute]
  by_cases hj : j ∈ s.orders
  · obtain ⟨oj, hoj⟩ := Table.mem_iff_lookup.mp hj
    rw [logged_eq hoj (imagesFit_of_new c.canceledFits c.finishedFits)]
    dsimp only
    rw [historyOf_logged, lookup_logged]
    by_cases hid : j = id
    · subst hid
      simp [StatusChange.row, current, ho, setStatus]
    · simp [hid, Ne.symm hid, current, ho]
  · -- without the order the transaction fails
    have hne : j ≠ id := by
      rintro rfl
      exact hj (Table.mem_iff_lookup.mpr ⟨o, ho⟩)
    have hfail : s.toDB.createOrderStatusRow (statusRow j c.status c.reason c.canceledImage
        (c.inputs 0).toInput) = .error (.prisma .foreignKeyConstraint) := by
      refine (if_neg (not_not.mpr ?_)).trans (if_neg hj)
      exact c.canceledFits
    rw [hfail]
    simp [hne, current, ho, Bind.bind, Except.bind]

/-- **What a run leaves of an order**: its log has grown by the rows of its changes, and its column
holds the last of them. -/
lemma run_changes {es : List Event} (ho : s.orders.lookup id = some o)
    (hes : Along apply (OnlyLogged id) s es) :
    (run apply s es).historyOf id =
      s.historyOf id ++ (changesOf id es).map (StatusChange.row id) ∧
    ((run apply s es).orders.lookup id).map (·.latestStatus) =
      some (current o.latestStatus (changesOf id es)) := by
  induction es generalizing s o with
  | nil => simp [changesOf, current, ho]
  | cons e es ih =>
    have hstep : ∃ cs, changesOf id (e :: es) = cs ++ changesOf id es ∧
        (apply s e).historyOf id = s.historyOf id ++ cs.map (StatusChange.row id) ∧
        ((apply s e).orders.lookup id).map (·.latestStatus) =
          some (current o.latestStatus cs) := by
      cases e with
      | change j c =>
        refine ⟨if j = id then [c] else [], ?_, apply_change ho j c⟩
        by_cases hj : j = id <;> simp [changesOf, hj]
      | other f =>
        obtain ⟨hcolumn, hhistory⟩ : Keeps id s (f s) := hes.1
        refine ⟨[], rfl, ?_, ?_⟩
        · rw [apply, hhistory, List.map_nil, List.append_nil]
        · rw [apply, hcolumn, ho]
          rfl
    obtain ⟨cs, hcs, hhistory, hcolumn⟩ := hstep
    obtain ⟨o', ho', hlatest⟩ := Option.map_eq_some_iff.mp hcolumn
    obtain ⟨hrest, hlast⟩ := ih ho' hes.2
    rw [run_cons, hrest, hlast, hcs, hhistory, hlatest]
    simp [current, List.foldl_append]

/-- The changes that the log does not sort behind another one. -/
def newest (cs : List StatusChange) : List StatusChange :=
  cs.filter fun c => cs.all fun c' => ¬ NatBefore c.time c'.time

lemma mem_newest {cs : List StatusChange} {c : StatusChange} :
    c ∈ newest cs ↔ c ∈ cs ∧ ∀ c' ∈ cs, ¬ NatBefore c.time c'.time := by
  simp [newest]

lemma time_lt_iff (id : Id) {c c' : StatusChange} :
    (c.row id).time < (c'.row id).time ↔ NatBefore c.time c'.time := repr_lt_iff

lemma latestRows_map (cs : List StatusChange) :
    latestRows (cs.map (StatusChange.row id)) = (newest cs).map (StatusChange.row id) := by
  rw [latestRows, List.filter_map, newest]
  congr 1
  refine List.filter_congr fun c _ => ?_
  rw [Function.comp_apply, Bool.eq_iff_iff, List.all_map, List.all_eq_true, List.all_eq_true]
  refine forall₂_congr fun c' _ => ?_
  rw [Function.comp_apply, decide_eq_true_iff, decide_eq_true_iff, time_lt_iff]

lemma newest_eq_nil {cs : List StatusChange} : newest cs = [] ↔ cs = [] := by
  refine ⟨fun h => ?_, fun h => by rw [h]; rfl⟩
  let f (c : StatusChange) : String := (c.row 0).time
  rw [← List.argmax_eq_none (f := f)]
  rcases hmax : cs.argmax f with _ | c
  · rfl
  · have hc : c ∈ newest cs := by
      refine mem_newest.mpr ⟨List.argmax_mem hmax, fun c' hc' => ?_⟩
      rw [← time_lt_iff 0]
      exact List.not_lt_of_mem_argmax (f := f) hc' hmax
    rw [h] at hc
    cases hc

/-- The status column. -/
def column (id : Id) (s : AuthDB) : Option OrderStatus :=
  (s.orders.lookup id).bind (·.latestStatus)

/-- The newest row has the status of the column, whichever of them the database returns. -/
def NewestIsColumn (id : Id) (s : AuthDB) : Prop :=
  ∀ pick, (s.findLatestStatusRow pick id).map (·.status) = column id s

/-- The changes with the largest time all have the status of the last one; without a change the
order has no status. -/
structure NewestAgree (first : Option OrderStatus) (cs : List StatusChange) : Prop where
  unlogged : cs = [] → first = none
  newest : ∀ c ∈ cs, (∀ c' ∈ cs, ¬ NatBefore c.time c'.time) → some c.status = current first cs

lemma newestIsColumn_iff {first : Option OrderStatus} {cs : List StatusChange}
    (hhistory : s.historyOf id = cs.map (StatusChange.row id))
    (hcolumn : column id s = current first cs) :
    NewestIsColumn id s ↔ NewestAgree first cs := by
  have hfind : ∀ pick, (s.findLatestStatusRow pick id).map (·.status) =
      ((newest cs)[pick % (newest cs).length]?).map (·.status) := by
    intro pick
    rw [DB.findLatestStatusRow, hhistory, latestRows_map, List.length_map, List.getElem?_map,
      Option.map_map]
    rfl
  unfold NewestIsColumn
  simp only [hfind, hcolumn]
  constructor
  · refine fun h => ⟨?_, fun c hc hmax => ?_⟩
    · rintro rfl
      exact (h 0).symm
    · obtain ⟨pick, hpick⟩ := Table.exists_pick (mem_newest.mpr ⟨hc, hmax⟩)
      rw [← h pick, hpick]
      rfl
  · intro h pick
    rcases hpick : (newest cs)[pick % (newest cs).length]? with _ | c
    · obtain rfl := newest_eq_nil.mp (Table.pick_eq_none.mp hpick)
      exact (h.unlogged rfl).symm
    · obtain ⟨hc, hmax⟩ := mem_newest.mp (List.mem_of_getElem? hpick)
      exact h.newest c hc hmax

/-- While the clock does not go back and its numerals keep their length, the newest rows are those
of the last second. -/
lemma newestAgree_iff {first : Option OrderStatus} {cs : List StatusChange} (hne : cs ≠ [])
    (hclock : cs.Pairwise fun a b => a.time ≤ b.time)
    (hwidth : ∀ a ∈ cs, ∀ b ∈ cs, width a.time = width b.time) :
    NewestAgree first cs ↔
      ∀ c ∈ cs, c.time = (cs.getLast hne).time → c.status = (cs.getLast hne).status := by
  obtain ⟨l, last, rfl⟩ : ∃ l last, cs = l ++ [last] :=
    ⟨_, _, (List.dropLast_append_getLast hne).symm⟩
  have hlast : last ∈ l ++ [last] := by simp
  have hcurrent : current first (l ++ [last]) = some last.status := by
    rw [current, List.foldl_concat]
  have hle : ∀ c ∈ l ++ [last], c.time ≤ last.time := by
    intro c hc
    rcases List.mem_append.mp hc with hl | hl
    · exact (List.pairwise_append.mp hclock).2.2 c hl last (by simp)
    · rw [List.mem_singleton.mp hl]
  have hmax : ∀ c ∈ l ++ [last],
      (∀ c' ∈ l ++ [last], ¬ NatBefore c.time c'.time) ↔ c.time = last.time := by
    intro c hc
    constructor
    · intro h
      have hnot := h last hlast
      rw [natBefore_iff_lt (hwidth c hc last hlast)] at hnot
      have := hle c hc
      omega
    · intro h c' hc'
      rw [natBefore_iff_lt (hwidth c hc c' hc')]
      have := hle c' hc'
      omega
  simp only [List.getLast_append_singleton]
  constructor
  · intro h c hc htime
    have := h.newest c hc ((hmax c hc).mpr htime)
    rw [hcurrent] at this
    exact Option.some.inj this
  · refine fun h => ⟨by simp, fun c hc hnewest => ?_⟩
    rw [hcurrent, h c hc ((hmax c hc).mp hnewest)]

/-! ### What is read of the log -/

/-- Every call that reads the newest row sees the status of the column: `getLatestOrderStatus`, the
list of orders filtered by a status, and the guard of `deleteOrder`. -/
structure LogAgrees (cfg : QueryConfig) (id : Id) (s : AuthDB) : Prop where
  latest : ∀ ω, ((onAuth (getLatestOrderStatus id)).exec ω s).1 = .ok (column id s)
  listed : ∀ query user st, statusFilter OrderStatus.ofName query.status = .ok (some st) →
    OnReturn (fun _ => True) (getOrders cfg query user)
      (fun page _ => ∀ r ∈ page.results, r.id = id → r.latestStatus = some st) s
  guarded : ∀ pick ω, ((checkDelete (s.findLatestStatusRow pick id)).exec ω s.toDB).1 = .ok () →
    column id s = some .pending ∨ column id s = some .rejected

lemma wp_onAuth_read_bind {α β : Type} {E : AuthInput → Prop} {G : AuthDB → AuthDB → Prop}
    {Q : β → AuthDB → Prop} {X : Exn → AuthDB → Prop} (f : Input → DB → α) (g : α → AuthCall β) :
    (onAuth (.read f) >>= g).wp E G Q X s ↔
      ∀ i, E i → G s s ∧ (g (f i.toInput s.toDB)).wp E G Q X s := Iff.rfl

lemma withStatus_wp (e : Id × Order) :
    (withStatus e).wp (fun _ => True) (fun _ _ => True)
      (fun r t => t = s ∧ r.id = e.1 ∧
        ∃ pick, r.latestStatus = (s.findLatestStatusRow pick e.1).map (·.status))
      (fun _ _ => True) s := by
  unfold withStatus getLatestOrderStatus getHistoryTimee staffInfo
  rw [wp_onAuth_read_bind]
  refine fun i _ => ⟨trivial, ?_⟩
  rw [wp_onAuth_read_bind]
  refine fun _ _ => ⟨trivial, ?_⟩
  rcases e.2.shipperId with _ | u
  · exact ⟨rfl, rfl, i.pick, rfl⟩
  · dsimp only
    rw [bind_assoc, wp_bind, wp_read]
    refine fun _ _ => ⟨trivial, ?_⟩
    rcases s.accounts.lookup u with _ | staff
    · trivial
    · exact ⟨rfl, rfl, i.pick, rfl⟩

lemma listed_of_newest (h : NewestIsColumn id s) {st : OrderStatus}
    (hst : statusFilter OrderStatus.ofName query.status = .ok (some st)) :
    OnReturn (fun _ => True) (getOrders cfg query user)
      (fun page _ => ∀ r ∈ page.results, r.id = id → r.latestStatus = some st) s := by
  rw [onReturn_iff ⟨default, trivial⟩]
  unfold getOrders
  rcases hp : orderWhere cfg query user with _ | p
  · trivial
  have hstatus : ∀ j o, p j o = true → o.latestStatus = some st := by
    intro j o hpo
    unfold orderWhere at hp
    obtain ⟨dated, -, hp⟩ := ok_of_bind hp
    rw [hst] at hp
    cases hp
    simp [matchesOrder] at hpo
    exact hpo.1.1.2
  dsimp only
  rw [wp_bind, wp_read]
  refine fun i _ => ⟨trivial, ?_⟩
  rw [wp_bind, wp_read]
  refine fun _ _ => ⟨trivial, ?_⟩
  rw [wp_bind]
  refine wp_mono (wp_mapM fun e _ => withStatus_wp e) ?_ fun _ _ _ => trivial
  rintro results t ⟨hts, hresults⟩ r hr hid
  obtain ⟨e, he, hre, pick, hlatest⟩ := hresults r hr
  obtain ⟨row, hrow, rfl⟩ := List.mem_map.mp (Pages.mem_of_mem_page he)
  obtain ⟨hmem, hprow⟩ := List.mem_filter.mp hrow
  have hcolumn : column row.1 s = some st := by
    rw [column, Table.lookup_eq_some.mpr hmem]
    exact hstatus _ _ hprow
  have hrow : row.1 = id := hre.symm.trans hid
  rw [hrow] at hlatest hcolumn
  rw [hlatest, h pick, hcolumn]

lemma guarded_of_newest (h : NewestIsColumn id s) (pick : ℕ) (ω : ℕ → Input)
    (hpass : ((checkDelete (s.findLatestStatusRow pick id)).exec ω s.toDB).1 = .ok ()) :
    column id s = some .pending ∨ column id s = some .rejected := by
  have hpick := h pick
  rcases hrow : s.findLatestStatusRow pick id with _ | row
  · rw [hrow] at hpass
    cases hpass
  · rw [hrow] at hpass hpick
    rw [← hpick, Option.map_some]
    by_contra hno
    rw [not_or] at hno
    have hguard : row.status ≠ .rejected ∧ row.status ≠ .pending :=
      ⟨fun h => hno.2 (by rw [h]), fun h => hno.1 (by rw [h])⟩
    simp [checkDelete, throwIf, hguard, exec] at hpass

lemma logAgrees_iff : LogAgrees cfg id s ↔ NewestIsColumn id s := by
  constructor
  · intro h pick
    have := h.latest fun _ => { (default : AuthInput) with pick }
    rw [onAuth, exec_zoom] at this
    exact Except.ok.inj this
  · refine fun h => ⟨fun ω => ?_, fun query user st hst => listed_of_newest h hst,
      guarded_of_newest h⟩
    rw [onAuth, exec_zoom]
    exact congrArg Except.ok (h (ω 0).pick)

/-- **When the log agrees with the column**: exactly when the changes that the log sorts last, ties
included, all have the status of the last change. While the clock does not go back and its numerals
keep their length, these are the changes in the second of the last one. -/
theorem latest_status_iff (cfg : QueryConfig) (id : Id) (s : AuthDB) (o : Order)
    (es : List Event) (ho : s.orders.lookup id = some o) (hnew : s.historyOf id = [])
    (hes : Along apply (OnlyLogged id) s es) :
    (LogAgrees cfg id (run apply s es) ↔ NewestAgree o.latestStatus (changesOf id es)) ∧
    (∀ hne : changesOf id es ≠ [],
      ((changesOf id es).Pairwise fun a b => a.time ≤ b.time) →
      (∀ a ∈ changesOf id es, ∀ b ∈ changesOf id es, width a.time = width b.time) →
      (NewestAgree o.latestStatus (changesOf id es) ↔ ∀ c ∈ changesOf id es,
        c.time = ((changesOf id es).getLast hne).time →
        c.status = ((changesOf id es).getLast hne).status)) := by
  obtain ⟨hhistory, hcolumn⟩ := run_changes ho hes
  rw [hnew, List.nil_append] at hhistory
  refine ⟨?_, fun hne hclock hwidth => newestAgree_iff hne hclock hwidth⟩
  rw [logAgrees_iff]
  refine newestIsColumn_iff hhistory ?_
  obtain ⟨o', ho', hlatest⟩ := Option.map_eq_some_iff.mp hcolumn
  rw [column, ho', ← hlatest]
  rfl

/-- A change in the second `now`. -/
def changeAt (status : OrderStatus) (now : ℕ) : StatusChange where
  status
  reason := none
  canceledImage := .undefined
  finishedImage := .undefined
  receivedImage := .undefined
  inputs := fun _ => { (default : AuthInput) with now }
  canceledFits := .inl rfl
  finishedFits := .inl rfl

/-- A registered order is accepted a second later, or in the same second. -/
def acceptedAt (now : ℕ) : List Event :=
  [.change 10 (changeAt .pending 1700000000), .change 10 (changeAt .accepted now)]

lemma acceptedAt_along (now : ℕ) :
    Along apply (OnlyLogged 10) Pages.twoOrders (acceptedAt now) := ⟨trivial, trivial, trivial⟩

theorem latest_status_accepted :
    LogAgrees Pages.sampleConfig 10 (run apply Pages.twoOrders (acceptedAt 1700000001)) := by
  have hmain := latest_status_iff Pages.sampleConfig 10 Pages.twoOrders Sample.order
    (acceptedAt 1700000001) rfl rfl (acceptedAt_along _)
  have hlast := hmain.2 (by simp [acceptedAt, changesOf]) (by decide) (by decide +kernel)
  exact hmain.1.mpr (hlast.mpr (by decide))

/-- An order that is accepted in the second of its registration may be shown as pending, and
deleted by its student. -/
theorem accepted_still_pending :
    ¬ LogAgrees Pages.sampleConfig 10 (run apply Pages.twoOrders (acceptedAt 1700000000)) := by
  intro h
  rcases h.guarded 0 (fun _ => default) (by decide +kernel) with hcolumn | hcolumn
  · exact absurd hcolumn (by decide +kernel)
  · exact absurd hcolumn (by decide +kernel)

end TsaBackend.LatestStatus
