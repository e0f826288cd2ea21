import Mathlib.Algebra.BigOperators.Ring.Finset
import Mathlib.Data.Finset.Card
import Mathlib.Tactic.Linarith
import Mathlib.Tactic.Ring
import TsaBackend.Phases
import TsaBackend.ReadModifyWrite
import TsaBackend.RequestSteps

/-!
Cancellations that run at the same time and charge the same student: the counter is read in one
step and written in another, and an order can be charged before it is canceled.

The charges are transactions of `ReadModifyWrite.lean` on the counter with its sign changed.
-/

namespace TsaBackend.FaultRaces

open Call OrderEffects RequestSteps

variable {cfg : Config} {dto : UpdateStatusDto} {user : GetUserType} {s s₀ t : DB} {id u : Id}
  {o : Order} {n : ℕ}

def statusOf (id : Id) (s : DB) : Option OrderStatus :=
  (s.orders.lookup id).bind (·.latestStatus)

/-- The faults of a student. -/
def faultsOf (u : Id) (s : DB) : ℤ := ((s.students.lookup u).map (·.numberFault)).getD 0

/-! ### One cancellation -/

/-- What a call knows and has done. -/
inductive Stage
  | start
  | found
  | known (v : ℤ)
  | charged
  | recorded
  | failed

namespace Stage

/-- The fault is charged. -/
def paid : Stage → Bool
  | .charged | .recorded | .failed => true
  | _ => false

/-- The charge as a transaction on the counter with its sign changed. -/
def abstract : Stage → ReadModifyWrite.Stage ℤ
  | .start | .found => .idle
  | .known v => .read (-v)
  | .charged | .recorded | .failed => .done

lemma paid_eq (p : Stage) : p.paid = p.abstract.isDone := by cases p <;> rfl

lemma abstract_read {p : Stage} {v : ℤ} : p.abstract = .read (-v) ↔ p = .known v := by
  cases p <;> simp [abstract]

end Stage

/-- The steps of a cancellation, by their numbers. -/
inductive CancelStep (u id : Id) (dto : UpdateStatusDto) :
    ℕ → Stage → DB → DB → Stage → Prop
  | stay {n : ℕ} {p : Stage} {s : DB} (h : n ≠ 3) : CancelStep u id dto n p s s p
  | find {s : DB} (h : isValidTransition (statusOf id s) .canceled = true) :
    CancelStep u id dto 0 .start s s .found
  | know {s : DB} : CancelStep u id dto 1 .found s s (.known (faultsOf u s))
  | charge {s t : DB} {v : ℤ} {ban : Bool} (h : s.chargeStudent u (v + 1) ban = .ok t) :
    CancelStep u id dto 3 (.known v) s t .charged
  | record {s : DB} (i : Input) : CancelStep u id dto 5 .charged s (recorded i id dto s) .recorded
  | fail {s : DB} {o : Order} (ho : s.orders.lookup id = some o)
    (h : ¬ ImagesFit o dto.canceledImage dto.finishedImage) :
    CancelStep u id dto 5 .charged s s .failed

/-- The rows a cancellation relies on are there, and the notification of a charged call is
accepted. -/
structure Ready (u id : Id) (p : ℕ × Stage) (i : Input) (s : DB) : Prop where
  order : ∃ o, s.orders.lookup id = some o ∧ o.studentId = some u
  student : u ∈ s.students
  user : u ∈ s.users
  told : p.1 = 4 → i.ok = true

lemma chargeStudent_succeeds {v : ℤ} {ban : Bool} (hst : u ∈ s.students) (hu : u ∈ s.users) :
    ∃ t, s.chargeStudent u v ban = .ok t := by
  unfold DB.chargeStudent DB.updateStudent
  rw [if_pos hst]
  change ∃ t, (if ban then DB.updateUser _ u _ else .ok _) = .ok t
  cases ban with
  | false => exact ⟨_, rfl⟩
  | true =>
    unfold DB.updateUser
    rw [if_pos rfl, if_pos hu]
    exact ⟨_, rfl⟩

abbrev CancelFollows {α : Type} (u id : Id) (dto : UpdateStatusDto) (c : Async α)
    (p : ℕ × Stage) : Prop :=
  c.Follows (Ready u id) (Counted (CancelStep u id dto)) (fun p _ => p.2 = .recorded)
    (fun p _ => p.2.paid = false ∨ p.2 = .failed) p

/-- The change is recorded with the last step, which fails when an image is too long. -/
lemma record_follows {b : String} : CancelFollows u id dto
    (createOrderStatusHistory id dto.status (mapReason dto.cancelReasonType dto.reason)
      dto.canceledImage dto.finishedImage dto.receivedImage >>= fun _ => Pure.pure b)
    (5, .charged) := by
  refine Follows.bind (follows_atomic (fun i s _ t _ h => ?_) fun i s e hs h => ?_)
  · obtain ⟨-, rfl⟩ := logged_of_ok (of_map_ok h)
    exact ⟨(6, .recorded), ⟨rfl, .record i⟩, rfl⟩
  · obtain ⟨o, ho, -⟩ := hs.order
    by_cases hfit : ImagesFit o dto.canceledImage dto.finishedImage
    · dsimp only at h
      rw [logged_eq ho hfit] at h
      cases h
    · exact ⟨(6, .failed), ⟨rfl, .fail ho hfit⟩, .inr rfl⟩

/-- From the charge on, the call notifies the student and records the change. -/
lemma changeStatus_follows (hst : dto.status = .canceled) (ho : o.studentId = some u)
    (hvalid : isValidTransition o.latestStatus .canceled = true) :
    CancelFollows u id dto (changeStatus id dto user o) (4, .charged) := by
  unfold changeStatus
  refine follows_throwIf (fun hno => ?_) fun _ => ?_
  · rw [hst] at hno
    exact absurd hvalid hno
  have hpay : ¬ paysCash o dto.status user := by
    rintro ⟨-, hdelivered, -⟩
    rw [hst] at hdelivered
    cases hdelivered
  rw [Call.when, if_neg hpay]
  change CancelFollows u id dto (recordStatus id dto o) (4, .charged)
  have hsome : (some u).isSome = true := rfl
  unfold recordStatus
  rw [ho, Call.when, if_pos hsome]
  refine Follows.bind (follows_atomic (fun i s _ t hs h => ?_) fun i s e hs h => ?_)
  · rw [if_pos (hs.told rfl)] at h
    cases h
    exact ⟨(5, .charged), ⟨rfl, .stay (by decide)⟩, record_follows⟩
  · rw [if_pos (hs.told rfl)] at h
    cases h

/-- The charge: the student is read, then the regulation, then both rows are written. -/
lemma chargeFault_follows (ho : o.studentId = some u) :
    (chargeFault cfg o).Follows (Ready u id) (Counted (CancelStep u id dto))
      (fun p _ => p = (4, .charged)) (fun p _ => p.2.paid = false) (1, .found) := by
  unfold chargeFault
  rw [ho]
  refine follows_read fun i s _ => ?_
  rcases hstudent : s.students.lookup u with _ | student
  · exact ⟨(2, .found), ⟨rfl, .stay (by decide)⟩, rfl⟩
  have hv : faultsOf u s = student.numberFault := by
    rw [faultsOf, hstudent]
    rfl
  refine ⟨(2, .known student.numberFault), ⟨rfl, hv ▸ .know⟩, ?_⟩
  dsimp only
  rcases student.dormitory with _ | dormitory
  · exact rfl
  have htwo : 2 ≠ 3 := by decide
  refine follows_read fun i s _ => ⟨(3, .known student.numberFault), ⟨rfl, .stay htwo⟩, ?_⟩
  refine follows_atomic (fun i s _ t _ h => ?_) fun i s e hs h => ?_
  · exact ⟨(4, .charged), ⟨rfl, .charge (of_map_ok h)⟩, rfl⟩
  · obtain ⟨t, ht⟩ := chargeStudent_succeeds hs.student hs.user
    dsimp only at h
    rw [ht] at h
    cases h

/-- **A cancellation that comes from the student**: it charges before it records. -/
theorem updateStatus_follows (hdto : charges dto) :
    CancelFollows u id dto (updateStatus cfg id dto user) (0, .start) := by
  obtain ⟨hst, htype⟩ := hdto
  unfold updateStatus
  refine follows_read fun i s hs => ?_
  obtain ⟨o, ho, hstudent⟩ := hs.order
  have hstatus : statusOf id s = o.latestStatus := by
    rw [statusOf, ho]
    rfl
  -- the order that is found is cancellable, or the permission is refused
  obtain ⟨p, hp, hpaid, hfound⟩ : ∃ p, CancelStep u id dto 0 .start s s p ∧ p.paid = false ∧
      (isValidTransition o.latestStatus .canceled = true → p = .found) := by
    by_cases hvalid : isValidTransition o.latestStatus .canceled = true
    · exact ⟨.found, .find (hstatus ▸ hvalid), rfl, fun _ => rfl⟩
    · exact ⟨.start, .stay (by decide), rfl, fun h => absurd h hvalid⟩
  refine ⟨(1, p), ⟨rfl, hp⟩, ?_⟩
  rw [ho]
  have hstop : p.paid = false ∨ p = .failed := .inl hpaid
  refine follows_throwIf (fun _ => hstop) fun _ => follows_throwIf (fun _ => hstop) fun _ => ?_
  rw [Call.when, if_pos hst]
  refine Follows.bind ?_
  unfold checkCancel
  refine follows_throwIf (fun _ => hstop) fun hperm => ?_
  refine follows_throwIf (fun _ => hstop) fun _ => follows_throwIf (fun _ => hstop) fun _ => ?_
  have hvalid : isValidTransition o.latestStatus .canceled = true :=
    valid_of_permission (not_not.mp hperm)
  obtain rfl := hfound hvalid
  rw [Call.when, if_pos htype]
  refine (chargeFault_follows hstudent).mono (fun _ _ _ h => h) (fun _ _ _ _ h => h) ?_
    fun _ _ h => .inl h
  rintro q _ rfl
  exact changeStatus_follows hst hstudent hvalid

/-! ### Cancellations that race -/

/-- The cancellations of these orders. -/
def cancellations (cfg : Config) (reqs : List (Id × UpdateStatusDto × GetUserType)) :
    List (Async String) := reqs.map fun r => updateStatus cfg r.1 r.2.1 r.2.2

/-- The orders that went from a cancellable status to canceled. -/
def canceledOrders (s t : DB) : Finset Id := s.orders.keys.toFinset.filter fun id =>
  isValidTransition (statusOf id s) .canceled = true ∧ statusOf id t = some .canceled

/-- The student has one more fault for each of those orders. -/
def Settled (u : Id) (s t : DB) : Prop := faultsOf u t = faultsOf u s + (canceledOrders s t).card

instance (u : Id) (s t : DB) : Decidable (Settled u s t) := by
  unfold Settled; infer_instance

section Conditions

variable (s : DB) (cs : List (Async String)) (sched : List (ℕ × Input))

/-- Every charge is written while the counter is what the call has read. -/
def Fresh (u : Id) : Prop := ∀ k m n, Takes s cs sched k 1 m → Takes s cs sched k 3 n →
  faultsOf u (before s cs sched m).1 = faultsOf u (before s cs sched n).1

/-- Some charge before position `n` is not. -/
def Stale (u : Id) (n : ℕ) : Prop :=
  ∃ k m p, p < n ∧ Takes s cs sched k 1 m ∧ Takes s cs sched k 3 p ∧
    faultsOf u (before s cs sched m).1 ≠ faultsOf u (before s cs sched p).1

/-- No two calls charge the same order. -/
def ChargedOnce (reqs : List (Id × UpdateStatusDto × GetUserType)) : Prop :=
  ∀ j k m n r r', Takes s cs sched j 3 m → Takes s cs sched k 3 n → reqs[j]? = some r →
    reqs[k]? = some r' → r.1 = r'.1 → j = k

/-- The notification of every charged call is accepted. -/
def Told : Prop := ∀ k n i, Takes s cs sched k 4 n → sched[n]? = some (k, i) → i.ok = true

/-- The images of every charged call fit their columns. -/
def Stored (reqs : List (Id × UpdateStatusDto × GetUserType)) : Prop :=
  ∀ k n r, Takes s cs sched k 5 n → reqs[k]? = some r →
    ∀ o ∈ (before s cs sched n).1.orders.lookup r.1,
      ImagesFit o r.2.1.canceledImage r.2.1.finishedImage

end Conditions

variable {cs : List (Async String)} {sched : List (ℕ × Input)}
  {reqs : List (Id × UpdateStatusDto × GetUserType)} {ph : ℕ → ℕ × Stage} {k : ℕ}

/-- What every step relies on, for all the orders. -/
structure AllReady (u : Id) (reqs : List (Id × UpdateStatusDto × GetUserType)) (s : DB) : Prop where
  orders : ∀ r ∈ reqs, ∃ o, s.orders.lookup r.1 = some o ∧ o.studentId = some u
  student : u ∈ s.students
  user : u ∈ s.users

/-- The cancellations are in the phases `ph`. -/
abbrev Cancelling (u : Id) (reqs : List (Id × UpdateStatusDto × GetUserType)) (s : DB)
    (cs : List (Async String)) (sched : List (ℕ × Input)) (ph : ℕ → ℕ × Stage) (n : ℕ) : Prop :=
  Timed (fun p i s => AllReady u reqs s ∧ (p.1 = 4 → i.ok = true))
    (fun k n p s t q => ∃ r, reqs[k]? = some r ∧ CancelStep u r.1 r.2.1 n p s t q)
    (fun _ p _ => p.2 = .recorded) (fun _ p _ => p.2.paid = false ∨ p.2 = .failed) s cs sched ph n

lemma cancelling_zero (hreqs : ∀ r ∈ reqs, charges r.2.1) :
    Cancelling u reqs s (cancellations cfg reqs) sched (fun _ => (0, .start)) 0 := by
  refine timed_zero fun k c hc => ?_
  rw [cancellations, List.getElem?_map] at hc
  obtain ⟨r, hr, rfl⟩ := Option.map_eq_some_iff.mp hc
  have hmem : r ∈ reqs := List.mem_of_getElem? hr
  have hcall : CancelFollows u r.1 r.2.1 (updateStatus cfg r.1 r.2.1 r.2.2) (0, .start) :=
    updateStatus_follows (hreqs r hmem)
  refine hcall.mono (fun p i s hs => ?_) (fun p s t q h => ?_) (fun _ _ h => h) fun _ _ h => h
  · exact ⟨hs.1.orders r hmem, hs.1.student, hs.1.user, hs.2⟩
  · exact ⟨h.1, r, hr, h.2⟩

/-- An order is canceled by the calls that have recorded it, and was cancellable before. -/
structure Marks (s₀ : DB) (reqs : List (Id × UpdateStatusDto × GetUserType))
    (ph : ℕ → ℕ × Stage) (s : DB) : Prop where
  unchanged : ∀ id, (∀ k r, reqs[k]? = some r → r.1 = id → (ph k).2 ≠ .recorded) →
    statusOf id s = statusOf id s₀
  canceled : ∀ k r, reqs[k]? = some r → (ph k).2 = .recorded → statusOf r.1 s = some .canceled
  opened : ∀ k r, reqs[k]? = some r → (ph k).2 ≠ .start →
    isValidTransition (statusOf r.1 s₀) .canceled = true

lemma marks_start : Marks s₀ reqs (fun _ => (0, .start)) s₀ where
  unchanged _ _ := rfl
  canceled k r _ h := by cases h
  opened k r _ h := absurd rfl h

lemma Marks.of_valid (h : Marks s₀ reqs ph s)
    (hst : isValidTransition (statusOf id s) .canceled = true) : statusOf id s = statusOf id s₀ := by
  refine h.unchanged id fun k r hr hid hrec => ?_
  subst hid
  rw [h.canceled k r hr hrec] at hst
  cases hst

lemma Marks.keep {q : ℕ × Stage} (h : Marks s₀ reqs ph s)
    (hst : ∀ id, statusOf id t = statusOf id s)
    (hq : q.2 = .recorded ↔ (ph k).2 = .recorded)
    (hopen : ∀ r, reqs[k]? = some r → q.2 ≠ .start →
      isValidTransition (statusOf r.1 s₀) .canceled = true) :
    Marks s₀ reqs (Function.update ph k q) t := by
  have hrec : ∀ j, (Function.update ph k q j).2 = .recorded ↔ (ph j).2 = .recorded := by
    intro j
    by_cases hj : j = k
    · rw [hj, Function.update_self, hq]
    · rw [Function.update_of_ne hj]
  refine ⟨fun id hid => ?_, fun j r hr hj => ?_, fun j r hr hj => ?_⟩
  · rw [hst]
    exact h.unchanged id fun j r hr hid' hj => hid j r hr hid' ((hrec j).mpr hj)
  · rw [hst]
    exact h.canceled j r hr ((hrec j).mp hj)
  · by_cases hjk : j = k
    · subst hjk
      rw [Function.update_self] at hj
      exact hopen r hr hj
    · rw [Function.update_of_ne hjk] at hj
      exact h.opened j r hr hj

lemma statusOf_recorded {i : Input} (hst : dto.status = .canceled) (hid : id ∈ s.orders) (j : Id) :
    statusOf j (recorded i id dto s) = if j = id then some .canceled else statusOf j s := by
  obtain ⟨o, ho⟩ := Table.mem_iff_lookup.mp hid
  rw [statusOf, recorded, lookup_logged]
  by_cases hj : j = id
  · rw [if_pos hj, if_pos hj, hj, ho, hst]
    rfl
  · rw [if_neg hj, if_neg hj]
    rfl

lemma Marks.record {i : Input} {m : ℕ} {r : Id × UpdateStatusDto × GetUserType}
    (h : Marks s₀ reqs ph s) (hr : reqs[k]? = some r) (hst : r.2.1.status = .canceled)
    (hid : r.1 ∈ s.orders) (hph : (ph k).2 = .charged) :
    Marks s₀ reqs (Function.update ph k (m, .recorded)) (recorded i r.1 r.2.1 s) := by
  refine ⟨fun id hnone => ?_, fun j r' hr' hj => ?_, fun j r' hr' hj => ?_⟩
  · have hne : id ≠ r.1 := by
      rintro rfl
      exact hnone k r hr rfl (by rw [Function.update_self])
    rw [statusOf_recorded hst hid, if_neg hne]
    refine h.unchanged id fun j r' hr' hid' hj => hnone j r' hr' hid' ?_
    by_cases hjk : j = k
    · rw [hjk, Function.update_self]
    · rwa [Function.update_of_ne hjk]
  · rw [statusOf_recorded hst hid]
    split
    · rfl
    · next hne =>
      by_cases hjk : j = k
      · rw [hjk, hr, Option.some.injEq] at hr'
        exact absurd (congrArg Prod.fst hr'.symm) hne
      · rw [Function.update_of_ne hjk] at hj
        exact h.canceled j r' hr' hj
  · refine h.opened j r' hr' ?_
    by_cases hjk : j = k
    · rw [hjk, hph]
      exact fun h => by cases h
    · rwa [Function.update_of_ne hjk] at hj

/-- The counter with its sign changed, and the charges. -/
def ledger (u : Id) (N : ℕ) (s : DB) (ph : ℕ → ℕ × Stage) :
    ReadModifyWrite.State Unit (Fin N) ℤ :=
  ⟨fun _ => -faultsOf u s, fun i => (ph i).2.abstract⟩

lemma not_wrote {N : ℕ} (i : Fin N) (v : ℤ) : (ledger u N s ph).stage i ≠ .wrote v := by
  unfold ledger
  rcases h : (ph i).2 <;> simp [h, Stage.abstract]

lemma ledger_same {N : ℕ} {q : ℕ × Stage} (hf : faultsOf u t = faultsOf u s)
    (hq : q.2.abstract = (ph k).2.abstract) :
    ledger u N t (Function.update ph k q) = ledger u N s ph := by
  simp only [ledger, ReadModifyWrite.State.mk.injEq, hf, true_and]
  funext i
  by_cases hi : (i : ℕ) = k
  · rw [hi, Function.update_self, hq]
  · rw [Function.update_of_ne hi]

lemma ledger_update {N : ℕ} (hk : k < N) {m : ℕ} {q : Stage} :
    ledger u N t (Function.update ph k (m, q)) =
      ⟨fun _ => -faultsOf u t,
        Function.update (ledger u N s ph).stage ⟨k, hk⟩ q.abstract⟩ := by
  simp only [ledger, ReadModifyWrite.State.mk.injEq, true_and]
  funext i
  by_cases hi : i = ⟨k, hk⟩
  · subst hi
    simp
  · have hne : (i : ℕ) ≠ k := fun h => hi (Fin.ext h)
    simp [hi, hne]

/-! ### One step of the race -/

lemma faultsOf_charged {v : ℤ} {ban : Bool} (hst : u ∈ s.students)
    (h : s.chargeStudent u v ban = .ok t) : faultsOf u t = v := by
  obtain ⟨student, hstudent⟩ := Table.mem_iff_lookup.mp hst
  rw [chargeStudent_ok h, faultsOf]
  simp [hstudent]

lemma AllReady.charged {v : ℤ} {ban : Bool} (h : AllReady u reqs s)
    (ht : s.chargeStudent u v ban = .ok t) : AllReady u reqs t := by
  rw [chargeStudent_ok ht]
  refine ⟨h.orders, by simpa using h.student, ?_⟩
  cases ban with
  | false => exact h.user
  | true => simpa using h.user

lemma AllReady.recorded {i : Input} (h : AllReady u reqs s) :
    AllReady u reqs (recorded i id dto s) := by
  refine ⟨fun r hr => ?_, h.student, h.user⟩
  obtain ⟨o, ho, hu⟩ := h.orders r hr
  rw [OrderEffects.recorded, lookup_logged, ho]
  split
  · exact ⟨_, rfl, hu⟩
  · exact ⟨o, rfl, hu⟩

variable (u s₀ cs sched reqs) in
/-- The race before position `n`. -/
structure Racing (ph : ℕ → ℕ × Stage) (n : ℕ) : Prop where
  calls : Cancelling u reqs s₀ cs sched ph n
  ready : AllReady u reqs (before s₀ cs sched n).1
  marks : Marks s₀ reqs ph (before s₀ cs sched n).1
  known : ∀ k v, (ph k).2 = .known v →
    ∃ m, Takes s₀ cs sched k 1 m ∧ faultsOf u (before s₀ cs sched m).1 = v
  paid : ∀ k, (ph k).2.paid = true → ∃ m, Takes s₀ cs sched k 3 m
  stored : ∀ k, (ph k).2 ≠ .failed
  judged : ReadModifyWrite.Judged (fun _ : Fin reqs.length => ()) (fun _ => 1)
    (fun _ => -faultsOf u s₀) (Stale s₀ cs sched u n)
    (ledger u reqs.length (before s₀ cs sched n).1 ph)

/-- A charge makes the race stale when the counter is not what the call has read. -/
lemma stale_succ {m : ℕ} (hm : Takes s₀ cs sched k 1 m) (hn : Takes s₀ cs sched k 3 n) :
    Stale s₀ cs sched u (n + 1) ↔ Stale s₀ cs sched u n ∨
      faultsOf u (before s₀ cs sched m).1 ≠ faultsOf u (before s₀ cs sched n).1 := by
  constructor
  · rintro ⟨j, m', p, hp, hm', hp', hne⟩
    rcases Nat.lt_succ_iff_lt_or_eq.mp hp with hlt | rfl
    · exact .inl ⟨j, m', p, hlt, hm', hp', hne⟩
    · obtain ⟨⟨i, hi⟩, -⟩ := hn
      obtain ⟨⟨i', hi'⟩, -⟩ := hp'
      obtain rfl : k = j := by
        rw [hi, Option.some.injEq, Prod.mk.injEq] at hi'
        exact hi'.1
      exact .inr (hm'.unique hm ▸ hne)
  · rintro (⟨j, m', p, hp, h⟩ | hne)
    · exact ⟨j, m', p, by omega, h⟩
    · exact ⟨k, m, n, by omega, hm, hn, hne⟩

lemma stale_same (h : ∀ k, ¬ Takes s₀ cs sched k 3 n) :
    Stale s₀ cs sched u (n + 1) ↔ Stale s₀ cs sched u n := by
  refine ⟨fun ⟨j, m, p, hp, hm, hp', hne⟩ => ?_, fun ⟨j, m, p, hp, hrest⟩ =>
    ⟨j, m, p, by omega, hrest⟩⟩
  rcases Nat.lt_succ_iff_lt_or_eq.mp hp with hlt | rfl
  · exact ⟨j, m, p, hlt, hm, hp', hne⟩
  · exact absurd hp' (h j)

lemma takes_turn {j m : ℕ} (hk : Takes s₀ cs sched k m n) (hj : Takes s₀ cs sched j 3 n) :
    m = 3 := by
  obtain ⟨⟨i, hi⟩, hm, -⟩ := hk
  obtain ⟨⟨i', hi'⟩, hthree, -⟩ := hj
  rw [hi, Option.some.injEq, Prod.mk.injEq] at hi'
  rw [← hm, ← hthree, hi'.1]

lemma stored_update {q : ℕ × Stage} (h : ∀ j, (ph j).2 ≠ .failed) (hq : q.2 ≠ .failed) (j : ℕ) :
    (Function.update ph k q j).2 ≠ .failed := by
  by_cases hj : j = k
  · rwa [hj, Function.update_self]
  · rw [Function.update_of_ne hj]
    exact h j

lemma Racing.advance {m : ℕ} {q : Stage} (h : Racing s₀ u cs sched reqs ph n)
    (hcalls : Cancelling u reqs s₀ cs sched (Function.update ph k (m, q)) (n + 1))
    (hready : AllReady u reqs (before s₀ cs sched (n + 1)).1)
    (hmarks : Marks s₀ reqs (Function.update ph k (m, q)) (before s₀ cs sched (n + 1)).1)
    (hfaults : faultsOf u (before s₀ cs sched (n + 1)).1 = faultsOf u (before s₀ cs sched n).1)
    (hq : q.abstract = (ph k).2.abstract) (hstored : q ≠ .failed)
    (hnone : ∀ j, ¬ Takes s₀ cs sched j 3 n) :
    Racing s₀ u cs sched reqs (Function.update ph k (m, q)) (n + 1) where
  calls := hcalls
  ready := hready
  marks := hmarks
  known j v hv := by
    by_cases hj : j = k
    · rw [hj, Function.update_self] at hv
      dsimp only at hv
      rw [hv] at hq
      exact hj ▸ h.known k v (Stage.abstract_read.mp hq.symm)
    · rw [Function.update_of_ne hj] at hv
      exact h.known j v hv
  paid j hpaid := by
    by_cases hj : j = k
    · rw [hj, Function.update_self] at hpaid
      rw [Stage.paid_eq, hq, ← Stage.paid_eq] at hpaid
      exact hj ▸ h.paid k hpaid
    · rw [Function.update_of_ne hj] at hpaid
      exact h.paid j hpaid
  stored := stored_update h.stored hstored
  judged := by
    rw [ledger_same hfaults hq, stale_same hnone]
    exact h.judged

lemma Racing.know {m : ℕ} (h : Racing s₀ u cs sched reqs ph n) (hk : k < reqs.length)
    (htakes : Takes s₀ cs sched k 1 n) (hfound : (ph k).2 = .found)
    (hsame : (before s₀ cs sched (n + 1)).1 = (before s₀ cs sched n).1)
    (hcalls : Cancelling u reqs s₀ cs sched
      (Function.update ph k (m, .known (faultsOf u (before s₀ cs sched n).1))) (n + 1)) :
    Racing s₀ u cs sched reqs
      (Function.update ph k (m, .known (faultsOf u (before s₀ cs sched n).1))) (n + 1) where
  calls := hcalls
  ready := hsame ▸ h.ready
  marks := by
    rw [hsame]
    refine h.marks.keep (fun _ => rfl) (by simp [hfound]) fun r hr _ => ?_
    exact h.marks.opened k r hr (by simp [hfound])
  known j v hv := by
    by_cases hj : j = k
    · rw [hj, Function.update_self] at hv
      cases hv
      exact ⟨n, hj ▸ htakes, rfl⟩
    · rw [Function.update_of_ne hj] at hv
      exact h.known j v hv
  paid j hpaid := by
    by_cases hj : j = k
    · rw [hj, Function.update_self] at hpaid
      cases hpaid
    · rw [Function.update_of_ne hj] at hpaid
      exact h.paid j hpaid
  stored := stored_update h.stored (by simp)
  judged := by
    have hidle : (ledger u reqs.length (before s₀ cs sched n).1 ph).stage ⟨k, hk⟩ = .idle := by
      simp [ledger, hfound, Stage.abstract]
    have hthree : ∀ j, ¬ Takes s₀ cs sched j 3 n := fun j hj => by
      have := takes_turn htakes hj
      omega
    rw [stale_same hthree, hsame, ledger_update hk (s := (before s₀ cs sched n).1)]
    exact h.judged.read (fun _ => one_pos) hidle

lemma Racing.charge {m : ℕ} {v : ℤ} {ban : Bool} (h : Racing s₀ u cs sched reqs ph n)
    (hk : k < reqs.length) (htakes : Takes s₀ cs sched k 3 n) (hv : (ph k).2 = .known v)
    (ht : (before s₀ cs sched n).1.chargeStudent u (v + 1) ban =
      .ok (before s₀ cs sched (n + 1)).1)
    (hcalls : Cancelling u reqs s₀ cs sched (Function.update ph k (m, .charged)) (n + 1)) :
    Racing s₀ u cs sched reqs (Function.update ph k (m, .charged)) (n + 1) where
  calls := hcalls
  ready := h.ready.charged ht
  marks := by
    refine h.marks.keep (fun id => ?_) (by simp [hv]) fun r hr _ => ?_
    · rw [chargeStudent_ok ht]
      rfl
    · exact h.marks.opened k r hr (by simp [hv])
  known j w hw := by
    by_cases hj : j = k
    · rw [hj, Function.update_self] at hw
      cases hw
    · rw [Function.update_of_ne hj] at hw
      exact h.known j w hw
  paid j hpaid := by
    by_cases hj : j = k
    · exact ⟨n, hj ▸ htakes⟩
    · rw [Function.update_of_ne hj] at hpaid
      exact h.paid j hpaid
  stored := stored_update h.stored (by simp)
  judged := by
    obtain ⟨r, hr, hread⟩ := h.known k v hv
    have hstage : (ledger u reqs.length (before s₀ cs sched n).1 ph).stage ⟨k, hk⟩ =
        .read (-v) := by simp [ledger, hv, Stage.abstract]
    have hwritten := h.judged.written (fun _ => one_pos) hstage not_wrote
    have hledger : ledger u reqs.length (before s₀ cs sched (n + 1)).1
        (Function.update ph k (m, .charged)) =
        ReadModifyWrite.written (fun _ => ()) (fun _ => 1) ⟨k, hk⟩ (-v)
          (ledger u reqs.length (before s₀ cs sched n).1 ph) := by
      rw [ledger_update hk (s := (before s₀ cs sched n).1), faultsOf_charged h.ready.student ht]
      simp only [ReadModifyWrite.written, ReadModifyWrite.State.mk.injEq]
      refine ⟨?_, rfl⟩
      funext x
      rw [Function.update_self]
      ring
    have hiff : Stale s₀ cs sched u (n + 1) ↔ Stale s₀ cs sched u n ∨
        (ledger u reqs.length (before s₀ cs sched n).1 ph).balance () ≠ -v := by
      rw [stale_succ hr htakes, hread]
      exact or_congr_right (by simp [ledger, eq_comm])
    rw [hledger, hiff]
    exact hwritten

lemma faultsOf_recorded {i : Input} : faultsOf u (recorded i id dto s) = faultsOf u s := rfl

/-- **One position of the schedule.** -/
theorem Racing.step {e : ℕ × Input} (hreqs : ∀ r ∈ reqs, charges r.2.1)
    (htold : Told s₀ cs sched) (hstored : Stored s₀ cs sched reqs) (he : sched[n]? = some e) (h : Racing s₀ u cs sched reqs ph n) :
    ∃ ph', Racing s₀ u cs sched reqs ph' (n + 1) := by
  have hJ : Takes s₀ cs sched e.1 (ph e.1).1 n →
      AllReady u reqs (before s₀ cs sched n).1 ∧ ((ph e.1).1 = 4 → e.2.ok = true) := fun htakes =>
    ⟨h.ready, fun hfour => htold e.1 n e.2 (hfour ▸ htakes) he⟩
  rcases h.calls.step he hJ with ⟨hnone, hstay, hcalls⟩ | ⟨htakes, q, ⟨r, hr, hstep⟩, hcalls⟩
  · refine ⟨ph, hcalls, hstay ▸ h.ready, hstay ▸ h.marks, h.known, h.paid, h.stored, ?_⟩
    rw [stale_same fun j => hnone j 3, hstay]
    exact h.judged
  have hk : e.1 < reqs.length := (List.getElem?_eq_some_iff.mp hr).1
  have hmem : r ∈ reqs := List.mem_of_getElem? hr
  refine ⟨Function.update ph e.1 ((ph e.1).1 + 1, q), ?_⟩
  generalize hm : (ph e.1).1 = m at hstep htakes hcalls
  generalize hp : (ph e.1).2 = p at hstep
  have hnot : m ≠ 3 → ∀ j, ¬ Takes s₀ cs sched j 3 n := fun hne j hj =>
    hne (takes_turn htakes hj)
  generalize hs : (before s₀ cs sched n).1 = s at hstep
  generalize ht : (before s₀ cs sched (n + 1)).1 = t at hstep
  cases hstep with
  | stay hne =>
    have hsame : (before s₀ cs sched (n + 1)).1 = (before s₀ cs sched n).1 := ht.trans hs.symm
    refine h.advance hcalls (hsame ▸ h.ready) ?_ (by rw [hsame]) (by rw [hp])
      (hp ▸ h.stored e.1) (hnot hne)
    rw [hsame]
    exact h.marks.keep (fun _ => rfl) (by rw [hp]) fun r' hr' hstart =>
      h.marks.opened _ r' hr' (hp ▸ hstart)
  | find hvalid =>
    have hsame : (before s₀ cs sched (n + 1)).1 = (before s₀ cs sched n).1 := ht.trans hs.symm
    refine h.advance hcalls (hsame ▸ h.ready) ?_ (by rw [hsame]) (by rw [hp]; rfl)
      (by simp) (hnot (by decide))
    rw [hsame]
    refine h.marks.keep (fun _ => rfl) (by simp [hp]) fun r' hr' _ => ?_
    obtain rfl : r = r' := Option.some.inj (hr.symm.trans hr')
    rw [← hs] at hvalid
    rwa [← h.marks.of_valid hvalid]
  | know =>
    have hsame : (before s₀ cs sched (n + 1)).1 = (before s₀ cs sched n).1 := ht.trans hs.symm
    subst hs
    exact h.know hk htakes hp hsame hcalls
  | charge hcharge =>
    subst hs ht
    exact h.charge hk htakes hp hcharge hcalls
  | record i =>
    subst hs
    have hid : r.1 ∈ (before s₀ cs sched n).1.orders := by
      obtain ⟨o, ho, -⟩ := h.ready.orders r hmem
      exact Table.mem_iff_lookup.mpr ⟨o, ho⟩
    refine h.advance hcalls (ht ▸ h.ready.recorded) ?_ ?_ (by rw [hp]; rfl) (by simp)
      (hnot (by decide))
    · rw [ht]
      exact h.marks.record hr (hreqs r hmem).1 hid hp
    · rw [ht, faultsOf_recorded]
  | fail ho hlong =>
    subst hs
    exact absurd (hstored e.1 n r htakes hr _ ho) hlong

lemma racing_zero (hreqs : ∀ r ∈ reqs, charges r.2.1) (hready : AllReady u reqs s) :
    Racing s u (cancellations cfg reqs) sched reqs (fun _ => (0, .start)) 0 where
  calls := cancelling_zero hreqs
  ready := by
    rw [before_zero]
    exact hready
  marks := by
    rw [before_zero]
    exact marks_start
  known k v hv := by cases hv
  paid k hk := by cases hk
  stored k hk := by cases hk
  judged := by
    have hfresh : Stale s (cancellations cfg reqs) sched u 0 ↔ False :=
      ⟨fun ⟨_, _, _, hp, _⟩ => absurd hp (Nat.not_lt_zero _), False.elim⟩
    rw [hfresh, before_zero]
    exact ReadModifyWrite.judged_start (a := ledger u reqs.length s fun _ => (0, .start))
      fun i => rfl

/-- **A whole race.** -/
lemma racing_run (hreqs : ∀ r ∈ reqs, charges r.2.1) (hready : AllReady u reqs s)
    (htold : Told s (cancellations cfg reqs) sched)
    (hstored : Stored s (cancellations cfg reqs) sched reqs) :
    ∀ n ≤ sched.length, ∃ ph, Racing s u (cancellations cfg reqs) sched reqs ph n := by
  intro n
  induction n with
  | zero => exact fun _ => ⟨_, racing_zero hreqs hready⟩
  | succ n ih =>
    intro hn
    obtain ⟨ph, hph⟩ := ih (by omega)
    exact hph.step hreqs htold hstored (List.getElem?_eq_getElem (by omega))

lemma fresh_iff : Fresh s cs sched u ↔ ¬ Stale s cs sched u sched.length := by
  constructor
  · rintro h ⟨k, m, n, -, hm, hn, hne⟩
    exact hne (h k m n hm hn)
  · intro h k m n hm hn
    by_contra hne
    obtain ⟨i, hi⟩ := hn.1
    exact h ⟨k, m, n, (List.getElem?_eq_some_iff.mp hi).1, hm, hn, hne⟩

/-- Calls that have ended and were charged have canceled their orders. -/
lemma Racing.recorded_of_paid (h : Racing s₀ u cs sched reqs ph n)
    (hend : ∀ c ∈ (before s₀ cs sched n).2, c.running = false) {c : Async String}
    (hc : (before s₀ cs sched n).2[k]? = some c) (hpaid : (ph k).2.paid = true) :
    (ph k).2 = .recorded := by
  have hphase := h.calls.phases k c hc
  have hover := hend c (List.mem_of_getElem? hc)
  cases c with
  | pure a => exact hphase
  | throw e =>
    rcases hphase with hunpaid | hfailed
    · rw [hunpaid] at hpaid
      cases hpaid
    · exact absurd hfailed (h.stored k)
  | act eff next => cases hover

/-- The orders that went to canceled are those of the charged calls. -/
lemma Racing.canceledOrders_eq (h : Racing s₀ u cs sched reqs ph n) (hready : AllReady u reqs s₀)
    (hdone : ∀ k < reqs.length, (ph k).2.paid = true → (ph k).2 = .recorded) :
    canceledOrders s₀ (before s₀ cs sched n).1 =
      (Finset.univ.filter fun i : Fin reqs.length => (ph i).2.paid = true).image
        fun i => reqs[i].1 := by
  ext id
  simp only [canceledOrders, Finset.mem_filter, List.mem_toFinset, Finset.mem_image,
    Finset.mem_univ, true_and]
  constructor
  · rintro ⟨-, hvalid, hcanceled⟩
    by_contra hnone
    have hsame : statusOf id (before s₀ cs sched n).1 = statusOf id s₀ := by
      refine h.marks.unchanged id fun k r hr hid hrec => hnone ?_
      obtain ⟨hk, hget⟩ := List.getElem?_eq_some_iff.mp hr
      refine ⟨⟨k, hk⟩, by rw [hrec]; rfl, ?_⟩
      rw [← hid, ← hget]
      rfl
    rw [← hsame, hcanceled] at hvalid
    cases hvalid
  · rintro ⟨i, hpaid, rfl⟩
    have hrec := hdone i i.isLt hpaid
    have hr : reqs[(i : ℕ)]? = some reqs[i] := List.getElem?_eq_getElem i.isLt
    obtain ⟨o, ho, -⟩ := hready.orders reqs[i] (List.getElem_mem i.isLt)
    refine ⟨AList.mem_keys.mp (Table.mem_iff_lookup.mpr ⟨o, ho⟩), ?_, h.marks.canceled i _ hr hrec⟩
    exact h.marks.opened i _ hr (by simp [hrec])

/-- **Faults that are not lost**: when all cancellations have ended, each order was charged by
one call, the notifications were accepted and the images fit their columns, the student has one more
fault for each canceled order just when every charge was written while the counter was the one that
was read. -/
theorem faults_settle (cfg : Config) (s : DB) (u : Id)
    (reqs : List (Id × UpdateStatusDto × GetUserType)) (hreqs : ∀ r ∈ reqs, charges r.2.1)
    (hready : AllReady u reqs s) (sched : List (ℕ × Input))
    (hend : ∀ c ∈ (interleave s (cancellations cfg reqs) sched).2, c.running = false)
    (honce : ChargedOnce s (cancellations cfg reqs) sched reqs)
    (htold : Told s (cancellations cfg reqs) sched)
    (hstored : Stored s (cancellations cfg reqs) sched reqs) :
    Settled u s (interleave s (cancellations cfg reqs) sched).1 ↔
      Fresh s (cancellations cfg reqs) sched u := by
  obtain ⟨ph, h⟩ := racing_run hreqs hready htold hstored sched.length le_rfl
  rw [← before_length] at hend ⊢
  have hdone : ∀ k < reqs.length, (ph k).2.paid = true → (ph k).2 = .recorded := by
    intro k hk
    have hlen : k < (before s (cancellations cfg reqs) sched sched.length).2.length := by
      rwa [before_calls le_rfl, cancellations, List.length_map]
    exact h.recorded_of_paid hend (List.getElem?_eq_getElem hlen)
  have hcard : (canceledOrders s (before s (cancellations cfg reqs) sched sched.length).1).card =
      (Finset.univ.filter fun i : Fin reqs.length => (ph i).2.paid = true).card := by
    rw [h.canceledOrders_eq hready hdone, Finset.card_image_of_injOn]
    intro i hi j hj hij
    obtain ⟨m, hm⟩ := h.paid i (Finset.mem_filter.mp hi).2
    obtain ⟨n, hn⟩ := h.paid j (Finset.mem_filter.mp hj).2
    exact Fin.ext (honce i j m n _ _ hm hn (List.getElem?_eq_getElem i.isLt)
      (List.getElem?_eq_getElem j.isLt) hij)
  have hideal : ReadModifyWrite.ideal (fun _ : Fin reqs.length => ()) (fun _ => 1)
      (fun _ => -faultsOf u s) (ledger u reqs.length
        (before s (cancellations cfg reqs) sched sched.length).1 ph).stage () =
      -faultsOf u s - (canceledOrders s
        (before s (cancellations cfg reqs) sched sched.length).1).card := by
    rw [hcard, ReadModifyWrite.ideal, ReadModifyWrite.taken]
    simp [ledger, ← Stage.paid_eq]
  rw [fresh_iff, ← h.judged.balance_iff not_wrote, Settled]
  constructor
  · intro hset k
    rw [hideal, ledger, hset]
    ring
  · intro hbal
    have hunit := hbal ()
    rw [hideal, ledger] at hunit
    linarith

/-- Two orders of the first student. -/
def dbWithTwoOrders : DB := { Sample.dbWithOrder with
  orders := AList.insert 11 { Sample.order with checkCode := "SPX1" }
    (AList.insert 10 Sample.order ∅)
  orderStatusHistory := [⟨10, .pending, none, "900", none⟩, ⟨11, .pending, none, "900", none⟩] }

/-- A student's own cancellation. -/
def cancelBody : UpdateStatusDto := { UpdateStatusDto.only .canceled with
  reason := .val "changed my mind"
  canceledImage := .val "c.png"
  cancelReasonType := .val .fromStudent }

/-- The student cancels both. -/
def twoCancellations : List (Id × UpdateStatusDto × GetUserType) :=
  [(10, cancelBody, Sample.student), (11, cancelBody, Sample.student)]

lemma twoCancellations_charge : ∀ r ∈ twoCancellations, charges r.2.1 := by decide

lemma twoCancellations_ready : AllReady 1 twoCancellations dbWithTwoOrders := by
  refine ⟨fun r hr => ?_, by decide, by decide⟩
  simp only [twoCancellations, List.mem_cons, List.not_mem_nil, or_false] at hr
  rcases hr with rfl | rfl
  · exact ⟨Sample.order, rfl, rfl⟩
  · exact ⟨_, rfl, rfl⟩

/-- The calls take their steps in this order. -/
def inOrder (ks : List ℕ) : List (ℕ × Input) := ks.map fun k => (k, Sample.inputs 0 0)

theorem faults_settle_serial : Fresh dbWithTwoOrders
    (cancellations Sample.config twoCancellations)
    (inOrder [0, 0, 0, 0, 0, 0, 1, 1, 1, 1, 1, 1]) 1 := by
  have honce : ChargedOnce dbWithTwoOrders (cancellations Sample.config twoCancellations)
      (inOrder [0, 0, 0, 0, 0, 0, 1, 1, 1, 1, 1, 1]) twoCancellations := by
    intro j k m n r r' _ _ hr hr' hid
    have hnodup : (twoCancellations.map (·.1)).Nodup := by decide
    exact position_unique hnodup hr hr' hid
  have htold : Told dbWithTwoOrders (cancellations Sample.config twoCancellations)
      (inOrder [0, 0, 0, 0, 0, 0, 1, 1, 1, 1, 1, 1]) := by
    intro k n i _ hi
    obtain ⟨_, -, heq⟩ := List.mem_map.mp (List.mem_of_getElem? hi)
    cases heq
    rfl
  have hstored : Stored dbWithTwoOrders (cancellations Sample.config twoCancellations)
      (inOrder [0, 0, 0, 0, 0, 0, 1, 1, 1, 1, 1, 1]) twoCancellations := by
    intro k n r _ hr o _
    have hmem := List.mem_of_getElem? hr
    simp only [twoCancellations, List.mem_cons, List.not_mem_nil, or_false] at hmem
    have hbody : r.2.1 = cancelBody := by rcases hmem with rfl | rfl <;> rfl
    rw [hbody]
    exact imagesFit_of_new (by decide +kernel) (by decide +kernel)
  exact (faults_settle Sample.config dbWithTwoOrders 1 twoCancellations twoCancellations_charge
    twoCancellations_ready _ (by decide +kernel) honce htold hstored).mp (by decide +kernel)

/-- Both orders are canceled, both calls read no fault, and the student ends with one. -/
theorem second_charge_overwrites_first :
    let x := interleave dbWithTwoOrders (cancellations Sample.config twoCancellations)
      (inOrder [0, 0, 1, 1, 0, 0, 0, 0, 1, 1, 1, 1])
    (∀ r ∈ twoCancellations, charges r.2.1) ∧ AllReady 1 twoCancellations dbWithTwoOrders ∧
      (∀ c ∈ x.2, c.running = false) ∧ canceledOrders dbWithTwoOrders x.1 = {10, 11} ∧
      faultsOf 1 dbWithTwoOrders = 0 ∧ faultsOf 1 x.1 = 1 ∧ ¬ Settled 1 dbWithTwoOrders x.1 :=
  ⟨twoCancellations_charge, twoCancellations_ready, by decide +kernel, by decide +kernel,
    by decide +kernel, by decide +kernel, by decide +kernel⟩

end TsaBackend.FaultRaces
