import TsaBackend.Regulation

/-!
The slots of a regulation, over runs of requests.

A new slot is compared with all slots of the regulation; a changed one only with itself, so that it
can be given the times of another.
-/

namespace TsaBackend.DeliverySlots

open Call RegulationDB

variable {s t : RegulationDB} {d id j k : Id} {a b : AllowedDeliverySlot} {ω : ℕ → Input}

/-- The slots are of one regulation and have the same times. -/
def SameTimes (a b : AllowedDeliverySlot) : Prop :=
  a.regulationId = b.regulationId ∧ a.startTime = b.startTime ∧ a.endTime = b.endTime

/-- No two slots of a regulation have the same times. -/
def Distinct (s : RegulationDB) : Prop :=
  ∀ j k a b, s.allowedDeliverySlots.lookup j = some a → s.allowedDeliverySlots.lookup k = some b →
    SameTimes a b → j = k

lemma distinct_congr (h : t.allowedDeliverySlots = s.allowedDeliverySlots) :
    Distinct t ↔ Distinct s := by
  rw [Distinct, Distinct, h]

lemma SameTimes.symm (h : SameTimes a b) : SameTimes b a := ⟨h.1.symm, h.2.1.symm, h.2.2.symm⟩

/-- A slot that is written is compared with the others. -/
lemma distinct_set (hs : Distinct s)
    (hself : t.allowedDeliverySlots.lookup id = some a)
    (hother : ∀ k, k ≠ id → t.allowedDeliverySlots.lookup k = s.allowedDeliverySlots.lookup k) :
    Distinct t ↔
      ∀ k b, k ≠ id → s.allowedDeliverySlots.lookup k = some b → ¬ SameTimes a b := by
  constructor
  · intro h k b hk hb hsame
    exact hk (h id k a b hself (by rw [hother k hk, hb]) hsame).symm
  · intro h j k x y hx hy hsame
    by_cases hj : j = id <;> by_cases hk : k = id
    · rw [hj, hk]
    · subst hj
      rw [hself] at hx
      cases hx
      rw [hother k hk] at hy
      exact absurd hsame (h k y hk hy)
    · subst hk
      rw [hself] at hy
      cases hy
      rw [hother j hj] at hx
      exact absurd hsame.symm (h j x hj hx)
    · rw [hother j hj] at hx
      rw [hother k hk] at hy
      exact hs j k x y hx hy hsame

lemma distinct_erase (hs : Distinct s)
    (h : t.allowedDeliverySlots = s.allowedDeliverySlots.erase id) : Distinct t := by
  have hold : ∀ {j a}, t.allowedDeliverySlots.lookup j = some a →
      s.allowedDeliverySlots.lookup j = some a := by
    intro j a hj
    rw [h] at hj
    by_cases hji : j = id
    · subst hji
      rw [AList.lookup_erase] at hj
      cases hj
    · rwa [AList.lookup_erase_ne hji] at hj
  exact fun j k a b hj hk hsame => hs j k a b (hold hj) (hold hk) hsame

lemma touch_ok {i : Input} (h : s.touch d i = .ok t) :
    d ∈ s.dormitoryRegulations ∧ t.allowedDeliverySlots = s.allowedDeliverySlots := by
  unfold RegulationDB.touch at h
  split at h
  · next hd =>
    cases h
    exact ⟨hd, rfl⟩
  · cases h

lemma touch_eq {i : Input} (hd : d ∈ s.dormitoryRegulations) :
    ∃ r, s.touch d i = .ok r ∧ r.allowedDeliverySlots = s.allowedDeliverySlots :=
  ⟨_, if_pos hd, rfl⟩

/-- The tables after a request. -/
abbrev after (req : RegulationRequest) (ω : ℕ → Input) (s : RegulationDB) : RegulationDB :=
  serveRegulation s (req, ω)

lemma transaction_eq {f : Input → RegulationDB → Except Exn RegulationDB} :
    (regulationTransaction f).exec ω s =
      ((regulationTransaction f) >>= fun _ => Pure.pure ()).exec ω s := by
  rw [bind_pure]

lemma transaction_ok {f : Input → RegulationDB → Except Exn RegulationDB}
    (h : f (ω 0) s = .ok t) : ((regulationTransaction f).exec ω s).2 = t := by
  rw [transaction_eq, regulationTransaction, exec_atomic_bind, h]
  rfl

/-- A transaction at the end of a call commits, or leaves the tables. -/
lemma transaction_ends {f : Input → RegulationDB → Except Exn RegulationDB}
    {P : RegulationDB → Prop} (hs : P s) (h : ∀ t, f (ω 0) s = .ok t → P t) :
    P ((regulationTransaction f).exec ω s).2 := by
  rcases hf : f (ω 0) s with e | t
  · rw [transaction_eq, regulationTransaction, exec_atomic_bind, hf]
    exact hs
  · rw [transaction_ok hf]
    exact h t hf

lemma slotFilter_times {start stop : String} :
    slotFilter d (.val start) (.val stop) b = true ↔
      b.regulationId = d ∧ b.startTime = start ∧ b.endTime = stop := by
  simp [slotFilter, Arg.accepts, and_assoc]

/-- **A new slot is compared with every slot of the regulation.** -/
lemma add_distinct {dto : CreateSlotDto} (hs : Distinct s) :
    Distinct (after (.addDeliverySlot d dto) ω s) := by
  change Distinct ((TsaBackend.addDeliverySlot d dto).exec ω s).2
  rw [TsaBackend.addDeliverySlot, exec_read_bind, exec_throwIf_bind]
  split
  · exact hs
  · next hnew =>
    rw [Option.not_isSome_iff_eq_none, Table.findFirst_none] at hnew
    refine transaction_ends hs fun t hok => ?_
    obtain ⟨r, htouch, hcreate⟩ := ok_of_bind hok
    obtain ⟨-, hslots⟩ := touch_ok htouch
    unfold RegulationDB.createSlot at hcreate
    split at hcreate
    · cases hcreate
    · split at hcreate
      · cases hcreate
        rw [← distinct_congr hslots] at hs
        refine (distinct_set hs (AList.lookup_insert _)
          fun k hk => AList.lookup_insert_ne hk).mpr fun k b _ hb hsame => ?_
        rw [hslots] at hb
        have hfilter := hnew k b hb
        rw [slotFilter_times.mpr ⟨hsame.1.symm, hsame.2.1.symm, hsame.2.2.symm⟩] at hfilter
        cases hfilter
      · cases hcreate

lemma remove_distinct {dto : RemoveSlotDto} (hs : Distinct s) :
    Distinct (after (.removeDeliverySlot d dto) ω s) := by
  change Distinct ((TsaBackend.removeDeliverySlot d dto).exec ω s).2
  rw [TsaBackend.removeDeliverySlot, exec_read_bind, exec_throwIf_bind]
  split
  · exact hs
  · refine transaction_ends hs fun t hok => ?_
    obtain ⟨r, htouch, hdelete⟩ := ok_of_bind hok
    obtain ⟨-, hslots⟩ := touch_ok htouch
    unfold RegulationDB.deleteSlot at hdelete
    split at hdelete
    · cases hdelete
    · cases hdelete
      rw [← distinct_congr hslots] at hs
      exact distinct_erase hs rfl

lemma threshold_slots {dto : UpdateBanThresholdDto} :
    (after (.updateBanThreshold d dto) ω s).allowedDeliverySlots = s.allowedDeliverySlots := by
  change ((TsaBackend.updateBanThreshold d dto).exec ω s).2.allowedDeliverySlots = _
  rw [TsaBackend.updateBanThreshold, exec_read_bind, exec_throwIf_bind]
  split
  · rfl
  · refine transaction_ends (P := fun t => t.allowedDeliverySlots = s.allowedDeliverySlots) rfl
      fun t hok => ?_
    split at hok
    · cases hok
      rfl
    · cases hok

/-! ### A changed slot, and runs -/

/-- The slot is changed: it is one of the regulation, and does not have the requested times itself,
which is all that is asked. -/
def Changes (s : RegulationDB) (d : Id) (dto : UpdateSlotDto) (a : AllowedDeliverySlot) : Prop :=
  dto.startTime ≠ .null ∧ dto.endTime ≠ .null ∧ d ∈ s.dormitoryRegulations ∧
    s.findSlot d dto.id = some a ∧ slotFilter d dto.startTime dto.endTime a = false

lemma findSlot_eq_some : s.findSlot d id = some a ↔
    s.allowedDeliverySlots.lookup id = some a ∧ a.regulationId = d := by
  simp [RegulationDB.findSlot, Option.filter_eq_some_iff]

lemma update_changes {dto : UpdateSlotDto} (h : Changes s d dto a) :
    ∃ i, (after (.updateDeliverySlot d dto) ω s).allowedDeliverySlots =
      s.allowedDeliverySlots.modify dto.id (changeSlot dto i) := by
  obtain ⟨hstart, hend, hd, hfound, hself⟩ := h
  have hslot := (findSlot_eq_some.mp hfound).1
  have hnone : s.allowedDeliverySlots.findFirst (ω 0).pick (fun id slot =>
      id = dto.id && slotFilter d dto.startTime dto.endTime slot) = none := by
    refine Table.findFirst_none.mpr fun k b hb => ?_
    by_cases hk : k = dto.id
    · subst hk
      rw [hslot] at hb
      cases hb
      simp [hself]
    · simp [hk]
  obtain ⟨r, htouch, hslots⟩ := touch_eq (i := ω 1) hd
  have hupdate : r.updateSlot d dto (ω 1) = .ok { r with
      allowedDeliverySlots := r.allowedDeliverySlots.modify dto.id (changeSlot dto (ω 1)) } := by
    have hr : r.findSlot d dto.id = some a := by
      rw [RegulationDB.findSlot, hslots]
      exact hfound
    rw [RegulationDB.updateSlot, hr]
  have hwrites : (s.touch d (ω 1) >>= fun r => r.updateSlot d dto (ω 1)) = .ok { r with
      allowedDeliverySlots := r.allowedDeliverySlots.modify dto.id (changeSlot dto (ω 1)) } := by
    rw [htouch]
    exact hupdate
  refine ⟨ω 1, ?_⟩
  change ((TsaBackend.updateDeliverySlot d dto).exec ω s).2.allowedDeliverySlots = _
  rw [TsaBackend.updateDeliverySlot, exec_throwIf_bind, if_neg (by simp [hstart, hend]),
    exec_read_bind, hnone, exec_throwIf_bind, if_neg (by simp), transaction_ok hwrites, ← hslots]

lemma update_unchanged {dto : UpdateSlotDto} (h : ∀ a, ¬ Changes s d dto a) :
    (after (.updateDeliverySlot d dto) ω s).allowedDeliverySlots = s.allowedDeliverySlots := by
  change ((TsaBackend.updateDeliverySlot d dto).exec ω s).2.allowedDeliverySlots = _
  rw [TsaBackend.updateDeliverySlot, exec_throwIf_bind]
  split
  · rfl
  · next hargs =>
    rw [exec_read_bind, exec_throwIf_bind]
    split
    · rfl
    · next hnew =>
      rw [Option.not_isSome_iff_eq_none, Table.findFirst_none] at hnew
      refine transaction_ends (P := fun t => t.allowedDeliverySlots = s.allowedDeliverySlots) rfl
        fun t hok => ?_
      obtain ⟨r, htouch, hupdate⟩ := ok_of_bind hok
      obtain ⟨hd, hslots⟩ := touch_ok htouch
      unfold RegulationDB.updateSlot at hupdate
      split at hupdate
      · cases hupdate
      · next b hb =>
        rw [findSlot_eq_some, hslots] at hb
        rw [not_or] at hargs
        refine absurd ⟨hargs.1, hargs.2, hd, findSlot_eq_some.mpr hb, ?_⟩ (h b)
        simpa using hnew dto.id b hb.1

/-- A changed slot does not get the times of another one of the regulation. -/
def TakesFreeTimes (s : RegulationDB) (d : Id) (dto : UpdateSlotDto) : Prop :=
  ∀ a, Changes s d dto a → ∀ k b, k ≠ dto.id → s.allowedDeliverySlots.lookup k = some b →
    b.regulationId = d →
    ¬ (b.startTime = dto.startTime.patchReq a.startTime ∧
      b.endTime = dto.endTime.patchReq a.endTime)

lemma update_distinct_iff {dto : UpdateSlotDto} (hs : Distinct s) :
    Distinct (after (.updateDeliverySlot d dto) ω s) ↔ TakesFreeTimes s d dto := by
  by_cases hchanges : ∃ a, Changes s d dto a
  · obtain ⟨a, ha⟩ := hchanges
    obtain ⟨hslot, hd⟩ := findSlot_eq_some.mp ha.2.2.2.1
    obtain ⟨i, hafter⟩ := update_changes (ω := ω) ha
    have hself : (after (.updateDeliverySlot d dto) ω s).allowedDeliverySlots.lookup dto.id =
        some (changeSlot dto i a) := by
      rw [hafter, Table.lookup_modify_self, hslot]
      rfl
    rw [distinct_set hs hself fun k hk => by rw [hafter, Table.lookup_modify_ne _ _ hk]]
    constructor
    · intro h b hb k c hk hc hcd htimes
      obtain rfl : a = b := by
        have hfound := ha.2.2.2.1.symm.trans hb.2.2.2.1
        exact Option.some.inj hfound
      exact h k c hk hc ⟨hd.trans hcd.symm, htimes.1.symm, htimes.2.symm⟩
    · intro h k c hk hc hsame
      exact h a ha k c hk hc (hsame.1.symm.trans hd) ⟨hsame.2.1.symm, hsame.2.2.symm⟩
  · rw [not_exists] at hchanges
    rw [distinct_congr (update_unchanged hchanges)]
    exact ⟨fun _ a ha => absurd ha (hchanges a), fun _ => hs⟩

/-- The request gives no slot the times of another. -/
def KeepsSlots (s : RegulationDB) : RegulationRequest → Prop
  | .updateDeliverySlot d dto => TakesFreeTimes s d dto
  | _ => True

lemma distinct_iff {req : RegulationRequest} (hs : Distinct s) :
    Distinct (after req ω s) ↔ KeepsSlots s req := by
  cases req with
  | addDeliverySlot d dto => exact iff_of_true (add_distinct hs) trivial
  | updateDeliverySlot d dto => exact update_distinct_iff hs
  | removeDeliverySlot d dto => exact iff_of_true (remove_distinct hs) trivial
  | updateBanThreshold d dto =>
    exact iff_of_true ((distinct_congr threshold_slots).mpr hs) trivial

/-- Regulations without a slot. -/
abbrev noSlots (regulations : Table Id DormitoryRegulation) : RegulationDB :=
  { dormitoryRegulations := regulations, allowedDeliverySlots := ∅ }

/-- **The slots of a regulation stay different**: from regulations without slots, in every run whose
updates take free times, and in just these runs after each of their requests. -/
theorem slots_distinct_iff (regulations : Table Id DormitoryRegulation)
    (ls : List (RegulationRequest × (ℕ → Input))) :
    (Machine.Along serveRegulation (fun s l => KeepsSlots s l.1) (noSlots regulations) ls →
      Distinct (Machine.run serveRegulation (noSlots regulations) ls)) ∧
    (Machine.Along serveRegulation (fun s l => Distinct (serveRegulation s l))
        (noSlots regulations) ls ↔
      Machine.Along serveRegulation (fun s l => KeepsSlots s l.1) (noSlots regulations) ls) := by
  refine Machine.inv_along_iff Distinct (fun _ _ h => h) (fun _ _ _ hs => distinct_iff hs) ?_
  intro j k a b hj
  cases hj

/-- Two slots are added to the regulation `3`, and the second is given the times of the first. -/
def sampleRequests : List (RegulationRequest × (ℕ → Input)) :=
  [(.addDeliverySlot 3 { startTime := "07:00", endTime := "08:00", valid := by decide },
      fun _ => { (default : Input) with fresh := 1 }),
    (.addDeliverySlot 3 { startTime := "09:00", endTime := "10:00", valid := by decide },
      fun _ => { (default : Input) with fresh := 2 }),
    (.updateDeliverySlot 3
      { id := 2, startTime := .val "07:00", endTime := .val "08:00", valid := by decide },
      fun _ => default)]

theorem slot_takes_times : ∃ regulations ls,
    ¬ Distinct (Machine.run serveRegulation (noSlots regulations) ls) := by
  refine ⟨(∅ : Table Id DormitoryRegulation).insert 3
    { name := .a, banThreshold := 3, updateAt := 0 }, sampleRequests, fun h => ?_⟩
  have heq : (1 : Id) = 2 := h 1 2
    { regulationId := 3, startTime := "07:00", endTime := "08:00", updateAt := 0 }
    { regulationId := 3, startTime := "07:00", endTime := "08:00", updateAt := 0 }
    (by decide +kernel) (by decide +kernel) ⟨rfl, rfl, rfl⟩
  exact absurd heq (by decide)

end TsaBackend.DeliverySlots
