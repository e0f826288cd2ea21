import TsaBackend.OrderEffects
import TsaBackend.Reports

/-!
Whose reports the requests of a student write.

The row check of a report lets every role of its default list through, and no other role exists:
the body and the path decide which reports are written.
-/

namespace TsaBackend.ReportOwnership

open Call

variable {s t : ReportDB} {u id j : Id} {r r' : ReportEntity} {ω : ℕ → Input}

/-- **The row check refuses nobody.** -/
theorem checkReportPermission_pure (user : GetUserType) (requestedUid : Option Id) :
    ∃ b, checkReportPermission user requestedUid = Pure.pure b := by
  rcases requestedUid with _ | v
  · exact ⟨false, rfl⟩
  · refine ⟨true, ?_⟩
    obtain ⟨id, role⟩ := user
    cases role <;> rfl

/-- No report of another student is created, changed or deleted. -/
def Owns (u : Id) (s t : ReportDB) : Prop :=
  ∀ id r, s.reports.lookup id = some r ∨ t.reports.lookup id = some r → r.studentId ≠ u →
    t.reports.lookup id = s.reports.lookup id

lemma owns_refl (u : Id) (s : ReportDB) : Owns u s s := fun _ _ _ _ => rfl

lemma owns_insert (hid : id ∉ s.reports) :
    Owns u s { s with reports := s.reports.insert id r } ↔ r.studentId = u := by
  constructor
  · intro h
    by_contra hr
    have hnone := h id r (.inr (AList.lookup_insert _)) hr
    rw [AList.lookup_insert, AList.lookup_eq_none.mpr hid] at hnone
    cases hnone
  · intro hr j r' hj hne
    by_cases hji : j = id
    · subst hji
      rw [AList.lookup_eq_none.mpr hid, AList.lookup_insert] at hj
      rcases hj with hj | hj
      · cases hj
      · cases hj
        exact absurd hr hne
    · exact AList.lookup_insert_ne hji

lemma owns_modify (hr : s.reports.lookup id = some r) :
    Owns u s { s with reports := s.reports.modify id fun _ => r' } ↔
      r' = r ∨ r.studentId = u ∧ r'.studentId = u := by
  have hself : (s.reports.modify id fun _ => r').lookup id = some r' := by
    rw [Table.lookup_modify_self, hr]
    rfl
  constructor
  · intro h
    by_contra hno
    rw [not_or, not_and_or] at hno
    have hsame : r' = r := by
      rcases hno.2 with hne | hne
      · have := h id r (.inl hr) hne
        rw [hself, hr] at this
        exact Option.some.inj this
      · have := h id r' (.inr hself) hne
        rw [hself, hr] at this
        exact Option.some.inj this
    exact hno.1 hsame
  · intro h j r'' hj hne
    by_cases hji : j = id
    · subst hji
      rcases h with rfl | ⟨hown, hown'⟩
      · rw [hself, hr]
      · rw [hr, hself] at hj
        rcases hj with hj | hj
        · cases hj
          exact absurd hown hne
        · cases hj
          exact absurd hown' hne
    · exact Table.lookup_modify_ne _ _ hji

lemma owns_erase (hr : s.reports.lookup id = some r) :
    Owns u s { s with reports := s.reports.erase id } ↔ r.studentId = u := by
  constructor
  · intro h
    by_contra hne
    have hnone := h id r (.inl hr) hne
    rw [AList.lookup_erase, hr] at hnone
    cases hnone
  · intro hown j r' hj hne
    by_cases hji : j = id
    · subst hji
      rw [hr, AList.lookup_erase] at hj
      rcases hj with hj | hj
      · cases hj
        exact absurd hown hne
      · cases hj
    · exact AList.lookup_erase_ne hji

/-! ### What a request writes -/

/-- The body creates this report. -/
structure Creates (s : ReportDB) (dto : CreateReport) (r : ReportEntity) : Prop where
  order : dto.orderId ∈ s.orders
  made : dto.create = .ok r
  texts : ReportDB.ReportTexts none r
  keys : s.ReportKeys none r

/-- The body makes `r'` of the report `r`. -/
structure Updates (s : ReportDB) (id : Id) (dto : UpdateReport) (r r' : ReportEntity) : Prop where
  lookup : s.reports.lookup id = some r
  made : dto.update r = .ok r'
  texts : ReportDB.ReportTexts (some r) r'
  keys : s.ReportKeys (some r) r'

/-- The tables after a request of a student. -/
abbrev after (u : Id) (req : ReportRequest) (ω : ℕ → Input) (s : ReportDB) : ReportDB :=
  ((req.call ⟨u, .student⟩).exec ω s).2

lemma createTransaction_ok {dto : CreateReport} {i : Input} {a : Id × ReportEntity} :
    createTransaction dto i s = .ok (a, t) ↔ ∃ r, Creates s dto r ∧ i.fresh ∉ s.reports ∧
      a = (i.fresh, r) ∧ t = { s with reports := s.reports.insert i.fresh r } := by
  unfold createTransaction
  constructor
  · intro h
    split at h
    swap
    · cases h
    next horder =>
    obtain ⟨r, hmade, h⟩ := ok_of_bind h
    obtain ⟨s', hs', h⟩ := ok_of_bind h
    cases h
    unfold ReportDB.createReport at hs'
    split at hs'
    · cases hs'
    next hnew =>
    split at hs'
    · cases hs'
    next htexts =>
    split at hs'
    swap
    · cases hs'
    next hkeys =>
    cases hs'
    exact ⟨r, ⟨horder, hmade, not_not.mp htexts, hkeys⟩, hnew, rfl, rfl⟩
  · rintro ⟨r, hr, hnew, rfl, rfl⟩
    have hcreate : s.createReport i.fresh r =
        .ok { s with reports := s.reports.insert i.fresh r } :=
      (if_neg hnew).trans ((if_neg (not_not.mpr hr.texts)).trans (if_pos hr.keys))
    rw [if_pos hr.order, hr.made]
    change (s.createReport i.fresh r >>= _) = _
    rw [hcreate]
    rfl

lemma updateReport_ok {dto : UpdateReport} :
    s.updateReport id dto = .ok (r', t) ↔ ∃ r, Updates s id dto r r' ∧
      t = { s with reports := s.reports.modify id fun _ => r' } := by
  unfold ReportDB.updateReport
  constructor
  · intro h
    rcases hr : s.reports.lookup id with _ | r
    · rw [hr] at h
      cases h
    rw [hr] at h
    obtain ⟨report, hmade, h⟩ := ok_of_bind h
    split at h
    · cases h
    next htexts =>
    split at h
    · next hkeys =>
      cases h
      exact ⟨r, ⟨hr, hmade, not_not.mp htexts, hkeys⟩, rfl⟩
    · cases h
  · rintro ⟨r, hr, rfl⟩
    rw [hr.lookup]
    change (dto.update r >>= _) = _
    rw [hr.made]
    exact (if_neg (not_not.mpr hr.texts)).trans (if_pos hr.keys)

variable (s u ω)

/-- A creation adds the report of its body, or changes nothing. -/
lemma create_cases (dto : CreateReport) :
    after u (.create dto) ω s = s ∧ (∀ r, Creates s dto r → (ω 0).fresh ∈ s.reports) ∨
      ∃ r, Creates s dto r ∧ (ω 0).fresh ∉ s.reports ∧
        after u (.create dto) ω s = { s with reports := s.reports.insert (ω 0).fresh r } := by
  have hafter : after u (.create dto) ω s = ((createReport dto ⟨u, .student⟩ >>=
      fun _ => (Pure.pure () : ReportCall Unit)).exec ω s).2 := rfl
  obtain ⟨b, hb⟩ := checkReportPermission_pure ⟨u, .student⟩ (some dto.studentId)
  rw [hafter, createReport, hb, pure_bind]
  rcases exec_atomic_drop (fun i s => createTransaction dto i s) ω s with
    ⟨a, t, hok, hend⟩ | ⟨⟨e, herr⟩, hend⟩
  · obtain ⟨r, hr, hnew, -, rfl⟩ := createTransaction_ok.mp hok
    exact .inr ⟨r, hr, hnew, hend⟩
  · refine .inl ⟨hend, fun r hr => ?_⟩
    by_contra hnew
    rw [createTransaction_ok.mpr ⟨r, hr, hnew, rfl, rfl⟩] at herr
    cases herr

/-- The steps of an update before its statement pass for a student. -/
lemma update_cases (id : Id) (dto : UpdateReport) :
    after u (.update id dto) ω s = s ∧ (∀ r r', ¬ Updates s id dto r r') ∨
      ∃ r r', Updates s id dto r r' ∧
        after u (.update id dto) ω s = { s with reports := s.reports.modify id fun _ => r' } := by
  have hafter : after u (.update id dto) ω s = ((updateReport id dto ⟨u, .student⟩ >>=
      fun _ => (Pure.pure () : ReportCall Unit)).exec ω s).2 := rfl
  rw [hafter, updateReport, bind_assoc, exec_read_bind]
  rcases hr : s.reports.lookup id with _ | r
  · refine .inl ⟨rfl, fun r r' h => ?_⟩
    cases hr.symm.trans h.lookup
  obtain ⟨b, hb⟩ := checkReportPermission_pure ⟨u, .student⟩ r.replierId
  dsimp only
  simp only [bind_assoc, exec_read_bind, hb, pure_bind, exec_throwIf_bind, reduceCtorEq, false_and,
    if_false]
  rcases exec_atomic_drop (fun _ s => s.updateReport id dto) (fun n => ω (n + 1 + 1)) s with
    ⟨r', t, hok, hend⟩ | ⟨⟨e, herr⟩, hend⟩
  · obtain ⟨r, hupdates, rfl⟩ := updateReport_ok.mp hok
    exact .inr ⟨r, r', hupdates, hend⟩
  · refine .inl ⟨hend, fun r r' hupdates => ?_⟩
    rw [updateReport_ok.mpr ⟨r, hupdates, rfl⟩] at herr
    cases herr

lemma remove_cases (id : Id) : after u (.remove id) ω s = s ∧ s.reports.lookup id = none ∨
    (∃ r, s.reports.lookup id = some r) ∧
      after u (.remove id) ω s = { s with reports := s.reports.erase id } := by
  have hafter : after u (.remove id) ω s = ((deleteReport id ⟨u, .student⟩ >>=
      fun _ => (Pure.pure () : ReportCall Unit)).exec ω s).2 := rfl
  rw [hafter, deleteReport, bind_assoc, exec_read_bind]
  rcases hr : s.reports.lookup id with _ | r
  · exact .inl ⟨rfl, rfl⟩
  obtain ⟨b, hb⟩ := checkReportPermission_pure ⟨u, .student⟩ r.replierId
  dsimp only
  simp only [hb, pure_bind]
  have hdelete : s.deleteReport id = .ok (r, { s with reports := s.reports.erase id }) := by
    rw [ReportDB.deleteReport, hr]
  rcases exec_atomic_drop (fun _ s => s.deleteReport id) (fun n => ω (n + 1)) s with
    ⟨r', t, hok, hend⟩ | ⟨⟨e, herr⟩, -⟩
  · rw [hdelete] at hok
    cases hok
    exact .inr ⟨⟨r, rfl⟩, hend⟩
  · rw [hdelete] at herr
    cases herr

/-- The request writes reports of this student only, if it writes any. -/
def KeepsToOwn (u : Id) (s : ReportDB) : ReportRequest → Prop
  | .create dto => ∀ r, Creates s dto r → dto.studentId = u
  | .update id dto => ∀ r r', Updates s id dto r r' →
      r' = r ∨ r.studentId = u ∧ r'.studentId = u
  | .remove id => ∀ r, s.reports.lookup id = some r → r.studentId = u

lemma create_studentId {dto : CreateReport} (h : dto.create = .ok r) :
    r.studentId = dto.studentId := by
  unfold CreateReport.create at h
  split at h <;> cases h
  rfl

lemma created_iff (s : ReportDB) (u : Id) (dto : CreateReport) :
    (∀ ω, Owns u s (after u (.create dto) ω s)) ↔ KeepsToOwn u s (.create dto) := by
  constructor
  · intro h r hr
    obtain ⟨id, hid⟩ := Table.exists_notMem s.reports
    rcases create_cases s u (fun _ => { (default : Input) with fresh := id }) dto with
      ⟨-, hno⟩ | ⟨r', hr', hnew, hend⟩
    · exact absurd (hno r hr) hid
    · have howns := h fun _ => { (default : Input) with fresh := id }
      rw [hend, owns_insert hnew] at howns
      rw [← howns, create_studentId hr'.made]
  · intro hkeep ω
    rcases create_cases s u ω dto with ⟨hend, -⟩ | ⟨r, hr, hnew, hend⟩
    · rw [hend]
      exact owns_refl u s
    · rw [hend, owns_insert hnew, create_studentId hr.made]
      exact hkeep r hr

lemma updated_iff (s : ReportDB) (u id : Id) (dto : UpdateReport) :
    (∀ ω, Owns u s (after u (.update id dto) ω s)) ↔ KeepsToOwn u s (.update id dto) := by
  constructor
  · intro h r r' hr
    rcases update_cases s u (fun _ => default) id dto with ⟨-, hno⟩ | ⟨q, q', hq, hend⟩
    · exact absurd hr (hno r r')
    · have howns := h fun _ => default
      rw [hend, owns_modify hq.lookup] at howns
      obtain rfl : q = r := Option.some.inj (hq.lookup.symm.trans hr.lookup)
      obtain rfl : q' = r' := Except.ok.inj (hq.made.symm.trans hr.made)
      exact howns
  · intro hkeep ω
    rcases update_cases s u ω id dto with ⟨hend, -⟩ | ⟨r, r', hr, hend⟩
    · rw [hend]
      exact owns_refl u s
    · rw [hend, owns_modify hr.lookup]
      exact hkeep r r' hr

lemma removed_iff (s : ReportDB) (u id : Id) :
    (∀ ω, Owns u s (after u (.remove id) ω s)) ↔ KeepsToOwn u s (.remove id) := by
  constructor
  · intro h r hr
    rcases remove_cases s u (fun _ => default) id with ⟨-, hno⟩ | ⟨-, hend⟩
    · cases hno.symm.trans hr
    · have howns := h fun _ => default
      rwa [hend, owns_erase hr] at howns
  · intro hkeep ω
    rcases remove_cases s u ω id with ⟨hend, -⟩ | ⟨⟨r, hr⟩, hend⟩
    · rw [hend]
      exact owns_refl u s
    · rw [hend, owns_erase hr]
      exact hkeep r hr

/-- **When a student writes only reports of the student**: a request of the endpoints does,
whatever it meets, just when the report it creates, changes or deletes is of the student, and
stays so. -/
theorem reports_owned_iff (s : ReportDB) (u : Id) (req : ReportRequest) :
    (∀ ω, Owns u s (after u req ω s)) ↔ KeepsToOwn u s req := by
  cases req with
  | create dto => exact created_iff s u dto
  | update id dto => exact updated_iff s u id dto
  | remove id => exact removed_iff s u id

/-- The first student reports on an order. -/
def reported : ReportDB :=
  after 1 (.create ⟨10, "Broken", "1000", "p.png", .undefined, .undefined, .undefined, .undefined, 1⟩)
    (Sample.inputs 50) { Sample.dbWithOrder with admins := [4], reports := ∅ }

/-- The second student takes the report over, deletes it, and reports in the name of the first. -/
theorem student_writes_others_reports :
    let takeOver : UpdateReport :=
      ⟨.undefined, .undefined, .undefined, .undefined, .undefined, .undefined, .undefined,
        .undefined, .val 2⟩
    let inName : CreateReport :=
      ⟨10, "Late", "1000", "p.png", .undefined, .undefined, .undefined, .undefined, 1⟩
    (reported.reports.lookup 50).map (·.studentId) = some 1 ∧
      ¬ Owns 2 reported (after 2 (.update 50 takeOver) (Sample.inputs 51) reported) ∧
      ¬ Owns 2 reported (after 2 (.remove 50) (Sample.inputs 51) reported) ∧
      ¬ Owns 2 reported (after 2 (.create inName) (Sample.inputs 51) reported) := by
  refine ⟨by decide +kernel, fun h => ?_, fun h => ?_, fun h => ?_⟩
  · exact absurd (h 50 _ (.inl rfl) (by decide)) (by decide +kernel)
  · exact absurd (h 50 _ (.inl rfl) (by decide)) (by decide +kernel)
  · exact absurd (h 51 _ (.inr rfl) (by decide)) (by decide +kernel)

end TsaBackend.ReportOwnership
