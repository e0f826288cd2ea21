import TsaBackend.Table

/-!
A column that repeats the newest row of a log: each row of a table owns the log rows with
its key, and its column holds the value of the last of them.

Each operation on the table comes with the change of the log that keeps the two in step.
-/

namespace TsaBackend

variable {κ ρ τ γ : Type} [DecidableEq κ]

/-- How a column follows a log: the key and the value of a log row, the column, and what
the column may hold before the first row. -/
structure LogColumn (κ ρ τ γ : Type) where
  key : τ → κ
  val : τ → γ
  col : ρ → γ
  blank : γ → Prop

namespace LogColumn

variable (c : LogColumn κ ρ τ γ)

/-- The log rows of a key, oldest first. -/
def rowsOf (log : List τ) (k : κ) : List τ := log.filter fun h => c.key h = k

/-- What the column of a row with this part of the log must be. -/
def Fits (rows : List τ) (x : γ) : Prop :=
  match rows.getLast? with
  | some h => x = c.val h
  | none => c.blank x

structure Agrees (t : Table κ ρ) (log : List τ) : Prop where
  fits : ∀ k r, t.lookup k = some r → c.Fits (c.rowsOf log k) (c.col r)
  keys : ∀ h ∈ log, c.key h ∈ t

variable {c} {t : Table κ ρ} {log : List τ} {k : κ} {r : ρ} {f : ρ → ρ} {row : τ}

lemma rowsOf_snoc_self :
    c.rowsOf (log ++ [row]) (c.key row) = c.rowsOf log (c.key row) ++ [row] := by
  simp [rowsOf, List.filter_append]

lemma rowsOf_snoc_ne (h : c.key row ≠ k) : c.rowsOf (log ++ [row]) k = c.rowsOf log k := by
  simp [rowsOf, List.filter_append, h]

omit [DecidableEq κ] in
lemma fits_snoc {rows : List τ} {x : γ} : c.Fits (rows ++ [row]) x ↔ x = c.val row := by
  simp [Fits]

lemma Agrees.rowsOf_eq_nil (h : c.Agrees t log) (hk : k ∉ t) : c.rowsOf log k = [] := by
  rw [rowsOf, List.filter_eq_nil_iff]
  intro row hrow heq
  obtain rfl : c.key row = k := by simpa using heq
  exact hk (h.keys row hrow)

lemma Agrees.modify (h : c.Agrees t log) (hf : ∀ r, c.col (f r) = c.col r) :
    c.Agrees (t.modify k f) log where
  fits j r hr := by
    rw [Table.lookup_modify] at hr
    split at hr
    · next hj =>
      subst hj
      obtain ⟨r', hr', rfl⟩ := Option.map_eq_some_iff.mp hr
      rw [hf]
      exact h.fits j r' hr'
    · exact h.fits j r hr
  keys row hrow := by simpa using h.keys row hrow

lemma Agrees.append (h : c.Agrees t log) (row : τ) (hk : c.key row ∈ t)
    (hf : ∀ r, c.col (f r) = c.val row) :
    c.Agrees (t.modify (c.key row) f) (log ++ [row]) where
  fits j r hr := by
    rw [Table.lookup_modify] at hr
    split at hr
    · next hj =>
      subst hj
      obtain ⟨r', -, rfl⟩ := Option.map_eq_some_iff.mp hr
      rw [rowsOf_snoc_self, fits_snoc]
      exact hf r'
    · next hj =>
      rw [rowsOf_snoc_ne (Ne.symm hj)]
      exact h.fits j r hr
  keys row' hrow := by
    rw [Table.mem_modify]
    rcases List.mem_append.mp hrow with hrow | hrow
    · exact h.keys row' hrow
    · rwa [List.mem_singleton.mp hrow]

lemma Agrees.insert (h : c.Agrees t log) (hk : k ∉ t) (hr : c.blank (c.col r)) :
    c.Agrees (t.insert k r) log where
  fits j r' hr' := by
    by_cases hj : j = k
    · subst hj
      rw [AList.lookup_insert, Option.some.injEq] at hr'
      subst hr'
      rw [h.rowsOf_eq_nil hk]
      exact hr
    · rw [AList.lookup_insert_ne hj] at hr'
      exact h.fits j r' hr'
  keys row hrow := AList.mem_insert _ |>.mpr (.inr (h.keys row hrow))

lemma Agrees.insert_append (h : c.Agrees t log) (row : τ) (hr : c.col r = c.val row) :
    c.Agrees (t.insert (c.key row) r) (log ++ [row]) where
  fits j r' hr' := by
    by_cases hj : j = c.key row
    · subst hj
      rw [AList.lookup_insert, Option.some.injEq] at hr'
      subst hr'
      rw [rowsOf_snoc_self, fits_snoc]
      exact hr
    · rw [AList.lookup_insert_ne hj] at hr'
      rw [rowsOf_snoc_ne (Ne.symm hj)]
      exact h.fits j r' hr'
  keys row' hrow := by
    rw [AList.mem_insert]
    rcases List.mem_append.mp hrow with hrow | hrow
    · exact .inr (h.keys row' hrow)
    · exact .inl (by rw [List.mem_singleton.mp hrow])

lemma Agrees.erase (h : c.Agrees t log) :
    c.Agrees (t.erase k) (log.filter fun row => c.key row ≠ k) where
  fits j r hr := by
    have hj : j ≠ k := by rintro rfl; simp at hr
    rw [AList.lookup_erase_ne hj] at hr
    have hrows : c.rowsOf (log.filter fun row => c.key row ≠ k) j = c.rowsOf log j := by
      simp only [rowsOf, List.filter_filter]
      refine List.filter_congr fun row _ => ?_
      by_cases h' : c.key row = j <;> simp [h', hj]
    rw [hrows]
    exact h.fits j r hr
  keys row hrow := by
    obtain ⟨hmem, hne⟩ := List.mem_filter.mp hrow
    exact AList.mem_erase.mpr ⟨by simpa using hne, h.keys row hmem⟩

end LogColumn

end TsaBackend
