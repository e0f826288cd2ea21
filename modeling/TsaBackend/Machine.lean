import Mathlib.Data.List.Induction

/-!
Runs of a machine: a step function folded over a list of labels, conditions that every
step of a run meets, invariants, what holds since a step was taken, and two runs that put out the
same.
-/

namespace TsaBackend.Machine

variable {σ Λ : Type} (step : σ → Λ → σ)

/-- The state after the labels `ls`. -/
def run (s : σ) (ls : List Λ) : σ := ls.foldl step s

@[simp] lemma run_nil (s : σ) : run step s [] = s := rfl
@[simp] lemma run_cons (s : σ) (l : Λ) (ls : List Λ) :
    run step s (l :: ls) = run step (step s l) ls := rfl

/-- Every step of the run meets `P` in the state before it. -/
def Along (P : σ → Λ → Prop) : σ → List Λ → Prop
  | _, [] => True
  | s, l :: ls => P s l ∧ Along P (step s l) ls

instance decidableAlong (P : σ → Λ → Prop) [∀ s l, Decidable (P s l)] :
    ∀ s ls, Decidable (Along step P s ls)
  | _, [] => .isTrue trivial
  | s, l :: ls =>
    have := decidableAlong P (step s l) ls
    inferInstanceAs (Decidable (P s l ∧ Along step P (step s l) ls))

variable {step} {P P' : σ → Λ → Prop} {Inv : σ → Prop} {s : σ} {ls : List Λ}

lemma along_of_forall (h : ∀ l ∈ ls, ∀ s, P s l) : Along step P s ls := by
  induction ls generalizing s with
  | nil => trivial
  | cons l ls ih => exact ⟨h l (by simp) s, ih fun m hm => h m (by simp [hm])⟩

lemma Along.mono (h : Along step P s ls) (hP : ∀ s l, P s l → P' s l) : Along step P' s ls := by
  induction ls generalizing s with
  | nil => trivial
  | cons l ls ih => exact ⟨hP s l h.1, ih h.2⟩

lemma run_append (s : σ) (ls ms : List Λ) :
    run step s (ls ++ ms) = run step (run step s ls) ms := by
  simp [run, List.foldl_append]

lemma along_append {ms : List Λ} :
    Along step P s (ls ++ ms) ↔ Along step P s ls ∧ Along step P (run step s ls) ms := by
  induction ls generalizing s with
  | nil => simp [Along]
  | cons l ls ih => rw [List.cons_append, Along, ih, run_cons, Along, and_assoc]

variable (Inv) in
/-- **The invariant rule.** -/
theorem run_inv (h : ∀ s l, Inv s → P s l → Inv (step s l)) (hs : Inv s)
    (hP : Along step P s ls) : Inv (run step s ls) := by
  induction ls generalizing s with
  | nil => exact hs
  | cons l ls ih => exact ih (h s l hs hP.1) hP.2

variable (Inv) in
/-- Under an invariant of the steps that meet it, a condition can be traded for one that is
equivalent there. -/
theorem along_congr (hinv : ∀ s l, Inv s → P s l → Inv (step s l))
    (h : ∀ s, ∀ l ∈ ls, Inv s → (P s l ↔ P' s l)) (hs : Inv s) :
    Along step P s ls ↔ Along step P' s ls := by
  induction ls generalizing s with
  | nil => rfl
  | cons l ls ih =>
    rw [Along, Along, ← h s l (by simp) hs]
    exact and_congr_right fun hl => ih (fun s m hm => h s m (by simp [hm])) (hinv s l hs hl)

variable (Inv) in
/-- **An invariant and the condition that decides it**: when each step from a state of the
invariant can only end in such states just under a condition, the condition along a run keeps
the invariant, and nothing weaker does. -/
theorem inv_along_iff (hinv : ∀ s l, P s l → Inv (step s l))
    (h : ∀ s, ∀ l ∈ ls, Inv s → (P s l ↔ P' s l)) (hs : Inv s) :
    (Along step P' s ls → Inv (run step s ls)) ∧ (Along step P s ls ↔ Along step P' s ls) := by
  have hiff := along_congr Inv (fun s l _ => hinv s l) h hs
  exact ⟨fun hP' => run_inv Inv (fun s l _ => hinv s l) hs (hiff.mpr hP'), hiff⟩

/-! ### What lasts since a step, and what two runs put out -/

variable (step) in
/-- A `good` step was taken, and no `bad` one since. -/
def Since (good bad : σ → Λ → Prop) (s : σ) (ls : List Λ) : Prop :=
  ∃ before l after, ls = before ++ l :: after ∧ good (run step s before) l ∧
    Along step (fun s l => ¬ bad s l) (run step s (before ++ [l])) after

/-- **Where a fact comes from**: in a run whose steps meet `P`, a fact that only `good` steps bring
about and that no `bad` one leaves has been brought about, and left by none since. -/
theorem since_of_run {good bad : σ → Λ → Prop} (Fact : σ → Prop)
    (h : ∀ s l, P s l → Fact (step s l) → good s l ∨ Fact s ∧ ¬ bad s l) (h0 : ¬ Fact s)
    (hP : Along step P s ls) (hf : Fact (run step s ls)) : Since step good bad s ls := by
  induction ls using List.reverseRecOn with
  | nil => exact absurd hf h0
  | append_singleton ls l ih =>
    obtain ⟨hPls, hPl, -⟩ := along_append.mp hP
    rw [run_append] at hf
    rcases h _ l hPl hf with hgood | ⟨hbefore, hbad⟩
    · exact ⟨ls, l, [], rfl, hgood, trivial⟩
    · obtain ⟨before, m, after, rfl, hgood, hafter⟩ := ih hPls hbefore
      refine ⟨before, m, after ++ [l], by simp, hgood, along_append.mpr ⟨hafter, ?_, trivial⟩⟩
      rw [← run_append, List.append_assoc]
      exact hbad

variable {good bad : σ → Λ → Prop}

lemma since_concat {l : Λ} : Since step good bad s (ls ++ [l]) ↔
    good (run step s ls) l ∨ Since step good bad s ls ∧ ¬ bad (run step s ls) l := by
  constructor
  · rintro ⟨before, m, after, heq, hgood, hafter⟩
    rcases List.eq_nil_or_concat after with rfl | ⟨after, l', rfl⟩
    · obtain ⟨rfl, hl⟩ := List.append_inj' heq rfl
      cases hl
      exact .inl hgood
    · rw [List.concat_eq_append] at heq hafter
      rw [← List.cons_append, ← List.append_assoc] at heq
      obtain ⟨rfl, hl⟩ := List.append_inj' heq rfl
      cases hl
      obtain ⟨hafter, hbad, -⟩ := along_append.mp hafter
      rw [← run_append, List.append_assoc] at hbad
      exact .inr ⟨⟨before, m, after, rfl, hgood, hafter⟩, hbad⟩
  · rintro (hgood | ⟨⟨before, m, after, rfl, hgood, hafter⟩, hbad⟩)
    · exact ⟨ls, l, [], rfl, hgood, trivial⟩
    · refine ⟨before, m, after ++ [l], by simp, hgood, along_append.mpr ⟨hafter, ?_, trivial⟩⟩
      rw [← run_append, List.append_assoc]
      exact hbad

/-- **Where a fact comes from, exactly**: a fact that just the `good` steps bring about and just the
`bad` ones take away. -/
theorem since_iff (Fact : σ → Prop)
    (h : ∀ s l, P s l → (Fact (step s l) ↔ good s l ∨ Fact s ∧ ¬ bad s l)) (h0 : ¬ Fact s)
    (hP : Along step P s ls) : Fact (run step s ls) ↔ Since step good bad s ls := by
  induction ls using List.reverseRecOn with
  | nil =>
    refine iff_of_false h0 ?_
    rintro ⟨before, m, after, heq, -⟩
    simp at heq
  | append_singleton ls l ih =>
    obtain ⟨hPls, hPl, -⟩ := along_append.mp hP
    rw [run_append, since_concat, ← ih hPls]
    exact h _ l hPl

/-- The step was taken in the second part of a run, or in the first and it still counts. -/
lemma since_append {ms : List Λ} : Since step good bad s (ls ++ ms) ↔
    Since step good bad (run step s ls) ms ∨
      Since step good bad s ls ∧ Along step (fun s l => ¬ bad s l) (run step s ls) ms := by
  induction ms using List.reverseRecOn with
  | nil =>
    have hnone : ¬ Since step good bad (run step s ls) [] := by
      rintro ⟨before, m, after, heq, -⟩
      simp at heq
    simp [hnone, Along]
  | append_singleton ms m ih =>
    rw [← List.append_assoc, since_concat, ih, since_concat, run_append, along_append]
    simp only [Along, and_true]
    tauto

variable {Ω : Type} {out : σ → Λ → Ω} {Sim : σ → σ → Prop} {t : σ}

variable (step) in
/-- What the steps of a run put out. -/
def outputs (out : σ → Λ → Ω) : σ → List Λ → List Ω
  | _, [] => []
  | s, l :: ls => out s l :: outputs out (step s l) ls

variable (Sim) in
/-- **The rule of two runs**: steps from similar states that put out the same and end in similar
states make runs that do. -/
theorem outputs_congr
    (h : ∀ s t, ∀ l ∈ ls, Sim s t → P s l → P t l →
      out s l = out t l ∧ Sim (step s l) (step t l))
    (hsim : Sim s t) (hs : Along step P s ls) (ht : Along step P t ls) :
    outputs step out s ls = outputs step out t ls ∧ Sim (run step s ls) (run step t ls) := by
  induction ls generalizing s t with
  | nil => exact ⟨rfl, hsim⟩
  | cons l ls ih =>
    obtain ⟨hout, hstep⟩ := h s t l (by simp) hsim hs.1 ht.1
    obtain ⟨houts, hrun⟩ := ih (fun s t m hm => h s t m (by simp [hm])) hstep hs.2 ht.2
    refine ⟨?_, hrun⟩
    rw [outputs, outputs, hout, houts]

end TsaBackend.Machine
