import TsaBackend.Concurrent

/-!
What each step of a call can be, whatever other calls do in between, and what follows for
pools of calls.
-/

namespace TsaBackend.Call

variable {σ ι ε α β : Type} {G G' : σ → σ → Prop}

/-- Every step the call can take, whatever happens between its steps, is a `G` step. -/
def Steps (G : σ → σ → Prop) (c : Call σ ι ε α) : Prop := ∀ s, c.Guar (fun _ _ => True) G s

lemma steps_pure (a : α) : (Pure.pure a : Call σ ι ε α).Steps G := fun _ => trivial

lemma steps_throw (e : ε) : (MonadExcept.throw e : Call σ ι ε α).Steps G := fun _ => trivial

lemma Steps.mono {c : Call σ ι ε α} (h : c.Steps G) (hG : ∀ a b, G a b → G' a b) : c.Steps G' :=
  fun s => (h s).mono (fun _ _ => id) hG

lemma Steps.bind {c : Call σ ι ε α} {f : α → Call σ ι ε β} (hc : c.Steps G)
    (hf : ∀ a, (f a).Steps G) : (c >>= f).Steps G := fun s => (hc s).bind fun a t => hf a t

lemma guar_any {c : Call σ ι ε α} {s t : σ} (h : c.Guar (fun _ _ => True) G s) :
    c.Guar (fun _ _ => True) G t := h.rely (.single trivial)

lemma steps_act {eff : ι → σ → σ} {next : ι → σ → Call σ ι ε α} :
    (Call.act eff next).Steps G ↔ ∀ i s, G s (eff i s) ∧ (next i s).Steps G := by
  constructor
  · intro h i s
    obtain ⟨hstep, hrest⟩ := h s s .refl i
    exact ⟨hstep, fun _ => guar_any hrest⟩
  · intro h s t _ i
    exact ⟨(h i t).1, (h i t).2 _⟩

lemma steps_of_forall (h : ∀ s t, G s t) (c : Call σ ι ε α) : c.Steps G := by
  induction c with
  | pure a => exact steps_pure a
  | throw e => exact steps_throw e
  | act eff next ih => exact steps_act.mpr fun i s => ⟨h _ _, ih i s⟩

lemma Steps.tryCatch {c : Call σ ι ε α} {h : ε → Call σ ι ε α} (hc : c.Steps G)
    (hh : ∀ e, (h e).Steps G) : (MonadExcept.tryCatch c h).Steps G := by
  induction c with
  | pure a => exact steps_pure a
  | throw e => exact hh e
  | act eff next ih =>
    refine steps_act.mpr fun i s => ?_
    obtain ⟨hstep, hrest⟩ := steps_act.mp hc i s
    exact ⟨hstep, ih i s hrest⟩

lemma steps_atomic {f : ι → σ → Except ε (α × σ)} (hok : ∀ i s a t, f i s = .ok (a, t) → G s t)
    (herr : ∀ s, G s s) : (atomic f).Steps G :=
  fun _ => Guar.atomic (fun t _ i a u h => hok i t a u h) herr

lemma steps_read (f : ι → σ → α) (hrefl : ∀ s, G s s) : (read f : Call σ ι ε α).Steps G :=
  steps_act.mpr fun _ s => ⟨hrefl s, steps_pure _⟩

lemma Steps.ite {c : Prop} [Decidable c] {x y : Call σ ι ε α} (hx : c → x.Steps G)
    (hy : ¬ c → y.Steps G) : (if c then x else y).Steps G := by
  split
  · next h => exact hx h
  · next h => exact hy h

lemma steps_throwIf (c : Prop) [Decidable c] (e : ε) :
    (throwIf c e : Call σ ι ε Unit).Steps G :=
  Steps.ite (fun _ => steps_throw e) fun _ => steps_pure ()

lemma Steps.when {c : Prop} [Decidable c] {x : Call σ ι ε Unit} (hx : c → x.Steps G) :
    (Call.when c x).Steps G :=
  Steps.ite hx fun _ => steps_pure ()

lemma Steps.par {turn : ι → Bool} {c d : Call σ ι ε Unit} (hc : c.Steps G) (hd : d.Steps G) :
    (par turn c d).Steps G := by
  intro s
  have hpar : (Call.par turn c d).Guar (fun _ _ => True) (fun a b => G a b ∨ G a b) s :=
    Guar.par ((hc s).mono (fun _ _ _ => trivial) fun _ _ => id)
      ((hd s).mono (fun _ _ _ => trivial) fun _ _ => id)
  exact hpar.mono (fun _ _ => id) fun _ _ h => h.elim id id

lemma Steps.all {turn : ℕ → ι → Bool} {cs : List (Call σ ι ε Unit)}
    (h : ∀ c ∈ cs, c.Steps G) : (Call.all turn cs).Steps G := by
  induction cs generalizing turn with
  | nil => exact steps_pure ()
  | cons c cs ih => exact (h c (by simp)).par (ih fun d hd => h d (by simp [hd]))

lemma Steps.preserves {I : σ → Prop} {c : Call σ ι ε α} (h : c.Steps G)
    (hI : ∀ a b, G a b → I a → I b) : c.Preserves I := by
  induction c with
  | pure a => trivial
  | throw e => trivial
  | act eff next ih =>
    intro i s hs
    obtain ⟨hstep, hrest⟩ := steps_act.mp h i s
    exact ⟨hI _ _ hstep hs, ih i s hrest⟩

/-- An invariant of the steps holds where the call ends. -/
lemma Preserves.exec {I : σ → Prop} {c : Call σ ι ε α} {s : σ} (h : c.Preserves I) (hs : I s)
    (ω : ℕ → ι) : I (c.exec ω s).2 := by
  induction c generalizing s ω with
  | pure a => exact hs
  | throw e => exact hs
  | act eff next ih =>
    obtain ⟨hstep, hrest⟩ := h (ω 0) s hs
    exact ih (ω 0) s hrest hstep _

/-! ### Steps of a pool -/

/-- Whether a call has steps left. -/
def running : Call σ ι ε α → Bool
  | .act _ _ => true
  | _ => false

/-- Whether a call has returned. -/
def returned : Call σ ι ε α → Bool
  | .pure _ => true
  | _ => false

/-- Call `k` of the pool has returned. -/
def Returned (x : σ × List (Call σ ι ε α)) (k : ℕ) : Prop := x.2[k]?.any returned = true

instance (x : σ × List (Call σ ι ε α)) (k : ℕ) : Decidable (Returned x k) := by
  unfold Returned; infer_instance

variable {x : σ × List (Call σ ι ε α)} {e : ℕ × ι}

lemma returned_iff {k : ℕ} : Returned x k ↔ ∃ a, x.2[k]? = some (.pure a) := by
  unfold Returned
  rcases hc : x.2[k]? with _ | c
  · simp
  · cases c <;> simp [returned]

/-- A pool steps only where a call is running. -/
lemma poolStep_cases (x : σ × List (Call σ ι ε α)) (e : ℕ × ι) :
    ((∀ c, x.2[e.1]? = some c → c.running = false) ∧ poolStep x e = x) ∨
      ∃ eff next, x.2[e.1]? = some (.act eff next) ∧
        poolStep x e = (eff e.2 x.1, x.2.set e.1 (next e.2 x.1)) := by
  obtain ⟨s, cs⟩ := x
  rcases hc : cs[e.1]? with _ | c
  · exact .inl ⟨by simp, by simp only [poolStep, hc]⟩
  obtain ⟨hlt, hget⟩ := List.getElem?_eq_some_iff.mp hc
  have hself : cs.set e.1 c = cs := by rw [← hget, List.set_getElem_self]
  cases c with
  | pure a => exact .inl ⟨fun _ h => by cases h; rfl, by simp only [poolStep, hc, step, hself]⟩
  | throw err => exact .inl ⟨fun _ h => by cases h; rfl, by simp only [poolStep, hc, step, hself]⟩
  | act eff next => exact .inr ⟨eff, next, rfl, by simp only [poolStep, hc, step]⟩

lemma getElem?_set_self {cs : List (Call σ ι ε α)} {c d : Call σ ι ε α} {k : ℕ}
    (h : cs[k]? = some c) : (cs.set k d)[k]? = some d := by
  obtain ⟨hlt, -⟩ := List.getElem?_eq_some_iff.mp h
  simp [hlt]

lemma getElem?_set_of_ne {cs : List (Call σ ι ε α)} {d : Call σ ι ε α} {j k : ℕ} (h : j ≠ k) :
    (cs.set k d)[j]? = cs[j]? := List.getElem?_set_ne h.symm

lemma poolStep_other {k : ℕ} (h : k ≠ e.1) : (poolStep x e).2[k]? = x.2[k]? := by
  rcases poolStep_cases x e with ⟨-, hstay⟩ | ⟨eff, next, -, hstep⟩
  · rw [hstay]
  · rw [hstep]
    exact getElem?_set_of_ne h

lemma poolStep_ended {k : ℕ} {c : Call σ ι ε α} (hc : x.2[k]? = some c) (h : c.running = false) :
    (poolStep x e).2[k]? = some c := by
  by_cases hk : k = e.1
  · subst hk
    rcases poolStep_cases x e with ⟨-, hstay⟩ | ⟨eff, next, hact, -⟩
    · rw [hstay, hc]
    · rw [hact, Option.some.injEq] at hc
      rw [← hc] at h
      cases h
  · rw [poolStep_other hk, hc]

/-- Call `k` of the pool takes `Gk k` steps. -/
def PoolSteps (Gk : ℕ → σ → σ → Prop) (x : σ × List (Call σ ι ε α)) : Prop :=
  ∀ k (c : Call σ ι ε α), x.2[k]? = some c → c.Steps (Gk k)

lemma poolStep_length : (poolStep x e).2.length = x.2.length := by
  rcases poolStep_cases x e with ⟨-, hstay⟩ | ⟨eff, next, -, hstep⟩
  · rw [hstay]
  · rw [hstep, List.length_set]

/-- Every call of a pool takes steps of its own kind, now and later. -/
lemma pool_steps {Gk : ℕ → σ → σ → Prop} (h : PoolSteps Gk x) (e : ℕ × ι) :
    (poolStep x e = x ∨ Gk e.1 x.1 (poolStep x e).1) ∧ PoolSteps Gk (poolStep x e) := by
  rcases poolStep_cases x e with ⟨-, hstay⟩ | ⟨eff, next, hact, hstep⟩
  · rw [hstay]
    exact ⟨.inl rfl, h⟩
  · obtain ⟨hG, hrest⟩ := steps_act.mp (h _ _ hact) e.2 x.1
    rw [hstep]
    refine ⟨.inr hG, fun k c hc => ?_⟩
    by_cases hk : k = e.1
    · subst hk
      rw [getElem?_set_self hact, Option.some.injEq] at hc
      rw [← hc]
      exact hrest
    · rw [getElem?_set_of_ne hk] at hc
      exact h k c hc

end TsaBackend.Call
