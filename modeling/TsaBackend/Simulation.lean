import TsaBackend.Lens
import TsaBackend.Pools

/-!
Simulations between calls on a whole store and calls on a view of it.

Each step of the one is matched by some steps of the other that the rest of the pool does not
interrupt, none if the view does not change; a pool of the one then does nothing to the view that a
pool of the other cannot do.
-/

namespace TsaBackend.Call

variable {σ τ ι κ ε α β : Type}

/-- The call `d` gets from the store `s` to `d'` and `s'` in steps on inputs that `E` allows. -/
inductive Reaches (E : ι → Prop) : Call σ ι ε α → σ → Call σ ι ε α → σ → Prop
  | refl {d : Call σ ι ε α} {s : σ} : Reaches E d s d s
  | head {eff : ι → σ → σ} {next : ι → σ → Call σ ι ε α} {s s' : σ} {d' : Call σ ι ε α} (i : ι)
      (hi : E i) (h : Reaches E (next i s) (eff i s) d' s') : Reaches E (.act eff next) s d' s'

variable {E : ι → Prop} {d d' d'' : Call σ ι ε α} {s s' s'' : σ}

lemma Reaches.trans (h : Reaches E d s d' s') (h' : Reaches E d' s' d'' s'') :
    Reaches E d s d'' s'' := by
  induction h with
  | refl => exact h'
  | head i hi _ ih => exact .head i hi (ih h')

lemma Reaches.bind {g : α → Call σ ι ε β} (h : Reaches E d s d' s') :
    Reaches E (d >>= g) s (d' >>= g) s' := by
  induction h with
  | refl => exact .refl
  | head i hi _ ih => exact .head i hi ih

lemma Reaches.tryCatch {h : ε → Call σ ι ε α} (hd : Reaches E d s d' s') :
    Reaches E (tryCatchThe ε d h) s (tryCatchThe ε d' h) s' := by
  induction hd with
  | refl => exact .refl
  | head i hi _ ih => exact .head i hi ih

section Branches

variable {turn : ι → Bool} {c c' d d' : Call σ ι ε Unit}

lemma par_pure_right (c : Call σ ι ε Unit) : Call.par turn c (.pure ()) = c := by
  cases c <;> rfl

/-- A branch goes on alone once the other has thrown. -/
lemma Reaches.par_throw {e : ε} (h : Reaches E c s c' s') :
    Reaches E (Call.par turn c (.throw e)) s (Call.par turn c' (.throw e)) s' := by
  induction h with
  | refl => exact .refl
  | head i hi _ ih => exact .head i hi ih

lemma Reaches.par_left (hE : ∀ i, E i → turn i = true) (h : Reaches E c s c' s') :
    Reaches E (Call.par turn c d) s (Call.par turn c' d) s' := by
  cases d with
  | pure a =>
    rw [par_pure_right, par_pure_right]
    exact h
  | throw e => exact h.par_throw
  | act eff₂ next₂ =>
    induction h with
    | refl => exact .refl
    | @head eff next s _ _ i hi _ ih =>
      refine .head i hi ?_
      simp only [hE i hi, if_true]
      exact ih

lemma Reaches.par_right (hE : ∀ i, E i → turn i = false) (h : Reaches E d s d' s') :
    Reaches E (Call.par turn c d) s (Call.par turn c d') s' := by
  cases c with
  | pure a => exact h
  | throw e => exact h.bind
  | act eff next =>
    induction h with
    | refl => exact .refl
    | @head eff₂ next₂ s _ _ i hi _ ih =>
      refine .head i hi ?_
      simp only [hE i hi, Bool.false_eq_true, if_false]
      exact ih

end Branches

/-! ### Simulations of calls and of pools -/

/-- Each step of a call on the whole store, on an input of its own, is matched on the view by
steps of `d` on inputs that `ρ` relates to it. -/
def Simulates (view : τ → σ) (ρ : κ → ι → Prop) : Call τ κ ε α → Call σ ι ε α → Prop
  | .pure a, d => d = .pure a
  | .throw _, d => ∃ e, d = .throw e
  | .act eff next, d => ∀ i t, ∃ d',
      Reaches (ρ i) d (view t) d' (view (eff i t)) ∧ (next i t).Simulates view ρ d'

variable {view : τ → σ} {ρ : κ → ι → Prop} {c : Call τ κ ε α}

lemma simulates_pure (a : α) : (Pure.pure a : Call τ κ ε α).Simulates view ρ (Pure.pure a) := rfl

lemma simulates_throw (e e' : ε) :
    (MonadExcept.throw e : Call τ κ ε α).Simulates view ρ (MonadExcept.throw e') := ⟨e', rfl⟩

/-- A call on a part of the store, seen on this part. -/
lemma simulates_zoom {L : Lens τ σ} {f : κ → ι} (hf : ∀ i, ρ i (f i)) (d : Call σ ι ε α) :
    (d.zoom L f).Simulates L.get ρ d := by
  induction d with
  | pure a => rfl
  | throw e => exact ⟨e, rfl⟩
  | act eff next ih =>
    intro i t
    refine ⟨next (f i) (L.get t), .head (f i) (hf i) ?_, ih _ _⟩
    rw [L.get_set]
    exact .refl

lemma Simulates.bind {f : α → Call τ κ ε β} {g : α → Call σ ι ε β} (h : c.Simulates view ρ d)
    (hf : ∀ a, (f a).Simulates view ρ (g a)) : (c >>= f).Simulates view ρ (d >>= g) := by
  induction c generalizing d with
  | pure a =>
    cases h
    exact hf a
  | throw e =>
    obtain ⟨e', rfl⟩ := h
    exact ⟨e', rfl⟩
  | act eff next ih =>
    intro i t
    obtain ⟨d', hreaches, hnext⟩ := h i t
    exact ⟨d' >>= g, hreaches.bind, ih i t hnext⟩

lemma Simulates.tryCatch {h : ε → Call τ κ ε α} {h' : ε → Call σ ι ε α}
    (hc : c.Simulates view ρ d) (hh : ∀ e e', (h e).Simulates view ρ (h' e')) :
    (tryCatchThe ε c h).Simulates view ρ (tryCatchThe ε d h') := by
  induction c generalizing d with
  | pure a =>
    cases hc
    exact rfl
  | throw e =>
    obtain ⟨e', rfl⟩ := hc
    exact hh e e'
  | act eff next ih =>
    intro i t
    obtain ⟨d', hreaches, hnext⟩ := hc i t
    exact ⟨tryCatchThe ε d' h', hreaches.tryCatch, ih i t hnext⟩

lemma simulates_throwIf {p : Prop} [Decidable p] {e e' : ε} :
    (throwIf p e : Call τ κ ε Unit).Simulates view ρ (throwIf p e') := by
  unfold throwIf
  split
  · exact simulates_throw e e'
  · exact simulates_pure ()

lemma Simulates.when {p : Prop} [Decidable p] {c : Call τ κ ε Unit} {d : Call σ ι ε Unit}
    (h : p → c.Simulates view ρ d) : (when p c).Simulates view ρ (when p d) := by
  unfold Call.when
  split
  · next hp => exact h hp
  · exact simulates_pure ()

lemma Simulates.ite {p : Prop} [Decidable p] {c c' : Call τ κ ε α} {d d' : Call σ ι ε α}
    (h : p → c.Simulates view ρ d) (h' : ¬ p → c'.Simulates view ρ d') :
    (if p then c else c').Simulates view ρ (if p then d else d') := by
  split
  · next hp => exact h hp
  · next hp => exact h' hp

/-- A call that leaves the view, matched by one that can end either way without a step on it. -/
lemma simulates_silent (hrun : c.running = true) (hc : c.Steps fun t t' => view t' = view t)
    (hpure : ∀ i s a, Reaches (ρ i) d s (.pure a) s)
    (hthrow : ∀ i s, ∃ e, Reaches (ρ i) d s (.throw e) s) : c.Simulates view ρ d := by
  induction c with
  | pure a => cases hrun
  | throw e => cases hrun
  | act eff next ih =>
    intro i t
    obtain ⟨hview, hrest⟩ := steps_act.mp hc i t
    rw [hview]
    have hnext := ih i t
    generalize next i t = c at hnext hrest ⊢
    cases c with
    | pure a => exact ⟨.pure a, hpure i _ a, rfl⟩
    | throw e =>
      obtain ⟨e', hreaches⟩ := hthrow i (view t)
      exact ⟨.throw e', hreaches, e', rfl⟩
    | act eff' next' => exact ⟨d, .refl, hnext rfl hrest⟩

/-- One step that does to the view what a step of the other does. -/
lemma simulates_atomic {f : κ → τ → Except ε (α × τ)} {g : ι → σ → Except ε (α × σ)}
    (hfg : ∀ i t, ∃ i', ρ i i' ∧ g i' (view t) = (f i t).map fun x => (x.1, view x.2)) :
    (Call.atomic f).Simulates view ρ (Call.atomic g) := by
  intro i t
  obtain ⟨i', hi, hstep⟩ := hfg i t
  rcases hf : f i t with e | ⟨a, t'⟩
  · rw [hf] at hstep
    refine ⟨.throw e, .head i' hi ?_, ?_⟩
    · simp only [hf, hstep, Except.map]
      exact .refl
    · simp only [hf]
      exact ⟨e, rfl⟩
  · rw [hf] at hstep
    refine ⟨.pure a, .head i' hi ?_, ?_⟩
    · simp only [hf, hstep, Except.map]
      exact .refl
    · simp only [hf]
      rfl

/-- A step that leaves the view, where there is none. -/
lemma simulates_skip {f : κ → τ → Except ε (Unit × τ)}
    (hf : ∀ i t, ∃ t', f i t = .ok ((), t') ∧ view t' = view t) :
    (Call.atomic f).Simulates view ρ (Pure.pure ()) := by
  intro i t
  obtain ⟨t', hok, hview⟩ := hf i t
  simp only [hok, hview]
  exact ⟨.pure (), .refl, rfl⟩

/-- The other branch has thrown, so that this one only delays the same end. -/
lemma simulates_par_throw {turn : κ → Bool} {c : Call τ κ ε Unit} (e e' : ε)
    (hc : c.Steps fun t t' => view t' = view t) :
    (Call.par turn c (.throw e)).Simulates view ρ (MonadExcept.throw e') := by
  induction c with
  | pure a => exact simulates_throw e e'
  | throw e₁ => exact simulates_throw e e'
  | act eff next ih =>
    intro i t
    obtain ⟨hview, hrest⟩ := steps_act.mp hc i t
    rw [hview]
    exact ⟨.throw e', .refl, ih i t hrest⟩

/-- The view of a part is a view of the whole. -/
lemma Simulates.zoom {υ ν : Type} {L : Lens υ τ} {f : ν → κ} (h : c.Simulates view ρ d) :
    (c.zoom L f).Simulates (fun u => view (L.get u)) (fun i => ρ (f i)) d := by
  induction c generalizing d with
  | pure a => exact h
  | throw e => exact h
  | act eff next ih =>
    intro i u
    obtain ⟨d', hreaches, hnext⟩ := h (f i) (L.get u)
    refine ⟨d', ?_, ih _ _ hnext⟩
    simpa only [L.get_set] using hreaches

/-- `Promise.all` of two branches, where the inputs choose the same one. -/
theorem Simulates.par {turn : κ → Bool} {turn' : ι → Bool} {c₁ c₂ : Call τ κ ε Unit}
    {d₁ d₂ : Call σ ι ε Unit} (hturn : ∀ i i', ρ i i' → turn' i' = turn i)
    (h₁ : c₁.Simulates view ρ d₁) (h₂ : c₂.Simulates view ρ d₂) :
    (Call.par turn c₁ c₂).Simulates view ρ (Call.par turn' d₁ d₂) := by
  induction c₁ generalizing c₂ d₁ d₂ with
  | pure a =>
    cases h₁
    exact h₂
  | throw e =>
    obtain ⟨e', rfl⟩ := h₁
    exact h₂.bind fun _ => simulates_throw e e'
  | act eff next ih =>
    change (parAct turn eff next (fun i t => Call.par turn (next i t)) c₂).Simulates view ρ _
    induction c₂ generalizing d₂ with
    | pure a =>
      cases h₂
      rw [par_pure_right]
      exact h₁
    | throw e =>
      obtain ⟨e', rfl⟩ := h₂
      intro i t
      obtain ⟨d', hreaches, hnext⟩ := h₁ i t
      exact ⟨_, hreaches.par_throw, ih i t hnext ⟨e', rfl⟩⟩
    | act eff₂ next₂ ih₂ =>
      intro i t
      by_cases hi : turn i = true
      · obtain ⟨d', hreaches, hnext⟩ := h₁ i t
        refine ⟨Call.par turn' d' d₂,
          Reaches.par_left (fun i' hi' => (hturn i i' hi').trans hi) ?_, ?_⟩
        · simpa only [hi, if_true] using hreaches
        · simp only [hi, if_true]
          exact ih i t hnext h₂
      · rw [Bool.not_eq_true] at hi
        obtain ⟨d', hreaches, hnext⟩ := h₂ i t
        refine ⟨Call.par turn' d₁ d',
          Reaches.par_right (fun i' hi' => (hturn i i' hi').trans hi) ?_, ?_⟩
        · simpa only [hi, Bool.false_eq_true, if_false] using hreaches
        · simp only [hi, Bool.false_eq_true, if_false]
          exact ih₂ i t hnext

theorem Simulates.all {turn : ℕ → κ → Bool} {turn' : ℕ → ι → Bool} {cs : List (Call τ κ ε Unit)}
    {ds : List (Call σ ι ε Unit)} (hturn : ∀ k i i', ρ i i' → turn' k i' = turn k i)
    (h : List.Forall₂ (Simulates view ρ) cs ds) :
    (Call.all turn cs).Simulates view ρ (Call.all turn' ds) := by
  induction h generalizing turn turn' with
  | nil => exact simulates_pure ()
  | cons hc _ ih => exact Simulates.par (hturn 0) hc (ih fun k => hturn (k + 1))

lemma Reaches.pool {k : ℕ} {ds : List (Call σ ι ε α)} (h : Reaches E d s d' s')
    (hd : ds[k]? = some d) : ∃ is : List ι, (∀ i ∈ is, E i) ∧
      (is.map fun i => (k, i)).foldl poolStep (s, ds) = (s', ds.set k d') := by
  induction h generalizing ds with
  | refl =>
    refine ⟨[], by simp, ?_⟩
    obtain ⟨hlt, rfl⟩ := List.getElem?_eq_some_iff.mp hd
    rw [List.map_nil, List.foldl_nil, List.set_getElem_self]
  | @head eff next s _ _ i hi _ ih =>
    obtain ⟨is, his, hrun⟩ := ih (getElem?_set_self hd)
    refine ⟨i :: is, ?_, ?_⟩
    · simpa [hi] using his
    · rw [List.map_cons, List.foldl_cons]
      have hstep : poolStep (s, ds) (k, i) = (eff i s, ds.set k (next i s)) := by
        simp only [poolStep, hd, step]
      rw [hstep, hrun, List.set_set]

/-- The turns of a schedule, each as the inputs that match it. -/
def flatten (blocks : List (ℕ × List ι)) : List (ℕ × ι) :=
  blocks.flatMap fun b => b.2.map fun i => (b.1, i)

/-- Each call of a pool simulates the one at the same place. -/
def PoolSimulates (view : τ → σ) (ρ : κ → ι → Prop) (x : τ × List (Call τ κ ε α))
    (y : σ × List (Call σ ι ε α)) : Prop :=
  view x.1 = y.1 ∧ ∀ (k : ℕ) (c : Call τ κ ε α), x.2[k]? = some c →
    ∃ d : Call σ ι ε α, y.2[k]? = some d ∧ c.Simulates view ρ d

variable {x : τ × List (Call τ κ ε α)} {y : σ × List (Call σ ι ε α)}

/-- One turn is matched by turns of the same call. -/
lemma PoolSimulates.step (h : PoolSimulates view ρ x y) (e : ℕ × κ) : ∃ is : List ι,
    (∀ i ∈ is, ρ e.2 i) ∧
      PoolSimulates view ρ (poolStep x e) ((is.map fun i => (e.1, i)).foldl poolStep y) := by
  obtain ⟨hview, hcalls⟩ := h
  rcases poolStep_cases x e with ⟨-, hstay⟩ | ⟨eff, next, hact, hstep⟩
  · exact ⟨[], by simp, by rw [hstay]; exact ⟨hview, hcalls⟩⟩
  obtain ⟨d, hd, hsim⟩ := hcalls _ _ hact
  obtain ⟨d', hreaches, hnext⟩ := hsim e.2 x.1
  rw [hview] at hreaches
  obtain ⟨is, his, hrun⟩ := hreaches.pool hd
  refine ⟨is, his, ?_⟩
  rw [hstep, hrun]
  refine ⟨rfl, fun k c hc => ?_⟩
  by_cases hk : k = e.1
  · subst hk
    rw [getElem?_set_self hact, Option.some.injEq] at hc
    rw [← hc]
    exact ⟨d', getElem?_set_self hd, hnext⟩
  · rw [getElem?_set_of_ne hk] at hc
    rw [getElem?_set_of_ne hk]
    exact hcalls k c hc

/-- **The rule of simulation**: what a pool does to the view, the pool it simulates does as well,
in the same order of turns. -/
theorem PoolSimulates.run (h : PoolSimulates view ρ x y) (sched : List (ℕ × κ)) :
    ∃ blocks : List (ℕ × List ι),
      List.Forall₂ (fun e b => b.1 = e.1 ∧ ∀ i ∈ b.2, ρ e.2 i) sched blocks ∧
      PoolSimulates view ρ (sched.foldl poolStep x) ((flatten blocks).foldl poolStep y) := by
  induction sched generalizing x y with
  | nil => exact ⟨[], .nil, h⟩
  | cons e sched ih =>
    obtain ⟨is, his, hstep⟩ := h.step e
    obtain ⟨blocks, hblocks, hrun⟩ := ih hstep
    refine ⟨(e.1, is) :: blocks, .cons ⟨rfl, his⟩ hblocks, ?_⟩
    rw [List.foldl_cons, flatten, List.flatMap_cons, List.foldl_append]
    exact hrun

end TsaBackend.Call
