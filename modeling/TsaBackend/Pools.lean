import TsaBackend.Phases

/-!
Rules for the calls of a pool: what all their steps are together, and what a call that has ended
ensures although others ran in between.
-/

namespace TsaBackend.Call

variable {σ ι ε α : Type} {s : σ} {cs : List (Call σ ι ε α)} {sched : List (ℕ × ι)}

lemma interleave_length (s : σ) (cs : List (Call σ ι ε α)) (sched : List (ℕ × ι)) :
    (interleave s cs sched).2.length = cs.length := by
  rw [← before_length]
  exact before_calls le_rfl

lemma interleave_drop (n : ℕ) :
    interleave s cs sched = (sched.drop n).foldl poolStep (before s cs sched n) := by
  rw [before, interleave, interleave, ← List.foldl_append, List.take_append_drop]

lemma along_poolSteps {G : ℕ → σ → σ → Prop} {x : σ × List (Call σ ι ε α)} (h : PoolSteps G x)
    (sched : List (ℕ × ι)) : Machine.Along poolStep (fun x _ => PoolSteps G x) x sched := by
  induction sched generalizing x with
  | nil => trivial
  | cons e sched ih => exact ⟨h, ih (pool_steps h e).2⟩

variable {E : ι → Prop} {R H : σ → σ → Prop} {G : ℕ → σ → σ → Prop} {Q : ℕ → α → σ → Prop}
  {X : ℕ → σ → Prop} {x : σ × List (Call σ ι ε α)}

/-- Each call ensures its part from here on. -/
def PoolEnsures (E : ι → Prop) (R : σ → σ → Prop) (G : ℕ → σ → σ → Prop)
    (Q : ℕ → α → σ → Prop) (X : ℕ → σ → Prop) (x : σ × List (Call σ ι ε α)) : Prop :=
  ∀ k (c : Call σ ι ε α), x.2[k]? = some c → c.Ensures E R (G k) (Q k) (X k) x.1

lemma PoolEnsures.step (h : PoolEnsures E R G Q X x) (hR : ∀ k a b, G k a b → R a b)
    {e : ℕ × ι} (hE : E e.2) :
    (poolStep x e = x ∨ G e.1 x.1 (poolStep x e).1) ∧ PoolEnsures E R G Q X (poolStep x e) := by
  rcases poolStep_cases x e with ⟨-, hstay⟩ | ⟨eff, next, hact, hstep⟩
  · rw [hstay]
    exact ⟨.inl rfl, h⟩
  obtain ⟨hG, hrest⟩ := h _ _ hact x.1 .refl e.2 hE
  rw [hstep]
  refine ⟨.inr hG, fun k c hc => ?_⟩
  by_cases hk : k = e.1
  · subst hk
    rw [getElem?_set_self hact, Option.some.injEq] at hc
    rw [← hc]
    exact hrest
  · rw [getElem?_set_of_ne hk] at hc
    exact (h k c hc).rely (.single (hR _ _ _ hG))

/-- **The rule for a pool**: its calls ensure their parts to the end, and a relation that holds
of all their steps and can be chained holds of the whole. -/
theorem PoolEnsures.run (h : PoolEnsures E R G Q X x) (hR : ∀ k a b, G k a b → R a b)
    (hH : ∀ k a b, G k a b → H a b) (hrefl : ∀ a, H a a) (htrans : ∀ a b c, H a b → H b c → H a c)
    (sched : List (ℕ × ι)) (hE : ∀ e ∈ sched, E e.2) :
    PoolEnsures E R G Q X (sched.foldl poolStep x) ∧ H x.1 (sched.foldl poolStep x).1 := by
  induction sched generalizing x with
  | nil => exact ⟨h, hrefl _⟩
  | cons e sched ih =>
    obtain ⟨hstep, hnext⟩ := h.step hR (hE e (by simp))
    obtain ⟨hend, hrest⟩ := ih hnext fun f hf => hE f (by simp [hf])
    refine ⟨hend, ?_⟩
    rcases hstep with hstay | hstep
    · rw [hstay] at hrest
      rw [List.foldl_cons, hstay]
      exact hrest
    · exact htrans _ _ _ (hH _ _ _ hstep) hrest

lemma PoolEnsures.next (h : PoolEnsures E R G Q X (s, cs)) (hR : ∀ k a b, G k a b → R a b)
    (hE : ∀ e ∈ sched, E e.2) {n : ℕ} {e : ℕ × ι} (hn : sched[n]? = some e) :
    before s cs sched (n + 1) = before s cs sched n ∨
      G e.1 (before s cs sched n).1 (before s cs sched (n + 1)).1 := by
  have hbefore : PoolEnsures E R G Q X (before s cs sched n) :=
    (h.run (H := fun _ _ => True) hR (fun _ _ _ _ => trivial) (fun _ => trivial)
      (fun _ _ _ _ _ => trivial) (sched.take n) fun e he => hE e (List.mem_of_mem_take he)).1
  rw [before_succ hn]
  exact (hbefore.step hR (hE e (List.mem_of_getElem? hn))).1

lemma PoolEnsures.returned (h : PoolEnsures E R G Q X x) {k : ℕ} {a : α}
    (hk : x.2[k]? = some (.pure a)) : Q k a x.1 := h k _ hk _ .refl

/-- The steps of a pool, seen from any position. -/
theorem PoolEnsures.between (h : PoolEnsures E R G Q X (s, cs)) (hR : ∀ k a b, G k a b → R a b)
    (hH : ∀ k a b, G k a b → H a b) (hrefl : ∀ a, H a a) (htrans : ∀ a b c, H a b → H b c → H a c)
    (hE : ∀ e ∈ sched, E e.2) (n : ℕ) :
    H (before s cs sched n).1 (interleave s cs sched).1 := by
  have hbefore : PoolEnsures E R G Q X (before s cs sched n) :=
    (h.run hR hH hrefl htrans (sched.take n) fun e he => hE e (List.mem_of_mem_take he)).1
  rw [interleave_drop n]
  exact (hbefore.run hR hH hrefl htrans (sched.drop n)
    fun e he => hE e (List.mem_of_mem_drop he)).2

/-- **What all steps of a pool are**, whatever happens between the steps of a call. -/
theorem steps_between (hrefl : ∀ a, H a a) (htrans : ∀ a b c, H a b → H b c → H a c)
    (h : ∀ c ∈ cs, c.Steps H) (sched : List (ℕ × ι)) (n : ℕ) :
    H (before s cs sched n).1 (interleave s cs sched).1 := by
  have hpool : PoolEnsures (fun _ => True) (fun _ _ => True) (fun _ => H) (fun _ _ _ => True)
      (fun _ _ => True) (s, cs) := fun k c hc => guar_iff.mp (h c (List.mem_of_getElem? hc) s)
  exact hpool.between (fun _ _ _ _ => trivial) (fun _ _ _ => id) hrefl htrans (fun _ _ => trivial) n

end TsaBackend.Call
