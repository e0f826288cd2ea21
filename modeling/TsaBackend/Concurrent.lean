import Mathlib.Logic.Relation
import TsaBackend.Call

/-!
Calls that run at the same time: branches of one call that wait for each other, and calls
of a pool that are interleaved step by step.

A branch is judged by what it relies on and what it guarantees: between two of its own
steps the store may change by steps it relies on, and each of its own steps is one it
guarantees. Branches whose guarantees are what the others rely on can be run together.
-/

namespace TsaBackend

namespace Call

variable {σ ι ε α β κ : Type}

/-- Two branches, the first about to take a step. -/
def parAct (turn : ι → Bool) (eff : ι → σ → σ) (next : ι → σ → Call σ ι ε Unit)
    (rest : ι → σ → Call σ ι ε Unit → Call σ ι ε Unit) : Call σ ι ε Unit → Call σ ι ε Unit
  | .pure _ => .act eff next
  | .throw e => .act eff fun i s => rest i s (.throw e)
  | .act eff₂ next₂ => .act (fun i s => if turn i then eff i s else eff₂ i s) fun i s =>
      if turn i then rest i s (.act eff₂ next₂) else parAct turn eff next rest (next₂ i s)

/-- Two branches run to their ends, their steps in the order the inputs choose; the whole
throws once both have ended if one of them threw. -/
def par (turn : ι → Bool) : Call σ ι ε Unit → Call σ ι ε Unit → Call σ ι ε Unit
  | .pure _, d => d
  | .throw e, d => d.bind fun _ => .throw e
  | .act eff next, d => parAct turn eff next (fun i s => par turn (next i s)) d

/-- `Promise.all`: the inputs with `turn k` let branch `k` take the next step. -/
def all (turn : ℕ → ι → Bool) : List (Call σ ι ε Unit) → Call σ ι ε Unit
  | [] => .pure ()
  | c :: cs => par (turn 0) c (all (fun k => turn (k + 1)) cs)

/-- Every step of the call is a `G` step, whatever `R` steps come between its own. -/
def Guar (R G : σ → σ → Prop) : Call σ ι ε α → σ → Prop
  | .pure _, _ => True
  | .throw _, _ => True
  | .act eff next, s => ∀ t, Relation.ReflTransGen R s t → ∀ i,
      G t (eff i t) ∧ (next i t).Guar R G (eff i t)

variable {R R' G G' : σ → σ → Prop} {s t : σ}

lemma Guar.rely {c : Call σ ι ε α} (h : c.Guar R G s) (hR : Relation.ReflTransGen R s t) :
    c.Guar R G t := by
  cases c with
  | pure a => trivial
  | throw e => trivial
  | act eff next => exact fun u hu => h u (hR.trans hu)

lemma Guar.mono {c : Call σ ι ε α} (h : c.Guar R G s) (hR : ∀ a b, R' a b → R a b)
    (hG : ∀ a b, G a b → G' a b) : c.Guar R' G' s := by
  induction c generalizing s with
  | pure a => trivial
  | throw e => trivial
  | act eff next ih =>
    intro u hu i
    have hu' : Relation.ReflTransGen R s u := Relation.ReflTransGen.mono hR _ _ hu
    obtain ⟨hstep, hrest⟩ := h u hu' i
    exact ⟨hG _ _ hstep, ih i u hrest⟩

lemma Guar.bind {c : Call σ ι ε α} {f : α → Call σ ι ε β} (h : c.Guar R G s)
    (hf : ∀ a t, (f a).Guar R G t) : (c.bind f).Guar R G s := by
  induction c generalizing s with
  | pure a => exact hf a s
  | throw e => trivial
  | act eff next ih =>
    intro u hu i
    obtain ⟨hstep, hrest⟩ := h u hu i
    exact ⟨hstep, ih i u hrest⟩

lemma Guar.atomic {f : ι → σ → Except ε (α × σ)}
    (hok : ∀ t, Relation.ReflTransGen R s t → ∀ i a u, f i t = .ok (a, u) → G t u)
    (herr : ∀ t, G t t) : (Call.atomic f).Guar R G s := by
  intro t ht i
  rcases hf : f i t with e | ⟨a, u⟩
  · simpa only [hf] using ⟨herr t, trivial⟩
  · simpa only [hf] using ⟨hok t ht i a u hf, trivial⟩

/-- On inputs that satisfy `E` every step of the call is a `G` step, whatever `R` steps come between
its own, and from its end on `Q` holds if it has returned and `X` if it has thrown. -/
def Ensures (E : ι → Prop) (R G : σ → σ → Prop) :
    Call σ ι ε α → (α → σ → Prop) → (σ → Prop) → σ → Prop
  | .pure a, Q, _, s => ∀ t, Relation.ReflTransGen R s t → Q a t
  | .throw _, _, X, s => ∀ t, Relation.ReflTransGen R s t → X t
  | .act eff next, Q, X, s => ∀ t, Relation.ReflTransGen R s t → ∀ i, E i →
      G t (eff i t) ∧ (next i t).Ensures E R G Q X (eff i t)

lemma guar_iff {c : Call σ ι ε α} : c.Guar R G s ↔
    c.Ensures (fun _ => True) R G (fun _ _ => True) (fun _ => True) s := by
  induction c generalizing s with
  | pure a => exact ⟨fun _ _ _ => trivial, fun _ => trivial⟩
  | throw e => exact ⟨fun _ _ _ => trivial, fun _ => trivial⟩
  | act eff next ih =>
    refine forall₂_congr fun t _ => forall_congr' fun i => ?_
    rw [ih i t]
    exact ⟨fun h _ => h, fun h => h trivial⟩

section Ensures

variable {E : ι → Prop} {Q Q' : α → σ → Prop} {X X' : σ → Prop}

lemma Ensures.rely {c : Call σ ι ε α} (h : c.Ensures E R G Q X s)
    (hR : Relation.ReflTransGen R s t) : c.Ensures E R G Q X t := by
  cases c with
  | pure a => exact fun u hu => h u (hR.trans hu)
  | throw e => exact fun u hu => h u (hR.trans hu)
  | act eff next => exact fun u hu => h u (hR.trans hu)

lemma Ensures.mono {c : Call σ ι ε α} (h : c.Ensures E R G Q X s) (hR : ∀ a b, R' a b → R a b)
    (hG : ∀ a b, G a b → G' a b) (hQ : ∀ a t, Q a t → Q' a t) (hX : ∀ t, X t → X' t) :
    c.Ensures E R' G' Q' X' s := by
  have hstar : ∀ {a b}, Relation.ReflTransGen R' a b → Relation.ReflTransGen R a b :=
    Relation.ReflTransGen.mono hR _ _
  induction c generalizing s with
  | pure a => exact fun t ht => hQ a t (h t (hstar ht))
  | throw e => exact fun t ht => hX t (h t (hstar ht))
  | act eff next ih =>
    intro t ht i hi
    obtain ⟨hstep, hrest⟩ := h t (hstar ht) i hi
    exact ⟨hG _ _ hstep, ih i t hrest⟩

lemma Ensures.bind {c : Call σ ι ε α} {f : α → Call σ ι ε β} {Q' : β → σ → Prop}
    (h : c.Ensures E R G Q X s) (hX : ∀ t, X t → X' t)
    (hf : ∀ a t, (∀ u, Relation.ReflTransGen R t u → Q a u) → (f a).Ensures E R G Q' X' t) :
    (c.bind f).Ensures E R G Q' X' s := by
  induction c generalizing s with
  | pure a => exact hf a s h
  | throw e => exact fun t ht => hX t (h t ht)
  | act eff next ih =>
    intro t ht i hi
    obtain ⟨hstep, hrest⟩ := h t ht i hi
    exact ⟨hstep, ih i t hrest⟩

/-- A fact that the call and what it relies on keep is there at its end. -/
lemma Ensures.keep {c : Call σ ι ε α} {P : σ → Prop} (h : c.Ensures E R G Q X s)
    (hP : ∀ t, Relation.ReflTransGen (fun a b => R a b ∨ G a b) s t → P t) :
    c.Ensures E R G (fun a t => Q a t ∧ P t) (fun t => X t ∧ P t) s := by
  have hstar : ∀ {a b}, Relation.ReflTransGen R a b →
      Relation.ReflTransGen (fun a b => R a b ∨ G a b) a b :=
    Relation.ReflTransGen.mono (fun _ _ => .inl) _ _
  induction c generalizing s with
  | pure a => exact fun t ht => ⟨h t ht, hP t (hstar ht)⟩
  | throw e => exact fun t ht => ⟨h t ht, hP t (hstar ht)⟩
  | act eff next ih =>
    intro t ht i hi
    obtain ⟨hstep, hrest⟩ := h t ht i hi
    refine ⟨hstep, ih i t hrest fun u hu => hP u ?_⟩
    exact ((hstar ht).tail (.inr hstep)).trans hu

lemma Ensures.atomic {f : ι → σ → Except ε (α × σ)}
    (hok : ∀ t, Relation.ReflTransGen R s t → ∀ i, E i → ∀ a u, f i t = .ok (a, u) →
      G t u ∧ ∀ v, Relation.ReflTransGen R u v → Q a v)
    (herr : ∀ t, Relation.ReflTransGen R s t → ∀ i, E i → ∀ e, f i t = .error e →
      G t t ∧ ∀ v, Relation.ReflTransGen R t v → X v) :
    (Call.atomic f).Ensures E R G Q X s := by
  intro t ht i hi
  rcases hf : f i t with e | ⟨a, u⟩
  · simpa only [hf, Ensures] using herr t ht i hi e hf
  · simpa only [hf, Ensures] using hok t ht i hi a u hf

/-- **Two branches together**: each relies on the steps the other one guarantees. -/
theorem Ensures.par {turn : ι → Bool} {G₁ G₂ : σ → σ → Prop} {Q₁ Q₂ X₁ X₂ : σ → Prop}
    {c d : Call σ ι ε Unit}
    (hc : c.Ensures E (fun a b => R a b ∨ G₂ a b) G₁ (fun _ => Q₁) X₁ s)
    (hd : d.Ensures E (fun a b => R a b ∨ G₁ a b) G₂ (fun _ => Q₂) X₂ s) :
    (par turn c d).Ensures E R (fun a b => G₁ a b ∨ G₂ a b) (fun _ t => Q₁ t ∧ Q₂ t)
      (fun t => (Q₁ t ∨ X₁ t) ∧ (Q₂ t ∨ X₂ t) ∧ (X₁ t ∨ X₂ t)) s := by
  induction c generalizing d s with
  | pure a =>
    have hd' : d.Ensures E R G₂ (fun _ => Q₂) X₂ s :=
      hd.mono (fun _ _ => .inl) (fun _ _ h => h) (fun _ _ h => h) fun _ h => h
    exact (hd'.keep hc).mono (fun _ _ h => h) (fun _ _ => .inr) (fun _ _ h => ⟨h.2, h.1⟩)
      fun _ h => ⟨.inl h.2, .inr h.1, .inr h.1⟩
  | throw e =>
    have hd' : d.Ensures E R G₂ (fun _ => Q₂) X₂ s :=
      hd.mono (fun _ _ => .inl) (fun _ _ h => h) (fun _ _ h => h) fun _ h => h
    refine ((hd'.keep hc).mono (fun _ _ h => h) (fun _ _ => .inr) (fun _ _ h => h) fun _ h => h).bind
      (fun _ h => ⟨.inr h.2, .inr h.1, .inr h.1⟩) fun _ t h u hu => ?_
    exact ⟨.inr (h u hu).2, .inl (h u hu).1, .inl (h u hu).2⟩
  | act eff next ih =>
    -- the second branch is consumed inside the first one's step
    have hR₁ : ∀ {u v}, Relation.ReflTransGen R u v →
        Relation.ReflTransGen (fun a b => R a b ∨ G₂ a b) u v :=
      Relation.ReflTransGen.mono (fun _ _ => .inl) _ _
    have hR₂ : ∀ {u v}, Relation.ReflTransGen R u v →
        Relation.ReflTransGen (fun a b => R a b ∨ G₁ a b) u v :=
      Relation.ReflTransGen.mono (fun _ _ => .inl) _ _
    induction d generalizing s with
    | pure a =>
      have hc' : (Call.act eff next).Ensures E R G₁ (fun _ => Q₁) X₁ s :=
        hc.mono (fun _ _ => .inl) (fun _ _ h => h) (fun _ _ h => h) fun _ h => h
      exact (hc'.keep hd).mono (fun _ _ h => h) (fun _ _ => .inl) (fun _ _ h => h)
        fun _ h => ⟨.inr h.1, .inl h.2, .inl h.1⟩
    | throw e =>
      intro u hu i hi
      obtain ⟨hstep, hrest⟩ := hc u (hR₁ hu) i hi
      refine ⟨.inl hstep, ih i u hrest ?_⟩
      exact hd.rely ((hR₂ hu).tail (.inr hstep))
    | act eff₂ next₂ ih₂ =>
      intro u hu i hi
      by_cases ht : turn i
      · obtain ⟨hstep, hrest⟩ := hc u (hR₁ hu) i hi
        -- the second branch relies on the step the first one takes
        have hd' := hd.rely ((hR₂ hu).tail (.inr hstep))
        simp only [ht, if_true]
        exact ⟨.inl hstep, ih i u hrest hd'⟩
      · obtain ⟨hstep, hrest⟩ := hd u (hR₂ hu) i hi
        have hc' := hc.rely ((hR₁ hu).tail (.inr hstep))
        simp only [ht, Bool.false_eq_true, if_false]
        exact ⟨.inr hstep, ih₂ i u hc' hrest⟩

/-- **All branches together**, one for each of the keys `ks`: when one of them throws, the others
have run to their ends as well. -/
theorem Ensures.all {turn : ℕ → ι → Bool} {ks : List κ} {c : κ → Call σ ι ε Unit}
    {Q X : κ → σ → Prop} (Rely Gk : κ → σ → σ → Prop) (hks : ks.Nodup)
    (hrely : ∀ k ∈ ks, ∀ j ∈ ks, j ≠ k → ∀ a b, Gk j a b → Rely k a b)
    (hR : ∀ k ∈ ks, ∀ a b, R a b → Rely k a b)
    (h : ∀ k ∈ ks, (c k).Ensures E (Rely k) (Gk k) (fun _ => Q k) (X k) s) :
    (Call.all turn (ks.map c)).Ensures E R (fun a b => ∃ k ∈ ks, Gk k a b)
      (fun _ t => ∀ k ∈ ks, Q k t) (fun t => (∀ k ∈ ks, Q k t ∨ X k t) ∧ ∃ k ∈ ks, X k t) s := by
  induction ks generalizing turn R with
  | nil => exact fun t _ => by simp
  | cons k ks ih =>
    obtain ⟨hk, hks⟩ := List.nodup_cons.mp hks
    have hmem : ∀ j ∈ ks, j ∈ k :: ks := fun j hj => by simp [hj]
    have hself : k ∈ k :: ks := by simp
    have hne : ∀ j ∈ ks, j ≠ k := by
      rintro j hj rfl
      exact hk hj
    have hpar : (Call.par (turn 0) (c k) (Call.all (fun n => turn (n + 1)) (ks.map c))).Ensures E R
        (fun a b => Gk k a b ∨ ∃ j ∈ ks, Gk j a b) (fun _ t => Q k t ∧ ∀ j ∈ ks, Q j t)
        (fun t => (Q k t ∨ X k t) ∧
          ((∀ j ∈ ks, Q j t) ∨ (∀ j ∈ ks, Q j t ∨ X j t) ∧ ∃ j ∈ ks, X j t) ∧
          (X k t ∨ (∀ j ∈ ks, Q j t ∨ X j t) ∧ ∃ j ∈ ks, X j t)) s := by
      refine Ensures.par ((h k hself).mono ?_ (fun _ _ h => h) (fun _ _ h => h) fun _ h => h)
        (ih hks ?_ ?_ ?_)
      · rintro a b (hab | ⟨j, hj, hab⟩)
        · exact hR k hself a b hab
        · exact hrely k hself j (hmem j hj) (hne j hj) a b hab
      · exact fun i hi j hj => hrely i (hmem i hi) j (hmem j hj)
      · rintro j hj a b (hab | hab)
        · exact hR j (hmem j hj) a b hab
        · exact hrely j (hmem j hj) k hself (hne j hj).symm a b hab
      · exact fun j hj => h j (hmem j hj)
    refine hpar.mono (fun _ _ h => h) ?_ (fun _ t ht => ?_) fun t ht => ?_
    · rintro a b (hab | ⟨j, hj, hab⟩)
      · exact ⟨k, hself, hab⟩
      · exact ⟨j, hmem j hj, hab⟩
    · exact List.forall_mem_cons.mpr ht
    · obtain ⟨hfirst, hothers, hthrown⟩ := ht
      refine ⟨List.forall_mem_cons.mpr ⟨hfirst, ?_⟩, ?_⟩
      · rcases hothers with hothers | hothers
        · exact fun j hj => .inl (hothers j hj)
        · exact hothers.1
      · rcases hthrown with hthrown | ⟨-, j, hj, hX⟩
        · exact ⟨k, hself, hthrown⟩
        · exact ⟨j, hmem j hj, hX⟩

/-- A call that runs alone ends as it ensures, and where its steps lead. -/
lemma Ensures.reach {c : Call σ ι ε α} (h : c.Ensures E R G Q X s) :
    c.wp E (fun _ _ => True) (fun a t => Q a t ∧ Relation.ReflTransGen G s t)
      (fun _ t => X t ∧ Relation.ReflTransGen G s t) s := by
  have hfrom : ∀ {s₀}, Relation.ReflTransGen G s₀ s → c.wp E (fun _ _ => True)
      (fun a t => Q a t ∧ Relation.ReflTransGen G s₀ t)
      (fun _ t => X t ∧ Relation.ReflTransGen G s₀ t) s := by
    induction c generalizing s with
    | pure a => exact fun h₀ => ⟨h s .refl, h₀⟩
    | throw e => exact fun h₀ => ⟨h s .refl, h₀⟩
    | act eff next ih =>
      intro s₀ h₀ i hi
      obtain ⟨hstep, hrest⟩ := h s .refl i hi
      exact ⟨trivial, ih i s hrest (h₀.tail hstep)⟩
  exact hfrom .refl

end Ensures

/-! ### Steps of branches and of pools -/

lemma Guar.par {turn : ι → Bool} {G₁ G₂ : σ → σ → Prop} {c d : Call σ ι ε Unit}
    (hc : c.Guar (fun a b => R a b ∨ G₂ a b) G₁ s)
    (hd : d.Guar (fun a b => R a b ∨ G₁ a b) G₂ s) :
    (par turn c d).Guar R (fun a b => G₁ a b ∨ G₂ a b) s := by
  rw [guar_iff] at hc hd ⊢
  exact (Ensures.par hc hd).mono (fun _ _ h => h) (fun _ _ h => h) (fun _ _ _ => trivial)
    fun _ _ => trivial

lemma Guar.all {turn : ℕ → ι → Bool} {ks : List κ} {c : κ → Call σ ι ε Unit}
    (Rely Gk : κ → σ → σ → Prop) (hks : ks.Nodup)
    (hrely : ∀ k ∈ ks, ∀ j ∈ ks, j ≠ k → ∀ a b, Gk j a b → Rely k a b)
    (hR : ∀ k ∈ ks, ∀ a b, R a b → Rely k a b)
    (h : ∀ k ∈ ks, (c k).Guar (Rely k) (Gk k) s) :
    (Call.all turn (ks.map c)).Guar R (fun a b => ∃ k ∈ ks, Gk k a b) s := by
  rw [guar_iff]
  exact (Ensures.all Rely Gk hks hrely hR fun k hk => guar_iff.mp (h k hk)).mono (fun _ _ h => h)
    (fun _ _ h => h) (fun _ _ _ => trivial) fun _ _ => trivial

/-- A call that guarantees its steps takes only such steps when it runs alone. -/
lemma Guar.wp {E : ι → Prop} {c : Call σ ι ε α} (h : c.Guar R G s) :
    c.wp E G (fun _ _ => True) (fun _ _ => True) s := by
  induction c generalizing s with
  | pure a => trivial
  | throw e => trivial
  | act eff next ih =>
    intro i _
    obtain ⟨hstep, hrest⟩ := h s .refl i
    exact ⟨hstep, ih i s hrest⟩

/-- On input `i` the call begins with the step from `s` to `t`. -/
def Starts (c : Call σ ι ε α) (i : ι) (s t : σ) : Prop :=
  match c with
  | .act eff _ => eff i s = t
  | _ => False

lemma starts_atomic {f : ι → σ → Except ε (α × σ)} {i : ι} {a : α} (h : f i s = .ok (a, t)) :
    (Call.atomic f).Starts i s t := by
  simp [Starts, atomic, h]

lemma Starts.wp {E : ι → Prop} {Q : α → σ → Prop} {X : ε → σ → Prop} {c : Call σ ι ε α} {i : ι}
    (h : c.Starts i s t) (hi : E i) (hw : c.wp E G Q X s) : G s t := by
  match c, h with
  | .act eff next, h => exact h ▸ (hw i hi).1

lemma Starts.par_left {turn : ι → Bool} {c d : Call σ ι ε Unit} {i : ι} (hi : turn i = true)
    (h : c.Starts i s t) : (par turn c d).Starts i s t := by
  match c, h with
  | .act eff next, h => cases d <;> simpa [par, parAct, Starts, hi] using h

lemma Starts.par_right {turn : ι → Bool} {c d : Call σ ι ε Unit} {i : ι} (hi : turn i = false)
    (h : d.Starts i s t) : (par turn c d).Starts i s t := by
  match d, h with
  | .act eff next, h => cases c <;> simpa [par, parAct, Starts, hi, Call.bind] using h

/-- An input that names branch `k` makes it the first one to step. -/
lemma Starts.all {turn : ℕ → ι → Bool} {cs : List (Call σ ι ε Unit)} {c : Call σ ι ε Unit}
    {k : ℕ} {i : ι} (hc : cs[k]? = some c) (hi : ∀ j, turn j i = decide (j = k))
    (h : c.Starts i s t) : (Call.all turn cs).Starts i s t := by
  induction cs generalizing turn k with
  | nil => simp at hc
  | cons d ds ih =>
    cases k with
    | zero =>
      obtain rfl : d = c := by simpa using hc
      exact Starts.par_left (by simp [hi]) h
    | succ k =>
      exact Starts.par_right (by simp [hi]) (ih (by simpa using hc) fun j => by simp [hi])

/-- Every step the call can take from a store in `I` leads to a store in `I`. -/
def Preserves (I : σ → Prop) : Call σ ι ε α → Prop
  | .pure _ => True
  | .throw _ => True
  | .act eff next => ∀ i s, I s → I (eff i s) ∧ (next i s).Preserves I

variable {I : σ → Prop}

/-- One step of a call that is still running. -/
def step : Call σ ι ε α → ι → σ → σ × Call σ ι ε α
  | .act eff next, i, s => (eff i s, next i s)
  | c, _, s => (s, c)

/-- Call `e.1` of the pool takes its next step, on input `e.2`. -/
def poolStep (x : σ × List (Call σ ι ε α)) (e : ℕ × ι) : σ × List (Call σ ι ε α) :=
  match x.2[e.1]? with
  | none => x
  | some c => ((c.step e.2 x.1).1, x.2.set e.1 (c.step e.2 x.1).2)

/-- The calls of a pool, interleaved step by step in the order `sched` says. -/
def interleave (s : σ) (cs : List (Call σ ι ε α)) (sched : List (ℕ × ι)) :
    σ × List (Call σ ι ε α) :=
  sched.foldl poolStep (s, cs)

lemma Preserves.step {c : Call σ ι ε α} (hc : c.Preserves I) (i : ι) (hs : I s) :
    I (c.step i s).1 ∧ (c.step i s).2.Preserves I := by
  cases c with
  | pure a => exact ⟨hs, trivial⟩
  | throw e => exact ⟨hs, trivial⟩
  | act eff next => exact hc i s hs

/-- **An invariant of every call is an invariant of every interleaving.** -/
theorem interleave_inv {cs : List (Call σ ι ε α)} (hcs : ∀ c ∈ cs, c.Preserves I) (hs : I s)
    (sched : List (ℕ × ι)) : I (interleave s cs sched).1 := by
  unfold interleave
  induction sched generalizing s cs with
  | nil => exact hs
  | cons e sched ih =>
    rw [List.foldl_cons]
    rcases hc : cs[e.1]? with _ | c
    · simpa only [poolStep, hc] using ih hcs hs
    · have hk := (hcs c (List.mem_of_getElem? hc)).step e.2 hs
      simp only [poolStep, hc]
      refine ih (fun d hd => ?_) hk.1
      rcases List.mem_or_eq_of_mem_set hd with hd | rfl
      · exact hcs d hd
      · exact hk.2

end Call

end TsaBackend
