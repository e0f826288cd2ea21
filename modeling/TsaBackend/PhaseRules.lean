import TsaBackend.Lens
import TsaBackend.Phases

/-!
More rules for calls that go through phases: on a part of a store, in two branches that are waited
for together, and among any other calls.

Along a schedule the phase of a call changes in its own turns only, so that what a turn finds it in
was entered at an earlier one.
-/

namespace TsaBackend.Call

variable {σ τ ι κ ε α φ ψ : Type}

section Rules

variable {J : φ → ι → σ → Prop} {δ : φ → σ → σ → φ → Prop} {Q : φ → α → Prop} {X : φ → ε → Prop}
  {p : φ} {c : Call σ ι ε α}

lemma Follows.zoom {L : Lens τ σ} {f : κ → ι} {J' : φ → κ → τ → Prop} {δ' : φ → τ → τ → φ → Prop}
    (h : c.Follows J δ Q X p) (hJ : ∀ p i t, J' p i t → J p (f i) (L.get t))
    (hδ : ∀ p t s q, δ p (L.get t) s q → δ' p t (L.set s t) q) :
    (c.zoom L f).Follows J' δ' Q X p := by
  induction c generalizing p with
  | pure a => exact h
  | throw e => exact h
  | act eff next ih =>
    intro i t ht
    obtain ⟨q, hstep, hrest⟩ := h (f i) (L.get t) (hJ p i t ht)
    exact ⟨q, hδ _ _ _ _ hstep, ih _ _ hrest⟩

lemma Follows.map {g : φ → ψ} {δ' : ψ → σ → σ → ψ → Prop} {Q' : ψ → α → Prop} {X' : ψ → ε → Prop}
    (h : c.Follows (fun _ _ _ => True) δ Q X p) (hδ : ∀ p s t q, δ p s t q → δ' (g p) s t (g q))
    (hQ : ∀ q a, Q q a → Q' (g q) a) (hX : ∀ q e, X q e → X' (g q) e) :
    c.Follows (fun _ _ _ => True) δ' Q' X' (g p) := by
  induction c generalizing p with
  | pure a => exact hQ p a h
  | throw e => exact hX p e h
  | act eff next ih =>
    intro i s _
    obtain ⟨q, hstep, hrest⟩ := h i s trivial
    exact ⟨g q, hδ _ _ _ _ hstep, ih i s hrest⟩

lemma Follows.tryCatch {h : ε → Call σ ι ε α}
    (hc : c.Follows J δ Q (fun q e => (h e).Follows J δ Q X q) p) :
    (MonadExcept.tryCatch c h).Follows J δ Q X p := by
  induction c generalizing p with
  | pure a => exact hc
  | throw e => exact hc
  | act eff next ih =>
    intro i s hs
    obtain ⟨q, hstep, hrest⟩ := hc i s hs
    exact ⟨q, hstep, ih i s hrest⟩

lemma Steps.zoom {L : Lens τ σ} {f : κ → ι} {G : σ → σ → Prop} {G' : τ → τ → Prop}
    (h : c.Steps G) (hG : ∀ s t, G (L.get t) s → G' t (L.set s t)) : (c.zoom L f).Steps G' := by
  induction c with
  | pure a => exact steps_pure a
  | throw e => exact steps_throw e
  | act eff next ih =>
    refine steps_act.mpr fun i t => ?_
    obtain ⟨hstep, hrest⟩ := steps_act.mp h (f i) (L.get t)
    exact ⟨hG _ _ hstep, ih _ _ hrest⟩

end Rules

section Branches

variable {turn : ι → Bool} {J : ι → σ → Prop} {δ₁ : φ → σ → σ → φ → Prop}
  {δ₂ : ψ → σ → σ → ψ → Prop} {Q₁ : φ → Unit → Prop} {Q₂ : ψ → Unit → Prop} {p : φ} {q : ψ}
  {c d : Call σ ι ε Unit}

/-- One of two branches takes a step. -/
def Either (δ₁ : φ → σ → σ → φ → Prop) (δ₂ : ψ → σ → σ → ψ → Prop) (p : φ × ψ) (s t : σ)
    (q : φ × ψ) : Prop :=
  δ₁ p.1 s t q.1 ∧ q.2 = p.2 ∨ q.1 = p.1 ∧ δ₂ p.2 s t q.2

/-- Both branches have returned. -/
def Both (Q₁ : φ → Unit → Prop) (Q₂ : ψ → Unit → Prop) (p : φ × ψ) (_ : Unit) : Prop :=
  Q₁ p.1 () ∧ Q₂ p.2 ()

lemma Follows.right (h : d.Follows (fun _ => J) δ₂ Q₂ (fun _ _ => True) q) (hp : Q₁ p ()) :
    d.Follows (fun _ => J) (Either δ₁ δ₂) (Both Q₁ Q₂) (fun _ _ => True) (p, q) := by
  induction d generalizing q with
  | pure a => exact ⟨hp, h⟩
  | throw e => trivial
  | act eff next ih =>
    intro i s hs
    obtain ⟨q', hstep, hrest⟩ := h i s hs
    exact ⟨(p, q'), .inr ⟨rfl, hstep⟩, ih i s hrest⟩

lemma Follows.left (h : c.Follows (fun _ => J) δ₁ Q₁ (fun _ _ => True) p) (hq : Q₂ q ()) :
    c.Follows (fun _ => J) (Either δ₁ δ₂) (Both Q₁ Q₂) (fun _ _ => True) (p, q) := by
  induction c generalizing p with
  | pure a => exact ⟨h, hq⟩
  | throw e => trivial
  | act eff next ih =>
    intro i s hs
    obtain ⟨p', hstep, hrest⟩ := h i s hs
    exact ⟨(p', q), .inl ⟨hstep, rfl⟩, ih i s hrest⟩

lemma Follows.doomed {e : ε} (h : c.Follows (fun _ => J) δ₁ Q₁ (fun _ _ => True) p) :
    (Call.par turn c (.throw e)).Follows (fun _ => J) (Either δ₁ δ₂) (Both Q₁ Q₂)
      (fun _ _ => True) (p, q) := by
  induction c generalizing p with
  | pure a => trivial
  | throw e => trivial
  | act eff next ih =>
    intro i s hs
    obtain ⟨p', hstep, hrest⟩ := h i s hs
    exact ⟨(p', q), .inl ⟨hstep, rfl⟩, ih i s hrest⟩

lemma Follows.doomed_left {e : ε} (h : d.Follows (fun _ => J) δ₂ Q₂ (fun _ _ => True) q) :
    (d >>= fun _ => (MonadExcept.throw e : Call σ ι ε Unit)).Follows (fun _ => J) (Either δ₁ δ₂)
      (Both Q₁ Q₂) (fun _ _ => True) (p, q) := by
  induction d generalizing q with
  | pure a => trivial
  | throw e => trivial
  | act eff next ih =>
    intro i s hs
    obtain ⟨q', hstep, hrest⟩ := h i s hs
    exact ⟨(p, q'), .inr ⟨rfl, hstep⟩, ih i s hrest⟩

/-- **Two branches, each through phases of its own**, their steps in any order. -/
theorem Follows.par (hc : c.Follows (fun _ => J) δ₁ Q₁ (fun _ _ => True) p)
    (hd : d.Follows (fun _ => J) δ₂ Q₂ (fun _ _ => True) q) :
    (Call.par turn c d).Follows (fun _ => J) (Either δ₁ δ₂) (Both Q₁ Q₂) (fun _ _ => True)
      (p, q) := by
  induction c generalizing d p q with
  | pure a => exact hd.right hc
  | throw e => exact hd.doomed_left
  | act eff next ih =>
    change (parAct turn eff next (fun i s => Call.par turn (next i s)) d).Follows _ _ _ _ _
    induction d generalizing q with
    | pure a => exact hc.left hd
    | throw e => exact Follows.doomed hc
    | act eff₂ next₂ ih₂ =>
      intro i s hs
      by_cases hi : turn i = true
      · obtain ⟨p', hstep, hrest⟩ := hc i s hs
        refine ⟨(p', q), .inl ⟨?_, rfl⟩, ?_⟩
        · simpa only [hi, if_true] using hstep
        · simp only [hi, if_true]
          exact ih i s hrest hd
      · rw [Bool.not_eq_true] at hi
        obtain ⟨q', hstep, hrest⟩ := hd i s hs
        refine ⟨(p, q'), .inr ⟨rfl, ?_⟩, ?_⟩
        · simpa only [hi, Bool.false_eq_true, if_false] using hstep
        · simp only [hi, Bool.false_eq_true, if_false]
          exact ih₂ i s hrest

end Branches

/-! ### One call among others -/

section Along

variable {δ : φ → σ → σ → φ → Prop} {Q : φ → α → Prop} {X : φ → ε → Prop} {p : φ}
  {c : Call σ ι ε α} {s : σ} {cs : List (Call σ ι ε α)} {sched : List (ℕ × ι)} {k n : ℕ}

/-- Call `k` has a turn at position `n`. -/
def Turn (sched : List (ℕ × ι)) (k n : ℕ) : Prop := ∃ i, sched[n]? = some (k, i)

/-- At position `n` call `k` moves to its next phase, or stays in its phase and does nothing. -/
def Moves (δ : φ → σ → σ → φ → Prop) (s : σ) (cs : List (Call σ ι ε α)) (sched : List (ℕ × ι))
    (k : ℕ) (ph : ℕ → φ) (n : ℕ) : Prop :=
  (∃ i, sched[n]? = some (k, i)) ∧
      δ (ph n) (before s cs sched n).1 (before s cs sched (n + 1)).1 (ph (n + 1)) ∨
    ph (n + 1) = ph n ∧
      ((∃ i, sched[n]? = some (k, i)) → before s cs sched (n + 1) = before s cs sched n)

/-- One position of a schedule: the call moves in a turn of its own, and is left alone otherwise. -/
lemma follows_next (hn : n < sched.length)
    (h : ∀ d : Call σ ι ε α, (before s cs sched n).2[k]? = some d →
      d.Follows (fun _ _ _ => True) δ Q X p) :
    ∃ q, (Turn sched k n ∧ δ p (before s cs sched n).1 (before s cs sched (n + 1)).1 q ∨
        q = p ∧ (Turn sched k n → before s cs sched (n + 1) = before s cs sched n)) ∧
      ∀ d : Call σ ι ε α, (before s cs sched (n + 1)).2[k]? = some d →
        d.Follows (fun _ _ _ => True) δ Q X q := by
  have hget : sched[n]? = some sched[n] := List.getElem?_eq_getElem hn
  rw [before_succ hget]
  by_cases hself : sched[n].1 = k
  · subst hself
    rcases poolStep_cases (before s cs sched n) sched[n] with ⟨-, hstay⟩ | ⟨eff, next, hact, hstep⟩
    · rw [hstay]
      exact ⟨p, .inr ⟨rfl, fun _ => rfl⟩, h⟩
    · obtain ⟨q, hmove, hrest⟩ := h _ hact sched[n].2 (before s cs sched n).1 trivial
      rw [hstep]
      refine ⟨q, .inl ⟨⟨sched[n].2, hget⟩, hmove⟩, fun d hd => ?_⟩
      rw [getElem?_set_self hact, Option.some.injEq] at hd
      rw [← hd]
      exact hrest
  · have hother : ¬ Turn sched k n := by
      rintro ⟨i, hi⟩
      rw [hget, Option.some.injEq] at hi
      exact hself (by rw [hi])
    refine ⟨p, .inr ⟨rfl, fun hturn => absurd hturn hother⟩, fun d hd => ?_⟩
    rw [poolStep_other (Ne.symm hself)] at hd
    exact h d hd

/-- **The phases of a call among others**, at each position of a schedule. -/
theorem Follows.along (h : c.Follows (fun _ _ _ => True) δ Q X p) (hk : cs[k]? = some c)
    (hn : n ≤ sched.length) : ∃ ph : ℕ → φ, ph 0 = p ∧ (∀ m < n, Moves δ s cs sched k ph m) ∧
      ∀ d : Call σ ι ε α, (before s cs sched n).2[k]? = some d →
        d.Follows (fun _ _ _ => True) δ Q X (ph n) := by
  induction n with
  | zero =>
    refine ⟨fun _ => p, rfl, fun m hm => absurd hm (Nat.not_lt_zero m), fun d hd => ?_⟩
    rw [before_zero, hk, Option.some.injEq] at hd
    rw [← hd]
    exact h
  | succ n ih =>
    obtain ⟨ph, hzero, hmoves, hcall⟩ := ih (by omega)
    obtain ⟨q, hmove, hrest⟩ := follows_next hn hcall
    -- the phases so far, with one more
    refine ⟨Function.update ph (n + 1) q, ?_, fun m hm => ?_, ?_⟩
    · rw [Function.update_of_ne (Nat.succ_ne_zero n).symm, hzero]
    · have hkept : Function.update ph (n + 1) q m = ph m := Function.update_of_ne (by omega) q ph
      rcases Nat.lt_succ_iff_lt_or_eq.mp hm with hm | rfl
      · have hkept' : Function.update ph (n + 1) q (m + 1) = ph (m + 1) :=
          Function.update_of_ne (by omega) q ph
        rw [Moves, hkept, hkept']
        exact hmoves m hm
      · rw [Moves, hkept, Function.update_self]
        exact hmove
    · rw [Function.update_self]
      exact hrest

lemma turn_of_change (hn : n < sched.length)
    (hchange : (before s cs sched (n + 1)).1 ≠ (before s cs sched n).1) :
    ∃ k < cs.length, Turn sched k n := by
  have hget : sched[n]? = some sched[n] := List.getElem?_eq_getElem hn
  refine ⟨sched[n].1, ?_, sched[n].2, hget⟩
  rcases poolStep_cases (before s cs sched n) sched[n] with ⟨-, hstay⟩ | ⟨_, _, hact, -⟩
  · rw [before_succ hget, hstay] at hchange
    exact absurd rfl hchange
  · obtain ⟨hlt, -⟩ := List.getElem?_eq_some_iff.mp hact
    rwa [before_calls hn.le] at hlt

lemma Moves.step {ph : ℕ → φ} (h : Moves δ s cs sched k ph n) (hturn : Turn sched k n)
    (hchange : (before s cs sched (n + 1)).1 ≠ (before s cs sched n).1) :
    δ (ph n) (before s cs sched n).1 (before s cs sched (n + 1)).1 (ph (n + 1)) := by
  rcases h with ⟨-, hstep⟩ | ⟨-, hstay⟩
  · exact hstep
  · exact absurd (congrArg Prod.fst (hstay hturn)) hchange

lemma entered {ph : ℕ → φ} {P : φ → Prop} (hmoves : ∀ m < n, Moves δ s cs sched k ph m)
    (h0 : ¬ P (ph 0)) (hn : P (ph n)) : ∃ m < n, (∃ i, sched[m]? = some (k, i)) ∧
      ¬ P (ph m) ∧ P (ph (m + 1)) ∧
        δ (ph m) (before s cs sched m).1 (before s cs sched (m + 1)).1 (ph (m + 1)) := by
  induction n with
  | zero => exact absurd hn h0
  | succ n ih =>
    by_cases hp : P (ph n)
    · obtain ⟨m, hm, hfound⟩ := ih (fun m hm => hmoves m (by omega)) hp
      exact ⟨m, by omega, hfound⟩
    · rcases hmoves n (by omega) with ⟨hturn, hstep⟩ | ⟨hstay, -⟩
      · exact ⟨n, by omega, hturn, hp, hn, hstep⟩
      · rw [hstay] at hn
        exact absurd hn hp

lemma earlier {ph : ℕ → φ} {P : φ → Prop} {m : ℕ} (hmoves : ∀ m < n, Moves δ s cs sched k ph m)
    (hback : ∀ p s t q, δ p s t q → P q → P p) (hn : P (ph n)) (hm : m ≤ n) : P (ph m) := by
  induction n, hm using Nat.le_induction with
  | base => exact hn
  | succ n hmn ih =>
    refine ih (fun m hm => hmoves m (by omega)) ?_
    rcases hmoves n (by omega) with ⟨-, hstep⟩ | ⟨hstay, -⟩
    · exact hback _ _ _ _ hstep hn
    · rwa [← hstay]

end Along

lemma last_change {β : Type} {f : ℕ → β} {b : β} {n : ℕ} (h0 : f 0 ≠ b) (hn : f n = b) :
    ∃ w < n, f w ≠ b ∧ ∀ l, w < l → l ≤ n → f l = b := by
  induction n with
  | zero => exact absurd hn h0
  | succ n ih =>
    by_cases hf : f n = b
    · obtain ⟨w, hw, hne, hsince⟩ := ih hf
      refine ⟨w, by omega, hne, fun l hl hln => ?_⟩
      rcases Nat.lt_succ_iff_lt_or_eq.mp (Nat.lt_succ_of_le hln) with hlt | rfl
      · exact hsince l hl (by omega)
      · exact hn
    · refine ⟨n, by omega, hf, fun l hl hln => ?_⟩
      obtain rfl : l = n + 1 := by omega
      exact hn

end TsaBackend.Call
