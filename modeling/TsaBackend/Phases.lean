import Mathlib.Data.List.Count
import Mathlib.Data.Nat.Find
import Mathlib.Order.Nat
import TsaBackend.Machine
import TsaBackend.Protocol

/-!
Calls of a pool as parties of a protocol, which are in a phase that changes with their steps.

`Follows` says how a call goes through its phases and how it can end in each; a schedule says
which call steps at which position.
-/

namespace TsaBackend.Call

variable {σ ι ε α β φ : Type} {G G' : σ → σ → Prop}

/-- From phase `p` on, each step of the call, on an input and a store that `J` allows in its
phase, moves it to a next phase by `δ`; a return fits `Q` and a throw fits `X` in the phase they
happen in. -/
def Follows (J : φ → ι → σ → Prop) (δ : φ → σ → σ → φ → Prop) (Q : φ → α → Prop)
    (X : φ → ε → Prop) : Call σ ι ε α → φ → Prop
  | .pure a, p => Q p a
  | .throw e, p => X p e
  | .act eff next, p => ∀ i s, J p i s → ∃ q, δ p s (eff i s) q ∧ (next i s).Follows J δ Q X q

variable {J : φ → ι → σ → Prop} {δ : φ → σ → σ → φ → Prop} {Q : φ → α → Prop} {X : φ → ε → Prop}
  {p : φ}

lemma Follows.mono {J' : φ → ι → σ → Prop} {δ' : φ → σ → σ → φ → Prop} {Q' : φ → α → Prop}
    {X' : φ → ε → Prop} {c : Call σ ι ε α} (h : c.Follows J δ Q X p)
    (hJ : ∀ p i s, J' p i s → J p i s) (hδ : ∀ p s t q, δ p s t q → δ' p s t q)
    (hQ : ∀ q a, Q q a → Q' q a) (hX : ∀ q e, X q e → X' q e) : c.Follows J' δ' Q' X' p := by
  induction c generalizing p with
  | pure a => exact hQ p a h
  | throw e => exact hX p e h
  | act eff next ih =>
    intro i s hs
    obtain ⟨q, hstep, hrest⟩ := h i s (hJ p i s hs)
    exact ⟨q, hδ _ _ _ _ hstep, ih i s hrest⟩

lemma Follows.bind {c : Call σ ι ε α} {f : α → Call σ ι ε β} {Q : φ → β → Prop}
    (h : c.Follows J δ (fun q a => (f a).Follows J δ Q X q) X p) :
    (c >>= f).Follows J δ Q X p := by
  induction c generalizing p with
  | pure a => exact h
  | throw e => exact h
  | act eff next ih =>
    intro i s hs
    obtain ⟨q, hstep, hrest⟩ := h i s hs
    exact ⟨q, hstep, ih i s hrest⟩

lemma Steps.follows {c : Call σ ι ε α} (h : c.Steps fun s t => δ p s t p) (hQ : ∀ a, Q p a)
    (hX : ∀ e, X p e) : c.Follows J δ Q X p := by
  induction c with
  | pure a => exact hQ a
  | throw e => exact hX e
  | act eff next ih =>
    intro i s _
    obtain ⟨hstep, hrest⟩ := steps_act.mp h i s
    exact ⟨p, hstep, ih i s hrest⟩

lemma Steps.follows_bind {c : Call σ ι ε α} {f : α → Call σ ι ε β} {Q : φ → β → Prop}
    (h : c.Steps fun s t => δ p s t p) (hX : ∀ e, X p e)
    (hf : ∀ a, (f a).Follows J δ Q X p) : (c >>= f).Follows J δ Q X p :=
  Follows.bind (h.follows hf hX)

lemma follows_throwIf {c : Prop} [Decidable c] {e : ε} {f : Unit → Call σ ι ε β}
    {Q : φ → β → Prop} (hX : c → X p e) (hf : ¬ c → (f ()).Follows J δ Q X p) :
    (throwIf c e >>= f).Follows J δ Q X p := by
  refine Follows.bind ?_
  unfold throwIf
  split
  · next h => exact hX h
  · next h => exact hf h

lemma follows_read {f : ι → σ → α} {g : α → Call σ ι ε β} {Q : φ → β → Prop}
    (h : ∀ i s, J p i s → ∃ q, δ p s s q ∧ (g (f i s)).Follows J δ Q X q) :
    (read f >>= g).Follows J δ Q X p := h

lemma follows_atomic {f : ι → σ → Except ε (α × σ)}
    (hok : ∀ i s a t, J p i s → f i s = .ok (a, t) → ∃ q, δ p s t q ∧ Q q a)
    (herr : ∀ i s e, J p i s → f i s = .error e → ∃ q, δ p s s q ∧ X q e) :
    (atomic f).Follows J δ Q X p := by
  intro i s hs
  rcases hf : f i s with e | ⟨a, t⟩
  · simp only [hf]
    exact herr i s e hs hf
  · simp only [hf]
    exact hok i s a t hs hf

/-- The calls of a pool are in the phases `ph`. -/
def Phases (J : φ → ι → σ → Prop) (δ : ℕ → φ → σ → σ → φ → Prop) (Q : ℕ → φ → α → Prop)
    (X : ℕ → φ → ε → Prop) (cs : List (Call σ ι ε α)) (ph : ℕ → φ) : Prop :=
  ∀ k (c : Call σ ι ε α), cs[k]? = some c → c.Follows J (δ k) (Q k) (X k) (ph k)

/-- **A step of a pool moves one call to its next phase.** -/
theorem Phases.step {δ : ℕ → φ → σ → σ → φ → Prop} {Q : ℕ → φ → α → Prop} {X : ℕ → φ → ε → Prop}
    {ph : ℕ → φ} (h : Phases J δ Q X x.2 ph) {e : ℕ × ι}
    (hs : (∃ c, x.2[e.1]? = some c ∧ c.running = true) → J (ph e.1) e.2 x.1) :
    (∀ c, x.2[e.1]? = some c → c.running = false) ∧ poolStep x e = x ∨
      (∃ c, x.2[e.1]? = some c ∧ c.running = true) ∧ ∃ q, δ e.1 (ph e.1) x.1 (poolStep x e).1 q ∧
        Phases J δ Q X (poolStep x e).2 (Function.update ph e.1 q) := by
  rcases poolStep_cases x e with hstay | ⟨eff, next, hact, hstep⟩
  · exact .inl hstay
  obtain ⟨q, hq, hrest⟩ := h _ _ hact e.2 x.1 (hs ⟨_, hact, rfl⟩)
  rw [hstep]
  refine .inr ⟨⟨_, hact, rfl⟩, q, hq, fun k c hc => ?_⟩
  by_cases hk : k = e.1
  · subst hk
    rw [getElem?_set_self hact, Option.some.injEq] at hc
    rw [Function.update_self, ← hc]
    exact hrest
  · rw [getElem?_set_of_ne hk] at hc
    rw [Function.update_of_ne hk]
    exact h k c hc

/-! ### Phases along a schedule -/

section Schedules

lemma position_unique {γ : Type} {l : List β} {f : β → γ} {j k : ℕ} {a b : β}
    (h : (l.map f).Nodup) (ha : l[j]? = some a) (hb : l[k]? = some b) (hab : f a = f b) :
    j = k := by
  have hlt : j < (l.map f).length := by
    rw [List.length_map]
    exact (List.getElem?_eq_some_iff.mp ha).1
  refine (List.getElem?_inj hlt h).mp ?_
  rw [List.getElem?_map, List.getElem?_map, ha, hb, Option.map_some, Option.map_some, hab]

variable (s : σ) (cs : List (Call σ ι ε α)) (sched : List (ℕ × ι))

/-- The store and the calls before position `n` of the schedule. -/
def before (n : ℕ) : σ × List (Call σ ι ε α) := interleave s cs (sched.take n)

/-- How many turns call `k` has before position `n`. -/
def turnsOf (k n : ℕ) : ℕ := (sched.take n).countP fun e => e.1 = k

/-- Call `k` takes its step number `j`, from `0`, at position `n`. -/
def Takes (k j n : ℕ) : Prop :=
  (∃ i, sched[n]? = some (k, i)) ∧ turnsOf sched k n = j ∧
    ∃ c, (before s cs sched n).2[k]? = some c ∧ c.running = true

/-- Call `k` returns at position `n`. -/
def Finishes (k n : ℕ) : Prop :=
  (∃ i, sched[n]? = some (k, i)) ∧ ¬ Returned (before s cs sched n) k ∧
    Returned (before s cs sched (n + 1)) k

variable {s cs sched} {k m n : ℕ}

lemma before_zero : before s cs sched 0 = (s, cs) := by
  rw [before, List.take_zero]
  rfl

lemma before_succ {e : ℕ × ι} (h : sched[n]? = some e) :
    before s cs sched (n + 1) = poolStep (before s cs sched n) e := by
  rw [before, interleave, List.take_add_one, h, Option.toList_some, List.foldl_append]
  rfl

lemma before_take (h : m ≤ n) : before s cs (sched.take n) m = before s cs sched m := by
  rw [before, before, List.take_take, min_eq_left h]

lemma before_length : before s cs sched sched.length = interleave s cs sched := by
  rw [before, List.take_length]

/-- **The invariant rule for positions.** -/
theorem before_inv (Inv : ℕ → σ × List (Call σ ι ε α) → Prop) (h0 : Inv 0 (s, cs))
    (hstep : ∀ n e, sched[n]? = some e → Inv n (before s cs sched n) →
      Inv (n + 1) (poolStep (before s cs sched n) e)) :
    ∀ n ≤ sched.length, Inv n (before s cs sched n) := by
  intro n
  induction n with
  | zero =>
    intro _
    rw [before_zero]
    exact h0
  | succ n ih =>
    intro hn
    have hget : sched[n]? = some sched[n] := List.getElem?_eq_getElem (by omega)
    rw [before_succ hget]
    exact hstep n _ hget (ih (by omega))

lemma before_calls (hn : n ≤ sched.length) : (before s cs sched n).2.length = cs.length :=
  before_inv (fun _ x => x.2.length = cs.length) rfl (fun _ _ _ h => poolStep_length.trans h) n hn

lemma before_ended {c : Call σ ι ε α} (hc : (before s cs sched m).2[k]? = some c)
    (hend : c.running = false) (h : m ≤ n) (hn : n ≤ sched.length) :
    (before s cs sched n).2[k]? = some c := by
  induction n, h using Nat.le_induction with
  | base => exact hc
  | succ n hmn ih =>
    have hget : sched[n]? = some sched[n] := List.getElem?_eq_getElem (by omega)
    rw [before_succ hget]
    exact poolStep_ended (ih (by omega)) hend

lemma returned_mono (hm : Returned (before s cs sched m) k) (h : m ≤ n)
    (hn : n ≤ sched.length) : Returned (before s cs sched n) k := by
  obtain ⟨a, ha⟩ := returned_iff.mp hm
  exact returned_iff.mpr ⟨a, before_ended ha rfl h hn⟩

lemma Finishes.lt (h : Finishes s cs sched k n) : n < sched.length := by
  obtain ⟨⟨i, hi⟩, -⟩ := h
  exact (List.getElem?_eq_some_iff.mp hi).1

lemma Finishes.unique (hm : Finishes s cs sched k m) (hn : Finishes s cs sched k n) : m = n := by
  rcases Nat.lt_trichotomy m n with h | h | h
  · exact absurd (returned_mono hm.2.2 h hn.lt.le) hn.2.1
  · exact h
  · exact absurd (returned_mono hn.2.2 h hm.lt.le) hm.2.1

lemma turnsOf_succ {e : ℕ × ι} (h : sched[n]? = some e) :
    turnsOf sched k (n + 1) = turnsOf sched k n + if e.1 = k then 1 else 0 := by
  rw [turnsOf, turnsOf, List.take_add_one, h, Option.toList_some, List.countP_append]
  simp [List.countP_cons]

lemma turnsOf_mono (h : m ≤ n) : turnsOf sched k m ≤ turnsOf sched k n := by
  have hsub : (sched.take m).Sublist (sched.take n) := by
    rw [← Nat.min_eq_left h, ← List.take_take]
    exact List.take_sublist _ _
  exact hsub.countP_le

lemma turnsOf_lt {i : ι} (hm : sched[m]? = some (k, i)) (h : m < n) :
    turnsOf sched k m < turnsOf sched k n :=
  calc turnsOf sched k m < turnsOf sched k (m + 1) := by rw [turnsOf_succ hm, if_pos rfl]; omega
    _ ≤ turnsOf sched k n := turnsOf_mono h

lemma Takes.unique {j : ℕ} (hm : Takes s cs sched k j m) (hn : Takes s cs sched k j n) :
    m = n := by
  obtain ⟨⟨_, hm⟩, hmj, -⟩ := hm
  obtain ⟨⟨_, hn⟩, hnj, -⟩ := hn
  rcases Nat.lt_trichotomy m n with h | h | h
  · have := turnsOf_lt hm h
    omega
  · exact h
  · have := turnsOf_lt hn h
    omega

lemma before_untouched (hn : n ≤ sched.length) (h : turnsOf sched k n = 0) :
    (before s cs sched n).2[k]? = cs[k]? := by
  induction n with
  | zero => rw [before_zero]
  | succ n ih =>
    have hget : sched[n]? = some sched[n] := List.getElem?_eq_getElem (by omega)
    rw [turnsOf_succ hget] at h
    have hne : k ≠ sched[n].1 := by
      rintro rfl
      simp at h
    rw [before_succ hget, poolStep_other hne]
    exact ih (by omega) (by omega)

lemma exists_first {c : Call σ ι ε α} {i : ι} (hc : cs[k]? = some c) (hrun : c.running = true)
    (hn : sched[n]? = some (k, i)) : ∃ m ≤ n, Takes s cs sched k 0 m := by
  classical
  have hex : ∃ m, ∃ i, sched[m]? = some (k, i) := ⟨n, i, hn⟩
  have hmin : Nat.find hex ≤ n := Nat.find_min' hex ⟨i, hn⟩
  have hlen : Nat.find hex ≤ sched.length := by
    obtain ⟨hlt, -⟩ := List.getElem?_eq_some_iff.mp hn
    omega
  have hzero : turnsOf sched k (Nat.find hex) = 0 := by
    rw [turnsOf, List.countP_eq_zero]
    rintro ⟨j, i'⟩ he
    obtain ⟨m, hm⟩ := List.mem_iff_getElem?.mp he
    rw [List.getElem?_take] at hm
    split at hm
    · next hlt =>
      simp only [decide_eq_true_eq]
      rintro rfl
      exact Nat.find_min hex hlt ⟨i', hm⟩
    · cases hm
  refine ⟨Nat.find hex, hmin, Nat.find_spec hex, hzero, c, ?_, hrun⟩
  rw [before_untouched hlen hzero, hc]

lemma Finishes.takes_first (hcs : ∀ c ∈ cs, c.returned = false) (h : Finishes s cs sched k n) :
    ∃ m ≤ n, Takes s cs sched k 0 m := by
  obtain ⟨i, hi⟩ := h.1
  obtain ⟨a, ha⟩ := returned_iff.mp h.2.2
  have hk : k < cs.length := by
    have hlen : (before s cs sched (n + 1)).2.length = cs.length := before_calls h.lt
    rw [← hlen]
    exact (List.getElem?_eq_some_iff.mp ha).1
  have hc : cs[k]? = some cs[k] := List.getElem?_eq_getElem hk
  have hrun : cs[k].running = true := by
    by_contra hrun
    -- a call that has thrown does not return
    have hstart : (before s cs sched 0).2[k]? = some cs[k] := by rw [before_zero, hc]
    have hend := before_ended hstart (Bool.not_eq_true _ ▸ hrun) (Nat.zero_le (n + 1)) h.lt
    have hreturned := h.2.2
    rw [Returned, hend, Option.any_some, hcs _ (List.getElem_mem hk)] at hreturned
    cases hreturned
  exact exists_first hc hrun hi

end Schedules

/-- A step that counts itself. -/
def Counted (δ : ℕ → φ → σ → σ → φ → Prop) (p : ℕ × φ) (s t : σ) (q : ℕ × φ) : Prop :=
  q.1 = p.1 + 1 ∧ δ p.1 p.2 s t q.2

/-- Before position `n` the calls are in the phases `ph`, and those that run have counted their
steps. -/
structure Timed (J : ℕ × φ → ι → σ → Prop) (δ : ℕ → ℕ → φ → σ → σ → φ → Prop)
    (Q : ℕ → ℕ × φ → α → Prop) (X : ℕ → ℕ × φ → ε → Prop) (s : σ) (cs : List (Call σ ι ε α))
    (sched : List (ℕ × ι)) (ph : ℕ → ℕ × φ) (n : ℕ) : Prop where
  phases : Phases J (fun k => Counted (δ k)) Q X (before s cs sched n).2 ph
  turns : ∀ k c, (before s cs sched n).2[k]? = some c → c.running = true →
    (ph k).1 = turnsOf sched k n

section Timed

variable {J : ℕ × φ → ι → σ → Prop} {δ : ℕ → ℕ → φ → σ → σ → φ → Prop}
  {Q : ℕ → ℕ × φ → α → Prop} {X : ℕ → ℕ × φ → ε → Prop} {s : σ} {cs : List (Call σ ι ε α)}
  {sched : List (ℕ × ι)} {ph : ℕ → ℕ × φ} {n : ℕ}

lemma timed_zero {p : φ} (h : ∀ k (c : Call σ ι ε α), cs[k]? = some c →
    c.Follows J (Counted (δ k)) (Q k) (X k) (0, p)) :
    Timed J δ Q X s cs sched (fun _ => (0, p)) 0 where
  phases := by
    rw [before_zero]
    exact h
  turns k c _ _ := by
    rw [turnsOf, List.take_zero, List.countP_nil]

/-- **A position of the schedule**: no call takes a step, or a call takes the step whose number it
has counted. -/
theorem Timed.step {e : ℕ × ι} (h : Timed J δ Q X s cs sched ph n) (he : sched[n]? = some e)
    (hJ : Takes s cs sched e.1 (ph e.1).1 n → J (ph e.1) e.2 (before s cs sched n).1) :
    (∀ k j, ¬ Takes s cs sched k j n) ∧ before s cs sched (n + 1) = before s cs sched n ∧
        Timed J δ Q X s cs sched ph (n + 1) ∨
      Takes s cs sched e.1 (ph e.1).1 n ∧ ∃ q, δ e.1 (ph e.1).1 (ph e.1).2
        (before s cs sched n).1 (before s cs sched (n + 1)).1 q ∧
          Timed J δ Q X s cs sched (Function.update ph e.1 ((ph e.1).1 + 1, q)) (n + 1) := by
  have hnext : before s cs sched (n + 1) = poolStep (before s cs sched n) e := before_succ he
  have htakes : (∃ c, (before s cs sched n).2[e.1]? = some c ∧ c.running = true) →
      Takes s cs sched e.1 (ph e.1).1 n := by
    rintro ⟨c, hc, hrun⟩
    exact ⟨⟨e.2, he⟩, (h.turns _ c hc hrun).symm, c, hc, hrun⟩
  have hother : ∀ k, k ≠ e.1 → ∀ c, (before s cs sched (n + 1)).2[k]? = some c →
      c.running = true → (ph k).1 = turnsOf sched k (n + 1) := by
    intro k hk c hc hrun
    rw [hnext, poolStep_other hk] at hc
    rw [turnsOf_succ he, if_neg (Ne.symm hk), Nat.add_zero]
    exact h.turns k c hc hrun
  rcases h.phases.step fun hrun => hJ (htakes hrun) with ⟨hended, hstay⟩ | ⟨hrun, ⟨m, q⟩, hq, hph⟩
  · rw [← hnext] at hstay
    have hnone : ∀ k j, ¬ Takes s cs sched k j n := by
      rintro k j ⟨⟨i, hi⟩, -, c, hc, hrun⟩
      rw [he, Option.some.injEq] at hi
      subst hi
      rw [hended c hc] at hrun
      cases hrun
    refine .inl ⟨hnone, hstay, by rw [hstay]; exact h.phases, fun k c hc hrun => ?_⟩
    by_cases hk : k = e.1
    · subst hk
      rw [hstay] at hc
      rw [hended c hc] at hrun
      cases hrun
    · exact hother k hk c hc hrun
  · obtain ⟨hm, hq⟩ := hq
    dsimp only at hm hq
    subst hm
    refine .inr ⟨htakes hrun, q, by rw [hnext]; exact hq, by rw [hnext]; exact hph,
      fun k c hc hrunk => ?_⟩
    by_cases hk : k = e.1
    · subst hk
      obtain ⟨-, hcount, -⟩ := htakes hrun
      rw [Function.update_self, turnsOf_succ he, if_pos rfl, hcount]
    · rw [Function.update_of_ne hk]
      exact hother k hk c hc hrunk

end Timed

end TsaBackend.Call
