import Mathlib.Algebra.BigOperators.Group.Finset.Piecewise
import TsaBackend.Pools

/-!
Ledgers kept by calls that run together: a value of the store to which each call adds at most once.

`Deposits` says what a call adds, in terms of all it has read so far, and when it may return
without; what the ledger shows after any interleaving is then the sum of what was deposited.
-/

namespace TsaBackend.Call

variable {σ ι ε α β M : Type} [AddCommMonoid M]

/-- The inputs and the stores of the steps that a call has taken, the last first. -/
abbrev Past (σ ι : Type) : Type := List (ι × σ)

/-- The step leaves the ledger. -/
def Keeps (val : σ → M) (s t : σ) : Prop := val t = val s

/-- From here on the call adds to the ledger in at most one step, an amount that fits its past;
where it returns without, `Q` holds. -/
def Deposits (val : σ → M) (amount : Past σ ι → M → Prop) (Q : α → Past σ ι → Prop) :
    Call σ ι ε α → Past σ ι → Prop
  | .pure a, past => Q a past
  | .throw _, _ => True
  | .act eff next, past => ∀ i s,
      Keeps val s (eff i s) ∧ Deposits val amount Q (next i s) ((i, s) :: past) ∨
      ∃ paid, amount ((i, s) :: past) paid ∧ val (eff i s) = val s + paid ∧
        (next i s).Steps (Keeps val)

/-- An amount that depends on the last step only. -/
def Now (amount : ι → σ → M → Prop) : Past σ ι → M → Prop
  | [], _ => False
  | (i, s) :: _, paid => amount i s paid

variable {val : σ → M} {amount : Past σ ι → M → Prop} {Q : α → Past σ ι → Prop}
  {past : Past σ ι}

omit [AddCommMonoid M] in
lemma keeps_refl (s : σ) : Keeps val s s := rfl

lemma deposits_throw (e : ε) : (MonadExcept.throw e : Call σ ι ε α).Deposits val amount Q past :=
  trivial

lemma Steps.deposits_after {c : Call σ ι ε α} (h : c.Steps (Keeps val))
    (hQ : ∀ a past', past <:+ past' → Q a past') : c.Deposits val amount Q past := by
  induction c generalizing past with
  | pure a => exact hQ a past List.suffix_rfl
  | throw e => trivial
  | act eff next ih =>
    intro i s
    obtain ⟨hstep, hrest⟩ := steps_act.mp h i s
    exact .inl ⟨hstep, ih i s hrest fun a past' hsuffix =>
      hQ a past' ((List.suffix_cons _ _).trans hsuffix)⟩

lemma Steps.deposits {c : Call σ ι ε α} (h : c.Steps (Keeps val)) (hQ : ∀ a past, Q a past) :
    c.Deposits val amount Q past := h.deposits_after fun a past' _ => hQ a past'

lemma Deposits.bind {c : Call σ ι ε α} {f : α → Call σ ι ε β} {Q' : β → Past σ ι → Prop}
    (h : c.Deposits val (fun _ _ => False) (fun a past => (f a).Deposits val amount Q' past) past) :
    (c >>= f).Deposits val amount Q' past := by
  induction c generalizing past with
  | pure a => exact h
  | throw e => trivial
  | act eff next ih =>
    intro i s
    rcases h i s with ⟨hstep, hrest⟩ | ⟨_, hfalse, -⟩
    · exact .inl ⟨hstep, ih i s hrest⟩
    · exact hfalse.elim

lemma Steps.deposits_bind {c : Call σ ι ε α} {f : α → Call σ ι ε β} {Q' : β → Past σ ι → Prop}
    (h : c.Steps (Keeps val)) (hf : ∀ a past, (f a).Deposits val amount Q' past) :
    (c >>= f).Deposits val amount Q' past :=
  Deposits.bind (h.deposits hf)

lemma Deposits.bind_steps {c : Call σ ι ε α} {f : α → Call σ ι ε β} {Q' : β → Past σ ι → Prop}
    (h : c.Deposits val amount Q past) (hf : ∀ a, (f a).Steps (Keeps val))
    (hQ : ∀ a past, Q a past → ∀ b past', Q' b past') : (c >>= f).Deposits val amount Q' past := by
  induction c generalizing past with
  | pure a => exact (hf a).deposits (hQ a past h)
  | throw e => trivial
  | act eff next ih =>
    intro i s
    rcases h i s with ⟨hstep, hrest⟩ | ⟨paid, hpaid, hval, hrest⟩
    · exact .inl ⟨hstep, ih i s hrest⟩
    · exact .inr ⟨paid, hpaid, hval, hrest.bind hf⟩

/-- An exception that is caught, after which nothing is deposited. -/
lemma Deposits.tryCatch {c : Call σ ι ε α} {h : ε → Call σ ι ε α}
    (hc : c.Deposits val amount Q past) (hh : ∀ e, (h e).Steps (Keeps val))
    (hQ : ∀ a past, Q a past) : (tryCatchThe ε c h).Deposits val amount Q past := by
  induction c generalizing past with
  | pure a => exact hc
  | throw e => exact (hh e).deposits hQ
  | act eff next ih =>
    intro i s
    rcases hc i s with ⟨hstep, hrest⟩ | ⟨paid, hpaid, hval, hrest⟩
    · exact .inl ⟨hstep, ih i s hrest⟩
    · exact .inr ⟨paid, hpaid, hval, hrest.tryCatch hh⟩

lemma deposits_throwIf {c : Prop} [Decidable c] {e : ε} {f : Unit → Call σ ι ε β}
    {Q' : β → Past σ ι → Prop} (h : ¬ c → (f ()).Deposits val amount Q' past) :
    (throwIf c e >>= f).Deposits val amount Q' past := by
  unfold throwIf
  split
  · exact deposits_throw e
  · next hc => exact h hc

lemma Deposits.when {c : Prop} [Decidable c] {x : Call σ ι ε Unit} {Q : Unit → Past σ ι → Prop}
    (hx : c → x.Deposits val amount Q past) (hQ : ¬ c → Q () past) :
    (when c x).Deposits val amount Q past := by
  unfold Call.when
  split
  · next hc => exact hx hc
  · next hc => exact hQ hc

lemma deposits_read {f : ι → σ → Except ε (α × σ)}
    (hok : ∀ i s a t, f i s = .ok (a, t) → Keeps val s t ∧ Q a ((i, s) :: past)) :
    (atomic f).Deposits val amount Q past := by
  intro i s
  rcases hf : f i s with e | ⟨a, t⟩
  · exact .inl ⟨by simp only [hf]; exact keeps_refl s, by simp only [hf]; trivial⟩
  · obtain ⟨hstep, hQ⟩ := hok i s a t hf
    exact .inl ⟨by simpa only [hf] using hstep, by simp only [hf]; exact hQ⟩

lemma deposits_read_bind {f : ι → σ → α} {g : α → Call σ ι ε β} {Q : β → Past σ ι → Prop}
    (h : ∀ i s, (g (f i s)).Deposits val amount Q ((i, s) :: past)) :
    (Call.read f >>= g).Deposits val amount Q past :=
  fun i s => .inl ⟨keeps_refl s, h i s⟩

lemma deposits_atomic {f : ι → σ → Except ε (α × σ)}
    (h : ∀ i s a t, f i s = .ok (a, t) →
      ∃ paid, amount ((i, s) :: past) paid ∧ val t = val s + paid) :
    (atomic f).Deposits val amount Q past := by
  intro i s
  rcases hf : f i s with e | ⟨a, t⟩
  · exact .inl ⟨by simp only [hf]; exact keeps_refl s, by simp only [hf]; trivial⟩
  · obtain ⟨paid, hpaid, hval⟩ := h i s a t hf
    exact .inr ⟨paid, hpaid, by simpa only [hf] using hval, by
      simp only [hf]; exact steps_pure a⟩

/-! ### Branches and sums -/

section Branches

variable {turn : ι → Bool} {c d : Call σ ι ε Unit} {amount : ι → σ → M → Prop} {P : Prop}

omit [AddCommMonoid M] in
lemma Deposits.forget [AddCommMonoid M] {c : Call σ ι ε α} {past' : Past σ ι}
    (h : c.Deposits val (Now amount) (fun _ _ => P) past) :
    c.Deposits val (Now amount) (fun _ _ => P) past' := by
  induction c generalizing past past' with
  | pure a => exact h
  | throw e => trivial
  | act eff next ih =>
    intro i s
    rcases h i s with ⟨hstep, hrest⟩ | hpaid
    · exact .inl ⟨hstep, ih i s hrest⟩
    · exact .inr hpaid

lemma Steps.par_deposits (hc : c.Steps (Keeps val))
    (hd : d.Deposits val (Now amount) (fun _ _ => P) past) :
    (Call.par turn c d).Deposits val (Now amount) (fun _ _ => P) past := by
  induction c generalizing d past with
  | pure a => exact hd
  | throw e => exact hd.bind_steps (fun _ => steps_throw e) fun _ _ h _ _ => h
  | act eff next ih =>
    change (parAct turn eff next (fun i s => Call.par turn (next i s)) d).Deposits val _ _ past
    induction d generalizing past with
    | pure a => exact hc.deposits fun _ _ => hd
    | throw e =>
      intro i s
      obtain ⟨hstep, hrest⟩ := steps_act.mp hc i s
      exact .inl ⟨hstep, ih i s hrest (deposits_throw e)⟩
    | act eff₂ next₂ ih₂ =>
      intro i s
      obtain ⟨hstep, hrest⟩ := steps_act.mp hc i s
      by_cases hturn : turn i = true
      · simp only [hturn, if_true]
        exact .inl ⟨hstep, ih i s hrest hd.forget⟩
      · simp only [hturn, Bool.false_eq_true, if_false]
        rcases hd i s with ⟨hstep₂, hrest₂⟩ | ⟨paid, hpaid, hval, hrest₂⟩
        · exact .inl ⟨hstep₂, ih₂ i s hrest₂⟩
        · exact .inr ⟨paid, hpaid, hval, Steps.par hc hrest₂⟩

lemma Deposits.par (hc : c.Deposits val (Now amount) (fun _ _ => P) past)
    (hd : d.Steps (Keeps val)) :
    (Call.par turn c d).Deposits val (Now amount) (fun _ _ => P) past := by
  induction c generalizing d past with
  | pure a => exact hd.deposits fun _ _ => hc
  | throw e => exact hd.deposits_bind fun _ _ => deposits_throw e
  | act eff next ih =>
    change (parAct turn eff next (fun i s => Call.par turn (next i s)) d).Deposits val _ _ past
    induction d generalizing past with
    | pure a => exact hc
    | throw e =>
      intro i s
      rcases hc i s with ⟨hstep, hrest⟩ | ⟨paid, hpaid, hval, hrest⟩
      · exact .inl ⟨hstep, ih i s hrest (steps_throw e)⟩
      · exact .inr ⟨paid, hpaid, hval, hrest.par (steps_throw e)⟩
    | act eff₂ next₂ ih₂ =>
      intro i s
      by_cases hturn : turn i = true
      · simp only [hturn, if_true]
        rcases hc i s with ⟨hstep, hrest⟩ | ⟨paid, hpaid, hval, hrest⟩
        · exact .inl ⟨hstep, ih i s hrest hd⟩
        · exact .inr ⟨paid, hpaid, hval, hrest.par hd⟩
      · simp only [hturn, Bool.false_eq_true, if_false]
        obtain ⟨hstep₂, hrest₂⟩ := steps_act.mp hd i s
        exact .inl ⟨hstep₂, ih₂ i s hc.forget hrest₂⟩

end Branches

lemma sum_change {φ : Type} {n j : ℕ} (f : φ → M) (shares : ℕ → φ) (share : φ) (hj : j < n) :
    ∑ k ∈ Finset.range n, f (Function.update shares j share k) + f (shares j) =
      ∑ k ∈ Finset.range n, f (shares k) + f share := by
  have hmem : j ∈ Finset.range n := Finset.mem_range.mpr hj
  have hcomp : (fun k => f (Function.update shares j share k)) =
      Function.update (fun k => f (shares k)) j (f share) := by
    funext k
    by_cases hk : k = j
    · rw [hk, Function.update_self, Function.update_self]
    · rw [Function.update_of_ne hk, Function.update_of_ne hk]
  rw [hcomp, Finset.sum_update_of_mem hmem, add_assoc, add_comm (f share)]
  congr 1
  rw [← Finset.sum_sdiff (Finset.singleton_subset_iff.mpr hmem), Finset.sum_singleton]

lemma sum_deposit {n j : ℕ} {paid : ℕ → M} {new : M} (hj : j < n) (hzero : paid j = 0) :
    ∑ k ∈ Finset.range n, Function.update paid j new k = ∑ k ∈ Finset.range n, paid k + new := by
  have hchange := sum_change (fun m : M => m) paid new hj
  rwa [hzero, add_zero] at hchange

/-! ### Pools -/

section Pools

variable (s : σ) (cs : List (Call σ ι ε α)) (sched : List (ℕ × ι))

/-- The steps that call `k` has taken before position `n`. -/
def pastOf (k : ℕ) : ℕ → Past σ ι
  | 0 => []
  | n + 1 =>
    match sched[n]? with
    | none => pastOf k n
    | some (j, i) =>
      if j = k ∧ (before s cs sched n).2[k]?.any running then
        (i, (before s cs sched n).1) :: pastOf k n
      else pastOf k n

/-- Where what call `k` has deposited comes from: it has deposited nothing, and where it has
returned without it was allowed to, or it had a turn at which it deposited. -/
def Accounted (amount : Past σ ι → M → Prop) (Q : α → Past σ ι → Prop) (k : ℕ) (paid : M) : Prop :=
  paid = 0 ∧ (∀ a, (interleave s cs sched).2[k]? = some (.pure a) →
      Q a (pastOf s cs sched k sched.length)) ∨
    ∃ n i, sched[n]? = some (k, i) ∧
      amount ((i, (before s cs sched n).1) :: pastOf s cs sched k n) paid

variable {s cs sched} {k n : ℕ} {i : ι}

lemma pastOf_succ {c : Call σ ι ε α} (hn : sched[n]? = some (k, i))
    (hc : (before s cs sched n).2[k]? = some c) (hrun : c.running = true) :
    pastOf s cs sched k (n + 1) = (i, (before s cs sched n).1) :: pastOf s cs sched k n := by
  rw [pastOf, hn]
  simp [hc, hrun]

lemma pastOf_other {e : ℕ × ι} (hn : sched[n]? = some e) (hk : e.1 ≠ k) :
    pastOf s cs sched k (n + 1) = pastOf s cs sched k n := by
  rw [pastOf, hn]
  simp [hk]

lemma pastOf_ended {e : ℕ × ι} (hn : sched[n]? = some e)
    (hend : ∀ c, (before s cs sched n).2[e.1]? = some c → c.running = false) :
    pastOf s cs sched k (n + 1) = pastOf s cs sched k n := by
  rw [pastOf, hn]
  by_cases hk : e.1 = k
  · subst hk
    rcases hc : (before s cs sched n).2[e.1]? with _ | c
    · simp
    · simp [hend c hc]
  · simp [hk]

lemma mem_pastOf {e : ι × σ} (h : e ∈ pastOf s cs sched k n) :
    ∃ m < n, sched[m]? = some (k, e.1) ∧ e.2 = (before s cs sched m).1 := by
  induction n with
  | zero => cases h
  | succ n ih =>
    have hearlier : e ∈ pastOf s cs sched k n →
        ∃ m < n + 1, sched[m]? = some (k, e.1) ∧ e.2 = (before s cs sched m).1 := by
      intro he
      obtain ⟨m, hm, hfound⟩ := ih he
      exact ⟨m, by omega, hfound⟩
    rw [pastOf] at h
    split at h
    · exact hearlier h
    · next j i hn =>
      split at h
      · next hk =>
        rcases List.mem_cons.mp h with rfl | h
        · obtain ⟨rfl, -⟩ := hk
          exact ⟨n, by omega, hn, rfl⟩
        · exact hearlier h
      · exact hearlier h

omit [AddCommMonoid M] in
lemma pastOf_cons {e : ι × σ} {past : Past σ ι} (h : pastOf s cs sched k n = e :: past) :
    ∃ m < n, sched[m]? = some (k, e.1) ∧ e.2 = (before s cs sched m).1 ∧
      pastOf s cs sched k m = past := by
  induction n with
  | zero => cases h
  | succ n ih =>
    have hearlier : pastOf s cs sched k n = e :: past → ∃ m < n + 1, sched[m]? = some (k, e.1) ∧
        e.2 = (before s cs sched m).1 ∧ pastOf s cs sched k m = past := by
      intro he
      obtain ⟨m, hm, hfound⟩ := ih he
      exact ⟨m, by omega, hfound⟩
    rw [pastOf] at h
    split at h
    · exact hearlier h
    · next j i hn =>
      split at h
      · next hk =>
        obtain ⟨rfl, -⟩ := hk
        cases h
        exact ⟨n, by omega, hn, rfl, rfl⟩
      · exact hearlier h

omit [AddCommMonoid M] in
lemma pastOf_suffix {m : ℕ} (h : m ≤ n) : pastOf s cs sched k m <:+ pastOf s cs sched k n := by
  induction n, h using Nat.le_induction with
  | base => exact List.suffix_rfl
  | succ n _ ih =>
    refine ih.trans ?_
    rw [pastOf]
    split
    · exact List.suffix_rfl
    · split
      · exact List.suffix_cons _ _
      · exact List.suffix_rfl

omit [AddCommMonoid M] in
lemma no_turn_of_pastOf {c : Call σ ι ε α} (hc : cs[k]? = some c) (hrun : c.running = true)
    (hnil : pastOf s cs sched k n = []) {j : ℕ} (hj : j < n) : sched[j]? ≠ some (k, i) := by
  intro hturn
  obtain ⟨m, hm, ⟨i', hi⟩, -, d, hd, hdrun⟩ := exists_first (s := s) hc hrun hturn
  have hsuffix : pastOf s cs sched k (m + 1) <:+ pastOf s cs sched k n :=
    pastOf_suffix (by omega)
  rw [pastOf_succ hi hd hdrun, hnil, List.suffix_nil] at hsuffix
  cases hsuffix

variable {amount : ℕ → Past σ ι → M → Prop} {Q : ℕ → α → Past σ ι → Prop} {paid : ℕ → M}

/-- What the calls have deposited before position `n`, and what they may still deposit. -/
structure Settled (val : σ → M) (amount : ℕ → Past σ ι → M → Prop) (Q : ℕ → α → Past σ ι → Prop)
    (s : σ) (cs : List (Call σ ι ε α)) (sched : List (ℕ × ι)) (n : ℕ) (paid : ℕ → M) : Prop where
  value : val (before s cs sched n).1 = val s + ∑ k ∈ Finset.range cs.length, paid k
  calls : ∀ k (c : Call σ ι ε α), (before s cs sched n).2[k]? = some c →
    paid k = 0 ∧ c.Deposits val (amount k) (Q k) (pastOf s cs sched k n) ∨
      c.Steps (Keeps val) ∧ ∃ m i, sched[m]? = some (k, i) ∧
        amount k ((i, (before s cs sched m).1) :: pastOf s cs sched k m) (paid k)

lemma Settled.turn {e : ℕ × ι} {eff : ι → σ → σ} {next : ι → σ → Call σ ι ε α} {new : M}
    (h : Settled val amount Q s cs sched n paid) (he : sched[n]? = some e)
    (hact : (before s cs sched n).2[e.1]? = some (.act eff next))
    (hvalue : val (eff e.2 (before s cs sched n).1) =
      val s + ∑ k ∈ Finset.range cs.length, Function.update paid e.1 new k)
    (hcall : new = 0 ∧ (next e.2 (before s cs sched n).1).Deposits val (amount e.1) (Q e.1)
        ((e.2, (before s cs sched n).1) :: pastOf s cs sched e.1 n) ∨
      (next e.2 (before s cs sched n).1).Steps (Keeps val) ∧ ∃ m i, sched[m]? = some (e.1, i) ∧
        amount e.1 ((i, (before s cs sched m).1) :: pastOf s cs sched e.1 m) new) :
    Settled val amount Q s cs sched (n + 1) (Function.update paid e.1 new) := by
  have hnext : before s cs sched (n + 1) = (eff e.2 (before s cs sched n).1,
      (before s cs sched n).2.set e.1 (next e.2 (before s cs sched n).1)) := by
    rw [before_succ he]
    simp only [poolStep, hact, step]
  refine ⟨?_, fun k c hc => ?_⟩
  · rw [hnext]
    exact hvalue
  rw [hnext] at hc
  by_cases hk : k = e.1
  · subst hk
    rw [getElem?_set_self hact, Option.some.injEq] at hc
    rw [← hc, Function.update_self, pastOf_succ he hact rfl]
    exact hcall
  · rw [getElem?_set_of_ne hk] at hc
    rw [Function.update_of_ne hk, pastOf_other he (Ne.symm hk)]
    exact h.calls k c hc

/-- One more turn: the ledger stays, or the call whose turn it is makes its deposit. -/
lemma Settled.step {e : ℕ × ι} (h : Settled val amount Q s cs sched n paid)
    (he : sched[n]? = some e) : ∃ paid, Settled val amount Q s cs sched (n + 1) paid := by
  obtain ⟨hlt, -⟩ := List.getElem?_eq_some_iff.mp he
  rcases poolStep_cases (before s cs sched n) e with ⟨hend, hstay⟩ | ⟨eff, next, hact, -⟩
  · have hnext : before s cs sched (n + 1) = before s cs sched n := (before_succ he).trans hstay
    refine ⟨paid, ?_, fun k c hc => ?_⟩
    · rw [hnext]
      exact h.value
    · rw [hnext] at hc
      rw [pastOf_ended he hend]
      exact h.calls k c hc
  have hj : e.1 < cs.length := by
    have hlen : (before s cs sched n).2.length = cs.length := before_calls hlt.le
    rw [← hlen]
    exact (List.getElem?_eq_some_iff.mp hact).1
  -- a step that keeps the ledger
  have hkept : Keeps val (before s cs sched n).1 (eff e.2 (before s cs sched n).1) →
      val (eff e.2 (before s cs sched n).1) =
        val s + ∑ k ∈ Finset.range cs.length, Function.update paid e.1 (paid e.1) k := by
    intro hkeeps
    rw [Function.update_eq_self]
    exact hkeeps.trans h.value
  rcases h.calls _ _ hact with ⟨hzero, hdeposits⟩ | ⟨hsteps, hdone⟩
  · rcases hdeposits e.2 (before s cs sched n).1 with ⟨hkeeps, hrest⟩ | ⟨new, hnew, hadd, hrest⟩
    · exact ⟨_, h.turn he hact (hkept hkeeps) (.inl ⟨hzero, hrest⟩)⟩
    · refine ⟨_, h.turn he hact ?_ (.inr ⟨hrest, n, e.2, he, hnew⟩)⟩
      rw [hadd, h.value, sum_deposit hj hzero, add_assoc]
  · obtain ⟨hkeeps, hrest⟩ := steps_act.mp hsteps e.2 (before s cs sched n).1
    exact ⟨_, h.turn he hact (hkept hkeeps) (.inr ⟨hrest, hdone⟩)⟩

/-- **What a ledger shows** after an interleaving: what it showed before, and one deposit of each
call that has made its own. -/
theorem deposits_run
    (h : ∀ k (c : Call σ ι ε α), cs[k]? = some c → c.Deposits val (amount k) (Q k) [])
    (sched : List (ℕ × ι)) :
    ∃ paid : ℕ → M,
      val (interleave s cs sched).1 = val s + ∑ k ∈ Finset.range cs.length, paid k ∧
        ∀ k < cs.length, Accounted s cs sched (amount k) (Q k) k (paid k) := by
  have hrun : ∀ n ≤ sched.length, ∃ paid, Settled val amount Q s cs sched n paid := by
    intro n
    induction n with
    | zero =>
      intro _
      refine ⟨fun _ => 0, ?_, fun k c hc => ?_⟩
      · simp [before_zero]
      · rw [before_zero] at hc
        exact .inl ⟨rfl, h k c hc⟩
    | succ n ih =>
      intro hn
      obtain ⟨paid, hsettled⟩ := ih (by omega)
      exact hsettled.step (List.getElem?_eq_getElem (by omega))
  obtain ⟨paid, hvalue, hcalls⟩ := hrun _ le_rfl
  rw [before_length] at hvalue hcalls
  refine ⟨paid, hvalue, fun k hk => ?_⟩
  rw [← interleave_length s cs sched] at hk
  rcases hcalls k _ (List.getElem?_eq_getElem hk) with ⟨hzero, hdeposits⟩ | ⟨-, hdone⟩
  · refine .inl ⟨hzero, fun a ha => ?_⟩
    rw [List.getElem?_eq_getElem hk, Option.some.injEq] at ha
    rw [ha] at hdeposits
    exact hdeposits
  · exact .inr hdone

/-- The calls of some requests, each with what it may deposit. -/
theorem deposits_map {ρ : Type} {call : ρ → Call σ ι ε α} {amount : ρ → Past σ ι → M → Prop}
    {Q : ρ → α → Past σ ι → Prop} {requests : List ρ}
    (h : ∀ r ∈ requests, (call r).Deposits val (amount r) (Q r) []) (sched : List (ℕ × ι)) :
    ∃ paid : ℕ → M,
      val (interleave s (requests.map call) sched).1 =
        val s + ∑ k ∈ Finset.range requests.length, paid k ∧
      ∀ k r, requests[k]? = some r →
        Accounted s (requests.map call) sched (amount r) (Q r) k (paid k) := by
  have hcalls : ∀ (k : ℕ) (c : Call σ ι ε α), (requests.map call)[k]? = some c →
      c.Deposits val ((requests[k]?).elim (fun _ _ => False) amount)
        ((requests[k]?).elim (fun _ _ => False) Q) [] := by
    intro k c hc
    obtain ⟨r, hr, rfl⟩ := Option.map_eq_some_iff.mp (List.getElem?_map ▸ hc)
    rw [hr]
    exact h r (List.mem_of_getElem? hr)
  obtain ⟨paid, hval, hpaid⟩ := deposits_run hcalls sched
  rw [List.length_map] at hval hpaid
  refine ⟨paid, hval, fun k r hr => ?_⟩
  have hk := hpaid k (List.getElem?_eq_some_iff.mp hr).1
  rwa [hr] at hk

omit [AddCommMonoid M] in
/-- **What a call that has returned has read**: a ledger to which nobody adds. -/
theorem returned_past {c : Call σ ι ε α} {a : α} {P : α → Past σ ι → Prop}
    (h : c.Deposits (fun _ => (0 : ℕ)) (fun _ _ => False) P []) (hk : cs[k]? = some c)
    (hreturned : (interleave s cs sched).2[k]? = some (.pure a)) :
    P a (pastOf s cs sched k sched.length) := by
  have hcalls : ∀ j (d : Call σ ι ε α), cs[j]? = some d → d.Deposits (fun _ => (0 : ℕ))
      (fun _ _ => False) (fun a past => j = k → P a past) [] := by
    intro j d hd
    by_cases hj : j = k
    · subst hj
      rw [hk, Option.some.injEq] at hd
      subst hd
      simpa using h
    · exact (steps_of_forall (fun _ _ => rfl) d).deposits fun _ _ hjk => absurd hjk hj
  obtain ⟨_, -, haccounts⟩ := deposits_run hcalls sched
  rcases haccounts k (List.getElem?_eq_some_iff.mp hk).1 with ⟨-, hread⟩ | ⟨_, _, _, hfalse⟩
  · exact hread a hreturned rfl
  · exact hfalse.elim

end Pools

end TsaBackend.Call
