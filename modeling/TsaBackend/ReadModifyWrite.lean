import Mathlib.Algebra.BigOperators.Group.Finset.Piecewise
import Mathlib.Algebra.Order.Group.Defs
import Mathlib.Data.Fintype.Basic
import Mathlib.Tactic.Abel

/-!
Transactions that read a balance, subtract an amount outside the store and write the result.

A write keeps others from writing the same balance until it is committed, but not from
having read it before. When every write finds the value that was read, each balance drops
by the sum of the amounts; when amounts are positive, a single write that finds another
value leaves a balance too high for good.
-/

namespace TsaBackend.ReadModifyWrite

variable {K I α : Type}

/-- Where a transaction is, with the value it has read. -/
inductive Stage (α : Type)
  | idle
  | read (v : α)
  | wrote (v : α)
  | done

namespace Stage

/-- The value a transaction has read and not yet committed a result of. -/
def seen : Stage α → Option α
  | .read v | .wrote v => some v
  | _ => none

def isDone : Stage α → Bool
  | .done => true
  | _ => false

end Stage

/-- The committed balances and the running transactions. -/
structure State (K I α : Type) where
  balance : K → α
  stage : I → Stage α

variable [DecidableEq K] [DecidableEq I] [Fintype I] [AddCommGroup α]
  (key : I → K) (amount : I → α)

/-- A step of transaction `i`; a write waits while another result for the same balance is
not committed. -/
inductive Move (i : I) (a : State K I α) : State K I α → Prop
  | stay : Move i a a
  | read (h : a.stage i = .idle) :
    Move i a ⟨a.balance, Function.update a.stage i (.read (a.balance (key i)))⟩
  | write {v : α} (h : a.stage i = .read v) (hfree : ∀ j w, a.stage j = .wrote w → key j ≠ key i) :
    Move i a ⟨a.balance, Function.update a.stage i (.wrote v)⟩
  | commit {v : α} (h : a.stage i = .wrote v) :
    Move i a ⟨Function.update a.balance (key i) (v - amount i), Function.update a.stage i .done⟩

/-- If the step writes, the balance is the one that was read. -/
def Fresh (i : I) (a a' : State K I α) : Prop :=
  ∀ v, a.stage i = .read v → a'.stage i = .wrote v → a.balance (key i) = v

/-- What the committed transactions have taken from a balance. -/
def taken (stage : I → Stage α) (k : K) : α :=
  ∑ j, if (stage j).isDone = true ∧ key j = k then amount j else 0

/-- The balance that the committed transactions should have left. -/
def ideal (b₀ : K → α) (stage : I → Stage α) (k : K) : α := b₀ k - taken key amount stage k

variable {key amount} {b₀ : K → α} {stage : I → Stage α} {i : I} {k : K} {a a' : State K I α}

lemma ideal_update {g : Stage α} (h : g.isDone = (stage i).isDone) :
    ideal key amount b₀ (Function.update stage i g) = ideal key amount b₀ stage := by
  have hdone : ∀ j, (Function.update stage i g j).isDone = (stage j).isDone := by
    intro j
    rcases eq_or_ne j i with rfl | hj
    · simpa using h
    · simp [hj]
  funext k
  simp only [ideal, taken, hdone]

lemma ideal_done (h : (stage i).isDone = false) :
    ideal key amount b₀ (Function.update stage i .done) k =
      ideal key amount b₀ stage k - if key i = k then amount i else 0 := by
  have htaken : taken key amount (Function.update stage i .done) k =
      taken key amount stage k + if key i = k then amount i else 0 := by
    have hi : (if key i = k then amount i else 0) =
        ∑ j, if j = i then (if key i = k then amount i else 0) else 0 := by
      rw [Finset.sum_ite_eq' Finset.univ i, if_pos (Finset.mem_univ i)]
    rw [taken, taken, hi, ← Finset.sum_add_distrib]
    refine Finset.sum_congr rfl fun j _ => ?_
    rcases eq_or_ne j i with rfl | hj
    · have hend : (Stage.done : Stage α).isDone = true := rfl
      simp [h, hend]
    · simp [hj]
  rw [ideal, ideal, htaken]
  abel

omit [DecidableEq I] in
lemma ideal_end (h : ∀ i, stage i = .done) :
    ideal key amount b₀ stage k = b₀ k - ∑ i with key i = k, amount i := by
  simp [ideal, taken, h, Stage.isDone, Finset.sum_filter]

variable (key amount b₀) in
/-- Nothing is lost so far, and a written result was computed from the committed balance. -/
structure Exact (a : State K I α) : Prop where
  balance : ∀ k, a.balance k = ideal key amount b₀ a.stage k
  wrote : ∀ i v, a.stage i = .wrote v → a.balance (key i) = v
  exclusive : ∀ i j v w, a.stage i = .wrote v → a.stage j = .wrote w → key i = key j → i = j

omit [DecidableEq I] in
lemma exact_start (h : ∀ i, a.stage i = .idle) : Exact key amount a.balance a where
  balance k := by simp [ideal, taken, h, Stage.isDone]
  wrote i v hv := by simp [h] at hv
  exclusive i j v w hv := by simp [h] at hv

lemma Exact.read (h : Exact key amount b₀ a) (hi : a.stage i = .idle) :
    Exact key amount b₀
      ⟨a.balance, Function.update a.stage i (.read (a.balance (key i)))⟩ := by
  have hold : ∀ j v, Function.update a.stage i (.read (a.balance (key i))) j = .wrote v →
      a.stage j = .wrote v := by
    intro j v hj
    rcases eq_or_ne j i with rfl | hji
    · simp at hj
    · simpa [hji] using hj
  refine ⟨fun k => ?_, fun j v hj => h.wrote j v (hold j v hj),
    fun j l v w hj hl => h.exclusive j l v w (hold j v hj) (hold l w hl)⟩
  rw [ideal_update (by simp [hi, Stage.isDone])]
  exact h.balance k

lemma Exact.write {v : α} (h : Exact key amount b₀ a) (hi : a.stage i = .read v)
    (hfree : ∀ j w, a.stage j = .wrote w → key j ≠ key i) (hv : a.balance (key i) = v) :
    Exact key amount b₀ ⟨a.balance, Function.update a.stage i (.wrote v)⟩ := by
  have hold : ∀ j w, j ≠ i → Function.update a.stage i (.wrote v) j = .wrote w →
      a.stage j = .wrote w := by
    intro j w hji hj
    simpa [hji] using hj
  refine ⟨fun k => ?_, fun j w hj => ?_, fun j l w x hj hl hjl => ?_⟩
  · rw [ideal_update (by simp [hi, Stage.isDone])]
    exact h.balance k
  · rcases eq_or_ne j i with rfl | hji
    · obtain rfl : v = w := by simpa using hj
      exact hv
    · exact h.wrote j w (hold j w hji hj)
  · by_cases hji : j = i <;> by_cases hli : l = i
    · rw [hji, hli]
    · subst hji
      exact absurd hjl.symm (hfree l x (hold l x hli hl))
    · subst hli
      exact absurd hjl (hfree j w (hold j w hji hj))
    · exact h.exclusive j l w x (hold j w hji hj) (hold l x hli hl) hjl

lemma Exact.commit {v : α} (h : Exact key amount b₀ a) (hi : a.stage i = .wrote v) :
    Exact key amount b₀
      ⟨Function.update a.balance (key i) (v - amount i), Function.update a.stage i .done⟩ := by
  have hold : ∀ j w, Function.update a.stage i .done j = .wrote w →
      j ≠ i ∧ a.stage j = .wrote w := by
    intro j w hj
    rcases eq_or_ne j i with rfl | hji
    · simp at hj
    · exact ⟨hji, by simpa [hji] using hj⟩
  refine ⟨fun k => ?_, fun j w hj => ?_, fun j l w x hj hl =>
    h.exclusive j l w x (hold j w hj).2 (hold l x hl).2⟩
  · rw [ideal_done (by simp [hi, Stage.isDone]), ← h.balance]
    rcases eq_or_ne k (key i) with rfl | hk
    · simp [h.wrote i v hi]
    · simp [hk, Ne.symm hk]
  · obtain ⟨hji, hj⟩ := hold j w hj
    -- two results for one balance are never pending together
    have hkey : key j ≠ key i := fun hk => hji (h.exclusive j i w v hj hi hk)
    simpa [hkey] using h.wrote j w hj

/-- **A fresh step loses nothing.** -/
theorem Exact.move (h : Exact key amount b₀ a) (hm : Move key amount i a a')
    (hf : Fresh key i a a') : Exact key amount b₀ a' := by
  cases hm with
  | stay => exact h
  | read hi => exact h.read hi
  | @write v hi hfree =>
    have hv : a.balance (key i) = v := hf v hi (by simp)
    exact h.write hi hfree hv
  | commit hi => exact h.commit hi

/-! ### Stale writes -/

variable [LinearOrder α] [IsOrderedAddMonoid α]

variable (key amount b₀) in
/-- Balances and values read are at least what they should be, and a value that is not the
balance is too high. -/
structure Bounded (a : State K I α) : Prop where
  balance : ∀ k, ideal key amount b₀ a.stage k ≤ a.balance k
  seen : ∀ i v, (a.stage i).seen = some v → ideal key amount b₀ a.stage (key i) ≤ v ∧
    (a.balance (key i) = v ∨ ideal key amount b₀ a.stage (key i) < v)

variable (key amount b₀) in
/-- A balance is too high for good: the committed one and all values read, or a result that
waits to be committed. -/
def Lost (a : State K I α) : Prop :=
  ∃ k, (ideal key amount b₀ a.stage k < a.balance k ∧
      ∀ i v, (a.stage i).seen = some v → key i = k → ideal key amount b₀ a.stage k < v) ∨
    ∃ i v, a.stage i = .wrote v ∧ key i = k ∧ ideal key amount b₀ a.stage k < v

omit [DecidableEq I] [IsOrderedAddMonoid α] in
lemma bounded_start (h : ∀ i, a.stage i = .idle) : Bounded key amount a.balance a where
  balance k := by simp [ideal, taken, h, Stage.isDone]
  seen i v hv := by simp [h, Stage.seen] at hv

omit [DecidableEq K] [Fintype I] [AddCommGroup α] [LinearOrder α] [IsOrderedAddMonoid α] in
lemma seen_update {j : I} {g : Stage α} {v : α}
    (h : (Function.update stage i g j).seen = some v) :
    j = i ∧ g.seen = some v ∨ j ≠ i ∧ (stage j).seen = some v := by
  rcases eq_or_ne j i with rfl | hj
  · exact .inl ⟨rfl, by simpa using h⟩
  · exact .inr ⟨hj, by simpa [hj] using h⟩

variable (key b₀ k) in
/-- A commit lowers what should be left of its balance, and of no other. -/
lemma ideal_commit (hpos : 0 < amount i) (h : (stage i).isDone = false) :
    ideal key amount b₀ (Function.update stage i .done) k ≤ ideal key amount b₀ stage k ∧
      (key i = k → ideal key amount b₀ (Function.update stage i .done) k <
        ideal key amount b₀ stage k) := by
  rw [ideal_done h]
  by_cases hk : key i = k
  · simp [hk, hpos, hpos.le]
  · simp [hk]

omit [IsOrderedAddMonoid α] in
/-- A step before the commit shows no value but one that was read already, or the balance. -/
lemma Bounded.advance {g : Stage α} (h : Bounded key amount b₀ a)
    (hd : g.isDone = (a.stage i).isDone)
    (hg : ∀ v, g.seen = some v → (a.stage i).seen = some v ∨ a.balance (key i) = v) :
    Bounded key amount b₀ ⟨a.balance, Function.update a.stage i g⟩ := by
  have hid : ideal key amount b₀ (Function.update a.stage i g) = ideal key amount b₀ a.stage :=
    ideal_update hd
  refine ⟨fun k => ?_, fun j v hj => ?_⟩
  · rw [hid]
    exact h.balance k
  · rw [hid]
    rcases seen_update hj with ⟨rfl, hv⟩ | ⟨-, hv⟩
    · rcases hg v hv with hold | hbal
      · exact h.seen j v hold
      · exact ⟨hbal ▸ h.balance _, .inl hbal⟩
    · exact h.seen j v hv

lemma Bounded.commit {v : α} (hpos : ∀ i, 0 < amount i) (h : Bounded key amount b₀ a)
    (hi : a.stage i = .wrote v) : Bounded key amount b₀
      ⟨Function.update a.balance (key i) (v - amount i), Function.update a.stage i .done⟩ := by
  have hnot : (a.stage i).isDone = false := by simp [hi, Stage.isDone]
  have hle := fun k => ideal_commit key b₀ k (hpos i) hnot
  refine ⟨fun k => ?_, fun j w hj => ?_⟩
  · rcases eq_or_ne k (key i) with rfl | hk
    · have hv := (h.seen i v (by simp [hi, Stage.seen])).1
      rw [ideal_done hnot]
      simpa using hv
    · calc ideal key amount b₀ (Function.update a.stage i .done) k
          ≤ ideal key amount b₀ a.stage k := (hle k).1
        _ ≤ a.balance k := h.balance k
        _ = Function.update a.balance (key i) (v - amount i) k := by simp [hk]
  · rcases seen_update hj with ⟨-, hw⟩ | ⟨-, hw⟩
    · cases hw
    obtain ⟨h₁, h₂⟩ := h.seen j w hw
    refine ⟨(hle _).1.trans h₁, ?_⟩
    by_cases hk : key i = key j
    · have hlt := (hle (key j)).2 hk
      exact .inr (hlt.trans_le h₁)
    · have hbal : Function.update a.balance (key i) (v - amount i) (key j) = a.balance (key j) := by
        simp [Ne.symm hk]
      rw [← hbal] at h₂
      exact h₂.imp_right (hle _).1.trans_lt

theorem Bounded.move (hpos : ∀ i, 0 < amount i) (h : Bounded key amount b₀ a)
    (hm : Move key amount i a a') : Bounded key amount b₀ a' := by
  cases hm with
  | stay => exact h
  | read hi => exact h.advance (by simp [hi, Stage.isDone]) fun v hv => .inr (Option.some.inj hv)
  | write hi _ => exact h.advance (by simp [hi, Stage.isDone]) fun v hv => .inl (by rwa [hi])
  | commit hi => exact h.commit hpos hi

omit [IsOrderedAddMonoid α] in
lemma Lost.advance {g : Stage α} (h : Lost key amount b₀ a) (hd : g.isDone = (a.stage i).isDone)
    (hw : ∀ v, a.stage i ≠ .wrote v)
    (hg : ∀ v, g.seen = some v → (a.stage i).seen = some v ∨ a.balance (key i) = v) :
    Lost key amount b₀ ⟨a.balance, Function.update a.stage i g⟩ := by
  have hid : ideal key amount b₀ (Function.update a.stage i g) = ideal key amount b₀ a.stage :=
    ideal_update hd
  obtain ⟨k, hk⟩ := h
  refine ⟨k, ?_⟩
  rw [hid]
  rcases hk with ⟨hbal, hseen⟩ | ⟨j, v, hj, hk⟩
  · refine .inl ⟨hbal, fun j v hj hjk => ?_⟩
    rcases seen_update hj with ⟨rfl, hv⟩ | ⟨-, hv⟩
    · rcases hg v hv with hold | hv
      · exact hseen j v hold hjk
      · rwa [← hv, hjk]
    · exact hseen j v hv hjk
  · have hji : j ≠ i := by
      rintro rfl
      exact hw v hj
    exact .inr ⟨j, v, by simpa [hji] using hj, hk⟩

/-- Once a result that is too high is committed, so is every value that was read before. -/
lemma lost_of_commit {v : α} (hpos : ∀ i, 0 < amount i) (hb : Bounded key amount b₀ a)
    (hi : a.stage i = .wrote v) (hlt : ideal key amount b₀ a.stage (key i) < v) :
    Lost key amount b₀
      ⟨Function.update a.balance (key i) (v - amount i), Function.update a.stage i .done⟩ := by
  have hnot : (a.stage i).isDone = false := by simp [hi, Stage.isDone]
  refine ⟨key i, .inl ⟨?_, fun j w hj hjk => ?_⟩⟩
  · rw [ideal_done hnot]
    simpa using hlt
  · rcases seen_update hj with ⟨-, hw⟩ | ⟨-, hw⟩
    · cases hw
    have hw := (hb.seen j w hw).1
    rw [hjk] at hw
    exact ((ideal_commit key b₀ (key i) (hpos i) hnot).2 rfl).trans_le hw

lemma Lost.commit {v : α} (hpos : ∀ i, 0 < amount i) (hb : Bounded key amount b₀ a)
    (h : Lost key amount b₀ a) (hi : a.stage i = .wrote v) : Lost key amount b₀
      ⟨Function.update a.balance (key i) (v - amount i), Function.update a.stage i .done⟩ := by
  have hnot : (a.stage i).isDone = false := by simp [hi, Stage.isDone]
  obtain ⟨k, hk⟩ := h
  have hle := (ideal_commit key b₀ k (hpos i) hnot).1
  rcases hk with ⟨hbal, hseen⟩ | ⟨j, w, hj, hjk, hlt⟩
  · by_cases hik : key i = k
    · subst hik
      exact lost_of_commit hpos hb hi (hseen i v (by simp [hi, Stage.seen]) rfl)
    · refine ⟨k, .inl ⟨?_, fun j w hj hjk => ?_⟩⟩
      · calc ideal key amount b₀ (Function.update a.stage i .done) k
            ≤ ideal key amount b₀ a.stage k := hle
          _ < a.balance k := hbal
          _ = Function.update a.balance (key i) (v - amount i) k := by simp [Ne.symm hik]
      · rcases seen_update hj with ⟨-, hw⟩ | ⟨-, hw⟩
        · cases hw
        · exact hle.trans_lt (hseen j w hw hjk)
  · rcases eq_or_ne j i with rfl | hji
    · obtain rfl : v = w := by simpa [hi] using hj
      subst hjk
      exact lost_of_commit hpos hb hi hlt
    · exact ⟨k, .inr ⟨j, w, by simpa [hji] using hj, hjk, hle.trans_lt hlt⟩⟩

/-- **What is lost stays lost.** -/
theorem Lost.move (hpos : ∀ i, 0 < amount i) (hb : Bounded key amount b₀ a)
    (h : Lost key amount b₀ a) (hm : Move key amount i a a') : Lost key amount b₀ a' := by
  cases hm with
  | stay => exact h
  | read hi =>
    refine h.advance (by simp [hi, Stage.isDone]) (by simp [hi]) fun v hv => ?_
    exact .inr (Option.some.inj hv)
  | write hi _ =>
    exact h.advance (by simp [hi, Stage.isDone]) (by simp [hi]) fun v hv => .inl (by rwa [hi])
  | commit hi => exact h.commit hpos hb hi

omit [IsOrderedAddMonoid α] in
/-- **A stale write is a loss.** -/
theorem lost_of_stale (hb : Bounded key amount b₀ a) (hm : Move key amount i a a')
    (hf : ¬ Fresh key i a a') : Lost key amount b₀ a' := by
  obtain ⟨v, hi, hi', hne⟩ : ∃ v, a.stage i = .read v ∧ a'.stage i = .wrote v ∧
      a.balance (key i) ≠ v := by
    simpa [Fresh] using hf
  have hlt := (hb.seen i v (by simp [hi, Stage.seen])).2.resolve_left hne
  cases hm with
  | stay => simp [hi] at hi'
  | read h => simp [hi] at h
  | commit h => simp [hi] at h
  | @write w h _ =>
    refine ⟨key i, .inr ⟨i, v, hi', rfl, ?_⟩⟩
    rwa [ideal_update (by simp [hi, Stage.isDone])]

omit [DecidableEq I] [IsOrderedAddMonoid α] in
lemma Lost.balance (h : Lost key amount b₀ a) (hdone : ∀ i, a.stage i = .done) :
    ∃ k, b₀ k - ∑ i with key i = k, amount i < a.balance k := by
  obtain ⟨k, ⟨hlt, -⟩ | ⟨i, v, hi, -⟩⟩ := h
  · exact ⟨k, by rwa [← ideal_end hdone]⟩
  · simp [hdone] at hi

/-! ### Writes that are committed at once -/

/-- The state after a write and its commit. -/
def written (key : I → K) (amount : I → α) (i : I) (v : α) (a : State K I α) : State K I α :=
  ⟨Function.update a.balance (key i) (v - amount i), Function.update a.stage i .done⟩

variable (key amount) in
omit [Fintype I] [LinearOrder α] [IsOrderedAddMonoid α] in
/-- Such a write is two moves, when nobody else is between them. -/
lemma write_commit {v : α} (hi : a.stage i = .read v) (hfree : ∀ j w, a.stage j ≠ .wrote w) :
    ∃ a', Move key amount i a a' ∧ Move key amount i a' (written key amount i v a) ∧
      a'.balance = a.balance ∧ a'.stage i = .wrote v := by
  refine ⟨⟨a.balance, Function.update a.stage i (.wrote v)⟩,
    .write hi fun j w hj => absurd hj (hfree j w), ?_, rfl, by simp⟩
  have hcommit : Move key amount i ⟨a.balance, Function.update a.stage i (.wrote v)⟩ _ :=
    .commit (v := v) (by simp)
  simpa [written] using hcommit

omit [LinearOrder α] [IsOrderedAddMonoid α] in
lemma Exact.written {v : α} (h : Exact key amount b₀ a) (hi : a.stage i = .read v)
    (hfree : ∀ j w, a.stage j ≠ .wrote w) (hv : a.balance (key i) = v) :
    Exact key amount b₀ (written key amount i v a) := by
  obtain ⟨a', hwrite, hcommit, -, hstage⟩ := write_commit key amount hi hfree
  have hexact := h.move hwrite fun w hw _ => by
    rw [hi, Stage.read.injEq] at hw
    rw [hv, hw]
  exact hexact.move hcommit fun w hw _ => by
    rw [hstage] at hw
    cases hw

lemma Bounded.written {v : α} (hpos : ∀ i, 0 < amount i) (h : Bounded key amount b₀ a)
    (hi : a.stage i = .read v) (hfree : ∀ j w, a.stage j ≠ .wrote w) :
    Bounded key amount b₀ (written key amount i v a) := by
  obtain ⟨a', hwrite, hcommit, -, -⟩ := write_commit key amount hi hfree
  exact (h.move hpos hwrite).move hpos hcommit

/-- A stale one loses an amount, and what was lost before stays lost. -/
lemma Lost.written {v : α} (hpos : ∀ i, 0 < amount i) (hb : Bounded key amount b₀ a)
    (hi : a.stage i = .read v) (hfree : ∀ j w, a.stage j ≠ .wrote w)
    (h : Lost key amount b₀ a ∨ a.balance (key i) ≠ v) :
    Lost key amount b₀ (written key amount i v a) := by
  obtain ⟨a', hwrite, hcommit, -, hstage⟩ := write_commit key amount hi hfree
  have hb' := hb.move hpos hwrite
  refine Lost.move hpos hb' ?_ hcommit
  rcases h with hlost | hstale
  · exact hlost.move hpos hb hwrite
  · exact lost_of_stale hb hwrite fun hfresh => hstale (hfresh v hi hstage)

variable (key amount b₀) in
/-- Nothing is lost as long as no write was stale, and something is from the first one on. -/
structure Judged (stale : Prop) (a : State K I α) : Prop where
  bounded : Bounded key amount b₀ a
  exact : ¬ stale → Exact key amount b₀ a
  lost : stale → Lost key amount b₀ a

omit [DecidableEq I] [IsOrderedAddMonoid α] in
lemma judged_start (h : ∀ i, a.stage i = .idle) : Judged key amount a.balance False a :=
  ⟨bounded_start h, fun _ => exact_start h, False.elim⟩

lemma Judged.read {stale : Prop} (hpos : ∀ i, 0 < amount i) (h : Judged key amount b₀ stale a)
    (hi : a.stage i = .idle) : Judged key amount b₀ stale
      ⟨a.balance, Function.update a.stage i (.read (a.balance (key i)))⟩ :=
  ⟨h.bounded.move hpos (.read hi), fun hs => (h.exact hs).read hi,
    fun hs => (h.lost hs).move hpos h.bounded (.read hi)⟩

lemma Judged.written {stale : Prop} {v : α} (hpos : ∀ i, 0 < amount i)
    (h : Judged key amount b₀ stale a) (hi : a.stage i = .read v)
    (hfree : ∀ j w, a.stage j ≠ .wrote w) :
    Judged key amount b₀ (stale ∨ a.balance (key i) ≠ v) (written key amount i v a) where
  bounded := h.bounded.written hpos hi hfree
  exact hs := by
    rw [not_or, not_not] at hs
    exact (h.exact hs.1).written hi hfree hs.2
  lost hs := Lost.written hpos h.bounded hi hfree (hs.imp_left h.lost)

omit [DecidableEq I] [IsOrderedAddMonoid α] in
/-- **The balances tell.** When no write waits for its commit, they are as the amounts say just
when no write was stale. -/
theorem Judged.balance_iff {stale : Prop} (h : Judged key amount b₀ stale a)
    (hfree : ∀ j w, a.stage j ≠ .wrote w) :
    (∀ k, a.balance k = ideal key amount b₀ a.stage k) ↔ ¬ stale := by
  refine ⟨fun hbal hs => ?_, fun hs => (h.exact hs).balance⟩
  obtain ⟨k, ⟨hlt, -⟩ | ⟨i, v, hi, -⟩⟩ := h.lost hs
  · exact hlt.ne' (hbal k)
  · exact hfree i v hi

end TsaBackend.ReadModifyWrite
