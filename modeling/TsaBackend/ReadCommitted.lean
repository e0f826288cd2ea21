import Mathlib.Data.Fintype.Basic
import Mathlib.Data.Fintype.Pi
import TsaBackend.Machine

/-!
Interactive transactions at the isolation level READ COMMITTED.

A query sees what has been committed and the transaction's own writes. An update takes the
lock of its row and keeps it to the end of the transaction; while another transaction holds
that lock, the update waits. A commit publishes the writes and releases the locks.
-/

namespace TsaBackend.ReadCommitted

variable {σ κ I : Type}

/-- What is left of a transaction: a query continues with what it sees, an update changes
the row of its key. -/
inductive Tx (σ κ : Type)
  | commit
  | rollback
  | query (next : σ → Tx σ κ)
  | update (k : κ) (eff : σ → σ) (next : Tx σ κ)

def Tx.isCommit : Tx σ κ → Bool
  | .commit => true
  | _ => false

/-- Whatever the transaction sees, it commits only writes that satisfy `P`. -/
def Tx.Commits (P : (σ → σ) → Prop) : Tx σ κ → (σ → σ) → Prop
  | .commit, w => P w
  | .rollback, _ => True
  | .query next, w => ∀ s, (next s).Commits P w
  | .update _ eff next, w => next.Commits P (eff ∘ w)

/-- A running transaction: its locks, its own writes, and what is left of it. -/
structure Session (σ κ : Type) where
  held : List κ
  writes : σ → σ
  todo : Option (Tx σ κ)

def Session.start (tx : Tx σ κ) : Session σ κ := ⟨[], id, some tx⟩

def Session.ended : Session σ κ := ⟨[], id, none⟩

/-- What is left of the session commits only writes that satisfy `P`. -/
def Session.Commits (P : (σ → σ) → Prop) (c : Session σ κ) : Prop :=
  ∀ tx, c.todo = some tx → tx.Commits P c.writes

structure State (σ κ I : Type) where
  db : σ
  sessions : I → Session σ κ

/-- Another transaction holds the lock. -/
def Blocked (st : State σ κ I) (i : I) (k : κ) : Prop := ∃ j, j ≠ i ∧ k ∈ (st.sessions j).held

/-- The next statement of transaction `i` is its commit. -/
def Committing (st : State σ κ I) (i : I) : Prop := (st.sessions i).todo.any Tx.isCommit = true

instance (st : State σ κ I) (i : I) : Decidable (Committing st i) := by
  unfold Committing; infer_instance

lemma committing_iff {st : State σ κ I} {i : I} :
    Committing st i ↔ (st.sessions i).todo = some .commit := by
  unfold Committing
  rcases (st.sessions i).todo with _ | tx
  · simp
  · cases tx <;> simp [Tx.isCommit]

/-- At its commit a session publishes writes it has promised. -/
lemma Session.Commits.at_commit {P : (σ → σ) → Prop} {st : State σ κ I} {i : I}
    (h : (st.sessions i).Commits P) (hi : Committing st i) : P (st.sessions i).writes :=
  h _ (committing_iff.mp hi)

section

variable [DecidableEq κ] [DecidableEq I] [Fintype I]

instance (st : State σ κ I) (i : I) (k : κ) : Decidable (Blocked st i k) := by
  unfold Blocked; infer_instance

/-- The next statement of transaction `i`; a blocked update stays where it is. -/
def step (st : State σ κ I) (i : I) : State σ κ I :=
  let c := st.sessions i
  match c.todo with
  | none => st
  | some .commit => ⟨c.writes st.db, Function.update st.sessions i .ended⟩
  | some .rollback => ⟨st.db, Function.update st.sessions i .ended⟩
  | some (.query next) =>
    ⟨st.db, Function.update st.sessions i { c with todo := some (next (c.writes st.db)) }⟩
  | some (.update k eff next) =>
    if Blocked st i k then st
    else ⟨st.db, Function.update st.sessions i ⟨k :: c.held, eff ∘ c.writes, some next⟩⟩

variable {st : State σ κ I} {i j : I} {held : List κ} {w : σ → σ}

lemma step_none (h : (st.sessions i).todo = none) : step st i = st := by
  simp [step, h]

lemma step_commit (h : st.sessions i = ⟨held, w, some .commit⟩) :
    step st i = ⟨w st.db, Function.update st.sessions i .ended⟩ := by
  simp [step, h]

lemma step_rollback (h : st.sessions i = ⟨held, w, some .rollback⟩) :
    step st i = ⟨st.db, Function.update st.sessions i .ended⟩ := by
  simp [step, h]

lemma step_query {next : σ → Tx σ κ} (h : st.sessions i = ⟨held, w, some (.query next)⟩) :
    step st i = ⟨st.db, Function.update st.sessions i ⟨held, w, some (next (w st.db))⟩⟩ := by
  simp [step, h]

lemma step_update {k : κ} {eff : σ → σ} {next : Tx σ κ}
    (h : st.sessions i = ⟨held, w, some (.update k eff next)⟩) (hfree : ¬ Blocked st i k) :
    step st i = ⟨st.db, Function.update st.sessions i ⟨k :: held, eff ∘ w, some next⟩⟩ := by
  simp [step, h, hfree]

lemma step_blocked {k : κ} {eff : σ → σ} {next : Tx σ κ}
    (h : st.sessions i = ⟨held, w, some (.update k eff next)⟩) (hb : Blocked st i k) :
    step st i = st := by
  simp [step, h, hb]

/-- **What a statement does**: one case for each kind. -/
theorem step_cases (st : State σ κ I) (i : I) : step st i = st ∧ ¬ Committing st i ∨ ∃ held w,
    st.sessions i = ⟨held, w, some .commit⟩ ∧
        step st i = ⟨w st.db, Function.update st.sessions i .ended⟩ ∨
      st.sessions i = ⟨held, w, some .rollback⟩ ∧
        step st i = ⟨st.db, Function.update st.sessions i .ended⟩ ∨
      (∃ next, st.sessions i = ⟨held, w, some (.query next)⟩ ∧
        step st i = ⟨st.db, Function.update st.sessions i ⟨held, w, some (next (w st.db))⟩⟩) ∨
      ∃ k eff next, st.sessions i = ⟨held, w, some (.update k eff next)⟩ ∧
        step st i = ⟨st.db, Function.update st.sessions i ⟨k :: held, eff ∘ w, some next⟩⟩ := by
  rcases h : st.sessions i with ⟨held, w, todo⟩
  rcases todo with _ | tx
  · exact .inl ⟨step_none (by rw [h]), by simp [Committing, h]⟩
  cases tx with
  | commit => exact .inr ⟨held, w, .inl ⟨rfl, step_commit h⟩⟩
  | rollback => exact .inr ⟨held, w, .inr (.inl ⟨rfl, step_rollback h⟩)⟩
  | query next => exact .inr ⟨held, w, .inr (.inr (.inl ⟨next, rfl, step_query h⟩))⟩
  | update k eff next =>
    by_cases hb : Blocked st i k
    · exact .inl ⟨step_blocked h hb, by simp [Committing, h, Tx.isCommit]⟩
    · exact .inr ⟨held, w, .inr (.inr (.inr ⟨k, eff, next, rfl, step_update h hb⟩))⟩

lemma step_other (hj : j ≠ i) : (step st i).sessions j = st.sessions j := by
  rcases step_cases st i with ⟨h, -⟩ | ⟨held, w, ⟨-, h⟩ | ⟨-, h⟩ | ⟨next, -, h⟩ |
    ⟨k, eff, next, -, h⟩⟩
  · rw [h]
  all_goals simp [h, hj]

lemma step_db (hi : ¬ Committing st i) : (step st i).db = st.db := by
  rcases step_cases st i with ⟨h, -⟩ | ⟨held, w, ⟨hs, -⟩ | ⟨-, h⟩ | ⟨next, -, h⟩ |
    ⟨k, eff, next, -, h⟩⟩
  · rw [h]
  · exact absurd (committing_iff.mpr (by rw [hs])) hi
  all_goals rw [h]

lemma step_committing (h : Committing st i) : (step st i).db = (st.sessions i).writes st.db := by
  rw [committing_iff] at h
  simp [step, h]

/-- What is left of a session keeps its promise, whoever takes the next statement. -/
lemma step_commits {P : (σ → σ) → Prop} (hP : (st.sessions j).Commits P) (i : I) :
    ((step st i).sessions j).Commits P := by
  by_cases hj : j = i
  · subst hj
    rcases step_cases st j with ⟨h, -⟩ | ⟨held, w, ⟨-, h⟩ | ⟨-, h⟩ | ⟨next, hs, h⟩ |
      ⟨k, eff, next, hs, h⟩⟩
    · rwa [h]
    · simp [h, Session.Commits, Session.ended]
    · simp [h, Session.Commits, Session.ended]
    · rw [hs] at hP
      have hnext : (next (w st.db)).Commits P w := hP _ rfl (w st.db)
      simpa [h, Session.Commits] using hnext
    · rw [hs] at hP
      have hnext : next.Commits P (eff ∘ w) := hP _ rfl
      simpa [h, Session.Commits] using hnext
  · rwa [step_other hj]

lemma run_commits {P : (σ → σ) → Prop} (h : (st.sessions j).Commits P) (is : List I) :
    ((Machine.run step st is).sessions j).Commits P := by
  induction is generalizing st with
  | nil => exact h
  | cons i is ih => exact ih (step_commits h i)

/-- A transaction that has not had its turn has not moved. -/
lemma run_other {is : List I} (h : j ∉ is) :
    (Machine.run step st is).sessions j = st.sessions j := by
  induction is generalizing st with
  | nil => rfl
  | cons i is ih =>
    rw [List.mem_cons, not_or] at h
    rw [Machine.run_cons, ih h.2, step_other h.1]

/-- What is committed by a transaction that is not interleaved with others. -/
def Tx.alone (s : σ) : Tx σ κ → (σ → σ) → σ
  | .commit, w => w s
  | .rollback, _ => s
  | .query next, w => (next (w s)).alone s w
  | .update _ eff next, w => next.alone s (eff ∘ w)

/-- **A transaction that is not interleaved is one step**, when nobody else holds a lock. -/
theorem run_alone (tx : Tx σ κ) (hi : st.sessions i = ⟨held, w, some tx⟩)
    (hfree : ∀ j, j ≠ i → (st.sessions j).held = []) :
    ∃ n, Machine.run step st (List.replicate n i) =
      ⟨tx.alone st.db w, Function.update st.sessions i .ended⟩ := by
  have hblocked : ∀ st' : State σ κ I, (∀ j, j ≠ i → (st'.sessions j).held = []) →
      ∀ k, ¬ Blocked st' i k := by
    rintro st' h k ⟨j, hj, hk⟩
    simp [h j hj] at hk
  induction tx generalizing st held w with
  | commit => exact ⟨1, step_commit hi⟩
  | rollback => exact ⟨1, step_rollback hi⟩
  | query next ih =>
    have hstep := step_query hi
    have hi' : (step st i).sessions i = ⟨held, w, some (next (w st.db))⟩ := by
      simp [hstep]
    have hfree' : ∀ j, j ≠ i → ((step st i).sessions j).held = [] := by
      intro j hj
      simp [hstep, hj, hfree j hj]
    obtain ⟨n, hn⟩ := ih (w st.db) hi' hfree'
    refine ⟨n + 1, ?_⟩
    rw [List.replicate_succ, Machine.run_cons, hn, hstep]
    simp [Tx.alone]
  | update k eff next ih =>
    have hstep := step_update hi (hblocked st hfree k)
    have hi' : (step st i).sessions i = ⟨k :: held, eff ∘ w, some next⟩ := by
      simp [hstep]
    have hfree' : ∀ j, j ≠ i → ((step st i).sessions j).held = [] := by
      intro j hj
      simp [hstep, hj, hfree j hj]
    obtain ⟨n, hn⟩ := ih hi' hfree'
    refine ⟨n + 1, ?_⟩
    rw [List.replicate_succ, Machine.run_cons, hn, hstep]
    simp [Tx.alone]

end

end TsaBackend.ReadCommitted
