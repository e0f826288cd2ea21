import Mathlib.Logic.Function.Basic
import Mathlib.Tactic.Common

/-!
Calls that work on a shared store one atomic step at a time.

A call has returned, has thrown, or is about to take an atomic step. A step reads an input
from the outside world and the store, changes the store, and leaves the rest of the call.
The same tree is read in three ways: run alone on a stream of inputs (`exec`, `trace`), as
a predicate transformer (`wp`), and step by step among other calls (`Concurrent.lean`).
-/

namespace TsaBackend

/-- A call on a store `σ`, with inputs `ι`, exceptions `ε` and result `α`. -/
inductive Call (σ ι ε α : Type) : Type
  | pure (a : α)
  | throw (e : ε)
  | act (eff : ι → σ → σ) (next : ι → σ → Call σ ι ε α)

namespace Call

variable {σ ι ε α β : Type}

def bind : Call σ ι ε α → (α → Call σ ι ε β) → Call σ ι ε β
  | .pure a, f => f a
  | .throw e, _ => .throw e
  | .act eff next, f => .act eff fun i s => (next i s).bind f

def tryCatch : Call σ ι ε α → (ε → Call σ ι ε α) → Call σ ι ε α
  | .pure a, _ => .pure a
  | .throw e, h => h e
  | .act eff next, h => .act eff fun i s => (next i s).tryCatch h

instance : Monad (Call σ ι ε) where
  pure := .pure
  bind := .bind

instance : LawfulMonad (Call σ ι ε) := by
  refine .mk' _ (fun x => ?_) (fun _ _ => rfl) fun x f g => ?_
  · induction x with
    | pure a => rfl
    | throw e => rfl
    | act eff next ih => exact congrArg (act eff) (funext fun i => funext fun s => ih i s)
  · induction x with
    | pure a => rfl
    | throw e => rfl
    | act eff next ih => exact congrArg (act eff) (funext fun i => funext fun s => ih i s)

instance : MonadExceptOf ε (Call σ ι ε) where
  throw := .throw
  tryCatch := .tryCatch

/-- One step that commits as a whole, or throws and leaves the store as it was. -/
def atomic (f : ι → σ → Except ε (α × σ)) : Call σ ι ε α :=
  .act
    (fun i s => match f i s with
      | .ok (_, s') => s'
      | .error _ => s)
    (fun i s => match f i s with
      | .ok (a, _) => .pure a
      | .error e => .throw e)

/-- The first of two statements of a transaction that commits has succeeded. -/
lemma ok_of_bind {x : Except ε α} {f : α → Except ε β} {b : β} (h : x >>= f = .ok b) :
    ∃ a, x = .ok a ∧ f a = .ok b := by
  cases x with
  | error e => cases h
  | ok a => exact ⟨a, rfl, h⟩

/-- One step that only reads. -/
def read (f : ι → σ → α) : Call σ ι ε α :=
  .act (fun _ s => s) fun i s => .pure (f i s)

/-- A guard of the code: throw when `c` holds. -/
def throwIf (c : Prop) [Decidable c] (e : ε) : Call σ ι ε Unit := if c then .throw e else .pure ()

/-- A branch without an alternative. -/
def when (c : Prop) [Decidable c] (x : Call σ ι ε Unit) : Call σ ι ε Unit :=
  if c then x else .pure ()

/-- The result and the last store of a call that runs alone. -/
def exec : Call σ ι ε α → (ℕ → ι) → σ → Except ε α × σ
  | .pure a, _, s => (.ok a, s)
  | .throw e, _, s => (.error e, s)
  | .act eff next, ω, s => (next (ω 0) s).exec (fun n => ω (n + 1)) (eff (ω 0) s)

section Exec

variable (ω : ℕ → ι) (s : σ)

@[simp] lemma exec_pure (a : α) : (Pure.pure a : Call σ ι ε α).exec ω s = (.ok a, s) := rfl

@[simp] lemma exec_throw (e : ε) :
    (MonadExcept.throw e : Call σ ι ε α).exec ω s = (.error e, s) := rfl

@[simp] lemma exec_read_bind (f : ι → σ → α) (g : α → Call σ ι ε β) :
    (read f >>= g).exec ω s = (g (f (ω 0) s)).exec (fun n => ω (n + 1)) s := rfl

@[simp] lemma exec_atomic_bind (f : ι → σ → Except ε (α × σ)) (g : α → Call σ ι ε β) :
    (atomic f >>= g).exec ω s = match f (ω 0) s with
      | .ok (a, t) => (g a).exec (fun n => ω (n + 1)) t
      | .error e => (.error e, s) := by
  change Call.exec (.act _ _) ω s = _
  rcases hf : f (ω 0) s with e | ⟨a, t⟩ <;> simp only [exec, hf] <;> rfl

lemma exec_atomic_bind_ok {f : ι → σ → Except ε (α × σ)} {g : α → Call σ ι ε β} {a : α} {t : σ}
    (h : f (ω 0) s = .ok (a, t)) :
    (atomic f >>= g).exec ω s = (g a).exec (fun n => ω (n + 1)) t := by
  rw [exec_atomic_bind, h]

/-- A step that fails when it is not answered. -/
lemma exec_answered_bind (answered : ι → Bool) (e : ε) (f : σ → Except ε (α × σ))
    (g : α → Call σ ι ε β) :
    (atomic (fun i s => if answered i then f s else .error e) >>= g).exec ω s =
      if answered (ω 0) = true then
        match f s with
          | .ok (a, t) => (g a).exec (fun n => ω (n + 1)) t
          | .error e => (.error e, s)
      else (.error e, s) := by
  rw [exec_atomic_bind]
  by_cases hanswered : answered (ω 0) = true
  · rw [if_pos hanswered, if_pos hanswered]
  · rw [if_neg hanswered, if_neg hanswered]

@[simp] lemma exec_throwIf_bind (c : Prop) [Decidable c] (e : ε) (g : Unit → Call σ ι ε α) :
    (throwIf c e >>= g).exec ω s = if c then (.error e, s) else (g ()).exec ω s := by
  unfold throwIf
  split <;> rfl

lemma exec_tryCatch_throw (c : Call σ ι ε α) (f : ε → ε) :
    (MonadExcept.tryCatch c fun e => MonadExcept.throw (f e) : Call σ ι ε α).exec ω s =
      ((c.exec ω s).1.mapError f, (c.exec ω s).2) := by
  induction c generalizing ω s with
  | pure a => rfl
  | throw e => rfl
  | act eff next ih => exact ih _ _ _ _

lemma exec_tryCatch_pure (c : Call σ ι ε α) (f : ε → α) :
    (MonadExcept.tryCatch c fun e => Pure.pure (f e) : Call σ ι ε α).exec ω s =
      (match (c.exec ω s).1 with
        | .ok a => .ok a
        | .error e => .ok (f e), (c.exec ω s).2) := by
  induction c generalizing ω s with
  | pure a => rfl
  | throw e => rfl
  | act eff next ih => exact ih _ _ _ _

end Exec

/-- The steps of that run, each as the store before it and the store after it. -/
def trace : Call σ ι ε α → (ℕ → ι) → σ → List (σ × σ)
  | .pure _, _, _ => []
  | .throw _, _, _ => []
  | .act eff next, ω, s =>
    (s, eff (ω 0) s) :: (next (ω 0) s).trace (fun n => ω (n + 1)) (eff (ω 0) s)

/-- Two calls one after the other: the second reads on where the first one ended. -/
lemma exec_bind (c : Call σ ι ε α) (f : α → Call σ ι ε β) (ω : ℕ → ι) (s : σ) :
    (c >>= f).exec ω s = match c.exec ω s with
      | (.ok a, t) => (f a).exec (fun n => ω (n + (c.trace ω s).length)) t
      | (.error e, t) => (.error e, t) := by
  induction c generalizing ω s with
  | pure a => rfl
  | throw e => rfl
  | act eff next ih =>
    simp only [trace, List.length_cons, ← Nat.add_assoc]
    exact ih _ _ _ _

/-! ### Preconditions -/

/-- On inputs that satisfy `E`, every step is a `G` step, a return satisfies `Q` and a
throw satisfies `X`. -/
def wp (E : ι → Prop) (G : σ → σ → Prop) :
    Call σ ι ε α → (α → σ → Prop) → (ε → σ → Prop) → σ → Prop
  | .pure a, Q, _, s => Q a s
  | .throw e, _, X, s => X e s
  | .act eff next, Q, X, s => ∀ i, E i → G s (eff i s) ∧ (next i s).wp E G Q X (eff i s)

variable {E : ι → Prop} {G : σ → σ → Prop} {Q : α → σ → Prop} {X : ε → σ → Prop} {s : σ}

@[simp] lemma wp_pure (a : α) :
    wp E G (Pure.pure a : Call σ ι ε α) Q X s ↔ Q a s := Iff.rfl

@[simp] lemma wp_throw (e : ε) :
    wp E G (MonadExcept.throw e : Call σ ι ε α) Q X s ↔ X e s := Iff.rfl

@[simp] lemma wp_bind (c : Call σ ι ε α) (f : α → Call σ ι ε β) {Q : β → σ → Prop} :
    wp E G (c >>= f) Q X s ↔ wp E G c (fun a t => wp E G (f a) Q X t) X s := by
  induction c generalizing s with
  | pure a => rfl
  | throw e => rfl
  | act eff next ih =>
    change (∀ i, E i → G s (eff i s) ∧ wp E G (next i s >>= f) Q X (eff i s)) ↔ _
    simp only [wp, ih]

@[simp] lemma wp_tryCatch (c : Call σ ι ε α) (h : ε → Call σ ι ε α) :
    wp E G (MonadExcept.tryCatch c h) Q X s ↔ wp E G c Q (fun e t => wp E G (h e) Q X t) s := by
  induction c generalizing s with
  | pure a => rfl
  | throw e => rfl
  | act eff next ih =>
    change (∀ i, E i → G s (eff i s) ∧ wp E G (MonadExcept.tryCatch (next i s) h) Q X (eff i s))
      ↔ _
    simp only [wp, ih]

@[simp] lemma wp_ite (c : Prop) [Decidable c] (x y : Call σ ι ε α) :
    wp E G (if c then x else y) Q X s ↔ if c then wp E G x Q X s else wp E G y Q X s := by
  split <;> rfl

@[simp] lemma wp_throwIf (c : Prop) [Decidable c] (e : ε) {Q : Unit → σ → Prop} :
    wp E G (throwIf c e : Call σ ι ε Unit) Q X s ↔ if c then X e s else Q () s := by
  unfold throwIf
  split <;> rfl

@[simp] lemma wp_when (c : Prop) [Decidable c] (x : Call σ ι ε Unit) {Q : Unit → σ → Prop} :
    wp E G (when c x) Q X s ↔ if c then wp E G x Q X s else Q () s := by
  unfold when
  split <;> rfl

lemma wp_throwIf_bind (c : Prop) [Decidable c] (e : ε) (f : Unit → Call σ ι ε α) :
    wp E G (throwIf c e >>= f) Q X s ↔ (c → X e s) ∧ (¬ c → wp E G (f ()) Q X s) := by
  rw [wp_bind, wp_throwIf]
  split <;> simp_all

lemma wp_when_bind (c : Prop) [Decidable c] (x : Call σ ι ε Unit) (f : Unit → Call σ ι ε α) :
    wp E G (when c x >>= f) Q X s ↔
      (c → wp E G x (fun _ t => wp E G (f ()) Q X t) X s) ∧ (¬ c → wp E G (f ()) Q X s) := by
  rw [wp_bind, wp_when]
  split <;> simp_all

@[simp] lemma wp_atomic (f : ι → σ → Except ε (α × σ)) :
    wp E G (atomic f) Q X s ↔ ∀ i, E i → match f i s with
      | .ok (a, t) => G s t ∧ Q a t
      | .error e => G s s ∧ X e s := by
  refine forall_congr' fun i => imp_congr_right fun _ => ?_
  rcases hf : f i s with e | ⟨a, t⟩ <;> simp only [hf, wp]

@[simp] lemma wp_read (f : ι → σ → α) :
    wp E G (read f : Call σ ι ε α) Q X s ↔ ∀ i, E i → G s s ∧ Q (f i s) s := Iff.rfl

lemma wp_mono {Q' : α → σ → Prop} {X' : ε → σ → Prop} {c : Call σ ι ε α}
    (h : wp E G c Q X s) (hQ : ∀ a t, Q a t → Q' a t) (hX : ∀ e t, X e t → X' e t) :
    wp E G c Q' X' s := by
  induction c generalizing s with
  | pure a => exact hQ a s h
  | throw e => exact hX e s h
  | act eff next ih =>
    intro i hi
    obtain ⟨hstep, hrest⟩ := h i hi
    exact ⟨hstep, ih i s hrest⟩

/-- A property of the results of a loop that changes nothing. -/
lemma wp_mapM {f : α → Call σ ι ε β} {P : α → β → Prop} {as : List α}
    (h : ∀ a ∈ as, (f a).wp E G (fun b t => t = s ∧ P a b) X s) :
    (as.mapM f).wp E G (fun bs t => t = s ∧ ∀ b ∈ bs, ∃ a ∈ as, P a b) X s := by
  induction as with
  | nil => exact ⟨rfl, fun b hb => by cases hb⟩
  | cons a as ih =>
    rw [List.mapM_cons, wp_bind]
    refine wp_mono (h a List.mem_cons_self) ?_ fun _ _ hX => hX
    rintro b _ ⟨rfl, hb⟩
    rw [wp_bind]
    refine wp_mono (ih fun a ha => h a (List.mem_cons_of_mem _ ha)) ?_ fun _ _ hX => hX
    rintro bs _ ⟨rfl, hbs⟩
    refine ⟨rfl, fun b' hb' => ?_⟩
    rcases List.mem_cons.mp hb' with rfl | hb'
    · exact ⟨a, List.mem_cons_self, hb⟩
    · obtain ⟨a', ha', hP⟩ := hbs b' hb'
      exact ⟨a', List.mem_cons_of_mem _ ha', hP⟩

/-- Two descriptions of a call that share an input have an outcome in common. -/
lemma wp_meet {E' : ι → Prop} {G' : σ → σ → Prop} {Q' : α → σ → Prop} {X' : ε → σ → Prop}
    {c : Call σ ι ε α} (h : wp E G c Q X s) (h' : wp E' G' c Q' X' s) (hi : ∃ i, E i ∧ E' i) :
    (∃ a t, Q a t ∧ Q' a t) ∨ ∃ e t, X e t ∧ X' e t := by
  induction c generalizing s with
  | pure a => exact .inl ⟨a, s, h, h'⟩
  | throw e => exact .inr ⟨e, s, h, h'⟩
  | act eff next ih =>
    obtain ⟨i, hE, hE'⟩ := hi
    exact ih i s (h i hE).2 (h' i hE').2

/-- What the inputs `ω` make of a call. -/
def Outcome (G : σ → σ → Prop) (c : Call σ ι ε α) (Q : α → σ → Prop) (X : ε → σ → Prop)
    (ω : ℕ → ι) (s : σ) : Prop :=
  (∀ p ∈ c.trace ω s, G p.1 p.2) ∧
    match c.exec ω s with
    | (.ok a, t) => Q a t
    | (.error e, t) => X e t

lemma outcome_act (eff : ι → σ → σ) (next : ι → σ → Call σ ι ε α) (ω : ℕ → ι) :
    Outcome G (.act eff next) Q X ω s ↔
      G s (eff (ω 0) s) ∧ Outcome G (next (ω 0) s) Q X (fun n => ω (n + 1)) (eff (ω 0) s) := by
  simp [Outcome, trace, exec, and_assoc]

/-- **The predicate transformer is the run.** -/
theorem wp_iff_outcome (c : Call σ ι ε α) (hE : ∃ i, E i) :
    wp E G c Q X s ↔ ∀ ω, (∀ n, E (ω n)) → Outcome G c Q X ω s := by
  obtain ⟨i₀, hi₀⟩ := hE
  induction c generalizing s with
  | pure a => exact ⟨fun h ω _ => ⟨by simp [trace], h⟩, fun h => (h (fun _ => i₀) fun _ => hi₀).2⟩
  | throw e => exact ⟨fun h ω _ => ⟨by simp [trace], h⟩, fun h => (h (fun _ => i₀) fun _ => hi₀).2⟩
  | act eff next ih =>
    refine ⟨fun h ω hω => ?_, fun h i hi => ?_⟩
    · obtain ⟨hstep, hrest⟩ := h _ (hω 0)
      rw [outcome_act]
      exact ⟨hstep, (ih _ _).mp hrest _ fun n => hω (n + 1)⟩
    · -- put the input `i` in front of an arbitrary stream
      have key : ∀ ω : ℕ → ι, (∀ n, E (ω n)) →
          G s (eff i s) ∧ Outcome G (next i s) Q X ω (eff i s) := by
        intro ω hω
        have := h (fun n => n.casesOn i ω) fun n => by
          cases n with
          | zero => exact hi
          | succ n => exact hω n
        rwa [outcome_act] at this
      exact ⟨(key (fun _ => i₀) fun _ => hi₀).1, (ih _ _).mpr fun ω hω => (key ω hω).2⟩

/-- A run on inputs that satisfy `E`, read off the predicate transformer. -/
lemma wp_run {c : Call σ ι ε α} (h : wp E G c Q X s) {ω : ℕ → ι} (hω : ∀ n, E (ω n)) :
    Outcome G c Q X ω s :=
  (wp_iff_outcome c ⟨ω 0, hω 0⟩).mp h ω hω

/-- Whenever the call throws on inputs that satisfy `E`, the store it leaves satisfies `X`. -/
def OnThrow (E : ι → Prop) (c : Call σ ι ε α) (X : σ → Prop) (s : σ) : Prop :=
  ∀ ω, (∀ n, E (ω n)) → ∀ e t, c.exec ω s = (.error e, t) → X t

lemma onThrow_iff {c : Call σ ι ε α} {X : σ → Prop} (hE : ∃ i, E i) :
    OnThrow E c X s ↔ wp E (fun _ _ => True) c (fun _ _ => True) (fun _ t => X t) s := by
  rw [wp_iff_outcome c hE]
  refine forall₂_congr fun ω _ => ?_
  simp only [Outcome, implies_true, true_and]
  rcases c.exec ω s with ⟨e | a, t⟩ <;> simp

lemma OnThrow.of_run {c : Call σ ι ε α} {X : σ → Prop} {ω : ℕ → ι} (h : OnThrow E c X s)
    (hω : ∀ n, E (ω n)) (hthrows : (c.exec ω s).1.isOk = false) : X (c.exec ω s).2 := by
  rcases hexec : c.exec ω s with ⟨e | a, t⟩
  · exact h ω hω e t hexec
  · rw [hexec] at hthrows
    cases hthrows

/-- Whenever the call returns on inputs that satisfy `E`, its result and the store it leaves
satisfy `Q`. -/
def OnReturn (E : ι → Prop) (c : Call σ ι ε α) (Q : α → σ → Prop) (s : σ) : Prop :=
  ∀ ω, (∀ n, E (ω n)) → ∀ a t, c.exec ω s = (.ok a, t) → Q a t

lemma onReturn_iff {c : Call σ ι ε α} (hE : ∃ i, E i) :
    OnReturn E c Q s ↔ wp E (fun _ _ => True) c Q (fun _ _ => True) s := by
  rw [wp_iff_outcome c hE]
  refine forall₂_congr fun ω _ => ?_
  simp only [Outcome, implies_true, true_and]
  rcases c.exec ω s with ⟨e | a, t⟩ <;> simp

end Call

end TsaBackend
