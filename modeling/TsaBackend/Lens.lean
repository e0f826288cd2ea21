import TsaBackend.Call

/-!
Calls on a part of a store.

A lens says which part of a store another one is. A call on the part runs on the whole store:
it reads and writes the part and leaves the rest.
-/

namespace TsaBackend

/-- A part `σ` of a store `τ`. -/
structure Lens (τ σ : Type) where
  get : τ → σ
  set : σ → τ → τ
  get_set : ∀ s t, get (set s t) = s
  set_get : ∀ t, set (get t) t = t
  set_set : ∀ s s' t, set s (set s' t) = set s t

attribute [simp] Lens.get_set Lens.set_get Lens.set_set

namespace Call

variable {σ τ ι κ ε α : Type}

/-- The call on the whole store; `f` is what the part reads of the inputs. -/
def zoom (L : Lens τ σ) (f : κ → ι) : Call σ ι ε α → Call τ κ ε α
  | .pure a => .pure a
  | .throw e => .throw e
  | .act eff next => .act (fun i t => L.set (eff (f i) (L.get t)) t)
      fun i t => (next (f i) (L.get t)).zoom L f

/-- **A call on a part runs as it does alone**, and leaves the rest. -/
theorem exec_zoom (L : Lens τ σ) (f : κ → ι) (c : Call σ ι ε α) (ω : ℕ → κ) (t : τ) :
    (c.zoom L f).exec ω t =
      ((c.exec (fun n => f (ω n)) (L.get t)).1, L.set (c.exec (fun n => f (ω n)) (L.get t)).2 t) := by
  induction c generalizing ω t with
  | pure a => simp [zoom, exec]
  | throw e => simp [zoom, exec]
  | act eff next ih =>
    rw [zoom, exec, ih]
    simp [exec]

lemma exec_map {β : Type} (c : Call σ ι ε α) (f : α → β) (ω : ℕ → ι) (s : σ) :
    (c >>= fun a => (Pure.pure (f a) : Call σ ι ε β)).exec ω s =
      ((c.exec ω s).1.map f, (c.exec ω s).2) := by
  induction c generalizing ω s with
  | pure a => rfl
  | throw e => rfl
  | act eff next ih => exact ih _ _ _ _

lemma exec_atomic_drop (f : ι → σ → Except ε (α × σ)) (ω : ℕ → ι) (s : σ) :
    (∃ a t, f (ω 0) s = .ok (a, t) ∧
      ((atomic f >>= fun _ => (Pure.pure () : Call σ ι ε Unit)).exec ω s).2 = t) ∨
    (∃ e, f (ω 0) s = .error e) ∧
      ((atomic f >>= fun _ => (Pure.pure () : Call σ ι ε Unit)).exec ω s).2 = s := by
  rw [exec_atomic_bind]
  rcases f (ω 0) s with e | ⟨a, t⟩
  · exact .inr ⟨⟨e, rfl⟩, rfl⟩
  · exact .inl ⟨a, t, rfl, rfl⟩

end Call

end TsaBackend
