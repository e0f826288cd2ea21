import Mathlib.Algebra.BigOperators.Group.List.Basic
import Mathlib.Order.Lattice

/-!
Charges by tier, and charges added in a loop over a list of entries.

A table of three tiers grows with its argument when its charges grow, and a loop over entries
that exclude one another adds one charge at most.
-/

namespace TsaBackend.Tiers

section Tier

variable {α β : Type} [LinearOrder α] {lo hi x y : α} {a b c : β}

/-- The charge below `lo`, from `lo` to `hi`, and above. -/
def tier (lo hi : α) (a b c : β) (x : α) : β :=
  if x < lo then a else if lo ≤ x ∧ x ≤ hi then b else c

lemma tier_mem (lo hi : α) (a b c : β) (x : α) : tier lo hi a b c x ∈ [a, b, c] := by
  unfold tier
  split
  · simp
  · split <;> simp

lemma tier_le_tier [Preorder β] (hab : a ≤ b) (hbc : b ≤ c) (h : x ≤ y) :
    tier lo hi a b c x ≤ tier lo hi a b c y := by
  unfold tier
  by_cases hx : x < lo
  · rw [if_pos hx]
    split
    · exact le_refl a
    · split
      · exact hab
      · exact le_trans hab hbc
  · have hlo : lo ≤ x := le_of_not_gt hx
    have hlo' : lo ≤ y := le_trans hlo h
    rw [if_neg hx, if_neg (not_lt_of_ge hlo')]
    by_cases hy : y ≤ hi
    · rw [if_pos ⟨hlo, le_trans h hy⟩, if_pos ⟨hlo', hy⟩]
    · have hy' : ¬ (lo ≤ y ∧ y ≤ hi) := fun hboth => hy hboth.2
      rw [if_neg hy']
      split
      · exact hbc
      · exact le_refl c

end Tier

section Entries

variable {α M : Type} {applies : α → Bool} {entries : List (α × M)}

def applicable (applies : α → Bool) (entries : List (α × M)) : List (α × M) :=
  entries.filter fun e => applies e.1

/-- No two entries apply together. -/
def Exclusive (applies : α → Bool) (entries : List (α × M)) : Prop :=
  entries.Pairwise fun e e' => applies e.1 = true → applies e'.1 = false

lemma length_applicable_le_one (h : Exclusive applies entries) :
    (applicable applies entries).length ≤ 1 := by
  have hpair : (applicable applies entries).Pairwise
      fun e e' => applies e.1 = true → applies e'.1 = false := List.Pairwise.filter _ h
  rcases hlist : applicable applies entries with _ | ⟨e, _ | ⟨e', rest⟩⟩
  · simp
  · simp
  · have he : ∀ x ∈ applicable applies entries, applies x.1 = true :=
      fun x hx => (List.mem_filter.mp hx).2
    rw [hlist] at hpair he
    have hno := List.rel_of_pairwise_cons hpair (List.mem_cons_self) (he e (by simp))
    rw [he e' (by simp)] at hno
    cases hno

variable [AddMonoid M]

/-- The loop that adds the charge of each entry that applies. -/
def addCharges (applies : α → Bool) (entries : List (α × M)) (total : M) : M :=
  entries.foldl (fun total e => if applies e.1 then total + e.2 else total) total

/-- What the entries that apply add up to. -/
def charges (applies : α → Bool) (entries : List (α × M)) : M :=
  ((applicable applies entries).map Prod.snd).sum

lemma addCharges_eq (applies : α → Bool) (entries : List (α × M)) (total : M) :
    addCharges applies entries total = total + charges applies entries := by
  unfold addCharges charges applicable
  induction entries generalizing total with
  | nil => simp
  | cons e entries ih =>
    rw [List.foldl_cons, ih]
    by_cases he : applies e.1 = true
    · simp [he, add_assoc]
    · simp [he]

/-- Exclusive entries charge nothing or the charge of one of them. -/
lemma charges_cases (h : Exclusive applies entries) :
    charges applies entries = 0 ∨ ∃ e ∈ entries, charges applies entries = e.2 := by
  unfold charges
  rcases hlist : applicable applies entries with _ | ⟨e, rest⟩
  · exact .inl rfl
  · have hlength := length_applicable_le_one h
    rw [hlist, List.length_cons] at hlength
    obtain rfl : rest = [] := List.eq_nil_of_length_eq_zero (by omega)
    have he : e ∈ applicable applies entries := by simp [hlist]
    exact .inr ⟨e, List.mem_of_mem_filter he, by simp⟩

end Entries

end TsaBackend.Tiers
