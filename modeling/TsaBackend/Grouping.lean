import Mathlib.Algebra.BigOperators.Group.List.Basic
import Mathlib.Data.List.Nodup

/-!
Objects that collect items under keys: entries in the order of their first items, each entry
changed by its items and by no others.
-/

namespace TsaBackend.Grouping

variable {κ ν α : Type} [DecidableEq κ] {g : List (κ × ν)} {empty : ν} {j k : κ} {f : ν → ν}

/-- The entry of `k` changed by `f`, after it was made when there was none. -/
def upsert (empty : ν) (k : κ) (f : ν → ν) : List (κ × ν) → List (κ × ν)
  | [] => [(k, f empty)]
  | (j, v) :: g => if j = k then (j, f v) :: g else (j, v) :: upsert empty k f g

/-- The entry of a key. -/
def value (empty : ν) (k : κ) : List (κ × ν) → ν
  | [] => empty
  | (j, v) :: g => if j = k then v else value empty k g

def keys (g : List (κ × ν)) : List κ := g.map (·.1)

lemma mem_keys_upsert : j ∈ keys (upsert empty k f g) ↔ j = k ∨ j ∈ keys g := by
  induction g with
  | nil => simp [upsert, keys]
  | cons e g ih =>
    obtain ⟨i, v⟩ := e
    rw [upsert]
    split
    · next h =>
      subst h
      simp [keys]
    · have htail : j ∈ keys ((i, v) :: upsert empty k f g) ↔
          j = i ∨ j ∈ keys (upsert empty k f g) := by simp [keys]
      rw [htail, ih]
      simp only [keys, List.map_cons, List.mem_cons]
      exact or_left_comm

lemma nodup_upsert (h : (keys g).Nodup) : (keys (upsert empty k f g)).Nodup := by
  induction g with
  | nil => simp [upsert, keys]
  | cons e g ih =>
    obtain ⟨i, v⟩ := e
    obtain ⟨hi, hg⟩ := List.nodup_cons.mp h
    rw [upsert]
    split
    · exact List.nodup_cons.mpr ⟨hi, hg⟩
    · next hne =>
      refine List.nodup_cons.mpr ⟨fun hmem => ?_, ih hg⟩
      rcases mem_keys_upsert.mp hmem with heq | hmem
      · exact hne heq
      · exact hi hmem

lemma value_upsert : value empty j (upsert empty k f g) =
    if j = k then f (value empty j g) else value empty j g := by
  induction g with
  | nil =>
    by_cases h : j = k
    · subst h
      simp [upsert, value]
    · simp [upsert, value, h, Ne.symm h]
  | cons e g ih =>
    obtain ⟨i, v⟩ := e
    rw [upsert]
    by_cases hik : i = k
    · subst hik
      by_cases hj : i = j
      · subst hj
        simp [value]
      · simp [value, hj, Ne.symm hj]
    · rw [if_neg hik]
      by_cases hij : i = j
      · subst hij
        simp [value, hik]
      · simpa [value, hij] using ih

/-! ### A list of items -/

/-- The items of a list collected one after another. -/
def collect (empty : ν) (key : α → κ) (f : α → ν → ν) (g : List (κ × ν)) (items : List α) :
    List (κ × ν) :=
  items.foldl (fun g x => upsert empty (key x) (f x) g) g

variable {key : α → κ} {f : α → ν → ν} {items : List α}

lemma mem_keys_collect : j ∈ keys (collect empty key f g items) ↔
    j ∈ keys g ∨ ∃ x ∈ items, key x = j := by
  induction items generalizing g with
  | nil => simp [collect]
  | cons x items ih =>
    have hstep : collect empty key f g (x :: items) =
        collect empty key f (upsert empty (key x) (f x) g) items := rfl
    rw [hstep, ih, mem_keys_upsert]
    simp only [List.mem_cons, exists_eq_or_imp]
    constructor
    · rintro ((h | h) | h)
      · exact .inr (.inl h.symm)
      · exact .inl h
      · exact .inr (.inr h)
    · rintro (h | h | h)
      · exact .inl (.inr h)
      · exact .inl (.inl h.symm)
      · exact .inr h

lemma nodup_collect (h : (keys g).Nodup) : (keys (collect empty key f g items)).Nodup := by
  induction items generalizing g with
  | nil => exact h
  | cons x items ih => exact ih (nodup_upsert h)

/-- **An entry is what its own items make of it.** -/
theorem value_collect : value empty j (collect empty key f g items) =
    (items.filter fun x => key x = j).foldl (fun v x => f x v) (value empty j g) := by
  induction items generalizing g with
  | nil => rfl
  | cons x items ih =>
    have hstep : collect empty key f g (x :: items) =
        collect empty key f (upsert empty (key x) (f x) g) items := rfl
    rw [hstep, ih, value_upsert]
    by_cases h : key x = j
    · rw [if_pos h.symm, List.filter_cons_of_pos (by simpa using h), List.foldl_cons]
    · rw [if_neg (Ne.symm h), List.filter_cons_of_neg (by simpa using h)]

variable (key items) in
/-- **Nothing is lost or counted twice**: the sums over the items of each key add up to the sum
over all items. -/
theorem sum_by_key {M : Type} [AddCommMonoid M] {ks : List κ} (w : α → M) (hks : ks.Nodup)
    (hmem : ∀ x ∈ items, key x ∈ ks) :
    (ks.map fun k => ((items.filter fun x => key x = k).map w).sum).sum = (items.map w).sum := by
  induction items with
  | nil => simp
  | cons x items ih =>
    have hrest := ih fun y hy => hmem y (List.mem_cons_of_mem _ hy)
    have hone : (ks.map fun k => if key x = k then w x else 0).sum = w x := by
      rw [List.sum_map_eq_nsmul_single (key x) _ fun k hk _ => if_neg (Ne.symm hk),
        List.count_eq_one_of_mem hks (hmem x List.mem_cons_self), if_pos rfl, one_nsmul]
    have hsplit : ∀ k, (((x :: items).filter fun x => key x = k).map w).sum =
        (if key x = k then w x else 0) + ((items.filter fun x => key x = k).map w).sum := by
      intro k
      by_cases hxk : key x = k <;> simp [hxk]
    simp only [hsplit]
    rw [List.sum_map_add, hone, hrest, List.map_cons, List.sum_cons]

end TsaBackend.Grouping
