import Mathlib.Data.Fintype.EquivFin
import Mathlib.Data.List.AList
import Mathlib.Data.List.Permutation
import Mathlib.Data.List.Sort
import Mathlib.Data.Prod.Lex

/-!
Keyed tables: association lists without duplicate keys, whose rows can be changed in place
and searched by a condition.

A search may return any of the matching rows, and rows come in any order; which one it is, is an
argument, the number of the order or the ranks of the rows.
-/

namespace TsaBackend

variable {κ ρ : Type} [DecidableEq κ]

/-- A table of rows `ρ` with primary key `κ`. -/
abbrev Table (κ ρ : Type) : Type := AList (fun _ : κ => ρ)

namespace Table

/-- The table with `f` applied to the row of key `k`. -/
def modify (t : Table κ ρ) (k : κ) (f : ρ → ρ) : Table κ ρ where
  entries := t.entries.map fun e => if e.1 = k then ⟨e.1, f e.2⟩ else e
  nodupKeys := by
    have h : ∀ e : (_ : κ) × ρ, (if e.1 = k then ⟨e.1, f e.2⟩ else e : (_ : κ) × ρ).1 = e.1 := by
      intro e; split <;> rfl
    simpa [List.NodupKeys, List.keys, List.map_map, Function.comp_def, h] using t.nodupKeys

/-- The table with `f` applied to every row. -/
def mapRows (t : Table κ ρ) (f : ρ → ρ) : Table κ ρ where
  entries := t.entries.map fun e => ⟨e.1, f e.2⟩
  nodupKeys := by
    simpa [List.NodupKeys, List.keys, List.map_map, Function.comp_def] using t.nodupKeys

/-- The table without the rows that do not satisfy `p`. -/
def filter (t : Table κ ρ) (p : κ → ρ → Bool) : Table κ ρ where
  entries := t.entries.filter fun e => p e.1 e.2
  nodupKeys := (List.filter_sublist.map Sigma.fst).nodup t.nodupKeys

/-- The rows that satisfy `p`. -/
def matching (t : Table κ ρ) (p : κ → ρ → Bool) : List ((_ : κ) × ρ) :=
  t.entries.filter fun e => p e.1 e.2

/-- One of the rows that satisfy `p`; `pick` says which. -/
def findFirst (t : Table κ ρ) (pick : ℕ) (p : κ → ρ → Bool) : Option (κ × ρ) :=
  ((t.matching p)[pick % (t.matching p).length]?).map fun e => (e.1, e.2)

/-- Each row of a list can be the one that is picked. -/
lemma exists_pick {α : Type} {l : List α} {a : α} (h : a ∈ l) :
    ∃ pick, l[pick % l.length]? = some a := by
  obtain ⟨n, hn, hget⟩ := List.mem_iff_getElem.mp h
  refine ⟨n, ?_⟩
  rw [Nat.mod_eq_of_lt hn, List.getElem?_eq_getElem hn, hget]

/-- No row is picked only where there is none. -/
lemma pick_eq_none {α : Type} {l : List α} {pick : ℕ} :
    l[pick % l.length]? = none ↔ l = [] := by
  rw [List.getElem?_eq_none_iff]
  refine ⟨fun h => List.length_eq_zero_iff.mp ?_, fun h => by simp [h]⟩
  by_contra hne
  have hlt : pick % l.length < l.length := Nat.mod_lt pick (Nat.pos_of_ne_zero hne)
  omega

/-- The rows in some order; `pick` says which. -/
def anyOrder {α : Type} (pick : ℕ) (rows : List α) : List α :=
  (rows.permutations'[pick % rows.permutations'.length]?).getD rows

lemma anyOrder_perm {α : Type} (pick : ℕ) (rows : List α) : (anyOrder pick rows).Perm rows := by
  unfold anyOrder
  rcases h : rows.permutations'[pick % rows.permutations'.length]? with _ | l
  · exact .refl _
  · exact List.mem_permutations'.mp (List.mem_of_getElem? h)

variable {t : Table κ ρ} {j k : κ} {r : ρ} {p : κ → ρ → Bool}

lemma lookup_eq_some : t.lookup k = some r ↔ ⟨k, r⟩ ∈ t.entries := by
  rw [← AList.mem_lookup_iff, Option.mem_def]

lemma mem_iff_lookup : k ∈ t ↔ ∃ r, t.lookup k = some r := by
  rw [← AList.lookup_isSome, Option.isSome_iff_exists]

lemma lookup_modify (t : Table κ ρ) (j k : κ) (f : ρ → ρ) :
    (t.modify k f).lookup j = if j = k then (t.lookup k).map f else t.lookup j := by
  ext r
  rw [lookup_eq_some]
  simp only [modify, List.mem_map]
  by_cases h : j = k
  · subst h
    simp only [if_true, Option.map_eq_some_iff, lookup_eq_some]
    constructor
    · rintro ⟨⟨a, b⟩, he, heq⟩
      split at heq
      · next h => cases heq; exact ⟨b, h ▸ he, rfl⟩
      · next h => cases heq; exact absurd rfl h
    · rintro ⟨b, hb, rfl⟩
      exact ⟨⟨j, b⟩, hb, by simp⟩
  · rw [if_neg h, lookup_eq_some]
    constructor
    · rintro ⟨⟨a, b⟩, he, heq⟩
      split at heq
      · next h' => cases heq; exact absurd h' h
      · cases heq; exact he
    · exact fun hb => ⟨⟨j, r⟩, hb, by simp [h]⟩

@[simp] lemma lookup_modify_self (t : Table κ ρ) (k : κ) (f : ρ → ρ) :
    (t.modify k f).lookup k = (t.lookup k).map f := by simp [lookup_modify]

@[simp] lemma lookup_modify_ne (t : Table κ ρ) (f : ρ → ρ) (h : j ≠ k) :
    (t.modify k f).lookup j = t.lookup j := by simp [lookup_modify, h]

@[simp] lemma mem_modify (t : Table κ ρ) (f : ρ → ρ) : j ∈ t.modify k f ↔ j ∈ t := by
  rw [mem_iff_lookup, mem_iff_lookup, lookup_modify]
  split
  · next h => subst h; simp
  · rfl

lemma lookup_filter (t : Table κ ρ) (p : κ → ρ → Bool) (k : κ) :
    (t.filter p).lookup k = (t.lookup k).filter fun r => p k r := by
  ext r
  rw [lookup_eq_some, Option.filter_eq_some_iff, lookup_eq_some]
  simp [filter]

lemma filter_same : (∀ k, (t.filter p).lookup k = t.lookup k) ↔
    ∀ k r, t.lookup k = some r → p k r = true := by
  refine forall_congr' fun k => ?_
  rw [lookup_filter]
  rcases t.lookup k with _ | r <;> simp [Option.filter_some]

lemma lookup_mapRows (t : Table κ ρ) (f : ρ → ρ) (k : κ) :
    (t.mapRows f).lookup k = (t.lookup k).map f := by
  ext r
  rw [lookup_eq_some, Option.map_eq_some_iff]
  simp only [mapRows, List.mem_map, Sigma.mk.injEq, lookup_eq_some]
  constructor
  · rintro ⟨⟨j, r'⟩, hmem, rfl, hr⟩
    exact ⟨r', hmem, eq_of_heq hr⟩
  · rintro ⟨r', hmem, rfl⟩
    exact ⟨⟨k, r'⟩, hmem, rfl, HEq.rfl⟩

lemma mapRows_same {f : ρ → ρ} : (∀ k, (t.mapRows f).lookup k = t.lookup k) ↔
    ∀ k r, t.lookup k = some r → f r = r := by
  refine forall_congr' fun k => ?_
  rw [lookup_mapRows]
  rcases t.lookup k with _ | r <;> simp

lemma modify_modify (t : Table κ ρ) (k : κ) (f g : ρ → ρ) :
    (t.modify k f).modify k g = t.modify k (g ∘ f) := by
  refine AList.ext ?_
  simp only [modify, List.map_map]
  refine List.map_congr_left fun e _ => ?_
  by_cases h : e.1 = k <;> simp [h]

/-- Rows are changed independently of each other. -/
lemma modify_comm (t : Table κ ρ) (f g : ρ → ρ) (h : j ≠ k) :
    (t.modify j f).modify k g = (t.modify k g).modify j f := by
  refine AList.ext ?_
  simp only [modify, List.map_map]
  refine List.map_congr_left fun e _ => ?_
  rcases eq_or_ne e.1 j with rfl | hj
  · simp [h]
  · rcases eq_or_ne e.1 k with rfl | hk
    · simp [hj]
    · simp [hj, hk]

@[simp] lemma keys_modify (t : Table κ ρ) (k : κ) (f : ρ → ρ) : (t.modify k f).keys = t.keys := by
  simp only [AList.keys, List.keys, modify, List.map_map]
  refine List.map_congr_left fun e _ => ?_
  by_cases h : e.1 = k <;> simp [h]

/-- Tables with the same keys in the same order are told apart by their rows. -/
lemma ext_lookup {t' : Table κ ρ} (hk : t.keys = t'.keys) (h : ∀ k, t.lookup k = t'.lookup k) :
    t = t' := by
  refine AList.ext ?_
  have hlen : t.entries.length = t'.entries.length := by
    simpa [AList.keys, List.keys] using congrArg List.length hk
  refine List.ext_getElem hlen fun n hn hn' => ?_
  have hfst : t.entries[n].1 = t'.entries[n].1 := by
    have := List.getElem_of_eq hk (i := n) (by simpa [AList.keys, List.keys] using hn)
    simpa [AList.keys, List.keys] using this
  have h₁ : t.lookup t.entries[n].1 = some t.entries[n].2 :=
    lookup_eq_some.mpr (List.getElem_mem hn)
  have h₂ : t'.lookup t'.entries[n].1 = some t'.entries[n].2 :=
    lookup_eq_some.mpr (List.getElem_mem hn')
  rw [← hfst, ← h, h₁, Option.some.injEq] at h₂
  exact Sigma.ext hfst (heq_of_eq h₂)

lemma modify_congr {f g : ρ → ρ} (h : ∀ r, t.lookup k = some r → f r = g r) :
    t.modify k f = t.modify k g := by
  refine ext_lookup (by simp) fun j => ?_
  simp only [lookup_modify]
  split
  · exact Option.map_congr fun r hr => h r hr
  · rfl

/-- A search whose condition a change does not touch finds the same key. -/
lemma findFirst_modify {pick : ℕ} {f : ρ → ρ} (h : ∀ k r, p k (f r) = p k r) :
    (t.modify k f).findFirst pick p =
      (t.findFirst pick p).map fun e => (e.1, if e.1 = k then f e.2 else e.2) := by
  have hm : (t.modify k f).matching p =
      (t.matching p).map fun e => if e.1 = k then ⟨e.1, f e.2⟩ else e := by
    simp only [matching, modify, List.filter_map]
    congr 1
    refine List.filter_congr fun e _ => ?_
    by_cases he : e.1 = k <;> simp [he, h]
  simp only [findFirst, hm, List.length_map, List.getElem?_map, Option.map_map]
  congr 1
  funext e
  by_cases he : e.1 = k <;> simp [he]

lemma findFirst_some {pick : ℕ} (h : t.findFirst pick p = some (k, r)) :
    t.lookup k = some r ∧ p k r = true := by
  obtain ⟨⟨a, b⟩, he, heq⟩ := Option.map_eq_some_iff.mp h
  obtain ⟨rfl, rfl⟩ := Prod.mk.injEq .. ▸ heq
  have := List.mem_filter.mp (List.mem_of_getElem? he)
  exact ⟨lookup_eq_some.mpr this.1, this.2⟩

lemma findFirst_none {pick : ℕ} :
    t.findFirst pick p = none ↔ ∀ k r, t.lookup k = some r → p k r = false := by
  have hlen : t.findFirst pick p = none ↔ t.matching p = [] := by
    rw [findFirst, Option.map_eq_none_iff, pick_eq_none]
  rw [hlen, matching, List.filter_eq_nil_iff]
  refine ⟨fun h k r hk => ?_, fun h e he => ?_⟩
  · simpa using h ⟨k, r⟩ (lookup_eq_some.mp hk)
  · simpa using h e.1 e.2 (lookup_eq_some.mpr he)

lemma exists_findFirst (hk : t.lookup k = some r) (hp : p k r = true) :
    ∃ pick, t.findFirst pick p = some (k, r) := by
  have hmem : (⟨k, r⟩ : (_ : κ) × ρ) ∈ t.matching p :=
    List.mem_filter.mpr ⟨lookup_eq_some.mp hk, hp⟩
  obtain ⟨pick, hpick⟩ := exists_pick hmem
  refine ⟨pick, ?_⟩
  rw [findFirst, hpick]
  rfl

lemma exists_notMem [Infinite κ] (t : Table κ ρ) : ∃ k, k ∉ t := by
  obtain ⟨k, hk⟩ := Infinite.exists_notMem_finset t.keys.toFinset
  exact ⟨k, fun h => hk (List.mem_toFinset.mpr h)⟩

/-! ### Rows by rank and new rows -/

section

variable {κ ρ : Type} [LinearOrder κ] {s t : Table κ ρ} {p : ρ → Bool} {rank : κ → ℕ}

/-- The rows that satisfy `p`, by their ranks. -/
def ranked (t : Table κ ρ) (rank : κ → ℕ) (p : ρ → Bool) : List (κ × ρ) :=
  ((t.matching fun _ r => p r).map fun e => (e.1, e.2)).insertionSort fun a b =>
    toLex (rank a.1, a.1) ≤ toLex (rank b.1, b.1)

lemma mem_ranked {k : κ} {r : ρ} :
    (k, r) ∈ t.ranked rank p ↔ t.lookup k = some r ∧ p r = true := by
  rw [ranked, List.mem_insertionSort, lookup_eq_some]
  simp [matching, and_comm]

lemma ranked_nodup : (t.ranked rank p).Nodup := by
  rw [ranked, (List.perm_insertionSort _ _).nodup_iff]
  refine List.Nodup.of_map Prod.fst ?_
  rw [List.map_map]
  exact (List.filter_sublist.map Sigma.fst).nodup t.nodupKeys

/-- **Tables with the same matching rows** return them in the same order. -/
theorem ranked_congr (h : ∀ k, (s.lookup k).filter p = (t.lookup k).filter p) :
    s.ranked rank p = t.ranked rank p := by
  have hmem : ∀ {t : Table κ ρ} {e : κ × ρ},
      e ∈ t.ranked rank p ↔ (t.lookup e.1).filter p = some e.2 := fun {t e} => by
    rw [Option.filter_eq_some_iff, ← mem_ranked]
  have hperm : (s.ranked rank p).Perm (t.ranked rank p) :=
    (List.perm_ext_iff_of_nodup ranked_nodup ranked_nodup).mpr fun e => by rw [hmem, hmem, h]
  let le : κ × ρ → κ × ρ → Prop := fun a b => toLex (rank a.1, a.1) ≤ toLex (rank b.1, b.1)
  have : Std.Total le := ⟨fun _ _ => le_total _ _⟩
  have : IsTrans (κ × ρ) le := ⟨fun _ _ _ => le_trans⟩
  refine List.Perm.eq_of_pairwise (fun a b ha hb (hab : le a b) (hba : le b a) => ?_)
    (List.pairwise_insertionSort le _) (List.pairwise_insertionSort le _) hperm
  have hkey : a.1 = b.1 := congrArg (fun x => (ofLex x).2) (le_antisymm hab hba)
  rw [hmem, h, hkey] at ha
  rw [hmem, ha, Option.some.injEq] at hb
  exact Prod.ext hkey hb

end

variable {s t' : Table κ ρ} {rows : List (κ × ρ)}

/-- The table with new rows, whose keys must be new. -/
def insertNew (t : Table κ ρ) : List (κ × ρ) → Option (Table κ ρ)
  | [] => some t
  | (k, r) :: rows => if k ∈ t then none else insertNew (t.insert k r) rows

lemma insertNew_lookup (h : t.insertNew rows = some t') :
    t'.lookup k = t.lookup k ∨
      t.lookup k = none ∧ ∃ e ∈ rows, e.1 = k ∧ t'.lookup k = some e.2 := by
  induction rows generalizing t with
  | nil =>
    cases h
    exact .inl rfl
  | cons e rows ih =>
    obtain ⟨j, r⟩ := e
    unfold insertNew at h
    split at h
    · cases h
    next hj =>
    have hnone := AList.lookup_eq_none.mpr hj
    by_cases hk : k = j
    · subst hk
      rcases ih h with heq | ⟨hnew, -⟩
      · exact .inr ⟨hnone, (k, r), by simp, rfl, by rw [heq, AList.lookup_insert]⟩
      · rw [AList.lookup_insert] at hnew
        cases hnew
    · rcases ih h with heq | ⟨hnew, e, he, heq⟩
      · exact .inl (by rw [heq, AList.lookup_insert_ne hk])
      · rw [AList.lookup_insert_ne hk] at hnew
        exact .inr ⟨hnew, e, List.mem_cons_of_mem _ he, heq⟩

/-- **The same new rows in two tables.** -/
theorem insertNew_congr (h : ∀ e ∈ rows, e.1 ∈ s ↔ e.1 ∈ t) :
    s.insertNew rows = none ∧ t.insertNew rows = none ∨
      ∃ s' t', s.insertNew rows = some s' ∧ t.insertNew rows = some t' ∧
        ∀ p : ρ → Bool, (∀ k, (s.lookup k).filter p = (t.lookup k).filter p) →
          ∀ k, (s'.lookup k).filter p = (t'.lookup k).filter p := by
  induction rows generalizing s t with
  | nil => exact .inr ⟨s, t, rfl, rfl, fun p hp => hp⟩
  | cons e rows ih =>
    obtain ⟨j, r⟩ := e
    have hj : j ∈ s ↔ j ∈ t := h (j, r) List.mem_cons_self
    unfold insertNew
    by_cases hs : j ∈ s
    · rw [if_pos hs, if_pos (hj.mp hs)]
      exact .inl ⟨rfl, rfl⟩
    rw [if_neg hs, if_neg fun ht => hs (hj.mpr ht)]
    have hkeys : ∀ e ∈ rows, e.1 ∈ s.insert j r ↔ e.1 ∈ t.insert j r := by
      intro e he
      rw [AList.mem_insert, AList.mem_insert, h e (List.mem_cons_of_mem _ he)]
    rcases ih hkeys with hnone | ⟨s', t', hs', ht', hsame⟩
    · exact .inl hnone
    · refine .inr ⟨s', t', hs', ht', fun p hp => hsame p fun k => ?_⟩
      by_cases hk : k = j
      · subst hk
        rw [AList.lookup_insert, AList.lookup_insert]
      · rw [AList.lookup_insert_ne hk, AList.lookup_insert_ne hk, hp]

end Table

end TsaBackend
