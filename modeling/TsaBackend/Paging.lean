import Mathlib.Data.List.Nodup
import Mathlib.Data.List.Perm.Basic
import Mathlib.Data.List.Sort

/-!
Pages of a sorted list whose ties come in any order.

Each page is cut from an arrangement of its own: the same rows, sorted, with the equal ones in
any order. The pages hold every row once for all arrangements just when no two equal rows meet
at the border of two pages.
-/

namespace TsaBackend.Paging

variable {α : Type} {le : α → α → Prop} {rows l l' : List α} {size n k b : ℕ} {x y p : α}

/-- The rows `k * size`, ... of a list. -/
def pageOf (size k : ℕ) (l : List α) : List α := (l.drop (k * size)).take size

/-- The number of pages, `n / size` rounded up. -/
def pagesOf (size n : ℕ) : ℕ := (n + size - 1) / size

lemma pagesOf_mul_ge (hsize : 1 ≤ size) : n ≤ pagesOf size n * size := by
  have h := Nat.div_add_mod (n + size - 1) size
  have hmod := Nat.mod_lt (n + size - 1) hsize
  rw [pagesOf, Nat.mul_comm]
  omega

lemma lt_pagesOf (hsize : 1 ≤ size) : k < pagesOf size n ↔ k * size < n := by
  rw [pagesOf, Nat.lt_iff_add_one_le, Nat.le_div_iff_mul_le hsize, Nat.add_mul]
  omega

lemma flatMap_pageOf (size m : ℕ) (l : List α) :
    (List.range m).flatMap (fun k => pageOf size k l) = l.take (m * size) := by
  induction m with
  | zero => simp
  | succ m ih =>
    rw [List.range_succ, List.flatMap_append, ih, List.flatMap_singleton, pageOf, Nat.succ_mul,
      List.take_add]

/-- The rows in an order that the comparison allows. -/
structure Arrangement (le : α → α → Prop) (rows l : List α) : Prop where
  perm : l.Perm rows
  sorted : l.Pairwise le

/-- Just `b` rows come strictly before some row. -/
def SplitsAt (le : α → α → Prop) [DecidableRel le] (rows : List α) (b : ℕ) : Prop :=
  ∃ p ∈ rows, (rows.filter fun x => ¬ le p x).length = b

section Borders

variable [DecidableRel le] (htrans : ∀ x y z, le x y → le y z → le x z)

include htrans

/-- In a sorted list the rows before one of them are its first ones. -/
lemma filter_eq_take (hl : l.Pairwise le) (p : α) :
    l.filter (fun x => ¬ le p x) = l.take (l.filter fun x => ¬ le p x).length := by
  induction l with
  | nil => rfl
  | cons x l ih =>
    obtain ⟨hx, hl⟩ := List.pairwise_cons.mp hl
    by_cases hpx : le p x
    · -- no later row comes before `p` either
      have hnone : l.filter (fun x => ¬ le p x) = [] := by
        rw [List.filter_eq_nil_iff]
        intro y hy
        simpa using htrans p x y hpx (hx y hy)
      rw [List.filter_cons_of_neg (by simpa using hpx), hnone]
      rfl
    · rw [List.filter_cons_of_pos (by simpa using hpx), List.length_cons, List.take_succ_cons,
        ← ih hl]

lemma SplitsAt.take_perm (h : SplitsAt le rows b) (hl : Arrangement le rows l)
    (hl' : Arrangement le rows l') : (l.take b).Perm (l'.take b) := by
  obtain ⟨p, -, rfl⟩ := h
  have htake : ∀ {l}, Arrangement le rows l →
      l.take (rows.filter fun x => ¬ le p x).length = l.filter fun x => ¬ le p x := by
    intro l hl
    rw [filter_eq_take htrans hl.sorted p, (hl.perm.filter _).length_eq]
  rw [htake hl, htake hl']
  exact (hl.perm.trans hl'.perm.symm).filter _

lemma splitsAt_of_lt {A B : List α} (hl : Arrangement le rows (A ++ x :: y :: B))
    (hxy : ¬ le y x) (hrefl : le y y) : SplitsAt le rows (A.length + 1) := by
  obtain ⟨-, hright, hleft⟩ := List.pairwise_append.mp hl.sorted
  obtain ⟨-, hyB⟩ := List.pairwise_cons.mp hright
  obtain ⟨hy, -⟩ := List.pairwise_cons.mp hyB
  refine ⟨y, hl.perm.mem_iff.mp (by simp), ?_⟩
  have hA : A.filter (fun z => ¬ le y z) = A := by
    rw [List.filter_eq_self]
    intro z hz
    have hzx : le z x := hleft z hz x List.mem_cons_self
    simpa using fun hyz => hxy (htrans y z x hyz hzx)
  have hB : B.filter (fun z => ¬ le y z) = [] := by
    rw [List.filter_eq_nil_iff]
    intro z hz
    simpa using hy z hz
  rw [← (hl.perm.filter _).length_eq, List.filter_append, hA,
    List.filter_cons_of_pos (by simpa using hxy), List.filter_cons_of_neg (by simpa using hrefl),
    hB, List.length_append, List.length_singleton]

end Borders

lemma Arrangement.swap {A B : List α} (hl : Arrangement le rows (A ++ x :: y :: B))
    (hyx : le y x) : Arrangement le rows (A ++ y :: x :: B) := by
  refine ⟨((List.Perm.swap x y B).append_left A).trans hl.perm, ?_⟩
  obtain ⟨hA, hright, hleft⟩ := List.pairwise_append.mp hl.sorted
  obtain ⟨hx, hyB⟩ := List.pairwise_cons.mp hright
  obtain ⟨hy, hB⟩ := List.pairwise_cons.mp hyB
  refine List.pairwise_append.mpr ⟨hA, ?_, fun z hz w hw => hleft z hz w ?_⟩
  · refine List.pairwise_cons.mpr ⟨?_, List.pairwise_cons.mpr ⟨?_, hB⟩⟩
    · exact List.forall_mem_cons.mpr ⟨hyx, hy⟩
    · exact fun z hz => hx z (List.mem_cons_of_mem _ hz)
  · simp only [List.mem_cons] at hw ⊢
    tauto

/-! ### Borders, and the pages together -/

lemma exists_neighbours {l : List α} (hb : 0 < b) (hlt : b < l.length) :
    ∃ A x y B, l = A ++ x :: y :: B ∧ A.length + 1 = b := by
  obtain ⟨c, rfl⟩ := Nat.exists_eq_succ_of_ne_zero (Nat.ne_of_gt hb)
  refine ⟨l.take c, l[c], l[c + 1], l.drop (c + 1 + 1), ?_, ?_⟩
  · rw [List.getElem_cons_drop, List.getElem_cons_drop, List.take_append_drop]
  · rw [List.length_take]
    omega

lemma arrangement_insertionSort [DecidableRel le] (htotal : ∀ x y, le x y ∨ le y x)
    (htrans : ∀ x y z, le x y → le y z → le x z) (rows : List α) :
    Arrangement le rows (rows.insertionSort le) := by
  have : Std.Total le := ⟨htotal⟩
  have : IsTrans α le := ⟨htrans⟩
  exact ⟨List.perm_insertionSort le rows, List.pairwise_insertionSort le rows⟩

lemma splitsAt_of_antisymm [DecidableRel le] (htotal : ∀ x y, le x y ∨ le y x)
    (htrans : ∀ x y z, le x y → le y z → le x z) (hnodup : rows.Nodup)
    (hanti : ∀ x ∈ rows, ∀ y ∈ rows, le x y → le y x → x = y) (hb : 0 < b) (hlt : b < rows.length) :
    SplitsAt le rows b := by
  have hsorted := arrangement_insertionSort htotal htrans rows
  obtain ⟨A, x, y, B, hl, rfl⟩ := exists_neighbours (l := rows.insertionSort le) hb
    (by rwa [hsorted.perm.length_eq])
  rw [hl] at hsorted
  refine splitsAt_of_lt htrans hsorted (fun hyx => ?_) ((htotal y y).elim (fun h => h) fun h => h)
  have hright := (List.pairwise_append.mp hsorted.sorted).2.1
  obtain rfl := hanti x (hsorted.perm.mem_iff.mp (by simp)) y
    (hsorted.perm.mem_iff.mp (by simp)) ((List.pairwise_cons.mp hright).1 y List.mem_cons_self) hyx
  have hdistinct := (List.nodup_append.mp (hsorted.perm.nodup_iff.mpr hnodup)).2.1
  simp at hdistinct

lemma mem_pageOf_last {A B : List α} (hk : 0 < k) (hA : A.length + 1 = k * size) :
    x ∈ pageOf size (k - 1) (A ++ x :: B) := by
  have hmul : k * size = (k - 1) * size + size := by
    rw [← Nat.succ_mul]
    congr 1
    omega
  have hsize : 0 < size := by
    by_contra h
    simp [Nat.le_zero.mp (not_lt.mp h)] at hA
  refine List.mem_iff_getElem?.mpr ⟨size - 1, ?_⟩
  rw [pageOf, List.getElem?_take, if_pos (by omega), List.getElem?_drop,
    List.getElem?_append_right (by omega)]
  have hzero : (k - 1) * size + (size - 1) - A.length = 0 := by omega
  rw [hzero]
  rfl

lemma mem_pageOf_first {A B : List α} (hsize : 1 ≤ size) (hA : A.length = k * size) :
    x ∈ pageOf size k (A ++ x :: B) := by
  rw [pageOf, ← hA, List.drop_left]
  obtain ⟨m, rfl⟩ := Nat.exists_eq_add_of_le' hsize
  simp

lemma exists_on_both [DecidableRel le] (hrefl : ∀ x, le x x)
    (htrans : ∀ x y z, le x y → le y z → le x z) (hl : Arrangement le rows l) (hsize : 1 ≤ size)
    (hk : 0 < k) (hlt : k * size < rows.length) (hno : ¬ SplitsAt le rows (k * size)) :
    ∃ l', Arrangement le rows l' ∧ ∃ y, y ∈ pageOf size (k - 1) l' ∧ y ∈ pageOf size k l := by
  have hlen : l.length = rows.length := hl.perm.length_eq
  obtain ⟨A, x, y, B, rfl, hA⟩ := exists_neighbours (Nat.mul_pos hk hsize)
    (show k * size < l.length by omega)
  have hyx : le y x := by
    by_contra hyx
    rw [← hA] at hno
    exact hno (splitsAt_of_lt htrans hl hyx (hrefl y))
  refine ⟨A ++ y :: x :: B, hl.swap hyx, y, mem_pageOf_last hk hA, ?_⟩
  rw [List.append_cons]
  exact mem_pageOf_first hsize (by simpa using hA)

/-- Between borders a page holds the same rows in all arrangements. -/
lemma pageOf_perm [DecidableRel le] (htrans : ∀ x y z, le x y → le y z → le x z)
    (h : ∀ k, 0 < k → k * size < rows.length → SplitsAt le rows (k * size))
    (hl : Arrangement le rows l) (hl' : Arrangement le rows l') (k : ℕ) :
    (pageOf size k l).Perm (pageOf size k l') := by
  have htake : ∀ j, (l.take (j * size)).Perm (l'.take (j * size)) := by
    intro j
    rcases Nat.eq_zero_or_pos j with rfl | hj
    · simp
    by_cases hlt : j * size < rows.length
    · exact (h j hj hlt).take_perm htrans hl hl'
    · rw [List.take_of_length_le (by rw [hl.perm.length_eq]; omega),
        List.take_of_length_le (by rw [hl'.perm.length_eq]; omega)]
      exact hl.perm.trans hl'.perm.symm
  have hnext := htake (k + 1)
  rw [Nat.succ_mul, List.take_add, List.take_add] at hnext
  exact (List.perm_append_left_iff _).mp (((htake k).symm.append_right _).trans hnext)

variable (le rows) in
/-- **When pages partition the rows**: for any arrangements, one for each page, the pages hold
every row once, just when every page border inside the list is one of the rows. -/
theorem pages_partition_iff [DecidableRel le] (htotal : ∀ x y, le x y ∨ le y x)
    (htrans : ∀ x y z, le x y → le y z → le x z) (hnodup : rows.Nodup) (hsize : 1 ≤ size) :
    (∀ ls : ℕ → List α, (∀ k, Arrangement le rows (ls k)) →
      ((List.range (pagesOf size rows.length)).flatMap fun k => pageOf size k (ls k)).Perm rows) ↔
    ∀ k, 0 < k → k * size < rows.length → SplitsAt le rows (k * size) := by
  have hsorted := arrangement_insertionSort htotal htrans rows
  constructor
  · intro h k hk hlt
    by_contra hno
    have hrefl : ∀ x, le x x := fun x => (htotal x x).elim (fun h => h) fun h => h
    obtain ⟨l', hl', y, hfirst, hsecond⟩ := exists_on_both hrefl htrans hsorted hsize hk hlt hno
    let ls : ℕ → List α := fun j => if j = k - 1 then l' else rows.insertionSort le
    have hpages := h ls fun j => by
      by_cases hj : j = k - 1
      · simpa only [ls, if_pos hj] using hl'
      · simpa only [ls, if_neg hj] using hsorted
    have hdisjoint := (List.nodup_flatMap.mp (hpages.nodup_iff.mpr hnodup)).2
    have hkpages : k < pagesOf size rows.length := (lt_pagesOf hsize).mpr hlt
    have hpair := List.pairwise_iff_getElem.mp hdisjoint (k - 1) k
      (by rw [List.length_range]; omega) (by rw [List.length_range]; omega) (by omega)
    have hprevious : ls (k - 1) = l' := if_pos rfl
    have hnext : ls k = rows.insertionSort le := if_neg (by omega)
    rw [← hprevious] at hfirst
    rw [← hnext] at hsecond
    simp only [List.getElem_range] at hpair
    exact hpair hfirst hsecond
  · intro h ls hls
    refine (List.Perm.flatMap_left _ fun k _ => pageOf_perm htrans h (hls k) hsorted k).trans ?_
    rw [flatMap_pageOf, List.take_of_length_le]
    · exact hsorted.perm
    · rw [hsorted.perm.length_eq]
      exact pagesOf_mul_ge hsize

end TsaBackend.Paging
