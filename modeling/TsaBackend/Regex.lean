import Mathlib.Data.List.Basic
import Mathlib.Data.List.TakeWhile
import Mathlib.Tactic.Common

/-!
Regular expressions that are matched by backtracking: the leftmost match, and from one start the
first one in the order in which a greedy quantifier tries.

A quantifier repeats one class of characters.
-/

namespace TsaBackend

inductive Regex (α : Type)
  | empty
  | char (p : α → Bool)
  /-- `*`, which tries the longest run first. -/
  | many (p : α → Bool)
  | seq (r s : Regex α)
  | group (r : Regex α)

namespace Regex

variable {α β : Type} {r s : Regex α} {p : α → Bool} {c : α} {l w : List α}

/-- What a match has read, what it leaves, and the texts of its groups. -/
structure Match (α : Type) where
  taken : List α
  rest : List α
  groups : List (List α)
  deriving DecidableEq, Repr

def Match.append (m m' : Match α) : Match α :=
  ⟨m.taken ++ m'.taken, m'.rest, m.groups ++ m'.groups⟩

def Match.capture (m : Match α) : Match α := { m with groups := m.taken :: m.groups }

/-- The runs of a class at the start of a text and what follows them, the longest first. -/
def runs (p : α → Bool) : List α → List (List α × List α)
  | [] => [([], [])]
  | c :: l => if p c then (runs p l).map (fun e => (c :: e.1, e.2)) ++ [([], c :: l)]
    else [([], c :: l)]

/-- The ways to match at the start of a text, in the order in which they are tried. -/
def successes : Regex α → List α → List (Match α)
  | .empty, l => [⟨[], l, []⟩]
  | .char _, [] => []
  | .char p, c :: l => if p c then [⟨[c], l, []⟩] else []
  | .many p, l => (runs p l).map fun e => ⟨e.1, e.2, []⟩
  | .seq r s, l => (r.successes l).flatMap fun m => (s.successes m.rest).map m.append
  | .group r, l => (r.successes l).map Match.capture

/-- The match at the start of a text. -/
def first (r : Regex α) (l : List α) : Option (Match α) := (r.successes l).head?

/-- The places where a match can start, from the left. -/
def starts : List α → List (List α × List α)
  | [] => [([], [])]
  | c :: l => ([], c :: l) :: (starts l).map fun e => (c :: e.1, e.2)

/-- The leftmost match, with the text before it. -/
def firstMatch (r : Regex α) (l : List α) : Option (List α × Match α) :=
  (starts l).findSome? fun e => (r.first e.2).map fun m => (e.1, m)

/-- A fixed text. -/
def lit [DecidableEq α] (w : List α) : Regex α :=
  w.foldr (fun c r => .seq (.char fun d => d = c) r) .empty

/-- `+`, greedy as well. -/
def plus (p : α → Bool) : Regex α := .seq (.char p) (.many p)

/-- The first success in a list of attempts, given in the order `R`. -/
lemma findSome?_iff_of_pairwise {γ : Type} {R : γ → γ → Prop} {as : List γ} {f : γ → Option β}
    {x : β} (hR : ∀ a b, R a b → ¬ R b a) (has : as.Pairwise R) :
    as.findSome? f = some x ↔ ∃ a ∈ as, f a = some x ∧ ∀ b ∈ as, R b a → f b = none := by
  constructor
  · intro h
    obtain ⟨before, a, after, rfl, hx, hnone⟩ := List.findSome?_eq_some_iff.mp h
    refine ⟨a, by simp, hx, fun b hb hba => ?_⟩
    rcases List.mem_append.mp hb with hb | hb
    · exact hnone b hb
    · exfalso
      rcases List.mem_cons.mp hb with rfl | hb
      · exact hR _ _ hba hba
      · exact hR _ _ hba ((List.pairwise_cons.mp (List.pairwise_append.mp has).2.1).1 b hb)
  · rintro ⟨a, ha, hx, hnone⟩
    obtain ⟨before, after, rfl⟩ := List.append_of_mem ha
    refine List.findSome?_eq_some_iff.mpr ⟨before, a, after, rfl, hx, fun b hb => ?_⟩
    exact hnone b (List.mem_append_left _ hb)
      ((List.pairwise_append.mp has).2.2 b hb a List.mem_cons_self)

/-- A text with a character outside a class, up to the first one. -/
lemma exists_first_not (hc : c ∈ l) (h : p c = false) :
    ∃ a d b, a ++ d :: b = l ∧ (∀ c ∈ a, p c = true) ∧ p d = false := by
  induction l with
  | nil => cases hc
  | cons d l ih =>
    rcases hd : p d with _ | _
    · exact ⟨[], d, l, rfl, by simp, hd⟩
    · have hcl : c ∈ l := by
        rcases List.mem_cons.mp hc with rfl | hcl
        · rw [h] at hd
          cases hd
        · exact hcl
      obtain ⟨a, e, b, rfl, ha, he⟩ := ih hcl
      exact ⟨d :: a, e, b, rfl, List.forall_mem_cons.mpr ⟨hd, ha⟩, he⟩

/-- A text that begins with a run of a class: what stands outside the class comes later. -/
lemma length_le_of_not {a b w : List α} (h : a ++ c :: b = w ++ l) (hw : ∀ d ∈ w, p d = true)
    (hc : p c = false) : w.length ≤ a.length := by
  by_contra hlt
  have hget : (w ++ l)[a.length]? = some c := by
    rw [← h]
    simp
  rw [List.getElem?_append_left (by omega)] at hget
  rw [hw c (List.mem_of_getElem? hget)] at hc
  cases hc

lemma mem_runs {a b : List α} :
    (a, b) ∈ runs p l ↔ a ++ b = l ∧ ∀ c ∈ a, p c = true := by
  induction l generalizing a b with
  | nil =>
    simp only [runs, List.mem_singleton, Prod.mk.injEq, List.append_eq_nil_iff]
    refine ⟨fun h => ⟨h, ?_⟩, And.left⟩
    simp [h.1]
  | cons c l ih =>
    unfold runs
    by_cases hc : p c = true
    · rw [if_pos hc]
      cases a with
      | nil => simp
      | cons d a =>
        have hmem : (d :: a, b) ∈ (runs p l).map (fun e => (c :: e.1, e.2)) ++ [([], c :: l)] ↔
            d = c ∧ (a, b) ∈ runs p l := by
          simp [eq_comm, and_comm]
        rw [hmem, ih, List.cons_append, List.cons.injEq, and_assoc]
        refine and_congr_right ?_
        rintro rfl
        simp [hc]
    · rw [if_neg hc]
      cases a with
      | nil => simp
      | cons d a =>
        simp only [List.mem_singleton, Prod.mk.injEq, reduceCtorEq, false_and, false_iff]
        rintro ⟨heq, hall⟩
        obtain rfl := (List.cons.inj heq).1
        exact hc (hall d (by simp))

lemma runs_sorted (p : α → Bool) (l : List α) :
    (runs p l).Pairwise fun e e' => e'.1.length < e.1.length := by
  induction l with
  | nil => simp [runs]
  | cons c l ih =>
    unfold runs
    split
    · refine List.pairwise_append.mpr ⟨List.pairwise_map.mpr ?_, List.pairwise_singleton _ _, ?_⟩
      · simpa using ih
      · intro e he e' he'
        obtain ⟨e₀, -, rfl⟩ := List.mem_map.mp he
        rw [List.mem_singleton.mp he']
        exact Nat.succ_pos _
    · exact List.pairwise_singleton _ _

/-- **What a greedy quantifier settles on**: the longest run after which the rest of the pattern
matches. -/
theorem findSome?_runs {f : List α × List α → Option β} {x : β} :
    (runs p l).findSome? f = some x ↔
      ∃ a b, a ++ b = l ∧ (∀ c ∈ a, p c = true) ∧ f (a, b) = some x ∧
        ∀ a' b', a' ++ b' = l → (∀ c ∈ a', p c = true) → a.length < a'.length →
          f (a', b') = none := by
  rw [findSome?_iff_of_pairwise (fun _ _ h => Nat.lt_asymm h) (runs_sorted p l)]
  constructor
  · rintro ⟨⟨a, b⟩, hab, hx, hnone⟩
    obtain ⟨hl, hall⟩ := mem_runs.mp hab
    exact ⟨a, b, hl, hall, hx, fun a' b' hl' hall' hlt =>
      hnone (a', b') (mem_runs.mpr ⟨hl', hall'⟩) hlt⟩
  · rintro ⟨a, b, hl, hall, hx, hnone⟩
    refine ⟨(a, b), mem_runs.mpr ⟨hl, hall⟩, hx, ?_⟩
    rintro ⟨a', b'⟩ hab' hlt
    obtain ⟨hl', hall'⟩ := mem_runs.mp hab'
    exact hnone a' b' hl' hall' hlt

lemma findSome?_runs_eq_none {f : List α × List α → Option β} :
    (runs p l).findSome? f = none ↔
      ∀ a b, a ++ b = l → (∀ c ∈ a, p c = true) → f (a, b) = none := by
  rw [List.findSome?_eq_none_iff]
  constructor
  · exact fun h a b hl hall => h (a, b) (mem_runs.mpr ⟨hl, hall⟩)
  · rintro h ⟨a, b⟩ hmem
    obtain ⟨hl, hall⟩ := mem_runs.mp hmem
    exact h a b hl hall

/-! ### Matches -/

lemma successes_char_cons : (char p).successes (c :: l) = if p c then [⟨[c], l, []⟩] else [] := rfl

lemma successes_many :
    (many p).successes l = (runs p l).map fun e => (⟨e.1, e.2, []⟩ : Match α) := rfl

lemma successes_seq : (seq r s).successes l =
    (r.successes l).flatMap fun m => (s.successes m.rest).map m.append := rfl

lemma first_seq : (seq r s).first l =
    (r.successes l).findSome? fun m => (s.first m.rest).map m.append := by
  change List.head? _ = _
  rw [successes_seq, List.head?_flatMap]
  simp only [List.head?_map]
  rfl

@[simp] lemma first_group : (group r).first l = (r.first l).map Match.capture :=
  List.head?_map

/-- A run of a class, and the rest of the pattern. -/
lemma first_many_seq : (seq (many p) s).first l =
    (runs p l).findSome? fun e => (s.first e.2).map (Match.append ⟨e.1, e.2, []⟩) := by
  rw [first_seq, successes_many, List.findSome?_map]
  rfl

lemma first_many_seq_eq_none : (seq (many p) s).first l = none ↔
    ∀ a b, a ++ b = l → (∀ c ∈ a, p c = true) → s.first b = none := by
  simp only [first_many_seq, findSome?_runs_eq_none, Option.map_eq_none_iff]

lemma first_char_seq_cons : (seq (char p) s).first (c :: l) =
    if p c = true then (s.first l).map (Match.append ⟨[c], l, []⟩) else none := by
  rw [first_seq, successes_char_cons]
  by_cases hc : p c = true <;> simp [hc]

lemma first_char_seq_nil : (seq (char p) s).first [] = none := by
  rw [first_seq]
  rfl

lemma successes_lit_append [DecidableEq α] (w l : List α) :
    (lit w).successes (w ++ l) = [⟨w, l, []⟩] := by
  induction w with
  | nil => rfl
  | cons c w ih =>
    have hchar : (char fun d => decide (d = c)).successes (c :: (w ++ l)) =
        [⟨[c], w ++ l, []⟩] := by
      simp [successes_char_cons]
    change (seq (char fun d => decide (d = c)) (lit w)).successes (c :: (w ++ l)) = _
    rw [successes_seq, hchar, List.flatMap_singleton, ih]
    rfl

lemma prefix_of_successes_lit [DecidableEq α] (h : (lit w).successes l ≠ []) : w <+: l := by
  induction w generalizing l with
  | nil => exact List.nil_prefix
  | cons c w ih =>
    change (seq (char fun d => decide (d = c)) (lit w)).successes l ≠ [] at h
    cases l with
    | nil => exact absurd rfl h
    | cons d l =>
      by_cases hd : d = c
      · subst hd
        refine List.cons_prefix_cons.mpr ⟨rfl, ih fun hnil => h ?_⟩
        simp [successes_seq, successes_char_cons, hnil]
      · exact absurd (by simp [successes_seq, successes_char_cons, hd]) h

/-- A fixed text, and the rest of the pattern. -/
lemma first_lit_seq [DecidableEq α] {m : Match α} : (seq (lit w) s).first l = some m ↔
    ∃ b m', w ++ b = l ∧ s.first b = some m' ∧ m = { m' with taken := w ++ m'.taken } := by
  rw [first_seq]
  by_cases hw : w <+: l
  · obtain ⟨b, rfl⟩ := hw
    rw [successes_lit_append, List.findSome?_singleton, Option.map_eq_some_iff]
    constructor
    · rintro ⟨m', hm', rfl⟩
      exact ⟨b, m', rfl, hm', rfl⟩
    · rintro ⟨b', m', hb, hm', rfl⟩
      rw [List.append_cancel_left_eq] at hb
      exact ⟨m', hb ▸ hm', rfl⟩
  · have hnil : (lit w).successes l = [] := by
      by_contra h
      exact hw (prefix_of_successes_lit h)
    rw [hnil, List.findSome?_nil]
    simp only [reduceCtorEq, false_iff]
    rintro ⟨b, -, hb, -⟩
    exact hw ⟨b, hb⟩

lemma first_lit_seq_eq_none [DecidableEq α] :
    (seq (lit w) s).first l = none ↔ ∀ b, w ++ b = l → s.first b = none := by
  rw [Option.eq_none_iff_forall_ne_some]
  constructor
  · intro h b hb
    rcases hfirst : s.first b with _ | m'
    · rfl
    · exact absurd (first_lit_seq.mpr ⟨b, m', hb, hfirst, rfl⟩) (h _)
  · intro h m hm
    obtain ⟨b, m', hb, hfirst, -⟩ := first_lit_seq.mp hm
    rw [h b hb] at hfirst
    cases hfirst

lemma first_plus_cons : (plus p).first (c :: l) =
    if p c = true then some ⟨c :: l.takeWhile p, l.dropWhile p, []⟩ else none := by
  have hmany : ∀ l, (many p).first l = some ⟨l.takeWhile p, l.dropWhile p, []⟩ := by
    intro l
    change ((many p).successes l).head? = _
    rw [successes_many, List.head?_map]
    have hruns : (runs p l).head? = some (l.takeWhile p, l.dropWhile p) := by
      induction l with
      | nil => rfl
      | cons c l ih => by_cases hc : p c = true <;> simp [runs, hc, ih]
    rw [hruns]
    rfl
  rw [plus, first_char_seq_cons, hmany]
  rfl

lemma first_plus_eq_none : (plus p).first l = none ↔ ∀ c ∈ l.head?, p c = false := by
  cases l with
  | nil => simp [plus, first_char_seq_nil]
  | cons c l => by_cases hc : p c = true <;> simp [first_plus_cons, hc]

/-- **A group of a `+`** captures all of a class that follows. -/
theorem first_group_plus {m : Match α} (h : (group (plus p)).first l = some m) :
    ∃ w, w ++ m.rest = l ∧ w ≠ [] ∧ (∀ c ∈ w, p c = true) ∧ (∀ c ∈ m.rest.head?, p c = false) ∧
      m.groups = [w] := by
  rw [first_group] at h
  cases l with
  | nil => simp [plus, first_char_seq_nil] at h
  | cons c l =>
    by_cases hc : p c = true
    swap
    · simp [first_plus_cons, hc] at h
    rw [first_plus_cons, if_pos hc] at h
    cases h
    refine ⟨c :: l.takeWhile p, ?_, List.cons_ne_nil _ _, ?_, ?_, rfl⟩
    · exact congrArg (c :: ·) List.takeWhile_append_dropWhile
    · exact List.forall_mem_cons.mpr ⟨hc, fun d hd => List.mem_takeWhile_imp hd⟩
    · intro d hd
      have hnot := List.head?_dropWhile_not p l
      rw [show (l.dropWhile p).head? = some d from hd] at hnot
      exact hnot

lemma mem_starts {a b : List α} : (a, b) ∈ starts l ↔ a ++ b = l := by
  induction l generalizing a with
  | nil => simp [starts]
  | cons c l ih =>
    cases a with
    | nil => simp [starts]
    | cons d a =>
      have hmem : (d :: a, b) ∈ starts (c :: l) ↔ d = c ∧ (a, b) ∈ starts l := by
        simp [starts, eq_comm, and_comm]
      rw [hmem, ih, List.cons_append, List.cons.injEq]

lemma starts_sorted (l : List α) :
    (starts l).Pairwise fun e e' => e.1.length < e'.1.length := by
  induction l with
  | nil => exact List.pairwise_singleton _ _
  | cons c l ih =>
    refine List.pairwise_cons.mpr ⟨fun e he => ?_, List.pairwise_map.mpr ?_⟩
    · obtain ⟨e₀, -, rfl⟩ := List.mem_map.mp he
      exact Nat.succ_pos _
    · simpa using ih

/-- **The leftmost match**: the pattern matches after the text before it, and from no earlier
start. -/
theorem firstMatch_iff {pre : List α} {m : Match α} : r.firstMatch l = some (pre, m) ↔
    ∃ l', pre ++ l' = l ∧ r.first l' = some m ∧
      ∀ pre' l'', pre' ++ l'' = l → pre'.length < pre.length → r.first l'' = none := by
  rw [firstMatch, findSome?_iff_of_pairwise (fun _ _ h => Nat.lt_asymm h) (starts_sorted l)]
  constructor
  · rintro ⟨⟨pre, l'⟩, hpre, hm, hnone⟩
    obtain ⟨m', hm', heq⟩ := Option.map_eq_some_iff.mp hm
    cases heq
    refine ⟨l', mem_starts.mp hpre, hm', fun pre' l'' hl hlt => ?_⟩
    exact Option.map_eq_none_iff.mp (hnone (pre', l'') (mem_starts.mpr hl) hlt)
  · rintro ⟨l', hl, hm, hnone⟩
    refine ⟨(pre, l'), mem_starts.mpr hl, by rw [hm]; rfl, ?_⟩
    rintro ⟨pre', l''⟩ hpre' hlt
    rw [hnone pre' l'' (mem_starts.mp hpre') hlt]
    rfl

lemma firstMatch_eq_none :
    r.firstMatch l = none ↔ ∀ pre l', pre ++ l' = l → r.first l' = none := by
  rw [firstMatch, List.findSome?_eq_none_iff]
  constructor
  · exact fun h pre l' hl => Option.map_eq_none_iff.mp (h (pre, l') (mem_starts.mpr hl))
  · rintro h ⟨pre, l'⟩ hpre
    rw [h pre l' (mem_starts.mp hpre)]
    rfl

end Regex

end TsaBackend
