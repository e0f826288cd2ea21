import Mathlib.Algebra.Order.Ring.Nat
import Mathlib.Data.String.Basic
import Mathlib.Tactic.Linarith
import Mathlib.Tactic.Ring

/-!
Decimal numerals as text, and the order of their texts.

Text is compared character by character, so that numerals sort as if they were filled up with
zeros to one length, a shorter one before a longer one of the same digits.
-/

namespace TsaBackend.Numerals

/-- The number a list of digits stands for. -/
def value (l : List Char) : ℕ := Nat.ofDigitChars 10 l 0

def Digits (l : List Char) : Prop := ∀ c ∈ l, c.isDigit = true

variable {c d : Char} {l m : List Char}

lemma digit_bounds (h : c.isDigit = true) : 48 ≤ c.toNat ∧ c.toNat ≤ 57 := by
  have h' : 48 ≤ c.val ∧ c.val ≤ 57 := by simpa [Char.isDigit] using h
  exact ⟨UInt32.le_iff_toNat_le.mp h'.1, UInt32.le_iff_toNat_le.mp h'.2⟩

lemma value_cons : value (c :: l) = (c.toNat - 48) * 10 ^ l.length + value l := by
  unfold value
  rw [Nat.ofDigitChars_cons, Nat.ofDigitChars_eq_ofDigitChars_zero, Nat.mul_zero, Nat.zero_add]
  change 10 ^ l.length * (c.toNat - 48) + _ = _
  rw [Nat.mul_comm]

lemma Digits.tail (h : Digits (c :: l)) : Digits l := fun d hd => h d (by simp [hd])

lemma value_lt (h : Digits l) : value l < 10 ^ l.length := by
  induction l with
  | nil => decide
  | cons c l ih =>
    have htail := ih h.tail
    obtain ⟨-, hc⟩ := digit_bounds (h c (by simp))
    rw [value_cons, List.length_cons, Nat.pow_succ]
    calc (c.toNat - 48) * 10 ^ l.length + value l
        ≤ 9 * 10 ^ l.length + value l := by
          have : c.toNat - 48 ≤ 9 := by omega
          exact Nat.add_le_add_right (Nat.mul_le_mul_right _ this) _
      _ < 10 ^ l.length * 10 := by omega

lemma char_lt_iff : c < d ↔ c.toNat < d.toNat := UInt32.lt_iff_toNat_lt

/-- Of two numbers of one length the first digits decide, if they differ. -/
lemma leading_lt_iff {x y n u v : ℕ} (hu : u < n) (hv : v < n) :
    x * n + u < y * n + v ↔ x < y ∨ x = y ∧ u < v := by
  rcases Nat.lt_trichotomy x y with h | rfl | h
  · have hstep : (x + 1) * n ≤ y * n := Nat.mul_le_mul_right _ h
    rw [Nat.succ_mul] at hstep
    exact iff_of_true (by omega) (.inl h)
  · simp
  · have hstep : (y + 1) * n ≤ x * n := Nat.mul_le_mul_right _ h
    rw [Nat.succ_mul] at hstep
    exact iff_of_false (by omega) (by omega)

lemma leading_eq_iff {x y n u v : ℕ} (hu : u < n) (hv : v < n) :
    x * n + u = y * n + v ↔ x = y ∧ u = v := by
  have hlt := leading_lt_iff (x := x) (y := y) hu hv
  have hgt := leading_lt_iff (x := y) (y := x) hv hu
  omega

/-- **The order of lists of digits**, filled up with zeros to one length. -/
theorem digits_lt_iff (hl : Digits l) (hm : Digits m) : l < m ↔
    value l * 10 ^ m.length < value m * 10 ^ l.length ∨
      value l * 10 ^ m.length = value m * 10 ^ l.length ∧ l.length < m.length := by
  induction l generalizing m with
  | nil =>
    cases m with
    | nil => simp
    | cons d m =>
      have hzero : value [] = 0 := rfl
      have hlt : ([] : List Char) < d :: m := List.nil_lt_cons d m
      simp only [hlt, hzero, Nat.zero_mul, List.length_nil, Nat.pow_zero, Nat.mul_one,
        List.length_cons, Nat.zero_lt_succ, and_true, true_iff]
      exact (Nat.eq_zero_or_pos _).symm.imp_right Eq.symm
  | cons c l ih =>
    cases m with
    | nil =>
      have hzero : value [] = 0 := rfl
      simp [hzero]
    | cons d m =>
      obtain ⟨hc, -⟩ := digit_bounds (hl c (by simp))
      obtain ⟨hd, -⟩ := digit_bounds (hm d (by simp))
      have ha : 0 < 10 ^ l.length := Nat.pow_pos (by decide)
      have hb : 0 < 10 ^ m.length := Nat.pow_pos (by decide)
      have hu := Nat.mul_lt_mul_of_pos_right (value_lt hl.tail) hb
      have hv := Nat.mul_lt_mul_of_pos_right (value_lt hm.tail) ha
      rw [Nat.mul_comm (10 ^ m.length)] at hv
      have hleft : value (c :: l) * 10 ^ (d :: m).length = 10 *
          ((c.toNat - 48) * (10 ^ l.length * 10 ^ m.length) + value l * 10 ^ m.length) := by
        rw [value_cons, List.length_cons, Nat.pow_succ]
        ring
      have hright : value (d :: m) * 10 ^ (c :: l).length = 10 *
          ((d.toNat - 48) * (10 ^ l.length * 10 ^ m.length) + value m * 10 ^ l.length) := by
        rw [value_cons, List.length_cons, Nat.pow_succ]
        ring
      have hhead : c = d ↔ c.toNat - 48 = d.toNat - 48 := by
        rw [← Char.toNat_inj]
        omega
      have hlt : c < d ↔ c.toNat - 48 < d.toNat - 48 := by
        rw [char_lt_iff]
        omega
      rw [List.cons_lt_cons_iff, ih hl.tail hm.tail, hhead, hlt, hleft, hright,
        Nat.mul_lt_mul_left (by decide), leading_lt_iff hu hv,
        Nat.mul_right_inj (by decide), leading_eq_iff hu hv, List.length_cons, List.length_cons,
        Nat.add_lt_add_iff_right, and_or_left, or_assoc, and_assoc]

/-! ### Numerals -/

/-- The number of digits of a numeral. -/
def width (n : ℕ) : ℕ := (Nat.toDigits 10 n).length

lemma digits_toDigits (n : ℕ) : Digits (Nat.toDigits 10 n) := fun _ hc =>
  Nat.isDigit_of_mem_toDigits (by decide) (by decide) hc

@[simp] lemma value_toDigits (n : ℕ) : value (Nat.toDigits 10 n) = n :=
  Nat.ofDigitChars_ten_toDigits

/-- The numeral of `a` stands before that of `b`. -/
def NatBefore (a b : ℕ) : Prop :=
  a * 10 ^ width b < b * 10 ^ width a ∨
    a * 10 ^ width b = b * 10 ^ width a ∧ width a < width b

instance (a b : ℕ) : Decidable (NatBefore a b) := inferInstanceAs (Decidable (_ ∨ _))

lemma repr_lt_iff {a b : ℕ} : a.repr < b.repr ↔ NatBefore a b := by
  rw [String.lt_iff, Nat.toList_repr, Nat.toList_repr,
    digits_lt_iff (digits_toDigits a) (digits_toDigits b), value_toDigits, value_toDigits]
  rfl

/-- Among numerals of one length the order is that of the numbers. -/
lemma natBefore_iff_lt {a b : ℕ} (h : width a = width b) : NatBefore a b ↔ a < b := by
  have hpos : 0 < 10 ^ width b := Nat.pow_pos (by decide)
  unfold NatBefore
  rw [h]
  constructor
  · rintro (hlt | ⟨-, hlt⟩)
    · exact Nat.lt_of_mul_lt_mul_right hlt
    · omega
  · exact fun hlt => .inl (Nat.mul_lt_mul_of_pos_right hlt hpos)

/-- The numeral of `a` stands before that of `b`: a sign stands before every digit, and behind
two signs the numerals of the absolute values are compared. -/
def Before (a b : ℤ) : Prop :=
  if a < 0 ↔ b < 0 then NatBefore a.natAbs b.natAbs else a < 0

instance (a b : ℤ) : Decidable (Before a b) :=
  inferInstanceAs (Decidable (if a < 0 ↔ b < 0 then _ else _))

lemma toString_of_nonneg {a : ℤ} (h : 0 ≤ a) : toString a = a.natAbs.repr := by
  have hrepr : toString a = a.repr := rfl
  rw [hrepr, Int.repr_eq_if, if_pos h]
  congr 1
  omega

lemma toString_of_neg {a : ℤ} (h : a < 0) : toString a = "-" ++ a.natAbs.repr := by
  have hrepr : toString a = a.repr := rfl
  rw [hrepr, Int.repr_eq_if, if_neg (by omega)]
  congr 2
  omega

/-- A numeral begins with a digit, and a sign stands before each of them. -/
lemma sign_lt_repr (a b : ℕ) : "-" ++ a.repr < b.repr := by
  have hne : Nat.toDigits 10 b ≠ [] := Nat.toDigits_ne_nil
  rw [String.lt_iff, String.toList_append, Nat.toList_repr, Nat.toList_repr]
  obtain ⟨d, l, hl⟩ := List.exists_cons_of_ne_nil hne
  have hd : d.isDigit = true := digits_toDigits b d (by simp [hl])
  have hsign : "-".toList = ['-'] := rfl
  have hcode : '-'.toNat = 45 := rfl
  have hlow := (digit_bounds hd).1
  rw [hl, hsign, List.singleton_append]
  exact List.Lex.rel (char_lt_iff.mpr (by omega))

lemma sign_lt_sign {a b : ℕ} : "-" ++ a.repr < "-" ++ b.repr ↔ a.repr < b.repr := by
  rw [String.lt_iff, String.lt_iff, String.toList_append, String.toList_append]
  have hsign : "-".toList = ['-'] := rfl
  rw [hsign, List.singleton_append, List.singleton_append, List.cons_lt_cons_iff]
  simp

/-- **The order of the numerals of integers as texts.** -/
theorem toString_lt_iff {a b : ℤ} : toString a < toString b ↔ Before a b := by
  unfold Before
  rcases lt_or_ge a 0 with ha | ha <;> rcases lt_or_ge b 0 with hb | hb
  · rw [toString_of_neg ha, toString_of_neg hb, sign_lt_sign, repr_lt_iff,
      if_pos (iff_of_true ha hb)]
  · rw [toString_of_neg ha, toString_of_nonneg hb, if_neg (by omega)]
    exact iff_of_true (sign_lt_repr _ _) ha
  · rw [toString_of_nonneg ha, toString_of_neg hb, if_neg (by omega)]
    exact iff_of_false (lt_asymm (sign_lt_repr _ _)) (by omega)
  · rw [toString_of_nonneg ha, toString_of_nonneg hb, repr_lt_iff, if_pos (by omega)]

lemma toString_lt_of_width {a b : ℤ} (ha : 0 ≤ a) (hb : 0 ≤ b)
    (h : width a.natAbs = width b.natAbs) : toString a < toString b ↔ a < b := by
  rw [toString_lt_iff, Before, if_pos (by omega), natBefore_iff_lt h]
  omega

end TsaBackend.Numerals
