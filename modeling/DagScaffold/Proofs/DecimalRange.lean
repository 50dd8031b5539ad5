import Mathlib
import DagScaffold.Decimal.Binary64

/-!
# The decimals that a floating point number can stand for

A decimal is rounded to the nearest number of the format. That fails exactly when the decimal is at
least half a unit above the greatest number, since the tie goes to the even neighbour, which is
beyond the format.

* `scaleBy_div`, `binaryOrder_spec`, `le_roundToEven_iff` : the parts of the rounding as rationals;
* `Binary64.limit`, `lt_exponent_nearest_iff` : the quotients whose nearest number is beyond the
  format;
* `Binary64.ofDecimal_eq_none_iff` : the decimals without a number.
-/

namespace DagScaffold.Decimal

/-! ## Scaling by powers of two -/

theorem scaleBy_den_pos {num den : ℕ} (hden : 0 < den) (e : ℤ) : 0 < (scaleBy num den e).2 := by
  cases e with
  | ofNat k => exact Nat.mul_pos hden (Nat.two_pow_pos k)
  | negSucc k => exact hden

/-- A fraction is divided by a power of two. -/
theorem scaleBy_div (num den : ℕ) (e : ℤ) :
    ((scaleBy num den e).1 : ℚ) / (scaleBy num den e).2 = num / den / 2 ^ e := by
  cases e with
  | ofNat k =>
      rw [Int.ofNat_eq_natCast, zpow_natCast, div_div]
      show (num : ℚ) / ((den * 2 ^ k : ℕ) : ℚ) = _
      push_cast
      rfl
  | negSucc k =>
      rw [zpow_negSucc, div_inv_eq_mul, div_mul_eq_mul_div]
      show ((num * 2 ^ (k + 1) : ℕ) : ℚ) / den = _
      push_cast
      rfl

/-- A scaled quotient is at least one when the quotient is at least the power of two. -/
theorem scaleBy_le_iff {num den : ℕ} (hden : 0 < den) (e : ℤ) :
    (scaleBy num den e).2 ≤ (scaleBy num den e).1 ↔ (2 : ℚ) ^ e ≤ num / den := by
  have hpos : (0 : ℚ) < (scaleBy num den e).2 := by
    exact_mod_cast scaleBy_den_pos hden e
  rw [← Nat.cast_le (α := ℚ), ← one_le_div hpos, scaleBy_div, one_le_div (by positivity)]

/-- The order of a quotient is the exponent of the power of two below it. -/
theorem binaryOrder_spec {num den : ℕ} (hnum : 0 < num) (hden : 0 < den) :
    (2 : ℚ) ^ binaryOrder num den ≤ num / den ∧
    (num / den : ℚ) < 2 ^ (binaryOrder num den + 1) := by
  have hbounds (n : ℕ) (hn : 0 < n) :
      (2 : ℚ) ^ (Nat.log2 n : ℤ) ≤ n ∧ (n : ℚ) < 2 ^ ((Nat.log2 n : ℤ) + 1) := by
    constructor
    · rw [zpow_natCast]
      exact_mod_cast Nat.log2_self_le hn.ne'
    · have hlt : n < 2 ^ (Nat.log2 n + 1) := Nat.lt_log2_self
      exact_mod_cast hlt
  obtain ⟨hnumLow, hnumHigh⟩ := hbounds num hnum
  obtain ⟨hdenLow, hdenHigh⟩ := hbounds den hden
  have hpos : (0 : ℚ) < den := by exact_mod_cast hden
  set guess : ℤ := (Nat.log2 num : ℤ) - Nat.log2 den with hguess
  -- the logarithms leave two powers of two for the order
  have hlow : (2 : ℚ) ^ (guess - 1) ≤ num / den := by
    rw [le_div_iff₀ hpos]
    calc (2 : ℚ) ^ (guess - 1) * den
        ≤ 2 ^ (guess - 1) * 2 ^ ((Nat.log2 den : ℤ) + 1) := by gcongr
      _ = 2 ^ (Nat.log2 num : ℤ) := by
          rw [← zpow_add₀ two_ne_zero]
          congr 1
          omega
      _ ≤ num := hnumLow
  have hhigh : (num / den : ℚ) < 2 ^ (guess + 1) := by
    rw [div_lt_iff₀ hpos]
    calc (num : ℚ) < 2 ^ ((Nat.log2 num : ℤ) + 1) := hnumHigh
      _ = 2 ^ (guess + 1) * 2 ^ (Nat.log2 den : ℤ) := by
          rw [← zpow_add₀ two_ne_zero]
          congr 1
          omega
      _ ≤ 2 ^ (guess + 1) * den := by gcongr
  have horder : binaryOrder num den = if (2 : ℚ) ^ guess ≤ num / den then guess else guess - 1 := by
    simp only [binaryOrder, ← hguess, scaleBy_le_iff hden]
  rw [horder]
  split_ifs with hreaches
  · exact ⟨hreaches, hhigh⟩
  · refine ⟨hlow, ?_⟩
    rw [sub_add_cancel]
    exact not_le.mp hreaches

/-! ## Rounding -/

/-- A quotient is rounded to an even number, or above it, from half a unit below the number on. -/
theorem le_roundToEven_iff {num den m : ℕ} (hden : 0 < den) (heven : m % 2 = 0) (hm : 0 < m) :
    m ≤ roundToEven num den ↔ (m : ℚ) - 1 / 2 ≤ num / den := by
  have hpos : (0 : ℚ) < den := by exact_mod_cast hden
  have hcross : (m : ℚ) - 1 / 2 ≤ num / den ↔ 2 * m * den ≤ 2 * num + den := by
    rw [le_div_iff₀ hpos, ← Nat.cast_le (α := ℚ)]
    push_cast
    constructor <;> intro h <;> linarith
  rw [hcross, roundToEven]
  have hdivision := Nat.div_add_mod num den
  have hrest := Nat.mod_lt num hden
  set q := num / den
  set r := num % den
  -- only next below the number does the rest decide
  rcases lt_trichotomy (q + 1) m with hbelow | rfl | habove
  · have hfar : den * (q + 2) ≤ den * m := Nat.mul_le_mul_left den hbelow
    refine iff_of_false ?_ ?_
    · split_ifs <;> omega
    · rw [Nat.mul_add] at hfar
      rw [Nat.mul_assoc, Nat.mul_comm m]
      omega
  · have hodd : q % 2 = 1 := by omega
    have hnext : 2 * (q + 1) * den = 2 * (den * q) + 2 * den := by ring
    rw [hnext, hodd]
    split_ifs with hup
    · refine iff_of_true le_rfl ?_
      simp only [Bool.or_eq_true, Bool.and_eq_true, decide_eq_true_eq, beq_iff_eq] at hup
      omega
    · refine iff_of_false (by omega) ?_
      simp only [Bool.or_eq_true, Bool.and_eq_true, decide_eq_true_eq, beq_iff_eq, and_true] at hup
      omega
  · have hnear : den * m ≤ den * q := Nat.mul_le_mul_left den (Nat.lt_succ_iff.mp habove)
    refine iff_of_true ?_ ?_
    · split_ifs <;> omega
    · rw [Nat.mul_assoc, Nat.mul_comm m]
      omega

/-- A quotient below a number is rounded to that number at most. -/
theorem roundToEven_le {num den m : ℕ} (hden : 0 < den) (h : (num / den : ℚ) < m) :
    roundToEven num den ≤ m := by
  have hpos : (0 : ℚ) < den := by exact_mod_cast hden
  have hquotient : num / den < m := by
    rw [div_lt_iff₀ hpos] at h
    rw [Nat.div_lt_iff_lt_mul hden]
    exact_mod_cast h
  rw [roundToEven]
  split_ifs <;> omega

/-! ## The end of the format -/

/-- The least number that is rounded to one beyond the format. -/
def Binary64.limit : ℚ :=
  2 ^ 1024 - 2 ^ 970

theorem two_zpow_lt_limit : (2 : ℚ) ^ (1023 : ℤ) < Binary64.limit := by
  have hunit : (2 : ℚ) ^ 970 < 2 ^ 1023 := pow_lt_pow_right₀ one_lt_two (by decide)
  have hdouble : (2 : ℚ) ^ 1024 = 2 ^ 1023 + 2 ^ 1023 := by rw [pow_succ (2 : ℚ) 1023, mul_two]
  rw [Binary64.limit, hdouble, lt_sub_iff_add_lt]
  exact add_lt_add_right hunit _

theorem limit_lt_two_zpow : Binary64.limit < 2 ^ (1024 : ℤ) :=
  sub_lt_self _ (pow_pos two_pos 970)

/-- The limit is half a unit below the first power of two that the format does not reach. -/
theorem limit_le_iff (x : ℚ) :
    Binary64.limit ≤ x ↔ ((2 * leastNormal : ℕ) : ℚ) - 1 / 2 ≤ x / 2 ^ (971 : ℤ) := by
  have hlimit : Binary64.limit = (((2 * leastNormal : ℕ) : ℚ) - 1 / 2) * 2 ^ (971 : ℤ) := by
    have hnormal : ((2 * leastNormal : ℕ) : ℚ) = 2 ^ 53 := by norm_num [leastNormal]
    have hhalf : (1 / 2 : ℚ) * 2 ^ 971 = 2 ^ 970 := by
      rw [pow_succ (2 : ℚ) 970, mul_comm, mul_assoc, mul_one_div_cancel two_ne_zero, mul_one]
    show (2 : ℚ) ^ (53 + 971) - 2 ^ 970 = _ * 2 ^ 971
    rw [hnormal, sub_mul, hhalf, pow_add]
  rw [hlimit, le_div_iff₀ (zpow_pos two_pos 971)]

/-- The exponent of the nearest number is that of the last binary digit of 53, but for a quotient
that is rounded up to the next power of two. -/
theorem exponent_nearest {num den : ℕ} (hnum : 0 < num) {e : ℤ}
    (he : max (binaryOrder num den - 52) (-1074) = e) :
    (nearest num den).2 =
      if roundToEven (scaleBy num den e).1 (scaleBy num den e).2 = 2 * leastNormal then e + 1
        else e := by
  rw [nearest, if_neg hnum.ne', he]
  dsimp only
  split_ifs <;> rfl

/-- The nearest number of a quotient is beyond the format when the quotient reaches the limit. -/
theorem lt_exponent_nearest_iff {num den : ℕ} (hnum : 0 < num) (hden : 0 < den) :
    971 < (nearest num den).2 ↔ Binary64.limit ≤ num / den := by
  obtain ⟨hlow, hhigh⟩ := binaryOrder_spec hnum hden
  rcases lt_trichotomy (binaryOrder num den) 1023 with hless | heq | hmore
  · have hsmall : (2 : ℚ) ^ (binaryOrder num den + 1) ≤ 2 ^ (1023 : ℤ) :=
      zpow_le_zpow_right₀ one_le_two (by omega)
    refine iff_of_false ?_ (not_le.mpr ((hhigh.trans_le hsmall).trans two_zpow_lt_limit))
    rw [exponent_nearest hnum rfl]
    split_ifs <;> omega
  · -- rounding up decides whether the last exponent is left
    have hpos : 0 < (scaleBy num den 971).2 := scaleBy_den_pos hden 971
    have hscaled := scaleBy_div num den 971
    have hmost : roundToEven (scaleBy num den 971).1 (scaleBy num den 971).2 ≤ 2 * leastNormal := by
      refine roundToEven_le hpos ?_
      have hnormal : ((2 * leastNormal : ℕ) : ℚ) = 2 ^ (53 : ℤ) := by norm_num [leastNormal]
      have hexponents : binaryOrder num den + 1 = 53 + 971 := by omega
      rw [hexponents, zpow_add₀ two_ne_zero] at hhigh
      rwa [hscaled, hnormal, div_lt_iff₀ (zpow_pos two_pos 971)]
    have hexponent : max (binaryOrder num den - 52) (-1074) = 971 := by omega
    rw [exponent_nearest hnum hexponent, limit_le_iff, ← hscaled,
      ← le_roundToEven_iff hpos (by decide) (by decide)]
    split_ifs with hfull
    · exact iff_of_true (by decide) hfull.ge
    · exact iff_of_false (lt_irrefl _) fun hge => hfull (le_antisymm hmost hge)
  · have hlarge : (2 : ℚ) ^ (1024 : ℤ) ≤ 2 ^ binaryOrder num den :=
      zpow_le_zpow_right₀ one_le_two (by omega)
    refine iff_of_true ?_ (limit_lt_two_zpow.le.trans (hlarge.trans hlow))
    rw [exponent_nearest hnum rfl]
    split_ifs <;> omega

namespace Binary64

theorem limit_pos : 0 < limit :=
  (zpow_pos two_pos 1023).trans two_zpow_lt_limit

/-- A quotient is out of range from the limit on. -/
theorem ofQuotient_eq_none_iff (negative : Bool) (num : ℕ) {den : ℕ} (hden : 0 < den) :
    ofQuotient negative num den = none ↔ limit ≤ num / den := by
  have hbeyond : ofQuotient negative num den = none ↔ 971 < (nearest num den).2 := by
    simp [ofQuotient]
  rw [hbeyond]
  rcases Nat.eq_zero_or_pos num with rfl | hnum
  · rw [Nat.cast_zero, zero_div]
    exact iff_of_false (show ¬(971 : ℤ) < -1074 by decide) limit_pos.not_ge
  · exact lt_exponent_nearest_iff hnum hden

/-- A number lies between the powers of ten that its count of digits tells. -/
theorem ten_pow_le_and_lt {n len : ℕ} (hn : 0 < n) (hlen : (Nat.toDigits 10 n).length = len + 1) :
    10 ^ len ≤ n ∧ n < 10 ^ (len + 1) := by
  constructor
  · by_contra hsmall
    rw [not_le] at hsmall
    cases len with
    | zero => omega
    | succ len =>
        have hshort := (Nat.length_toDigits_le_iff (by decide) (Nat.succ_pos len)).mpr hsmall
        omega
  · exact (Nat.length_toDigits_le_iff (by decide) (Nat.succ_pos len)).mp hlen.le

/-- A decimal with more than 310 digits before its point reaches the limit. -/
theorem limit_lt_ten_pow : limit < 10 ^ (310 : ℤ) := by
  calc limit < 2 ^ (1024 : ℤ) := limit_lt_two_zpow
    _ ≤ 2 ^ (1025 : ℤ) := zpow_le_zpow_right₀ one_le_two (by decide)
    _ = (2 ^ (205 : ℕ)) ^ (5 : ℕ) := by rw [← pow_mul, ← zpow_natCast]; rfl
    _ ≤ (10 ^ (62 : ℕ)) ^ (5 : ℕ) := by gcongr; norm_num
    _ = 10 ^ (310 : ℤ) := by rw [← pow_mul, ← zpow_natCast]; rfl

/-- A decimal has no number when it reaches the limit. -/
theorem ofDecimal_eq_none_iff (negative : Bool) (n : ℕ) (e : ℤ) :
    ofDecimal negative n e = none ↔ limit ≤ n * 10 ^ e := by
  obtain ⟨len, hlen⟩ := Nat.exists_eq_succ_of_ne_zero
    (Nat.length_toDigits_pos (b := 10) (n := n)).ne'
  unfold ofDecimal
  dsimp only
  rw [hlen]
  split_ifs with hsmall hlarge
  · refine iff_of_false not_false (not_le.mpr ?_)
    rcases Nat.eq_zero_or_pos n with rfl | hn
    · rw [Nat.cast_zero, zero_mul]
      exact limit_pos
    · have horder : e + (len + 1) ≤ 0 := by
        simp only [Bool.or_eq_true, decide_eq_true_eq] at hsmall
        omega
      have hdigits : (n : ℚ) < 10 ^ (len + 1 : ℤ) := by exact_mod_cast (ten_pow_le_and_lt hn hlen).2
      calc (n : ℚ) * 10 ^ e < 10 ^ (len + 1 : ℤ) * 10 ^ e := by gcongr
        _ = 10 ^ (e + (len + 1)) := by rw [← zpow_add₀ (by norm_num), add_comm]
        _ ≤ 10 ^ (0 : ℤ) := zpow_le_zpow_right₀ (by norm_num) horder
        _ ≤ 2 ^ (1023 : ℤ) := by rw [zpow_zero]; exact one_le_zpow₀ one_le_two (by decide)
        _ < limit := two_zpow_lt_limit
  · refine iff_of_true rfl ?_
    have hn : 0 < n := by
      simp only [Bool.or_eq_true, decide_eq_true_eq, not_or] at hsmall
      omega
    have hdigits : (10 : ℚ) ^ (len : ℤ) ≤ n := by exact_mod_cast (ten_pow_le_and_lt hn hlen).1
    calc limit ≤ 10 ^ (310 : ℤ) := limit_lt_ten_pow.le
      _ ≤ 10 ^ (len + e) := zpow_le_zpow_right₀ (by norm_num) (by push_cast at hlarge; omega)
      _ = 10 ^ (len : ℤ) * 10 ^ e := zpow_add₀ (by norm_num) _ _
      _ ≤ n * 10 ^ e := by gcongr
  · cases e with
    | ofNat k =>
        show ofQuotient negative (n * 10 ^ k) 1 = none ↔ _
        rw [ofQuotient_eq_none_iff negative _ one_pos]
        simp
    | negSucc k =>
        show ofQuotient negative n (10 ^ (k + 1)) = none ↔ _
        rw [ofQuotient_eq_none_iff negative _ (Nat.pow_pos (by decide)), zpow_negSucc,
          div_eq_mul_inv]
        simp

end Binary64

end DagScaffold.Decimal
