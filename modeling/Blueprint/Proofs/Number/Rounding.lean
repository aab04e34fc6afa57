import Mathlib.Tactic.Ring
import Blueprint.Number.Digits
import Blueprint.Number.Shortest

/-!
# Rounding to binary64 and back

A binary64 value is written as a decimal number that reads back as this value. Three facts are
behind it: rounding only looks at the value of a decimal number and not at how it is given, every
rounded value is canonical, and a canonical value is rounded to itself.

- `Binary64.Canonical`, `Binary64.canonical_ofDecimal`: mantissa and scale of a rounded value.
- `Binary64.ofUnits_congr`, `Binary64.ofDecimal_shift`: equal values are rounded in the same way.
- `Binary64.ofUnits_of_canonical`, `Binary64.ofDecimal_exact`: canonical values are rounded to
  themselves.
- `Binary64.ofDecimal_shortest`: the decimal number that is written reads back.
-/

namespace Blueprint

/-! ## Quotients -/

section

variable (num den : Nat)

theorem divRound_mul_right {c : Nat} (hc : 0 < c) :
    divRound (num * c) (den * c) = divRound num den := by
  unfold divRound
  rw [Nat.mul_div_mul_right _ _ hc, Nat.mul_mod_mul_right]
  simp only [← Nat.mul_assoc, Nat.mul_lt_mul_right hc]

theorem divRound_mul_self (hden : 0 < den) : divRound (num * den) den = num := by
  simp [divRound, hden]

theorem le_divRound : num / den ≤ divRound num den := by
  unfold divRound
  grind

theorem divRound_le : divRound num den ≤ num / den + 1 := by
  unfold divRound
  grind

end

theorem mul_pow_lt {m j a b c n : Nat} (hb : 0 < b) (hm : m < a) (hj : j ≤ c)
    (h : a * Nat.pow b c ≤ n) : m * Nat.pow b j < n := by
  have hpow : b ^ j ≤ b ^ c := Nat.pow_le_pow_right hb hj
  exact Nat.lt_of_lt_of_le ((Nat.mul_lt_mul_right (Nat.pow_pos hb)).2 hm)
    (Nat.le_trans (Nat.mul_le_mul_left _ hpow) h)

theorem mul_pow_five_lt {m a j : Nat} (hm : m < Nat.pow 10 a) :
    m * Nat.pow 5 j < Nat.pow 10 (a + j) := by
  have hlt : m * 5 ^ j < 10 ^ a * 10 ^ j :=
    Nat.mul_lt_mul_of_lt_of_le hm (Nat.pow_le_pow_left (by decide) j) (Nat.pow_pos (by decide))
  rwa [← Nat.pow_add] at hlt

/-- A multiple of a power of five that is below a smaller power of ten leaves the rest of the power
of five below a power of two. -/
theorem pow_five_lt {m a i c : Nat} (hm : 0 < m) (hi : i ≤ c)
    (h : m * Nat.pow 5 (a + i) < Nat.pow 10 i) : Nat.pow 5 a < Nat.pow 2 c := by
  have hpower : 5 ^ a * 5 ^ i < 2 ^ c * 5 ^ i := by
    calc 5 ^ a * 5 ^ i = 5 ^ (a + i) := (Nat.pow_add ..).symm
      _ ≤ m * 5 ^ (a + i) := Nat.le_mul_of_pos_left _ hm
      _ < 10 ^ i := h
      _ = 2 ^ i * 5 ^ i := by rw [← Nat.mul_pow]
      _ ≤ 2 ^ c * 5 ^ i := Nat.mul_le_mul_right _ (Nat.pow_le_pow_right (by decide) hi)
  exact (Nat.mul_lt_mul_right (Nat.pow_pos (by decide))).1 hpower

namespace Binary64

/-- Mantissa and scale of a value as rounding gives them: the mantissa has at most 53 binary digits,
and no fewer unless the scale is the least one. -/
def Canonical : Binary64 → Prop
  | finite _ m s => m < Nat.pow 2 53 ∧ s ≤ maxScale ∧ (s = 0 ∨ Nat.pow 2 52 ≤ m)
  | _ => True

variable (negative : Bool) {num den num' den' m s : Nat}

/-- Rounding of a quotient that counts units of the least scale. -/
def ofUnits (negative : Bool) (num den : Nat) : Binary64 :=
  let scale := (num / den).log2 - 52
  let mantissa := divRound num (den * Nat.pow 2 scale)
  let (m, s) :=
    if mantissa = Nat.pow 2 53 then (Nat.pow 2 52, scale + 1) else (mantissa, scale)
  if maxScale < s then infinity negative else finite negative m s

theorem ofRatio_eq_ofUnits (num den : Nat) :
    ofRatio negative num den = ofUnits negative (num * Nat.pow 2 bias) den := rfl

theorem ofUnits_mul_right {c : Nat} (hc : 0 < c) :
    ofUnits negative (num * c) (den * c) = ofUnits negative num den := by
  -- the scale depends on the quotient alone, and so does the mantissa at any scale
  have hround (k : Nat) : divRound (num * c) (den * c * k) = divRound num (den * k) := by
    rw [Nat.mul_right_comm den c k, divRound_mul_right _ _ hc]
  simp only [ofUnits, Nat.mul_div_mul_right _ _ hc, hround]

/-- Equal quotients are rounded to the same value. -/
theorem ofUnits_congr (hden : 0 < den) (hden' : 0 < den') (h : num * den' = num' * den) :
    ofUnits negative num den = ofUnits negative num' den' := by
  rw [← ofUnits_mul_right negative hden', h, Nat.mul_comm den den', ofUnits_mul_right negative hden]

/-- A rounded value is canonical. -/
theorem canonical_ofUnits (num den : Nat) : (ofUnits negative num den).Canonical := by
  obtain ⟨q, hq⟩ : ∃ q, q = num / den := ⟨_, rfl⟩
  obtain ⟨k, hk⟩ : ∃ k, k = q.log2 - 52 := ⟨_, rfl⟩
  have hquotient : num / (den * Nat.pow 2 k) = q / 2 ^ k := by
    rw [hq, Nat.div_div_eq_div_mul]
    rfl
  -- the quotient has at most 53 digits at this scale, and exactly 53 unless the scale is zero
  have hlt : q / 2 ^ k < 2 ^ 53 := by
    rw [Nat.div_lt_iff_lt_mul (Nat.two_pow_pos k), ← Nat.pow_add]
    exact Nat.lt_of_lt_of_le q.lt_log2_self (Nat.pow_le_pow_right (by decide) (by omega))
  have hge : k = 0 ∨ 2 ^ 52 ≤ q / 2 ^ k := by
    by_cases hzero : k = 0
    · exact Or.inl hzero
    · refine Or.inr ((Nat.le_div_iff_mul_le (Nat.two_pow_pos k)).2 ?_)
      have hpos : q ≠ 0 := by
        rintro rfl
        simp [Nat.log2_zero] at hk
        exact hzero hk
      rw [← Nat.pow_add, show 52 + k = q.log2 by omega]
      exact Nat.log2_self_le hpos
  have hle := divRound_le num (den * Nat.pow 2 k)
  have hle' := le_divRound num (den * Nat.pow 2 k)
  rw [hquotient] at hle hle'
  unfold ofUnits
  simp only [← hq, ← hk]
  generalize divRound num (den * Nat.pow 2 k) = mantissa at hle hle'
  generalize q / 2 ^ k = r at hlt hge hle hle'
  simp only [Nat.pow_eq, Nat.reducePow] at *
  split <;> split
  · trivial
  · exact ⟨by simp, by omega, by simp⟩
  · trivial
  · exact ⟨by simp; omega, by omega, by simp; omega⟩

/-- A canonical value is rounded to itself. -/
theorem ofUnits_of_canonical (h : (finite negative m s).Canonical) :
    ofUnits negative (m * Nat.pow 2 s) 1 = finite negative m s := by
  obtain ⟨hm, hs, hge⟩ := h
  -- the mantissa has 53 digits, or the scale is zero and it may have fewer
  have hscale : (m * 2 ^ s).log2 - 52 = s := by
    rcases hge with rfl | hge
    · have hlog : m.log2 < 53 := by
        by_cases hzero : m = 0
        · simp [hzero]
        · exact (Nat.log2_lt hzero).2 hm
      rw [Nat.pow_zero, Nat.mul_one]
      omega
    · have hpos : m * 2 ^ s ≠ 0 := by
        refine Nat.mul_ne_zero (fun hzero => ?_) (Nat.ne_of_gt (Nat.two_pow_pos s))
        simp [hzero] at hge
      have hlt : (m * 2 ^ s).log2 < 53 + s := by
        rw [Nat.log2_lt hpos, Nat.pow_add]
        exact (Nat.mul_lt_mul_right (Nat.two_pow_pos s)).2 hm
      have hle : 52 + s ≤ (m * 2 ^ s).log2 := by
        rw [Nat.le_log2 hpos, Nat.pow_add]
        exact Nat.mul_le_mul_right _ hge
      omega
  unfold ofUnits
  simp only [Nat.div_one, Nat.pow_eq, hscale, Nat.one_mul]
  rw [divRound_mul_self _ _ (Nat.two_pow_pos s), if_neg (Nat.ne_of_lt hm)]
  exact if_neg (Nat.not_lt.2 hs)

end Binary64

namespace Decimal

/-- The same number with more zeros at its end. -/
def shift (d : Decimal) (k : Nat) : Decimal := ⟨d.digits * Nat.pow 10 k, d.exponent - k⟩

variable {d : Decimal}

theorem size_le_iff {k : Nat} (hk : 0 < k) : d.size ≤ k ↔ d.digits < Nat.pow 10 k :=
  Nat.length_toDigits_le_iff (by decide) hk

theorem size_pos (d : Decimal) : 0 < d.size := Nat.length_toDigits_pos

theorem size_shift (hd : 0 < d.digits) (k : Nat) : (d.shift k).size = d.size + k := by
  have hiff (n : Nat) : (d.shift k).size ≤ n ↔ d.size + k ≤ n := by
    have hpos := d.size_pos
    have hpos' := (d.shift k).size_pos
    -- a bound that the zeros alone use up holds of neither
    by_cases hn : n ≤ k
    · refine iff_of_false (fun hle => ?_) (by omega)
      have hlt := (size_le_iff (by omega)).1 hle
      have hge : 10 ^ n ≤ d.digits * 10 ^ k :=
        Nat.le_trans (Nat.pow_le_pow_right (by decide) hn) (Nat.le_mul_of_pos_left _ hd)
      exact absurd (Nat.lt_of_lt_of_le hlt hge) (Nat.lt_irrefl _)
    · obtain ⟨j, rfl⟩ : ∃ j, n = j + k := ⟨n - k, by omega⟩
      rw [size_le_iff (by omega), Nat.add_le_add_iff_right, size_le_iff (by omega)]
      show d.digits * 10 ^ k < 10 ^ (j + k) ↔ d.digits < 10 ^ j
      rw [Nat.pow_add, Nat.mul_lt_mul_right (Nat.pow_pos (by decide))]
  exact Nat.le_antisymm ((hiff _).2 (Nat.le_refl _)) ((hiff _).1 (Nat.le_refl _))

theorem ratio_of_nonneg (h : 0 ≤ d.exponent) :
    d.ratio = (d.digits * Nat.pow 10 d.exponent.toNat, 1) := if_pos h

theorem ratio_of_neg (h : d.exponent < 0) :
    d.ratio = (d.digits, Nat.pow 10 (-d.exponent).toNat) := if_neg (Int.not_le.2 h)

theorem ratio_pos (d : Decimal) : 0 < d.ratio.2 := by
  by_cases h : 0 ≤ d.exponent
  · rw [ratio_of_nonneg h]
    exact Nat.one_pos
  · rw [ratio_of_neg (Int.not_le.1 h)]
    exact Nat.pow_pos (by decide)

/-- Both ways to give the number make the same quotient. -/
theorem ratio_shift (d : Decimal) (k : Nat) :
    (d.shift k).ratio.1 * d.ratio.2 = d.ratio.1 * (d.shift k).ratio.2 := by
  have hexponent : (d.shift k).exponent = d.exponent - k := rfl
  have hdigits : (d.shift k).digits = d.digits * 10 ^ k := rfl
  by_cases he : 0 ≤ d.exponent
  · by_cases hek : 0 ≤ d.exponent - k
    · rw [ratio_of_nonneg he, ratio_of_nonneg (by rwa [hexponent]), hdigits, hexponent]
      simp only [Nat.pow_eq]
      rw [Nat.mul_assoc d.digits, ← Nat.pow_add,
        show k + (d.exponent - k).toNat = d.exponent.toNat by omega]
    · rw [ratio_of_nonneg he, ratio_of_neg (by omega), hdigits, hexponent]
      simp only [Nat.pow_eq, Nat.mul_one]
      rw [Nat.mul_assoc d.digits, ← Nat.pow_add,
        show d.exponent.toNat + (-(d.exponent - k)).toNat = k by omega]
  · rw [ratio_of_neg (by omega), ratio_of_neg (by omega), hdigits, hexponent]
    simp only [Nat.pow_eq]
    rw [Nat.mul_assoc d.digits, ← Nat.pow_add,
      show k + (-d.exponent).toNat = (-(d.exponent - k)).toNat by omega]

end Decimal

namespace Binary64

variable (negative : Bool) {m s : Nat}

theorem canonical_ofDecimal (d : Decimal) : (ofDecimal negative d).Canonical := by
  have hzero : (finite negative 0 0).Canonical := ⟨by decide, Nat.zero_le _, Or.inl rfl⟩
  unfold ofDecimal
  split
  · exact hzero
  · split
    · exact hzero
    · split
      · trivial
      · exact canonical_ofUnits ..

/-- A decimal number is rounded by its value. -/
theorem ofDecimal_shift (d : Decimal) (k : Nat) :
    ofDecimal negative (d.shift k) = ofDecimal negative d := by
  by_cases hd : d.digits = 0
  · simp [ofDecimal, Decimal.shift, hd]
  · have hdigits : (d.shift k).digits ≠ 0 :=
      Nat.mul_ne_zero hd (Nat.ne_of_gt (Nat.pow_pos (by decide)))
    have hsize : ((d.shift k).size : Int) + (d.shift k).exponent = d.size + d.exponent := by
      rw [Decimal.size_shift (Nat.pos_of_ne_zero hd)]
      show ((d.size + k : Nat) : Int) + (d.exponent - k) = d.size + d.exponent
      omega
    have hratio : ofRatio negative (d.shift k).ratio.1 (d.shift k).ratio.2 =
        ofRatio negative d.ratio.1 d.ratio.2 := by
      rw [ofRatio_eq_ofUnits, ofRatio_eq_ofUnits]
      refine ofUnits_congr _ (Decimal.ratio_pos _) d.ratio_pos ?_
      rw [Nat.mul_right_comm, d.ratio_shift k, Nat.mul_right_comm]
    unfold ofDecimal
    rw [if_neg hdigits, if_neg hd, hsize, hratio]

/-! ## Reading back -/

theorem exact_of_le (h : bias ≤ s) : exact m s = ⟨m * Nat.pow 2 (s - bias), 0⟩ := if_pos h

theorem exact_of_not_le (h : ¬ bias ≤ s) :
    exact m s = ⟨m * Nat.pow 5 (bias - s), -((bias - s : Nat) : Int)⟩ := if_neg h

/-- The exact decimal number of a canonical value is neither too small nor too large to be
rounded. -/
theorem size_exact (h : (finite negative m s).Canonical) (hm : 0 < m) :
    -330 ≤ (exact m s).size + (exact m s).exponent ∧
      (exact m s).size + (exact m s).exponent ≤ 310 := by
  obtain ⟨hlt, hs, -⟩ := h
  rw [maxScale] at hs
  by_cases hle : bias ≤ s
  · have hupper : (exact m s).size ≤ 310 := by
      rw [Decimal.size_le_iff (by decide), exact_of_le hle]
      refine mul_pow_lt (by decide) hlt (c := 971) ?_ (by decide +kernel)
      rw [bias]
      omega
    have hexponent : (exact m s).exponent = 0 := by rw [exact_of_le hle]
    omega
  · obtain ⟨j, hj⟩ : ∃ j, j = bias - s := ⟨_, rfl⟩
    have hexponent : (exact m s).exponent = -(j : Int) := by rw [exact_of_not_le hle, hj]
    have hdigits : (exact m s).digits = m * Nat.pow 5 j := by rw [exact_of_not_le hle, hj]
    have hupper : (exact m s).size ≤ 310 + j := by
      rw [Decimal.size_le_iff (by omega), hdigits]
      exact mul_pow_five_lt (Nat.lt_trans hlt (by decide +kernel))
    -- more than 330 places after the point, and the power of five would not fit into the rest
    have hlower : j ≤ (exact m s).size + 330 := by
      by_contra hshort
      obtain ⟨i, rfl⟩ : ∃ i, j = 331 + i := ⟨j - 331, by omega⟩
      have hpos := (exact m s).size_pos
      have hsmall := (Decimal.size_le_iff (by omega)).1 (show (exact m s).size ≤ i by omega)
      rw [hdigits] at hsmall
      have hi : i ≤ 743 := by
        rw [bias] at hj
        omega
      exact absurd (pow_five_lt hm hi hsmall) (by decide +kernel)
    omega

/-- The exact decimal number and the value itself are the same quotient. -/
theorem ratio_exact (m s : Nat) :
    (exact m s).ratio.1 * Nat.pow 2 bias * 1 = m * Nat.pow 2 s * (exact m s).ratio.2 := by
  by_cases hle : bias ≤ s
  · rw [exact_of_le hle, Decimal.ratio_of_nonneg (Int.le_refl 0)]
    generalize bias = b at hle
    obtain ⟨j, rfl⟩ : ∃ j, s = j + b := ⟨s - b, by omega⟩
    simp only [Nat.pow_eq, Nat.add_sub_cancel, Int.toNat_zero, Nat.pow_zero, Nat.mul_one]
    rw [Nat.mul_assoc, ← Nat.pow_add]
  · rw [exact_of_not_le hle, Decimal.ratio_of_neg (by simp only; omega)]
    generalize bias = b at hle
    obtain ⟨j, rfl⟩ : ∃ j, b = s + j := ⟨b - s, by omega⟩
    simp only [Nat.pow_eq, Nat.add_sub_cancel_left, Int.neg_neg, Int.toNat_natCast, Nat.mul_one]
    rw [show (10 : Nat) = 2 * 5 from rfl, Nat.mul_pow, Nat.pow_add]
    ring

theorem digits_exact_eq_zero_iff : (exact m s).digits = 0 ↔ m = 0 := by
  have hpow (b k : Nat) (hb : 0 < b) : m * b ^ k = 0 ↔ m = 0 := by
    rw [Nat.mul_eq_zero, or_iff_left (Nat.ne_of_gt (Nat.pow_pos hb))]
  by_cases hle : bias ≤ s
  · rw [exact_of_le hle]
    exact hpow 2 _ (by decide)
  · rw [exact_of_not_le hle]
    exact hpow 5 _ (by decide)

/-- A canonical value is the rounding of its exact decimal number. -/
theorem ofDecimal_exact (h : (finite negative m s).Canonical) :
    ofDecimal negative (exact m s) = finite negative m s := by
  rcases Nat.eq_zero_or_pos m with rfl | hm
  · obtain rfl : s = 0 := by simpa using h.2.2
    rw [ofDecimal, if_pos (digits_exact_eq_zero_iff.2 rfl)]
  · obtain ⟨hlower, hupper⟩ := size_exact negative h hm
    rw [ofDecimal, if_neg (mt digits_exact_eq_zero_iff.1 (Nat.ne_of_gt hm)),
      if_neg (Int.not_lt.2 hlower), if_neg (Int.not_lt.2 hupper), ofRatio_eq_ofUnits,
      ofUnits_congr negative (Decimal.ratio_pos _) Nat.one_pos (ratio_exact m s),
      ofUnits_of_canonical negative h]

/-- The sign plays no part in rounding. -/
theorem ofUnits_eq_finite_iff {num den : Nat} :
    ofUnits negative num den = finite negative m s ↔ ofUnits false num den = finite false m s := by
  simp only [ofUnits]
  split
  · split <;> simp
  · split <;> simp

theorem ofDecimal_eq_finite_iff {d : Decimal} :
    ofDecimal negative d = finite negative m s ↔ ofDecimal false d = finite false m s := by
  unfold ofDecimal
  split
  · simp
  · split
    · simp
    · split
      · simp
      · rw [ofRatio_eq_ofUnits, ofRatio_eq_ofUnits]
        exact ofUnits_eq_finite_iff negative

/-- **The decimal number that is written for a canonical value reads back.** -/
theorem ofDecimal_shortest (h : (finite negative m s).Canonical) :
    ofDecimal negative (shortest m s) = finite negative m s := by
  rw [ofDecimal_eq_finite_iff]
  simp only [shortest]
  cases hfind : ((List.range 17).flatMap fun n => (exact m s).neighbours (n + 1)).find?
      fun c => decide (ofDecimal false c = finite false m s) with
  -- no short candidate reads back, and the exact number does
  | none => exact ofDecimal_exact false h
  | some d =>
    have hread := List.find?_some hfind
    exact of_decide_eq_true hread

end Binary64

end Blueprint
