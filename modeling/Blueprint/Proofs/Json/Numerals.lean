import Blueprint.Json.Decoder
import Blueprint.Json.Writer
import Blueprint.Proofs.Number.Rounding
import Blueprint.Proofs.Text.Trimming

/-!
# Numbers read back

A number is written as an optional sign, a whole part, perhaps a fraction and perhaps an exponent.
What follows it cannot be taken for a part of it, so the reader finds where it ends.

- `Json.IsWhole`, `Json.EndsNumber`: whole parts, and what may follow a number.
- `Json.number_whole`, `Json.number_point`, `Json.number_exponent`: the three forms of a number.
- `NumberLayout.number_place`: digits that were laid out read back as their value.
- `Json.number_int`, `Binary64.number_chars`: so do whole numbers and canonical binary64 values.
-/

namespace Blueprint

/-! ## Digits -/

theorem ofDigits_eq_ofDigitChars (ds : List Char) : ofDigits ds = Nat.ofDigitChars 10 ds 0 :=
  Nat.ofDigitChars_eq_foldl.symm

@[simp] theorem ofDigits_toDigits (n : Nat) : ofDigits (Nat.toDigits 10 n) = n := by
  rw [ofDigits_eq_ofDigitChars, Nat.ofDigitChars_ten_toDigits]

theorem ofDigits_append (ds es : List Char) :
    ofDigits (ds ++ es) = ofDigits ds * Nat.pow 10 es.length + ofDigits es := by
  simp only [ofDigits_eq_ofDigitChars, Nat.ofDigitChars_append]
  rw [Nat.ofDigitChars_eq_ofDigitChars_zero, Nat.mul_comm]
  rfl

@[simp] theorem NumberLayout.length_zeros (n : Nat) : (zeros n).length = n :=
  List.length_replicate

open NumberLayout in
@[simp] theorem ofDigits_zeros (n : Nat) : ofDigits (zeros n) = 0 := by
  rw [ofDigits_eq_ofDigitChars, zeros, Nat.ofDigitChars_replicate_zero, Nat.mul_zero]

theorem ofDigits_zeros_append (n : Nat) (ds : List Char) :
    ofDigits (NumberLayout.zeros n ++ ds) = ofDigits ds := by
  rw [ofDigits_append, ofDigits_zeros, Nat.zero_mul, Nat.zero_add]

theorem ofDigits_append_zeros (ds : List Char) (n : Nat) :
    ofDigits (ds ++ NumberLayout.zeros n) = ofDigits ds * Nat.pow 10 n := by
  rw [ofDigits_append, ofDigits_zeros, Nat.add_zero, NumberLayout.length_zeros]

/-- Only zero is written with a zero in front. -/
theorem head?_toDigits {n : Nat} (h : (Nat.toDigits 10 n).head? = some '0') : n = 0 := by
  induction n using Nat.strongRecOn with
  | ind n ih =>
    by_cases hn : n < 10
    · rw [Nat.toDigits_of_lt_base hn] at h
      simpa using h
    · have hpos : 0 < n / 10 := by omega
      rw [Nat.toDigits_of_base_le (by decide) (by omega), List.head?_append,
        Option.or_of_isSome (by simp)] at h
      have hzero := ih (n / 10) (by omega) h
      omega

namespace Json

/-! ## Forms of numbers -/

/-- Digits as they stand before the point: at least one, and no zero in front of others. -/
structure IsWhole (ds : List Char) : Prop where
  ne_nil : ds ≠ []
  digits : ∀ c ∈ ds, c.isDigit = true
  zero : ds.head? = some '0' → ds = ['0']

theorem isWhole_toDigits (n : Nat) : IsWhole (Nat.toDigits 10 n) where
  ne_nil := Nat.toDigits_ne_nil
  digits _ := Nat.isDigit_of_mem_toDigits (by decide) (by decide)
  zero h := by rw [head?_toDigits h, Nat.toDigits_zero]

/-- What may follow a number: nothing that could be a part of it. -/
def EndsNumber (rest : List Char) : Prop :=
  ∀ c ∈ rest.head?, c.isDigit = false ∧ c ≠ '.' ∧ c ≠ 'e' ∧ c ≠ 'E'

variable {ds whole fraction rest : List Char}

theorem spanDigits_append (hds : ∀ c ∈ ds, c.isDigit = true)
    (hrest : ∀ c ∈ rest.head?, c.isDigit = false) : spanDigits (ds ++ rest) = (ds, rest) := by
  rw [spanDigits, Text.takeWhile_eq_iff.2 ⟨hds, rest, rfl, hrest⟩,
    Text.dropWhile_eq_iff.2 ⟨ds, rfl, hds, hrest⟩]

theorem wholePart?_append (h : IsWhole whole) (hrest : ∀ c ∈ rest.head?, c.isDigit = false) :
    wholePart? (whole ++ rest) = some (whole, rest) := by
  have hspan := spanDigits_append h.digits hrest
  cases hwhole : whole with
  | nil => exact absurd hwhole h.ne_nil
  | cons c ds =>
    rw [hwhole] at hspan
    by_cases hc : c = '0'
    · -- a zero stands alone
      subst hc
      obtain rfl : ds = [] := by simpa [hwhole] using h.zero (by rw [hwhole]; rfl)
      rfl
    · have hdigit : c.isDigit = true := h.digits c (by simp [hwhole])
      rw [List.cons_append] at hspan ⊢
      rw [wholePart?, if_pos hdigit, hspan]
      exact hc

/-- A sign. -/
def signChars (negative : Bool) : List Char := if negative then ['-'] else []

theorem number_sign (negative : Bool) (h : IsWhole whole)
    (hrest : ∀ c ∈ rest.head?, c.isDigit = false) :
    number (signChars negative ++ (whole ++ rest)) = unsignedNumber negative whole rest := by
  have hpart := wholePart?_append h hrest
  unfold number
  split
  next sign body heq =>
    split at heq
    · next hminus =>
      cases heq
      cases negative with
      | true =>
        obtain rfl : whole ++ rest = body := by simpa [signChars] using hminus
        rw [hpart]
      | false =>
        -- the first character is a digit
        obtain ⟨c, ds, hwhole⟩ := List.exists_cons_of_ne_nil h.ne_nil
        have hc : c = '-' := by
          rw [hwhole] at hminus
          exact (List.cons.inj hminus).1
        have hdigit := h.digits c (by simp [hwhole])
        exact absurd hdigit (by rw [hc]; decide)
    · next hminus =>
      cases heq
      cases negative with
      | true => exact absurd rfl (hminus (whole ++ rest))
      | false =>
        rw [signChars, if_neg Bool.false_ne_true, List.nil_append, hpart]

theorem fractionPart_of_ne (h : '.' ∉ rest.head?) : fractionPart rest = ([], rest) := by
  unfold fractionPart
  split
  · exact absurd rfl h
  · rfl

theorem fractionPart_point (hne : fraction ≠ []) (hdigits : ∀ c ∈ fraction, c.isDigit = true)
    (hrest : ∀ c ∈ rest.head?, c.isDigit = false) :
    fractionPart ('.' :: (fraction ++ rest)) = (fraction, rest) := by
  have hempty : fraction.isEmpty = false := by simpa using hne
  simp [fractionPart, spanDigits_append hdigits hrest, hempty]

theorem exponentPart?_of_ne (h : ∀ c ∈ rest.head?, c ≠ 'e' ∧ c ≠ 'E') :
    exponentPart? rest = none := by
  cases rest with
  | nil => rfl
  | cons c rest => simp [exponentPart?, h c rfl]

theorem exponentPart?_mark (negative : Bool) (hne : ds ≠ [])
    (hdigits : ∀ c ∈ ds, c.isDigit = true) (hrest : ∀ c ∈ rest.head?, c.isDigit = false) :
    exponentPart? ('e' :: (if negative then '-' else '+') :: (ds ++ rest)) =
      some (if negative then -(ofDigits ds : Int) else ofDigits ds, rest) := by
  have hempty : ds.isEmpty = false := by simpa using hne
  cases negative <;>
    simp [exponentPart?, signPart, spanDigits_append hdigits hrest, hempty]

variable (negative : Bool)

theorem unsignedNumber_whole (hlength : whole.length ≤ maxDigits) (hrest : EndsNumber rest) :
    unsignedNumber negative whole rest =
      .ok (int (if negative then -(ofDigits whole : Int) else ofDigits whole), rest) := by
  have hfraction := fractionPart_of_ne fun hc => (hrest _ hc).2.1 rfl
  have hexponent := exponentPart?_of_ne fun c hc => (hrest c hc).2.2
  simp only [unsignedNumber, hfraction, hexponent]
  rw [if_pos (by rfl), if_neg (Nat.not_lt.2 hlength)]

theorem unsignedNumber_decimal {after : List Char} {exponent : Option (Int × List Char)}
    (hfraction : fractionPart rest = (fraction, after)) (hexponent : exponentPart? after = exponent)
    (h : fraction.isEmpty = false ∨ exponent.isNone = false) :
    unsignedNumber negative whole rest =
      .ok (float (.ofDecimal negative ⟨ofDigits (whole ++ fraction),
        (exponent.getD (0, after)).1 - fraction.length⟩), (exponent.getD (0, after)).2) := by
  -- with either of them the number is no whole number
  have hboth : ¬ (fraction.isEmpty && exponent.isNone) = true := by
    rw [Bool.and_eq_true]
    rintro ⟨hempty, hnone⟩
    simp [hempty, hnone] at h
  simp only [unsignedNumber, hfraction, hexponent]
  rw [if_neg hboth]

/-- A number without fraction and exponent is a whole number. -/
theorem number_whole (h : IsWhole whole) (hlength : whole.length ≤ maxDigits)
    (hrest : EndsNumber rest) :
    number (signChars negative ++ (whole ++ rest)) =
      .ok (int (if negative then -(ofDigits whole : Int) else ofDigits whole), rest) := by
  rw [number_sign negative h fun c hc => (hrest c hc).1,
    unsignedNumber_whole negative hlength hrest]

/-- A number with a fraction is rounded. -/
theorem number_point (h : IsWhole whole) (hne : fraction ≠ [])
    (hdigits : ∀ c ∈ fraction, c.isDigit = true) (hrest : EndsNumber rest) :
    number (signChars negative ++ (whole ++ '.' :: (fraction ++ rest))) =
      .ok (float (.ofDecimal negative ⟨ofDigits (whole ++ fraction), -(fraction.length : Int)⟩),
        rest) := by
  have hpoint : ∀ c ∈ ('.' :: (fraction ++ rest)).head?, c.isDigit = false := by
    rintro _ ⟨⟩
    rfl
  rw [number_sign negative h hpoint, unsignedNumber_decimal negative
    (fractionPart_point hne hdigits fun c hc => (hrest c hc).1)
    (exponentPart?_of_ne fun c hc => (hrest c hc).2.2) (Or.inl (by simpa using hne))]
  simp

/-- So is a number with an exponent, whether or not it has a fraction. -/
theorem number_exponent (h : IsWhole whole) (hfraction : ∀ c ∈ fraction, c.isDigit = true)
    (downwards : Bool) (hne : ds ≠ []) (hdigits : ∀ c ∈ ds, c.isDigit = true)
    (hrest : EndsNumber rest) :
    number (signChars negative ++ (whole ++ ((if fraction.isEmpty then [] else '.' :: fraction) ++
        'e' :: (if downwards then '-' else '+') :: (ds ++ rest)))) =
      .ok (float (.ofDecimal negative ⟨ofDigits (whole ++ fraction),
        (if downwards then -(ofDigits ds : Int) else ofDigits ds) - fraction.length⟩), rest) := by
  have hexponent := exponentPart?_mark downwards hne hdigits fun c hc => (hrest c hc).1
  have hmark : ∀ c ∈ ('e' :: (if downwards then '-' else '+') :: (ds ++ rest)).head?,
      c.isDigit = false := by
    rintro _ ⟨⟩
    rfl
  cases fraction with
  | nil =>
    rw [List.isEmpty_nil, if_pos rfl, List.nil_append, number_sign negative h hmark,
      unsignedNumber_decimal negative (fractionPart_of_ne (by simp)) hexponent (Or.inr rfl)]
    rfl
  | cons c fraction =>
    have hpoint : ∀ c' ∈ ('.' :: (c :: fraction ++ 'e' :: (if downwards then '-' else '+') ::
        (ds ++ rest))).head?, c'.isDigit = false := by
      rintro _ ⟨⟩
      rfl
    rw [List.isEmpty_cons, if_neg Bool.false_ne_true, List.cons_append,
      number_sign negative h hpoint, unsignedNumber_decimal negative
        (fractionPart_point (List.cons_ne_nil _ _) hfraction hmark) hexponent (Or.inl rfl)]
    rfl

end Json

/-! ## Digits that were laid out -/

namespace NumberLayout

open Json

/-- The digits of a number without zeros around them. -/
structure Significant (ds : List Char) : Prop where
  digits : ∀ c ∈ ds, c.isDigit = true
  head : ∃ c ∈ ds.head?, c ≠ '0'

variable {ds rest : List Char}

theorem isDigit_of_mem_zeros {n : Nat} {c : Char} (h : c ∈ zeros n) : c.isDigit = true := by
  rw [List.eq_of_mem_replicate h]
  rfl

theorem Significant.isWhole (h : Significant ds) {w : Nat} (hw : 0 < w) (n : Nat) :
    IsWhole (ds.take w ++ zeros n) := by
  obtain ⟨c, hc, hzero⟩ := h.head
  obtain ⟨ds', rfl⟩ : ∃ ds', ds = c :: ds' := List.head?_eq_some_iff.1 hc
  obtain ⟨v, rfl⟩ : ∃ v, w = v + 1 := ⟨w - 1, by omega⟩
  refine ⟨by simp, fun x hx => ?_, fun hhead => ?_⟩
  · rcases List.mem_append.1 hx with hx | hx
    · exact h.digits x (List.mem_of_mem_take hx)
    · exact isDigit_of_mem_zeros hx
  · exact absurd (Option.some.inj hhead) hzero

theorem Significant.length_pos (h : Significant ds) : 0 < ds.length := by
  obtain ⟨c, hc, -⟩ := h.head
  obtain ⟨ds', rfl⟩ := List.head?_eq_some_iff.1 hc
  exact Nat.succ_pos _

variable (negative : Bool)

/-- Digits after zeros and the point. -/
theorem number_below_one (h : Significant ds) (k : Nat) (hrest : EndsNumber rest) :
    number (signChars negative ++ (['0'] ++ '.' :: (zeros k ++ ds ++ rest))) =
      .ok (float (.ofDecimal negative ⟨ofDigits ds, -((k + ds.length : Nat) : Int)⟩), rest) := by
  have hlength := h.length_pos
  have hne : zeros k ++ ds ≠ [] := List.ne_nil_of_length_pos (by simp; omega)
  have hdigits : ∀ c ∈ zeros k ++ ds, c.isDigit = true := by
    intro c hc
    rcases List.mem_append.1 hc with hc | hc
    · exact isDigit_of_mem_zeros hc
    · exact h.digits c hc
  have hwhole : IsWhole (zeros 1) := isWhole_toDigits 0
  have hread := number_point negative hwhole hne hdigits hrest
  -- the zeros in front add nothing to the digits, but they count as places after the point
  rwa [ofDigits_zeros_append, ofDigits_zeros_append, List.length_append, length_zeros] at hread

/-- Digits around the point, and zeros where there are none. -/
theorem number_around_point (h : Significant ds) {w : Nat} (hw : 0 < w) (hrest : EndsNumber rest) :
    number (signChars negative ++ (ds.take w ++ zeros (w - ds.length) ++
        '.' :: ((if (ds.drop w).isEmpty then ['0'] else ds.drop w) ++ rest))) =
      .ok (float (.ofDecimal negative ⟨ofDigits ds, (w : Int) - ds.length⟩), rest) := by
  have hwhole := h.isWhole hw (w - ds.length)
  by_cases hle : ds.length ≤ w
  · -- the fraction is a zero that adds nothing, like the zeros before the point
    have hdrop : ds.drop w = [] := List.drop_eq_nil_of_le hle
    rw [hdrop, List.isEmpty_nil, if_pos rfl,
      number_point negative hwhole (List.cons_ne_nil _ _) (by simp) hrest,
      List.take_of_length_le hle, List.append_assoc]
    have hshift : Decimal.mk (ofDigits (ds ++ (zeros (w - ds.length) ++ ['0'])))
        (-((['0'] : List Char).length : Int)) =
        (Decimal.mk (ofDigits ds) ((w : Int) - ds.length)).shift (w - ds.length + 1) := by
      have hzeros : zeros (w - ds.length) ++ ['0'] = zeros (w - ds.length + 1) :=
        List.replicate_succ'.symm
      rw [hzeros, ofDigits_append_zeros]
      simp only [Decimal.shift, List.length_singleton, Decimal.mk.injEq, true_and]
      omega
    rw [hshift, Binary64.ofDecimal_shift]
  · -- digits are left for the fraction, and no zeros are needed before the point
    have hdrop : ds.drop w ≠ [] := List.ne_nil_of_length_pos (by rw [List.length_drop]; omega)
    have hempty : (ds.drop w).isEmpty = false := by simpa using hdrop
    rw [hempty, if_neg Bool.false_ne_true, number_point negative hwhole hdrop
      (fun c hc => h.digits c (List.mem_of_mem_drop hc)) hrest, Nat.sub_eq_zero_of_le (by omega)]
    have hparts : ds.take w ++ zeros 0 ++ ds.drop w = ds := by
      rw [zeros, List.replicate_zero, List.append_nil, List.take_append_drop]
    have hexponent : -((ds.drop w).length : Int) = (w : Int) - ds.length := by
      rw [List.length_drop]
      omega
    rw [hparts, hexponent]

/-- One digit before the point, and an exponent. -/
theorem number_scientific (h : Significant ds) (order : Int) (n : Nat) (hrest : EndsNumber rest) :
    number (signChars negative ++ (ds.take 1 ++ ((if (ds.drop 1).isEmpty then []
        else '.' :: ds.drop 1) ++ 'e' :: (if order < 0 then '-' else '+') ::
        (zeros n ++ Nat.toDigits 10 order.natAbs ++ rest)))) =
      .ok (float (.ofDecimal negative ⟨ofDigits ds, order + 1 - ds.length⟩), rest) := by
  have hlength := h.length_pos
  have hwhole : IsWhole (ds.take 1) := by simpa [zeros] using h.isWhole Nat.one_pos 0
  have hdigits : ∀ c ∈ zeros n ++ Nat.toDigits 10 order.natAbs, c.isDigit = true := by
    intro c hc
    rcases List.mem_append.1 hc with hc | hc
    · exact isDigit_of_mem_zeros hc
    · exact (isWhole_toDigits _).digits c hc
  have hread := number_exponent negative hwhole
    (fun c hc => h.digits c (List.mem_of_mem_drop (i := 1) hc)) (decide (order < 0))
    (by simp) hdigits hrest
  simp only [decide_eq_true_eq] at hread
  rw [hread, ofDigits_zeros_append, ofDigits_toDigits, List.take_append_drop, List.length_drop]
  have hexponent : (if order < 0 then -(order.natAbs : Int) else order.natAbs) -
      ((ds.length - 1 : Nat) : Int) = order + 1 - ds.length := by
    split <;> omega
  rw [hexponent]

/-- **Digits that were laid out read back as the number they stand for.** -/
theorem number_place (l : NumberLayout) (h : Significant ds) (order : Int)
    (hrest : EndsNumber rest) :
    number (signChars negative ++ (l.place ds order ++ rest)) =
      .ok (float (.ofDecimal negative ⟨ofDigits ds, order + 1 - ds.length⟩), rest) := by
  unfold place
  split
  · split
    · next hnegative =>
      have hexponent : -(((-order - 1).toNat + ds.length : Nat) : Int) = order + 1 - ds.length := by
        omega
      have hread := number_below_one negative h (-order - 1).toNat hrest
      rw [hexponent] at hread
      simpa using hread
    · next hnonneg =>
      have hexponent : ((order.toNat + 1 : Nat) : Int) - ds.length = order + 1 - ds.length := by
        omega
      have hread := number_around_point negative h (Nat.succ_pos order.toNat) hrest
      rw [hexponent] at hread
      simpa using hread
  · have hread := number_scientific negative h order
      (l.exponentWidth - (Nat.toDigits 10 order.natAbs).length) hrest
    simpa using hread

end NumberLayout

/-! ## Whole numbers and binary64 values -/

namespace Json

variable {rest : List Char}

theorem toList_toString (n : Int) :
    (toString n).toList = signChars (decide (n < 0)) ++ Nat.toDigits 10 n.natAbs := by
  rw [Int.toString_eq_repr, Int.repr_eq_if]
  by_cases h : n < 0
  · have hnat : (-n).toNat = n.natAbs := by omega
    simp [signChars, h, Int.not_le.2 h, hnat]
  · have hnat : n.toNat = n.natAbs := by omega
    simp [signChars, h, Int.not_lt.1 h, hnat]

/-- A whole number of few enough digits reads back. -/
theorem number_int (n : Int) (h : (Nat.toDigits 10 n.natAbs).length ≤ maxDigits)
    (hrest : EndsNumber rest) : number ((toString n).toList ++ rest) = .ok (int n, rest) := by
  rw [toList_toString, List.append_assoc, number_whole _ (isWhole_toDigits _) h hrest,
    ofDigits_toDigits]
  have hvalue : (if decide (n < 0) = true then -(n.natAbs : Int) else n.natAbs) = n := by
    by_cases hn : n < 0
    · rw [if_pos (decide_eq_true hn)]
      omega
    · rw [if_neg (by simpa using hn)]
      omega
  rw [hvalue]

end Json

namespace Binary64

open Json

variable {rest : List Char}

/-- A number is written with its significant digits and zeros after them. -/
theorem exists_trimZeros {n : Nat} (hn : 0 < n) :
    NumberLayout.Significant (trimZeros (Nat.toDigits 10 n)) ∧
      ∃ k, Nat.toDigits 10 n = trimZeros (Nat.toDigits 10 n) ++ NumberLayout.zeros k := by
  obtain ⟨after, happend, hafter, -⟩ := Text.dropEndWhile_eq_iff.1
    (Eq.refl (Text.dropEndWhile (fun c => decide (c = '0')) (Nat.toDigits 10 n)))
  have hzeros : after = NumberLayout.zeros after.length :=
    List.eq_replicate_iff.2 ⟨rfl, fun c hc => of_decide_eq_true (hafter c hc)⟩
  rw [hzeros] at happend
  change Nat.toDigits 10 n = trimZeros (Nat.toDigits 10 n) ++ _ at happend
  refine ⟨⟨fun c hc => ?_, ?_⟩, after.length, happend⟩
  · exact (isWhole_toDigits n).digits c (happend ▸ List.mem_append_left _ hc)
  · cases htrim : trimZeros (Nat.toDigits 10 n) with
    | nil =>
      -- zeros alone stand for zero
      have hvalue := ofDigits_toDigits n
      rw [happend, htrim, List.nil_append, ofDigits_zeros] at hvalue
      omega
    | cons c ds =>
      refine ⟨c, rfl, fun hc => ?_⟩
      have hhead : (Nat.toDigits 10 n).head? = some '0' := by rw [happend, htrim, hc]; rfl
      have hzero := head?_toDigits hhead
      omega

/-- **A canonical value reads back.** -/
theorem number_chars {negative : Bool} {m s : Nat} (h : (finite negative m s).Canonical)
    (hrest : EndsNumber rest) :
    number ((finite negative m s).chars .standard ++ rest) =
      .ok (float (finite negative m s), rest) := by
  show number (signChars negative ++ (if m = 0 then _ else _) ++ rest) = _
  rw [List.append_assoc]
  have hread := ofDecimal_shortest negative h
  split
  · next hm =>
    obtain rfl : s = 0 := by simpa [hm] using h.2.2
    have hzero : IsWhole ['0'] := isWhole_toDigits 0
    have hpoint := number_point negative hzero (List.cons_ne_nil '0' []) (by simp) hrest
    rw [hm]
    exact hpoint
  · next hm =>
    simp only
    generalize shortest m s = d at hread
    have hdigits : 0 < d.digits := by
      refine Nat.pos_of_ne_zero fun hzero => hm ?_
      rw [ofDecimal, if_pos hzero] at hread
      exact (finite.inj hread).2.1.symm
    obtain ⟨hsignificant, k, hk⟩ := exists_trimZeros hdigits
    rw [NumberLayout.number_place negative .standard hsignificant _ hrest]
    -- the digits that are not written are zeros
    generalize trimZeros (Nat.toDigits 10 d.digits) = ds at hk
    have hshift : d = (Decimal.mk (ofDigits ds)
        (((Nat.toDigits 10 d.digits).length : Int) - 1 + d.exponent + 1 - ds.length)).shift k := by
      have hvalue : d.digits = ofDigits ds * Nat.pow 10 k := by
        rw [← ofDigits_append_zeros, ← hk, ofDigits_toDigits]
      have hlength : (Nat.toDigits 10 d.digits).length = ds.length + k := by
        rw [hk, List.length_append, NumberLayout.length_zeros]
      rw [Decimal.shift, ← hvalue, hlength]
      obtain ⟨digits, exponent⟩ := d
      simp only [Decimal.mk.injEq, true_and]
      omega
    rw [← ofDecimal_shift negative _ k, ← hshift, hread]

end Binary64

end Blueprint
