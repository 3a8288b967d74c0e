import Mathlib.Algebra.Order.Field.Rat
import Mathlib.Tactic.FieldSimp
import Mathlib.Tactic.Ring
import TouchGame.Number.Text
import TouchGame.Proofs.Number.Rounding

/-!
# Shortest digits

What a decimal reads as depends on its value alone, and the shortest digits of a double are a decimal
that reads back as the double.

* `ofRatio_congr` : rounding looks at the quotient, not at how it is written as a fraction.
* `Decimal.toBinary64_eq` : a decimal is read by rounding it, also where it is cut short.
* `Decimal.toBinary64_congr` : decimals of one value read as one double.
* `Binary64.shortest_readsBack` : the shortest digits read back.
-/

namespace TouchGame

/-! ## Rounding a quotient -/

theorem roundHalfEven_scaled {k : Nat} (hk : 0 < k) (num den : Nat) :
    roundHalfEven (k * num) (k * den) = roundHalfEven num den := by
  have hdouble : 2 * (k * (num % den)) = k * (2 * (num % den)) := Nat.mul_left_comm ..
  unfold roundHalfEven
  dsimp only
  rw [Nat.mul_div_mul_left _ _ hk, Nat.mul_mod_mul_left, hdouble]
  simp only [Nat.mul_lt_mul_left hk]

section Quotient

variable {num den num' den' : Nat}

theorem roundHalfEven_congr (hden : 0 < den) (hden' : 0 < den') (h : num * den' = num' * den) :
    roundHalfEven num den = roundHalfEven num' den' := by
  calc roundHalfEven num den
      = roundHalfEven (den' * num) (den' * den) := (roundHalfEven_scaled hden' ..).symm
    _ = roundHalfEven (den * num') (den * den') := by
        rw [Nat.mul_comm den' num, h, Nat.mul_comm num' den, Nat.mul_comm den' den]
    _ = roundHalfEven num' den' := roundHalfEven_scaled hden ..

namespace Binary64

theorem roundQuanta_congr (hden : 0 < den) (hden' : 0 < den') (h : num * den' = num' * den) :
    roundQuanta num den = roundQuanta num' den' := by
  have hquotient : num / den = num' / den' := by
    rw [← Nat.mul_div_mul_left num den hden', Nat.mul_comm den' num, h, Nat.mul_comm num' den,
      Nat.mul_comm den' den, Nat.mul_div_mul_left num' den' hden]
  unfold roundQuanta
  rw [hquotient]
  dsimp only
  have hstep : 0 < powTwo ((num' / den').log2 - 52) := powTwo_pos _
  refine congrArg (· * powTwo ((num' / den').log2 - 52)) ?_
  refine roundHalfEven_congr (Nat.mul_pos hden hstep) (Nat.mul_pos hden' hstep) ?_
  rw [← Nat.mul_assoc, h, Nat.mul_assoc]

theorem ofRatio_congr (negative : Bool) (hden : 0 < den) (hden' : 0 < den')
    (h : num * den' = num' * den) : ofRatio negative num den = ofRatio negative num' den' := by
  rw [ofRatio, ofRatio, roundQuanta_congr hden hden' h]

end Binary64

end Quotient

/-! ## The value of a decimal -/

namespace Decimal

open Binary64

/-- What a decimal is worth. -/
def value (d : Decimal) : ℚ :=
  d.digits * (10 : ℚ) ^ d.exponent

theorem value_scaled (digits zeros : Nat) (exponent : Int) :
    (Decimal.mk (digits * 10 ^ zeros) exponent).value = (Decimal.mk digits (exponent + zeros)).value := by
  simp only [value]
  push_cast
  rw [zpow_add₀ (by decide), zpow_natCast]
  ring

theorem tenPow_pos (k : Nat) : 0 < 10 ^ k :=
  Nat.pow_pos (by decide)

theorem tenPow_ne_zero (k : Nat) : ((10 ^ k : Nat) : ℚ) ≠ 0 :=
  Nat.cast_ne_zero.mpr (Nat.ne_of_gt (tenPow_pos k))

theorem lt_tenPow_digitCount (n : Nat) : n < 10 ^ digitCount n :=
  (Nat.length_toDigits_le_iff (by decide) (List.length_pos_of_ne_nil Nat.toDigits_ne_nil)).mp
    (Nat.le_refl _)

variable {d d' : Decimal}

theorem value_eq (d : Decimal) :
    ((d.digits * 10 ^ d.exponent.toNat * unit : Nat) : ℚ) / ((10 ^ (-d.exponent).toNat : Nat) : ℚ) =
      d.value * unit := by
  have hten : (10 : ℚ) ≠ 0 := by decide
  have hexponent : (10 : ℚ) ^ d.exponent * 10 ^ (-d.exponent).toNat = 10 ^ d.exponent.toNat := by
    rw [← zpow_natCast, ← zpow_natCast, ← zpow_add₀ hten]
    congr 1
    omega
  rw [value, div_eq_iff (tenPow_ne_zero _)]
  push_cast
  rw [← hexponent]
  ring

theorem ofRatio_far (negative : Bool) (hdigits : d.digits ≠ 0) (h : d.exponent > farPlace) :
    ofRatio negative (d.digits * 10 ^ d.exponent.toNat * unit) (10 ^ (-d.exponent).toNat) =
      .infinite negative := by
  have hfar : farPlace ≤ d.exponent.toNat := by omega
  have hden : (-d.exponent).toNat = 0 := by omega
  have hbound : 2 ^ (places + 1024) * 1 ≤ 10 ^ farPlace * unit := by decide +kernel
  have hlarge : 2 ^ (places + 1024) * 1 ≤ d.digits * 10 ^ d.exponent.toNat * unit := by
    refine Nat.le_trans hbound (Nat.mul_le_mul_right _ ?_)
    calc 10 ^ farPlace ≤ 10 ^ d.exponent.toNat := Nat.pow_le_pow_right (by decide) hfar
      _ ≤ d.digits * 10 ^ d.exponent.toNat := Nat.le_mul_of_pos_left _ (Nat.pos_of_ne_zero hdigits)
  have hover : overflowBound ≤ roundQuanta (d.digits * 10 ^ d.exponent.toNat * unit) 1 := by
    rw [overflowBound, powTwo_eq]
    exact le_roundQuanta Nat.one_pos hlarge
  rw [hden, Nat.pow_zero, ofRatio, ofQuanta, dif_neg]
  exact fun hfits => Nat.not_lt.mpr hover hfits.1

theorem ofRatio_near (negative : Bool) (h : d.exponent + digitCount d.digits < -farPlace) :
    ofRatio negative (d.digits * 10 ^ d.exponent.toNat * unit) (10 ^ (-d.exponent).toNat) =
      zero negative := by
  have hnum : d.exponent.toNat = 0 := by omega
  have hfar : digitCount d.digits + farPlace ≤ (-d.exponent).toNat := by omega
  have hsmall : 2 * (d.digits * unit) < 10 ^ (-d.exponent).toNat := by
    calc 2 * (d.digits * unit) = d.digits * (2 * unit) := Nat.mul_left_comm ..
      _ ≤ d.digits * 10 ^ farPlace := Nat.mul_le_mul_left _ (by decide +kernel)
      _ < 10 ^ digitCount d.digits * 10 ^ farPlace :=
          Nat.mul_lt_mul_of_pos_right (lt_tenPow_digitCount _) (tenPow_pos _)
      _ = 10 ^ (digitCount d.digits + farPlace) := (Nat.pow_add ..).symm
      _ ≤ 10 ^ (-d.exponent).toNat := Nat.pow_le_pow_right (by decide) hfar
  have hlow : d.digits * unit / 10 ^ (-d.exponent).toNat = 0 := Nat.div_eq_of_lt (by omega)
  have hstep : powTwo (Nat.log2 0 - 52) = 1 := by decide
  have hround : roundQuanta (d.digits * unit) (10 ^ (-d.exponent).toNat) = 0 := by
    rw [roundQuanta, hlow, hstep, Nat.mul_one, Nat.mul_one, roundHalfEven,
      Nat.mod_eq_of_lt (by omega), if_pos hsmall, hlow]
  rw [hnum, Nat.pow_zero, Nat.mul_one, ofRatio, hround, ofQuanta, dif_pos fits_zero, zero]

theorem toBinary64_eq (negative : Bool) (d : Decimal) : d.toBinary64 negative =
    ofRatio negative (d.digits * 10 ^ d.exponent.toNat * unit) (10 ^ (-d.exponent).toNat) := by
  unfold toBinary64
  split
  · rename_i hdigits
    have hround (den : Nat) : roundQuanta 0 den = 0 := by simp [roundQuanta, roundHalfEven]
    rw [hdigits, Nat.zero_mul, Nat.zero_mul, ofRatio, hround, ofQuanta, dif_pos fits_zero, zero]
  rename_i hdigits
  split
  · rename_i h
    exact (ofRatio_far negative hdigits h).symm
  split
  · rename_i h
    exact (ofRatio_near negative h).symm
  · cases d.exponent <;> simp

theorem toBinary64_congr (negative : Bool) (h : d.value = d'.value) :
    d.toBinary64 negative = d'.toBinary64 negative := by
  have hquotient := value_eq d
  rw [h, ← value_eq d', div_eq_div_iff (tenPow_ne_zero _) (tenPow_ne_zero _)] at hquotient
  rw [toBinary64_eq, toBinary64_eq]
  exact ofRatio_congr negative (tenPow_pos _) (tenPow_pos _) (by exact_mod_cast hquotient)

end Decimal

/-! ## Reading back -/

namespace Binary64

variable {quanta : Nat}

theorem readsBack_iff {digits : Nat} {place : Int} : readsBack quanta digits place = true ↔
    (Decimal.mk digits place).toBinary64 false = ofQuanta false quanta := by
  rw [readsBack, beq_iff_eq]

theorem roundHalfEven_cases (num den : Nat) :
    roundHalfEven num den = num / den ∨ roundHalfEven num den = num / den + 1 := by
  unfold roundHalfEven
  dsimp only
  split
  · exact .inl rfl
  split
  · exact .inr rfl
  · rcases Nat.mod_two_eq_zero_or_one (num / den) with heven | hodd
    · exact .inl (by rw [heven, Nat.add_zero])
    · exact .inr (by rw [hodd])

theorem reading?_readsBack {place : Int} {digits : Nat} (h : reading? quanta place = some digits) :
    readsBack quanta digits place = true := by
  unfold reading? at h
  dsimp only at h
  split at h
  · rename_i hlow hhigh
    obtain rfl := Option.some.inj h
    rcases roundHalfEven_cases (countAt quanta place).1 (countAt quanta place).2 with heq | heq
    · rw [heq, hlow]
    · rw [heq, hhigh]
  · rename_i hlow _
    exact Option.some.inj h ▸ hlow
  · rename_i _ hhigh
    exact Option.some.inj h ▸ hhigh
  · cases h

theorem roundQuanta_exact {den : Nat} (hfits : Fits quanta) (hden : 0 < den) :
    roundQuanta (quanta * den) den = quanta :=
  Nat.le_antisymm (roundQuanta_le_of_fits hden hfits (Nat.le_refl _))
    (le_roundQuanta_of_fits hden hfits (Nat.le_refl _))

theorem powFive_mul (k : Nat) : Nat.pow 5 k * 2 ^ k = 10 ^ k :=
  (Nat.mul_pow 5 2 k).symm

theorem exact_readsBack (hfits : Fits quanta) :
    (Decimal.mk (quanta * Nat.pow 5 places) (-places)).toBinary64 false = ofQuanta false quanta := by
  have hten : Nat.pow 5 places * unit = 10 ^ places := by
    rw [unit_eq, powFive_mul]
  rw [Decimal.toBinary64_eq]
  simp only [Int.toNat_neg_natCast, Nat.pow_zero, Nat.mul_one, Int.neg_neg, Int.toNat_natCast]
  rw [ofRatio, Nat.mul_assoc, hten, roundQuanta_exact hfits (Decimal.tenPow_pos places)]

/-- The shortest digits read back, with either sign. -/
theorem shortest_readsBack (negative : Bool) (hfits : Fits quanta) :
    (shortest quanta).toBinary64 negative = .finite negative quanta hfits := by
  have hread : (shortest quanta).toBinary64 false = ofQuanta false quanta := by
    unfold shortest
    dsimp only
    cases hcoarse : (List.range 17).findSome? fun (i : Nat) =>
        (reading? quanta (leadingPlace quanta - i)).map (Decimal.mk · (leadingPlace quanta - i)) with
    | none => exact exact_readsBack hfits
    | some d =>
      obtain ⟨_, i, _, _, hread, _⟩ := List.findSome?_eq_some_iff.mp hcoarse
      rw [Option.map_eq_some_iff] at hread
      obtain ⟨digits, hdigits, rfl⟩ := hread
      exact readsBack_iff.mp (reading?_readsBack hdigits)
  rw [Decimal.toBinary64_eq, ofRatio] at hread ⊢
  generalize roundQuanta _ _ = rounded at hread ⊢
  unfold ofQuanta at hread ⊢
  rw [dif_pos hfits] at hread
  split at hread
  · rename_i hrounded
    obtain rfl : rounded = quanta := by simpa using hread
    exact dif_pos hrounded
  · cases hread

theorem shortest_digits_ne_zero (hfits : Fits quanta) (hquanta : quanta ≠ 0) :
    (shortest quanta).digits ≠ 0 := by
  intro hzero
  have hread := shortest_readsBack false hfits
  rw [Decimal.toBinary64, if_pos hzero] at hread
  simp only [zero, finite.injEq, true_and] at hread
  exact hquanta hread.symm

end Binary64

end TouchGame
