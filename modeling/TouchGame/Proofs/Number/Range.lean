import Mathlib.Algebra.Order.Ring.Int
import TouchGame.Proofs.Number.Order
import TouchGame.Proofs.Results

/-!
# Ranges of numbers

How large a number can become by arithmetic, in powers of two. Rounding never leads across a power of two,
so it keeps every bound that is one. A double that is changed in much smaller steps never even passes such a
bound: behind it, the next double is further away than the step. Whole numbers are exact and do grow, by as
much as is added.

* `roundQuanta_le`, `le_roundQuanta`, `fits_roundQuanta` : rounding within powers of two.
* `roundQuanta_absorbs` : a small excess over a power of two is rounded away.
* `Binary64.add_atMost`, `sub_atMost`, `div_atMost` : sums, differences and quotients of doubles.
* `Number.Held` : a bound for whole numbers and one for doubles.
* `Number.Held.add`, `Within.sub`, `Within.quotient`, `WholeWithin.times` : arithmetic within range.
* `Number.HasReal` : a number has a nearest double, and so it can be written with given digits.
-/

namespace TouchGame

/-! ## Rounding -/

theorem roundHalfEven_le {num den bound : Nat} (hden : 0 < den) (h : num ≤ bound * den) :
    roundHalfEven num den ≤ bound := by
  have hsplit : den * (num / den) + num % den = num := Nat.div_add_mod num den
  have hlow : num / den ≤ bound := Nat.div_le_of_le_mul (by rwa [Nat.mul_comm])
  unfold roundHalfEven
  dsimp only
  rcases Nat.lt_or_eq_of_le hlow with hlt | heq
  · split
    · omega
    · split <;> omega
  · have hexact : den * (num / den) = bound * den := by rw [heq, Nat.mul_comm]
    rw [if_pos (by omega)]
    exact hlow

theorem le_roundHalfEven {num den bound : Nat} (hden : 0 < den) (h : bound * den ≤ num) :
    bound ≤ roundHalfEven num den := by
  have hlow : bound ≤ num / den := (Nat.le_div_iff_mul_le hden).mpr h
  unfold roundHalfEven
  dsimp only
  split
  · exact hlow
  · split <;> omega

namespace Binary64

theorem powTwo_eq (exponent : Nat) : powTwo exponent = 2 ^ exponent := rfl

theorem unit_eq : unit = 2 ^ places := powTwo_eq places

variable {num den k : Nat}

theorem log2_le (h : num ≤ 2 ^ k * den) : (num / den).log2 ≤ k := by
  have hquotient : num / den ≤ 2 ^ k := Nat.div_le_of_le_mul (by rwa [Nat.mul_comm])
  by_cases hzero : num / den = 0
  · rw [hzero, Nat.log2_zero]
    exact Nat.zero_le k
  · have hlt : num / den < 2 ^ (k + 1) := by
      have := Nat.pow_lt_pow_right (a := 2) (by decide) (Nat.lt_succ_self k)
      omega
    exact Nat.lt_succ_iff.mp ((Nat.log2_lt hzero).mpr hlt)

theorem roundQuanta_le (hden : 0 < den) (h : num ≤ 2 ^ k * den) : roundQuanta num den ≤ 2 ^ k := by
  unfold roundQuanta
  dsimp only
  rw [powTwo_eq]
  generalize hs : (num / den).log2 - 52 = s
  have hsk : s ≤ k := by
    have := log2_le h
    omega
  have hstep : 0 < den * 2 ^ s := Nat.mul_pos hden (Nat.two_pow_pos s)
  have hpow : 2 ^ (k - s) * 2 ^ s = 2 ^ k := Nat.pow_sub_mul_pow 2 hsk
  have hnum : num ≤ 2 ^ (k - s) * (den * 2 ^ s) := by
    rw [Nat.mul_left_comm, hpow, Nat.mul_comm den]
    exact h
  rw [← hpow]
  exact Nat.mul_le_mul_right _ (roundHalfEven_le hstep hnum)

/-- Rounding keeps above a power of two. -/
theorem le_roundQuanta (hden : 0 < den) (h : 2 ^ k * den ≤ num) : 2 ^ k ≤ roundQuanta num den := by
  have hquotient : 2 ^ k ≤ num / den := (Nat.le_div_iff_mul_le hden).mpr h
  have hpositive : num / den ≠ 0 := by
    have := Nat.two_pow_pos k
    omega
  unfold roundQuanta
  dsimp only
  rw [powTwo_eq]
  generalize hs : (num / den).log2 - 52 = s
  have hstep : 0 < den * 2 ^ s := Nat.mul_pos hden (Nat.two_pow_pos s)
  by_cases hsk : s ≤ k
  · have hpow : 2 ^ (k - s) * 2 ^ s = 2 ^ k := Nat.pow_sub_mul_pow 2 hsk
    have hnum : 2 ^ (k - s) * (den * 2 ^ s) ≤ num := by
      rw [Nat.mul_left_comm, hpow, Nat.mul_comm den]
      exact h
    rw [← hpow]
    exact Nat.mul_le_mul_right _ (le_roundHalfEven hstep hnum)
  · have hlow : 2 ^ s ≤ num / den := by
      have hlog : 2 ^ (num / den).log2 ≤ num / den := Nat.log2_self_le hpositive
      have hle : (2 : Nat) ^ s ≤ 2 ^ (num / den).log2 := Nat.pow_le_pow_right (by decide) (by omega)
      omega
    have hnum : 1 * (den * 2 ^ s) ≤ num := by
      rw [Nat.one_mul, Nat.mul_comm]
      exact (Nat.le_div_iff_mul_le hden).mp hlow
    have hone : 1 ≤ roundHalfEven num (den * 2 ^ s) := le_roundHalfEven hstep hnum
    have hle : (2 : Nat) ^ k ≤ 2 ^ s := Nat.pow_le_pow_right (by decide) (by omega)
    calc 2 ^ k ≤ 2 ^ s := hle
      _ = 1 * 2 ^ s := (Nat.one_mul _).symm
      _ ≤ _ := Nat.mul_le_mul_right _ hone

theorem mantissa_le (num : Nat) (hden : 0 < den) :
    roundHalfEven num (den * 2 ^ ((num / den).log2 - 52)) ≤ 2 ^ 53 := by
  have hstep : 0 < den * 2 ^ ((num / den).log2 - 52) := Nat.mul_pos hden (Nat.two_pow_pos _)
  refine roundHalfEven_le hstep ?_
  have hquotient : num / den < 2 ^ ((num / den).log2 + 1) := Nat.lt_log2_self
  have hpow : (2 : Nat) ^ ((num / den).log2 + 1) ≤ 2 ^ (53 + ((num / den).log2 - 52)) :=
    Nat.pow_le_pow_right (by decide) (by omega)
  have hnum : num < den * 2 ^ (53 + ((num / den).log2 - 52)) := by
    have hsplit := Nat.lt_mul_div_succ num hden
    exact Nat.lt_of_lt_of_le hsplit (Nat.mul_le_mul_left den (by omega))
  rw [Nat.pow_add] at hnum
  calc num ≤ den * (2 ^ 53 * 2 ^ ((num / den).log2 - 52)) := Nat.le_of_lt hnum
    _ = _ := Nat.mul_left_comm _ _ _

/-- A rounded value below the overflow bound is the magnitude of a double. -/
theorem fits_roundQuanta (hden : 0 < den) (h : num ≤ 2 ^ k * den) (hk : k < places + 1024) :
    Fits (roundQuanta num den) := by
  have hlt : roundQuanta num den < overflowBound := by
    rw [overflowBound, powTwo_eq]
    exact Nat.lt_of_le_of_lt (roundQuanta_le hden h) (Nat.pow_lt_pow_right (by decide) hk)
  refine ⟨hlt, ?_⟩
  clear hlt
  have hmantissa := mantissa_le num hden
  unfold roundQuanta
  dsimp only
  rw [powTwo_eq, powTwo_eq]
  generalize (num / den).log2 - 52 = s at hmantissa ⊢
  generalize roundHalfEven num (den * 2 ^ s) = mantissa at hmantissa ⊢
  apply Nat.mod_eq_zero_of_dvd
  rcases Nat.lt_or_eq_of_le hmantissa with hlt | heq
  · -- Fewer digits than 54: the last of them stands at the step, or in front of it.
    have hrounded : mantissa * 2 ^ s < 2 ^ (53 + s) := by
      rw [Nat.pow_add]
      exact Nat.mul_lt_mul_of_pos_right hlt (Nat.two_pow_pos s)
    have hlog : (mantissa * 2 ^ s).log2 - 52 ≤ s := by
      by_cases hzero : mantissa * 2 ^ s = 0
      · rw [hzero, Nat.log2_zero]
        omega
      · have := (Nat.log2_lt hzero).mpr hrounded
        omega
    exact Nat.dvd_trans (Nat.pow_dvd_pow 2 hlog) (Nat.dvd_mul_left _ _)
  · -- Rounded up to the next power of two.
    rw [heq, ← Nat.pow_add, Nat.log2_two_pow]
    exact Nat.pow_dvd_pow 2 (by omega)

/-- A small excess over a power of two is rounded away. -/
theorem roundQuanta_absorbs (hk : 54 ≤ k) (h : num ≤ 2 ^ k + 2 ^ (k - 54)) :
    roundQuanta num 1 ≤ 2 ^ k := by
  rcases Nat.lt_or_ge (2 ^ k) num with hlt | hle
  · have hpow : (2 : Nat) ^ k = 2 ^ 54 * 2 ^ (k - 54) := by
      rw [← Nat.pow_add]
      congr 1
      omega
    have hstep : (2 : Nat) ^ (k - 52) = 4 * 2 ^ (k - 54) := by
      rw [show k - 52 = 2 + (k - 54) by omega, Nat.pow_add]
    have hquarter : 0 < 2 ^ (k - 54) := Nat.two_pow_pos _
    have hlog : num.log2 = k := by
      rw [Nat.log2_eq_iff (by omega), Nat.pow_succ]
      omega
    unfold roundQuanta
    dsimp only
    rw [powTwo_eq, Nat.div_one, hlog, Nat.one_mul, hstep]
    rw [hpow] at h hlt ⊢
    generalize (2 : Nat) ^ (k - 54) = quarter at h hlt hquarter ⊢
    -- The value lies within the first quarter of the step behind the power of two.
    have hlow : num / (4 * quarter) = 2 ^ 52 := Nat.div_eq_of_lt_le (by omega) (by omega)
    have hrest : num % (4 * quarter) = num - 4 * quarter * 2 ^ 52 := by rw [Nat.mod_def, hlow]
    have hdown : roundHalfEven num (4 * quarter) = 2 ^ 52 := by
      unfold roundHalfEven
      dsimp only
      rw [if_pos (by omega), hlow]
    rw [hdown]
    omega
  · exact roundQuanta_le Nat.one_pos (by omega)

/-! ## Doubles in range -/

/-- A double is finite, and its magnitude is at most a power of two. -/
inductive AtMost (p : Nat) : Binary64 → Prop
  | finite {negative : Bool} {quanta : Nat} {fits : Fits quanta} (h : quanta ≤ 2 ^ (places + p)) :
    AtMost p (.finite negative quanta fits)

/-- A double is finite, and its magnitude is at least the inverse of a power of two. -/
inductive AtLeast (bits : Nat) : Binary64 → Prop
  | finite {negative : Bool} {quanta : Nat} {fits : Fits quanta} (h : 2 ^ places ≤ quanta * 2 ^ bits) :
    AtLeast bits (.finite negative quanta fits)

variable {p q bits : Nat} {x y : Binary64}

theorem AtMost.mono (hpq : p ≤ q) (h : x.AtMost p) : x.AtMost q := by
  obtain ⟨hquanta⟩ := h
  exact ⟨Nat.le_trans hquanta (Nat.pow_le_pow_right (by decide) (by omega))⟩

theorem AtMost.neg (h : x.AtMost p) : x.neg.AtMost p := by
  obtain ⟨hquanta⟩ := h
  exact ⟨hquanta⟩

theorem AtMost.abs (h : x.AtMost p) : x.abs.AtMost p := by
  obtain ⟨hquanta⟩ := h
  exact ⟨hquanta⟩

theorem AtLeast.mono (hbits : bits ≤ q) (h : x.AtLeast bits) : x.AtLeast q := by
  obtain ⟨hquanta⟩ := h
  refine ⟨Nat.le_trans hquanta (Nat.mul_le_mul_left _ ?_)⟩
  exact Nat.pow_le_pow_right (by decide) hbits

theorem AtLeast.abs (h : x.AtLeast bits) : x.abs.AtLeast bits := by
  obtain ⟨hquanta⟩ := h
  exact ⟨hquanta⟩

theorem zero_atMost (negative : Bool) : (zero negative).AtMost p :=
  ⟨Nat.zero_le _⟩

theorem ofRatio_eq (negative : Bool) (hden : 0 < den) (hp : p < 1024)
    (h : num ≤ 2 ^ (places + p) * den) : ofRatio negative num den =
      .finite negative (roundQuanta num den) (fits_roundQuanta hden h (Nat.add_lt_add_left hp places)) := by
  rw [ofRatio, ofQuanta, dif_pos (fits_roundQuanta hden h (Nat.add_lt_add_left hp places))]

theorem ofRatio_atMost (negative : Bool) (hden : 0 < den) (hp : p < 1024)
    (h : num ≤ 2 ^ (places + p) * den) : (ofRatio negative num den).AtMost p := by
  rw [ofRatio_eq negative hden hp h]
  exact ⟨roundQuanta_le hden h⟩

theorem ofRatio_absorbs (negative : Bool) (hp : p + 1 < 1024)
    (h : num ≤ 2 ^ (places + p) + 2 ^ (places + p - 54)) : (ofRatio negative num 1).AtMost p := by
  have hplaces : 54 ≤ places := by decide
  have hsmall : (2 : Nat) ^ (places + p - 54) ≤ 2 ^ (places + p) :=
    Nat.pow_le_pow_right (by decide) (by omega)
  have hnum : num ≤ 2 ^ (places + (p + 1)) * 1 := by
    rw [← Nat.add_assoc, Nat.pow_succ]
    omega
  rw [ofRatio_eq negative Nat.one_pos hp hnum]
  exact ⟨roundQuanta_absorbs (by omega) h⟩

theorem natAbs_signed (negative : Bool) (quanta : Nat) : (signed negative quanta).natAbs = quanta := by
  cases negative <;> simp [signed]

/-- A sum stays within a power of two that the magnitudes of both numbers together do not pass, or
pass slightly. -/
theorem add_atMost_of (hx : x.AtMost q) (hy : y.AtMost bits) (hp : p + 1 < 1024)
    (hroom : 2 ^ (places + q) + 2 ^ (places + bits) ≤ 2 ^ (places + p) + 2 ^ (places + p - 54)) :
    (x.add y).AtMost p := by
  obtain @⟨a, m, _, hm⟩ := hx
  obtain @⟨b, n, _, hn⟩ := hy
  have hsum : (signed a m + signed b n).natAbs ≤ m + n := by
    have := Int.natAbs_add_le (signed a m) (signed b n)
    rwa [natAbs_signed, natAbs_signed] at this
  rw [add]
  split
  · exact zero_atMost _
  · exact ofRatio_absorbs _ hp (by omega)

theorem add_atMost (hx : x.AtMost p) (hy : y.AtMost bits) (hbits : bits + 54 ≤ p)
    (hp : p + 1 < 1024) : (x.add y).AtMost p := by
  refine add_atMost_of hx hy hp (Nat.add_le_add_left ?_ _)
  exact Nat.pow_le_pow_right (by decide) (by omega)

theorem sub_atMost (hx : x.AtMost p) (hy : y.AtMost p) (hp : p + 2 < 1024) :
    (x.sub y).AtMost (p + 1) := by
  refine add_atMost_of hx hy.neg hp ?_
  rw [← Nat.add_assoc, Nat.pow_succ, Nat.mul_two]
  exact Nat.le_add_right _ _

theorem div_atMost (hx : x.AtMost p) (hy : y.AtLeast bits) (hp : p + bits < 1024) :
    (x.div y).AtMost (p + bits) := by
  obtain @⟨a, m, _, hm⟩ := hx
  obtain @⟨b, n, _, hn⟩ := hy
  have hpositive : 0 < n := by
    rcases Nat.eq_zero_or_pos n with rfl | hpositive
    · have := Nat.two_pow_pos places
      omega
    · exact hpositive
  rw [div, if_neg (by omega)]
  refine ofRatio_atMost _ hpositive hp ?_
  rw [unit_eq]
  calc 2 ^ places * m ≤ (n * 2 ^ bits) * 2 ^ (places + p) := Nat.mul_le_mul hn hm
    _ = 2 ^ (places + (p + bits)) * n := by
      rw [← Nat.add_assoc, Nat.pow_add 2 (places + p), Nat.mul_assoc, Nat.mul_comm n,
        Nat.mul_comm (2 ^ bits)]

theorem ofInt?_within {n : Int} (hp : p < 1024) (h : n.natAbs ≤ 2 ^ p) :
    ∃ x, ofInt? n = some x ∧ x.AtMost p ∧ (n ≠ 0 → x.AtLeast 0) := by
  have hnum : unit * n.natAbs ≤ 2 ^ (places + p) * 1 := by
    rw [unit_eq, Nat.pow_add, Nat.mul_one]
    exact Nat.mul_le_mul_left _ h
  have hx := ofRatio_eq (decide (n < 0)) Nat.one_pos hp hnum
  unfold ofInt?
  generalize ofRatio (decide (n < 0)) (unit * n.natAbs) 1 = x at hx ⊢
  subst hx
  refine ⟨_, rfl, ⟨roundQuanta_le Nat.one_pos hnum⟩, fun hn => ⟨?_⟩⟩
  rw [Nat.pow_zero, Nat.mul_one]
  refine le_roundQuanta Nat.one_pos ?_
  rw [unit_eq]
  exact Nat.mul_le_mul_left _ (Int.natAbs_pos.mpr hn)

theorem ceil?_within (h : x.AtMost p) : ∃ n, x.ceil? = some n ∧ n ≤ 2 ^ p := by
  obtain @⟨a, m, _, hm⟩ := h
  refine ⟨_, rfl, ?_⟩
  have hsigned : signed a m ≤ 2 ^ p * unit := by
    have hle : (signed a m).natAbs ≤ 2 ^ p * unit := by
      rw [natAbs_signed, unit_eq, ← Nat.pow_add, Nat.add_comm]
      exact hm
    exact_mod_cast Int.le_trans Int.le_natAbs (Int.ofNat_le.mpr hle)
  have hunit : (0 : Int) < unit := Int.ofNat_lt.mpr (powTwo_pos places)
  have hlow : -(2 ^ p : Int) ≤ (-signed a m).fdiv unit := by
    rw [Int.fdiv_eq_ediv_of_nonneg _ (Int.le_of_lt hunit), Int.le_ediv_iff_mul_le hunit]
    rw [Int.neg_mul]
    exact Int.neg_le_neg hsigned
  rw [← Int.neg_neg (2 ^ p)]
  exact Int.neg_le_neg hlow

end Binary64

/-! ## Numbers in range -/

namespace Number

open Binary64 (AtMost)

/-- A whole number within a bound, or a double within a power of two. -/
inductive Held (p bound : Nat) : Number → Prop
  | int {n : Int} (h : n.natAbs ≤ bound) : Held p bound (.int n)
  | real {x : Binary64} (h : x.AtMost p) : Held p bound (.real x)

/-- A number is finite, and its magnitude is at most a power of two. -/
def Within (p : Nat) (a : Number) : Prop :=
  a.Held p (2 ^ p)

/-- A number is finite, and its magnitude is at least the inverse of a power of two. -/
inductive AtLeast (bits : Nat) : Number → Prop
  | int {n : Int} (h : n ≠ 0) : AtLeast bits (.int n)
  | real {x : Binary64} (h : x.AtLeast bits) : AtLeast bits (.real x)

/-- A whole number is within a power of two; a double may be anything. -/
def WholeWithin (p : Nat) (a : Number) : Prop :=
  ∀ n, a = .int n → n.natAbs ≤ 2 ^ p

def HasReal (a : Number) : Prop :=
  ∃ x, a.toReal = .ok x

variable {p q r bits bound low high : Nat} {a b : Number}

theorem Held.mono (hpq : p ≤ q) (hbound : low ≤ high) (h : a.Held p low) : a.Held q high := by
  cases h with
  | int h => exact .int (Nat.le_trans h hbound)
  | real h => exact .real (h.mono hpq)

theorem Held.abs (h : a.Held p bound) : a.abs.Held p bound := by
  cases h with
  | int h => exact .int (by rwa [Int.natAbs_natCast])
  | real h => exact .real h.abs

theorem Held.neg (h : a.Held p bound) : a.neg.Held p bound := by
  cases h with
  | int h => exact .int (by rwa [Int.natAbs_neg])
  | real h => exact .real h.neg

theorem Held.max (ha : a.Held p bound) (hb : b.Held p bound) : (a.max b).Held p bound := by
  unfold Number.max
  split
  · exact hb
  · exact ha

theorem Held.min (ha : a.Held p bound) (hb : b.Held p bound) : (a.min b).Held p bound := by
  unfold Number.min
  split
  · exact hb
  · exact ha

theorem Within.mono (hpq : p ≤ q) (h : a.Within p) : a.Within q :=
  Held.mono hpq (Nat.pow_le_pow_right (by decide) hpq) h

theorem AtLeast.abs (h : a.AtLeast bits) : a.abs.AtLeast bits := by
  cases h with
  | int h => exact .int (by simpa using h)
  | real h => exact .real h.abs

theorem real_hasReal (x : Binary64) : (Number.real x).HasReal :=
  ⟨x, rfl⟩

theorem HasReal.max (ha : a.HasReal) (hb : b.HasReal) : (a.max b).HasReal := by
  unfold Number.max
  split
  · exact hb
  · exact ha

theorem toReal_int {n : Int} {x : Binary64} (h : Binary64.ofInt? n = some x) :
    (Number.int n).toReal = .ok x := by
  unfold Number.toReal
  simp only [h]

theorem Held.toReal (hp : p < 1024) (hbound : bound ≤ 2 ^ p) (h : a.Held p bound) :
    ∃ x, a.toReal = .ok x ∧ x.AtMost p := by
  cases h with
  | int h =>
    obtain ⟨x, hx, hle, _⟩ := Binary64.ofInt?_within hp (Nat.le_trans h hbound)
    exact ⟨x, toReal_int hx, hle⟩
  | real h => exact ⟨_, rfl, h⟩

theorem Within.hasReal (hp : p < 1024) (h : a.Within p) : a.HasReal := by
  obtain ⟨x, hx, _⟩ := Held.toReal hp (Nat.le_refl _) h
  exact ⟨x, hx⟩

theorem WholeWithin.hasReal (hp : p < 1024) (h : a.WholeWithin p) : a.HasReal := by
  cases a with
  | int n => exact Within.hasReal hp (.int (h n rfl))
  | real x => exact real_hasReal x

theorem AtLeast.toReal (hp : p < 1024) (h : a.AtLeast bits) (ha : a.Within p) :
    ∃ x, a.toReal = .ok x ∧ x.AtLeast bits := by
  cases h with
  | int hn =>
    cases ha with
    | int ha =>
      obtain ⟨x, hx, _, hge⟩ := Binary64.ofInt?_within hp ha
      exact ⟨x, toReal_int hx, (hge hn).mono (Nat.zero_le _)⟩
  | real h => exact ⟨_, rfl, h⟩

theorem lift_held {onInts : Int → Int → Int} {onReals : Binary64 → Binary64 → Binary64}
    (hp : p < 1024) (hq : q < 1024) (hlow : low ≤ 2 ^ p) (hhigh : high ≤ 2 ^ q)
    (ha : a.Held p low) (hb : b.Held q high)
    (hints : ∀ m n : Int, m.natAbs ≤ low → n.natAbs ≤ high → (onInts m n).natAbs ≤ bound)
    (hreals : ∀ x y : Binary64, x.AtMost p → y.AtMost q → (onReals x y).AtMost r) :
    ∃ c, lift onInts onReals a b = .ok c ∧ c.Held r bound := by
  obtain ⟨x, hx, hxp⟩ := ha.toReal hp hlow
  obtain ⟨y, hy, hyq⟩ := hb.toReal hq hhigh
  have hreal : ∃ c, (do return Number.real (onReals (← a.toReal) (← b.toReal))) =
      (.ok c : Except ArithmeticFault Number) ∧ c.Held r bound := by
    rw [hx, hy]
    exact ⟨_, rfl, .real (hreals x y hxp hyq)⟩
  cases ha with
  | int ha =>
    cases hb with
    | int hb => exact ⟨_, rfl, .int (hints _ _ ha hb)⟩
    | real hb => exact hreal
  | real ha => exact hreal

/-- A sum grows by what is added where it is whole, and not at all across a power of two where it is a
double and what is added is small. -/
theorem Held.add (ha : a.Held p low) (hb : b.Held bits high) (hbits : bits + 54 ≤ p)
    (hp : p + 1 < 1024) (hlow : low ≤ 2 ^ p) (hhigh : high ≤ 2 ^ bits) :
    ∃ c, a.add b = .ok c ∧ c.Held p (low + high) := by
  refine lift_held (by omega) (by omega) hlow hhigh ha hb ?_ ?_
  · intro m n hm hn
    have := Int.natAbs_add_le m n
    omega
  · intro x y hx hy
    exact Binary64.add_atMost hx hy hbits hp

theorem Within.sub (ha : a.Within p) (hb : b.Within p) (hp : p + 2 < 1024) :
    ∃ c, a.sub b = .ok c ∧ c.Within (p + 1) := by
  refine lift_held (by omega) (by omega) (Nat.le_refl _) (Nat.le_refl _) ha hb ?_ ?_
  · intro m n hm hn
    have := Int.natAbs_sub_le m n
    rw [Nat.pow_succ]
    omega
  · intro x y hx hy
    exact Binary64.sub_atMost hx hy hp

theorem WholeWithin.times {count : Nat} (hcount : count ≤ 2 ^ p) (hb : b.WholeWithin bits)
    (hp : p + bits < 1024) : ∃ c, (Number.int count).mul b = .ok c ∧ c.HasReal := by
  cases b with
  | int n =>
    refine ⟨_, rfl, Within.hasReal hp (.int ?_)⟩
    rw [Int.natAbs_mul, Int.natAbs_natCast, Nat.pow_add]
    exact Nat.mul_le_mul hcount (hb n rfl)
  | real y =>
    have hcounted : (Number.int count).Held p count := .int (Nat.le_of_eq (Int.natAbs_natCast count))
    obtain ⟨x, hx, _⟩ := hcounted.toReal (by omega) hcount
    refine ⟨.real (x.mul y), ?_, real_hasReal _⟩
    change (do return Number.real ((← (Number.int count).toReal).mul (← (Number.real y).toReal))) = _
    rw [hx]
    rfl

/-- A quotient is a finite double, and as much larger as the divisor is smaller than one. -/
theorem Within.quotient (ha : a.Within p) (hb : b.Within q) (hge : b.AtLeast bits)
    (hp : p + bits < 1024) (hq : q < 1024) : ∃ x, a.quotient b = .ok x ∧ x.AtMost (p + bits) := by
  obtain ⟨x, hx, hxp⟩ := Held.toReal (by omega) (Nat.le_refl _) ha
  obtain ⟨y, hy, hyge⟩ := hge.toReal hq hb
  have hreal : ∃ z, (do return (← a.toReal).div (← b.toReal)) = (.ok z : Except ArithmeticFault _) ∧
      z.AtMost (p + bits) := by
    rw [hx, hy]
    exact ⟨_, rfl, Binary64.div_atMost hxp hyge hp⟩
  cases ha with
  | int ha =>
    cases hge with
    | @int n hn =>
      rename_i m
      have hden : 0 < n.natAbs := Int.natAbs_pos.mpr hn
      have hnum : Binary64.unit * m.natAbs ≤ 2 ^ (Binary64.places + p) * n.natAbs := by
        rw [Binary64.unit_eq, Nat.pow_add, Nat.mul_assoc]
        exact Nat.mul_le_mul_left _ (Nat.le_trans ha (Nat.le_mul_of_pos_right _ hden))
      have hz := Binary64.ofRatio_atMost (decide (m < 0) != decide (n < 0)) hden (by omega) hnum
      unfold Number.quotient
      dsimp only
      generalize Binary64.ofRatio _ _ _ = z at hz ⊢
      obtain ⟨hquanta⟩ := hz
      exact ⟨_, rfl, AtMost.mono (by omega) ⟨hquanta⟩⟩
    | real => exact hreal
  | real => exact hreal

theorem ceil_within {x : Binary64} (h : x.AtMost p) : ∃ n, ceil x = .ok n ∧ n.toNat ≤ 2 ^ p := by
  obtain ⟨n, hn, hle⟩ := Binary64.ceil?_within h
  obtain ⟨hquanta⟩ := h
  refine ⟨n, ?_, ?_⟩
  · rw [ceil, hn]
    rfl
  · rw [Int.toNat_le]
    exact_mod_cast hle

theorem HasReal.general (h : a.HasReal) : ∃ text, a.general = .ok text := by
  obtain ⟨x, hx⟩ := h
  refine ⟨x.general, ?_⟩
  rw [Number.general, hx]
  rfl

theorem powTen_eq (exponent : Nat) : Nat.pow 10 exponent = 10 ^ exponent := rfl

theorem written_int {n : Int} (h : n.natAbs < 10 ^ Numeral.digitLimit) :
    (Number.int n).written = .ok (Number.int n).text := by
  unfold Number.written
  dsimp only
  rw [powTen_eq, if_pos h]

theorem Within.written (hp : p < 1024) (h : a.Within p) : ∃ text, a.written = .ok text := by
  cases h with
  | int h =>
    have hlimit : p ≤ Numeral.digitLimit := Nat.le_trans (Nat.le_of_lt hp) (by decide)
    have hdigits : (2 : Nat) ^ p < 10 ^ Numeral.digitLimit :=
      calc (2 : Nat) ^ p ≤ 2 ^ Numeral.digitLimit := Nat.pow_le_pow_right (by decide) hlimit
        _ < 10 ^ Numeral.digitLimit := Nat.pow_lt_pow_left (by decide) (by decide)
    exact ⟨_, written_int (Nat.lt_of_le_of_lt h hdigits)⟩
  | real => exact ⟨_, rfl⟩

theorem HasReal.generalSigned (h : a.HasReal) : ∃ text, a.generalSigned = .ok text := by
  obtain ⟨shown, hshown⟩ := h.general
  rw [Number.generalSigned, hshown]
  exact ⟨_, rfl⟩

theorem HasReal.fixedOne (h : a.HasReal) : ∃ text, a.fixedOne = .ok text := by
  obtain ⟨x, hx⟩ := h
  refine ⟨x.fixedOne, ?_⟩
  rw [Number.fixedOne, hx]
  rfl

end Number

end TouchGame
