import Mathlib.Algebra.Order.Floor.Div
import Mathlib.Tactic.Ring
import TouchGame.Proofs.Number.Range

/-!
# Rounding and order

Rounding never leads across a number that a double can have, so whole numbers keep their place among
doubles when they become doubles, and the difference of two doubles has the sign of the exact one. A
quotient of whole numbers that are not too large is rounded by less than what it lacks to the next whole
number, so rounding it up is exact.

* `Binary64.roundQuanta_le_of_fits`, `le_roundQuanta_of_fits` : rounding keeps its side of a double.
* `Binary64.lt_roundQuanta` : what is clearly above a whole number stays above it.
* `Number.paired` : two numbers as arithmetic takes them; `le_paired` : they keep their order.
* `Number.sub_order` : a difference of paired numbers has the sign of the exact one.
* `Number.ceil_quotient` : a quotient of whole numbers, rounded up.
-/

namespace TouchGame

theorem lt_roundHalfEven {num den bound : Nat} (hden : 0 < den)
    (h : 2 * (bound * den) + den < 2 * num) : bound < roundHalfEven num den := by
  have hsplit : den * (num / den) + num % den = num := Nat.div_add_mod num den
  have hlow : bound ≤ num / den := (Nat.le_div_iff_mul_le hden).mpr (by omega)
  unfold roundHalfEven
  dsimp only
  rcases Nat.lt_or_eq_of_le hlow with hlt | heq
  · split
    · exact hlt
    · split <;> omega
  · have hexact : den * (num / den) = bound * den := by rw [← heq, Nat.mul_comm]
    rw [if_neg (by omega), if_pos (by omega)]
    omega

namespace Binary64

variable {num den quanta bound : Nat}

/-! ## Rounding next to a double -/

theorem log2_mono {m n : Nat} (h : m ≤ n) : m.log2 ≤ n.log2 := by
  by_cases hzero : m = 0
  · rw [hzero, Nat.log2_zero]
    exact Nat.zero_le _
  · have hpow : 2 ^ m.log2 ≤ n := Nat.le_trans (Nat.log2_self_le hzero) h
    exact (Nat.le_log2 (by omega)).mpr hpow

theorem roundQuanta_le_of_fits (hden : 0 < den) (hfits : Fits quanta) (h : num ≤ quanta * den) :
    roundQuanta num den ≤ quanta := by
  have hquotient : num / den ≤ quanta := Nat.div_le_of_le_mul (by rwa [Nat.mul_comm])
  have hlog : (num / den).log2 - 52 ≤ quanta.log2 - 52 := Nat.sub_le_sub_right (log2_mono hquotient) 52
  have hmultiple : 2 ^ ((num / den).log2 - 52) ∣ quanta :=
    Nat.dvd_trans (Nat.pow_dvd_pow 2 hlog) (Nat.dvd_of_mod_eq_zero hfits.2)
  unfold roundQuanta
  dsimp only
  rw [powTwo_eq]
  generalize (num / den).log2 - 52 = s at hmultiple ⊢
  obtain ⟨count, rfl⟩ := hmultiple
  have hstep : 0 < den * 2 ^ s := Nat.mul_pos hden (Nat.two_pow_pos s)
  have hnum : num ≤ count * (den * 2 ^ s) := by
    calc num ≤ 2 ^ s * count * den := h
      _ = count * (den * 2 ^ s) := by ring
  rw [Nat.mul_comm (2 ^ s)]
  exact Nat.mul_le_mul_right _ (roundHalfEven_le hstep hnum)

/-- Rounding keeps above the magnitude of a double. -/
theorem le_roundQuanta_of_fits (hden : 0 < den) (hfits : Fits quanta) (h : quanta * den ≤ num) :
    quanta ≤ roundQuanta num den := by
  have hquotient : quanta ≤ num / den := (Nat.le_div_iff_mul_le hden).mpr h
  rcases Nat.lt_or_eq_of_le (log2_mono hquotient) with hlt | heq
  · -- The value has more digits than the double, so a power of two lies between them.
    have hpositive : num / den ≠ 0 := by
      rintro hzero
      rw [hzero, Nat.log2_zero] at hlt
      omega
    have hbelow : quanta < 2 ^ (num / den).log2 := by
      by_cases hzero : quanta = 0
      · rw [hzero]
        exact Nat.two_pow_pos _
      · exact (Nat.log2_lt hzero).mp hlt
    have hpow : 2 ^ (num / den).log2 * den ≤ num :=
      (Nat.le_div_iff_mul_le hden).mp (Nat.log2_self_le hpositive)
    exact Nat.le_trans (Nat.le_of_lt hbelow) (le_roundQuanta hden hpow)
  · have hmultiple : 2 ^ ((num / den).log2 - 52) ∣ quanta := by
      rw [← heq]
      exact Nat.dvd_of_mod_eq_zero hfits.2
    unfold roundQuanta
    dsimp only
    rw [powTwo_eq]
    generalize (num / den).log2 - 52 = s at hmultiple ⊢
    obtain ⟨count, rfl⟩ := hmultiple
    have hstep : 0 < den * 2 ^ s := Nat.mul_pos hden (Nat.two_pow_pos s)
    have hnum : count * (den * 2 ^ s) ≤ num := by
      calc count * (den * 2 ^ s) = 2 ^ s * count * den := by ring
        _ ≤ num := h
    rw [Nat.mul_comm (2 ^ s)]
    exact Nat.mul_le_mul_right _ (le_roundHalfEven hstep hnum)

theorem unit_pos : 0 < unit :=
  powTwo_pos places

theorem pow_dvd_unit {s : Nat} (h : s ≤ places) : 2 ^ s ∣ unit := by
  rw [unit_eq]
  exact Nat.pow_dvd_pow 2 h

theorem whole_lt {n : Nat} (h : n < 2 ^ bound) : n * unit < 2 ^ (places + bound) := by
  have hpow : 2 ^ (places + bound) = 2 ^ bound * unit := by rw [unit_eq, Nat.pow_add, Nat.mul_comm]
  rw [hpow]
  exact Nat.mul_lt_mul_of_pos_right h unit_pos

theorem pow_le_unit : 2 ^ 53 ≤ unit := by
  rw [unit_eq]
  exact Nat.pow_le_pow_right (by decide) (by decide)

theorem fits_whole {n : Nat} (h : n < 2 ^ 53) : Fits (n * unit) := by
  have hlt : n * unit < 2 ^ (places + 53) := whole_lt h
  have hrange : n * unit < overflowBound := by
    rw [overflowBound, powTwo_eq]
    exact Nat.lt_trans hlt (Nat.pow_lt_pow_right (by decide) (by omega))
  refine ⟨hrange, Nat.mod_eq_zero_of_dvd ?_⟩
  have hlog : (n * unit).log2 - 52 ≤ places := by
    by_cases hzero : n * unit = 0
    · rw [hzero, Nat.log2_zero]
      exact Nat.zero_le _
    · have := (Nat.log2_lt hzero).mpr hlt
      omega
  rw [powTwo_eq]
  exact Nat.dvd_mul_left_of_dvd (pow_dvd_unit hlog) n

/-- A step of rounding a quotient of whole numbers of at most 53 digits is less than twice one over the
divisor: it is a quantum, or it is small against the quotient, and that against the dividend. -/
theorem roundingStep_lt {a b : Nat} (ha : a < 2 ^ 53) (hb : b < 2 ^ 53) (hpositive : 0 < b)
    (hquotient : a * unit / b ≠ 0) : b * 2 ^ ((a * unit / b).log2 - 52) < 2 * unit := by
  have hbunit : b < unit := Nat.lt_of_lt_of_le hb pow_le_unit
  rcases Nat.le_total (a * unit / b).log2 52 with hle | hge
  · rw [Nat.sub_eq_zero_of_le hle, Nat.pow_zero]
    omega
  · have hpow : 2 ^ (a * unit / b).log2 * b ≤ a * unit :=
      (Nat.le_div_iff_mul_le hpositive).mp (Nat.log2_self_le hquotient)
    have hlt : a * unit < 2 ^ 53 * unit := Nat.mul_lt_mul_of_pos_right ha unit_pos
    refine Nat.lt_of_mul_lt_mul_left (a := 2 ^ 52) ?_
    calc 2 ^ 52 * (b * 2 ^ ((a * unit / b).log2 - 52))
        = 2 ^ (52 + ((a * unit / b).log2 - 52)) * b := by rw [Nat.pow_add]; ring
      _ = 2 ^ (a * unit / b).log2 * b := by rw [Nat.add_sub_cancel' hge]
      _ < 2 ^ 53 * unit := Nat.lt_of_le_of_lt hpow hlt
      _ = 2 ^ 52 * (2 * unit) := by ring

theorem roundingStep_dvd_unit {a b : Nat} (ha : a < 2 ^ 53) (hquotient : a * unit / b ≠ 0) :
    2 ^ ((a * unit / b).log2 - 52) ∣ unit := by
  refine pow_dvd_unit ?_
  have hlt : a * unit / b < 2 ^ (places + 53) := Nat.lt_of_le_of_lt (Nat.div_le_self _ _) (whole_lt ha)
  have hlog := (Nat.log2_lt hquotient).mpr hlt
  omega

/-- A quotient of whole numbers that lies above another whole number stays above it when it is rounded,
if both have at most 53 digits: half a step of rounding is then less than the distance. -/
theorem lt_roundQuanta {a b m : Nat} (ha : a < 2 ^ 53) (hb : b < 2 ^ 53) (hpositive : 0 < b)
    (h : m * b < a) : m * unit < roundQuanta (a * unit) b := by
  have hquotient : a * unit / b ≠ 0 := by
    have hbunit : b < unit := Nat.lt_of_lt_of_le hb pow_le_unit
    have hone : unit ≤ a * unit := Nat.le_mul_of_pos_left _ (Nat.zero_lt_of_lt h)
    exact Nat.ne_of_gt (Nat.div_pos (by omega) hpositive)
  have hstep := roundingStep_lt ha hb hpositive hquotient
  have hunit := roundingStep_dvd_unit (b := b) ha hquotient
  unfold roundQuanta
  dsimp only
  rw [powTwo_eq]
  generalize (a * unit / b).log2 - 52 = s at hstep hunit ⊢
  obtain ⟨count, hcount⟩ := hunit
  have hdistance : (m * b + 1) * unit ≤ a * unit := Nat.mul_le_mul_right unit h
  have hnum : 2 * (m * count * (b * 2 ^ s)) + b * 2 ^ s < 2 * (a * unit) := by
    have hexact : m * count * (b * 2 ^ s) = m * b * unit := by rw [hcount]; ring
    rw [hexact]
    rw [Nat.add_mul, Nat.one_mul] at hdistance
    omega
  calc m * unit = m * count * 2 ^ s := by rw [hcount]; ring
    _ < _ := Nat.mul_lt_mul_of_pos_right
      (lt_roundHalfEven (Nat.mul_pos hpositive (Nat.two_pow_pos s)) hnum) (Nat.two_pow_pos s)

/-- A rounded quotient of whole numbers of at most 53 digits is rounded up to the same whole number as the
exact one. -/
theorem roundQuanta_ceilDiv {a b : Nat} (ha : a < 2 ^ 53) (hb : b < 2 ^ 53) (hpositive : 0 < b) :
    roundQuanta (a * unit) b ⌈/⌉ unit = a ⌈/⌉ b := by
  have hexact : a ≤ b * (a ⌈/⌉ b) := le_smul_ceilDiv hpositive
  have hle : a ⌈/⌉ b ≤ a := (ceilDiv_le_iff_le_mul hpositive).mpr (Nat.le_mul_of_pos_left a hpositive)
  refine eq_of_forall_ge_iff fun m => ?_
  rw [ceilDiv_le_iff_le_mul unit_pos]
  constructor
  · intro h
    refine (ceilDiv_le_iff_le_mul hpositive).mpr (Nat.le_of_not_lt fun hlt => ?_)
    have habove : m * unit < roundQuanta (a * unit) b :=
      lt_roundQuanta ha hb hpositive (by rwa [Nat.mul_comm])
    rw [Nat.mul_comm unit m] at h
    exact Nat.not_lt_of_le h habove
  · intro h
    have hround : roundQuanta (a * unit) b ≤ (a ⌈/⌉ b) * unit := by
      refine roundQuanta_le_of_fits hpositive (fits_whole (Nat.lt_of_le_of_lt hle ha)) ?_
      calc a * unit ≤ b * (a ⌈/⌉ b) * unit := Nat.mul_le_mul_right _ hexact
        _ = (a ⌈/⌉ b) * unit * b := by ring
    rw [Nat.mul_comm unit m]
    exact Nat.le_trans hround (Nat.mul_le_mul_right unit h)

/-- A double that is not negative, rounded up. -/
theorem ceil?_finite {fits : Fits quanta} :
    (Binary64.finite false quanta fits).ceil? = some ((quanta ⌈/⌉ unit : Nat) : Int) := by
  have hunit : (0 : Int) < unit := Int.ofNat_lt.mpr unit_pos
  have habove : (quanta : Int) ≤ (quanta ⌈/⌉ unit : Nat) * unit := by
    have h : quanta ≤ unit * (quanta ⌈/⌉ unit) := le_smul_ceilDiv unit_pos
    rw [Nat.mul_comm] at h
    exact_mod_cast h
  have hbelow : ((quanta ⌈/⌉ unit : Nat) : Int) * unit < quanta + unit := by
    have h : (quanta ⌈/⌉ unit) * unit ≤ quanta + unit - 1 := Nat.div_mul_le_self _ _
    have hpositive := unit_pos
    exact_mod_cast (by omega : (quanta ⌈/⌉ unit) * unit < quanta + unit)
  have hdiv : (-(quanta : Int)).fdiv unit = -((quanta ⌈/⌉ unit : Nat) : Int) := by
    rw [Int.fdiv_eq_ediv_of_nonneg _ (Int.le_of_lt hunit)]
    apply Int.le_antisymm
    · rw [← Int.lt_add_one_iff, Int.ediv_lt_iff_lt_mul hunit, Int.add_mul, Int.neg_mul, Int.one_mul]
      omega
    · rw [Int.le_ediv_iff_mul_le hunit, Int.neg_mul]
      omega
  change some (-((-(quanta : Int)).fdiv unit)) = _
  rw [hdiv, Int.neg_neg]

/-! ## Order -/

theorem add_ne_nan {x y : Binary64} (hx : x.isFinite = true) (hy : y.isFinite = true) :
    x.add y ≠ .nan := by
  cases x <;> cases hx
  cases y <;> cases hy
  rw [add]
  split
  · exact Binary64.noConfusion
  · unfold ofRatio ofQuanta
    split <;> exact Binary64.noConfusion

theorem neg_isFinite {x : Binary64} : x.neg.isFinite = x.isFinite := by
  cases x <;> rfl

theorem extent?_ofQuanta (negative : Bool) (h : 0 < quanta) :
    ∃ p, (ofQuanta negative quanta).extent? = some p ∧ p.before (.point 0) = negative ∧
      (Extent.point 0).before p = !negative := by
  unfold ofQuanta
  split
  · refine ⟨_, rfl, ?_⟩
    cases negative <;> simp [Extent.before, signed] <;> omega
  · cases negative <;> exact ⟨_, rfl, rfl, rfl⟩

/-- The difference of two doubles lies on the side of zero on which the exact difference lies. -/
theorem extent?_sub {a b : Bool} {m n : Nat} (hm : Fits m) (hn : Fits n) :
    ∃ p, ((finite a m hm).sub (finite b n hn)).extent? = some p ∧
      p.before (.point 0) = decide (signed a m < signed b n) ∧
      (Extent.point 0).before p = decide (signed b n < signed a m) := by
  have hneg : signed (!b) n = -signed b n := by cases b <;> simp [signed]
  unfold sub
  rw [neg, add, hneg]
  generalize signed a m = x, signed b n = y
  split
  · refine ⟨.point 0, ?_, ?_⟩
    · cases (a && !b) <;> rfl
    · simp only [Extent.before_irrefl]
      constructor <;> symm <;> apply decide_eq_false <;> omega
  · rename_i hsum
    have hround : 0 < roundQuanta (x + -y).natAbs 1 := by
      have h : 2 ^ 0 ≤ roundQuanta (x + -y).natAbs 1 := le_roundQuanta Nat.one_pos (by omega)
      exact h
    obtain ⟨p, hp, hbelow, habove⟩ := extent?_ofQuanta (decide (x + -y < 0)) hround
    refine ⟨p, hp, ?_, ?_⟩
    · rw [hbelow]
      exact decide_eq_decide.mpr (by omega)
    · rw [habove, ← decide_not]
      exact decide_eq_decide.mpr (by omega)

theorem ofInt?_eq_some {n : Int} {x : Binary64} (h : ofInt? n = some x) :
    ∃ hfits, x = .finite (decide (n < 0)) (roundQuanta (unit * n.natAbs) 1) hfits := by
  unfold ofInt? ofRatio ofQuanta at h
  by_cases hfits : Fits (roundQuanta (unit * n.natAbs) 1)
  · rw [dif_pos hfits] at h
    exact ⟨hfits, (Option.some.inj h).symm⟩
  · rw [dif_neg hfits] at h
    cases h

/-- A whole number keeps its place among doubles when it becomes one. -/
theorem ofInt?_keeps {n : Int} {x : Binary64} (hx : ofInt? n = some x) {negative : Bool}
    (hfits : Fits quanta) : ∃ z, x.extent? = some (.point z) ∧
      (n * unit ≤ signed negative quanta → z ≤ signed negative quanta) ∧
      (signed negative quanta ≤ n * unit → signed negative quanta ≤ z) := by
  obtain ⟨hround, rfl⟩ := ofInt?_eq_some hx
  refine ⟨_, rfl, ?_⟩
  have hvalue : n * (unit : Int) = signed (decide (n < 0)) (unit * n.natAbs) := by
    rcases Int.lt_or_le n 0 with hneg | hpos
    · rw [decide_eq_true hneg, signed, if_pos rfl, Int.natCast_mul, Int.ofNat_natAbs_of_nonpos (by omega)]
      ring
    · rw [decide_eq_false (by omega), signed, if_neg (by simp), Int.natCast_mul, Int.natAbs_of_nonneg hpos]
      ring
  have hle : unit * n.natAbs ≤ quanta → roundQuanta (unit * n.natAbs) 1 ≤ quanta := fun h =>
    roundQuanta_le_of_fits Nat.one_pos hfits (by rwa [Nat.mul_one])
  have hge : quanta ≤ unit * n.natAbs → quanta ≤ roundQuanta (unit * n.natAbs) 1 := fun h =>
    le_roundQuanta_of_fits Nat.one_pos hfits (by rwa [Nat.mul_one])
  rw [hvalue]
  clear hvalue hround hx
  generalize roundQuanta (unit * n.natAbs) 1 = rounded at *
  generalize unit * n.natAbs = exact at *
  generalize decide (n < 0) = below
  cases below <;> cases negative <;> simp only [signed, if_true, if_false, Bool.false_eq_true] <;> omega

end Binary64

namespace Number

variable {a b p q d : Number}

/-- Two numbers as arithmetic takes them: whole numbers as they are, and anything else as two doubles. -/
def paired : Number → Number → Except ArithmeticFault (Number × Number)
  | .int a, .int b => .ok (.int a, .int b)
  | a, b => do
    let x ← a.toReal
    let y ← b.toReal
    return (.real x, .real y)

/-- Two whole numbers, or two doubles of which the first is no NaN and the second is finite. -/
inductive Alike : Number → Number → Prop
  | int (m n : Int) : Alike (.int m) (.int n)
  | real {x y : Binary64} (hx : x ≠ .nan) (hy : y.isFinite = true) : Alike (.real x) (.real y)

theorem lift_real (onInts : Int → Int → Int) (onReals : Binary64 → Binary64 → Binary64) (x : Binary64)
    (b : Number) : lift onInts onReals (.real x) b = do return .real (onReals x (← b.toReal)) :=
  rfl

theorem sub_ok_iff : a.sub b = .ok d ↔ ∃ p q, a.paired b = .ok (p, q) ∧ p.sub q = .ok d := by
  have hreal (x y : Except ArithmeticFault Binary64) :
      (do return Number.real ((← x).sub (← y))) =
        (do return (Number.real (← x), Number.real (← y))) >>= fun pair => pair.1.sub pair.2 := by
    cases x <;> cases y <;> rfl
  have hpaired : a.sub b = a.paired b >>= fun pair => pair.1.sub pair.2 := by
    cases a with
    | int m =>
      cases b with
      | int n => rfl
      | real y => exact hreal _ _
    | real x => exact hreal _ _
  rw [hpaired, bind_ok_iff]
  exact Prod.exists

theorem Alike.extent? (h : p.Alike q) : p.extent?.isSome ∧ q.extent?.isSome := by
  cases h with
  | int m n => exact ⟨rfl, rfl⟩
  | @real x y hx hy =>
    refine ⟨(nan_or_isSome _).resolve_left fun hnan => hx (Number.real.inj hnan), ?_⟩
    cases y <;> cases hy
    rfl

theorem Alike.sub_ok (h : p.Alike q) : ∃ d, p.sub q = .ok d := by
  cases h <;> exact ⟨_, rfl⟩

theorem sub_order_real {x y : Binary64} (hx : x ≠ .nan) (hy : y.isFinite = true) :
    (Number.real (x.sub y)).extent?.isSome ∧
      (Number.real (x.sub y)).lt 0 = (Number.real x).lt (.real y) ∧
      Number.lt 0 (.real (x.sub y)) = (Number.real y).lt (.real x) := by
  cases y <;> cases hy
  rename_i b n hn
  cases x with
  | nan => exact absurd rfl hx
  | infinite a => cases a <;> exact ⟨rfl, rfl, rfl⟩
  | finite a m hm =>
    obtain ⟨place, hplace, hlow, hhigh⟩ := @Binary64.extent?_sub a b m n hm hn
    have hextent : (Number.real ((Binary64.finite a m hm).sub (.finite b n hn))).extent? = some place :=
      hplace
    simp only [lt, hextent, extent?_zero, hlow, hhigh]
    exact ⟨rfl, rfl, rfl⟩

/-- **A difference of numbers that are alike has the sign of the exact one.** -/
theorem sub_order (h : p.Alike q) (hd : p.sub q = .ok d) :
    d.lt 0 = p.lt q ∧ Number.lt 0 d = q.lt p ∧ d.eq 0 = p.eq q := by
  obtain ⟨hp, hq⟩ := h.extent?
  obtain ⟨hsome, hbelow, habove⟩ :
      d.extent?.isSome ∧ d.lt 0 = p.lt q ∧ Number.lt 0 d = q.lt p := by
    cases h with
    | int m n =>
      cases hd
      refine ⟨rfl, ?_, ?_⟩
      · change (Number.int (m - n)).lt (.int 0) = _
        rw [lt_int, lt_int]
        exact decide_eq_decide.mpr (by omega)
      · change (Number.int 0).lt (.int (m - n)) = _
        rw [lt_int, lt_int]
        exact decide_eq_decide.mpr (by omega)
    | real hx hy =>
      cases hd
      exact sub_order_real hx hy
  refine ⟨hbelow, habove, ?_⟩
  rw [eq_eq_not_lt hsome (by rw [extent?_zero]; rfl), eq_eq_not_lt hp hq, hbelow, habove]

theorem toReal_int_ok {n : Int} {x : Binary64} (h : (Number.int n).toReal = .ok x) :
    Binary64.ofInt? n = some x := by
  unfold toReal at h
  dsimp only at h
  split at h
  · rename_i y hy
    rw [hy, Except.ok.inj h]
  · cases h

theorem toReal_keeps {x y : Binary64} (hx : a.toReal = .ok x) (hy : y.isFinite = true) :
    (a.le (.real y) = true → (Number.real x).le (.real y) = true) ∧
      ((Number.real y).le a = true → (Number.real y).le (.real x) = true) := by
  cases a with
  | real z =>
    cases hx
    exact ⟨id, id⟩
  | int n =>
    cases y <;> cases hy
    rename_i negative quanta hfits
    obtain ⟨place, hplace, hbelow, habove⟩ :=
      @Binary64.ofInt?_keeps quanta n x (toReal_int_ok hx) negative hfits
    have hextent : (Number.real x).extent? = some (.point place) := hplace
    simp only [le, hextent]
    simp only [extent?, Binary64.extent?, Extent.before, Bool.not_eq_true', decide_eq_false_iff_not,
      Int.not_lt]
    exact ⟨hbelow, habove⟩

theorem toReal_isFinite {x : Binary64} (ha : a.isFinite = true) (hx : a.toReal = .ok x) :
    x.isFinite = true := by
  cases a with
  | real z =>
    cases hx
    exact ha
  | int n =>
    obtain ⟨_, rfl⟩ := Binary64.ofInt?_eq_some (toReal_int_ok hx)
    rfl

/-- Two numbers that are paired are whole and stay as they are, or they become the doubles nearest to
them. -/
theorem paired_ok (h : a.paired b = .ok (p, q)) :
    (∃ m n, a = .int m ∧ b = .int n ∧ p = .int m ∧ q = .int n) ∨
      ((∃ z, a = .real z ∨ b = .real z) ∧
        ∃ x y, a.toReal = .ok x ∧ b.toReal = .ok y ∧ p = .real x ∧ q = .real y) := by
  unfold paired at h
  split at h
  · cases h
    exact .inl ⟨_, _, rfl, rfl, rfl, rfl⟩
  · rename_i hmixed
    refine .inr ⟨?_, ?_⟩
    · cases a with
      | real z => exact ⟨z, .inl rfl⟩
      | int m => cases b with
        | real z => exact ⟨z, .inr rfl⟩
        | int n => exact absurd rfl (hmixed m n rfl)
    · simp only [bind_ok_iff, pure_ok_iff, Prod.mk.injEq] at h
      obtain ⟨x, hx, y, hy, rfl, rfl⟩ := h
      exact ⟨x, y, hx, hy, rfl, rfl⟩

theorem toReal_ne_nan {x : Binary64} (ha : a ≠ .real .nan) (hx : a.toReal = .ok x) : x ≠ .nan := by
  rintro rfl
  cases a with
  | real z =>
    cases hx
    exact ha rfl
  | int n => cases toReal_isFinite (a := .int n) rfl hx

theorem paired_alike (ha : a ≠ .real .nan) (hb : b.isFinite = true) (h : a.paired b = .ok (p, q)) :
    p.Alike q := by
  obtain ⟨m, n, _, _, rfl, rfl⟩ | ⟨_, x, y, hx, hy, rfl, rfl⟩ := paired_ok h
  · exact .int m n
  · exact .real (toReal_ne_nan ha hx) (toReal_isFinite hb hy)

/-- **Finite numbers keep their order when they are paired.** -/
theorem le_paired (ha : a.isFinite = true) (hb : b.isFinite = true) (h : a.paired b = .ok (p, q)) :
    (a.le b = true → p.le q = true) ∧ (b.le a = true → q.le p = true) := by
  obtain ⟨m, n, rfl, rfl, rfl, rfl⟩ | ⟨⟨z, rfl | rfl⟩, x, y, hx, hy, rfl, rfl⟩ := paired_ok h
  · exact ⟨id, id⟩
  · cases hx
    exact (toReal_keeps hy ha).symm
  · cases hy
    exact toReal_keeps hx hb

/-- **A quotient of whole numbers of at most 53 digits, rounded up, is exact.** -/
theorem ceil_quotient {a b : Nat} (ha : a < 2 ^ 53) (hb : b < 2 ^ 53) (hpositive : 0 < b) :
    ((Number.int a).quotient (.int b) >>= ceil) = .ok ((a ⌈/⌉ b : Nat) : Int) := by
  have hnum : Binary64.unit * a ≤ 2 ^ (Binary64.places + 53) * b := by
    rw [Nat.mul_comm Binary64.unit]
    exact Nat.le_trans (Nat.le_of_lt (Binary64.whole_lt ha)) (Nat.le_mul_of_pos_right _ hpositive)
  have hsigns : (decide ((a : Int) < 0) != decide ((b : Int) < 0)) = false := by
    rw [decide_eq_false (by omega), decide_eq_false (by omega)]
    rfl
  have hquotient := Binary64.ofRatio_eq false hpositive (by decide : 53 < 1024) hnum
  have hceil : ceil (Binary64.ofRatio false (Binary64.unit * a) b) = .ok ((a ⌈/⌉ b : Nat) : Int) := by
    rw [hquotient, ceil, Binary64.ceil?_finite, Nat.mul_comm Binary64.unit,
      Binary64.roundQuanta_ceilDiv ha hb hpositive]
    rfl
  unfold Number.quotient
  simp only [hsigns, Int.natAbs_natCast]
  generalize Binary64.ofRatio false (Binary64.unit * a) b = x at hquotient hceil ⊢
  subst hquotient
  exact hceil

end Number

end TouchGame
