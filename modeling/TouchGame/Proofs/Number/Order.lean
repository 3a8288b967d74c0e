import TouchGame.Check.Limits

/-!
# The order of numbers

Numbers compare by where they lie on the extended line, so `lt` is a strict order on all numbers but
the NaN, which is below and above nothing. `clamp` leads every number, a NaN too, between its bounds.

* `Extent.before` is a strict total order.
* `Number.lt_iff`, `le_iff`, `eq_iff` : the comparisons by extents.
* `Number.within_clamp`, `Number.clamp_changes` : a clamped number is within its bounds, and differs
  from a number that was not.
* `Number.clamp_eq_of_within`, `abs_abs_eq`, .. : a number that is corrected already stays what it is.
* `Number.lt_eq_not_le` : of two numbers that are no NaN, one is below the other or not.
-/

namespace TouchGame

namespace Extent

@[simp] theorem before_irrefl (p : Extent) : p.before p = false := by
  cases p <;> simp [before]

theorem before_trans {p q r : Extent} (hpq : p.before q = true) (hqr : q.before r = true) :
    p.before r = true := by
  cases p <;> cases q <;> cases r <;> simp_all [before]
  omega

theorem before_asymm {p q : Extent} (h : p.before q = true) : q.before p = false := by
  cases p <;> cases q <;> simp_all [before]
  omega

theorem eq_or_before {p q : Extent} (h : q.before p = false) : p = q ∨ p.before q = true := by
  cases p <;> cases q <;> simp_all [before]
  omega

end Extent

namespace Number

variable {a b c value low high : Number}

/-! ## Comparisons by extents -/

theorem lt_iff :
    a.lt b = true ↔ ∃ p q, a.extent? = some p ∧ b.extent? = some q ∧ p.before q = true := by
  unfold lt
  split <;> simp_all

theorem le_iff :
    a.le b = true ↔ ∃ p q, a.extent? = some p ∧ b.extent? = some q ∧ q.before p = false := by
  unfold le
  split <;> simp_all

theorem eq_iff : a.eq b = true ↔ ∃ p, a.extent? = some p ∧ b.extent? = some p := by
  unfold eq
  split
  · rename_i p q hp hq
    simp only [hp, hq, Option.some.injEq, beq_iff_eq]
    exact ⟨fun h => ⟨p, rfl, h.symm⟩, fun ⟨r, hpr, hqr⟩ => hpr.trans hqr.symm⟩
  · simp_all

theorem lt_trans (hab : a.lt b = true) (hbc : b.lt c = true) : a.lt c = true := by
  rw [lt_iff] at *
  grind [Extent.before_trans]

theorem lt_of_le_of_lt (hab : a.le b = true) (hbc : b.lt c = true) : a.lt c = true := by
  rw [lt_iff] at *
  rw [le_iff] at hab
  grind [Extent.before_trans, Extent.eq_or_before]

theorem lt_of_lt_of_le (hab : a.lt b = true) (hbc : b.le c = true) : a.lt c = true := by
  rw [lt_iff] at *
  rw [le_iff] at hbc
  grind [Extent.before_trans, Extent.eq_or_before]

theorem le_of_lt (h : a.lt b = true) : a.le b = true := by
  rw [lt_iff] at h
  rw [le_iff]
  grind [Extent.before_asymm]

theorem not_le_of_lt (h : a.lt b = true) : b.le a = false := by
  rw [lt_iff] at h
  rw [← Bool.not_eq_true, le_iff]
  grind

theorem lt_irrefl (a : Number) : a.lt a = false := by
  rw [← Bool.not_eq_true, lt_iff]
  grind [Extent.before_irrefl]

theorem not_lt_of_lt (h : a.lt b = true) : b.lt a = false := by
  rw [lt_iff] at h
  rw [← Bool.not_eq_true, lt_iff]
  grind [Extent.before_asymm]

theorem not_lt_of_le (h : a.le b = true) : b.lt a = false := by
  rw [le_iff] at h
  rw [← Bool.not_eq_true, lt_iff]
  grind

theorem eq_comm (a b : Number) : a.eq b = b.eq a := by
  rw [Bool.eq_iff_iff, eq_iff, eq_iff]
  exact exists_congr fun p => And.comm

theorem not_eq_of_lt (h : a.lt b = true) : a.eq b = false := by
  rw [lt_iff] at h
  rw [← Bool.not_eq_true, eq_iff]
  grind [Extent.before_irrefl]

theorem not_eq_of_gt (h : b.lt a = true) : a.eq b = false := by
  rw [lt_iff] at h
  rw [← Bool.not_eq_true, eq_iff]
  grind [Extent.before_irrefl]

theorem le_refl_of_lt (h : a.lt b = true) : a.le a = true := by
  rw [lt_iff] at h
  rw [le_iff]
  grind [Extent.before_irrefl]

theorem le_refl_of_gt (h : b.lt a = true) : a.le a = true := by
  rw [lt_iff] at h
  rw [le_iff]
  grind [Extent.before_irrefl]

theorem le_of_eq (h : a.eq b = true) : a.le b = true := by
  rw [eq_iff] at h
  rw [le_iff]
  grind [Extent.before_irrefl]

theorem ge_of_eq (h : a.eq b = true) : b.le a = true := by
  rw [eq_iff] at h
  rw [le_iff]
  grind [Extent.before_irrefl]

theorem eq_of_le_of_le (hab : a.le b = true) (hba : b.le a = true) : a.eq b = true := by
  rw [le_iff] at hab hba
  rw [eq_iff]
  grind [Extent.eq_or_before]

theorem eq_of_le_of_not_lt (h : a.le b = true) (hlt : a.lt b = false) : a.eq b = true := by
  rw [le_iff] at h
  rw [← Bool.not_eq_true, lt_iff] at hlt
  rw [eq_iff]
  grind [Extent.eq_or_before]

/-! ## Clamping -/

theorem clamp_of_lt (h : value.lt low = true) (bounds : low.lt high = true) :
    value.clamp low high = low := by
  have hmin : min high value = value := by simp [min, lt_trans h bounds]
  rw [clamp, hmin, max, not_lt_of_lt h]
  rfl

theorem clamp_of_gt (h : high.lt value = true) (bounds : low.lt high = true) :
    value.clamp low high = high := by
  have hmin : min high value = high := by simp [min, not_lt_of_lt h]
  rw [clamp, hmin, max, if_pos bounds]

theorem clamp_cases (value : Number) (bounds : low.lt high = true) :
    value.clamp low high = low ∧ low.lt value = false ∧ value.lt high = true ∨
      value.clamp low high = high ∧ value.lt high = false ∨
      value.clamp low high = value ∧ low.lt value = true ∧ value.lt high = true := by
  cases hhigh : value.lt high with
  | false => simp [clamp, min, max, hhigh, bounds]
  | true => cases hlow : low.lt value <;> simp [clamp, min, max, hhigh, hlow]

theorem within_clamp (value : Number) (bounds : low.lt high = true) :
    (value.clamp low high).within low high = true := by
  rcases clamp_cases value bounds with ⟨h, _, _⟩ | ⟨h, _⟩ | ⟨h, hlow, hhigh⟩
  · simp [h, within, le_refl_of_lt bounds, le_of_lt bounds]
  · simp [h, within, le_refl_of_gt bounds, le_of_lt bounds]
  · simp [h, within, le_of_lt hlow, le_of_lt hhigh]

theorem clamp_changes (bounds : low.lt high = true) (h : value.within low high = false) :
    (value.clamp low high).eq value = false := by
  rw [← Bool.not_eq_true] at h ⊢
  intro heq
  apply h
  rcases clamp_cases value bounds with ⟨hc, _, hhigh⟩ | ⟨hc, _⟩ | ⟨_, hlow, hhigh⟩
  · rw [hc] at heq
    simp [within, le_of_eq heq, le_of_lt hhigh]
  · rw [hc] at heq
    have hlow : low.lt value = true := lt_of_lt_of_le bounds (le_of_eq heq)
    simp [within, le_of_lt hlow, ge_of_eq heq]
  · simp [within, le_of_lt hlow, le_of_lt hhigh]

/-! ## Whole numbers -/

theorem unit_pos : (0 : Int) < Binary64.unit := by
  decide +kernel

theorem le_int (m n : Int) : (Number.int m).le (.int n) = decide (m ≤ n) := by
  have hunit := unit_pos
  have hmul : n * Binary64.unit < m * Binary64.unit ↔ n < m := Int.mul_lt_mul_right hunit
  simp only [le, extent?, Extent.before, hmul, ← decide_not, Int.not_lt]

theorem lt_int (m n : Int) : (Number.int m).lt (.int n) = decide (m < n) := by
  have hmul : m * Binary64.unit < n * Binary64.unit ↔ m < n := Int.mul_lt_mul_right unit_pos
  simp only [lt, extent?, Extent.before, hmul]

theorem eq_int (m n : Int) : (Number.int m).eq (.int n) = decide (m = n) := by
  have hmul : m * Binary64.unit = n * Binary64.unit ↔ m = n :=
    Int.mul_eq_mul_right_iff (Int.ne_of_gt unit_pos)
  rw [Bool.eq_iff_iff, decide_eq_true_iff, ← hmul]
  simp only [eq, extent?, beq_iff_eq, Extent.point.injEq]

/-! ## Magnitudes -/

theorem extent?_zero : (0 : Number).extent? = some (.point 0) := by
  change some (Extent.point (0 * _)) = _
  rw [Int.zero_mul]

theorem extent?_abs (n : Number) :
    n.abs.extent? = none ∨ n.abs.extent? = some .top ∨
      ∃ q : Nat, n.abs.extent? = some (.point q) := by
  cases n with
  | int n =>
    refine .inr (.inr ⟨n.natAbs * Binary64.unit, ?_⟩)
    rw [Int.natCast_mul]
    rfl
  | real x =>
    cases x with
    | nan => exact .inl rfl
    | infinite => exact .inr (.inl rfl)
    | finite _ quanta _ => exact .inr (.inr ⟨quanta, rfl⟩)

theorem not_lt_abs (n : Number) : n.abs.lt 0 = false := by
  rw [← Bool.not_eq_true, lt_iff, extent?_zero]
  rintro ⟨p, q, hp, hq, h⟩
  cases hq
  rcases extent?_abs n with hn | hn | ⟨k, hn⟩ <;> rw [hn] at hp <;> cases hp
  · simp [Extent.before] at h
  · simp [Extent.before] at h
    omega

theorem abs_changes {n : Number} (h : n.lt 0 = true) : n.abs.eq n = false := by
  have hn := not_lt_abs n
  rw [← Bool.not_eq_true] at hn ⊢
  intro heq
  exact hn (lt_of_le_of_lt (le_of_eq heq) h)

/-- The magnitude of a number that is not below or at zero lies where the number lies. -/
theorem extent?_abs_of_not_le {n : Number} (h : n.le 0 = false) : n.abs.extent? = n.extent? := by
  rw [← Bool.not_eq_true, le_iff, extent?_zero] at h
  cases n with
  | int n =>
    have hn : 0 ≤ n := by
      refine Int.not_lt.mp fun hneg => h ⟨_, _, rfl, rfl, ?_⟩
      have : n * (Binary64.unit : Int) ≤ 0 :=
        Int.mul_nonpos_of_nonpos_of_nonneg (by omega) (Int.natCast_nonneg _)
      exact decide_eq_false (Int.not_lt.mpr this)
    simp only [abs, extent?, Int.natAbs_of_nonneg hn]
  | real x =>
    cases x with
    | nan => rfl
    | infinite negative =>
      cases negative with
      | true => exact absurd ⟨_, _, rfl, rfl, rfl⟩ h
      | false => rfl
    | finite negative quanta fits =>
      cases negative with
      | true =>
        refine absurd ⟨_, _, rfl, rfl, ?_⟩ h
        simp [Extent.before, Binary64.signed]
      | false => rfl

theorem eq_congr (h : a.extent? = b.extent?) : value.eq a = value.eq b := by
  simp only [eq, h]

theorem within_congr (h : a.extent? = b.extent?) : a.within low high = b.within low high := by
  simp only [within, le, h]

theorem le_congr (h : a.extent? = b.extent?) : value.le a = value.le b := by
  simp only [le, h]

theorem ge_congr (h : a.extent? = b.extent?) : a.le value = b.le value := by
  simp only [le, h]

/-! ## Numbers that compare -/

variable {n : Number}

theorem extent?_nan : (Number.real .nan).extent? = none := rfl

theorem extent?_eq_none_iff : n.extent? = none ↔ n = .real .nan := by
  refine ⟨fun h => ?_, fun h => h ▸ extent?_nan⟩
  cases n with
  | int m => cases h
  | real x => cases x with
    | nan => rfl
    | infinite negative => cases negative <;> cases h
    | finite => cases h

theorem nan_or_isSome (n : Number) : n = .real .nan ∨ n.extent?.isSome := by
  cases hn : n.extent? with
  | none => exact .inl (extent?_eq_none_iff.mp hn)
  | some p => exact .inr rfl

theorem lt_eq_not_le (ha : a.extent?.isSome) (hb : b.extent?.isSome) : a.lt b = !b.le a := by
  obtain ⟨p, hp⟩ := Option.isSome_iff_exists.mp ha
  obtain ⟨q, hq⟩ := Option.isSome_iff_exists.mp hb
  simp only [lt, le, hp, hq, Bool.not_not]

theorem eq_eq_not_lt (ha : a.extent?.isSome) (hb : b.extent?.isSome) :
    a.eq b = (!a.lt b && !b.lt a) := by
  obtain ⟨p, hp⟩ := Option.isSome_iff_exists.mp ha
  obtain ⟨q, hq⟩ := Option.isSome_iff_exists.mp hb
  simp only [lt, eq, hp, hq]
  by_cases heq : p = q
  · simp [heq]
  · cases hbefore : q.before p with
    | true => simp [heq]
    | false => simp [heq, (Extent.eq_or_before hbefore).resolve_left heq]

theorem nan_or_lt (ha : a.extent?.isSome) (h : n.le a = false) : n = .real .nan ∨ a.lt n = true := by
  refine (nan_or_isSome n).imp_right fun hn => ?_
  rw [lt_eq_not_le ha hn, h]
  rfl

theorem nan_or_ge (ha : a.extent?.isSome) (h : n.lt a = false) : n = .real .nan ∨ a.le n = true := by
  refine (nan_or_isSome n).imp_right fun hn => ?_
  rwa [lt_eq_not_le hn ha, Bool.not_eq_false'] at h

theorem nan_or_le (ha : a.extent?.isSome) (h : a.lt n = false) : n = .real .nan ∨ n.le a = true := by
  refine (nan_or_isSome n).imp_right fun hn => ?_
  rwa [lt_eq_not_le ha hn, Bool.not_eq_false'] at h

theorem lt_nan (a : Number) : a.lt (.real .nan) = false := by
  rw [lt, extent?_nan]
  cases a.extent? <;> rfl

theorem le_nan (a : Number) : a.le (.real .nan) = false := by
  rw [le, extent?_nan]
  cases a.extent? <;> rfl

theorem eq_self (h : a ≠ .real .nan) : a.eq a = true := by
  obtain ⟨p, hp⟩ := Option.isSome_iff_exists.mp ((nan_or_isSome a).resolve_left h)
  exact eq_iff.mpr ⟨p, hp, hp⟩

theorem ne_nan_of_gt (h : b.lt a = true) : a ≠ .real .nan := by
  rintro rfl
  rw [lt_nan] at h
  cases h

/-! ## Numbers that are corrected already -/

theorem clamp_eq_of_within (bounds : low.lt high = true) (h : value.within low high = true) :
    (value.clamp low high).eq value = true := by
  rw [within, Bool.and_eq_true] at h
  rcases clamp_cases value bounds with ⟨hc, hlow, _⟩ | ⟨hc, hhigh⟩ | ⟨hc, hlow, _⟩
  · rw [hc]
    exact eq_of_le_of_not_lt h.1 hlow
  · rw [hc, eq_comm]
    exact eq_of_le_of_not_lt h.2 hhigh
  · rw [hc]
    exact eq_self (ne_nan_of_gt hlow)

theorem abs_clamp_eq_of_within (hlow : Number.lt 0 low = true) (bounds : low.lt high = true)
    (h : value.within low high = true) : (value.abs.clamp low high).eq value = true := by
  have hpositive : value.le 0 = false := by
    rw [within, Bool.and_eq_true] at h
    exact not_le_of_lt (lt_of_lt_of_le hlow h.1)
  have hsame := extent?_abs_of_not_le hpositive
  rw [← eq_congr hsame]
  exact clamp_eq_of_within bounds (by rw [within_congr hsame, h])

theorem abs_abs_eq (h : n ≠ .real .nan) : n.abs.abs.eq n.abs = true := by
  cases n with
  | int m => exact eq_self Number.noConfusion
  | real x =>
    cases x with
    | nan => exact absurd rfl h
    | infinite negative => exact eq_self (by simp [abs, Binary64.abs])
    | finite negative quanta fits => exact eq_self (by simp [abs, Binary64.abs])

theorem max_max_eq (h : a ≠ .real .nan) (n : Number) : (a.max (a.max n)).eq (a.max n) = true := by
  cases hlt : a.lt n with
  | true =>
    simp only [max, hlt, if_true]
    exact eq_self (ne_nan_of_gt hlt)
  | false =>
    simp only [max, hlt, lt_irrefl, Bool.false_eq_true, if_false]
    exact eq_self h

theorem min_min_eq (h : a ≠ .real .nan) (n : Number) : (a.min (a.min n)).eq (a.min n) = true := by
  cases hlt : n.lt a with
  | true =>
    simp only [min, hlt, if_true]
    refine eq_self ?_
    rintro rfl
    cases hlt
  | false =>
    simp only [min, hlt, lt_irrefl, Bool.false_eq_true, if_false]
    exact eq_self h

end Number

end TouchGame
