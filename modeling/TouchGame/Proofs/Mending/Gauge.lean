import TouchGame.Check.Actions
import TouchGame.Proofs.Number.Order
import TouchGame.Repair.AutoFix
import TouchGame.Repair.Category

/-!
# Gauges

A check of a number, apart from its wording, is a gauge: it gives the code of what is wrong with the
number, if anything is. The correction of that code gives another number, with which the gauge finds
nothing wrong. So one correction mends a number, and a mended number stays as it is.

* `Corrects` : a code corrects a number, to another one.
* `Gauge` : what is wrong with a number; the correction of it is right.
* `Gauge.mend` : the number that a gauge finds nothing wrong with.
-/

namespace TouchGame.Mending

open Repair

/-- A code corrects a number to another one. -/
structure Corrects (c : Code) (n m : Number) : Prop where
  category : c.category = .autoFixable
  unfilled : filling? c = none
  corrected : ∃ description correct, correction? c = some (description, correct) ∧ correct n = m
  differs : m.eq n = false

/-- What is wrong with a number: the code of it, whose correction is a number that nothing is wrong
with. -/
structure Gauge where
  code? : Number → Option Code
  correct : Number → Number
  corrects : ∀ {n c}, code? n = some c → Corrects c n (correct n) ∧ code? (correct n) = none

namespace Gauge

variable (k : Gauge) {n : Number} {c : Code}

def mend (n : Number) : Number :=
  match k.code? n with
  | some _ => k.correct n
  | none => n

variable {k}

theorem mend_of_none (h : k.code? n = none) : k.mend n = n := by
  rw [mend, h]

theorem mend_of_some (h : k.code? n = some c) : k.mend n = k.correct n := by
  rw [mend, h]

theorem mend_correct (h : k.code? n = some c) : k.mend (k.correct n) = k.mend n := by
  rw [mend_of_some h, mend_of_none (k.corrects h).2]

end Gauge

/-! ## The limits -/

theorem zero_lt_one : Limits.zero.lt Limits.one = true := by decide +kernel

theorem zero_lt_longestTime : Limits.zero.lt Limits.longestTime = true := by decide +kernel

theorem leastPositive_pos : Number.lt 0 Limits.leastPositive = true := by decide +kernel

theorem slowest_pos : Number.lt 0 Limits.slowest = true := by decide +kernel

theorem slowest_lt_fastest : Limits.slowest.lt Limits.fastest = true := by decide +kernel

theorem one_pos : Number.lt 0 Limits.one = true := by decide +kernel

theorem one_lt_largestScale : Limits.one.lt Limits.largestScale = true := by decide +kernel

theorem zero_eq_zero : Number.eq 0 Limits.zero = true := by decide +kernel

/-! ## The gauges -/

/-- Numbers from zero to one; the code is one that clamps to them. -/
def unitGauge (c : Code) (category : c.category = .autoFixable) (unfilled : filling? c = none)
    (clamps : ∃ description, correction? c = some (description, (·.clamp Limits.zero Limits.one))) :
    Gauge where
  code? n := if Check.outsideUnit n then some c else none
  correct n := n.clamp Limits.zero Limits.one
  corrects := by
    intro n d h
    split at h
    · rename_i hout
      cases h
      simp only [Check.outsideUnit, Bool.not_eq_true', Check.outsideUnit] at hout
      obtain ⟨description, hc⟩ := clamps
      refine ⟨⟨category, unfilled, ⟨description, _, hc, rfl⟩, Number.clamp_changes zero_lt_one hout⟩, ?_⟩
      rw [if_neg]
      simp [Check.outsideUnit, Number.within_clamp _ zero_lt_one]
    · cases h

def coordinate : Gauge :=
  unitGauge .invalidCoordinates rfl rfl ⟨_, rfl⟩

def volume : Gauge :=
  unitGauge .invalidVolume rfl rfl ⟨_, rfl⟩

def chance : Gauge :=
  unitGauge .invalidProbability rfl rfl ⟨_, rfl⟩

/-- Positive numbers up to a limit; both codes are ones that clamp to them. -/
def positiveGauge (least most : Code) (high : Number)
    (bounds : Limits.leastPositive.lt high = true)
    (clamps : ∀ c, c = least ∨ c = most → c.category = .autoFixable ∧ filling? c = none ∧
      ∃ description, correction? c = some (description, (·.clamp Limits.leastPositive high))) :
    Gauge where
  code? n := if n.le 0 then some least else if high.lt n then some most else none
  correct n := n.clamp Limits.leastPositive high
  corrects := by
    intro n c h
    have hcode : c = least ∨ c = most := by
      split at h
      · exact .inl (Option.some.inj h).symm
      · split at h
        · exact .inr (Option.some.inj h).symm
        · cases h
    obtain ⟨hcategory, hunfilled, description, hc⟩ := clamps c hcode
    have hlow : Limits.leastPositive.le 0 = false := Number.not_le_of_lt leastPositive_pos
    have hhigh : high.le 0 = false :=
      Number.not_le_of_lt (Number.lt_trans leastPositive_pos bounds)
    have hself : high.lt high = false := Number.not_lt_of_le (Number.le_refl_of_gt bounds)
    split at h
    · rename_i hle
      have hlt : n.lt Limits.leastPositive = true := Number.lt_of_le_of_lt hle leastPositive_pos
      have hclamp := Number.clamp_of_lt hlt bounds
      refine ⟨⟨hcategory, hunfilled, ⟨description, _, hc, rfl⟩, ?_⟩, ?_⟩
      · rw [hclamp]
        exact Number.not_eq_of_gt hlt
      · simp [hclamp, hlow, Number.not_lt_of_lt bounds]
    · split at h
      · rename_i hlt
        have hclamp := Number.clamp_of_gt hlt bounds
        refine ⟨⟨hcategory, hunfilled, ⟨description, _, hc, rfl⟩, ?_⟩, ?_⟩
        · rw [hclamp]
          exact Number.not_eq_of_lt hlt
        · simp [hclamp, hhigh, hself]
      · cases h

def interval : Gauge :=
  positiveGauge .invalidTimeInterval .invalidTimeInterval Limits.longestInterval (by decide +kernel)
    (by rintro c (rfl | rfl) <;> exact ⟨rfl, rfl, _, rfl⟩)

def effectTime : Gauge :=
  positiveGauge .invalidEffectDuration .longEffectDuration Limits.longestEffect (by decide +kernel)
    (by rintro c (rfl | rfl) <;> exact ⟨rfl, rfl, _, rfl⟩)

def amount : Gauge :=
  positiveGauge .invalidScaleAmount .largeScaleAmount Limits.largestAmount (by decide +kernel)
    (by rintro c (rfl | rfl) <;> exact ⟨rfl, rfl, _, rfl⟩)

/-- The seconds of timers. -/
def seconds : Gauge where
  code? n :=
    if n.lt 0 then some .invalidTimeSeconds
    else if Limits.longestTime.lt n then some .invalidTimeSeconds else none
  correct n := n.clamp Limits.zero Limits.longestTime
  corrects := by
    intro n c h
    have bounds := zero_lt_longestTime
    have hzero : Limits.zero.lt 0 = false := Number.not_lt_of_le (Number.le_of_eq zero_eq_zero)
    split at h
    · rename_i hlt
      cases h
      have hlow : n.lt Limits.zero = true :=
        Number.lt_of_lt_of_le hlt (Number.le_of_eq zero_eq_zero)
      have hclamp := Number.clamp_of_lt hlow bounds
      refine ⟨⟨rfl, rfl, ⟨_, _, rfl, rfl⟩, ?_⟩, ?_⟩
      · rw [hclamp]
        exact Number.not_eq_of_gt hlow
      · simp [hclamp, hzero, Number.not_lt_of_lt bounds]
    · split at h
      · rename_i hlt
        cases h
        have hclamp := Number.clamp_of_gt hlt bounds
        have hhigh : Limits.longestTime.lt 0 = false :=
          Number.not_lt_of_lt (Number.lt_of_le_of_lt (Number.le_of_eq zero_eq_zero) bounds)
        refine ⟨⟨rfl, rfl, ⟨_, _, rfl, rfl⟩, ?_⟩, ?_⟩
        · rw [hclamp]
          exact Number.not_eq_of_lt hlt
        · simp [hclamp, hhigh, Number.not_lt_of_le (Number.le_refl_of_gt bounds)]
      · cases h

/-- The scales of placed objects. -/
def scale : Gauge where
  code? n :=
    if n.le 0 then some .invalidScale
    else if Limits.largestScale.lt n then some .extremeScale else none
  correct n := if n.le 0 then Limits.one else Limits.largestScale.min n
  corrects := by
    intro n c h
    split at h
    · rename_i hle
      cases h
      have hone := Number.lt_of_le_of_lt hle one_pos
      refine ⟨⟨rfl, rfl, ⟨_, _, rfl, ?_⟩, ?_⟩, ?_⟩
      · simp [hle]
      · simp [hle, Number.not_eq_of_gt hone]
      · simp [hle, Number.not_le_of_lt one_pos, Number.not_lt_of_lt one_lt_largestScale]
    · rename_i hle
      split at h
      · rename_i hlt
        cases h
        have hmin : Limits.largestScale.min n = Limits.largestScale := by
          simp [Number.min, Number.not_lt_of_lt hlt]
        have hpos := Number.lt_trans one_pos one_lt_largestScale
        have hself := Number.not_lt_of_le (Number.le_refl_of_lt hlt)
        refine ⟨⟨rfl, rfl, ⟨_, _, rfl, ?_⟩, ?_⟩, ?_⟩
        · simp [hle]
        · simp [hle, hmin, Number.not_eq_of_lt hlt]
        · simp [hle, hmin, Number.not_le_of_lt hpos, hself]
      · cases h

/-- The speeds of movements. -/
def speed : Gauge where
  code? n :=
    if n.le 0 then some .invalidSpeed
    else if n.within Limits.slowest Limits.fastest then none else some .unusualSpeed
  correct n := n.abs.clamp Limits.slowest Limits.fastest
  corrects := by
    intro n c h
    have hwithin := Number.within_clamp n.abs slowest_lt_fastest
    have hpos : Number.lt 0 (n.abs.clamp Limits.slowest Limits.fastest) = true := by
      rw [Number.within, Bool.and_eq_true] at hwithin
      exact Number.lt_of_lt_of_le slowest_pos hwithin.1
    have hright : (if (n.abs.clamp Limits.slowest Limits.fastest).le 0 then some Code.invalidSpeed
        else if (n.abs.clamp Limits.slowest Limits.fastest).within Limits.slowest Limits.fastest
        then none else some .unusualSpeed) = none := by
      rw [if_neg (by simp [Number.not_le_of_lt hpos]), if_pos hwithin]
    split at h
    · rename_i hle
      cases h
      exact ⟨⟨rfl, rfl, ⟨_, _, rfl, rfl⟩, Number.not_eq_of_gt (Number.lt_of_le_of_lt hle hpos)⟩, hright⟩
    · rename_i hle
      rw [Bool.not_eq_true] at hle
      split at h
      · cases h
      · rename_i hout
        cases h
        rw [Bool.not_eq_true] at hout
        have hextent := Number.extent?_abs_of_not_le hle
        refine ⟨⟨rfl, rfl, ⟨_, _, rfl, rfl⟩, ?_⟩, hright⟩
        rw [← Number.eq_congr hextent]
        refine Number.clamp_changes slowest_lt_fastest ?_
        rw [Number.within_congr hextent]
        exact hout

/-- Durations. -/
def duration : Gauge where
  code? n := if n.le 0 then some .invalidDuration else none
  correct n := Limits.leastPositive.max n
  corrects := by
    intro n c h
    split at h
    · rename_i hle
      cases h
      have hlt := Number.lt_of_le_of_lt hle leastPositive_pos
      have hmax : Limits.leastPositive.max n = Limits.leastPositive := by
        simp [Number.max, Number.not_lt_of_lt hlt]
      refine ⟨⟨rfl, rfl, ⟨_, _, rfl, rfl⟩, ?_⟩, ?_⟩
      · rw [hmax]
        exact Number.not_eq_of_gt hlt
      · simp [hmax, Number.not_le_of_lt leastPositive_pos]
    · cases h

/-- Points to award. -/
def points : Gauge where
  code? n := if n.lt 0 then some .negativePoints else none
  correct n := n.abs
  corrects := by
    intro n c h
    split at h
    · rename_i hlt
      cases h
      refine ⟨⟨rfl, rfl, ⟨_, _, rfl, rfl⟩, Number.abs_changes hlt⟩, ?_⟩
      simp [Number.not_lt_abs]
    · cases h

end TouchGame.Mending
