import TouchGame.Proofs.Number.Rounding
import TouchGame.Proofs.Play.Replay

/-!
# Gaps of counters

Whether a counter condition holds is decided by comparing the counter with its threshold. Whether it has to
be driven is decided by a signed gap: a strict comparison aims one behind its threshold, and what is left of
the distance to that aim is zero if there is nothing to do. The two agree on whole numbers. On others a
condition may hold with the counter short of the aim, and then it is driven all the same; or the distance may
not be one that can be calculated.

* `Comparison.aim`, `remaining`, `gap_eq` : the gap as an aim, a distance and what is left of it.
* `gap_eq_zero_iff` : when there is nothing left of it; `gap_int` : the gap of whole numbers.
* `bringCounter_idle_iff` : which conditions that hold are never driven.
* `scored_driven` : one that holds and is driven, and one that holds and stops the search.
-/

namespace TouchGame

namespace Comparison

/-- The value that a comparison aims at: one behind the threshold where the threshold itself is not
enough. -/
def aim (compare : Comparison) (threshold : Number) : Except ArithmeticFault Number :=
  match compare with
  | .greater => threshold.add 1
  | .less => threshold.sub 1
  | _ => .ok threshold

/-- What is left of the distance to the aim: nothing behind it, on the side where that is enough. -/
def remaining (compare : Comparison) (distance : Number) : Number :=
  match compare with
  | .equals => distance
  | .greaterOrEqual | .greater => Number.max 0 distance
  | .lessOrEqual | .less => Number.min 0 distance

/-- The comparison with the aim: the aim itself is enough. -/
def loose : Comparison → Comparison
  | .equals => .equals
  | .greaterOrEqual | .greater => .greaterOrEqual
  | .lessOrEqual | .less => .lessOrEqual

variable {compare : Comparison} {p q d : Number}

/-- **Nothing is left of a distance exactly if the aim is reached.** -/
theorem remaining_eq_zero (h : p.Alike q) (hd : p.sub q = .ok d) :
    (compare.remaining d).eq 0 = compare.loose.holds q p := by
  obtain ⟨hp, hq⟩ := h.extent?
  obtain ⟨hbelow, habove, hequal⟩ := Number.sub_order h hd
  have hzero : Number.eq 0 0 = true := by rw [Number.eq, Number.extent?_zero]; rfl
  have hupper : (Number.max 0 d).eq 0 = p.le q := by
    rw [Number.max, habove]
    split
    · rename_i hlt
      rw [hequal, Number.not_eq_of_gt hlt, Number.not_le_of_lt hlt]
    · rename_i hlt
      rw [Number.lt_eq_not_le hq hp, Bool.not_eq_true', Bool.not_eq_false] at hlt
      rw [hzero, hlt]
  have hlower : (Number.min 0 d).eq 0 = q.le p := by
    rw [Number.min, hbelow]
    split
    · rename_i hlt
      rw [hequal, Number.not_eq_of_lt hlt, Number.not_le_of_lt hlt]
    · rename_i hlt
      rw [Number.lt_eq_not_le hp hq, Bool.not_eq_true', Bool.not_eq_false] at hlt
      rw [hzero, hlt]
  cases compare with
  | equals => exact hequal.trans (Number.eq_comm p q)
  | greaterOrEqual => exact hupper
  | greater => exact hupper
  | lessOrEqual => exact hlower
  | less => exact hlower

/-- An aim compares with other numbers. -/
theorem aim_ne_nan {threshold aimed : Number} (hfinite : threshold.isFinite = true)
    (h : compare.aim threshold = .ok aimed) : aimed ≠ .real .nan := by
  have hone {one : Binary64} (hreal : (1 : Number).toReal = .ok one) : one.isFinite = true :=
    Number.toReal_isFinite (a := .int 1) rfl hreal
  cases threshold with
  | int n => cases compare <;> cases h <;> exact Number.noConfusion
  | real x =>
    cases compare with
    | greater =>
      simp only [aim, Number.add, Number.lift_real, bind_ok_iff, pure_ok_iff] at h
      obtain ⟨one, hreal, rfl⟩ := h
      exact fun heq => Binary64.add_ne_nan hfinite (hone hreal) (Number.real.inj heq)
    | less =>
      simp only [aim, Number.sub, Number.lift_real, bind_ok_iff, pure_ok_iff] at h
      obtain ⟨one, hreal, rfl⟩ := h
      have hneg : one.neg.isFinite = true := Binary64.neg_isFinite.trans (hone hreal)
      exact fun heq => Binary64.add_ne_nan hfinite hneg (Number.real.inj heq)
    | _ =>
      cases h
      rintro heq
      cases heq
      cases hfinite

/-! ## Whole numbers -/

/-- By how much the aim of a comparison of whole numbers lies behind the threshold. -/
def offset : Comparison → Int
  | .equals | .greaterOrEqual | .lessOrEqual => 0
  | .greater => 1
  | .less => -1

theorem aim_int (n : Int) : compare.aim (.int n) = .ok (.int (n + compare.offset)) := by
  cases compare with
  | greater | less => rfl
  | _ =>
    rw [offset, Int.add_zero]
    rfl

theorem loose_holds_int (v n : Int) :
    compare.loose.holds (.int v) (.int (n + compare.offset)) = compare.holds (.int v) (.int n) := by
  cases compare <;> simp only [loose, holds, offset, Number.eq_int, Number.le_int, Number.lt_int] <;>
    exact decide_eq_decide.mpr (by omega)

theorem remaining_int {v n : Int} (h : compare.holds (.int v) (.int n) = false) :
    compare.remaining (.int (n + compare.offset - v)) = .int (n + compare.offset - v) := by
  have hupper {z : Int} (hz : 0 < z) : Number.max 0 (.int z) = .int z :=
    if_pos ((Number.lt_int 0 z).trans (decide_eq_true hz))
  have hlower {z : Int} (hz : z < 0) : Number.min 0 (.int z) = .int z :=
    if_pos ((Number.lt_int z 0).trans (decide_eq_true hz))
  cases compare <;>
    simp only [holds, Number.le_int, Number.lt_int, decide_eq_false_iff_not] at h
  case equals => rfl
  case greaterOrEqual => exact hupper (by rw [offset]; omega)
  case greater => exact hupper (by rw [offset]; omega)
  case lessOrEqual => exact hlower (by rw [offset]; omega)
  case less => exact hlower (by rw [offset]; omega)

end Comparison

namespace Play

variable {compare : Comparison} {threshold current : Number}

theorem gap_eq (compare : Comparison) (threshold current : Number) :
    gap compare threshold current = arithmetic (do
      let aimed ← compare.aim threshold
      let distance ← aimed.sub current
      return compare.remaining distance) := by
  cases compare with
  | equals => exact congrArg arithmetic (bind_pure (threshold.sub current)).symm
  | _ => rfl

/-- **There is nothing to do exactly if the aim and the current value can be compared, and the aim is
reached.** -/
theorem gap_eq_zero_iff (hthreshold : threshold.isFinite = true) (hcurrent : current.isFinite = true) :
    (∃ distance, gap compare threshold current = .ok distance ∧ distance.eq 0 = true) ↔
      ∃ aimed p q, compare.aim threshold = .ok aimed ∧ aimed.paired current = .ok (p, q) ∧
        compare.loose.holds q p = true := by
  have halike {aimed p q : Number} (haim : compare.aim threshold = .ok aimed)
      (hpaired : aimed.paired current = .ok (p, q)) : p.Alike q :=
    Number.paired_alike (Comparison.aim_ne_nan hthreshold haim) hcurrent hpaired
  simp only [gap_eq, arithmetic, mapError_ok_iff, bind_ok_iff, pure_ok_iff]
  constructor
  · rintro ⟨distance, ⟨aimed, haim, d, hd, rfl⟩, hzero⟩
    obtain ⟨p, q, hpaired, hd⟩ := Number.sub_ok_iff.mp hd
    rw [Comparison.remaining_eq_zero (halike haim hpaired) hd] at hzero
    exact ⟨aimed, p, q, haim, hpaired, hzero⟩
  · rintro ⟨aimed, p, q, haim, hpaired, hreached⟩
    obtain ⟨d, hd⟩ := (halike haim hpaired).sub_ok
    refine ⟨compare.remaining d, ⟨aimed, haim, d, Number.sub_ok_iff.mpr ⟨p, q, hpaired, hd⟩, rfl⟩, ?_⟩
    rw [Comparison.remaining_eq_zero (halike haim hpaired) hd, hreached]

/-- A comparison that holds has its aim reached, except that a strict one may fall short of it. -/
theorem loose_holds_iff {aimed p q : Number} (hthreshold : threshold.isFinite = true)
    (hcurrent : current.isFinite = true) (haim : compare.aim threshold = .ok aimed)
    (hpaired : aimed.paired current = .ok (p, q)) (hholds : compare.holds current threshold = true) :
    compare.loose.holds q p = true ↔
      (compare = .greater → p.le q = true) ∧ (compare = .less → q.le p = true) := by
  cases compare with
  | greater => simp [Comparison.loose, Comparison.holds]
  | less => simp [Comparison.loose, Comparison.holds]
  | equals =>
    cases haim
    obtain ⟨hbelow, habove⟩ := Number.le_paired hthreshold hcurrent hpaired
    have heq : q.eq p = true :=
      Number.eq_of_le_of_le (habove (Number.le_of_eq hholds)) (hbelow (Number.ge_of_eq hholds))
    simp [Comparison.loose, Comparison.holds, heq]
  | greaterOrEqual =>
    cases haim
    have hle : p.le q = true := (Number.le_paired hthreshold hcurrent hpaired).1 hholds
    simp [Comparison.loose, Comparison.holds, hle]
  | lessOrEqual =>
    cases haim
    have hle : q.le p = true := (Number.le_paired hthreshold hcurrent hpaired).2 hholds
    simp [Comparison.loose, Comparison.holds, hle]

/-! ## Whole numbers -/

theorem gap_int (n v : Int) : gap compare (.int n) (.int v) =
    .ok (compare.remaining (.int (n + compare.offset - v))) := by
  rw [gap_eq, Comparison.aim_int]
  rfl

/-- **A comparison of whole numbers that holds leaves nothing to do.** -/
theorem gap_zero_of_holds {n v : Int} (h : compare.holds (.int v) (.int n) = true) :
    ∃ distance, gap compare (.int n) (.int v) = .ok distance ∧ distance.eq 0 = true := by
  refine (gap_eq_zero_iff rfl rfl).mpr ⟨_, _, _, Comparison.aim_int n, rfl, ?_⟩
  rw [Comparison.loose_holds_int, h]

/-! ## Rules that wait for one counter -/

section Single

variable {g : Game} {w : Rule} {settings : Settings} {name comparison : Slot String} {counter : String}
  {value : Option Number}

theorem meetAll_singleton (c : Condition) (t : Trail) : meetAll g w [c] t = meet g w t c := by
  rw [meetAll]
  cases meet g w t c with
  | error setback => rfl
  | ok next =>
    change (if _ then pure next else meetAll g w [] next) = _
    split <;> rfl

theorem trailFor_counter (hname : name.text? = some counter) :
    trailFor g w [.counter name comparison value] = (do
      let t ← bringCounter g (.start (.initial g)) counter comparison value
      if counterHolds t.state counter comparison value then return t
      else .error (shortfall t.state counter comparison value)) := by
  have hmeet (t : Trail) : meet g w t (.counter name comparison value) =
      bringCounter g t counter comparison value := by
    rw [meet, hname]
  have hfails (s : State) : [Condition.counter name comparison value].findSome? (shortfall? s) =
      if counterHolds s counter comparison value then none
      else some (shortfall s counter comparison value) := by
    rw [List.findSome?_singleton, shortfall?, hname]
  rw [trailFor, meetAll_singleton, hmeet]
  refine bind_congr fun t => ?_
  rw [hfails]
  cases counterHolds t.state counter comparison value <;> rfl

theorem reach_single {c : Condition} (h : w.conditions = [c]) :
    reach settings g w = walkFor settings g w [c] := by
  have hchoice : isChoice w = false := by
    rw [isChoice, h]
    exact Bool.and_false _
  rw [reach, hchoice, h]
  rfl

end Single

/-! ## Idle driving -/

section Driving

variable {g : Game} {t : Trail} {counter : String} {comparison : Slot String} {value : Option Number}
  {distance : Number}
  (hname : Comparison.ofName? (comparison.textOr Comparison.defaultName) = some compare)
include hname

theorem bringCounter_gap :
    bringCounter g t counter comparison value = (do
      let distance ← attempt (gap compare (thresholdOf value) (t.state.counter counter))
      if distance.eq 0 then return t
      else
        let plan ← planCounter g counter compare (thresholdOf value) distance
        match plan.rule.handle? with
        | none => blocked (.noHandle counter)
        | some object => fireTimes plan object counter (thresholdOf value) plan.times t) := by
  unfold bringCounter
  dsimp only
  split
  · rename_i hnone
    cases hnone.symm.trans hname
  · rename_i hsome
    cases hsome.symm.trans hname
    rfl

theorem bringCounter_of_gap_zero
    (hgap : gap compare (thresholdOf value) (t.state.counter counter) = .ok distance)
    (hzero : distance.eq 0 = true) : bringCounter g t counter comparison value = .ok t := by
  rw [bringCounter_gap hname, hgap]
  exact if_pos hzero

end Driving

/-- A game in which nothing happens. -/
def ruleless : Game where
  layout := []
  counters := []
  rules := []
  objects := []
  sounds := []
  music := .empty

theorem gap_zero_of_ruleless {t u : Trail} {counter : String} {comparison : Slot String}
    {value : Option Number}
    (hname : Comparison.ofName? (comparison.textOr Comparison.defaultName) = some compare)
    (h : bringCounter ruleless t counter comparison value = .ok u) :
    ∃ distance, gap compare (thresholdOf value) (t.state.counter counter) = .ok distance ∧
      distance.eq 0 = true := by
  rw [bringCounter_gap hname, bind_ok_iff] at h
  obtain ⟨distance, hgap, h⟩ := h
  refine ⟨distance, attempt_ok.mp hgap, ?_⟩
  by_contra hzero
  rw [if_neg hzero] at h
  cases h

/-- **What holds is left alone, as long as its aim is reached.** A counter condition that holds in a state,
where the counter and the threshold are finite, is not driven in any rule-set exactly if its aim and the
counter can be subtracted, and the counter has reached the aim. All but a strict comparison aim at the
threshold itself, which then is reached. -/
theorem bringCounter_idle_iff {t : Trail} {counter : String} {comparison : Slot String}
    {value : Option Number}
    (hname : Comparison.ofName? (comparison.textOr Comparison.defaultName) = some compare)
    (hcurrent : (t.state.counter counter).isFinite = true)
    (hthreshold : (thresholdOf value).isFinite = true)
    (hholds : counterHolds t.state counter comparison value = true) :
    (∀ g, bringCounter g t counter comparison value = .ok t) ↔
      ∃ aimed p q, compare.aim (thresholdOf value) = .ok aimed ∧
        aimed.paired (t.state.counter counter) = .ok (p, q) ∧
        (compare = .greater → p.le q = true) ∧ (compare = .less → q.le p = true) := by
  rw [counterHolds, hname] at hholds
  have hidle : (∀ g, bringCounter g t counter comparison value = .ok t) ↔
      ∃ distance, gap compare (thresholdOf value) (t.state.counter counter) = .ok distance ∧
        distance.eq 0 = true :=
    ⟨fun h => gap_zero_of_ruleless hname (h ruleless),
      fun ⟨_, hgap, hzero⟩ _ => bringCounter_of_gap_zero hname hgap hzero⟩
  rw [hidle, gap_eq_zero_iff hthreshold hcurrent]
  refine exists_congr fun aimed => exists_congr fun p => exists_congr fun q => ?_
  refine and_congr_right fun haim => and_congr_right fun hpaired => ?_
  exact loose_holds_iff hthreshold hcurrent haim hpaired hholds

/-- A trail on which nothing has happened, with a score. -/
def scored (score : Number) : Trail :=
  .start { State.empty with counters := [("score", score)] }

/-- Six and a half points are more than five, and not short of six. -/
theorem bringCounter_idle_iff_scored :
    counterHolds (scored (.thousandths 6500)).state "score" (.value "greater") (some 5) = true ∧
      ∀ g, bringCounter g (scored (.thousandths 6500)) "score" (.value "greater") (some 5) =
        .ok (scored (.thousandths 6500)) := by
  have hname : Comparison.ofName? ((Slot.value "greater").textOr Comparison.defaultName) =
      some .greater := by decide
  have hholds : counterHolds (scored (.thousandths 6500)).state "score" (.value "greater") (some 5) =
      true := by decide +kernel
  refine ⟨hholds, (bringCounter_idle_iff hname (by decide +kernel) rfl hholds).mpr ?_⟩
  have hpaired : (Number.int 6).paired (.thousandths 6500) =
      .ok (.thousandths 6000, .thousandths 6500) := by decide +kernel
  have hreached : (Number.thousandths 6000).le (.thousandths 6500) = true := by decide +kernel
  exact ⟨.int 6, _, _, rfl, hpaired, fun _ => hreached, Comparison.noConfusion⟩

/-- Five and a half points are more than five and short of six: a tap is added for what holds already, and
without a rule for it the search stops. A whole number that is no double is above a half, and the gap
between the two cannot be calculated. -/
theorem scored_driven :
    counterHolds (scored (.thousandths 5500)).state "score" (.value "greater") (some 5) = true ∧
      (∃ u, bringCounter threeTaps (scored (.thousandths 5500)) "score" (.value "greater") (some 5) = .ok u ∧
        u.taps = 1) ∧
      (∀ u, bringCounter ruleless (scored (.thousandths 5500)) "score" (.value "greater") (some 5) ≠
        .ok u) ∧
      counterHolds (scored (.int (10 ^ 400))).state "score" .empty (some (.thousandths 500)) = true ∧
      ∀ u, bringCounter ruleless (scored (.int (10 ^ 400))) "score" .empty (some (.thousandths 500)) ≠
        .ok u := by
  have htaps : (bringCounter threeTaps (scored (.thousandths 5500)) "score" (.value "greater")
      (some 5)).toOption.map (·.taps) = some 1 := by decide +kernel
  have hstops : (bringCounter ruleless (scored (.thousandths 5500)) "score" (.value "greater")
      (some 5)).toOption.isSome = false := by decide +kernel
  have hfails : (bringCounter ruleless (scored (.int (10 ^ 400))) "score" .empty
      (some (.thousandths 500))).toOption.isSome = false := by decide +kernel
  have hnever {found : Attempt Trail} (h : found.toOption.isSome = false) (u : Trail) : found ≠ .ok u := by
    rintro rfl
    cases h
  obtain ⟨u, hu, htaps⟩ := Option.map_eq_some_iff.mp htaps
  exact ⟨by decide +kernel, ⟨u, toOption_some_iff.mp hu, htaps⟩, hnever hstops, by decide +kernel,
    hnever hfails⟩

end Play

end TouchGame
