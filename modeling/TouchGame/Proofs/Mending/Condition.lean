import TouchGame.Proofs.Mending.Shape

/-!
# Mending conditions

The numbers of timers, random conditions and regions are mended, those of conditions whose type is
supported. Everything else that is found about a condition cannot be fixed in place.
-/

namespace TouchGame.Mending

open Check

/-! ## Findings that cannot be fixed in place -/

@[simp] theorem fixable_enumerated (scope : Scope) (field : String) (value : Slot String)
    (path : Path) (label : String) : fixable (enumerated scope field value path label) = false := by
  unfold enumerated
  split
  · rfl
  · cases value with
    | empty => rfl
    | value s =>
      dsimp only
      split <;> rfl
    | number n => rfl

@[simp] theorem fixable_needsTarget (scope : Scope) (path : Path) (type : String)
    (target : Slot String) : fixable (needsTarget scope path type target) = false := by
  unfold needsTarget
  split <;> rfl

@[simp] theorem fixable_conditionEnumFindings (scope : Scope) (path : Path) (c : Condition) :
    fixable (conditionEnumFindings scope path c) = false := by
  simp [conditionEnumFindings, fixable_flatMap]

/-! ## The mended condition -/

/-- A probability as it should be; where none is given, an even chance. -/
def mendChance (value : Option Number) : Option Number :=
  some ((value.map chance.mend).getD (.thousandths 500))

def mendRegion (r : Region) : Region :=
  { r with x := coordinate.mend r.x, y := coordinate.mend r.y }

/-- A condition with its numbers mended. -/
def mendConditionFields : Condition → Condition
  | .time timeType s i => .time timeType (s.map seconds.mend) (i.map interval.mend)
  | .random probability seed => .random (mendChance probability) seed
  | .position target area region => .position target area (region.mapValue mendRegion)
  | c => c

/-- A condition as the checks want it; one of an unsupported type is left alone. -/
def mendCondition (v : Vocabulary) (c : Condition) : Condition :=
  if v.hasCondition c.kind then mendConditionFields c else c

/-- The check of a condition at a path. -/
def conditionCheckup (scope : Scope) (path : Path) : Checkup Condition where
  base := path
  owns := ownedBy (some scope.rule.id)
  place? c := c.part.place?
  findings := condition scope path
  mend := mendCondition scope.vocabulary

variable {scope : Scope} {path : Path} {c : Condition}

theorem condition_of_supported (h : scope.vocabulary.hasCondition c.kind = true) :
    condition scope path c = conditionEnumFindings scope path c ++ conditionFields scope path c := by
  rw [condition, if_pos h]

theorem condition_of_unsupported (h : scope.vocabulary.hasCondition c.kind = false) :
    fixable (condition scope path c) = false := by
  rw [condition, if_neg (by simp [h])]
  rfl

/-! ## Checks of numbers -/

theorem speaks_timerSeconds (scope : Scope) (path : Path) :
    Speaks seconds (path ++ [.name "seconds"]) (ownedBy (some scope.rule.id))
      (timerSeconds scope path) :=
  .of_two (fun _ => rfl) (fun _ => ⟨rfl, rfl, rfl⟩) fun _ => ⟨rfl, rfl, rfl⟩

theorem speaks_timerInterval (scope : Scope) (path : Path) :
    Speaks interval (path ++ [.name "interval"]) (ownedBy (some scope.rule.id))
      (timerInterval scope path) :=
  .of_two (fun _ => rfl) (fun _ => ⟨rfl, rfl, rfl⟩) fun _ => ⟨rfl, rfl, rfl⟩

theorem speaks_probability (scope : Scope) (path : Path) :
    Speaks chance path (ownedBy (some scope.rule.id)) (probability scope path) :=
  .of_one (fun _ => rfl) fun _ => ⟨rfl, rfl, rfl⟩

theorem speaks_regionCoordinate (scope : Scope) (path : Path) (axis : String) :
    Speaks coordinate (path ++ [.name "region"] ++ [.name axis]) (ownedBy (some scope.rule.id))
      (regionCoordinate scope path axis) :=
  .of_one (fun _ => rfl) fun _ => ⟨rfl, (List.append_assoc path [_] [_]).symm, rfl⟩

theorem probability_even (scope : Scope) (path : Path) :
    probability scope path (.thousandths 500) = [] := by
  have h : outsideUnit (.thousandths 500) = false := by decide +kernel
  rw [probability, h]
  rfl

theorem mendChance_even : mendChance (some (.thousandths 500)) = mendChance none := by
  have h : outsideUnit (.thousandths 500) = false := by decide +kernel
  have hmend : chance.mend (.thousandths 500) = .thousandths 500 :=
    Gauge.mend_of_none (by simp [chance, unitGauge, h])
  simp [mendChance, hmend]

/-! ## Regions -/

/-- The check of the region of a position condition. -/
def regionCheckup (scope : Scope) (path : Path) : Checkup Region where
  base := path ++ [.name "region"]
  owns := ownedBy (some scope.rule.id)
  place? r := r.part.place?
  findings r := regionCoordinate scope path "x" r.x ++ regionCoordinate scope path "y" r.y
  mend := mendRegion

theorem region_heals (scope : Scope) (path : Path) (r : Region) :
    (regionCheckup scope path).Heals r := by
  refine Checkup.HealsIn.heals rfl (.append ?_ ?_)
  · refine .number [.name "x"] (fun m => { r with x := m })
      (speaks_regionCoordinate scope path "x") ?_ ?_ ?_
    · change r.part.place? [.name "x"] = _
      exact Part.record_place? Field.x rfl rfl
    · intro m
      simp [regionCheckup]
    · intro m hm
      simp only [regionCheckup, mendRegion, hm]
  · refine .number [.name "y"] (fun m => { r with y := m })
      (speaks_regionCoordinate scope path "y") ?_ ?_ ?_
    · change r.part.place? [.name "y"] = _
      exact Part.record_place? Field.y rfl rfl
    · intro m
      simp [regionCheckup]
    · intro m hm
      simp only [regionCheckup, mendRegion, hm]

theorem region_settles (scope : Scope) (path : Path) (r : Region) :
    (regionCheckup scope path).Settles r := by
  intro h
  simp only [regionCheckup, fixable_append, Bool.or_eq_false_iff] at h
  simp only [regionCheckup, mendRegion, (speaks_regionCoordinate scope path "x").settles h.1,
    (speaks_regionCoordinate scope path "y").settles h.2]

/-! ## Enumerated fields do not see numbers -/

theorem conditionEnumFindings_time (timeType : Slot String) (s i : Option Number) :
    conditionEnumFindings scope path (.time timeType s i) =
      conditionEnumFindings scope path (.time timeType none none) := by
  cases timeType <;> cases s <;> cases i <;> rfl

theorem conditionEnumFindings_random (probability : Option Number) (seed : Slot String) :
    conditionEnumFindings scope path (.random probability seed) =
      conditionEnumFindings scope path (.random none seed) := by
  cases probability <;> cases seed <;> rfl

theorem conditionEnumFindings_position (target area : Slot String) (region : Slot Region) :
    conditionEnumFindings scope path (.position target area region) =
      conditionEnumFindings scope path (.position target area .empty) := by
  cases target <;> cases area <;> cases region <;> rfl

/-! ## Conditions -/

theorem kind_mendConditionFields (c : Condition) : (mendConditionFields c).kind = c.kind := by
  cases c <;> rfl

theorem mendCondition_of_supported {v : Vocabulary} (h : v.hasCondition c.kind = true) :
    mendCondition v c = mendConditionFields c := by
  rw [mendCondition, if_pos h]

theorem mendCondition_of_unsupported {v : Vocabulary} (h : v.hasCondition c.kind = false) :
    mendCondition v c = c := by
  rw [mendCondition, if_neg (by simp [h])]

section Kinds

variable (timeType seed target area : Slot String) (s i : Option Number)

theorem time_heals (h : scope.vocabulary.hasCondition (.str "time") = true) :
    (conditionCheckup scope path).Heals (.time timeType s i) := by
  have hfindings (s i : Option Number) : condition scope path (.time timeType s i) =
      conditionEnumFindings scope path (.time timeType none none) ++
        (ifPresent s (timerSeconds scope path) ++ ifPresent i (timerInterval scope path)) := by
    rw [condition_of_supported h, conditionEnumFindings_time]
    rfl
  have hmend (s i : Option Number) : mendCondition scope.vocabulary (.time timeType s i) =
      .time timeType (s.map seconds.mend) (i.map interval.mend) := mendCondition_of_supported h
  refine Checkup.HealsIn.heals (hfindings s i) (.append ?_ (.append ?_ ?_))
  · exact .of_unfixable (fixable_conditionEnumFindings ..)
  · refine .number? [.name "seconds"] s (fun n => .time timeType (some n) i)
      (speaks_timerSeconds scope path) ?_ ?_ ?_
    · intro n hn
      rw [hn]
      change (Condition.time timeType (some n) i).part.place? [.name "seconds"] = _
      refine Part.record_place? Field.seconds rfl ?_
      rfl
    · intro n
      simp [conditionCheckup, hfindings, ifPresent]
    · intro n hn
      simp only [conditionCheckup, hmend, Option.map_some, hn]
  · refine .number? [.name "interval"] i (fun n => .time timeType s (some n))
      (speaks_timerInterval scope path) ?_ ?_ ?_
    · intro n hn
      rw [hn]
      change (Condition.time timeType s (some n)).part.place? [.name "interval"] = _
      refine Part.record_place? Field.interval rfl ?_
      rfl
    · intro n
      simp [conditionCheckup, hfindings, ifPresent]
    · intro n hn
      simp only [conditionCheckup, hmend, Option.map_some, hn]

theorem random_heals (h : scope.vocabulary.hasCondition (.str "random") = true) :
    (conditionCheckup scope path).Heals (.random s seed) := by
  have hfindings (n : Number) : condition scope path (.random (some n) seed) =
      conditionEnumFindings scope path (.random none seed) ++
        probability scope (path ++ [.name "probability"]) n := by
    rw [condition_of_supported h, conditionEnumFindings_random]
    rfl
  have hmend (s : Option Number) : mendCondition scope.vocabulary (.random s seed) =
      .random (mendChance s) seed := mendCondition_of_supported h
  have henums {behind : List Finding} : (conditionCheckup scope path).HealsIn (.random s seed) []
      (conditionEnumFindings scope path (.random none seed)) behind :=
    .of_unfixable (fixable_conditionEnumFindings ..)
  cases s with
  | some n =>
    refine Checkup.HealsIn.heals (hfindings n) (.append henums ?_)
    refine .number [.name "probability"] (fun m => .random (some m) seed)
      (speaks_probability scope _) ?_ ?_ ?_
    · change (Condition.random (some n) seed).part.place? [.name "probability"] = _
      refine Part.record_place? Field.probability rfl ?_
      rfl
    · intro m
      simp [conditionCheckup, hfindings]
    · intro m hm
      simp only [conditionCheckup, hmend, mendChance, Option.map_some, Option.getD_some, hm]
  | none =>
    refine Checkup.HealsIn.heals (condition_of_supported h) (.append henums ?_)
    refine .vacant (c := .missingProbability) [.name "probability"]
      (fun m => .random (some m) seed) rfl rfl rfl rfl rfl ?_ ?_ ?_
    · change (Condition.random none seed).part.place? [.name "probability"] = _
      refine Part.record_place? Field.probability rfl ?_
      rfl
    · simp [conditionCheckup, hfindings, probability_even]
    · simp only [conditionCheckup, hmend, mendChance_even]

theorem position_heals (region : Slot Region)
    (h : scope.vocabulary.hasCondition (.str "position") = true) :
    (conditionCheckup scope path).Heals (.position target area region) := by
  have hfindings (region : Slot Region) : condition scope path (.position target area region) =
      conditionEnumFindings scope path (.position target area .empty) ++
        (regionFields scope path region.get? ++ needsTarget scope path "position" target) := by
    rw [condition_of_supported h, conditionEnumFindings_position, conditionFields]
  have hmend (region : Slot Region) :
      mendCondition scope.vocabulary (.position target area region) =
        .position target area (region.mapValue mendRegion) := mendCondition_of_supported h
  refine Checkup.HealsIn.heals (hfindings region) (.append ?_ (.append ?_ ?_))
  · exact .of_unfixable (fixable_conditionEnumFindings ..)
  · cases region with
    | value r =>
      refine .field [.name "region"] (fun q => .position target area (.value q))
        (region_heals scope path r) rfl (fun _ _ _ hl => hl) ?_ ?_ ?_
      · intro rel q hq
        exact Part.record_place? Field.region rfl (Part.inner_place? _ hq)
      · intro q _
        simp [conditionCheckup, hfindings, regionFields, regionCheckup, Slot.get?]
      · intro q hq
        simp only [regionCheckup] at hq
        simp only [conditionCheckup, hmend, Slot.mapValue, hq]
    | empty => exact .of_unfixable rfl
    | number n => exact .of_unfixable rfl
  · exact .of_unfixable (fixable_needsTarget ..)

end Kinds

def isMeasured : Condition → Bool
  | .time .. | .random .. | .position .. => true
  | _ => false

theorem fixable_conditionFields (h : isMeasured c = false) :
    fixable (conditionFields scope path c) = false := by
  cases c with
  | counter name comparison value =>
    simp only [conditionFields, plainConditionFields, fixable_append, Bool.or_eq_false_iff]
    constructor <;> split <;> rfl
  | flag flag flagState =>
    simp only [conditionFields, plainConditionFields]
    split <;> rfl
  | collision => exact fixable_needsTarget ..
  | objectState => exact fixable_needsTarget ..
  | touch => rfl
  | gameState => rfl
  | animation => rfl
  | unknown => rfl
  | time => cases h
  | random => cases h
  | position => cases h

theorem condition_heals (c : Condition) : (conditionCheckup scope path).Heals c := by
  cases h : scope.vocabulary.hasCondition c.kind with
  | false => exact .of_unfixable (condition_of_unsupported h)
  | true =>
    cases hc : isMeasured c with
    | false =>
      refine .of_unfixable ?_
      change fixable (condition scope path c) = false
      rw [condition_of_supported h, fixable_append, fixable_conditionEnumFindings,
        fixable_conditionFields hc]
      rfl
    | true =>
      cases c with
      | time timeType s i => exact time_heals timeType s i h
      | random probability seed => exact random_heals seed probability h
      | position target area region => exact position_heals target area region h
      | _ => cases hc

/-- A condition without findings that can be fixed in place is mended. -/
theorem condition_settles (c : Condition) (path : Path) : (conditionCheckup scope path).Settles c := by
  intro hfix
  change fixable (condition scope path c) = false at hfix
  change mendCondition scope.vocabulary c = c
  cases h : scope.vocabulary.hasCondition c.kind with
  | false => exact mendCondition_of_unsupported h
  | true =>
    rw [mendCondition_of_supported h]
    rw [condition_of_supported h, fixable_append, Bool.or_eq_false_iff] at hfix
    have hfields := hfix.2
    cases c with
    | time timeType s i =>
      simp only [conditionFields, plainConditionFields, fixable_append, Bool.or_eq_false_iff] at hfields
      simp only [mendConditionFields, (speaks_timerSeconds scope path).settles_option hfields.1,
        (speaks_timerInterval scope path).settles_option hfields.2]
    | random probability seed =>
      cases probability with
      | none => exact Bool.noConfusion hfields
      | some n =>
        have hn := (speaks_probability scope _).settles hfields
        simp only [mendConditionFields, mendChance, Option.map_some, Option.getD_some, hn]
    | position target area region =>
      rw [conditionFields, fixable_append, Bool.or_eq_false_iff] at hfields
      cases region with
      | value r =>
        have hr := region_settles scope path r hfields.1
        exact congrArg (Condition.position target area <| .value ·) hr
      | empty => rfl
      | number n => rfl
    | _ => rfl

end TouchGame.Mending
