import TouchGame.Proofs.Check.Findings
import TouchGame.Proofs.Mending.Checkup

/-!
# Mending shapes

Points, movements, effects, placements and planned objects: each is mended number by number, and the
checks of their fields heal them.

* `axesCheckup` : the two coordinates of a point.
* `movementCheckup`, `effectCheckup`, `placementCheckup`, `objectCheckup` : the records around them.
-/

namespace TouchGame.Mending

open Check

def ownedBy (rule : Option String) (l : Location) : Prop :=
  l.rule = rule

/-! ## Points -/

def mendPoint (gauge : Gauge) (p : Point) : Point :=
  ⟨gauge.mend p.x, gauge.mend p.y⟩

/-- The check of a point, coordinate by coordinate. -/
def axesCheckup (noun : String) (gauge : Gauge) (base : Path) (owns : Location → Prop)
    (check : String → Number → List Finding) : Checkup Point where
  base := base
  owns := owns
  place? p := (p.part noun).place?
  findings p := (axes p).flatMap fun (axis, value) => check axis value
  mend := mendPoint gauge

section Axes

variable {noun : String} {gauge : Gauge} {base : Path} {owns : Location → Prop}
  {check : String → Number → List Finding}

theorem axes_findings (p : Point) :
    (axesCheckup noun gauge base owns check).findings p = check "x" p.x ++ check "y" p.y := by
  simp [axesCheckup, axes]

variable (hspeaks : ∀ axis, Speaks gauge (base ++ [.name axis]) owns (check axis))
include hspeaks

theorem axes_heals (p : Point) : (axesCheckup noun gauge base owns check).Heals p := by
  refine Checkup.HealsIn.heals (axes_findings p) (.append ?_ ?_)
  · refine .number [.name "x"] (fun m => { p with x := m }) (hspeaks "x") ?_ ?_ ?_
    · change (p.part noun).place? [.name "x"] = _
      exact Part.record_place? Field.x rfl rfl
    · intro m
      simp [axes_findings]
    · intro m hm
      simp only [axesCheckup, mendPoint, hm]
  · refine .number [.name "y"] (fun m => { p with y := m }) (hspeaks "y") ?_ ?_ ?_
    · change (p.part noun).place? [.name "y"] = _
      exact Part.record_place? Field.y rfl rfl
    · intro m
      simp [axes_findings]
    · intro m hm
      simp only [axesCheckup, mendPoint, hm]

theorem axes_settles (noun : String) (p : Point) :
    (axesCheckup noun gauge base owns check).Settles p := by
  intro h
  rw [axes_findings, fixable_append, Bool.or_eq_false_iff] at h
  simp only [axesCheckup, mendPoint, (hspeaks "x").settles h.1, (hspeaks "y").settles h.2]

end Axes

/-! ## Movements -/

def mendGoal : Goal → Goal
  | .point p => .point (mendPoint coordinate p)
  | .object id => .object id

/-- A movement with its numbers mended. -/
def mendMovement (m : Movement) : Movement :=
  { m with
    target := m.target.mapValue mendGoal
    speed := m.speed.map speed.mend
    duration := m.duration.map duration.mend }

/-- The check of a movement at a path. -/
def movementCheckup (scope : Scope) (path : Path) : Checkup Movement where
  base := path
  owns := ownedBy (some scope.rule.id)
  place? m := m.part.place?
  findings := movement scope path
  mend := mendMovement

section Movement

variable (scope : Scope) (path : Path)

theorem speaks_movementSpeed :
    Speaks speed path (ownedBy (some scope.rule.id)) (movementSpeed scope path) where
  silent {n} h := by
    simp only [speed] at h
    split at h
    · cases h
    · rename_i hle
      split at h
      · rename_i hwithin
        rw [movementSpeed, if_neg hle, if_pos hwithin]
      · cases h
  speaks {n c} h := by
    simp only [speed] at h
    split at h
    · rename_i hle
      cases h
      exact ⟨_, if_pos hle, rfl, rfl, rfl⟩
    · rename_i hle
      split at h
      · cases h
      · rename_i hwithin
        cases h
        exact ⟨_, (if_neg hle).trans (if_neg hwithin), rfl, rfl, rfl⟩

theorem speaks_positiveDuration :
    Speaks duration path (ownedBy (some scope.rule.id)) (positiveDuration scope path) :=
  .of_one (fun _ => rfl) fun _ => ⟨rfl, rfl, rfl⟩

theorem speaks_goalCoordinate (axis : String) :
    Speaks coordinate (path ++ [.name "target"] ++ [.name axis]) (ownedBy (some scope.rule.id))
      (goalCoordinate scope path axis) :=
  .of_one (fun _ => rfl) fun _ => ⟨rfl, (List.append_assoc path [_] [_]).symm, rfl⟩

theorem movement_findings (m : Movement) : movement scope path m =
    ifPresent m.speed (movementSpeed scope (path ++ [.name "speed"])) ++
      ifPresent m.duration (positiveDuration scope (path ++ [.name "duration"])) ++
        goalFields scope path m.target.get? := rfl

theorem movement_heals (m : Movement) : (movementCheckup scope path).Heals m := by
  refine Checkup.HealsIn.heals (movement_findings scope path m) (.append (.append ?_ ?_) ?_)
  · refine .number? [.name "speed"] m.speed (fun n => { m with speed := some n })
      (speaks_movementSpeed scope _) ?_ ?_ ?_
    · intro n hn
      refine Part.record_place? Field.speed rfl ?_
      rw [hn]
      rfl
    · intro n
      simp [movementCheckup, movement_findings, ifPresent]
    · intro n hn
      simp only [movementCheckup, mendMovement, Option.map_some, hn]
  · refine .number? [.name "duration"] m.duration (fun n => { m with duration := some n })
      (speaks_positiveDuration scope _) ?_ ?_ ?_
    · intro n hn
      refine Part.record_place? Field.duration rfl ?_
      rw [hn]
      rfl
    · intro n
      simp [movementCheckup, movement_findings, ifPresent]
    · intro n hn
      simp only [movementCheckup, mendMovement, Option.map_some, hn]
  · obtain ⟨type, target, speed, duration, direction⟩ := m
    cases target with
    | value goal =>
      cases goal with
      | point p =>
        refine .field (j := axesCheckup "Point" coordinate (path ++ [.name "target"])
          (ownedBy (some scope.rule.id)) (goalCoordinate scope path)) (a := p)
          [.name "target"] (fun q => ⟨type, .value (.point q), speed, duration, direction⟩)
          (axes_heals (speaks_goalCoordinate scope path) p) rfl (fun _ _ _ h => h) ?_ ?_ ?_
        · intro rel q hq
          have hgoal : (Goal.part (.point p)).place? rel = some (q.map .point) := Part.map_place? hq
          have hinner := Part.inner_place? (fun goal : Slot Goal =>
            (⟨type, goal, speed, duration, direction⟩ : Movement)) hgoal
          rw [Place.map_map] at hinner
          exact Part.record_place? Field.target rfl hinner
        · intro q _
          simp [movementCheckup, movement_findings, goalFields, axesCheckup, Slot.get?]
        · intro q hq
          simp only [axesCheckup] at hq
          simp only [movementCheckup, mendMovement, Slot.mapValue, mendGoal, hq]
      | object id => exact .of_unfixable rfl
    | empty => exact .of_unfixable rfl
    | number n => exact .of_unfixable rfl

theorem movement_settles (m : Movement) : (movementCheckup scope path).Settles m := by
  intro h
  simp only [movementCheckup, movement_findings, fixable_append, Bool.or_eq_false_iff] at h
  obtain ⟨⟨hspeed, hduration⟩, hgoal⟩ := h
  have htarget : m.target.mapValue mendGoal = m.target := by
    cases ht : m.target with
    | value goal =>
      cases goal with
      | point p =>
        have hp := axes_settles (speaks_goalCoordinate scope path) "Point" p
        simp only [goalFields, ht, Slot.get?] at hgoal
        simp only [Slot.mapValue, mendGoal]
        exact congrArg (Slot.value <| Goal.point ·) (hp hgoal)
      | object id => rfl
    | empty => rfl
    | number n => rfl
  simp only [movementCheckup, mendMovement, htarget,
    (speaks_movementSpeed scope _).settles_option hspeed,
    (speaks_positiveDuration scope _).settles_option hduration]

end Movement

/-! ## Effects -/

/-- An effect with its numbers mended. -/
def mendEffect (e : Effect) : Effect :=
  { e with
    duration := e.duration.map effectTime.mend
    scaleAmount := e.scaleAmount.map amount.mend }

/-- The check of an effect at a path. -/
def effectCheckup (scope : Scope) (path : Path) : Checkup Effect where
  base := path
  owns := ownedBy (some scope.rule.id)
  place? e := e.part.place?
  findings := effect scope path
  mend := mendEffect

section Effect

variable (scope : Scope) (path : Path)

theorem speaks_effectDuration :
    Speaks effectTime path (ownedBy (some scope.rule.id)) (effectDuration scope path) :=
  .of_two (fun _ => rfl) (fun _ => ⟨rfl, rfl, rfl⟩) fun _ => ⟨rfl, rfl, rfl⟩

theorem speaks_effectAmount :
    Speaks amount path (ownedBy (some scope.rule.id)) (effectAmount scope path) :=
  .of_two (fun _ => rfl) (fun _ => ⟨rfl, rfl, rfl⟩) fun _ => ⟨rfl, rfl, rfl⟩

theorem effect_heals (e : Effect) : (effectCheckup scope path).Heals e := by
  refine Checkup.HealsIn.heals rfl (.append ?_ ?_)
  · refine .number? [.name "duration"] e.duration (fun n => { e with duration := some n })
      (speaks_effectDuration scope _) ?_ ?_ ?_
    · intro n hn
      refine Part.record_place? Field.duration rfl ?_
      rw [hn]
      rfl
    · intro n
      simp [effectCheckup, effect, ifPresent]
    · intro n hn
      simp only [effectCheckup, mendEffect, Option.map_some, hn]
  · refine .number? [.name "scale_amount"] e.scaleAmount
      (fun n => { e with scaleAmount := some n }) (speaks_effectAmount scope _) ?_ ?_ ?_
    · intro n hn
      refine Part.record_place? Field.scaleAmount rfl ?_
      rw [hn]
      rfl
    · intro n
      simp [effectCheckup, effect, ifPresent]
    · intro n hn
      simp only [effectCheckup, mendEffect, Option.map_some, hn]

theorem effect_settles (e : Effect) : (effectCheckup scope path).Settles e := by
  intro h
  simp only [effectCheckup, effect, fixable_append, Bool.or_eq_false_iff] at h
  simp only [effectCheckup, mendEffect, (speaks_effectDuration scope _).settles_option h.1,
    (speaks_effectAmount scope _).settles_option h.2]

end Effect

/-! ## Placed and planned objects -/

/-- A placement with its position and its scale mended. -/
def mendPlacement (p : Placement) : Placement :=
  { p with
    position := mendPoint coordinate p.position
    scale := p.scale.mapValue (mendPoint scale) }

def placementPath (index : Nat) : Path :=
  [.name "script", .name "layout", .name "objects", .index index]

/-- The check of a placed object. -/
def placementCheckup (index : Nat) : Checkup Placement where
  base := placementPath index
  owns := ownedBy none
  place? p := p.part.place?
  findings := placement index
  mend := mendPlacement

theorem pointFindings_settles {gauge : Gauge} {base : Path} {owns : Location → Prop}
    {check : String → Number → List Finding}
    (hcheck : ∀ axis, Speaks gauge (base ++ [.name axis]) owns (check axis)) {point : Slot Point}
    (h : fixable (pointFindings check point.get?) = false) :
    point.mapValue (mendPoint gauge) = point := by
  cases point with
  | value p => exact congrArg Slot.value (axes_settles hcheck "Point" p h)
  | empty => rfl
  | number n => rfl

theorem speaks_placedCoordinate (path : Path) (object axis : String) :
    Speaks coordinate (path ++ [.name "position"] ++ [.name axis]) (ownedBy none)
      (placedCoordinate path object axis) :=
  .of_one (fun _ => rfl) fun _ => ⟨rfl, (List.append_assoc path [_] [_]).symm, rfl⟩

theorem speaks_placedScale (path : Path) (object axis : String) :
    Speaks scale (path ++ [.name "scale"] ++ [.name axis]) (ownedBy none)
      (placedScale path object axis) :=
  .of_two (fun _ => rfl) (fun _ => ⟨rfl, (List.append_assoc path [_] [_]).symm, rfl⟩)
    fun _ => ⟨rfl, (List.append_assoc path [_] [_]).symm, rfl⟩

theorem placement_heals (index : Nat) (p : Placement) : (placementCheckup index).Heals p := by
  obtain ⟨object, position, scaled⟩ := p
  have hposition := speaks_placedCoordinate (placementPath index) object
  have hscale := speaks_placedScale (placementPath index) object
  have hfindings : placement index ⟨object, position, scaled⟩ =
      (axesCheckup "Point" coordinate (placementPath index ++ [.name "position"]) (ownedBy none)
        (placedCoordinate (placementPath index) object)).findings position ++
        pointFindings (placedScale (placementPath index) object) scaled.get? := rfl
  refine Checkup.HealsIn.heals hfindings (.append ?_ ?_)
  · refine .field (j := axesCheckup "Point" coordinate (placementPath index ++ [.name "position"])
      (ownedBy none) (placedCoordinate (placementPath index) object)) (a := position)
      [.name "position"] (fun q => ⟨object, q, scaled⟩) (axes_heals hposition position)
      rfl (fun _ _ _ h => h) ?_ ?_ ?_
    · intro rel q hq
      exact Part.record_place? Field.position rfl (Part.map_place? hq)
    · intro q _
      rw [List.append_nil]
      rfl
    · intro q hq
      simp only [axesCheckup] at hq
      simp only [placementCheckup, mendPlacement, hq]
  · cases scaled with
    | value s =>
      refine .field (j := axesCheckup "Point" scale (placementPath index ++ [.name "scale"])
        (ownedBy none) (placedScale (placementPath index) object)) (a := s)
        [.name "scale"] (fun q => ⟨object, position, .value q⟩) (axes_heals hscale s)
        rfl (fun _ _ _ h => h) ?_ (fun _ _ => (List.append_nil _).symm) ?_
      · intro rel q hq
        exact Part.record_place? Field.scale rfl (Part.inner_place? _ hq)
      · intro q hq
        simp only [axesCheckup] at hq
        simp only [placementCheckup, mendPlacement, Slot.mapValue, hq]
    | empty => exact .of_unfixable rfl
    | number n => exact .of_unfixable rfl

theorem placement_settles (index : Nat) (p : Placement) : (placementCheckup index).Settles p := by
  intro h
  obtain ⟨object, position, scaled⟩ := p
  change fixable (_ ++ pointFindings _ scaled.get?) = false at h
  rw [fixable_append, Bool.or_eq_false_iff] at h
  have hposition := axes_settles
    (speaks_placedCoordinate (placementPath index) object) "Point" position h.1
  have hscale := pointFindings_settles (speaks_placedScale (placementPath index) object) h.2
  simp only [axesCheckup] at hposition
  simp only [placementCheckup, mendPlacement, hposition, hscale]

def mendObject (o : ObjectPlan) : ObjectPlan :=
  { o with initialPosition := o.initialPosition.mapValue (mendPoint coordinate) }

def objectPath (index : Nat) : Path :=
  [.name "asset_plan", .name "objects", .index index]

/-- The check of a planned object. -/
def objectCheckup (index : Nat) : Checkup ObjectPlan where
  base := objectPath index
  owns := ownedBy none
  place? o := o.part.place?
  findings o := pointFindings (initialCoordinate index o.id) o.initialPosition.get?
  mend := mendObject

theorem speaks_initialCoordinate (index : Nat) (object axis : String) :
    Speaks coordinate (objectPath index ++ [.name "initial_position"] ++ [.name axis])
      (ownedBy none) (initialCoordinate index object axis) :=
  .of_one (fun _ => rfl) fun _ => ⟨rfl, rfl, rfl⟩

theorem object_heals (index : Nat) (o : ObjectPlan) : (objectCheckup index).Heals o := by
  obtain ⟨id, name, purpose, description, initialPosition, size⟩ := o
  refine Checkup.HealsIn.heals rfl ?_
  cases initialPosition with
  | value p =>
    refine .field (j := axesCheckup "Point" coordinate (objectPath index ++ [.name "initial_position"])
      (ownedBy none) (initialCoordinate index id)) (a := p) [.name "initial_position"]
      (fun q => ⟨id, name, purpose, description, .value q, size⟩)
      (axes_heals (speaks_initialCoordinate index id) p)
      rfl (fun _ _ _ h => h) ?_ (fun _ _ => (List.append_nil _).symm) ?_
    · intro rel q hq
      exact Part.record_place? Field.initialPosition rfl (Part.inner_place? _ hq)
    · intro q hq
      simp only [axesCheckup] at hq
      simp only [objectCheckup, mendObject, Slot.mapValue, hq]
  | empty => exact .of_unfixable rfl
  | number n => exact .of_unfixable rfl

theorem object_settles (index : Nat) (o : ObjectPlan) : (objectCheckup index).Settles o := by
  intro h
  have hposition := pointFindings_settles (speaks_initialCoordinate index o.id) h
  simp only [objectCheckup, mendObject, hposition]

end TouchGame.Mending
