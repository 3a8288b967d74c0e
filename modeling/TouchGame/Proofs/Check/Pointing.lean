import TouchGame.Proofs.Check.References

/-!
# Findings that point into parts

Every finding about a condition or an action names its rule, and the path that it gives leads, from the
condition or the action on, to a field that is there: a number, a text, a record, or an empty field.

* `Part.Reaches` : a path into a part leads somewhere.
* `Points` : what the findings about a part have in common.
* `condition_points`, `action_points` : the fieldwise check of a condition, and of an action with all
  that it may pick.
-/

namespace TouchGame

namespace Part

variable {ρ σ α : Type} {noun name : String} {parts shortcuts : List (Key × Part ρ)} {key : Key}
  {part : Part ρ} {rel : Path}

def Reaches (part : Part ρ) (path : Path) : Prop :=
  (part.place? path).isSome

theorem Reaches.of_place? {p : Place ρ} (h : part.place? rel = some p) : part.Reaches rel := by
  rw [Reaches, h]
  rfl

/-! ## Parts by themselves -/

@[simp] theorem reaches_leaf (value : Json) (place : Place ρ) : (leaf value place).Reaches [] := rfl

@[simp] theorem reaches_text (value : String) : (text value : Part ρ).Reaches [] := rfl

@[simp] theorem reaches_object (fields : Json.Fields) : (object fields : Part ρ).Reaches [] := rfl

@[simp] theorem reaches_record : (record noun parts).Reaches [] := rfl

@[simp] theorem reaches_itemsOf (parts : List (Part α)) (list : List α) (put : List α → ρ) :
    (itemsOf parts list put).Reaches [] := rfl

@[simp] theorem reaches_number? (value : Option Number) (put : Option Number → ρ) :
    (number? value put).Reaches [] := by
  cases value <;> rfl

@[simp] theorem reaches_text? (value : Slot String) (put : Slot String → ρ) :
    (text? value put).Reaches [] := by
  cases value <;> rfl

@[simp] theorem reaches_flag? (value : Slot Bool) (put : Slot Bool → ρ) :
    (flag? value put).Reaches [] := by
  cases value <;> rfl

@[simp] theorem reaches_numbers? (value : Slot (List Number)) (put : Slot (List Number) → ρ) :
    (numbers? value put).Reaches [] := by
  cases value <;> rfl

@[simp] theorem reaches_slot {part : α → Part ρ} (h : ∀ a, (part a).Reaches []) (value : Slot α)
    (put : Slot α → ρ) : (slot part value put).Reaches [] := by
  cases value with
  | value a => exact h a
  | _ => rfl

/-! ## Parts of parts -/

theorem Reaches.map (f : ρ → σ) (h : part.Reaches rel) : (part.map f).Reaches rel := by
  obtain ⟨p, hp⟩ := Option.isSome_iff_exists.mp h
  exact .of_place? (map_place? hp)

theorem reaches_inner {inside : α → Part α} (h : ∀ a, (inside a).Reaches []) (value : Slot α)
    (put : Slot α → ρ) : (inner inside value put).Reaches [] :=
  reaches_slot (fun a => (h a).map _) value put

theorem Reaches.inner {inside : α → Part α} {a : α} (put : Slot α → ρ) (h : (inside a).Reaches rel) :
    (inner inside (.value a) put).Reaches rel :=
  h.map _

theorem Reaches.field (hfind : parts.find? (·.1.name == name) = some (key, part))
    (h : part.Reaches rel) : (record noun parts).Reaches (.name name :: rel) := by
  obtain ⟨p, hp⟩ := Option.isSome_iff_exists.mp h
  exact .of_place? (record_place? key hfind hp)

theorem Reaches.item {inside : α → Part α} {list : List α} {i : Nat} {a : α} (put : List α → ρ)
    (ha : list[i]? = some a) (h : (inside a).Reaches rel) :
    (items inside list put).Reaches (.index i :: rel) := by
  obtain ⟨p, hp⟩ := Option.isSome_iff_exists.mp h
  exact .of_place? (items_place? inside list put ha hp)

theorem Reaches.past (h : part.Reaches rel) : (part.withShortcuts shortcuts).Reaches rel := by
  obtain ⟨p, hp⟩ := Option.isSome_iff_exists.mp h
  exact .of_place? (withShortcuts_place? hp)

theorem record_reaches (hparts : ∀ x ∈ parts, x.2.Reaches [])
    (hkey : key ∈ (record noun parts).tree.members.map (·.1)) :
    (record noun parts).Reaches [.name key.name] := by
  have hnamed : ∃ x ∈ parts, (x.1.name == key.name) = true := by
    simp only [record, fields, Tree.members, List.map_map, List.mem_map] at hkey
    obtain ⟨x, hx, rfl⟩ := hkey
    exact ⟨x, hx, beq_self_eq_true _⟩
  obtain ⟨⟨found, part⟩, hfound⟩ := Option.isSome_iff_exists.mp (List.find?_isSome.mpr hnamed)
  exact .field hfound (hparts _ (List.mem_of_find?_eq_some hfound))

end Part

/-! ## Fields of conditions and actions -/

open TouchGame.Part

theorem Condition.reaches_field {c : Condition} (h : c.word?.isSome) {key : Key}
    (hkey : key ∈ c.part.tree.members.map (·.1)) : c.part.Reaches [.name key.name] := by
  have hregion : ∀ r : Region, r.part.Reaches [] := fun _ => rfl
  cases c with
  | unknown => cases h
  | _ =>
    refine record_reaches ?_ hkey
    simp [parts, reaches_inner hregion]

theorem Condition.snakeCase_wire {c : Condition} (h : c.word?.isSome) {key : Key}
    (hkey : key ∈ c.part.tree.members.map (·.1)) : Text.snakeCase key.wire = key.name := by
  revert key
  cases c with
  | unknown => cases h
  | _ =>
    simp only [part, parts, record, fields, Tree.members, List.map_cons, List.map_nil]
    decide +kernel

theorem Point.reaches_vector (p : Point) : (p.part "Vector").Reaches [] := rfl

theorem Action.reaches_field {a : Action} (h : a.word?.isSome) {key : Key}
    (hkey : key ∈ a.part.tree.members.map (·.1)) : a.part.Reaches [.name key.name] := by
  have hmovement : ∀ m : Movement, m.part.Reaches [] := fun _ => rfl
  have heffect : ∀ e : Effect, e.part.Reaches [] := fun _ => rfl
  cases a with
  | unknown => cases h
  | choice options mode weights =>
    rw [part] at hkey ⊢
    refine record_reaches ?_ hkey
    simp
  | _ =>
    refine record_reaches ?_ hkey
    simp [plainParts, reaches_inner hmovement, reaches_inner Point.reaches_vector, reaches_inner heffect]

theorem reaches_type {ρ : Type} (type : Json) (extras : List Extra) (put : Json → List Extra → ρ) :
    (ofExtras type extras put).Reaches [.name Field.type.name] := by
  cases type <;> rfl

theorem Condition.reaches_type (c : Condition) : c.part.Reaches [.name Field.type.name] := by
  cases c with
  | unknown type extras => exact TouchGame.reaches_type type extras _
  | _ => rfl

theorem Action.reaches_type (a : Action) : a.part.Reaches [.name Field.type.name] := by
  cases a with
  | unknown type extras => exact TouchGame.reaches_type type extras _
  | _ => rfl

namespace Check

open Mending

/-! ## Findings about a part -/

/-- The findings about a part at a path name a rule, or none, and give the path of a field that the part
reaches. -/
def Points {ρ : Type} (rule : Option String) (base : Path) (part : Part ρ) (findings : List Finding) :
    Prop :=
  ∀ f ∈ findings, f.location.rule = rule ∧ ∃ rel, f.location.path = base ++ rel ∧ part.Reaches rel

section Points

variable {ρ σ : Type} {rule : Option String} {base rel : Path} {part : Part ρ} {xs ys : List Finding}
  {f : Finding}

theorem points_nil : Points rule base part [] := by
  simp [Points]

theorem points_append (hxs : Points rule base part xs) (hys : Points rule base part ys) :
    Points rule base part (xs ++ ys) :=
  List.forall_mem_append.mpr ⟨hxs, hys⟩

theorem points_one (rel : Path) (hrule : f.location.rule = rule) (hpath : f.location.path = base ++ rel)
    (h : part.Reaches rel) : Points rule base part [f] :=
  List.forall_mem_singleton.mpr ⟨hrule, rel, hpath, h⟩

theorem points_if {p : Prop} [Decidable p] (hxs : Points rule base part xs) :
    Points rule base part (if p then xs else []) := by
  split
  · exact hxs
  · exact points_nil

theorem points_flatMap {α : Type} {list : List α} {check : α → List Finding}
    (h : ∀ a ∈ list, Points rule base part (check a)) : Points rule base part (list.flatMap check) :=
  List.forall_mem_flatMap.mpr h

theorem points_ifPresent {value : Option Number} {check : Number → List Finding}
    (h : ∀ n, Points rule base part (check n)) : Points rule base part (ifPresent value check) :=
  forall_mem_ifPresent h

theorem points_indexed {α : Type} {check : Nat → α → List Finding} {list : List α}
    (h : ∀ (i : Nat) a, list[i]? = some a → Points rule base part (check i a)) :
    Points rule base part (indexed check 0 list) :=
  forall_mem_indexed h

theorem Points.lift {whole : Part σ} {steps : Path} (h : Points rule (base ++ steps) part xs)
    (hsteps : ∀ rel, part.Reaches rel → whole.Reaches (steps ++ rel)) : Points rule base whole xs := by
  intro f hf
  obtain ⟨hrule, rel, hpath, hrel⟩ := h f hf
  exact ⟨hrule, steps ++ rel, by rw [hpath, List.append_assoc], hsteps rel hrel⟩

theorem points_number {gauge : Gauge} {path : Path} {check : Number → List Finding}
    (h : Speaks gauge path (ownedBy rule) check) (rel : Path) (hpath : path = base ++ rel)
    (hreach : part.Reaches rel) (n : Number) : Points rule base part (check n) := by
  cases hc : gauge.code? n with
  | none =>
    rw [h.silent hc]
    exact points_nil
  | some c =>
    obtain ⟨f, hf, _, hfound, howned⟩ := h.speaks hc
    rw [hf]
    exact points_one rel howned (hfound.trans hpath) hreach

theorem points_axes {gauge : Gauge} {check : String → Number → List Finding} (p : Point) (steps : Path)
    (h : ∀ axis, Speaks gauge (base ++ steps ++ [.name axis]) (ownedBy rule) (check axis))
    (hx : part.Reaches (steps ++ [.name "x"])) (hy : part.Reaches (steps ++ [.name "y"])) :
    Points rule base part ((axes p).flatMap fun (axis, value) => check axis value) := by
  have haxes : ((axes p).flatMap fun (axis, value) => check axis value) =
      check "x" p.x ++ check "y" p.y := by
    simp [axes]
  rw [haxes]
  refine points_append ?_ ?_
  · exact points_number (h "x") (steps ++ [.name "x"]) (List.append_assoc ..) hx p.x
  · exact points_number (h "y") (steps ++ [.name "y"]) (List.append_assoc ..) hy p.y

end Points

/-! ## Conditions -/

section Conditions

variable (scope : Scope) (path : Path)

theorem enumerated_points {ρ : Type} {part : Part ρ} (rel : Path) (h : part.Reaches rel)
    (field : String) (value : Slot String) (label : String) :
    Points (some scope.rule.id) path part (enumerated scope field value (path ++ rel) label) := by
  unfold enumerated
  split
  · exact points_nil
  · exact points_if (points_one rel rfl rfl h)

theorem needsTarget_points (c : Condition) (h : c.part.Reaches [.name "target"]) (type : String)
    (target : Slot String) :
    Points (some scope.rule.id) path c.part (needsTarget scope path type target) :=
  points_if (points_one [.name "target"] rfl rfl h)

theorem conditionFields_points (c : Condition) :
    Points (some scope.rule.id) path c.part (conditionFields scope path c) := by
  cases c with
  | counter name comparison value =>
    refine points_append (points_if ?_) (points_if ?_)
    · exact points_one [.name "counter_name"] rfl rfl (.field rfl (reaches_text? _ _))
    · exact points_one [.name "value"] rfl rfl (.field rfl (reaches_number? _ _))
  | time timeType seconds interval =>
    refine points_append (points_ifPresent ?_) (points_ifPresent ?_)
    · exact points_number (speaks_timerSeconds scope path) [.name "seconds"] rfl
        (.field rfl (reaches_number? _ _))
    · exact points_number (speaks_timerInterval scope path) [.name "interval"] rfl
        (.field rfl (reaches_number? _ _))
  | flag flag flagState =>
    exact points_if (points_one [.name "flag_id"] rfl rfl (.field rfl (reaches_text? _ _)))
  | random chance seed =>
    cases chance with
    | none => exact points_one [.name "probability"] rfl rfl (.field rfl (reaches_number? _ _))
    | some n =>
      exact points_number (speaks_probability scope _) [.name "probability"] rfl
        (.field rfl (reaches_number? _ _)) n
  | position target area region =>
    have htarget : (Condition.position target area region).part.Reaches [.name "target"] :=
      .field rfl (reaches_text? _ _)
    refine points_append ?_ (needsTarget_points scope path _ htarget _ _)
    cases region with
    | value r =>
      have hx : (Condition.position target area (.value r)).part.Reaches [.name "region", .name "x"] :=
        .field rfl (.inner _ (.field rfl rfl))
      have hy : (Condition.position target area (.value r)).part.Reaches [.name "region", .name "y"] :=
        .field rfl (.inner _ (.field rfl rfl))
      exact points_append
        (points_number (speaks_regionCoordinate scope path "x") _ (List.append_assoc ..) hx r.x)
        (points_number (speaks_regionCoordinate scope path "y") _ (List.append_assoc ..) hy r.y)
    | _ => exact points_nil
  | collision target kind mode =>
    exact needsTarget_points scope path (.collision target kind mode) (.field rfl (reaches_text? _ _)) _ _
  | objectState target state =>
    exact needsTarget_points scope path (.objectState target state) (.field rfl (reaches_text? _ _)) _ _
  | _ => exact points_nil

/-- The findings about a condition point into it, if no condition of its type is taken for another
one. -/
theorem condition_points {c : Condition}
    (h : scope.vocabulary.hasCondition c.kind = true → c.word?.isSome) :
    Points (some scope.rule.id) path c.part (condition scope path c) := by
  unfold condition
  split
  · rename_i hsupported
    refine points_append (points_flatMap fun x hx => ?_) (conditionFields_points scope path c)
    simp only [conditionEnums, List.mem_filterMap, List.mem_filter, Option.map_eq_some_iff] at hx
    obtain ⟨⟨key, member⟩, ⟨hmember, _⟩, _, _, rfl⟩ := hx
    have hkey : key ∈ c.part.tree.members.map (·.1) := List.mem_map_of_mem hmember
    refine enumerated_points scope path _ ?_ _ _ _
    rw [Condition.snakeCase_wire (h hsupported) hkey]
    exact Condition.reaches_field (h hsupported) hkey
  · exact points_one [.name "type"] rfl rfl c.reaches_type

end Conditions

/-! ## Actions -/

section Actions

variable (scope : Scope) (path : Path)

theorem movement_points (m : Movement) :
    Points (some scope.rule.id) path m.part (movement scope path m) := by
  refine points_append (points_append (points_ifPresent ?_) (points_ifPresent ?_)) ?_
  · exact points_number (speaks_movementSpeed scope _) [.name "speed"] rfl
      (.field rfl (reaches_number? _ _))
  · exact points_number (speaks_positiveDuration scope _) [.name "duration"] rfl
      (.field rfl (reaches_number? _ _))
  · obtain ⟨type, target, speed, duration, direction⟩ := m
    rcases target with _ | (p | id) | n
    case value.point =>
      exact points_axes p [.name "target"] (speaks_goalCoordinate scope path)
        (.field rfl (.inner _ (.map _ (.field rfl rfl)))) (.field rfl (.inner _ (.map _ (.field rfl rfl))))
    all_goals exact points_nil

theorem effect_points (e : Effect) : Points (some scope.rule.id) path e.part (effect scope path e) := by
  refine points_append (points_ifPresent ?_) (points_ifPresent ?_)
  · exact points_number (speaks_effectDuration scope _) [.name "duration"] rfl
      (.field rfl (reaches_number? _ _))
  · exact points_number (speaks_effectAmount scope _) [.name "scale_amount"] rfl
      (.field rfl (reaches_number? _ _))

theorem actionFields_points (a : Action) :
    Points (some scope.rule.id) path a.part (actionFields scope path a) := by
  cases a with
  | move target movement =>
    cases movement with
    | value m =>
      exact (movement_points scope _ m).lift fun rel hrel => .field rfl (.inner _ hrel)
    | _ => exact points_nil
  | effect target effect =>
    cases effect with
    | value e => exact (effect_points scope _ e).lift fun rel hrel => .field rfl (.inner _ hrel)
    | _ => exact points_nil
  | hide | reveal =>
    exact points_ifPresent (points_number (speaks_positiveDuration scope _) [.name "duration"] rfl
      (.field rfl (reaches_number? _ _)))
  | counter name operation value =>
    refine points_append (points_if ?_) (points_if ?_)
    · exact points_one [.name "counter_name"] rfl rfl (.field rfl (reaches_text? _ _))
    · exact points_one [.name "value"] rfl rfl (.field rfl (reaches_number? _ _))
  | addScore points =>
    cases points with
    | none => exact points_one [.name "points"] rfl rfl (.field rfl (reaches_number? _ _))
    | some n =>
      exact points_number (speaks_awardedPoints scope _) [.name "points"] rfl
        (.field rfl (reaches_number? _ _)) n
  | setFlag | toggleFlag =>
    exact points_if (points_one [.name "flag_id"] rfl rfl (.field rfl (reaches_text? _ _)))
  | playSound sound volume =>
    refine points_append (points_if ?_) (points_ifPresent ?_)
    · exact points_one [.name "sound_id"] rfl rfl (.field rfl (reaches_text? _ _))
    · exact points_number (speaks_soundVolume scope _) [.name "volume"] rfl
        (.field rfl (reaches_number? _ _))
  | switchAnimation =>
    exact points_if (points_one [.name "animation_index"] rfl rfl (.field rfl (reaches_number? _ _)))
  | applyForce =>
    exact points_if (points_one [.name "force"] rfl rfl
      (.field rfl (reaches_inner Point.reaches_vector _ _)))
  | applyImpulse =>
    exact points_if (points_one [.name "impulse"] rfl rfl
      (.field rfl (reaches_inner Point.reaches_vector _ _)))
  | _ => exact points_nil

/-- The enumerated fields of an action are there. -/
theorem reaches_actionEnums (a : Action) : ∀ x ∈ actionEnums a,
    a.part.Reaches (x.1.map fun key => .name (Text.snakeCase key)) := by
  have hwords : ["movement", "type", "direction", "operation", "effect", "selectionMode"].map
      Text.snakeCase = ["movement", "type", "direction", "operation", "effect", "selection_mode"] := by
    decide +kernel
  simp only [List.map_cons, List.map_nil, List.cons.injEq] at hwords
  obtain ⟨hmovement, htype, hdirection, hoperation, heffect, hmode, _⟩ := hwords
  cases a with
  | move target movement =>
    cases movement with
    | value m =>
      simp only [actionEnums, Slot.get?, movementEnums, List.forall_mem_cons, List.map_cons,
        List.map_nil, hmovement, htype, hdirection]
      exact ⟨.field rfl (.inner _ (.field rfl (reaches_text? _ _))),
        .field rfl (.inner _ (.field rfl (reaches_text? _ _))), by simp⟩
    | _ => simp [actionEnums, Slot.get?, movementEnums]
  | effect target effect =>
    cases effect with
    | value e =>
      simp only [actionEnums, Slot.get?, effectEnums, List.forall_mem_singleton, List.map_cons,
        List.map_nil, heffect, htype]
      exact .field rfl (.inner _ (.field rfl (reaches_text? _ _)))
    | _ => simp [actionEnums, Slot.get?, effectEnums]
  | counter =>
    simp only [actionEnums, List.forall_mem_singleton, List.map_cons, List.map_nil, hoperation]
    exact .field rfl (reaches_text? _ _)
  | choice =>
    simp only [actionEnums, List.forall_mem_singleton, List.map_cons, List.map_nil, hmode]
    exact .field rfl (reaches_text? _ _)
  | _ => simp [actionEnums]

theorem reaches_target {a : Action} (h : a.worksOn?.isSome) : a.part.Reaches [.name "target_id"] := by
  cases a with
  | hide | reveal | move | followDrag | applyForce | applyImpulse | effect | switchAnimation
  | playAnimation => exact .field rfl (reaches_text? _ _)
  | _ => cases h

theorem ownAction_points (a : Action) :
    Points (some scope.rule.id) path a.part (ownAction scope path a) := by
  refine points_append (points_append (points_flatMap fun x hx => ?_) ?_)
    (actionFields_points scope path a)
  · exact enumerated_points scope path _ (reaches_actionEnums a x hx) _ _ _
  · unfold needsObject
    split
    · rename_i hobject
      exact points_one [.name "target_id"] rfl rfl (reaches_target (by simp_all))
    · exact points_nil

theorem reaches_choice {options : List (ChoiceOption Action)} {mode : Slot String}
    {weights : Slot (List Number)} {i : Nat} {o : ChoiceOption Action} {rel : Path}
    (ho : options[i]? = some o) (h : (optionPart o).Reaches rel) :
    (Action.choice options mode weights).part.Reaches (.name "actions" :: .index i :: rel) := by
  obtain ⟨p, hp⟩ := Option.isSome_iff_exists.mp h
  have hpart : (Action.optionParts options)[i]? = some (optionPart o) := by
    rw [optionParts_eq_map, List.getElem?_map, ho]
    rfl
  exact .field rfl (.of_place? (itemsOf_place? (optionPart o) (List.getElem?_eq_some_iff.mp ho).1 hpart hp))

/-- The findings about an action and about all that it may pick point into it. -/
theorem action_points (a : Action) :
    ∀ path, Points (some scope.rule.id) path a.part (action scope path a) := by
  have hunsupported (a : Action) (path : Path) :
      Points (some scope.rule.id) path a.part [unsupportedAction scope path a] :=
    points_one [.name "type"] rfl rfl a.reaches_type
  induction a using Action.nested_induction with
  | plain a hplain =>
    intro path
    rw [action]
    · split
      · exact ownAction_points scope path a
      · exact hunsupported a path
    · exact Action.ne_choice hplain
  | choice options mode weights ih =>
    intro path
    rw [action]
    split
    · rw [choiceOptions_eq_indexed]
      refine points_append (ownAction_points scope path _) (points_indexed fun i o ho => ?_)
      refine points_append (points_ifPresent ?_) ?_
      · refine points_number (speaks_probability scope _) [.name "actions", .index i, .name "probability"]
          (List.append_assoc ..) (reaches_choice ho (.field rfl (reaches_number? _ _)))
      · have hpath : optionPath path i ++ [.name "action"] =
            path ++ [.name "actions", .index i, .name "action"] := List.append_assoc ..
        rw [hpath]
        exact (ih o (List.mem_of_getElem? ho) _).lift fun rel hrel =>
          reaches_choice ho (.field rfl (.map _ hrel))
    · exact hunsupported _ path

end Actions

end Check

end TouchGame
