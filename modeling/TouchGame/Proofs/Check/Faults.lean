import TouchGame.Proofs.Check.Loading

/-!
# When the check of a document fails

The checks look into records, put names in order, and look up the types of conditions. In a rule-set that
loads, a field for a record holds a record or nothing, so looking into it never fails, at any depth of
choices, and all names are texts, so they have an order; numbers get to either place through repairs only.
What is left are the types: a list or an object is no key of a table.

* `lookFault?_optional` : a field that was read can be looked into.
* `Condition.decode_region`, `Action.decodeIn_records` : the records in conditions and actions.
* `fieldwiseFault?_of_load` : nothing stands against the fieldwise check of a rule-set that loads.
* `rulewiseFault?_of_load` : against the check between rules, only the first type that is no key.
* `validateDocument_fails_iff` : the documents whose check fails.
-/

namespace TouchGame

open Check

/-! ## Records that were read -/

theorem lookFault?_optional {α : Type} {fields : Json.Fields} {key : Key} {read : Json → Decoded α}
    {s : Slot α} (h : Decode.optional fields key read = .ok s) (field : Key) :
    lookFault? field s = none := by
  cases s with
  | number n => exact absurd rfl (Decode.optional_ok h n)
  | _ => rfl

theorem Condition.decodeKnown?_region {fields : Json.Fields} {word : String} {read : Decoded Condition}
    {c : Condition} (h : Condition.decodeKnown? fields word = some read) (hc : read = .ok c) :
    regionFault? c = none := by
  have hgives := Decoded.gives hc
  unfold Condition.decodeKnown? at h
  split at h
  all_goals cases h
  all_goals simp only [Decoded.seq_gives_iff, Decoded.map_gives_iff] at hgives
  case h_7.refl =>
    obtain ⟨_, _, _, _, _, hregion, rfl⟩ := hgives
    exact lookFault?_optional hregion Field.x
  -- The other types have no region.
  all_goals grind [regionFault?]

theorem Condition.decode_region {value : Json} {c : Condition} (h : Condition.decode value = .ok c) :
    regionFault? c = none := by
  obtain ⟨fields, -, ⟨word, -, hread⟩ | ⟨extras, rfl, -, -⟩⟩ := Condition.decode_cases h
  · exact Condition.decodeKnown?_region hread rfl
  · rfl

theorem Movement.decode_goal {value : Json} {m : Movement} (h : Movement.decode value = .ok m) :
    lookFault? Field.x m.target = none := by
  obtain ⟨fields, hread⟩ := Decode.record_ok h
  have hgives := Decoded.gives hread
  simp only [Decoded.seq_gives_iff, Decoded.map_gives_iff] at hgives
  obtain ⟨_, _, goal, hgoal, _, _, _, _, _, _, rfl⟩ := hgives
  exact lookFault?_optional hgoal Field.x

namespace Action

/-- The records in an action can be looked into. -/
structure HasRecords (a : Action) : Prop where
  movement : movementFault? a = none
  goal : goalFault? a = none
  effect : effectFault? a = none

theorem decodeKnown?_records {fields : Json.Fields} {word : String} {read : Decoded Action} {a : Action}
    (h : decodeKnown? fields word = some read) (ha : read = .ok a) : a.HasRecords := by
  have hgives := Decoded.gives ha
  unfold decodeKnown? at h
  split at h
  all_goals cases h
  all_goals simp only [Decoded.seq_gives_iff, Decoded.map_gives_iff, Decoded.ok.injEq,
    exists_eq_left'] at hgives
  case h_5.refl =>
    obtain ⟨_, _, movement, hmovement, rfl⟩ := hgives
    refine ⟨lookFault?_optional hmovement Field.type, ?_, rfl⟩
    cases movement with
    | value m =>
      obtain ⟨value, hvalue⟩ := Decode.optional_value hmovement
      exact Movement.decode_goal hvalue
    | _ => rfl
  case h_15.refl =>
    obtain ⟨_, _, effect, heffect, rfl⟩ := hgives
    exact ⟨rfl, rfl, lookFault?_optional heffect Field.type⟩
  -- The other types hold no movement and no effect.
  all_goals grind [HasRecords, movementFault?, goalFault?, effectFault?]

theorem decodeIn_records {choices : Nat} {value : Json} {a : Action} (h : decodeIn choices value = .ok a) :
    a.HasRecords := by
  obtain ⟨fields, -, ⟨options, mode, weights, rfl, -⟩ | ⟨-, hread⟩⟩ := decodeIn_cases h
  · exact ⟨rfl, rfl, rfl⟩
  · obtain ⟨-, ⟨word, -, hread⟩ | ⟨extras, rfl, -, -⟩⟩ := decodePlain_cases hread
    · exact decodeKnown?_records hread rfl
    · exact ⟨rfl, rfl, rfl⟩

theorem actionFault?_of_decodeIn (v : Vocabulary) (a : Action) :
    ∀ choices value, decodeIn choices value = .ok a → actionFault? v a = none := by
  induction a using nested_induction with
  | plain a hplain =>
    intro choices value h
    have hrecords := decodeIn_records h
    rw [actionFault?_plain hplain, ownFault?, hrecords.movement, hrecords.goal, hrecords.effect]
    exact ite_self none
  | choice options mode weights ih =>
    intro choices value h
    rw [actionFault?, optionsFault?_eq]
    split
    · rw [List.findSome?_eq_none_iff]
      intro o ho
      obtain ⟨item, hitem⟩ := decodeIn_picks h o.action (List.mem_map_of_mem ho)
      exact ih o ho (choices + 1) item hitem
    · rfl

end Action

/-! ## Rule-sets that were read -/

theorem Rule.decode_trigger {value : Json} {r : Rule} (h : Rule.decode value = .ok r) (field : Key) :
    lookFault? field r.trigger = none := by
  obtain ⟨fields, hread⟩ := Decode.record_ok h
  have hgives := Decoded.gives hread
  simp only [Decoded.seq_gives_iff, Decoded.map_gives_iff] at hgives
  obtain ⟨_, _, _, _, _, _, trigger, htrigger, _, _, rfl⟩ := hgives
  exact lookFault?_optional htrigger field

theorem Placement.decode_scale {value : Json} {p : Placement} (h : Placement.decode value = .ok p) :
    lookFault? Field.x p.scale = none := by
  obtain ⟨fields, hread⟩ := Decode.record_ok h
  have hgives := Decoded.gives hread
  simp only [Decoded.seq_gives_iff, Decoded.map_gives_iff] at hgives
  obtain ⟨_, _, _, _, scale, hscale, rfl⟩ := hgives
  exact lookFault?_optional hscale Field.x

theorem ObjectPlan.decode_position {value : Json} {o : ObjectPlan} (h : ObjectPlan.decode value = .ok o) :
    lookFault? Field.x o.initialPosition = none := by
  obtain ⟨fields, hread⟩ := Decode.record_ok h
  have hgives := Decoded.gives hread
  simp only [Decoded.seq_gives_iff, Decoded.map_gives_iff] at hgives
  obtain ⟨_, _, _, _, _, _, _, _, position, hposition, _, _, rfl⟩ := hgives
  exact lookFault?_optional hposition Field.x

theorem Game.decode_layout {value : Json} {g : Game} (h : Game.decode value = .ok g) :
    ∀ p ∈ g.layout, ∃ item, Placement.decode item = .ok p := by
  obtain ⟨fields, hread⟩ := Decode.record_ok h
  have hgives := Decoded.gives hread
  simp only [Decoded.seq_gives_iff, Decoded.map_gives_iff] at hgives
  obtain ⟨script, hscript, _, _, rfl⟩ := hgives
  obtain ⟨value, hvalue⟩ := Decode.required_ok hscript
  obtain ⟨fields, hread⟩ := Decode.record_ok hvalue
  have hgives := Decoded.gives hread
  simp only [Decoded.seq_gives_iff, Decoded.map_gives_iff] at hgives
  obtain ⟨placed, hplaced, _, _, _, _, rfl⟩ := hgives
  obtain ⟨value, hvalue⟩ := Decode.required_ok hplaced
  obtain ⟨fields, hread⟩ := Decode.record_ok hvalue
  obtain ⟨value, hvalue⟩ := Decode.required_ok hread
  exact Decode.list_ok hvalue

theorem Game.decode_objects {value : Json} {g : Game} (h : Game.decode value = .ok g) :
    ∀ o ∈ g.objects, ∃ item, ObjectPlan.decode item = .ok o := by
  obtain ⟨fields, hread⟩ := Decode.record_ok h
  have hgives := Decoded.gives hread
  simp only [Decoded.seq_gives_iff, Decoded.map_gives_iff] at hgives
  obtain ⟨_, _, assets, hassets, rfl⟩ := hgives
  obtain ⟨value, hvalue⟩ := Decode.required_ok hassets
  obtain ⟨fields, hread⟩ := Decode.record_ok hvalue
  have hgives := Decoded.gives hread
  simp only [Decoded.seq_gives_iff, Decoded.map_gives_iff] at hgives
  obtain ⟨objects, hobjects, _, _, _, _, rfl⟩ := hgives
  obtain ⟨value, hvalue⟩ := Decode.required_ok hobjects
  exact Decode.list_ok hvalue

namespace Check

variable {document : Json} {g : Game}

/-- Nothing stands against the fieldwise check of a rule-set that loads. -/
theorem fieldwiseFault?_of_load (v : Vocabulary) (h : load document = .ok g) :
    fieldwiseFault? v g = none := by
  have hdecode := decode_of_load h
  have hlayout : (g.layout.findSome? fun p => lookFault? Field.x p.scale) = none := by
    rw [List.findSome?_eq_none_iff]
    intro p hp
    obtain ⟨item, hitem⟩ := Game.decode_layout hdecode p hp
    exact Placement.decode_scale hitem
  have hobjects : (g.objects.findSome? fun o => lookFault? Field.x o.initialPosition) = none := by
    rw [List.findSome?_eq_none_iff]
    intro o ho
    obtain ⟨item, hitem⟩ := Game.decode_objects hdecode o ho
    exact ObjectPlan.decode_position hitem
  have hrules : g.rules.findSome? (ruleFault? v) = none := by
    rw [List.findSome?_eq_none_iff]
    intro r hr
    obtain ⟨item, hitem⟩ := Game.decode_rules hdecode r hr
    have hconditions : r.conditions.findSome? (conditionFault? v) = none := by
      rw [List.findSome?_eq_none_iff]
      intro c hc
      obtain ⟨value, hvalue⟩ := Rule.decode_conditions hitem c hc
      rw [conditionFault?, Condition.decode_region hvalue]
      exact ite_self none
    have hactions : r.actions.findSome? (actionFault? v) = none := by
      rw [List.findSome?_eq_none_iff]
      intro a ha
      obtain ⟨value, hvalue⟩ := Rule.decode_actions hitem a ha
      exact Action.actionFault?_of_decodeIn v a 0 value hvalue
    rw [ruleFault?, Rule.decode_trigger hitem, hconditions, hactions]
    rfl
  rw [fieldwiseFault?, hlayout, hobjects, hrules]
  rfl

/-- Against the check between the rules of a rule-set that loads stands only the first condition whose
type cannot be looked up. -/
theorem rulewiseFault?_of_load (h : load document = .ok g) :
    rulewiseFault? g = (allConditions g).findSome? (·.kind.typeFault?) := by
  have hdecode := decode_of_load h
  have hwiring : g.rules.findSome? wiringFault? = none := by
    rw [List.findSome?_eq_none_iff]
    intro r hr
    obtain ⟨item, hitem⟩ := Game.decode_rules hdecode r hr
    have hmovements : r.allActions.findSome? movementFault? = none := by
      rw [List.findSome?_eq_none_iff]
      intro a ha
      obtain ⟨own, hown, ha⟩ := List.mem_flatMap.mp ha
      obtain ⟨value, hvalue⟩ := Rule.decode_actions hitem own hown
      rcases List.mem_cons.mp ha with rfl | ha
      · exact (Action.decodeIn_records hvalue).movement
      · obtain ⟨pick, hpick⟩ := Action.decodeIn_picks hvalue a ha
        exact (Action.decodeIn_records hpick).movement
    rw [wiringFault?, Rule.decode_trigger hitem, hmovements]
    rfl
  have hregions : (allConditions g).findSome? regionFault? = none := by
    rw [List.findSome?_eq_none_iff]
    intro c hc
    obtain ⟨r, hr, hc⟩ := List.mem_flatMap.mp hc
    obtain ⟨item, hitem⟩ := Game.decode_rules hdecode r hr
    obtain ⟨value, hvalue⟩ := Rule.decode_conditions hitem c hc
    exact Condition.decode_region hvalue
  rw [rulewiseFault?_of_names (namesAreTexts_of_load h), lookupFault?, hwiring, hregions,
    Option.none_or, Option.or_none]

/-! ## The check of a document -/

theorem typeFault?_isSome_iff {type : Json} :
    (∃ fault, type.typeFault? = some fault) ↔ type.isContainer = true := by
  cases type <;> simp [Json.typeFault?, Json.isContainer]

theorem typeFault?_cases {type : Json} {fault : Fault} (h : type.typeFault? = some fault) :
    fault = .listAsType ∨ fault = .objectAsType := by
  cases type <;> simp_all [Json.typeFault?]

theorem typeFault?_found_iff :
    (∃ fault, (allConditions g).findSome? (·.kind.typeFault?) = some fault) ↔
      ∃ r ∈ g.rules, ∃ c ∈ r.conditions, c.kind.isContainer = true := by
  rw [← Option.isSome_iff_exists, List.findSome?_isSome_iff]
  simp only [Option.isSome_iff_exists, typeFault?_isSome_iff, allConditions, List.mem_flatMap]
  constructor
  · rintro ⟨c, ⟨r, hr, hc⟩, hkind⟩
    exact ⟨r, hr, c, hc, hkind⟩
  · rintro ⟨r, hr, c, hc, hkind⟩
    exact ⟨c, ⟨r, hr, hc⟩, hkind⟩

theorem validate_error_iff (v : Vocabulary) (h : load document = .ok g) {fault : Fault} :
    validate v g = .error fault ↔ (allConditions g).findSome? (·.kind.typeFault?) = some fault := by
  rw [validate_eq, fieldwiseFault?_of_load v h, rulewiseFault?_of_load h, Option.none_or]
  cases (allConditions g).findSome? (·.kind.typeFault?) <;> simp [checked]

theorem validateDocument_error_iff (v : Vocabulary) {fault : Fault} :
    validateDocument v document = .error fault ↔
      ∃ g, load document = .ok g ∧
        (allConditions g).findSome? (·.kind.typeFault?) = some fault := by
  unfold validateDocument
  cases hload : load document with
  | ok g => simp [validate_error_iff v hload]
  | error findings => simp

theorem validateDocument_error_cases {v : Vocabulary} {fault : Fault}
    (h : validateDocument v document = .error fault) : fault = .listAsType ∨ fault = .objectAsType := by
  obtain ⟨g, -, hfound⟩ := (validateDocument_error_iff v).mp h
  obtain ⟨c, -, hfault⟩ := List.exists_of_findSome?_eq_some hfound
  exact typeFault?_cases hfault

/-- **When the check of a document fails.** Under every vocabulary, the check of a document fails, with
the fault that says so, exactly if the document loads and some rule has a condition whose type is a list or
an object. Every other document is answered by findings. -/
theorem validateDocument_fails_iff (v : Vocabulary) (document : Json) :
    ((∃ fault, (fault = .listAsType ∨ fault = .objectAsType) ∧
        validateDocument v document = .error fault) ↔
      ∃ g, load document = .ok g ∧ ∃ r ∈ g.rules, ∃ c ∈ r.conditions, c.kind.isContainer = true) ∧
    ((∃ findings, validateDocument v document = .ok findings) ↔
      ¬ ∃ g, load document = .ok g ∧ ∃ r ∈ g.rules, ∃ c ∈ r.conditions, c.kind.isContainer = true) := by
  have hfails : (∃ fault, validateDocument v document = .error fault) ↔
      ∃ g, load document = .ok g ∧ ∃ r ∈ g.rules, ∃ c ∈ r.conditions, c.kind.isContainer = true := by
    simp only [validateDocument_error_iff, ← typeFault?_found_iff]
    constructor
    · rintro ⟨fault, g, hload, hfound⟩
      exact ⟨g, hload, fault, hfound⟩
    · rintro ⟨g, hload, fault, hfound⟩
      exact ⟨fault, g, hload, hfound⟩
  rw [← hfails]
  constructor
  · exact exists_congr fun fault => and_iff_right_of_imp validateDocument_error_cases
  · cases validateDocument v document with
    | ok findings => simp
    | error fault => simp

end Check

end TouchGame
