import TouchGame.Proofs.Check.Loading
import TouchGame.Proofs.Check.Pointing
import TouchGame.Proofs.Repair.Fixes

/-!
# Where findings are

Every finding of a rule-set either has no path, or its path leads to a field of the rule-set; and where
the path leads into a rule, it is the rule that the finding names. The fieldwise check turns the keys of
a document into names of fields. That is right for the known types of conditions, so a vocabulary has to
support no others, and no condition may have the type of a known one without being it.

* `Game.Locates` : a location leads into a rule-set, and to its own rule.
* `conditionsAreTyped_of_load` : the types of conditions in a rule-set that loads.
* `rule_points`, `ruleReferences_points` : the findings about a rule.
* `findings_located` : every finding of a rule-set.
-/

namespace TouchGame

open Check Mending TouchGame.Part

/-! ## Types of conditions -/

namespace Condition

/-- The types that conditions are known for. -/
def words : List String :=
  ["touch", "time", "counter", "collision", "flag", "gameState", "position", "animation", "random",
    "objectState"]

theorem decodeKnown?_isSome {fields : Json.Fields} {word : String} (h : word ∈ words) :
    (decodeKnown? fields word).isSome := by
  simp only [words, List.mem_cons, List.not_mem_nil, or_false] at h
  rcases h with rfl | rfl | rfl | rfl | rfl | rfl | rfl | rfl | rfl | rfl <;> rfl

def IsTyped : Condition → Prop
  | .unknown type _ => ∀ word ∈ words, type ≠ .str word
  | _ => True

theorem decode_isTyped {value : Json} {c : Condition} (h : decode value = .ok c) : c.IsTyped := by
  obtain ⟨fields, -, ⟨word, -, hread⟩ | ⟨extras, rfl, -, hnone⟩⟩ := decode_cases h
  · have hword := decodeKnown?_word hread rfl
    cases c with
    | unknown => cases hword
    | _ => trivial
  · intro word hword htype
    have hsome : (decodeKnown? fields word).isSome := decodeKnown?_isSome hword
    rw [hnone word htype] at hsome
    cases hsome

end Condition

/-- No condition of a rule-set has the type of a known one without being it. -/
def Game.ConditionsAreTyped (g : Game) : Prop :=
  ∀ r ∈ g.rules, ∀ c ∈ r.conditions, c.IsTyped

theorem conditionsAreTyped_of_load {document : Json} {g : Game} (h : load document = .ok g) :
    g.ConditionsAreTyped := by
  intro r hr c hc
  obtain ⟨rule, hrule⟩ := Game.decode_rules (decode_of_load h) r hr
  obtain ⟨item, hitem⟩ := Rule.decode_conditions hrule c hc
  exact Condition.decode_isTyped hitem

theorem Condition.IsTyped.word?_isSome {c : Condition} {v : Vocabulary} (h : c.IsTyped)
    (hv : ∀ word ∈ v.conditionTypes, word ∈ words) (hsupported : v.hasCondition c.kind = true) :
    c.word?.isSome := by
  cases c with
  | unknown type extras =>
    cases type with
    | str word =>
      have hword : word ∈ v.conditionTypes := List.contains_iff_mem.mp hsupported
      exact absurd rfl (h word (hv word hword))
    | _ => cases hsupported
  | _ => rfl

/-! ## Parts of a rule -/

namespace Rule

variable {r : Rule} {i : Nat} {rel : Path}

theorem reaches_condition {c : Condition} (hc : r.conditions[i]? = some c) (h : c.part.Reaches rel) :
    r.part.Reaches (.name "triggers" :: .name "conditions" :: .index i :: rel) := by
  obtain ⟨id, name, target, trigger, actions⟩ := r
  cases trigger with
  | value t => exact .past (.field rfl (.inner _ (.field rfl (.item _ hc h))))
  | _ => cases hc

theorem reaches_action {a : Action} (ha : r.actions[i]? = some a) (h : a.part.Reaches rel) :
    r.part.Reaches (.name "actions" :: .index i :: rel) :=
  .past (.field rfl (.item _ ha h))

end Rule

theorem Condition.reaches_part (c : Condition) : c.part.Reaches [] := by
  cases c <;> rfl

theorem Trigger.reaches_part (t : Trigger) : t.part.Reaches [] := rfl

theorem Goal.reaches_part (goal : Goal) : goal.part.Reaches [] := by
  cases goal <;> rfl

theorem find?_extras {ρ : Type} {name : String} {e : Extra} {extras : List Extra}
    (hfind : extras.find? (·.name == name) = some e) (build : Nat → Extra → Part ρ) :
    ∃ i, (extras.mapIdx fun i e => (Key.word e.name, build i e)).find? (·.1.name == name) =
      some (Key.word e.name, build i e) := by
  induction extras generalizing build with
  | nil => cases hfind
  | cons first rest ih =>
    rw [List.mapIdx_cons, List.find?_cons]
    rw [List.find?_cons] at hfind
    dsimp only [Key.word] at ih ⊢
    split at hfind
    · cases hfind
      exact ⟨0, rfl⟩
    · obtain ⟨i, hi⟩ := ih hfind fun i => build (i + 1)
      exact ⟨i + 1, hi⟩

theorem reaches_extra {ρ : Type} {type : Json} {extras : List Extra} {put : Json → List Extra → ρ}
    {name : String} {e : Extra} {rel : Path} (hfind : extras.find? (·.name == name) = some e)
    (hname : (Field.type.name == name) = false) (h : e.part.Reaches rel) :
    (ofExtras type extras put).Reaches (.name name :: rel) := by
  obtain ⟨i, hi⟩ := find?_extras hfind fun i e => e.part.map fun changed => put type (extras.set i changed)
  obtain ⟨p, hp⟩ := Option.isSome_iff_exists.mp (h.map fun changed => put type (extras.set i changed))
  have hfound : ((Field.type, free type (put · extras)) :: extras.mapIdx fun i e =>
      (Key.word e.name, e.part.map fun changed => put type (extras.set i changed))).find?
        (·.1.name == name) =
      some (Key.word e.name, e.part.map fun changed => put type (extras.set i changed)) := by
    rw [List.find?_cons, hname]
    exact hi
  exact .of_place? (fields_place? hfound hp)

namespace Check

/-! ## References -/

section References

variable (g : Game) (r : Rule) (path : Path)

theorem objectField_points {ρ : Type} {part : Part ρ} (rel : Path) (h : part.Reaches rel)
    (field : Slot String) (message : String → String) :
    Points (some r.id) path part
      (objectField g field message fun id => ⟨path ++ rel, some r.id, some id⟩) := by
  unfold objectField
  split
  · split
    · exact points_nil
    · exact points_one rel rfl rfl h
  · exact points_nil

theorem counterField_points {ρ : Type} {part : Part ρ} (h : part.Reaches [.name "counter_name"])
    (field : Slot String) : Points (some r.id) path part (counterField g r field path) := by
  unfold counterField
  split
  · split
    · exact points_nil
    · exact points_one [.name "counter_name"] rfl rfl h
  · exact points_nil

theorem soundField_points {ρ : Type} {part : Part ρ} (h : part.Reaches [.name "sound_id"])
    (field : Slot String) : Points (some r.id) path part (soundField g r field path) := by
  unfold soundField
  split
  · split
    · exact points_nil
    · exact points_one [.name "sound_id"] rfl rfl h
  · exact points_nil

theorem conditionReferences_points (c : Condition) :
    Points (some r.id) path c.part (conditionReferences g r path c) := by
  cases c with
  | counter => exact counterField_points g r path (.field rfl (reaches_text? _ _)) _
  | touch | collision | position | animation | objectState =>
    exact objectField_points g r path [.name "target"] (.field rfl (reaches_text? _ _)) _ _
  | _ => exact points_nil

theorem reaches_target? {a : Action} {target : Slot String} (h : a.target? = some target) :
    a.part.Reaches [.name "target_id"] := by
  cases a with
  | unknown type extras =>
    rw [Action.target?] at h
    split at h
    · rename_i id hheld
      obtain ⟨e, hfind, hvalue⟩ := Option.map_eq_some_iff.mp hheld
      have hname : e.name = Field.targetId.name := by simpa using List.find?_some hfind
      have hown : e.name ∉ Extra.ownNames := by
        rw [hname]
        decide
      have hprivate : e.isPrivate = false := by
        rw [Extra.isPrivate, hname]
        decide +kernel
      refine reaches_extra hfind (by decide) ?_
      simp [Reaches, Extra.part, Extra.place?, hown, hprivate, hvalue, Json.place?]
    · cases h
  | hide | reveal | move | followDrag | applyForce | applyImpulse | setGravity | setPhysics | effect
  | switchAnimation | playAnimation | setAnimationSpeed | setAnimationFrame =>
    exact .field rfl (reaches_text? _ _)
  | _ => cases h

theorem actionReferences_points (a : Action) :
    Points (some r.id) path a.part (actionReferences g r path a) := by
  unfold actionReferences
  refine points_append ?_ ?_
  · split
    · rename_i target htarget
      exact objectField_points g r path [.name "target_id"] (reaches_target? htarget) _ _
    · exact points_nil
  · split
    · split
      · exact objectField_points g r path [.name "movement", .name "target"]
          (.field rfl (.inner _ (.field rfl (reaches_inner Goal.reaches_part _ _)))) _ _
      · exact points_nil
    · exact counterField_points g r path (.field rfl (reaches_text? _ _)) _
    · exact soundField_points g r path (.field rfl (reaches_text? _ _)) _
    · exact soundField_points g r path (.field rfl (reaches_text? _ _)) _
    · exact points_nil

theorem pickedReferences_points (a : Action) :
    Points (some r.id) path a.part (pickedReferences g r path a) := by
  refine points_append (actionReferences_points g r path a) ?_
  cases a with
  | choice options mode weights =>
    refine points_indexed fun i picked hpicked => ?_
    rw [Action.picks, List.getElem?_map, Option.map_eq_some_iff] at hpicked
    obtain ⟨o, ho, rfl⟩ := hpicked
    exact (actionReferences_points g r _ o.action).lift fun rel hrel =>
      reaches_choice ho (.field rfl (.map _ hrel))
  | _ => exact points_nil

theorem ruleReferences_points (index : Nat) :
    Points (some r.id) [.name "script", .name "rules", .index index] r.part
      (ruleReferences g index r) := by
  refine points_append (points_append ?_ (points_indexed fun i c hc => ?_))
    (points_indexed fun i a ha => ?_)
  · exact objectField_points g r _ [.name "target_object_id"] (.past (.field rfl (reaches_text? _ _))) _ _
  · exact (conditionReferences_points g r _ c).lift fun rel hrel => Rule.reaches_condition hc hrel
  · exact (pickedReferences_points g r _ a).lift fun rel hrel => Rule.reaches_action ha hrel

end References

/-! ## The other checks of a rule -/

section Rules

variable (g : Game) (r : Rule) (index : Nat)

theorem rule_points (v : Vocabulary) (hr : ∀ c ∈ r.conditions, c.IsTyped)
    (hv : ∀ word ∈ v.conditionTypes, word ∈ Condition.words) :
    Points (some r.id) [.name "script", .name "rules", .index index] r.part (rule v index r) := by
  refine points_append (points_append ?_ (points_indexed fun i c hc => ?_))
    (points_indexed fun i a ha => ?_)
  · obtain ⟨id, name, target, trigger, actions⟩ := r
    cases trigger with
    | value t =>
      rw [Slot.get?, triggerOperator]
      exact enumerated_points ⟨v, _⟩ _ [.name "triggers", .name "operator"]
        (.past (.field rfl (.inner _ (.field rfl (reaches_text _))))) _ _ _
    | _ => exact points_nil
  · have hknown := (hr c (List.mem_of_getElem? hc)).word?_isSome hv
    exact (condition_points ⟨v, r⟩ _ hknown).lift fun rel hrel => Rule.reaches_condition hc hrel
  · exact (action_points ⟨v, r⟩ a _).lift fun rel hrel => Rule.reaches_action ha hrel

theorem firstTrue?_getElem? {covers : Comparison → Bool} {start position : Nat} {conditions : List Condition}
    {hit : String × Number × String × Number}
    (h : firstTrue? g covers start conditions = some (position, hit)) :
    ∃ i c, position = start + i ∧ conditions[i]? = some c := by
  induction conditions generalizing start with
  | nil => cases h
  | cons c rest ih =>
    rw [firstTrue?] at h
    split at h
    · cases h
      exact ⟨0, c, rfl, rfl⟩
    · obtain ⟨i, b, hposition, hb⟩ := ih h
      exact ⟨i + 1, b, by omega, hb⟩

theorem instantOutcome_points (outcome : InstantOutcome) :
    Points (some r.id) [.name "script", .name "rules", .index index] r.part
      (instantOutcome g index r outcome) := by
  have htrigger : r.part.Reaches [.name "triggers"] :=
    .past (.field rfl (reaches_inner Trigger.reaches_part _ _))
  unfold instantOutcome
  dsimp only
  split
  · exact points_nil
  · split
    · exact points_one [.name "triggers"] rfl rfl htrigger
    · split
      · rename_i position id initial word value hfirst
        obtain ⟨i, c, rfl, hc⟩ := firstTrue?_getElem? g hfirst
        rw [Nat.zero_add]
        exact points_one [.name "triggers", .name "conditions", .index i] rfl rfl
          (Rule.reaches_condition hc c.reaches_part)
      · exact points_nil

theorem successNeeds_points (path : Path) (c : Condition) :
    Points (some r.id) path c.part (successNeeds g r path c) := by
  unfold successNeeds
  split
  all_goals
    first
      | exact points_nil
      | split
        · exact points_if (points_one [] rfl (List.append_nil _).symm (Condition.reaches_part _))
        · exact points_nil

theorem successRule_points :
    Points (some r.id) [.name "script", .name "rules", .index index] r.part
      (if r.mayFire "success" then
        indexed (fun i c => successNeeds g r [.name "script", .name "rules", .index index,
          .name "triggers", .name "conditions", .index i] c) 0 r.conditions
      else []) :=
  points_if (points_indexed fun _ c hc =>
    (successNeeds_points g r _ c).lift fun _ hrel => Rule.reaches_condition hc hrel)

end Rules

end Check

/-! ## Rule-sets -/

/-- A location that leads to a field of a rule-set and, below the rules, to the rule that it names. -/
structure Game.Locates (g : Game) (l : Location) : Prop where
  field : l.path ≠ [] → (g.place? l.path).isSome
  rule : ∀ index rest id, l.path = .name "script" :: .name "rules" :: .index index :: rest →
    l.rule = some id → ∃ (i : Nat) (r : Rule), index = i ∧ g.rules[i]? = some r ∧ r.id = id

namespace Check

section Game

variable {g : Game} {findings : List Finding} {rule : Option String} {i : Nat} {base : Path}

theorem locates_nowhere {l : Location} (h : l.path = []) : g.Locates l where
  field hpath := absurd h hpath
  rule _ _ _ hpath := by
    rw [h] at hpath
    cases hpath

theorem locates_rule {r : Rule} (hr : g.rules[i]? = some r)
    (h : Points (some r.id) [.name "script", .name "rules", .index i] r.part findings) :
    ∀ f ∈ findings, g.Locates f.location := by
  intro f hf
  obtain ⟨hrule, rel, hpath, hrel⟩ := h f hf
  have hreach : g.part.Reaches (.name "script" :: .name "rules" :: .index i :: rel) :=
    .past (.field rfl (.field rfl (.item _ hr hrel)))
  refine ⟨fun _ => ?_, fun index rest id hinto hid => ?_⟩
  · rw [hpath]
    exact hreach
  · rw [hpath] at hinto
    rw [hrule] at hid
    cases hinto
    cases hid
    exact ⟨i, r, rfl, hr, rfl⟩

theorem locates_part {ρ : Type} {part : Part ρ} (h : Points rule base part findings)
    (hreach : ∀ rel, part.Reaches rel → g.part.Reaches (base ++ rel))
    (hother : ∀ (index : Int) (rest : Path) rel,
      base ++ rel ≠ .name "script" :: .name "rules" :: .index index :: rest) :
    ∀ f ∈ findings, g.Locates f.location := by
  intro f hf
  obtain ⟨_, rel, hpath, hrel⟩ := h f hf
  refine ⟨fun _ => ?_, fun index rest id hinto _ => ?_⟩
  · rw [hpath]
    exact hreach rel hrel
  · exact absurd (hpath ▸ hinto) (hother index rest rel)

theorem placement_points (i : Nat) (p : Placement) :
    Points none (placementPath i) p.part (placement i p) := by
  have hposition := speaks_placedCoordinate (placementPath i) p.object
  have hscale := speaks_placedScale (placementPath i) p.object
  obtain ⟨object, position, scale⟩ := p
  refine points_append ?_ ?_
  · exact points_axes position [.name "position"] hposition (.field rfl (.map _ (.field rfl rfl)))
      (.field rfl (.map _ (.field rfl rfl)))
  · cases scale with
    | value s =>
      change Points _ _ _ ((axes s).flatMap _)
      exact points_axes s [.name "scale"] hscale (.field rfl (.inner _ (.field rfl rfl)))
        (.field rfl (.inner _ (.field rfl rfl)))
    | _ => exact points_nil

theorem object_points (i : Nat) (o : ObjectPlan) : Points none (objectPath i) o.part
    (pointFindings (initialCoordinate i o.id) o.initialPosition.get?) := by
  have hposition := speaks_initialCoordinate i o.id
  obtain ⟨id, name, purpose, description, position, size⟩ := o
  cases position with
  | value p =>
    change Points _ _ _ ((axes p).flatMap _)
    exact points_axes p [.name "initial_position"] hposition (.field rfl (.inner _ (.field rfl rfl)))
      (.field rfl (.inner _ (.field rfl rfl)))
  | _ => exact points_nil

theorem placementReference_points (g : Game) (i : Nat) (p : Placement) :
    Points none (placementPath i) p.part (placementReference g i p) := by
  unfold placementReference
  split
  · exact points_nil
  · exact points_one [.name "object_id"] rfl rfl (.field rfl (reaches_text _))

theorem counterUsage_points (g : Game) (i : Nat) (c : Counter) :
    ∃ rule, Points rule [.name "script", .name "counters", .index i] c.part (counterUsage g i c) := by
  unfold counterUsage counterUse
  split
  · exact ⟨none, points_one [] rfl rfl rfl⟩
  · exact ⟨_, points_one [] rfl rfl rfl⟩
  · exact ⟨_, points_one [] rfl rfl rfl⟩
  · exact ⟨none, points_nil⟩

theorem locates_placement {p : Placement} (hp : g.layout[i]? = some p)
    (h : Points none (placementPath i) p.part findings) : ∀ f ∈ findings, g.Locates f.location :=
  locates_part h (fun _ hrel => .past (.field rfl (.field rfl (.field rfl (.item _ hp hrel)))))
    (by simp [placementPath])

theorem locates_object {o : ObjectPlan} (ho : g.objects[i]? = some o)
    (h : Points none (objectPath i) o.part findings) : ∀ f ∈ findings, g.Locates f.location :=
  locates_part h (fun _ hrel => .past (.field rfl (.field rfl (.item _ ho hrel))))
    (by simp [objectPath])

theorem locates_counter {c : Counter} (hc : g.counters[i]? = some c)
    (h : Points rule [.name "script", .name "counters", .index i] c.part findings) :
    ∀ f ∈ findings, g.Locates f.location :=
  locates_part h (fun _ hrel => .past (.field rfl (.field rfl (.item _ hc hrel))))
    (by simp)

theorem locates_vaguely {α : Type} {list : List α} {say : α → Finding}
    (h : ∀ a, (say a).location.path = []) : ∀ f ∈ list.map say, g.Locates f.location := by
  intro f hf
  obtain ⟨a, _, rfl⟩ := List.mem_map.mp hf
  exact locates_nowhere (h a)

theorem fieldwise_located {v : Vocabulary} (hg : g.ConditionsAreTyped)
    (hv : ∀ word ∈ v.conditionTypes, word ∈ Condition.words) :
    ∀ f ∈ fieldwise v g, g.Locates f.location := by
  simp only [fieldwise, ruleIds, layout, initialPositions, List.forall_mem_append]
  refine ⟨⟨⟨?_, ?_, ?_⟩, ?_⟩, ?_⟩
  · exact locates_vaguely fun _ => rfl
  · exact forall_mem_indexed fun i p hp => locates_placement hp (placement_points i p)
  · exact locates_vaguely fun _ => rfl
  · exact forall_mem_indexed fun i o ho => locates_object ho (object_points i o)
  · exact forall_mem_indexed fun i r hr =>
      locates_rule hr (rule_points r i v (hg r (List.mem_of_getElem? hr)) hv)

theorem outcomesExist_pathless : ∀ f ∈ outcomesExist g, f.location.path = [] := by
  simp only [outcomesExist, List.forall_mem_append]
  constructor <;> split <;> simp [Finding.critical, Finding.warning, Location.none]

theorem automaticSuccess_pathless (r : Rule) : ∀ f ∈ automaticSuccess g r, f.location.path = [] := by
  unfold automaticSuccess
  repeat' split
  all_goals simp [autoSuccess, Finding.critical, Location.ofRule]

theorem automaticFailure_pathless (r : Rule) : ∀ f ∈ automaticFailure r, f.location.path = [] := by
  unfold automaticFailure
  split <;> simp [Finding.critical, Location.ofRule]

theorem automaticOutcomes_pathless : ∀ f ∈ automaticOutcomes g, f.location.path = [] := by
  simp only [automaticOutcomes, automaticFailures, List.forall_mem_append]
  constructor
  · split
    · simp
    · intro f hf
      obtain ⟨r, _, hf⟩ := List.mem_flatMap.mp hf
      exact automaticSuccess_pathless r f hf
  · split
    · simp
    · intro f hf
      obtain ⟨r, _, hf⟩ := List.mem_flatMap.mp hf
      exact automaticFailure_pathless r f hf

theorem playerAction_pathless : ∀ f ∈ playerAction g, f.location.path = [] := by
  unfold playerAction checkPlayerAction
  dsimp only
  repeat' split
  all_goals simp [Finding.warning, Location.ofRule]

theorem ownConflicts_pathless (r : Rule) : ∀ f ∈ ownConflicts r, f.location.path = [] := by
  simp only [ownConflicts, ownOutcomes, ownVisibility, List.forall_mem_append, List.forall_mem_map]
  refine ⟨?_, fun _ _ => rfl⟩
  split <;> simp [Finding.critical, Location.ofRule]

theorem oppositions_pathless (signature : String) (first second : Rule) :
    ∀ f ∈ oppositions signature first second, f.location.path = [] := by
  simp only [oppositions, opposition, List.forall_mem_append, List.forall_mem_map]
  refine ⟨⟨?_, fun _ _ => rfl⟩, fun _ _ => rfl⟩
  split <;> simp [Finding.critical]

theorem everyPair_pathless {check : Rule → Rule → List Finding}
    (h : ∀ r s, ∀ f ∈ check r s, f.location.path = []) (rules : List Rule) :
    ∀ f ∈ everyPair check rules, f.location.path = [] := by
  induction rules with
  | nil => simp [everyPair]
  | cons r rest ih =>
    rw [everyPair, List.forall_mem_append]
    refine ⟨fun f hf => ?_, ih⟩
    obtain ⟨s, _, hf⟩ := List.mem_flatMap.mp hf
    exact h r s f hf

theorem conflicts_pathless : ∀ f ∈ conflicts g, f.location.path = [] := by
  simp only [conflicts, List.forall_mem_append]
  constructor
  · intro f hf
    obtain ⟨r, _, hf⟩ := List.mem_flatMap.mp hf
    exact ownConflicts_pathless r f hf
  · intro f hf
    obtain ⟨⟨signature, group⟩, _, hf⟩ := List.mem_flatMap.mp hf
    exact everyPair_pathless (oppositions_pathless signature) group f hf

theorem rulewise_located : ∀ f ∈ rulewiseFindings g, g.Locates f.location := by
  simp only [rulewiseFindings, references, counterUses, instantOutcomes, successReachability,
    List.forall_mem_append]
  refine ⟨⟨⟨⟨⟨⟨⟨⟨?_, ?_⟩, ?_⟩, ?_⟩, ?_⟩, ?_⟩, ?_⟩, ?_⟩, ?_⟩
  · exact forall_mem_indexed fun i p hp => locates_placement hp (placementReference_points g i p)
  · exact forall_mem_indexed fun i r hr => locates_rule hr (ruleReferences_points g r i)
  · exact fun f hf => locates_nowhere (outcomesExist_pathless f hf)
  · exact forall_mem_indexed fun i r hr => locates_rule hr
      (points_append (instantOutcome_points g r i _) (instantOutcome_points g r i _))
  · exact fun f hf => locates_nowhere (automaticOutcomes_pathless f hf)
  · exact fun f hf => locates_nowhere (playerAction_pathless f hf)
  · exact fun f hf => locates_nowhere (conflicts_pathless f hf)
  · refine forall_mem_indexed fun i c hc => ?_
    obtain ⟨rule, hpoints⟩ := counterUsage_points g i c
    exact locates_counter hc hpoints
  · exact forall_mem_indexed fun i r hr => locates_rule hr (successRule_points g r i)

/-- **Where findings are.** Every finding of a validation leads to a field that is there and to the rule
that it names, or it has no path. -/
theorem findings_located {v : Vocabulary} (hg : g.ConditionsAreTyped)
    (hv : ∀ word ∈ v.conditionTypes, word ∈ Condition.words) (h : validate v g = .ok findings) :
    ∀ f ∈ findings, g.Locates f.location := by
  obtain ⟨_, _, rfl⟩ := validate_ok_iff.mp h
  exact List.forall_mem_append.mpr ⟨fieldwise_located hg hv, rulewise_located⟩

end Game

/-- A game with an unsupported touch, an improbable choice, and inside it one that hides for no time. -/
def nestedSlips : Game where
  layout := [⟨"star", ⟨.thousandths 500, .thousandths 1500⟩, .empty⟩]
  counters := [⟨"lives", .empty, 3⟩]
  rules := [⟨"tap", .empty, .value "star", .value ⟨"AND", [.touch .empty (.value "poke")]⟩,
    [.choice [⟨.choice [⟨.hide .empty .empty (some 0), none, none⟩] .empty .empty, none, some 2⟩]
      .empty .empty]⟩]
  objects := [⟨"star", .empty, .empty, .empty, .empty, .empty⟩]
  sounds := []
  music := .empty

theorem findings_located_nestedSlips :
    ∃ findings, validate .editor nestedSlips = .ok findings ∧
      findings.map (·.location.path.text) = [
        "script.layout.objects[0].position.y",
        "script.rules[0].triggers.conditions[0].touch_type",
        "script.rules[0].actions[0].actions[0].probability",
        "script.rules[0].actions[0].actions[0].action.actions[0].action.duration",
        "", "", "script.counters[0]"] ∧
      ∀ f ∈ findings, nestedSlips.Locates f.location := by
  have hvalid : validate .editor nestedSlips =
      .ok (fieldwise .editor nestedSlips ++ rulewiseFindings nestedSlips) :=
    validate_ok_iff.mpr ⟨by decide +kernel, by decide +kernel, rfl⟩
  have htyped : nestedSlips.ConditionsAreTyped := by
    simp [Game.ConditionsAreTyped, nestedSlips, Rule.conditions, Slot.get?, Condition.IsTyped]
  exact ⟨_, hvalid, by decide +kernel, findings_located htyped (by decide) hvalid⟩

end Check

end TouchGame
