import TouchGame.Proofs.Check.Codes
import TouchGame.Proofs.Check.Names

/-!
# References and what is defined

What a rule-set refers to is a matter of its layout and its rules alone. Whether something is found
about a reference depends on what is defined, so the findings are those of the rule-set with nothing
defined, without the ones about what is there.

* `references_eq_filter` : the findings about references.
* `Game.uses`, `uses_of_reference` : a counter that is referred to is read or written.
* `references_mendGame` : mending keeps references.
-/

namespace TouchGame

def Game.uses (g : Game) (counter : Name) : Bool :=
  !(g.counterReaders counter).isEmpty || !(g.counterWriters counter).isEmpty

/-- A rule-set with nothing defined that rules or layout could refer to. -/
def Game.bare (g : Game) : Game :=
  { g with objects := [], counters := [], sounds := [] }

namespace Check

/-- Whether a finding is not about an object, counter or sound that is defined. -/
def isDangling (g : Game) (f : Finding) : Bool :=
  match f.label, f.location.subject with
  | .listed .invalidObjectId, some id => !g.objectIds.contains id
  | .listed .invalidCounterName, some id => !g.counterIds.contains id
  | .listed .undefinedSoundId, some id => !g.soundIds.contains id
  | _, _ => true

section Dangling

variable (g : Game)

theorem finding_eq_filter {p : Finding → Bool} {isKnown : Bool} {f : Finding} (h : p f = !isKnown) :
    (if isKnown then [] else [f]) = [f].filter p := by
  cases isKnown <;> simp [h]

theorem objectField_eq_filter (field : Slot String) (message : String → String)
    (location : String → Location) (h : ∀ id, (location id).subject = some id) :
    objectField g field message location =
      (objectField g.bare field message location).filter (isDangling g) := by
  unfold objectField
  split
  · rename_i id _
    have hdangling : isDangling g (danglingObject (message id) (location id)) =
        !g.objectIds.contains id := by
      simp only [isDangling, danglingObject, Finding.critical, h]
    exact finding_eq_filter hdangling
  · rfl

theorem counterField_eq_filter (r : Rule) (field : Slot String) (path : Path)
    (h : ∀ name, field.name? = some name → name.text?.isSome) :
    counterField g r field path = (counterField g.bare r field path).filter (isDangling g) := by
  unfold counterField
  split
  · rename_i name hname
    obtain ⟨id, rfl⟩ := Name.text_of_isSome (h name hname)
    exact finding_eq_filter rfl
  · rfl

theorem soundField_eq_filter (r : Rule) (field : Slot String) (path : Path)
    (h : ∀ name, field.name? = some name → name.text?.isSome) :
    soundField g r field path = (soundField g.bare r field path).filter (isDangling g) := by
  unfold soundField
  split
  · rename_i name hname
    obtain ⟨id, rfl⟩ := Name.text_of_isSome (h name hname)
    exact finding_eq_filter rfl
  · rfl

theorem conditionReferences_eq_filter (r : Rule) (path : Path) (c : Condition)
    (h : ∀ name, c.counterName? = some name → name.text?.isSome) :
    conditionReferences g r path c =
      (conditionReferences g.bare r path c).filter (isDangling g) := by
  unfold conditionReferences
  split
  · exact counterField_eq_filter g r _ path h
  · unfold targetReference
    split
    · exact objectField_eq_filter g _ _ _ fun _ => rfl
    · rfl

theorem actionReferences_eq_filter (r : Rule) (path : Path) (a : Action)
    (h : ∀ name, a.counterName? = some name ∨ a.soundName? = some name → name.text?.isSome) :
    actionReferences g r path a = (actionReferences g.bare r path a).filter (isDangling g) := by
  unfold actionReferences
  rw [List.filter_append]
  congr 1
  · split
    · exact objectField_eq_filter g _ _ _ fun _ => rfl
    · rfl
  · split
    · split
      · exact objectField_eq_filter g _ _ _ fun _ => rfl
      · rfl
    · exact counterField_eq_filter g r _ path fun name hn => h name (.inl hn)
    · exact soundField_eq_filter g r _ path fun name hn => h name (.inr hn)
    · exact soundField_eq_filter g r _ path fun name hn => h name (.inr hn)
    · rfl

theorem indexed_filter {α : Type} {check check' : Nat → α → List Finding} {p : Finding → Bool}
    {start : Nat} {list : List α} (h : ∀ i, ∀ a ∈ list, check i a = (check' i a).filter p) :
    indexed check start list = (indexed check' start list).filter p := by
  induction list generalizing start with
  | nil => rfl
  | cons a rest ih =>
    rw [indexed, indexed, List.filter_append, h start a List.mem_cons_self,
      ih fun i b hb => h i b (List.mem_cons_of_mem a hb)]

theorem ruleReferences_eq_filter (index : Nat) (r : Rule) (h : r.NamesAreTexts) :
    ruleReferences g index r = (ruleReferences g.bare index r).filter (isDangling g) := by
  unfold ruleReferences
  simp only [List.filter_append]
  congr 1
  · congr 1
    · exact objectField_eq_filter g _ _ _ fun _ => rfl
    · exact indexed_filter fun i c hc => conditionReferences_eq_filter g r _ c (h.conditions c hc)
  · refine indexed_filter fun i a ha => ?_
    have hmember (b : Action) (hb : b ∈ Rule.withPicks a) : b ∈ r.allActions :=
      List.mem_flatMap.mpr ⟨a, ha, hb⟩
    unfold pickedReferences
    rw [List.filter_append]
    congr 1
    · exact actionReferences_eq_filter g r _ a (h.actions a (hmember a List.mem_cons_self))
    · refine indexed_filter fun j b hb => actionReferences_eq_filter g r _ b ?_
      exact h.actions b (hmember b (List.mem_cons_of_mem a hb))

/-- The findings about references are those of the rule-set with nothing defined, apart from the ones
about what is defined. -/
theorem references_eq_filter (h : g.NamesAreTexts) :
    references g = (references g.bare).filter (isDangling g) := by
  unfold references
  rw [List.filter_append]
  congr 1
  · refine indexed_filter fun index p _ => ?_
    unfold placementReference
    exact finding_eq_filter rfl
  · exact indexed_filter fun index r hr => ruleReferences_eq_filter g index r (h r hr)

end Dangling

/-! ## What findings about references say -/

/-- What a finding about a reference of a rule says: an object is missing, or a counter that a
condition or an action of the rule names, or a sound that an action names. -/
inductive Refers (r : Rule) (f : Finding) : Prop
  | object (label : f.label = .listed .invalidObjectId)
  | counter {name : Name} (label : f.label = .listed .invalidCounterName)
      (subject : f.location.subject = some name.shown)
      (named : (∃ c ∈ r.conditions, c.counterName? = some name) ∨
        ∃ a ∈ r.allActions, a.counterName? = some name)
  | sound {name : Name} (label : f.label = .listed .undefinedSoundId)
      (subject : f.location.subject = some name.shown)
      (named : ∃ a ∈ r.allActions, a.soundName? = some name)

section Refers

variable {g : Game} {r : Rule} {f : Finding}

theorem indexed_mem {α : Type} {list : List α} {a : α} (check : Nat → α → List Finding) (start : Nat)
    (ha : a ∈ list) : ∃ i, ∀ f ∈ check i a, f ∈ indexed check start list := by
  induction list generalizing start with
  | nil => cases ha
  | cons b rest ih =>
    simp only [indexed, List.mem_append]
    rcases List.mem_cons.mp ha with rfl | ha
    · exact ⟨start, fun f hf => .inl hf⟩
    · obtain ⟨i, hi⟩ := ih (start + 1) ha
      exact ⟨i, fun f hf => .inr (hi f hf)⟩

theorem forall_of_indexed {α : Type} {check : Nat → α → List Finding} {p : Finding → Prop}
    {start : Nat} {list : List α} {a : α} (h : ∀ f ∈ indexed check start list, p f) (ha : a ∈ list) :
    ∃ i, ∀ f ∈ check i a, p f := by
  obtain ⟨i, hi⟩ := indexed_mem check start ha
  exact ⟨i, fun f hf => h f (hi f hf)⟩

theorem label_objectField {field : Slot String} {message : String → String}
    {location : String → Location} (h : f ∈ objectField g field message location) :
    f.label = .listed .invalidObjectId := by
  unfold objectField at h
  split at h
  · split at h
    · simp at h
    · rw [List.mem_singleton] at h
      rw [h]
      rfl
  · simp at h

theorem name_counterField {field : Slot String} {path : Path} (h : f ∈ counterField g r field path) :
    ∃ name, field.name? = some name ∧ f.label = .listed .invalidCounterName ∧
      f.location.subject = some name.shown := by
  unfold counterField at h
  split at h
  · rename_i name hname
    split at h
    · simp at h
    · rw [List.mem_singleton] at h
      rw [h]
      exact ⟨name, hname, rfl, rfl⟩
  · simp at h

theorem name_soundField {field : Slot String} {path : Path} (h : f ∈ soundField g r field path) :
    ∃ name, field.name? = some name ∧ f.label = .listed .undefinedSoundId ∧
      f.location.subject = some name.shown := by
  unfold soundField at h
  split at h
  · rename_i name hname
    split at h
    · simp at h
    · rw [List.mem_singleton] at h
      rw [h]
      exact ⟨name, hname, rfl, rfl⟩
  · simp at h

theorem refers_condition {path : Path} {c : Condition} (hc : c ∈ r.conditions)
    (h : f ∈ conditionReferences g r path c) : Refers r f := by
  unfold conditionReferences at h
  split at h
  · obtain ⟨name, hname, hlabel, hsubject⟩ := name_counterField h
    exact .counter hlabel hsubject (.inl ⟨_, hc, hname⟩)
  · unfold targetReference at h
    split at h
    · exact .object (label_objectField h)
    · simp at h

theorem refers_action {path : Path} {a : Action} (ha : a ∈ r.allActions)
    (h : f ∈ actionReferences g r path a) : Refers r f := by
  unfold actionReferences at h
  rw [List.mem_append] at h
  rcases h with h | h
  · split at h
    · exact .object (label_objectField h)
    · simp at h
  · split at h
    · split at h
      · exact .object (label_objectField h)
      · simp at h
    · obtain ⟨name, hname, hlabel, hsubject⟩ := name_counterField h
      exact .counter hlabel hsubject (.inr ⟨_, ha, hname⟩)
    · obtain ⟨name, hname, hlabel, hsubject⟩ := name_soundField h
      exact .sound hlabel hsubject ⟨_, ha, hname⟩
    · obtain ⟨name, hname, hlabel, hsubject⟩ := name_soundField h
      exact .sound hlabel hsubject ⟨_, ha, hname⟩
    · simp at h

theorem refers_rule {index : Nat} (h : f ∈ ruleReferences g index r) : Refers r f := by
  unfold ruleReferences at h
  simp only [List.mem_append] at h
  rcases h with (h | h) | h
  · exact .object (label_objectField h)
  · obtain ⟨i, c, hc, hf⟩ := mem_indexed h
    exact refers_condition hc hf
  · obtain ⟨i, a, ha, hf⟩ := mem_indexed h
    unfold pickedReferences at hf
    rw [List.mem_append] at hf
    rcases hf with hf | hf
    · exact refers_action (List.mem_flatMap.mpr ⟨a, ha, List.mem_cons_self⟩) hf
    · obtain ⟨j, b, hb, hf⟩ := mem_indexed hf
      exact refers_action (List.mem_flatMap.mpr ⟨a, ha, List.mem_cons_of_mem a hb⟩) hf

theorem refers_of_mem (h : f ∈ references g) :
    f.label = .listed .invalidObjectId ∨ ∃ r ∈ g.rules, Refers r f := by
  unfold references at h
  rw [List.mem_append] at h
  rcases h with h | h
  · obtain ⟨i, p, _, hf⟩ := mem_indexed h
    unfold placementReference at hf
    split at hf
    · simp at hf
    · rw [List.mem_singleton] at hf
      rw [hf]
      exact .inl rfl
  · obtain ⟨i, r, hr, hf⟩ := mem_indexed h
    exact .inr ⟨r, hr, refers_rule hf⟩

theorem nonempty_of_name? {field : Slot String} {id : String} (h : field.name? = some (.text id)) :
    id.isEmpty = false := by
  cases field with
  | value s =>
    simp only [Slot.name?] at h
    split at h
    · cases h
    · rename_i hs
      cases h
      simpa using hs
  | empty => cases h
  | number n => cases h

theorem Condition.name_nonempty {c : Condition} {id : String} (h : c.counterName? = some (.text id)) :
    id.isEmpty = false := by
  cases c with
  | counter => exact nonempty_of_name? h
  | _ => cases h

theorem Action.name_nonempty {a : Action} {id : String}
    (h : a.counterName? = some (.text id) ∨ a.soundName? = some (.text id)) : id.isEmpty = false := by
  rcases h with h | h
  · cases a with
    | counter => exact nonempty_of_name? h
    | _ => cases h
  · cases a with
    | playSound => exact nonempty_of_name? h
    | stopSound => exact nonempty_of_name? h
    | _ => cases h

theorem uses_of_condition {c : Condition} {name : Name} (hr : r ∈ g.rules) (hc : c ∈ r.conditions)
    (h : c.counterName? = some name) : g.uses name = true := by
  have hreader : r ∈ g.counterReaders name :=
    List.mem_filter.mpr ⟨hr, List.any_eq_true.mpr ⟨c, hc, by simp [h]⟩⟩
  simp [Game.uses, List.ne_nil_of_mem hreader]

theorem uses_of_action {a : Action} {name : Name} (hr : r ∈ g.rules) (ha : a ∈ r.allActions)
    (h : a.counterName? = some name) : g.uses name = true := by
  have hwriter : r ∈ g.counterWriters name :=
    List.mem_filter.mpr ⟨hr, List.any_eq_true.mpr ⟨a, ha, by simp [h]⟩⟩
  simp [Game.uses, List.ne_nil_of_mem hwriter]

theorem uses_of_reference (hg : g.NamesAreTexts) (h : f ∈ references g)
    (hlabel : f.label = .listed .invalidCounterName) :
    ∃ id, f.location.subject = some id ∧ id.isEmpty = false ∧ g.uses id = true := by
  rcases refers_of_mem h with hobject | ⟨r, hr, hrefers⟩
  · rw [hobject] at hlabel
    cases hlabel
  · cases hrefers with
    | object hobject =>
      rw [hobject] at hlabel
      cases hlabel
    | sound hsound =>
      rw [hsound] at hlabel
      cases hlabel
    | counter _ hsubject hnamed =>
      rcases hnamed with ⟨c, hc, hname⟩ | ⟨a, ha, hname⟩
      · obtain ⟨id, rfl⟩ := Name.text_of_isSome ((hg r hr).conditions c hc _ hname)
        exact ⟨id, hsubject, Condition.name_nonempty hname, uses_of_condition hr hc hname⟩
      · obtain ⟨id, rfl⟩ := Name.text_of_isSome ((hg r hr).actions a ha _ (.inl hname))
        exact ⟨id, hsubject, Action.name_nonempty (.inl hname), uses_of_action hr ha hname⟩

/-- A counter that a condition reads and that is not defined is found. -/
theorem reference_of_condition {c : Condition} {id : String} (hr : r ∈ g.rules) (hc : c ∈ r.conditions)
    (hname : c.counterName? = some (.text id)) (hno : id ∉ g.counterIds) :
    ∃ f ∈ references g, f.label = .listed .invalidCounterName ∧ f.location.subject = some id := by
  have hfound (path : Path) : ∃ f ∈ conditionReferences g r path c,
      f.label = .listed .invalidCounterName ∧ f.location.subject = some id := by
    cases c with
    | counter name comparison value =>
      have hname : name.name? = some (.text id) := hname
      have hmissing : isAmong g.counterIds (.text id) = false := by
        simpa [isAmong, Name.text?] using hno
      simp [conditionReferences, counterField, hname, hmissing, Finding.critical, Name.shown]
    | _ => cases hname
  -- The finding stands among those of its condition, these among those of its rule.
  obtain ⟨i, hrule⟩ := indexed_mem (ruleReferences g) 0 hr
  obtain ⟨j, hcondition⟩ := indexed_mem (fun k => conditionReferences g r
    ([.name "script", .name "rules", .index i] ++ [.name "triggers", .name "conditions", .index k])) 0 hc
  obtain ⟨f, hf, hlabel, hsubject⟩ := hfound
    ([.name "script", .name "rules", .index i] ++ [.name "triggers", .name "conditions", .index j])
  refine ⟨f, ?_, hlabel, hsubject⟩
  rw [references, List.mem_append]
  refine .inr (hrule f ?_)
  rw [ruleReferences, List.mem_append, List.mem_append]
  exact .inl (.inr (hcondition f hf))

theorem sound_of_reference (hg : g.NamesAreTexts) (h : f ∈ references g)
    (hlabel : f.label = .listed .undefinedSoundId) :
    ∃ id, f.location.subject = some id ∧ id.isEmpty = false := by
  rcases refers_of_mem h with hobject | ⟨r, hr, hrefers⟩
  · rw [hobject] at hlabel
    cases hlabel
  · cases hrefers with
    | object hobject =>
      rw [hobject] at hlabel
      cases hlabel
    | counter hcounter =>
      rw [hcounter] at hlabel
      cases hlabel
    | sound _ hsubject hnamed =>
      obtain ⟨a, ha, hname⟩ := hnamed
      obtain ⟨id, rfl⟩ := Name.text_of_isSome ((hg r hr).actions a ha _ (.inr hname))
      exact ⟨id, hsubject, Action.name_nonempty (.inr hname)⟩

end Refers

end Check

/-! ## References of mended rule-sets -/

namespace Mending

open Check

variable {v : Vocabulary}

section References

variable (g : Game)

@[simp] theorem soundName?_mendAction (a : Action) : (mendAction v a).soundName? = a.soundName? :=
  mendAction_keeps (fun a => by cases a <;> rfl) (fun _ _ _ _ => rfl) a

@[simp] theorem objectIds_mendGame : (mendGame v g).objectIds = g.objectIds := by
  simp only [Game.objectIds, mendGame, List.map_map]
  rfl

theorem objectField_mendGame (field : Slot String) (message : String → String)
    (location : String → Location) :
    objectField (mendGame v g) field message location = objectField g field message location := by
  unfold objectField
  rw [objectIds_mendGame]

theorem conditionReferences_mendGame (r : Rule) (path : Path) (c : Condition) :
    conditionReferences (mendGame v g) (mendRule v r) path (mendCondition v c) =
      conditionReferences g r path c := by
  have hcondition : conditionReferences (mendGame v g) (mendRule v r) path (mendCondition v c) =
      conditionReferences (mendGame v g) (mendRule v r) path c :=
    mendCondition_keeps (fun c => by cases c <;> rfl) c
  rw [hcondition]
  unfold conditionReferences targetReference
  simp only [objectField_mendGame]
  rfl

theorem actionReferences_mendGame (r : Rule) (path : Path) (a : Action) :
    actionReferences (mendGame v g) (mendRule v r) path a = actionReferences g r path a := by
  unfold actionReferences
  simp only [objectField_mendGame]
  rfl

theorem actionReferences_mendAction (r : Rule) (path : Path) (a : Action) :
    actionReferences g r path (mendAction v a) = actionReferences g r path a :=
  mendAction_keeps (fun a => by
    cases a with
    | move target movement =>
      cases movement with
      | value m =>
        obtain ⟨type, goal, speed, duration, direction⟩ := m
        cases goal with
        | value goal => cases goal <;> rfl
        | _ => rfl
      | _ => rfl
    | _ => rfl) (fun _ _ _ _ => rfl) a

theorem pickedReferences_mendGame (r : Rule) (path : Path) (a : Action) :
    pickedReferences (mendGame v g) (mendRule v r) path (mendAction v a) =
      pickedReferences g r path a := by
  unfold pickedReferences
  simp only [actionReferences_mendGame, actionReferences_mendAction, picks_mendAction]
  split
  · rw [indexed_map]
    simp only [actionReferences_mendAction]
  · rfl

@[simp] theorem references_mendGame : references (mendGame v g) = references g := by
  have hplacements : indexed (placementReference (mendGame v g)) 0 (mendGame v g).layout =
      indexed (placementReference g) 0 g.layout := by
    simp only [mendGame, indexed_map]
    refine congrArg (indexed · 0 g.layout) (funext fun index => funext fun p => ?_)
    change placementReference (mendGame v g) index (mendPlacement p) = placementReference g index p
    unfold placementReference
    rw [objectIds_mendGame]
    rfl
  have hrules (index : Nat) (r : Rule) :
      ruleReferences (mendGame v g) index (mendRule v r) = ruleReferences g index r := by
    unfold ruleReferences ruleReference
    simp only [objectField_mendGame, conditions_mendRule, actions_mendRule, indexed_map,
      conditionReferences_mendGame, pickedReferences_mendGame]
    rfl
  rw [references, hplacements, rules_mendGame, indexed_map]
  simp only [hrules]
  rfl

theorem namesAreTexts_mendRule (r : Rule) : (mendRule v r).NamesAreTexts ↔ r.NamesAreTexts := by
  have hconditions : (∀ c ∈ (mendRule v r).conditions, ∀ name, c.counterName? = some name →
      name.text?.isSome) ↔ ∀ c ∈ r.conditions, ∀ name, c.counterName? = some name →
        name.text?.isSome := by
    simp
  have hactions := allActions_forall (v := v) r
    (p := fun a => ∀ name, a.counterName? = some name ∨ a.soundName? = some name → name.text?.isSome)
    fun a => by rw [counterName?_mendAction, soundName?_mendAction]
  have hobjects := allActions_forall (v := v) r
    (p := fun a => ∀ name, r.shownOrHidden? a = some name → name.text?.isSome)
    fun a => by rw [shownOrHidden?_mendAction]
  constructor
  · rintro ⟨hc, ha, ho⟩
    exact ⟨hconditions.mp hc, hactions.mp ha, hobjects.mp ho⟩
  · rintro ⟨hc, ha, ho⟩
    exact ⟨hconditions.mpr hc, hactions.mpr ha, hobjects.mpr ho⟩

theorem namesAreTexts_mendGame : (mendGame v g).NamesAreTexts ↔ g.NamesAreTexts := by
  simp only [Game.NamesAreTexts, rules_mendGame, List.forall_mem_map, namesAreTexts_mendRule]

theorem rulewiseFault?_mendGame (h : g.NamesAreTexts) :
    rulewiseFault? (mendGame v g) = rulewiseFault? g := by
  rw [rulewiseFault?_of_names h, rulewiseFault?_of_names ((namesAreTexts_mendGame g).mpr h),
    lookupFault?_mendGame]

end References

end Mending

end TouchGame
