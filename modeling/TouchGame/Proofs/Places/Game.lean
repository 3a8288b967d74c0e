import TouchGame.Proofs.Places.Record

/-!
# Rule-sets that take numbers

The law of triggers, rules and rule-sets, whose fields paths also reach by shortcuts: the number goes
where the path leads with its shortcuts spelled out.

* `Trigger.found`, `Rule.found`, `Game.found` : what paths find.
* `Game.view` : what paths see of a rule-set.
* `Game.lawful` : a number that is put into a rule-set rewrites one leaf of it, and no more.
-/

namespace TouchGame

theorem seeList_map {α β : Type} {see : β → Tree} {view : α → Tree} {f : α → β}
    (h : ∀ a, see (f a) = view a) (list : List α) : seeList see (list.map f) = seeList view list := by
  simp [seeList, h]

theorem seeSlot_mapValue {α β : Type} {see : β → Tree} {view : α → Tree} {f : α → β}
    (h : ∀ a, see (f a) = view a) (value : Slot α) :
    seeSlot see (value.mapValue f) = seeSlot view value := by
  cases value with
  | value a => exact h a
  | _ => rfl

/-! ## Rules -/

namespace Trigger

/-- A trigger as paths find it. -/
def found (t : Trigger) : Trigger :=
  { t with conditions := t.conditions.map Condition.found }

def view (t : Trigger) : Tree :=
  t.found.part.tree

theorem view_eq (t : Trigger) : t.view = .record [
    (Field.operator, .data (.str t.operator)),
    (Field.conditions, seeList Condition.view t.conditions)] := by
  have hconditions : seeList (treeOf Condition.part) (t.conditions.map Condition.found) =
      seeList Condition.view t.conditions := seeList_map (fun _ => rfl) _
  simp [view, part, Part.record, Part.fields, found, hconditions]

theorem lawful (t : Trigger) : Lawful part view t := by
  refine .record ?_
  simp only [List.forall_mem_cons]
  refine ⟨.text _, (Writes.items fun c _ => Condition.lawful c).field ?_, List.forall_mem_nil _⟩
  exact ⟨_, view_eq t, by simp +decide [memberAt?],
    fun _ => ⟨_, view_eq _, by simp +decide [setMember], _, fun _ _ => Part.record_value? rfl⟩⟩

end Trigger

namespace Rule

/-- A rule as paths find it. -/
def found (r : Rule) : Rule :=
  { r with trigger := r.trigger.mapValue Trigger.found, actions := r.actions.map Action.found }

def view (r : Rule) : Tree :=
  r.found.part.tree

theorem view_eq (r : Rule) : r.view = .record [
    (Field.id, .data (.str r.id)),
    (Field.name, seeSlot (fun s => .data (.str s)) r.name),
    (Field.targetObjectId, seeSlot (fun s => .data (.str s)) r.targetObject),
    (Field.triggers, seeSlot Trigger.view r.trigger),
    (Field.actions, seeList Action.view r.actions)] := by
  have htrigger : seeSlot (treeOf Trigger.part) (r.trigger.mapValue Trigger.found) =
      seeSlot Trigger.view r.trigger := seeSlot_mapValue (fun _ => rfl) _
  have hactions : seeList (treeOf Action.part) (r.actions.map Action.found) =
      seeList Action.view r.actions := seeList_map (fun _ => rfl) _
  simp [view, part, Part.withShortcuts, parts, Part.record, Part.fields, found, htrigger, hactions]

theorem lost_conditions (r : Rule) (path : Path) :
    (Part.record "Rule" r.parts).place? (.name "conditions" :: path) = none := by
  cases path <;> rfl

/-- What is seen of a rule around the conditions of its trigger. -/
def aroundConditions (r : Rule) (t : Trigger) (conditions : Tree) : Tree :=
  .record [
    (Field.id, .data (.str r.id)),
    (Field.name, seeSlot (fun s => .data (.str s)) r.name),
    (Field.targetObjectId, seeSlot (fun s => .data (.str s)) r.targetObject),
    (Field.triggers, .record [
      (Field.operator, .data (.str t.operator)),
      (Field.conditions, conditions)]),
    (Field.actions, seeList Action.view r.actions)]

theorem surrounds_aroundConditions (r : Rule) (t : Trigger) :
    Surrounds [.name "triggers", .name "conditions"] (aroundConditions r t) := by
  refine ⟨[3, 1], fun seen q => ⟨?_, fun n => rfl⟩⟩
  change ((seen.look? q).map (Content.below 1)).map (Content.below 3) = _
  rw [Option.map_map]
  rfl

theorem lawful (r : Rule) : Lawful part view r := by
  refine .withShortcuts (.record ?_) ?_
  · simp only [parts, List.forall_mem_cons]
    refine ⟨.text _, (Writes.text? _).field ?_, (Writes.text? _).field ?_,
      (Writes.inner fun t _ => Trigger.lawful t).field ?_,
      (Writes.items fun a _ => Action.lawful a).field ?_, List.forall_mem_nil _⟩
    all_goals exact ⟨_, view_eq r, by simp +decide [memberAt?],
      fun _ => ⟨_, view_eq _, by simp +decide [setMember],
        _, fun _ _ h => Part.withShortcuts_value? (Part.record_value? rfl h)⟩⟩
  · intro kp hkp
    rw [shortcuts] at hkp
    split at hkp
    · rename_i t ht
      rw [List.mem_singleton.mp hkp]
      dsimp only
      refine (Writes.items fun c _ => Condition.lawful c).within [.name "conditions"]
        (surrounds_aroundConditions r t) (fun _ _ => .conditions) ?_ (fun cs => ?_) fun cs => ?_
      · rw [view_eq, ht, seeSlot, Trigger.view_eq]
        rfl
      · rw [view_eq]
        dsimp only
        rw [seeSlot, Trigger.view_eq]
        rfl
      · exact ⟨_, fun path _ => Part.shortcut_value? (lost_conditions _ path) rfl⟩
    · cases hkp

end Rule

/-! ## Rule-sets -/

namespace Game

/-- A rule-set as paths find it. -/
def found (g : Game) : Game :=
  { g with rules := g.rules.map Rule.found }

def view (g : Game) : Tree :=
  g.found.part.tree

/-- What is seen of a rule-set, by what is seen of its lists and of its music. -/
def frame (layout counters rules objects sounds music : Tree) : Tree :=
  .record [
    (Field.script, .record [
      (Field.layout, .record [(Field.objects, layout)]),
      (Field.counters, counters),
      (Field.rules, rules)]),
    (Field.assetPlan, .record [
      (Field.objects, objects),
      (Field.sounds, sounds),
      (Field.bgm, music)])]

theorem view_eq (g : Game) : g.view = frame (seeList (treeOf Placement.part) g.layout)
    (seeList (treeOf Counter.part) g.counters) (seeList Rule.view g.rules)
    (seeList (treeOf ObjectPlan.part) g.objects) (seeList (treeOf SoundPlan.part) g.sounds)
    (seeSlot (treeOf MusicPlan.part) g.music) := by
  have hrules : seeList (treeOf Rule.part) (g.rules.map Rule.found) = seeList Rule.view g.rules :=
    seeList_map (fun _ => rfl) _
  simp [view, part, Part.withShortcuts, Part.record, Part.fields, found, frame, scriptPart, assetPart,
    layoutPart, countersPart, rulesPart, hrules]

section Frame

variable {layout counters rules objects sounds music : Tree}

theorem surrounds_layout : Surrounds [.name "script", .name "layout", .name "objects"]
    fun t => frame t counters rules objects sounds music := by
  refine ⟨[0, 0, 0], fun t q => ⟨?_, fun n => rfl⟩⟩
  change (((t.look? q).map (Content.below 0)).map (Content.below 0)).map (Content.below 0) = _
  rw [Option.map_map, Option.map_map]
  rfl

theorem surrounds_counters : Surrounds [.name "script", .name "counters"]
    fun t => frame layout t rules objects sounds music := by
  refine ⟨[0, 1], fun t q => ⟨?_, fun n => rfl⟩⟩
  change ((t.look? q).map (Content.below 1)).map (Content.below 0) = _
  rw [Option.map_map]
  rfl

theorem surrounds_rules : Surrounds [.name "script", .name "rules"]
    fun t => frame layout counters t objects sounds music := by
  refine ⟨[0, 2], fun t q => ⟨?_, fun n => rfl⟩⟩
  change ((t.look? q).map (Content.below 2)).map (Content.below 0) = _
  rw [Option.map_map]
  rfl

theorem surrounds_objects : Surrounds [.name "asset_plan", .name "objects"]
    fun t => frame layout counters rules t sounds music := by
  refine ⟨[1, 0], fun t q => ⟨?_, fun n => rfl⟩⟩
  change ((t.look? q).map (Content.below 0)).map (Content.below 1) = _
  rw [Option.map_map]
  rfl

theorem surrounds_sounds : Surrounds [.name "asset_plan", .name "sounds"]
    fun t => frame layout counters rules objects t music := by
  refine ⟨[1, 1], fun t q => ⟨?_, fun n => rfl⟩⟩
  change ((t.look? q).map (Content.below 1)).map (Content.below 1) = _
  rw [Option.map_map]
  rfl

theorem surrounds_music : Surrounds [.name "asset_plan", .name "bgm"]
    fun t => frame layout counters rules objects sounds t := by
  refine ⟨[1, 2], fun t q => ⟨?_, fun n => rfl⟩⟩
  change ((t.look? q).map (Content.below 2)).map (Content.below 1) = _
  rw [Option.map_map]
  rfl

end Frame

theorem unfolds_append {p q : Path} (steps : Path) (h : p.Unfolds q) :
    Path.Unfolds (steps ++ p) (steps ++ q) := by
  induction steps with
  | nil => exact h
  | cons step rest ih => exact .step step ih

theorem lost_shortcut (g : Game) {field : String} (h : field ∈ ["layout_objects", "counters", "rules"])
    (path : Path) : (Part.record "RuleSet" [(Field.script, g.scriptPart),
      (Field.assetPlan, g.assetPart)]).place? (.name field :: path) = none := by
  simp only [List.mem_cons, List.not_mem_nil, or_false] at h
  rcases h with rfl | rfl | rfl <;> cases path <;> rfl

theorem lawful (g : Game) : Lawful part view g := by
  have layout := Writes.items fun p (_ : p ∈ g.layout) => p.lawful
  have counters := Writes.items fun c (_ : c ∈ g.counters) => c.lawful
  have rules := Writes.items fun r (_ : r ∈ g.rules) => r.lawful
  refine .withShortcuts (.record ?_) ?_
  · simp only [List.forall_mem_cons]
    refine ⟨.record ?_, .record ?_, List.forall_mem_nil _⟩
    · simp only [List.forall_mem_cons]
      refine ⟨.record (List.forall_mem_singleton.mpr ?_), ?_, ?_, List.forall_mem_nil _⟩
      · dsimp only
        refine layout.within [.name "script", .name "layout", .name "objects"] surrounds_layout
          (fun _ _ => unfolds_append _) (view_eq g) (fun _ => view_eq _) fun _ => ?_
        exact ⟨_, fun _ _ h => Part.withShortcuts_value?
          (Part.record_value? rfl (Part.record_value? rfl (Part.record_value? rfl h)))⟩
      · refine counters.within [.name "script", .name "counters"] surrounds_counters
          (fun _ _ => unfolds_append _) (view_eq g) (fun _ => view_eq _) fun _ => ?_
        exact ⟨_, fun _ _ h =>
          Part.withShortcuts_value? (Part.record_value? rfl (Part.record_value? rfl h))⟩
      · refine rules.within [.name "script", .name "rules"] surrounds_rules
          (fun _ _ => unfolds_append _) (view_eq g) (fun _ => view_eq _) fun _ => ?_
        exact ⟨_, fun _ _ h =>
          Part.withShortcuts_value? (Part.record_value? rfl (Part.record_value? rfl h))⟩
    · simp only [List.forall_mem_cons]
      refine ⟨?_, ?_, ?_, List.forall_mem_nil _⟩
      · refine (Writes.items fun o (_ : o ∈ g.objects) => o.lawful).within
          [.name "asset_plan", .name "objects"] surrounds_objects (fun _ _ => unfolds_append _)
          (view_eq g) (fun _ => view_eq _) fun _ => ?_
        exact ⟨_, fun _ _ h =>
          Part.withShortcuts_value? (Part.record_value? rfl (Part.record_value? rfl h))⟩
      · refine (Writes.items fun s (_ : s ∈ g.sounds) => s.lawful).within
          [.name "asset_plan", .name "sounds"] surrounds_sounds (fun _ _ => unfolds_append _)
          (view_eq g) (fun _ => view_eq _) fun _ => ?_
        exact ⟨_, fun _ _ h =>
          Part.withShortcuts_value? (Part.record_value? rfl (Part.record_value? rfl h))⟩
      · refine (Writes.inner fun m (_ : g.music = .value m) => m.lawful).within
          [.name "asset_plan", .name "bgm"] surrounds_music (fun _ _ => unfolds_append _)
          (view_eq g) (fun _ => view_eq _) fun _ => ?_
        exact ⟨_, fun _ _ h =>
          Part.withShortcuts_value? (Part.record_value? rfl (Part.record_value? rfl h))⟩
  · simp only [List.forall_mem_cons]
    refine ⟨?_, ?_, ?_, List.forall_mem_nil _⟩
    · refine layout.within [.name "layout_objects"] surrounds_layout (fun _ _ => .layout) (view_eq g)
        (fun _ => view_eq _) fun _ => ?_
      exact ⟨_, fun path _ => Part.shortcut_value? (lost_shortcut _ (by simp) path) rfl⟩
    · refine counters.within [.name "counters"] surrounds_counters (fun _ _ => .counters) (view_eq g)
        (fun _ => view_eq _) fun _ => ?_
      exact ⟨_, fun path _ => Part.shortcut_value? (lost_shortcut _ (by simp) path) rfl⟩
    · refine rules.within [.name "rules"] surrounds_rules (fun _ _ => .rules) (view_eq g)
        (fun _ => view_eq _) fun _ => ?_
      exact ⟨_, fun path _ => Part.shortcut_value? (lost_shortcut _ (by simp) path) rfl⟩

end Game

end TouchGame
