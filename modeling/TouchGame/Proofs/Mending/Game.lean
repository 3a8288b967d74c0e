import TouchGame.Proofs.Mending.Action
import TouchGame.Check.Fieldwise

/-!
# Mending rule-sets

The fieldwise check of a rule-set heals it: the fix of a finding takes this finding away and no
other, and the rule-set that the fixes lead to is the same whatever their order. Where nothing can be
fixed any more, that rule-set is reached.

* `mendRule`, `mendGame` : a rule and a rule-set as the fieldwise check wants them.
* `autoFix_heals` : what the fix of one finding does.
* `mendGame_of_settled` : a rule-set without findings that can be fixed is mended.
-/

namespace TouchGame.Mending

open Check Repair

/-! ## What checks see of a rule -/

section Scope

variable {v : Vocabulary} {r r' : Rule}

theorem condition_scope (hid : r'.id = r.id) (htarget : r'.targetObject = r.targetObject) :
    condition ⟨v, r'⟩ = condition ⟨v, r⟩ := by
  obtain ⟨id, name, target, trigger, actions⟩ := r
  obtain ⟨id', name', target', trigger', actions'⟩ := r'
  cases hid
  cases htarget
  rfl

theorem ownAction_scope (hid : r'.id = r.id) (htarget : r'.targetObject = r.targetObject) :
    ownAction ⟨v, r'⟩ = ownAction ⟨v, r⟩ := by
  obtain ⟨id, name, target, trigger, actions⟩ := r
  obtain ⟨id', name', target', trigger', actions'⟩ := r'
  cases hid
  cases htarget
  rfl

theorem action_scope (hid : r'.id = r.id) (htarget : r'.targetObject = r.targetObject) :
    action ⟨v, r'⟩ = action ⟨v, r⟩ := by
  have hprobability : probability ⟨v, r'⟩ = probability ⟨v, r⟩ := by
    funext path value
    simp only [probability, Scope.message, Scope.place, hid]
  have hunsupported : unsupportedAction ⟨v, r'⟩ = unsupportedAction ⟨v, r⟩ := by
    funext path a
    simp only [unsupportedAction, Scope.message, Scope.about, hid]
  funext path a
  induction a using Action.nested_induction generalizing path with
  | plain a hplain =>
    rw [action_of_plain hplain, action_of_plain hplain, ← ownAction_eq, ← ownAction_eq,
      ownAction_scope hid htarget, hunsupported]
  | choice options mode weights ih =>
    have hoptions (index : Nat) : choiceOptions ⟨v, r'⟩ path index options =
        choiceOptions ⟨v, r⟩ path index options := by
      induction options generalizing index with
      | nil => rfl
      | cons o rest ihrest =>
        rw [choiceOptions, choiceOptions, hprobability, ih o List.mem_cons_self,
          ihrest fun q hq => ih q (List.mem_cons_of_mem _ hq)]
    rw [action, action, ownAction_scope hid htarget, hunsupported, hoptions]

end Scope

/-! ## Rules -/

def mendTrigger (v : Vocabulary) (t : Trigger) : Trigger :=
  { t with conditions := t.conditions.map (mendCondition v) }

/-- A rule with its conditions and actions mended. -/
def mendRule (v : Vocabulary) (r : Rule) : Rule :=
  { r with
    trigger := r.trigger.mapValue (mendTrigger v)
    actions := r.actions.map (mendAction v) }

def rulePath (index : Nat) : Path :=
  [.name "script", .name "rules", .index index]

/-- The check of a rule with an id. -/
def ruleCheckup (v : Vocabulary) (index : Nat) (id : String) : Checkup Rule where
  base := rulePath index
  owns := ownedBy (some id)
  place? r := r.part.place?
  findings := rule v index
  mend := mendRule v

section Rule

variable {v : Vocabulary} {index : Nat}

/-- The findings about the operator of a trigger. -/
def operatorFindings (v : Vocabulary) (index : Nat) (r : Rule) : List Finding :=
  match r.trigger.get? with
  | some trigger =>
    enumerated ⟨v, r⟩ "trigger.operator" (.value trigger.operator)
      (rulePath index ++ [.name "triggers", .name "operator"]) "trigger operator"
  | none => []

@[simp] theorem fixable_operatorFindings (r : Rule) :
    fixable (operatorFindings v index r) = false := by
  unfold operatorFindings
  split
  · exact fixable_enumerated ..
  · rfl

def conditionPath (index i : Nat) : Path :=
  rulePath index ++ [.name "triggers", .name "conditions", .index i]

def actionPath (index i : Nat) : Path :=
  rulePath index ++ [.name "actions", .index i]

theorem rule_findings (r : Rule) : rule v index r =
    operatorFindings v index r ++
      indexed (fun i => condition ⟨v, r⟩ (conditionPath index i)) 0 r.conditions ++
        indexed (fun i => action ⟨v, r⟩ (actionPath index i)) 0 r.actions := rfl

theorem rule_findings_scope (r r' : Rule) (hid : r'.id = r.id)
    (htarget : r'.targetObject = r.targetObject) : rule v index r' =
      operatorFindings v index r' ++
        indexed (fun i => condition ⟨v, r⟩ (conditionPath index i)) 0 r'.conditions ++
          indexed (fun i => action ⟨v, r⟩ (actionPath index i)) 0 r'.actions := by
  rw [rule_findings, condition_scope hid htarget, action_scope hid htarget]

theorem rule_heals (r : Rule) : (ruleCheckup v index r.id).Heals r := by
  refine Checkup.HealsIn.heals (rule_findings r) (.append (.append ?_ ?_) ?_)
  · exact .of_unfixable (fixable_operatorFindings r)
  · obtain ⟨id, name, target, trigger, actions⟩ := r
    cases trigger with
    | value t =>
      refine .items (j := fun i => conditionCheckup ⟨v, _⟩ (conditionPath index i))
        (mendCondition v) [.name "triggers", .name "conditions"]
        (fun cs => ⟨id, name, target, .value ⟨t.operator, cs⟩, actions⟩) (fun _ => rfl)
        (fun _ c _ => condition_heals c) (fun _ => rfl) (fun _ _ _ _ _ _ hl => hl) ?_ ?_ ?_
      · intro i c hc rel q hq
        have hitems := Part.items_place? Condition.part t.conditions
          (fun cs => { t with conditions := cs }) hc hq
        have htrigger : t.part.place? (.name "conditions" :: .index i :: rel) = _ :=
          Part.record_place? Field.conditions rfl hitems
        have hinner := Part.inner_place? (fun s : Slot Trigger =>
          (⟨id, name, target, s, actions⟩ : Rule)) htrigger
        rw [Place.map_map] at hinner
        exact Part.withShortcuts_place? (Part.record_place? Field.triggers rfl hinner)
      · intro cs _
        change rule v index ⟨id, name, target, .value ⟨t.operator, cs⟩, actions⟩ = _
        rw [rule_findings_scope ⟨id, name, target, .value t, actions⟩
          ⟨id, name, target, .value ⟨t.operator, cs⟩, actions⟩ rfl rfl, List.append_nil]
        rfl
      · intro cs hcs
        simp only [ruleCheckup, mendRule, Slot.mapValue, mendTrigger]
        rw [hcs]
        rfl
    | empty => exact .of_unfixable rfl
    | number n => exact .of_unfixable rfl
  · obtain ⟨id, name, target, trigger, actions⟩ := r
    refine .items (j := fun i => actionCheckup ⟨v, _⟩ (actionPath index i))
      (mendAction v) [.name "actions"]
      (fun as => ⟨id, name, target, trigger, as⟩) (fun _ => rfl)
      (fun _ a _ => action_heals a _) (fun _ => rfl) (fun _ _ _ _ _ _ hl => hl) ?_ ?_ ?_
    · intro i a ha rel q hq
      have hitems := Part.items_place? Action.part actions
        (fun as => (⟨id, name, target, trigger, as⟩ : Rule)) ha hq
      exact Part.withShortcuts_place? (Part.record_place? Field.actions rfl hitems)
    · intro as _
      change rule v index ⟨id, name, target, trigger, as⟩ = _
      rw [rule_findings_scope ⟨id, name, target, trigger, actions⟩ ⟨id, name, target, trigger, as⟩
        rfl rfl, List.append_nil]
      rfl
    · intro as has
      simp only [ruleCheckup, mendRule]
      rw [has]

theorem rule_settles (r : Rule) (h : fixable (rule v index r) = false) : mendRule v r = r := by
  rw [rule_findings, fixable_append, fixable_append, Bool.or_eq_false_iff, Bool.or_eq_false_iff] at h
  obtain ⟨⟨_, hconditions⟩, hactions⟩ := h
  obtain ⟨id, name, target, trigger, actions⟩ := r
  have htrigger : trigger.mapValue (mendTrigger v) = trigger := by
    cases trigger with
    | value t =>
      have hmap : t.conditions.map (mendCondition v) = t.conditions := by
        refine map_mend_of_settles ?_ hconditions
        intro i c _ hc
        exact condition_settles c (conditionPath index i) hc
      simp only [Slot.mapValue, mendTrigger, hmap]
    | empty => rfl
    | number n => rfl
  have hmap : actions.map (mendAction v) = actions := by
    refine map_mend_of_settles ?_ hactions
    intro i a _ ha
    exact action_settles a (actionPath index i) ha
  simp only [mendRule, htrigger, hmap]

end Rule

/-! ## Rule-sets -/

/-- A rule-set with layout, planned objects and rules mended. -/
def mendGame (v : Vocabulary) (g : Game) : Game :=
  { g with
    layout := g.layout.map mendPlacement
    objects := g.objects.map mendObject
    rules := g.rules.map (mendRule v) }

/-- The fieldwise check of a rule-set; every path leads to the rule that its finding names. -/
def gameCheckup (v : Vocabulary) (g : Game) : Checkup Game where
  base := []
  owns l := leadsToRule g l = .ok true
  place? g := g.place?
  findings := fieldwise v
  mend := mendGame v

section Game

variable {v : Vocabulary} {g : Game}

/-- The findings about objects that are placed more than once. -/
def repeatedPlacements (objects : List String) : List Finding :=
  (repeated objects).map fun (id, count) =>
    .warning .duplicateLayoutObject s!"Object \"{id}\" appears {count} times in the layout"
      "Place each object once" ⟨[], none, some id⟩

theorem fieldwise_findings (v : Vocabulary) (g : Game) : fieldwise v g =
    ruleIds g ++ (indexed (fun i => (placementCheckup i).findings) 0 g.layout ++
      repeatedPlacements (g.layout.map (·.object))) ++
        indexed (fun i => (objectCheckup i).findings) 0 g.objects ++
          indexed (rule v) 0 g.rules := rfl

theorem fixable_map {α : Type} {list : List α} {find : α → Finding}
    (h : ∀ a, (find a).isOf .autoFixable = false) : fixable (list.map find) = false := by
  rw [fixable, List.any_map, List.any_eq_false]
  intro a _
  simp [h a]

theorem fixable_ruleIds : fixable (ruleIds g) = false :=
  fixable_map fun _ => rfl

theorem fixable_repeatedPlacements (objects : List String) :
    fixable (repeatedPlacements objects) = false :=
  fixable_map fun _ => rfl

theorem leadsToRule_of_none {l : Location} (h : l.rule = none) : leadsToRule g l = .ok true := by
  simp only [leadsToRule, h]

theorem leadsToRule_of_rulePath {i : Nat} {r : Rule} {l : Location} {rel : Path}
    (hr : g.rules[i]? = some r) (hrule : l.rule = some r.id) (hpath : l.path = rulePath i ++ rel) :
    leadsToRule g l = .ok true := by
  have hi : i < g.rules.length := (List.getElem?_eq_some_iff.mp hr).1
  have hpath' : l.path = .name "script" :: .name "rules" :: .index i :: rel := hpath
  simp only [leadsToRule, hrule, hpath', position?_natCast hi, hr, Option.any_some, beq_self_eq_true]
  rw [if_neg (by omega)]

theorem script_place? {rel : Path} {p : Place Game} (h : g.scriptPart.place? rel = some p) :
    g.place? (.name "script" :: rel) = some p :=
  Part.withShortcuts_place? (Part.record_place? Field.script rfl h)

theorem asset_place? {rel : Path} {p : Place Game} (h : g.assetPart.place? rel = some p) :
    g.place? (.name "asset_plan" :: rel) = some p :=
  Part.withShortcuts_place? (Part.record_place? Field.assetPlan rfl h)

theorem map_keep {α β : Type} (mend : α → α) {keep : α → β} (h : ∀ a, keep (mend a) = keep a)
    {list list' : List α} (hm : list'.map mend = list.map mend) : list'.map keep = list.map keep := by
  have hkeep (l : List α) : (l.map mend).map keep = l.map keep := by
    rw [List.map_map]
    exact List.map_congr_left fun a _ => h a
  rw [← hkeep list', ← hkeep list, hm]

theorem fieldwise_heals (v : Vocabulary) (g : Game) : (gameCheckup v g).Heals g := by
  refine Checkup.HealsIn.heals (fieldwise_findings v g)
    (.append (.append (.append ?_ (.append ?_ ?_)) ?_) ?_)
  · exact .of_unfixable fixable_ruleIds
  · refine .items mendPlacement
      [.name "script", .name "layout", .name "objects"]
      (fun ps => { g with layout := ps }) (fun _ => rfl) (fun i p _ => placement_heals i p)
      (fun _ => rfl) (fun _ _ _ _ _ _ hl => leadsToRule_of_none hl) ?_ ?_ ?_
    · intro i p hp rel q hq
      have hitems := Part.items_place? Placement.part g.layout
        (fun ps => { g with layout := ps }) hp hq
      exact script_place? (Part.record_place? Field.layout rfl
        (Part.record_place? Field.objects rfl hitems))
    · intro ps hps
      have hobjects : ps.map (·.object) = g.layout.map (·.object) :=
        map_keep mendPlacement (fun _ => rfl) hps
      change fieldwise v { g with layout := ps } = _
      rw [fieldwise_findings, hobjects]
      simp [ruleIds]
    · intro ps hps
      simp only [gameCheckup, mendGame, hps]
  · exact .of_unfixable (fixable_repeatedPlacements _)
  · refine .items mendObject [.name "asset_plan", .name "objects"]
      (fun os => { g with objects := os }) (fun _ => rfl) (fun i o _ => object_heals i o)
      (fun _ => rfl) (fun _ _ _ _ _ _ hl => leadsToRule_of_none hl) ?_ ?_ ?_
    · intro i o ho rel q hq
      have hitems := Part.items_place? ObjectPlan.part g.objects
        (fun os => { g with objects := os }) ho hq
      exact asset_place? (Part.record_place? Field.objects rfl hitems)
    · intro os _
      change fieldwise v { g with objects := os } = _
      rw [fieldwise_findings]
      simp [ruleIds]
    · intro os hos
      simp only [gameCheckup, mendGame, hos]
  · refine .items (j := fun i => ruleCheckup v i ((g.rules[i]?.map (·.id)).getD ""))
      (mendRule v) [.name "script", .name "rules"]
      (fun rs => { g with rules := rs }) (fun _ => rfl) ?_ (fun _ => rfl) ?_ ?_ ?_ ?_
    · intro i r hr
      simp only [hr, Option.map_some, Option.getD_some]
      exact rule_heals r
    · intro i r hr l rel hpath hl
      simp only [hr, Option.map_some, Option.getD_some] at hl
      exact leadsToRule_of_rulePath hr hl hpath
    · intro i r hr rel q hq
      have hitems := Part.items_place? Rule.part g.rules
        (fun rs => { g with rules := rs }) hr hq
      exact script_place? (Part.record_place? Field.rules rfl hitems)
    · intro rs hrs
      have hids : rs.map (·.id) = g.rules.map (·.id) := map_keep (mendRule v) (fun _ => rfl) hrs
      change fieldwise v { g with rules := rs } = _
      rw [fieldwise_findings]
      simp only [ruleIds, hids, List.nil_append, List.append_nil]
      rfl
    · intro rs hrs
      simp only [gameCheckup, mendGame, hrs]

/-- **The fix of a finding.** It takes the finding away and no other, its record has the code of the
finding, and the mended rule-set stays what it was. -/
theorem autoFix_heals {before after : List Finding} {f : Finding}
    (h : fieldwise v g = before ++ f :: after) (hf : f.isOf .autoFixable = true) :
    ∃ g' amendment, autoFix g f = .ok (some (g', amendment)) ∧ f.label = .listed amendment.code ∧
      fieldwise v g' = before ++ after ∧ mendGame v g' = mendGame v g := by
  obtain ⟨c, rel, p, g', hlabel, hpath, hleads, hp, hremedied, hfindings, hmend⟩ :=
    fieldwise_heals v g before f after h hf
  obtain ⟨change, hchange, hgame⟩ := hremedied.change?
  have hplace : g.place? f.location.path = some p := by
    rw [show f.location.path = rel from hpath]
    exact hp
  have hpath' : f.location.path.isEmpty = false := by
    -- no number stands at the empty path, which leads to the rule-set itself
    cases hempty : f.location.path with
    | nil =>
      rw [hempty] at hplace
      have hother : g.place? [] = some .other := rfl
      rw [hother, Option.some.injEq] at hplace
      subst hplace
      cases hremedied
    | cons step rest => rfl
  refine ⟨g', ⟨c, change.description, f.location.path.text, change.before, .num change.after⟩, ?_,
    hlabel, by simpa [gameCheckup] using hfindings, hmend⟩
  have hlead : leadsToRule g f.location = .ok true := hleads
  rw [autoFix]
  simp only [hpath', hlead, hplace, hlabel, Label.code?]
  rw [if_neg (by simp), ← hgame]
  change (do return (← change? c p).map _) = _
  rw [hchange]
  rfl

theorem mendGame_of_settled (h : fixable (fieldwise v g) = false) : mendGame v g = g := by
  rw [fieldwise_findings] at h
  simp only [fixable_append, Bool.or_eq_false_iff] at h
  obtain ⟨⟨⟨_, hlayout, _⟩, hobjects⟩, hrules⟩ := h
  have hplacements : g.layout.map mendPlacement = g.layout := by
    refine map_mend_of_settles ?_ hlayout
    intro i p _ hp
    exact placement_settles i p hp
  have hplanned : g.objects.map mendObject = g.objects := by
    refine map_mend_of_settles ?_ hobjects
    intro i o _ ho
    exact object_settles i o ho
  have hrule : g.rules.map (mendRule v) = g.rules := by
    refine map_mend_of_settles ?_ hrules
    intro i r _ hr
    exact rule_settles r hr
  simp only [mendGame, hplacements, hplanned, hrule]

end Game

end TouchGame.Mending
