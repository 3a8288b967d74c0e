import TouchGame.Check.Wiring

/-!
# Rule-sets in another order

The rules of a rule-set, the conditions and the actions of a rule and the options of a choice may stand
in any order. One reordering changes the order of one such list; what looks at the items of a list one
by one sees the same things behind it, in another order.

* `Action.Reorders`, `Rule.Reorders`, `Game.Reorders` : one reordering.
* `Action.Reorders.keeps` : what does not look at options stays the same.
* `Rule.Reorders.actions_flatMap`, `Game.Reorders.rules_flatMap` : what is seen of actions and of rules.
-/

namespace TouchGame

section Lists

variable {α β : Type} {list list' : List α}

theorem any_eq_of_map {p : α → Bool} (h : (list'.map p).Perm (list.map p)) :
    list'.any p = list.any p := by
  have hany (l : List α) : l.any p = (l.map p).any fun b => b := by
    rw [List.any_map]
    rfl
  rw [hany, hany, h.any_eq]

theorem filterMap_perm_of_map {find : α → Option β} (h : (list'.map find).Perm (list.map find)) :
    (list'.filterMap find).Perm (list.filterMap find) := by
  have hfind (l : List α) : l.filterMap find = (l.map find).filterMap fun b => b := by
    rw [List.filterMap_map]
    rfl
  rw [hfind, hfind]
  exact h.filterMap _

theorem flatMap_filter (p : α → Bool) (see : α → List β) (list : List α) :
    (list.filter p).flatMap see = list.flatMap fun a => if p a then see a else [] := by
  induction list with
  | nil => rfl
  | cons a rest ih =>
    rw [List.filter_cons, List.flatMap_cons, ← ih]
    split <;> rfl

end Lists

/-! ## Actions -/

namespace Action

/-- The options of a choice, or of one that it may pick, are put in another order. -/
inductive Reorders : Action → Action → Prop
  | options {options options' : List (ChoiceOption Action)} {mode : Slot String}
      {weights : Slot (List Number)} (h : options'.Perm options) :
      Reorders (.choice options mode weights) (.choice options' mode weights)
  | inside {before after : List (ChoiceOption Action)} {o : ChoiceOption Action} {a : Action}
      {mode : Slot String} {weights : Slot (List Number)} (h : Reorders o.action a) :
      Reorders (.choice (before ++ o :: after) mode weights)
        (.choice (before ++ { o with action := a } :: after) mode weights)

def BlindToOptions {β : Type} (see : Action → β) : Prop :=
  ∀ options options' mode weights,
    see (.choice options mode weights) = see (.choice options' mode weights)

theorem Reorders.keeps {β : Type} {see : Action → β} {a a' : Action} (h : a.Reorders a')
    (hblind : BlindToOptions see) : see a' = see a := by
  cases h with
  | options _ => exact hblind ..
  | inside _ => exact hblind ..

theorem Reorders.picks_map {β : Type} {see : Action → β} {a a' : Action} (h : a.Reorders a')
    (hblind : BlindToOptions see) : (a'.picks.map see).Perm (a.picks.map see) := by
  cases h with
  | options h => exact (h.map _).map _
  | inside h =>
    simp only [picks, List.map_append, List.map_cons, h.keeps hblind]
    exact .refl _

end Action

/-! ## Rules -/

namespace Rule

/-- The conditions or the actions of a rule, or the options of one of its choices, are put in another
order. -/
inductive Reorders (r : Rule) : Rule → Prop
  | conditions {t : Trigger} {cs : List Condition} (htrigger : r.trigger = .value t)
      (h : cs.Perm t.conditions) : Reorders r { r with trigger := .value { t with conditions := cs } }
  | actions {as : List Action} (h : as.Perm r.actions) : Reorders r { r with actions := as }
  | inside {before after : List Action} {a a' : Action} (hactions : r.actions = before ++ a :: after)
      (h : a.Reorders a') : Reorders r { r with actions := before ++ a' :: after }

namespace Reorders

variable {r r' : Rule}

theorem id_eq (h : r.Reorders r') : r'.id = r.id := by
  cases h <;> rfl

theorem targetObject_eq (h : r.Reorders r') : r'.targetObject = r.targetObject := by
  cases h <;> rfl

theorem resolve_eq (h : r.Reorders r') : r'.resolve = r.resolve :=
  resolve_congr h.targetObject_eq

theorem objectOf_eq (h : r.Reorders r') : r'.objectOf = r.objectOf := by
  funext a
  rw [objectOf, objectOf, h.resolve_eq]

theorem operator?_eq (h : r.Reorders r') :
    r'.trigger.get?.map (·.operator) = r.trigger.get?.map (·.operator) := by
  cases h with
  | conditions htrigger h =>
    rw [htrigger]
    rfl
  | actions h => rfl
  | inside hactions h => rfl

theorem operator_eq (h : r.Reorders r') : r'.operator = r.operator := by
  rw [operator, operator, h.operator?_eq]

theorem conditions_perm (h : r.Reorders r') : r'.conditions.Perm r.conditions := by
  cases h with
  | conditions htrigger h =>
    rw [Rule.conditions, Rule.conditions, htrigger]
    exact h
  | actions h => exact .refl _
  | inside hactions h => exact .refl _

theorem actions_flatMap {β : Type} {see : Action → List β} (h : r.Reorders r')
    (hsee : ∀ {a a'}, a.Reorders a' → (see a').Perm (see a)) :
    (r'.actions.flatMap see).Perm (r.actions.flatMap see) := by
  cases h with
  | conditions htrigger h => exact .refl _
  | actions h => exact h.flatMap_right see
  | inside hactions h =>
    simp only [hactions, List.flatMap_append, List.flatMap_cons]
    exact ((hsee h).append_right _).append_left _

theorem actions_map {β : Type} {see : Action → β} (h : r.Reorders r')
    (hsee : ∀ {a a'}, a.Reorders a' → see a' = see a) :
    (r'.actions.map see).Perm (r.actions.map see) := by
  rw [List.map_eq_flatMap, List.map_eq_flatMap]
  exact h.actions_flatMap fun h => by rw [hsee h]

theorem allActions_map {β : Type} {see : Action → β} (h : r.Reorders r')
    (hblind : Action.BlindToOptions see) : (r'.allActions.map see).Perm (r.allActions.map see) := by
  rw [allActions, allActions, List.map_flatMap, List.map_flatMap]
  refine h.actions_flatMap fun {a a'} h => ?_
  rw [withPicks, withPicks, List.map_cons, List.map_cons, h.keeps hblind]
  exact (h.picks_map hblind).cons _

theorem actions_any {p : Action → Bool} (h : r.Reorders r') (hblind : Action.BlindToOptions p) :
    r'.actions.any p = r.actions.any p :=
  any_eq_of_map (h.actions_map fun h => h.keeps hblind)

theorem allActions_any {p : Action → Bool} (h : r.Reorders r') (hblind : Action.BlindToOptions p) :
    r'.allActions.any p = r.allActions.any p :=
  any_eq_of_map (h.allActions_map hblind)

theorem actions_filterMap {β : Type} {find : Action → Option β} (h : r.Reorders r')
    (hblind : Action.BlindToOptions find) :
    (r'.actions.filterMap find).Perm (r.actions.filterMap find) :=
  filterMap_perm_of_map (h.actions_map fun h => h.keeps hblind)

theorem allActions_filterMap {β : Type} {find : Action → Option β} (h : r.Reorders r')
    (hblind : Action.BlindToOptions find) :
    (r'.allActions.filterMap find).Perm (r.allActions.filterMap find) :=
  filterMap_perm_of_map (h.allActions_map hblind)

theorem fires_eq (h : r.Reorders r') (type : String) : r'.fires type = r.fires type :=
  h.actions_any fun _ _ _ _ => rfl

theorem mayFire_eq (h : r.Reorders r') (type : String) : r'.mayFire type = r.mayFire type :=
  h.allActions_any fun _ _ _ _ => rfl

end Reorders

end Rule

/-! ## Rule-sets -/

namespace Game

/-- The rules of a rule-set are put in another order, or something inside one of them is. -/
inductive Reorders (g : Game) : Game → Prop
  | rules {rs : List Rule} (h : rs.Perm g.rules) : Reorders g { g with rules := rs }
  | inside {before after : List Rule} {r r' : Rule} (hrules : g.rules = before ++ r :: after)
      (h : r.Reorders r') : Reorders g { g with rules := before ++ r' :: after }

namespace Reorders

variable {g g' : Game}

theorem withRules (h : g.Reorders g') : g' = { g with rules := g'.rules } := by
  cases h <;> rfl

theorem rules_flatMap {β : Type} {see : Rule → List β} (h : g.Reorders g')
    (hsee : ∀ {r r'}, r.Reorders r' → (see r').Perm (see r)) :
    (g'.rules.flatMap see).Perm (g.rules.flatMap see) := by
  cases h with
  | rules h => exact h.flatMap_right see
  | inside hrules h =>
    simp only [hrules, List.flatMap_append, List.flatMap_cons]
    exact ((hsee h).append_right _).append_left _

theorem rules_map {β : Type} {see : Rule → β} (h : g.Reorders g')
    (hsee : ∀ {r r'}, r.Reorders r' → see r' = see r) : (g'.rules.map see).Perm (g.rules.map see) := by
  rw [List.map_eq_flatMap, List.map_eq_flatMap]
  exact h.rules_flatMap fun h => by rw [hsee h]

theorem rules_any {p : Rule → Bool} (h : g.Reorders g')
    (hp : ∀ {r r'}, r.Reorders r' → p r' = p r) : g'.rules.any p = g.rules.any p :=
  any_eq_of_map (h.rules_map hp)

theorem rules_filter_any {p q : Rule → Bool} (h : g.Reorders g')
    (hp : ∀ {r r'}, r.Reorders r' → p r' = p r) (hq : ∀ {r r'}, r.Reorders r' → q r' = q r) :
    (g'.rules.filter p).any q = (g.rules.filter p).any q := by
  rw [List.any_filter, List.any_filter]
  exact h.rules_any fun h => by rw [hp h, hq h]

theorem rules_filter_flatMap {β : Type} {p : Rule → Bool} {see : Rule → List β} (h : g.Reorders g')
    (hp : ∀ {r r'}, r.Reorders r' → p r' = p r) (hsee : ∀ {r r'}, r.Reorders r' → (see r').Perm (see r)) :
    ((g'.rules.filter p).flatMap see).Perm ((g.rules.filter p).flatMap see) := by
  rw [flatMap_filter, flatMap_filter]
  refine h.rules_flatMap fun {r r'} h => ?_
  rw [hp h]
  split
  · exact hsee h
  · exact .refl _

theorem rules_filter_isEmpty {p : Rule → Bool} (h : g.Reorders g')
    (hp : ∀ {r r'}, r.Reorders r' → p r' = p r) :
    (g'.rules.filter p).isEmpty = (g.rules.filter p).isEmpty := by
  have hempty (rules : List Rule) : (rules.filter p).isEmpty = !(rules.filter p).any fun _ => true := by
    cases rules.filter p <;> rfl
  rw [hempty, hempty, h.rules_filter_any hp fun _ => rfl]

end Reorders

end Game

end TouchGame
