import TouchGame.Proofs.Reordering.Conflicts

/-!
# Triggers told in other words

A rule can be told in several ways: its conditions in any order, its own object by name or not at all,
a choice left out or written down. What it is called and what it does are no part of its trigger. None of
this shows in its signature.

* `Rule.Owns` : the targets that mean the rule's own object.
* `Omits` : the fields that leave a choice to its default.
* `Condition.Rewords`, `Rule.Restates` : a condition and a rule in other words.
* `keyOf_reworded` : one condition in other words.
* `signature_restated` : a rule in other words, in any number of steps.
-/

namespace TouchGame

/-- A target means the rule's own object: it is absent, it is `self`, or it names that object. -/
def Rule.Owns (r : Rule) (target : Slot String) : Prop :=
  target = .empty ∨ target = .value "self" ∨ target = r.targetObject

/-- A field leaves a choice to its default: it is absent, or empty, or the default itself. -/
def Omits (default : String) (choice : Slot String) : Prop :=
  choice = .empty ∨ choice = .value "" ∨ choice = .value default

/-- Two targets are the same, or both mean the rule's own object. -/
def Rule.Alike (r : Rule) (target target' : Slot String) : Prop :=
  target = target' ∨ r.Owns target ∧ r.Owns target'

def ChosenAlike (default : String) (choice choice' : Slot String) : Prop :=
  choice = choice' ∨ Omits default choice ∧ Omits default choice'

/-- A condition of a rule in other words: its target and its choice spelled in another way. -/
inductive Condition.Rewords (r : Rule) : Condition → Condition → Prop
  | touch {t t' k k' : Slot String} (htarget : r.Alike t t') (hchoice : ChosenAlike "down" k k') :
      Rewords r (.touch t k) (.touch t' k')
  | collision {t t' k k' mode : Slot String} (htarget : r.Alike t t')
      (hchoice : ChosenAlike "enter" k k') : Rewords r (.collision t k mode) (.collision t' k' mode)
  | counter {name k k' : Slot String} {value : Option Number}
      (hchoice : ChosenAlike "greaterOrEqual" k k') :
      Rewords r (.counter name k value) (.counter name k' value)
  | flag {name k k' : Slot String} (hchoice : ChosenAlike "ON" k k') :
      Rewords r (.flag name k) (.flag name k')
  | position {t t' area : Slot String} {region : Slot Region} (htarget : r.Alike t t') :
      Rewords r (.position t area region) (.position t' area region)
  | animation {t t' condition : Slot String} {frame : Option Number} {range : Slot (List Number)}
      {loops : Option Number} (htarget : r.Alike t t') :
      Rewords r (.animation t condition frame range loops) (.animation t' condition frame range loops)
  | objectState {t t' state : Slot String} (htarget : r.Alike t t') :
      Rewords r (.objectState t state) (.objectState t' state)

/-- A rule in other words. -/
inductive Rule.Restates (r : Rule) : Rule → Prop
  /-- Its conditions in another order. -/
  | shuffled {t : Trigger} {cs : List Condition} (ht : r.trigger = .value t)
      (h : cs.Perm t.conditions) : Restates r { r with trigger := .value { t with conditions := cs } }
  /-- One of its conditions in other words. -/
  | reworded {t : Trigger} {before after : List Condition} {c c' : Condition}
      (ht : r.trigger = .value t) (hconditions : t.conditions = before ++ c :: after)
      (h : c.Rewords r c') :
      Restates r { r with trigger := .value { t with conditions := before ++ c' :: after } }
  /-- Under another name, and doing something else. -/
  | renamed (id : String) (name : Slot String) (actions : List Action) :
      Restates r { r with id := id, name := name, actions := actions }

/-! ## One condition -/

section Reworded

variable {r : Rule}

theorem resolve_owned {target : Slot String} (h : r.Owns target) : r.resolve target = r.targetObject := by
  rcases h with rfl | rfl | rfl
  · rfl
  · rfl
  · unfold Rule.resolve
    split <;> simp_all

theorem resolve_alike {target target' : Slot String} (h : r.Alike target target') :
    r.resolve target' = r.resolve target := by
  rcases h with rfl | ⟨htarget, htarget'⟩
  · rfl
  · rw [resolve_owned htarget, resolve_owned htarget']

theorem signatureOr_omitted {default : String} {choice : Slot String} (h : Omits default choice) :
    choice.signatureOr default = default := by
  rcases h with rfl | rfl | rfl
  · rfl
  · rfl
  · rw [Slot.signatureOr]
    split <;> rfl

theorem signatureOr_chosenAlike {default : String} {choice choice' : Slot String}
    (h : ChosenAlike default choice choice') :
    choice'.signatureOr default = choice.signatureOr default := by
  rcases h with rfl | ⟨hchoice, hchoice'⟩
  · rfl
  · rw [signatureOr_omitted hchoice, signatureOr_omitted hchoice']

theorem keyOf_reworded {c c' : Condition} (h : c.Rewords r c') : r.keyOf c' = r.keyOf c := by
  cases h with
  | touch htarget hchoice =>
    simp only [Rule.keyOf, Rule.keyFields, Condition.kind, Condition.word?, resolve_alike htarget,
      signatureOr_chosenAlike hchoice]
  | collision htarget hchoice =>
    simp only [Rule.keyOf, Rule.keyFields, Condition.kind, Condition.word?, resolve_alike htarget,
      signatureOr_chosenAlike hchoice]
  | counter hchoice | flag hchoice =>
    simp only [Rule.keyOf, Rule.keyFields, Condition.kind, Condition.word?,
      signatureOr_chosenAlike hchoice]
  | position htarget | animation htarget | objectState htarget =>
    simp only [Rule.keyOf, Rule.keyFields, Condition.kind, Condition.word?, resolve_alike htarget]

end Reworded

/-! ## The whole rule -/

/-- One step leaves the signature alone. -/
theorem Rule.Restates.signature_eq {r r' : Rule} (h : r.Restates r') : r'.signature = r.signature := by
  cases h with
  | @shuffled t cs ht h =>
    have hconditions : r.conditions = t.conditions := by
      rw [Rule.conditions, ht]
      rfl
    refine signature_congr ?_ ?_
    · rw [Rule.operator, Rule.operator, ht]
      rfl
    · rw [keyOf_congr (r := r) rfl, hconditions]
      exact h.map r.keyOf
  | @reworded t before after c c' ht hsplit h =>
    have hconditions : r.conditions = before ++ c :: after := by
      rw [Rule.conditions, ht]
      exact hsplit
    refine signature_congr ?_ ?_
    · rw [Rule.operator, Rule.operator, ht]
      rfl
    · rw [keyOf_congr (r := r) rfl, hconditions]
      show ((before ++ c' :: after).map r.keyOf).Perm ((before ++ c :: after).map r.keyOf)
      rw [List.map_append, List.map_append, List.map_cons, List.map_cons, keyOf_reworded h]
  | renamed id name actions =>
    refine signature_congr rfl ?_
    rw [keyOf_congr (r := r) rfl]
    exact List.Perm.refl _

/-- **Signatures are canonical.** However often the conditions of a rule change places or are put in
other words, and whatever the rule is called and does, its signature stays the same. -/
theorem signature_restated {r r' : Rule} (h : Relation.ReflTransGen Rule.Restates r r') :
    r'.signature = r.signature := by
  induction h with
  | refl => rfl
  | tail _ hstep ih => rw [hstep.signature_eq, ih]

/-- An apple that is picked when some conditions hold. -/
def picking (id : String) (conditions : List Condition) (actions : List Action) : Rule :=
  ⟨id, .empty, .value "apple", .value ⟨"AND", conditions⟩, actions⟩

theorem signature_restated_picking :
    let ripe (comparison : Slot String) : Condition := .counter (.value "days") comparison (some 3)
    let terse := picking "pick" [.touch .empty .empty, ripe .empty] []
    let wordy := picking "harvest" [ripe (.value "greaterOrEqual"),
      .touch (.value "apple") (.value "down")] [.success none .empty]
    Relation.ReflTransGen Rule.Restates terse wordy ∧ wordy.signature = terse.signature := by
  intro ripe terse wordy
  have hreword (before after : List Condition) {c c' : Condition}
      (h : c.Rewords (picking "pick" (before ++ c :: after) []) c') :
      (picking "pick" (before ++ c :: after) []).Restates
        (picking "pick" (before ++ c' :: after) []) := by
    have hconditions : (Trigger.mk "AND" (before ++ c :: after)).conditions = before ++ c :: after := rfl
    exact .reworded rfl hconditions h
  have hrestates : Relation.ReflTransGen Rule.Restates terse wordy := by
    have htouch : terse.Restates
        (picking "pick" [.touch (.value "apple") (.value "down"), ripe .empty] []) :=
      hreword [] [ripe .empty]
        (.touch (.inr ⟨.inl rfl, .inr (.inr rfl)⟩) (.inr ⟨.inl rfl, .inr (.inr rfl)⟩))
    have hripe : (picking "pick" [.touch (.value "apple") (.value "down"), ripe .empty] []).Restates
        (picking "pick" [.touch (.value "apple") (.value "down"), ripe (.value "greaterOrEqual")] []) :=
      hreword [.touch (.value "apple") (.value "down")] []
        (.counter (.inr ⟨.inl rfl, .inr (.inr rfl)⟩))
    have hrun := (Relation.ReflTransGen.single htouch).tail hripe
    exact (hrun.tail (.shuffled rfl (.swap ..))).tail
      (.renamed "harvest" .empty [.success none .empty])
  exact ⟨hrestates, signature_restated hrestates⟩

end TouchGame
