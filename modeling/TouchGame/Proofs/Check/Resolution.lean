import TouchGame.Proofs.Check.Codes
import TouchGame.Proofs.Repair.Fixes

/-!
# Resolution of references

A rule-set mentions objects, counters and sounds in its layout, in its rules and their conditions, and
in actions inside any number of choices. The check of references finds nothing exactly if all that is
mentioned outside of choices or inside a single one is defined. It does not look further: what stands
inside a choice of a choice may name anything.

* `Game.Mentions`, `Game.Defines` : what a rule-set mentions inside a number of choices, and what exists.
* `references_eq_nil_iff` : the check of references by itself.
* `resolution_iff` : the same for the findings between rules.
* `nestedGhost_unresolved` : an object that does not exist, two choices deep, about which nothing is found.
-/

namespace TouchGame

open Check

/-- What a rule-set can refer to. -/
inductive Reference where
  | object (id : String)
  | counter (name : Name)
  | sound (name : Name)

/-- The object that a field refers to, which the special targets do not. -/
def Reference.ofTarget (field : Slot String) : List Reference :=
  (objectReference? field).toList.map .object

def Condition.references (c : Condition) : List Reference :=
  Reference.ofTarget (c.target?.getD .empty) ++ c.counterName?.toList.map .counter

namespace Action

def goal : Action → Slot String
  | .move _ (.value ⟨_, .value (.object id), _, _, _⟩) => .value id
  | _ => .empty

def references (a : Action) : List Reference :=
  Reference.ofTarget (a.target?.getD .empty) ++ Reference.ofTarget a.goal ++
    a.counterName?.toList.map .counter ++ a.soundName?.toList.map .sound

/-- The actions that stand inside a number of choices, the action itself being inside none. -/
def inside : Nat → Action → List Action
  | 0, a => [a]
  | n + 1, a => a.picks.flatMap (inside n)

theorem inside_plain {a b : Action} {n : Nat} (h : a.isChoice = false) (hb : b ∈ a.inside n) :
    b = a := by
  cases n with
  | zero => exact List.mem_singleton.mp hb
  | succ n =>
    rw [inside, picks_of_plain h] at hb
    cases hb

end Action

namespace Game

/-- What a rule-set refers to inside a number of choices. -/
inductive Mentions (g : Game) : Nat → Reference → Prop
  | placed {p : Placement} (hp : p ∈ g.layout) : Mentions g 0 (.object p.object)
  | owned {r : Rule} {x : Reference} (hr : r ∈ g.rules) (hx : x ∈ Reference.ofTarget r.targetObject) :
    Mentions g 0 x
  | tested {r : Rule} {c : Condition} {x : Reference} (hr : r ∈ g.rules) (hc : c ∈ r.conditions)
    (hx : x ∈ c.references) : Mentions g 0 x
  | done {r : Rule} {a b : Action} {n : Nat} {x : Reference} (hr : r ∈ g.rules) (ha : a ∈ r.actions)
    (hb : b ∈ a.inside n) (hx : x ∈ b.references) : Mentions g n x

/-- Whether something is defined. -/
def Defines (g : Game) : Reference → Prop
  | .object id => id ∈ g.objectIds
  | .counter name => ∃ id ∈ g.counterIds, name = .text id
  | .sound name => ∃ id ∈ g.soundIds, name = .text id

end Game

namespace Check

/-! ## Single fields -/

section Fields

variable {g : Game}

theorem isAmong_iff {ids : List String} {name : Name} :
    isAmong ids name = true ↔ ∃ id ∈ ids, name = .text id := by
  cases name <;> simp [isAmong, Name.text?]

theorem objectField_eq_nil_iff {field : Slot String} {message : String → String}
    {location : String → Location} : objectField g field message location = [] ↔
      ∀ x ∈ Reference.ofTarget field, g.Defines x := by
  unfold objectField Reference.ofTarget
  cases objectReference? field <;> simp [Game.Defines]

theorem counterField_eq_nil_iff {r : Rule} {field : Slot String} {path : Path} :
    counterField g r field path = [] ↔
      ∀ x ∈ field.name?.toList.map Reference.counter, g.Defines x := by
  unfold counterField
  cases field.name? <;> simp [Game.Defines, ← isAmong_iff]

theorem soundField_eq_nil_iff {r : Rule} {field : Slot String} {path : Path} :
    soundField g r field path = [] ↔ ∀ x ∈ field.name?.toList.map Reference.sound, g.Defines x := by
  unfold soundField
  cases field.name? <;> simp [Game.Defines, ← isAmong_iff]

theorem ofTarget_empty : Reference.ofTarget .empty = [] := rfl

end Fields

/-! ## Parts of a rule-set -/

theorem indexed_eq_nil_iff {α : Type} {check : Nat → α → List Finding} {ok : α → Prop}
    (h : ∀ i a, check i a = [] ↔ ok a) {start : Nat} {list : List α} :
    indexed check start list = [] ↔ ∀ a ∈ list, ok a := by
  induction list generalizing start with
  | nil => simp [indexed]
  | cons a rest ih => rw [indexed, List.append_eq_nil_iff, h, ih, List.forall_mem_cons]

section Parts

variable (g : Game) (r : Rule)

theorem conditionReferences_eq_nil_iff (path : Path) (c : Condition) :
    conditionReferences g r path c = [] ↔ ∀ x ∈ c.references, g.Defines x := by
  have hcounter (name comparison : Slot String) (value : Option Number) :
      (Condition.counter name comparison value).references = name.name?.toList.map .counter := rfl
  have hother (h : c.counterName? = none) : c.references =
      Reference.ofTarget (c.target?.getD .empty) := by
    simp [Condition.references, h]
  cases c with
  | counter name comparison value =>
    rw [hcounter]
    exact counterField_eq_nil_iff
  | time | flag | gameState | random | unknown =>
    rw [hother rfl]
    simp [conditionReferences, targetReference, Condition.target?, ofTarget_empty]
  | _ =>
    rw [hother rfl]
    exact objectField_eq_nil_iff

theorem actionReferences_eq_nil_iff (path : Path) (a : Action) :
    actionReferences g r path a = [] ↔ ∀ x ∈ a.references, g.Defines x := by
  unfold actionReferences Action.references
  rw [List.append_eq_nil_iff]
  simp only [List.append_assoc, List.forall_mem_append]
  refine and_congr ?_ ?_
  · cases a.target? with
    | some target => exact objectField_eq_nil_iff
    | none => simp [ofTarget_empty]
  · -- The rest of what an action refers to depends on its type.
    cases a with
    | move target movement =>
      rcases movement with _ | ⟨type, _ | (_ | id) | _, speed, duration, direction⟩ | _
      all_goals simp [Action.goal, Action.counterName?, Action.soundName?, ofTarget_empty,
        objectField_eq_nil_iff]
    | counter name operation value =>
      rw [counterField_eq_nil_iff]
      simp [Action.goal, Action.counterName?, Action.soundName?, ofTarget_empty]
    | playSound sound | stopSound sound =>
      rw [soundField_eq_nil_iff]
      simp [Action.goal, Action.counterName?, Action.soundName?, ofTarget_empty]
    | _ => simp [Action.goal, Action.counterName?, Action.soundName?, ofTarget_empty]

theorem pickedReferences_eq_nil_iff (path : Path) (a : Action) :
    pickedReferences g r path a = [] ↔ ∀ n ≤ 1, ∀ b ∈ a.inside n, ∀ x ∈ b.references, g.Defines x := by
  have hpicks : a.inside 1 = a.picks := by simp [Action.inside]
  have hfound : pickedReferences g r path a = [] ↔ (∀ x ∈ a.references, g.Defines x) ∧
      ∀ b ∈ a.picks, ∀ x ∈ b.references, g.Defines x := by
    rw [pickedReferences, List.append_eq_nil_iff]
    exact and_congr (actionReferences_eq_nil_iff g r path a)
      (indexed_eq_nil_iff fun _ b => actionReferences_eq_nil_iff g r _ b)
  rw [hfound, ← hpicks]
  constructor
  · rintro ⟨hown, hpicked⟩ n hn
    obtain rfl | rfl : n = 0 ∨ n = 1 := by omega
    · simpa [Action.inside] using hown
    · exact hpicked
  · intro h
    exact ⟨h 0 (by omega) a List.mem_cons_self, h 1 (by omega)⟩

theorem placementReference_eq_nil_iff (index : Nat) (p : Placement) :
    placementReference g index p = [] ↔ g.Defines (.object p.object) := by
  unfold placementReference
  split <;> simp_all [Game.Defines]

theorem ruleReferences_eq_nil_iff (index : Nat) :
    ruleReferences g index r = [] ↔
      (∀ x ∈ Reference.ofTarget r.targetObject, g.Defines x) ∧
      (∀ c ∈ r.conditions, ∀ x ∈ c.references, g.Defines x) ∧
      ∀ a ∈ r.actions, ∀ n ≤ 1, ∀ b ∈ a.inside n, ∀ x ∈ b.references, g.Defines x := by
  unfold ruleReferences
  rw [List.append_eq_nil_iff, List.append_eq_nil_iff, and_assoc]
  refine and_congr objectField_eq_nil_iff (and_congr ?_ ?_)
  · exact indexed_eq_nil_iff fun _ c => conditionReferences_eq_nil_iff g r _ c
  · exact indexed_eq_nil_iff fun _ a => pickedReferences_eq_nil_iff g r _ a

/-- Nothing is found about references exactly if all that is mentioned inside at most one choice is
defined. -/
theorem references_eq_nil_iff :
    references g = [] ↔ ∀ n ≤ 1, ∀ x, g.Mentions n x → g.Defines x := by
  have hfound : references g = [] ↔ (∀ p ∈ g.layout, g.Defines (.object p.object)) ∧
      ∀ r ∈ g.rules, (∀ x ∈ Reference.ofTarget r.targetObject, g.Defines x) ∧
        (∀ c ∈ r.conditions, ∀ x ∈ c.references, g.Defines x) ∧
        ∀ a ∈ r.actions, ∀ n ≤ 1, ∀ b ∈ a.inside n, ∀ x ∈ b.references, g.Defines x := by
    rw [references, List.append_eq_nil_iff]
    exact and_congr (indexed_eq_nil_iff fun i p => placementReference_eq_nil_iff g i p)
      (indexed_eq_nil_iff fun i r => ruleReferences_eq_nil_iff g r i)
  rw [hfound]
  constructor
  · rintro ⟨hlayout, hrules⟩ n hn x hx
    cases hx with
    | placed hp => exact hlayout _ hp
    | owned hr hx => exact (hrules _ hr).1 x hx
    | tested hr hc hx => exact (hrules _ hr).2.1 _ hc x hx
    | done hr ha hb hx => exact (hrules _ hr).2.2 _ ha n hn _ hb x hx
  · intro h
    refine ⟨fun p hp => h 0 (by omega) _ (.placed hp), fun r hr => ⟨?_, ?_, ?_⟩⟩
    · exact fun x hx => h 0 (by omega) x (.owned hr hx)
    · exact fun c hc x hx => h 0 (by omega) x (.tested hr hc hx)
    · exact fun a ha n hn b hb x hx => h n hn x (.done hr ha hb hx)

end Parts

/-! ## The check between rules -/

section Rulewise

variable {g : Game} {findings : List Finding}

theorem references_silent_iff (h : rulewise g = .ok findings) :
    (∀ f ∈ findings, ∀ c ∈ referenceCodes, f.label ≠ .listed c) ↔ references g = [] := by
  obtain ⟨_, rfl⟩ := rulewise_ok_iff.mp h
  obtain ⟨others, heq, hothers⟩ := rulewiseFindings_split g
  rw [heq]
  constructor
  · intro hsilent
    refine List.eq_nil_iff_forall_not_mem.mpr fun f hf => ?_
    obtain ⟨c, hc, hlabel⟩ := references_coded g f hf
    exact hsilent f (List.mem_append_left _ hf) c hc hlabel
  · intro hnone f hf c hc hlabel
    rw [hnone, List.nil_append] at hf
    obtain ⟨c', hc', hlabel'⟩ := hothers f hf
    have hapart : ∀ c ∈ counterCodes ++ outcomeCodes, c ∉ referenceCodes := by decide
    rw [hlabel, Label.listed.injEq] at hlabel'
    exact hapart c' hc' (hlabel' ▸ hc)

/-- The check between rules finds no undefined object, counter or sound exactly if all that is mentioned
inside at most one choice is defined; then everything is, at any depth, exactly if all that is mentioned
further inside is. -/
theorem resolution_iff (h : rulewise g = .ok findings) :
    ((∀ f ∈ findings, ∀ c ∈ referenceCodes, f.label ≠ .listed c) ↔
      ∀ n ≤ 1, ∀ x, g.Mentions n x → g.Defines x) ∧
    ((∀ f ∈ findings, ∀ c ∈ referenceCodes, f.label ≠ .listed c) →
      ((∀ n x, g.Mentions n x → g.Defines x) ↔ ∀ n ≥ 2, ∀ x, g.Mentions n x → g.Defines x)) := by
  have hnear := (references_silent_iff h).trans (references_eq_nil_iff g)
  refine ⟨hnear, fun hsilent => ⟨fun hall n _ => hall n, fun hdeep n => ?_⟩⟩
  by_cases hn : n ≤ 1
  · exact hnear.mp hsilent n hn
  · exact hdeep n (by omega)

end Rulewise

/-! ## A reference that is not found -/

/-- A game with a tap that hides, inside two choices, what does not exist. -/
def nestedGhost : Game where
  layout := [⟨"star", ⟨.thousandths 500, .thousandths 500⟩, .empty⟩]
  counters := []
  rules := [⟨"tap", .empty, .value "star", .value ⟨"AND", [.touch .empty (.value "down")]⟩,
    [.success none .empty, choose (choose (.hide (.value "ghost") .empty none))]⟩]
  objects := [⟨"star", .empty, .empty, .empty, .empty, .empty⟩]
  sounds := []
  music := .empty
where
  /-- A choice of a single action. -/
  choose (a : Action) : Action := .choice [⟨a, none, none⟩] .empty .empty

theorem rulewise_nestedGhost : rulewise nestedGhost = .ok (rulewiseFindings nestedGhost) :=
  rulewise_ok_iff.mpr ⟨by decide +kernel, rfl⟩

theorem resolution_iff_nestedGhost :
    ∃ findings, rulewise nestedGhost = .ok findings ∧
      ((∀ f ∈ findings, ∀ c ∈ referenceCodes, f.label ≠ .listed c) ↔
        ∀ n ≤ 1, ∀ x, nestedGhost.Mentions n x → nestedGhost.Defines x) ∧
      ((∀ f ∈ findings, ∀ c ∈ referenceCodes, f.label ≠ .listed c) →
        ((∀ n x, nestedGhost.Mentions n x → nestedGhost.Defines x) ↔
          ∀ n ≥ 2, ∀ x, nestedGhost.Mentions n x → nestedGhost.Defines x)) :=
  ⟨_, rulewise_nestedGhost, resolution_iff rulewise_nestedGhost⟩

/-- No finding is about the object that does not exist. -/
theorem nestedGhost_unresolved :
    ∃ findings, rulewise nestedGhost = .ok findings ∧
      (∀ f ∈ findings, ∀ c ∈ referenceCodes, f.label ≠ .listed c) ∧
      nestedGhost.Mentions 2 (.object "ghost") ∧ ¬ nestedGhost.Defines (.object "ghost") := by
  have hundefined : "ghost" ∉ nestedGhost.objectIds := by decide
  have hinside : .hide (.value "ghost") .empty none ∈ Action.inside 2 (nestedGhost.choose
      (nestedGhost.choose (.hide (.value "ghost") .empty none))) := List.mem_cons_self
  have hmentions : nestedGhost.Mentions 2 (.object "ghost") :=
    .done List.mem_cons_self (List.mem_cons_of_mem _ List.mem_cons_self) hinside List.mem_cons_self
  exact ⟨_, rulewise_nestedGhost, by decide +kernel, hmentions, hundefined⟩

end Check

end TouchGame
