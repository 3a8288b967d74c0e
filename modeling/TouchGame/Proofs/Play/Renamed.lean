import Mathlib.Logic.Equiv.Basic
import TouchGame.Proofs.Check.Loading
import TouchGame.Proofs.Play.Likeness
import TouchGame.Proofs.Play.Replay

/-!
# Names do not matter for winning

A rule-set under new names is the rule-set with every name of an object, counter, flag or rule replaced, in
the layout, the counters, the rules and the asset plan, and within the picks of choices. It is like the old
one, rule by rule, so a search for a way to win takes the same turns: nothing in it depends on how names
are spelled or ordered.

* `Action.rename`, `Rule.rename`, `Game.rename` : rule-sets under new names.
* `after_rename`, `rule_like`, `game_like` : they act on states under new names as before.
* `Motion`, `Outline` : what is reported about winning, without texts.
* `explore_rename` : under new names the report is the same, with the objects of its moves renamed.
-/

namespace TouchGame

/-! ## Rule-sets under new names -/

/-- Where a movement leads, under new names. -/
def Goal.rename (ρ : Renaming) : Goal → Goal
  | .point p => .point p
  | .object id => .object (ρ.object id)

/-- A movement under new names. -/
def Movement.rename (ρ : Renaming) (m : Movement) : Movement :=
  { m with target := m.target.mapValue (Goal.rename ρ) }

namespace Action

mutual

/-- An action under new names, with all that it may pick. -/
def rename (ρ : Renaming) : Action → Action
  | .hide target fadeOut duration => .hide (target.mapValue ρ.object) fadeOut duration
  | .reveal target fadeIn duration => .reveal (target.mapValue ρ.object) fadeIn duration
  | .move target movement => .move (target.mapValue ρ.object) (movement.mapValue (Movement.rename ρ))
  | .followDrag target constraint smooth => .followDrag (target.mapValue ρ.object) constraint smooth
  | .applyForce target force => .applyForce (target.mapValue ρ.object) force
  | .applyImpulse target impulse => .applyImpulse (target.mapValue ρ.object) impulse
  | .setGravity target gravity => .setGravity (target.mapValue ρ.object) gravity
  | .setPhysics target physics => .setPhysics (target.mapValue ρ.object) physics
  | .counter name operation value => .counter (name.mapValue ρ.counter) operation value
  | .setFlag flag value => .setFlag (flag.mapValue ρ.flag) value
  | .toggleFlag flag => .toggleFlag (flag.mapValue ρ.flag)
  | .effect target look => .effect (target.mapValue ρ.object) look
  | .switchAnimation target index startFrame autoPlay loop speed reverse =>
    .switchAnimation (target.mapValue ρ.object) index startFrame autoPlay loop speed reverse
  | .playAnimation target play => .playAnimation (target.mapValue ρ.object) play
  | .setAnimationSpeed target speed => .setAnimationSpeed (target.mapValue ρ.object) speed
  | .setAnimationFrame target frame => .setAnimationFrame (target.mapValue ρ.object) frame
  | .choice options mode weights => .choice (renameOptions ρ options) mode weights
  | .unknown type extras => .unknown type (extras.map (Extra.rename Field.targetId ρ.object))
  | a => a

def renameOptions (ρ : Renaming) : List (ChoiceOption Action) → List (ChoiceOption Action)
  | [] => []
  | ⟨a, weight, probability⟩ :: rest => ⟨rename ρ a, weight, probability⟩ :: renameOptions ρ rest

end

end Action

/-- A trigger under new names. -/
def Trigger.rename (ρ : Renaming) (t : Trigger) : Trigger :=
  { t with conditions := t.conditions.map (Condition.rename ρ) }

/-- A rule under new names. -/
def Rule.rename (ρ : Renaming) (r : Rule) : Rule :=
  { r with
    id := ρ.rule r.id
    targetObject := r.targetObject.mapValue ρ.object
    trigger := r.trigger.mapValue (Trigger.rename ρ)
    actions := r.actions.map (Action.rename ρ) }

/-- A rule-set under new names. -/
def Game.rename (ρ : Renaming) (g : Game) : Game :=
  { g with
    layout := g.layout.map fun p => { p with object := ρ.object p.object }
    counters := g.counters.map fun c => { c with id := ρ.counter c.id }
    rules := g.rules.map (Rule.rename ρ)
    objects := g.objects.map fun o => { o with id := ρ.object o.id } }

/-- What touch conditions are about, after `self` is resolved, is no number. -/
def Game.TouchesNoNumber (g : Game) : Prop :=
  ∀ r ∈ g.rules, ∀ target touchType n, .touch target touchType ∈ r.conditions →
    r.resolve target ≠ .number n

namespace Play

variable {ρ : Renaming} {settings : Settings} {g : Game} {r : Rule}

/-! ## Rules under new names -/

theorem kindText?_rename (a : Action) : (a.rename ρ).kindText? = a.kindText? := by
  cases a <;> rfl

theorem changeOf?_rename (counter : String) (a : Action) :
    changeOf? (ρ.counter counter) (a.rename ρ) = changeOf? counter a := by
  cases a with
  | counter name operation value =>
    cases name with
    | value name =>
      rw [Action.rename, Slot.mapValue, changeOf?, changeOf?, ρ.counter_injective.beq_eq]
    | _ => rfl
  | _ => rfl

theorem settingOf?_of_ne {operation : Slot String} (h : operation ≠ .value "set") (counter : String)
    (name : Slot String) (value : Option Number) :
    settingOf? counter (.counter name operation value) = none := by
  unfold settingOf?
  split
  · rename_i heq
    cases heq
    exact absurd rfl h
  · rfl

theorem settingOf?_rename (counter : String) (a : Action) :
    settingOf? (ρ.counter counter) (a.rename ρ) = settingOf? counter a := by
  cases a with
  | counter name operation value =>
    rw [Action.rename]
    by_cases hset : operation = .value "set"
    · subst hset
      cases name with
      | value name => rw [Slot.mapValue, settingOf?, settingOf?, ρ.counter_injective.beq_eq]
      | _ => rfl
    · rw [settingOf?_of_ne hset, settingOf?_of_ne hset]
  | _ => rfl

theorem conditions_rename : (r.rename ρ).conditions = r.conditions.map (Condition.rename ρ) := by
  rw [Rule.conditions, Rule.conditions, Rule.rename]
  cases r.trigger <;> rfl

theorem operator_rename : (r.rename ρ).operator = r.operator := by
  rw [Rule.operator, Rule.operator, Rule.rename]
  cases r.trigger <;> rfl

/-- An action under new names acts on a state under new names as before. -/
theorem after_rename (s : State) (a : Action) :
    State.after (r.rename ρ) (s.rename ρ) (a.rename ρ) = (State.after r s a).map (State.rename ρ) := by
  cases a with
  | hide target fadeOut duration =>
    rw [Action.rename, State.after, State.after, resolve_rename rfl,
      Slot.text?_mapValue ρ.object_injective ρ.object_empty]
    cases (r.resolve target).text? with
    | none => rfl
    | some object => exact congrArg Except.ok (State.hide_rename ρ s object)
  | reveal target fadeIn duration =>
    rw [Action.rename, State.after, State.after, resolve_rename rfl,
      Slot.text?_mapValue ρ.object_injective ρ.object_empty]
    cases (r.resolve target).text? with
    | none => rfl
    | some object => exact congrArg Except.ok (State.reveal_rename ρ s object)
  | counter name operation value =>
    rw [Action.rename, State.after, State.after,
      Slot.text?_mapValue ρ.counter_injective ρ.counter_empty]
    cases name.text? with
    | none => rfl
    | some counter => exact State.operate_rename ρ s counter operation value
  | setFlag flag value =>
    rw [Action.rename, State.after, State.after, Slot.text?_mapValue ρ.flag_injective ρ.flag_empty]
    cases flag.text? with
    | none => rfl
    | some flag => exact congrArg Except.ok (State.setFlag_rename ρ s flag (flagValue value))
  | toggleFlag flag =>
    rw [Action.rename, State.after, State.after, Slot.text?_mapValue ρ.flag_injective ρ.flag_empty]
    cases flag.text? with
    | none => rfl
    | some flag =>
      dsimp only [Option.map_some]
      rw [State.flag_rename, State.setFlag_rename]
      rfl
  | success => exact congrArg Except.ok (State.finish_rename ρ s .success)
  | failure => exact congrArg Except.ok (State.finish_rename ρ s .failure)
  | unknown type extras =>
    rw [Action.rename, State.after, State.after]
    cases type.typeFault? <;> rfl
  | _ => rfl

theorem fire_rename (s : State) :
    (s.rename ρ).fire (r.rename ρ) = (s.fire r).map (State.rename ρ) := by
  have hrun (actions : List Action) (s : State) :
      (actions.map (Action.rename ρ)).foldlM (State.after (r.rename ρ)) (s.rename ρ) =
        (actions.foldlM (State.after r) s).map (State.rename ρ) := by
    induction actions generalizing s with
    | nil => rfl
    | cons a rest ih =>
      rw [List.map_cons, List.foldlM_cons, List.foldlM_cons, after_rename]
      cases State.after r s a with
      | error fault => rfl
      | ok next => exact ih next
  exact hrun r.actions s

theorem rule_like (h : ∀ target touchType n, .touch target touchType ∈ r.conditions →
    r.resolve target ≠ .number n) : RuleLike ρ r (r.rename ρ) where
  named := rfl
  target := rfl
  operator := operator_rename
  conditions := conditions_rename
  wins := by
    rw [Rule.fires, Rule.fires, Rule.rename, List.any_map]
    exact congrArg r.actions.any (funext fun a => congrArg (· == some "success") (kindText?_rename a))
  fire := fire_rename
  changes counter := by
    rw [Rule.rename, List.filterMap_map]
    exact List.filterMap_congr fun a _ => changeOf?_rename counter a
  settings counter := by
    rw [Rule.rename, List.filterMap_map]
    exact List.filterMap_congr fun a _ => settingOf?_rename counter a
  touched target touchType n hc hn := absurd hn (h target touchType n hc)

theorem initial_rename : State.initial (g.rename ρ) = (State.initial g).rename ρ := by
  have hcounters (counters : List Counter) (table : Table Number) :
      (counters.map fun c => { c with id := ρ.counter c.id }).foldl
          (fun table c => table.put c.id c.initialValue) (table.rename ρ.counter) =
        (counters.foldl (fun table c => table.put c.id c.initialValue) table).rename ρ.counter := by
    induction counters generalizing table with
    | nil => rfl
    | cons c rest ih =>
      rw [List.map_cons, List.foldl_cons, List.foldl_cons, Table.put_rename ρ.counter_injective]
      exact ih _
  have hvisible : ((g.layout.map fun p => { p with object := ρ.object p.object }).map (·.object)).eraseDups =
      (g.layout.map (·.object)).eraseDups.map ρ.object := by
    rw [← eraseDups_renamed ρ.object_injective, List.map_map, List.map_map]
    rfl
  exact congrArg₂ (fun counters visible => { State.empty with counters := counters, visible := visible })
    (hcounters g.counters []) hvisible

theorem game_like (h : g.TouchesNoNumber) : GameLike ρ g (g.rename ρ) where
  rules := by
    rw [Game.rename, List.forall₂_map_right_iff, List.forall₂_same]
    exact fun r hr => rule_like (h r hr)
  initial := initial_rename

/-! ## Reports -/

/-- A move without what comes of it. -/
inductive Motion where
  | touch (gesture : Gesture) (target : String)
  | wait (seconds : Number)
  deriving DecidableEq, Repr

namespace Motion

/-- A motion under new names. -/
def rename (ρ : Renaming) : Motion → Motion
  | .touch gesture target => .touch gesture (ρ.object target)
  | .wait seconds => .wait seconds

end Motion

def Move.motion : Move → Motion
  | .touch gesture target _ => .touch gesture target
  | .wait seconds _ => .wait seconds

/-- What is reported about winning, without texts: whether the game can be won, with how many taps, in how
many seconds, and by which motions, if by any. -/
structure Outline where
  reachable : Bool
  taps : Int
  seconds : Number
  motions : Option (List Motion)
  deriving DecidableEq, Repr

namespace Outline

/-- An outline under new names. -/
def rename (ρ : Renaming) (o : Outline) : Outline :=
  { o with motions := o.motions.map (·.map (Motion.rename ρ)) }

end Outline

namespace Prospect

/-- The outline of a prospect. -/
def outline (found : Prospect) : Outline where
  reachable := found.isReachable
  taps := found.tapCount
  seconds := found.estimatedSeconds
  motions := match found with
    | .reachable walk => some (walk.moves.map (·.motion))
    | .blocked _ => none

end Prospect

theorem ProspectLike.outline {found found' : Prospect} (h : ProspectLike ρ found found') :
    found'.outline = found.outline.rename ρ := by
  cases h with
  | blocked => rfl
  | @reachable walk walk' h =>
    have hmotions : walk'.moves.map (·.motion) = (walk.moves.map (·.motion)).map (Motion.rename ρ) := by
      have hmoves := h.moves
      generalize walk.moves = moves, walk'.moves = moves' at hmoves ⊢
      induction hmoves with
      | nil => rfl
      | cons hmove _ ih =>
        rw [List.map_cons, List.map_cons, List.map_cons, ih]
        cases hmove <;> rfl
    simp only [Prospect.outline, Outline.rename, Prospect.isReachable, Prospect.tapCount,
      Prospect.estimatedSeconds, Option.map_some, h.taps, h.time, hmotions]

/-- **Names do not matter for winning.** Give the objects, counters, flags and rules of a rule-set new
names, different ones for different ones, and leave the empty name and the special targets alone. A search
fails as before, or it says as before whether the game can be won, with as many taps, in as many seconds,
and by motions of the same kinds and durations, with the objects renamed. -/
theorem explore_rename (ρ : Renaming) (settings : Settings) (h : g.TouchesNoNumber) :
    (explore settings (g.rename ρ)).map (·.prospect.outline) =
      (explore settings g).map fun report => report.prospect.outline.rename ρ := by
  have hlike : Matched Eq (fun report report' => ProspectLike ρ report.prospect report'.prospect)
      (explore settings g) (explore settings (g.rename ρ)) := explore_like (game_like h)
  generalize explore settings g = found, explore settings (g.rename ρ) = found' at hlike ⊢
  cases hlike with
  | error h =>
    cases h
    rfl
  | ok h => exact congrArg Except.ok h.outline

/-- Names by which `threeTaps` is about a moon that scores points. -/
def moonlight : Renaming :=
  { Renaming.same with
    object := Equiv.swap "star" "moon"
    counter := Equiv.swap "score" "points"
    rule := fun id => id ++ " at night"
    object_injective := Equiv.injective _
    counter_injective := Equiv.injective _
    object_empty := by decide
    counter_empty := by decide
    object_special := by decide }

theorem threeTaps_touchesNoNumber : threeTaps.TouchesNoNumber := by
  intro r hr target touchType n hc
  rcases List.mem_cons.mp hr with rfl | hr
  · cases List.mem_singleton.mp hc
    exact nofun
  · cases List.mem_singleton.mp hr
    cases List.mem_singleton.mp hc

theorem explore_rename_moonlight :
    threeTaps.TouchesNoNumber ∧
      (explore .standard (threeTaps.rename moonlight)).map (·.prospect.outline) =
        (explore .standard threeTaps).map (fun report => report.prospect.outline.rename moonlight) ∧
      (explore .standard (threeTaps.rename moonlight)).map (·.prospect.outline) =
        .ok ⟨true, 3, .thousandths 1500, some (List.replicate 3 (.touch .tap "moon"))⟩ := by
  have hrename := explore_rename moonlight .standard threeTaps_touchesNoNumber
  obtain ⟨report, hreport, hfound⟩ := explore_threeTaps
  refine ⟨threeTaps_touchesNoNumber, hrename, ?_⟩
  rw [hrename, hreport, Except.map, hfound]
  rfl

end Play

/-! ## Rule-sets that load -/

theorem Condition.decode_touch {value : Json} {target touchType : Slot String}
    (h : Condition.decode value = .ok (.touch target touchType)) (n : Number) : target ≠ .number n := by
  obtain ⟨fields, -, ⟨word, -, hread⟩ | ⟨extras, heq, -, -⟩⟩ := Condition.decode_cases h
  · cases Condition.decodeKnown?_word hread rfl
    have hgives := Decoded.gives (Option.some.inj hread)
    simp only [Decoded.seq_gives_iff, Decoded.map_gives_iff] at hgives
    obtain ⟨_, htarget, _, _, heq⟩ := hgives
    cases heq
    exact Decode.optional_ok htarget n
  · cases heq

theorem Rule.decode_targetObject {value : Json} {r : Rule} (h : Rule.decode value = .ok r) (n : Number) :
    r.targetObject ≠ .number n := by
  obtain ⟨fields, hread⟩ := Decode.record_ok h
  have hgives := Decoded.gives hread
  simp only [Decoded.seq_gives_iff, Decoded.map_gives_iff] at hgives
  obtain ⟨_, _, _, _, object, hobject, _, _, _, _, rfl⟩ := hgives
  exact Decode.optional_ok hobject n

theorem touchesNoNumber_of_load {document : Json} {g : Game} (h : Check.load document = .ok g) :
    g.TouchesNoNumber := by
  intro r hr target touchType n hc
  obtain ⟨item, hitem⟩ := Game.decode_rules (decode_of_load h) r hr
  obtain ⟨value, hvalue⟩ := Rule.decode_conditions hitem _ hc
  cases target with
  | empty => exact Rule.decode_targetObject hitem n
  | number m => exact absurd rfl (Condition.decode_touch hvalue m)
  | value name =>
    by_cases hself : name = "self"
    · rw [hself]
      exact Rule.decode_targetObject hitem n
    · rw [Play.resolve_value r hself]
      exact nofun

end TouchGame
