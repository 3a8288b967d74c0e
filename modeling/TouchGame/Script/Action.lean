import TouchGame.Script.Extra
import TouchGame.Script.Shape

/-!
# Actions

What a rule does when it fires. A choice holds further actions of which one is picked at random, to
any depth. An action whose type is none of the known ones keeps its type and all its other fields as
they were written.

* `Action.kind` : the type of an action as it is written.
* `Action.part` : the fields of an action, those of nested actions included.
* `Action.decode` : an action read from a document, with a bounded number of choices around it.
* `Action.nested_induction` : induction over what choices may pick.
-/

namespace TouchGame

/-- An action that a choice may pick. -/
structure ChoiceOption (α : Type) where
  action : α
  weight : Option Number
  probability : Option Number

/-- An action of a rule. -/
inductive Action where
  | success (score : Option Number) (message : Slot String)
  | failure (score : Option Number) (message : Slot String)
  | hide (target : Slot String) (fadeOut : Slot Bool) (duration : Option Number)
  | reveal (target : Slot String) (fadeIn : Slot Bool) (duration : Option Number)
  | move (target : Slot String) (movement : Slot Movement)
  | followDrag (target constraint : Slot String) (smooth : Slot Bool)
  | applyForce (target : Slot String) (force : Slot Point)
  | applyImpulse (target : Slot String) (impulse : Slot Point)
  | setGravity (target : Slot String) (gravity : Option Number)
  | setPhysics (target : Slot String) (physics : Slot Json.Fields)
  | counter (counter operation : Slot String) (value : Option Number)
  | addScore (points : Option Number)
  | setFlag (flag : Slot String) (value : Slot Bool)
  | toggleFlag (flag : Slot String)
  | effect (target : Slot String) (effect : Slot Effect)
  | playSound (sound : Slot String) (volume : Option Number)
  | stopSound (sound : Slot String)
  | playMusic (volume : Option Number)
  | stopMusic
  | switchAnimation (target : Slot String) (index startFrame : Option Number)
      (autoPlay loop : Slot Bool) (speed : Option Number) (reverse : Slot Bool)
  | playAnimation (target : Slot String) (play : Slot Bool)
  | setAnimationSpeed (target : Slot String) (speed : Option Number)
  | setAnimationFrame (target : Slot String) (frame : Option Number)
  | showMessage (message : Slot String) (duration : Option Number)
  | pause (duration : Option Number)
  | restart
  | choice (options : List (ChoiceOption Action)) (mode : Slot String) (weights : Slot (List Number))
  | unknown (type : Json) (extras : List Extra)

namespace Action

/-- The word for the type of a known action. -/
def word? : Action → Option String
  | .success .. => some "success"
  | .failure .. => some "failure"
  | .hide .. => some "hide"
  | .reveal .. => some "show"
  | .move .. => some "move"
  | .followDrag .. => some "followDrag"
  | .applyForce .. => some "applyForce"
  | .applyImpulse .. => some "applyImpulse"
  | .setGravity .. => some "setGravity"
  | .setPhysics .. => some "setPhysics"
  | .counter .. => some "counter"
  | .addScore .. => some "addScore"
  | .setFlag .. => some "setFlag"
  | .toggleFlag .. => some "toggleFlag"
  | .effect .. => some "effect"
  | .playSound .. => some "playSound"
  | .stopSound .. => some "stopSound"
  | .playMusic .. => some "playBGM"
  | .stopMusic => some "stopBGM"
  | .switchAnimation .. => some "switchAnimation"
  | .playAnimation .. => some "playAnimation"
  | .setAnimationSpeed .. => some "setAnimationSpeed"
  | .setAnimationFrame .. => some "setAnimationFrame"
  | .showMessage .. => some "showMessage"
  | .pause .. => some "pause"
  | .restart => some "restart"
  | .choice .. => some "randomAction"
  | .unknown .. => none

/-- The type of an action as it is written. -/
def kind : Action → Json
  | .unknown type _ => type
  | a => .str (a.word?.getD "")

def kindText? (a : Action) : Option String :=
  a.kind.text?

/-- The actions that a choice may pick, none for any other action. -/
def picks : Action → List Action
  | .choice options .. => options.map (·.action)
  | _ => []

/-- The object field of an action, whatever its type. -/
def target? : Action → Option (Slot String)
  | .hide target .. | .reveal target .. | .move target _ | .followDrag target .. | .applyForce target _
  | .applyImpulse target _ | .setGravity target _ | .setPhysics target _ | .effect target _
  | .switchAnimation target .. | .playAnimation target _ | .setAnimationSpeed target _
  | .setAnimationFrame target _ => some target
  | .unknown _ extras => match Extra.held? extras Field.targetId.name with
    | some (.str id) => some (.value id)
    | _ => none
  | _ => none

/-- The object field of an action that works on an object and falls back on the rule's own. -/
def worksOn? : Action → Option (Slot String)
  | .hide target .. | .reveal target .. | .move target _ | .followDrag target .. | .applyForce target _
  | .applyImpulse target _ | .effect target _ | .switchAnimation target .. | .playAnimation target _ =>
    some target
  | _ => none

/-! ## Fields -/

/-- The fields of a known action that is no choice, behind its type. -/
def plainParts : Action → List (Key × Part Action)
  | .success s m => [
    (Field.score, .number? s (.success · m)),
    (Field.message, .text? m (.success s ·))]
  | .failure s m => [
    (Field.score, .number? s (.failure · m)),
    (Field.message, .text? m (.failure s ·))]
  | .hide t f d => [
    (Field.targetId, .text? t (.hide · f d)),
    (Field.fadeOut, .flag? f (.hide t · d)),
    (Field.duration, .number? d (.hide t f ·))]
  | .reveal t f d => [
    (Field.targetId, .text? t (.reveal · f d)),
    (Field.fadeIn, .flag? f (.reveal t · d)),
    (Field.duration, .number? d (.reveal t f ·))]
  | .move t m => [
    (Field.targetId, .text? t (.move · m)),
    (Field.movement, .inner Movement.part m (.move t ·))]
  | .followDrag t c s => [
    (Field.targetId, .text? t (.followDrag · c s)),
    (Field.constraint, .text? c (.followDrag t · s)),
    (Field.smooth, .flag? s (.followDrag t c ·))]
  | .applyForce t f => [
    (Field.targetId, .text? t (.applyForce · f)),
    (Field.force, .inner (Point.part "Vector") f (.applyForce t ·))]
  | .applyImpulse t i => [
    (Field.targetId, .text? t (.applyImpulse · i)),
    (Field.impulse, .inner (Point.part "Vector") i (.applyImpulse t ·))]
  | .setGravity t g => [
    (Field.targetId, .text? t (.setGravity · g)),
    (Field.gravity, .number? g (.setGravity t ·))]
  | .setPhysics t p => [
    (Field.targetId, .text? t (.setPhysics · p)),
    (Field.physics, .slot Part.object p (.setPhysics t ·))]
  | .counter n o v => [
    (Field.counterName, .text? n (.counter · o v)),
    (Field.operation, .text? o (.counter n · v)),
    (Field.value, .number? v (.counter n o ·))]
  | .addScore p => [
    (Field.points, .number? p .addScore)]
  | .setFlag f v => [
    (Field.flagId, .text? f (.setFlag · v)),
    (Field.value, .flag? v (.setFlag f ·))]
  | .toggleFlag f => [
    (Field.flagId, .text? f .toggleFlag)]
  | .effect t e => [
    (Field.targetId, .text? t (.effect · e)),
    (Field.effect, .inner Effect.part e (.effect t ·))]
  | .playSound s v => [
    (Field.soundId, .text? s (.playSound · v)),
    (Field.volume, .number? v (.playSound s ·))]
  | .stopSound s => [
    (Field.soundId, .text? s .stopSound)]
  | .playMusic v => [
    (Field.volume, .number? v .playMusic)]
  | .stopMusic => []
  | .switchAnimation t i f a l s r => [
    (Field.targetId, .text? t (.switchAnimation · i f a l s r)),
    (Field.animationIndex, .number? i (.switchAnimation t · f a l s r)),
    (Field.startFrame, .number? f (.switchAnimation t i · a l s r)),
    (Field.autoPlay, .flag? a (.switchAnimation t i f · l s r)),
    (Field.loop, .flag? l (.switchAnimation t i f a · s r)),
    (Field.speed, .number? s (.switchAnimation t i f a l · r)),
    (Field.reverse, .flag? r (.switchAnimation t i f a l s ·))]
  | .playAnimation t p => [
    (Field.targetId, .text? t (.playAnimation · p)),
    (Field.play, .flag? p (.playAnimation t ·))]
  | .setAnimationSpeed t s => [
    (Field.targetId, .text? t (.setAnimationSpeed · s)),
    (Field.speed, .number? s (.setAnimationSpeed t ·))]
  | .setAnimationFrame t f => [
    (Field.targetId, .text? t (.setAnimationFrame · f)),
    (Field.frame, .number? f (.setAnimationFrame t ·))]
  | .showMessage m d => [
    (Field.message, .text? m (.showMessage · d)),
    (Field.duration, .number? d (.showMessage m ·))]
  | .pause d => [
    (Field.duration, .number? d .pause)]
  | .restart => []
  | .choice .. | .unknown .. => []

def noun : Action → String
  | .choice .. => "RandomAction"
  | a => (a.word?.getD "unknown").capitalize ++ "Action"

mutual

/-- An action as a record: its type, then its other fields. -/
def part : Action → Part Action
  | .choice options mode weights =>
    .record (Action.choice [] .empty .empty).noun [
      (Field.type, .text "randomAction"),
      (Field.actions, .itemsOf (optionParts options) options (.choice · mode weights)),
      (Field.selectionMode, .text? mode (.choice options · weights)),
      (Field.weights, .numbers? weights (.choice options mode ·))]
  | .unknown type extras => .ofExtras type extras .unknown
  | a => .record a.noun ((Field.type, .leaf a.kind .other) :: a.plainParts)

/-- The options of a choice, each as a record. -/
def optionParts : List (ChoiceOption Action) → List (Part (ChoiceOption Action))
  | [] => []
  | ⟨action, weight, probability⟩ :: rest =>
    .record "RandomActionOption" [
      (Field.action, (part action).map (⟨·, weight, probability⟩)),
      (Field.weight, .number? weight (⟨action, ·, probability⟩)),
      (Field.probability, .number? probability (⟨action, weight, ·⟩))] :: optionParts rest

end

/-! ## Reading -/

open Decode in
/-- The action of a type, from its other fields; an unknown type or a choice gives none. -/
def decodeKnown? (fields : Json.Fields) : String → Option (Decoded Action)
  | "success" => some <| .success <$> optionalNumber fields Field.score quantity
      <*> optional fields Field.message text
  | "failure" => some <| .failure <$> optionalNumber fields Field.score quantity
      <*> optional fields Field.message text
  | "hide" => some <| .hide <$> optional fields Field.targetId text
      <*> optional fields Field.fadeOut flag <*> optionalNumber fields Field.duration real
  | "show" => some <| .reveal <$> optional fields Field.targetId text
      <*> optional fields Field.fadeIn flag <*> optionalNumber fields Field.duration real
  | "move" => some <| .move <$> optional fields Field.targetId text
      <*> optional fields Field.movement Movement.decode
  | "followDrag" => some <| .followDrag <$> optional fields Field.targetId text
      <*> optional fields Field.constraint text <*> optional fields Field.smooth flag
  | "applyForce" => some <| .applyForce <$> optional fields Field.targetId text
      <*> optional fields Field.force (Point.decode "Vector")
  | "applyImpulse" => some <| .applyImpulse <$> optional fields Field.targetId text
      <*> optional fields Field.impulse (Point.decode "Vector")
  | "setGravity" => some <| .setGravity <$> optional fields Field.targetId text
      <*> optionalNumber fields Field.gravity real
  | "setPhysics" => some <| .setPhysics <$> optional fields Field.targetId text
      <*> optional fields Field.physics Decode.fields
  | "counter" => some <| .counter <$> optional fields Field.counterName text
      <*> optional fields Field.operation text <*> optionalNumber fields Field.value quantity
  | "addScore" => some <| .addScore <$> optionalNumber fields Field.points quantity
  | "setFlag" => some <| .setFlag <$> optional fields Field.flagId text
      <*> optional fields Field.value flag
  | "toggleFlag" => some <| .toggleFlag <$> optional fields Field.flagId text
  | "effect" => some <| .effect <$> optional fields Field.targetId text
      <*> optional fields Field.effect Effect.decode
  | "playSound" => some <| .playSound <$> optional fields Field.soundId text
      <*> optionalNumber fields Field.volume real
  | "stopSound" => some <| .stopSound <$> optional fields Field.soundId text
  | "playBGM" => some <| .playMusic <$> optionalNumber fields Field.volume real
  | "stopBGM" => some (.ok .stopMusic)
  | "switchAnimation" => some <| .switchAnimation <$> optional fields Field.targetId text
      <*> optionalNumber fields Field.animationIndex integer
      <*> optionalNumber fields Field.startFrame integer <*> optional fields Field.autoPlay flag
      <*> optional fields Field.loop flag <*> optionalNumber fields Field.speed real
      <*> optional fields Field.reverse flag
  | "playAnimation" => some <| .playAnimation <$> optional fields Field.targetId text
      <*> optional fields Field.play flag
  | "setAnimationSpeed" => some <| .setAnimationSpeed <$> optional fields Field.targetId text
      <*> optionalNumber fields Field.speed real
  | "setAnimationFrame" => some <| .setAnimationFrame <$> optional fields Field.targetId text
      <*> optionalNumber fields Field.frame integer
  | "showMessage" => some <| .showMessage <$> optional fields Field.message text
      <*> optionalNumber fields Field.duration real
  | "pause" => some <| .pause <$> optionalNumber fields Field.duration real
  | "restart" => some (.ok .restart)
  | _ => none

def mostChoices : Nat := 126

def inChoices (choices : Nat) (read : Decoded Action) : Decoded Action :=
  if mostChoices < choices then .fail .tooDeep else read

/-- An action that is no choice, with some choices around it; complaints name the type behind the
index. -/
def decodePlain (choices : Nat) (fields : Json.Fields) (type : Json) : Decoded Action :=
  match type.text?.bind fun word => (decodeKnown? fields word).map fun d => (word, d) with
  | some (word, known) => (inChoices choices known).within (.name word)
  | none => (inChoices choices ((Extra.decode fields).map (.unknown type))).within (.name "unknown")

open Decode in
mutual

/-- An action with some choices around it; complaints name the type behind the index. -/
def decodeIn (choices : Nat) : Json → Decoded Action
  | .obj fields =>
    match (Json.get? fields Field.type.wire).getD .null with
    | .str "randomAction" =>
      let choice := Action.choice <$> decodeOptionsField choices fields
        <*> optional fields Field.selectionMode text
        <*> optional fields Field.weights (list real)
      (inChoices choices choice).within (.name "randomAction")
    | type => decodePlain choices fields type
  | _ => (inChoices choices (.fail (.notRecord "UnknownAction"))).within (.name "unknown")
termination_by structural value => value

/-- The options among the fields of a choice; none if the field is missing. -/
def decodeOptionsField (choices : Nat) :
    List (String × Json) → Decoded (List (ChoiceOption Action))
  | [] => .ok []
  | (name, value) :: rest =>
    if name == Field.actions.wire then (decodeOptionList choices value).within (.name name)
    else decodeOptionsField choices rest
termination_by structural fields => fields

def decodeOptionList (choices : Nat) : Json → Decoded (List (ChoiceOption Action))
  | .arr items => decodeOptions choices 0 items
  | _ => .fail .notList
termination_by structural value => value

/-- The options of a choice from an index on. -/
def decodeOptions (choices index : Nat) : List Json → Decoded (List (ChoiceOption Action))
  | [] => .ok []
  | item :: rest =>
    List.cons <$> (decodeOption choices item).within (.index index)
      <*> decodeOptions choices (index + 1) rest
termination_by structural items => items

/-- One option of a choice, whose action has that choice around it too. -/
def decodeOption (choices : Nat) : Json → Decoded (ChoiceOption Action)
  | .obj fields =>
    ChoiceOption.mk <$> decodeActionField choices fields
      <*> optionalNumber fields Field.weight real
      <*> optionalNumber fields Field.probability real
  | _ => .fail (.notRecord "RandomActionOption")
termination_by structural value => value

/-- The action among the fields of an option. -/
def decodeActionField (choices : Nat) : List (String × Json) → Decoded Action
  | [] => (Decoded.fail .missing).within (.name Field.action.wire)
  | (name, value) :: rest =>
    if name == Field.action.wire then (decodeIn (choices + 1) value).within (.name name)
    else decodeActionField choices rest
termination_by structural fields => fields

end

/-- An action of a rule. -/
def decode : Json → Decoded Action :=
  decodeIn 0

/-! ## Choices inside choices -/

/-- Whether an action is a choice. -/
def isChoice : Action → Bool
  | .choice .. => true
  | _ => false

theorem ne_choice {a : Action} (h : a.isChoice = false) (options : List (ChoiceOption Action))
    (mode : Slot String) (weights : Slot (List Number)) : a = .choice options mode weights → False := by
  rintro rfl
  cases h

theorem picks_of_plain {a : Action} (h : a.isChoice = false) : a.picks = [] := by
  cases a <;> first | rfl | cases h

mutual

/-- What holds of an action that is no choice, and of a choice if it holds of all that it may pick,
holds of every action. -/
theorem nested_induction {motive : Action → Prop} (plain : ∀ a, a.isChoice = false → motive a)
    (choice : ∀ options mode weights, (∀ o ∈ options, motive o.action) →
      motive (.choice options mode weights)) : ∀ a, motive a
  | .choice options mode weights => choice options mode weights (nested_options plain choice options)
  | .success .. | .failure .. | .hide .. | .reveal .. | .move .. | .followDrag .. | .applyForce ..
  | .applyImpulse .. | .setGravity .. | .setPhysics .. | .counter .. | .addScore .. | .setFlag ..
  | .toggleFlag .. | .effect .. | .playSound .. | .stopSound .. | .playMusic .. | .stopMusic
  | .switchAnimation .. | .playAnimation .. | .setAnimationSpeed .. | .setAnimationFrame ..
  | .showMessage .. | .pause .. | .restart | .unknown .. => plain _ rfl

theorem nested_options {motive : Action → Prop} (plain : ∀ a, a.isChoice = false → motive a)
    (choice : ∀ options mode weights, (∀ o ∈ options, motive o.action) →
      motive (.choice options mode weights)) :
    ∀ options : List (ChoiceOption Action), ∀ o ∈ options, motive o.action
  | [], _, h => nomatch h
  | ⟨a, _, _⟩ :: _, _, .head _ => nested_induction plain choice a
  | _ :: rest, o, .tail _ h => nested_options plain choice rest o h

end

end Action

end TouchGame
