import TouchGame.Proofs.Mending.Action
import TouchGame.Proofs.Places.Extra

/-!
# Records that take numbers

The law of every record of a rule-set below its rules: a number that is put into it, wherever a path
leads, rewrites one leaf of what is seen of it, and the path finds the number.

* `Point.lawful`, `Movement.lawful`, `Placement.lawful`, .. : records whose fields are all known.
* `Condition.found`, `Action.found` : what paths find where a type is unknown.
* `Condition.lawful`, `Action.lawful` : conditions, and actions with all that they may pick.
-/

namespace TouchGame

/-! ## Shapes -/

theorem Point.lawful (noun : String) (p : Point) : Lawful (part noun) (treeOf (part noun)) p := by
  refine .record ?_
  simp only [List.forall_mem_cons]
  refine ⟨(Writes.number _).field ?_, (Writes.number _).field ?_, List.forall_mem_nil _⟩
  all_goals exact ⟨_, rfl, by simp +decide [memberAt?],
    fun _ => ⟨_, rfl, by simp +decide [setMember], _, fun _ _ => Part.record_value? rfl⟩⟩

theorem Region.lawful (r : Region) : Lawful part (treeOf part) r := by
  refine .record ?_
  simp only [List.forall_mem_cons]
  refine ⟨(Writes.number _).field ?_, (Writes.number _).field ?_, (Writes.number? _).field ?_,
    (Writes.number? _).field ?_, List.forall_mem_nil _⟩
  all_goals exact ⟨_, rfl, by simp +decide [memberAt?],
    fun _ => ⟨_, rfl, by simp +decide [setMember], _, fun _ _ => Part.record_value? rfl⟩⟩

theorem Goal.lawful (g : Goal) : Lawful part (treeOf part) g := by
  cases g with
  | point p =>
    refine .map ((p.lawful "Point").mono fun path old n q hq => ⟨hq.1, ?_⟩)
    exact (Part.value?_map _ _ path).trans hq.2
  | object id => exact .text id

theorem Movement.lawful (m : Movement) : Lawful part (treeOf part) m := by
  refine .record ?_
  simp only [List.forall_mem_cons]
  refine ⟨(Writes.text? _).field ?_, (Writes.inner fun g _ => Goal.lawful g).field ?_,
    (Writes.number? _).field ?_, (Writes.number? _).field ?_, (Writes.text? _).field ?_,
    List.forall_mem_nil _⟩
  all_goals exact ⟨_, rfl, by simp +decide [memberAt?],
    fun _ => ⟨_, rfl, by simp +decide [setMember], _, fun _ _ => Part.record_value? rfl⟩⟩

theorem Effect.lawful (e : Effect) : Lawful part (treeOf part) e := by
  refine .record ?_
  simp only [List.forall_mem_cons]
  refine ⟨(Writes.text? _).field ?_, (Writes.number? _).field ?_, (Writes.number? _).field ?_,
    (Writes.number? _).field ?_, List.forall_mem_nil _⟩
  all_goals exact ⟨_, rfl, by simp +decide [memberAt?],
    fun _ => ⟨_, rfl, by simp +decide [setMember], _, fun _ _ => Part.record_value? rfl⟩⟩

/-! ## Layout, counters and the asset plan -/

theorem Placement.lawful (p : Placement) : Lawful part (treeOf part) p := by
  refine .record ?_
  simp only [List.forall_mem_cons]
  refine ⟨.text _, (Writes.mapped (p.position.lawful "Point")).field ?_,
    (Writes.inner fun s _ => Point.lawful "Point" s).field ?_, List.forall_mem_nil _⟩
  all_goals exact ⟨_, rfl, by simp +decide [memberAt?, treeOf],
    fun _ => ⟨_, rfl, by simp +decide [setMember, treeOf], _, fun _ _ => Part.record_value? rfl⟩⟩

theorem Counter.lawful (c : Counter) : Lawful part (treeOf part) c := by
  refine .record ?_
  simp only [List.forall_mem_cons]
  refine ⟨.text _, (Writes.text? _).field ?_, (Writes.number _).field ?_, List.forall_mem_nil _⟩
  all_goals exact ⟨_, rfl, by simp +decide [memberAt?],
    fun _ => ⟨_, rfl, by simp +decide [setMember], _, fun _ _ => Part.record_value? rfl⟩⟩

theorem ObjectPlan.lawful (o : ObjectPlan) : Lawful part (treeOf part) o := by
  refine .record ?_
  simp only [List.forall_mem_cons]
  refine ⟨.text _, (Writes.text? _).field ?_, (Writes.text? _).field ?_, (Writes.text? _).field ?_,
    (Writes.inner fun p _ => Point.lawful "Point" p).field ?_, (Writes.text? _).field ?_,
    List.forall_mem_nil _⟩
  all_goals exact ⟨_, rfl, by simp +decide [memberAt?],
    fun _ => ⟨_, rfl, by simp +decide [setMember], _, fun _ _ => Part.record_value? rfl⟩⟩

theorem SoundPlan.lawful (s : SoundPlan) : Lawful part (treeOf part) s := by
  refine .record ?_
  simp only [List.forall_mem_cons]
  refine ⟨.text _, (Writes.text? _).field ?_, (Writes.text? _).field ?_, List.forall_mem_nil _⟩
  all_goals exact ⟨_, rfl, by simp +decide [memberAt?],
    fun _ => ⟨_, rfl, by simp +decide [setMember], _, fun _ _ => Part.record_value? rfl⟩⟩

theorem MusicPlan.lawful (m : MusicPlan) : Lawful part (treeOf part) m := by
  refine .record ?_
  simp only [List.forall_mem_cons]
  refine ⟨.text _, (Writes.text? _).field ?_, (Writes.text? _).field ?_, List.forall_mem_nil _⟩
  all_goals exact ⟨_, rfl, by simp +decide [memberAt?],
    fun _ => ⟨_, rfl, by simp +decide [setMember], _, fun _ _ => Part.record_value? rfl⟩⟩

/-! ## Conditions -/

namespace Condition

/-- A condition as paths find it. -/
def found : Condition → Condition
  | .unknown type extras => .unknown type (extras.map Extra.found)
  | c => c

def view (c : Condition) : Tree :=
  c.found.part.tree

theorem lawful (c : Condition) : Lawful part view c := by
  cases c with
  | unknown type extras =>
    refine Extra.takes_ofExtras fun path old n type' extras' hrewrites hvalue => ⟨?_, hvalue _⟩
    rw [view, view, found, found, part, part, Extra.tree_ofExtras_found, Extra.tree_ofExtras_found]
    exact hrewrites
  | _ =>
    refine .record ?_
    simp only [parts, List.forall_mem_cons]
    and_intros
    all_goals first
      | exact List.forall_mem_nil _
      | exact .leaf trivial
      | refine (Writes.text? _).field ?_
      | refine (Writes.number? _).field ?_
      | refine (Writes.numbers? _).field ?_
      | refine (Writes.inner fun r _ => Region.lawful r).field ?_
    all_goals exact ⟨_, rfl, by simp +decide [memberAt?, found, parts],
      fun _ => ⟨_, rfl, by simp +decide [setMember, found, kind, word?, parts], _, fun _ _ => Part.record_value? rfl⟩⟩

end Condition

/-! ## Actions -/

namespace Action

open Mending

mutual

/-- An action as paths find it. -/
def found : Action → Action
  | .choice options mode weights => .choice (foundOptions options) mode weights
  | .unknown type extras => .unknown type (extras.map Extra.found)
  | a => a

def foundOptions : List (ChoiceOption Action) → List (ChoiceOption Action)
  | [] => []
  | ⟨a, weight, probability⟩ :: rest => ⟨found a, weight, probability⟩ :: foundOptions rest

end

def view (a : Action) : Tree :=
  a.found.part.tree

def optionView (o : ChoiceOption Action) : Tree :=
  treeOf optionPart { o with action := o.action.found }

theorem optionParts_found (options : List (ChoiceOption Action)) :
    (optionParts (foundOptions options)).map (·.tree) = options.map optionView := by
  induction options with
  | nil => rfl
  | cons o rest ih =>
    rw [foundOptions, optionParts, List.map_cons, List.map_cons, ih]
    rfl

theorem optionLawful {o : ChoiceOption Action} (h : Lawful part view o.action) :
    Lawful optionPart optionView o := by
  refine .record ?_
  simp only [List.forall_mem_cons]
  refine ⟨(Writes.mapped h).field ?_, (Writes.number? _).field ?_, (Writes.number? _).field ?_,
    List.forall_mem_nil _⟩
  all_goals exact ⟨_, rfl, by simp +decide [memberAt?, view],
    fun _ => ⟨_, rfl, by simp +decide [setMember, view], _, fun _ _ => Part.record_value? rfl⟩⟩

theorem lawful_plain {a : Action} (h : a.isChoice = false) : Lawful part view a := by
  cases a with
  | choice => cases h
  | unknown type extras =>
    refine Extra.takes_ofExtras fun path old n type' extras' hrewrites hvalue => ⟨?_, hvalue _⟩
    rw [view, view, found, found, part, part, Extra.tree_ofExtras_found, Extra.tree_ofExtras_found]
    exact hrewrites
  | _ =>
    refine .record ?_
    simp only [plainParts, List.forall_mem_cons]
    and_intros
    all_goals first
      | exact List.forall_mem_nil _
      | exact .leaf trivial
      | refine (Writes.text? _).field ?_
      | refine (Writes.number? _).field ?_
      | refine (Writes.flag? _).field ?_
      | refine (Writes.object? _).field ?_
      | refine (Writes.inner fun m _ => Movement.lawful m).field ?_
      | refine (Writes.inner fun e _ => Effect.lawful e).field ?_
      | refine (Writes.inner fun p _ => Point.lawful "Vector" p).field ?_
    all_goals exact ⟨_, rfl, by simp +decide [memberAt?, found, plainParts],
      fun _ => ⟨_, rfl, by simp +decide [setMember, found, kind, word?, plainParts], _, fun _ _ => Part.record_value? rfl⟩⟩

theorem part_choice (options : List (ChoiceOption Action)) (mode : Slot String)
    (weights : Slot (List Number)) : (choice options mode weights).part =
      .record "RandomAction" [
        (Field.type, .text "randomAction"),
        (Field.actions, .items optionPart options (.choice · mode weights)),
        (Field.selectionMode, .text? mode (.choice options · weights)),
        (Field.weights, .numbers? weights (.choice options mode ·))] := by
  rw [part, optionParts_eq_map]
  rfl

theorem lawful (a : Action) : Lawful part view a := by
  induction a using nested_induction with
  | plain a h => exact lawful_plain h
  | choice options mode weights ih =>
    rw [Lawful, part_choice]
    refine .record ?_
    simp only [List.forall_mem_cons]
    refine ⟨.text _, (Writes.items fun o ho => optionLawful (ih o ho)).field ?_,
      (Writes.text? _).field ?_, (Writes.numbers? _).field ?_, List.forall_mem_nil _⟩
    all_goals exact ⟨_, rfl, by simp +decide [memberAt?, optionParts_found, seeList],
      fun _ => ⟨_, rfl, by simp +decide [setMember, optionParts_found, seeList],
        _, fun _ _ h => by rw [part_choice]; exact Part.record_value? rfl h⟩⟩

end Action

end TouchGame
