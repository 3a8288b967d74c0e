import Mathlib.Data.List.Basic
import TouchGame.Play.Lever
import TouchGame.Play.Firing
import TouchGame.Proofs.Wire.Field

/-!
# Renamings

New names for the objects, counters, flags and rules of a rule-set. A renaming keeps different names apart
and leaves alone what is no name: the empty text and the special targets.

* `Renaming` : the four maps of names.
* `State.rename` : a state under new names.
* `State.counter_rename`, `flag_rename`, `isHidden_rename` : it is read under them as before.
* `State.hide_rename`, .. : it is changed under them as before.
-/

namespace TouchGame

/-- New names for the objects, counters, flags and rules of a rule-set. -/
structure Renaming where
  object : String → String
  counter : String → String
  flag : String → String
  rule : String → String
  object_injective : Function.Injective object
  counter_injective : Function.Injective counter
  flag_injective : Function.Injective flag
  object_empty : object "" = ""
  counter_empty : counter "" = ""
  flag_empty : flag "" = ""
  object_special : ∀ target ∈ specialTargets, object target = target

namespace Renaming

/-- Every name stays. -/
def same : Renaming where
  object := id
  counter := id
  flag := id
  rule := id
  object_injective := Function.injective_id
  counter_injective := Function.injective_id
  flag_injective := Function.injective_id
  object_empty := rfl
  counter_empty := rfl
  flag_empty := rfl
  object_special := fun _ _ => rfl

variable (ρ : Renaming)

theorem object_eq_special {name target : String} (h : target ∈ specialTargets) :
    ρ.object name = target ↔ name = target := by
  constructor
  · intro heq
    rw [← ρ.object_special target h] at heq
    exact ρ.object_injective heq
  · rintro rfl
    exact ρ.object_special name h

theorem specialTargets_contains (name : String) :
    specialTargets.contains (ρ.object name) = specialTargets.contains name := by
  rw [Bool.eq_iff_iff, List.contains_iff_mem, List.contains_iff_mem]
  constructor
  · intro h
    rwa [(ρ.object_eq_special h).mp rfl]
  · intro h
    rwa [ρ.object_special name h]

end Renaming

/-! ## Fields, tables and lists under new names -/

section Names

variable {f : String → String} (hf : Function.Injective f)
include hf

theorem isEmpty_renamed (hempty : f "" = "") (name : String) : (f name).isEmpty = name.isEmpty := by
  rw [Bool.eq_iff_iff, String.isEmpty_iff, String.isEmpty_iff]
  constructor
  · intro h
    exact hf (h.trans hempty.symm)
  · rintro rfl
    exact hempty

theorem Slot.text?_mapValue (hempty : f "" = "") (s : Slot String) :
    (s.mapValue f).text? = s.text?.map f := by
  cases s with
  | value name =>
    simp only [mapValue, text?, isEmpty_renamed hf hempty name]
    split <;> rfl
  | _ => rfl

omit hf in
/-- A table under new names. -/
def Table.rename {α : Type} (f : String → String) (table : Table α) : Table α :=
  table.map fun entry => (f entry.1, entry.2)

theorem Table.get?_rename {α : Type} (table : Table α) (name : String) :
    Table.get? (table.rename f) (f name) = table.get? name := by
  induction table with
  | nil => rfl
  | cons entry rest ih =>
    rw [Table.rename, List.map_cons, ← Table.rename, Table.get?, Table.get?, List.lookup_cons,
      List.lookup_cons, ← Table.get?, ← Table.get?, ih, hf.beq_eq]

theorem Table.put_rename {α : Type} (table : Table α) (name : String) (value : α) :
    Table.put (f name) value (table.rename f) = (table.put name value).rename f := by
  induction table with
  | nil => rfl
  | cons entry rest ih =>
    obtain ⟨key, old⟩ := entry
    simp only [Table.rename, List.map_cons, Table.put, hf.beq_eq] at ih ⊢
    rw [ih]
    split <;> rfl

theorem contains_renamed (names : List String) (name : String) :
    (names.map f).contains (f name) = names.contains name := by
  rw [Bool.eq_iff_iff, List.contains_iff_mem, List.contains_iff_mem]
  exact List.mem_map_of_injective hf

theorem filter_ne_renamed (names : List String) (name : String) :
    (names.map f).filter (· != f name) = (names.filter (· != name)).map f := by
  rw [List.filter_map]
  congr 1
  refine List.filter_congr fun other _ => ?_
  rw [Function.comp_apply, bne, bne, hf.beq_eq]

theorem insert_renamed (names : List String) (name : String) :
    (names.map f).insert (f name) = (names.insert name).map f := by
  rw [List.insert, List.insert, contains_renamed hf]
  split <;> rfl

theorem eraseDups_renamed (names : List String) :
    (names.map f).eraseDups = names.eraseDups.map f := by
  match names with
  | [] => rfl
  | name :: rest =>
    have hshorter : (rest.filter (· != name)).length < (name :: rest).length :=
      Nat.lt_succ_of_le (List.length_filter_le _ _)
    rw [List.map_cons, List.eraseDups_cons, List.eraseDups_cons, List.map_cons]
    change f name :: ((rest.map f).filter (· != f name)).eraseDups = _
    rw [filter_ne_renamed hf, eraseDups_renamed (rest.filter (· != name))]
    rfl
termination_by names.length
decreasing_by exact hshorter

end Names

/-! ## States under new names -/

namespace Play.State

variable (ρ : Renaming) (s : State)

/-- A state under new names. -/
def rename : State :=
  { s with
    counters := Table.rename ρ.counter s.counters
    flags := Table.rename ρ.flag s.flags
    visible := s.visible.map ρ.object
    hidden := s.hidden.map ρ.object }

@[simp] theorem outcome_rename : (s.rename ρ).outcome = s.outcome := rfl

@[simp] theorem rename_same : s.rename .same = s := by
  have htable {α : Type} (table : Table α) : Table.rename id table = table := List.map_id table
  simp only [rename, Renaming.same, htable, List.map_id]

@[simp] theorem counter_rename (id : String) : (s.rename ρ).counter (ρ.counter id) = s.counter id :=
  congrArg (·.getD 0) (Table.get?_rename ρ.counter_injective s.counters id)

@[simp] theorem flag_rename (id : String) : (s.rename ρ).flag (ρ.flag id) = s.flag id :=
  congrArg (·.getD false) (Table.get?_rename ρ.flag_injective s.flags id)

@[simp] theorem isHidden_rename (object : String) :
    (s.rename ρ).isHidden (ρ.object object) = s.isHidden object :=
  contains_renamed ρ.object_injective s.hidden object

theorem setCounter_rename (id : String) (value : Number) :
    (s.rename ρ).setCounter (ρ.counter id) value = (s.setCounter id value).rename ρ := by
  simp only [setCounter, rename, Table.put_rename ρ.counter_injective]

theorem setFlag_rename (id : String) (on : Bool) :
    (s.rename ρ).setFlag (ρ.flag id) on = (s.setFlag id on).rename ρ := by
  simp only [setFlag, rename, Table.put_rename ρ.flag_injective]

theorem hide_rename (object : String) :
    (s.rename ρ).hide (ρ.object object) = (s.hide object).rename ρ := by
  simp only [hide, rename, filter_ne_renamed ρ.object_injective, insert_renamed ρ.object_injective]

theorem reveal_rename (object : String) :
    (s.rename ρ).reveal (ρ.object object) = (s.reveal object).rename ρ := by
  simp only [reveal, rename, filter_ne_renamed ρ.object_injective, insert_renamed ρ.object_injective]

theorem finish_rename (outcome : Outcome) :
    (s.rename ρ).finish outcome = (s.finish outcome).rename ρ := by
  rw [finish, finish, isOver, outcome_rename, ← isOver, apply_ite (rename ρ)]
  rfl

theorem operate_rename (id : String) (operation : Slot String) (value : Option Number) :
    (s.rename ρ).operate (ρ.counter id) operation value =
      (s.operate id operation value).map (rename ρ) := by
  unfold operate
  split
  · rw [setCounter_rename]
    rfl
  · cases counterChange? operation value with
    | none => rfl
    | some change =>
      dsimp only
      rw [counter_rename]
      cases arithmetic ((s.counter id).add change) with
      | error fault => rfl
      | ok sum => exact congrArg Except.ok (setCounter_rename ρ s id sum)

end Play.State

/-! ## Conditions under new names -/

def Json.renameText (f : String → String) : Json → Json
  | .str name => .str (f name)
  | value => value

/-- A free-form field under new names, if it is the one that names an object. -/
def Extra.rename (key : Key) (f : String → String) (e : Extra) : Extra :=
  if e.name == key.name then
    { e with written := e.written.renameText f, held := e.held.renameText f }
  else e

/-- A condition under new names. -/
def Condition.rename (ρ : Renaming) : Condition → Condition
  | .touch target touchType => .touch (target.mapValue ρ.object) touchType
  | .counter name comparison value => .counter (name.mapValue ρ.counter) comparison value
  | .collision target collisionType checkMode =>
    .collision (target.mapValue ρ.object) collisionType checkMode
  | .flag name flagState => .flag (name.mapValue ρ.flag) flagState
  | .position target area region => .position (target.mapValue ρ.object) area region
  | .animation target condition frame frameRange loopCount =>
    .animation (target.mapValue ρ.object) condition frame frameRange loopCount
  | .objectState target state => .objectState (target.mapValue ρ.object) state
  | .unknown type extras => .unknown type (extras.map (Extra.rename Field.target ρ.object))
  | c => c

theorem Extra.rename_same (key : Key) (e : Extra) : e.rename key id = e := by
  have htext (value : Json) : value.renameText id = value := by cases value <;> rfl
  rw [rename, htext, htext, ite_self]

@[simp] theorem Condition.rename_same (c : Condition) : c.rename .same = c := by
  cases c with
  | unknown type extras =>
    have hextras : Extra.rename Field.target id = id := funext (Extra.rename_same Field.target)
    simp only [rename, Renaming.same, hextras, List.map_id]
  | _ => simp only [rename, Renaming.same, Slot.mapValue_id]

end TouchGame
