import TouchGame.Proofs.Wire.Action
import TouchGame.Proofs.Wire.Condition
import TouchGame.Script.Depth

/-!
# Rule-sets that are read again

A rule-set that is read from a document of finite numbers and written is read again. Only the null fields
of conditions and actions of unknown types are gone, which were not written; so a second writing gives the
same document. Not every rule-set can be written: there is a limit to the depth of free-form data.

* `Game.withoutNulls` : what comes back.
* `Game.returns` : every rule-set that is read.
* `document_roundtrip` : reading, writing, reading and writing.

Proof. A record is written as its members without the empty ones. The keys of the members are apart, so
each member that is not empty is found under its own key, while an empty one is not found, which reads as
empty again (`Tree.field?_toFields`). A single value has the form after it was read in which it is read as
itself (`Decode.real_again`, `Decode.integer_again`), also if that form is not the one in the first
document. Hence a record comes back if each of its fields does (`Decode.record_returns`), a list if each
item does, and an action by induction on the choices inside it (`Action.returns`), with as many choices
around it as before. The members of an unknown type are those of the document, so what it loses is known
from the document too (`Extra.decode_again`), and what it loses was not written (`Tree.Alike`).
-/

namespace TouchGame

open Decode

/-! ## Layout, counters and assets -/

theorem placement_returns (p : Placement) : Returns Placement.decode (fun p => p.part.tree) id p := by
  refine record_returns rfl rfl fun fields w h => ?_
  have hgives := Decoded.gives h
  simp only [Decoded.seq_gives_iff, Decoded.map_gives_iff] at hgives
  obtain ⟨object, hobject, position, hposition, scale, hscale, rfl⟩ := hgives
  rw [w.text rfl hobject, w.required (Point.returns "Point" position) rfl hposition,
    w.inner rfl (Point.returns "Point") hscale]
  rfl

theorem counter_returns (c : Counter) : Returns Counter.decode (fun c => c.part.tree) id c := by
  refine record_returns rfl rfl fun fields w h => ?_
  have hgives := Decoded.gives h
  simp only [Decoded.seq_gives_iff, Decoded.map_gives_iff] at hgives
  obtain ⟨id, hid, name, hname, value, hvalue, rfl⟩ := hgives
  rw [w.text rfl hid, w.text? rfl hname,
    w.defaulted (quantity_returns value) rfl ⟨rfl, rfl⟩ hvalue]
  rfl

theorem object_returns (o : ObjectPlan) :
    Returns ObjectPlan.decode (fun o => o.part.tree) id o := by
  refine record_returns rfl rfl fun fields w h => ?_
  have hgives := Decoded.gives h
  simp only [Decoded.seq_gives_iff, Decoded.map_gives_iff] at hgives
  obtain ⟨id, hid, name, hname, purpose, hpurpose, look, hlook, position, hposition, size, hsize,
    rfl⟩ := hgives
  rw [w.text rfl hid, w.text? rfl hname, w.text? rfl hpurpose, w.text? rfl hlook,
    w.inner rfl (Point.returns "Point") hposition, w.text? rfl hsize]
  rfl

theorem sound_returns (s : SoundPlan) : Returns SoundPlan.decode (fun s => s.part.tree) id s := by
  refine record_returns rfl rfl fun fields w h => ?_
  have hgives := Decoded.gives h
  simp only [Decoded.seq_gives_iff, Decoded.map_gives_iff] at hgives
  obtain ⟨id, hid, trigger, htrigger, type, htype, rfl⟩ := hgives
  rw [w.text rfl hid, w.text? rfl htrigger, w.text? rfl htype]
  rfl

theorem music_returns (m : MusicPlan) : Returns MusicPlan.decode (fun m => m.part.tree) id m := by
  refine record_returns rfl rfl fun fields w h => ?_
  have hgives := Decoded.gives h
  simp only [Decoded.seq_gives_iff, Decoded.map_gives_iff] at hgives
  obtain ⟨id, hid, description, hdescription, mood, hmood, rfl⟩ := hgives
  rw [w.text rfl hid, w.text? rfl hdescription, w.text? rfl hmood]
  rfl

/-! ## Rules -/

/-- A trigger without the null fields of unknown types. -/
def Trigger.withoutNulls (t : Trigger) : Trigger :=
  { t with conditions := t.conditions.map Condition.withoutNulls }

theorem Trigger.returns (t : Trigger) :
    Returns Trigger.decode (fun t => t.part.tree) Trigger.withoutNulls t := by
  refine record_returns rfl rfl fun fields w h => ?_
  have hgives := Decoded.gives h
  simp only [Decoded.seq_gives_iff, Decoded.map_gives_iff] at hgives
  obtain ⟨operator, hoperator, conditions, hconditions, rfl⟩ := hgives
  rw [w.defaulted (text_returns operator) rfl ⟨rfl, rfl⟩ hoperator,
    w.itemsOrNone rfl (fun a _ => Condition.returns a) hconditions]
  rfl

theorem Trigger.alike (t : Trigger) : Tree.Alike t.withoutNulls.part.tree t.part.tree :=
  .record (Tree.toFields_congr .rfl (Tree.toFields_congr (.items fun c _ => c.alike) rfl))

namespace Rule

/-- A rule without the null fields of unknown types. -/
def withoutNulls (r : Rule) : Rule :=
  { r with
    trigger := r.trigger.mapValue Trigger.withoutNulls
    actions := r.actions.map Action.withoutNulls }

theorem returns (r : Rule) : Returns decode (fun r => r.part.tree) withoutNulls r := by
  refine record_returns rfl rfl fun fields w h => ?_
  have hgives := Decoded.gives h
  simp only [Decoded.seq_gives_iff, Decoded.map_gives_iff] at hgives
  obtain ⟨id, hid, name, hname, target, htarget, trigger, htrigger, actions, hactions, rfl⟩ := hgives
  rw [w.text rfl hid, w.text? rfl hname, w.text? rfl htarget,
    w.innerUpTo rfl Trigger.returns htrigger, w.itemsOrNone rfl (fun a _ => a.returns 0) hactions]
  rfl

theorem alike (r : Rule) : Tree.Alike r.withoutNulls.part.tree r.part.tree :=
  .record (Tree.toFields_congr .rfl (Tree.toFields_congr .text? (Tree.toFields_congr .text?
    (Tree.toFields_congr (.inner Trigger.alike) (Tree.toFields_congr (.items fun a _ => a.alike) rfl)))))

theorem depthFault?_withoutNulls (r : Rule) : r.withoutNulls.depthFault? = r.depthFault? := by
  have hconditions : r.withoutNulls.conditions = r.conditions.map Condition.withoutNulls := by
    simp only [conditions, withoutNulls]
    cases r.trigger <;> rfl
  rw [depthFault?, depthFault?, hconditions, firstFault_map fun c _ => c.depthFault?_withoutNulls]
  exact congrArg _ (firstFault_map fun a _ => a.depthFault?_withoutNulls 0)

end Rule

/-! ## Rule-sets -/

namespace Game

/-- A rule-set without the null fields of unknown types. -/
def withoutNulls (g : Game) : Game :=
  { g with rules := g.rules.map Rule.withoutNulls }

def scriptTree : List Placement × List Counter × List Rule → Tree
  | (placements, counters, rules) => (scriptPart ⟨placements, counters, rules, [], [], .empty⟩).tree

/-- The tree of an asset plan behind a script. -/
def assetTree (script : List Placement × List Counter × List Rule) :
    List ObjectPlan × List SoundPlan × Slot MusicPlan → Tree
  | (objects, sounds, music) =>
    (assetPart ⟨script.1, script.2.1, script.2.2, objects, sounds, music⟩).tree

theorem layout_returns {ρ : Type} (placements : List Placement) (put : List Placement → ρ) :
    Returns (record "Layout" fun fields => required fields Field.objects (list Placement.decode))
      (fun placements => (Part.record "Layout" [
        (Field.objects, Part.items Placement.part placements put)]).tree) id placements := by
  refine record_returns rfl rfl fun fields w h => ?_
  rw [w.items rfl (fun a _ => placement_returns a) h, List.map_id]
  rfl

theorem script_returns (script : List Placement × List Counter × List Rule) :
    Returns decodeScript scriptTree (fun (placements, counters, rules) =>
      (placements, counters, rules.map Rule.withoutNulls)) script := by
  refine record_returns rfl rfl fun fields w h => ?_
  have hgives := Decoded.gives h
  simp only [Decoded.seq_gives_iff, Decoded.map_gives_iff] at hgives
  obtain ⟨placements, hplacements, counters, hcounters, rules, hrules, rfl⟩ := hgives
  rw [w.required (layout_returns placements _) rfl hplacements, w.itemsOrNone rfl (fun a _ => counter_returns a) hcounters,
    w.items rfl (fun a _ => Rule.returns a) hrules, List.map_id]
  rfl

theorem assets_returns (script : List Placement × List Counter × List Rule)
    (assets : List ObjectPlan × List SoundPlan × Slot MusicPlan) :
    Returns decodeAssets (assetTree script) id assets := by
  refine record_returns rfl rfl fun fields w h => ?_
  have hgives := Decoded.gives h
  simp only [Decoded.seq_gives_iff, Decoded.map_gives_iff] at hgives
  obtain ⟨objects, hobjects, sounds, hsounds, music, hmusic, rfl⟩ := hgives
  rw [w.items rfl (fun a _ => object_returns a) hobjects, w.itemsOrNone rfl (fun a _ => sound_returns a) hsounds,
    w.inner rfl music_returns hmusic, List.map_id, List.map_id]
  rfl

theorem returns (g : Game) : Returns decode (fun g => g.part.tree) withoutNulls g := by
  refine record_returns rfl rfl fun fields w h => ?_
  have hgives := Decoded.gives h
  simp only [Decoded.seq_gives_iff, Decoded.map_gives_iff] at hgives
  obtain ⟨script, hscript, assets, hassets, rfl⟩ := hgives
  rw [w.required (script_returns script) rfl hscript, w.required (assets_returns script assets) rfl hassets]
  rfl

theorem alike (g : Game) : Tree.Alike g.withoutNulls.part.tree g.part.tree := by
  have hscript : Tree.Alike g.withoutNulls.scriptPart.tree g.scriptPart.tree :=
    .record (Tree.toFields_congr .rfl (Tree.toFields_congr .rfl
      (Tree.toFields_congr (.items fun r _ => r.alike) rfl)))
  have hassets : Tree.Alike g.withoutNulls.assetPart.tree g.assetPart.tree :=
    .record (Tree.toFields_congr .rfl (Tree.toFields_congr .rfl (Tree.toFields_congr .inner_self rfl)))
  exact .record (Tree.toFields_congr hscript (Tree.toFields_congr hassets rfl))

theorem toJson_withoutNulls (g : Game) : g.withoutNulls.toJson = g.toJson :=
  g.alike.1

theorem document_withoutNulls (g : Game) : g.withoutNulls.document = g.document := by
  rw [document, document, toJson_withoutNulls, withoutNulls,
    firstFault_map fun r _ => r.depthFault?_withoutNulls]

end Game

/-! ## A rule-set with unknown types -/

/-- A document whose rule has a condition and an action of unknown types, each with a null field, and a
choice whose fields go by their names. -/
def orbiting (course : Json) : Json :=
  let condition := .obj [("type", .str "orbit"), ("course", course), ("moon", .null)]
  let vanish := .obj [("target_id", .str "star"), ("fade_out", .num 1), ("type", .str "hide")]
  let choice := .obj [("type", .str "randomAction"), ("actions", .arr [.obj [("action", vanish)]])]
  let sparkle := .obj [("color", .null), ("type", .str "sparkle"), ("size", .num 2)]
  .obj [
    ("script", .obj [
      ("layout", .obj [("objects", .arr [])]),
      ("rules", .arr [.obj [
        ("id", .str "turn"),
        ("triggers", .obj [("conditions", .arr [condition])]),
        ("actions", .arr [choice, sparkle])]])]),
    ("assetPlan", .obj [("objects", .arr [.obj [("id", .str "star")]])])]

/-- The rule-set of that document. -/
def orbit (course : Json) : Game where
  layout := []
  counters := []
  rules := [{
    id := "turn"
    name := .empty
    targetObject := .empty
    trigger := .value ⟨"AND",
      [.unknown (.str "orbit") [⟨"course", course, course⟩, ⟨"moon", .null, .null⟩]]⟩
    actions := [
      .choice [⟨.hide (.value "star") (.value true) none, none, none⟩] .empty .empty,
      .unknown (.str "sparkle") [⟨"color", .null, .null⟩, ⟨"size", .num 2, .num 2⟩]] }]
  objects := [⟨"star", .empty, .empty, .empty, .empty, .empty⟩]
  sounds := []
  music := .empty

theorem decode_orbiting (course : Json) : Game.decode (orbiting course) = .ok (orbit course) := rfl

theorem isFinite_orbiting {course : Json} (h : course.isFinite = true) :
    (orbiting course).isFinite = true := by
  have hnumbers : Number.isFinite 1 = true ∧ Number.isFinite 2 = true := ⟨rfl, rfl⟩
  simpa [orbiting, Json.isFinite, Json.fieldsFinite, Json.itemsFinite, h] using hnumbers

theorem document_orbit {course : Json} (hnull : course.isNull = false)
    (hdeep : (course.beyond? documentLevels).isSome) : (orbit course).document = .error .tooDeep := by
  have hcondition : (Condition.unknown (.str "orbit")
      [⟨"course", course, course⟩, ⟨"moon", .null, .null⟩]).depthFault? = some .tooDeep :=
    Condition.depthFault?_unknown (.head _) hnull hdeep
  have hfault : (orbit course).rules.findSome? (·.depthFault?) = some .tooDeep := by
    simp [orbit, Rule.depthFault?, Rule.conditions, Slot.get?, hcondition]
  rw [Game.document, hfault]

/-- Nothing inside lists, one inside the other. -/
def nestedLists : Nat → Json
  | 0 => .null
  | levels + 1 => .arr [nestedLists levels]

theorem isFinite_nestedLists (levels : Nat) : (nestedLists levels).isFinite = true := by
  induction levels with
  | zero => rfl
  | succ levels ih => simp [nestedLists, Json.isFinite, Json.itemsFinite, ih]

theorem beyond?_nestedLists (rest levels : Nat) :
    (nestedLists (rest + levels)).beyond? levels = some (nestedLists rest) := by
  induction levels with
  | zero => cases rest <;> rfl
  | succ levels ih => simp [nestedLists, Json.beyond?, Json.itemsBeyond?, ih]

/-! ## Writing and reading again -/

/-- Where a rule-set that was read can be written, its document is read as the same rule-set without the
null fields of unknown types, and that is written as the same document. -/
theorem document_roundtrip {document written : Json} {g : Game} (hfinite : document.isFinite = true)
    (hread : Game.decode document = .ok g) (hwrite : g.document = .ok written) :
    Game.decode written = .ok g.withoutNulls ∧ g.withoutNulls.document = .ok written := by
  have hjson : written = g.toJson := by
    unfold Game.document at hwrite
    split at hwrite
    · cases hwrite
    · cases hwrite
      rfl
  refine ⟨?_, by rw [Game.document_withoutNulls, hwrite]⟩
  rw [hjson]
  exact (g.returns document hfinite hread).2

theorem document_roundtrip_orbit :
    (orbiting (.num 3)).isFinite = true ∧ (orbit (.num 3)).document = .ok (orbit (.num 3)).toJson ∧
      Game.decode (orbit (.num 3)).toJson = .ok (orbit (.num 3)).withoutNulls ∧
      (orbit (.num 3)).withoutNulls.document = .ok (orbit (.num 3)).toJson :=
  have hfinite : (orbiting (.num 3)).isFinite = true := rfl
  have hwrite : (orbit (.num 3)).document = .ok (orbit (.num 3)).toJson := rfl
  ⟨hfinite, hwrite, document_roundtrip hfinite (decode_orbiting _) hwrite⟩

/-- Free-form data that is read to any depth is written to a bounded one only. -/
theorem orbit_too_deep :
    (orbiting (nestedLists 300)).isFinite = true ∧
      Game.decode (orbiting (nestedLists 300)) = .ok (orbit (nestedLists 300)) ∧
      (orbit (nestedLists 300)).document = .error .tooDeep := by
  have hdeep : (nestedLists 300).beyond? documentLevels = some (nestedLists 45) :=
    beyond?_nestedLists 45 documentLevels
  exact ⟨isFinite_orbiting (isFinite_nestedLists 300), decode_orbiting _,
    document_orbit rfl (by rw [hdeep]; rfl)⟩

end TouchGame
