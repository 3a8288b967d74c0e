import TouchGame.Proofs.Places.Field
import TouchGame.Script.Extra

/-!
# Numbers in free-form data

Conditions and actions of unknown types hold free-form data, and paths into it find numbers, or nulls
where numbers could be, as they do in the fields that are known. What they find in a private field is
not what is written for it, so a record is seen here as paths see it.

* `Writes.free` : a number that is put into free-form data.
* `Extra.found`, `Extra.view` : a field as paths find it.
* `Extra.takes_ofExtras` : a number that is put into a record of an unknown type.
-/

namespace TouchGame

variable {ρ : Type} {holds : Path → Json → Number → ρ → Prop}

/-- What is known of a number that is put into free-form data. -/
theorem Json.place?_takes {path : Path} {v : Json} {put : Json → ρ} {p : Place ρ}
    (h : v.place? put path = some p) : p.Takes fun old n y => ∃ w, y = put w ∧
      (∃ spot, v.look? path = some (spot, .leaf old)) ∧ w = v.setLeaf n path ∧
        ∀ (σ : Type) (put' : Json → σ), ∃ q, w.place? put' path = some q ∧ q.value? = some (.num n) := by
  induction path generalizing v put p with
  | nil =>
    cases v with
    | num m =>
      cases h
      exact fun n => ⟨.num n, rfl, ⟨[], rfl⟩, rfl, fun _ _ => ⟨_, rfl, rfl⟩⟩
    | null =>
      cases h
      exact fun n => ⟨.num n, rfl, ⟨[], rfl⟩, rfl, fun _ _ => ⟨_, rfl, rfl⟩⟩
    | _ =>
      cases h
      trivial
  | cons step rest ih =>
    cases v with
    | num m => exact Number.componentAt?_takes h
    | bool b => cases step <;> exact Number.componentAt?_takes h
    | arr items =>
      cases step with
      | name _ => cases h
      | index i =>
        rw [Json.place?] at h
        split at h
        · rename_i k hk
          obtain ⟨item, hitem, h⟩ := Option.bind_eq_some_iff.mp h
          refine (ih h).mono ?_
          rintro old n _ ⟨w, rfl, ⟨spot, hlook⟩, rfl, hagain⟩
          have hset : (arr items).setLeaf n (.index i :: rest) =
              arr (items.set k (item.setLeaf n rest)) := by
            simp only [setLeaf, hk, List.modify_eq_set, hitem, Option.getD_some]
          refine ⟨_, rfl, ⟨k :: spot, ?_⟩, hset.symm, fun σ put' => ?_⟩
          · simp only [look?, hk, hitem, Option.bind_some, hlook, Option.map_some, Content.below]
          · have hnew : (items.set k (item.setLeaf n rest))[k]? = some (item.setLeaf n rest) :=
              List.getElem?_set_self (List.getElem?_eq_some_iff.mp hitem).1
            obtain ⟨q, hq, hv⟩ :=
              hagain σ fun w => put' (.arr ((items.set k (item.setLeaf n rest)).set k w))
            refine ⟨q, ?_, hv⟩
            rw [Json.place?, List.length_set, hk]
            simp only [hnew, Option.bind_some, hq]
        · cases h
    | _ => cases step <;> cases h

theorem Rewrites.free {path : Path} {old v w : Json} {n : Number} {spot : Spot}
    (hlook : v.look? path = some (spot, .leaf old)) (hw : w = v.setLeaf n path) :
    Rewrites path old n (.free v) (.free w) :=
  ⟨path, spot, .refl path, by rw [Tree.look?_free, hlook], by rw [Tree.setLeaf_free, hw]⟩

theorem Writes.free (v : Json) : Writes (fun _ => Part.free) .free v := by
  intro ρ put holds hput path p hp
  refine (Json.place?_takes hp).mono ?_
  rintro old n _ ⟨w, rfl, ⟨spot, hlook⟩, hw, hagain⟩
  refine hput path old n w (.free hlook hw) fun put' => ?_
  obtain ⟨q, hq, hv⟩ := hagain ρ put'
  exact Part.value?_of_place? hq hv

namespace Extra

/-- A field as paths find it. -/
def found (e : Extra) : Extra :=
  { e with written := e.held }

def view (e : Extra) : Tree :=
  .free e.held

theorem place?_held {e : Extra} {path : Path} {p : Place Extra} (h : e.place? path = some p) :
    ownNames.contains e.name = false ∧ ∃ put : Json → Extra, e.held.place? put path = some p ∧
      ∀ w, (put w).name = e.name ∧ (put w).held = w := by
  rw [place?] at h
  split at h
  · cases h
  · rename_i hname
    rw [Bool.not_eq_true] at hname
    split at h <;> exact ⟨hname, _, h, fun _ => ⟨rfl, rfl⟩⟩

theorem value?_of_held {e : Extra} {path : Path} {v : Json} (hname : ownNames.contains e.name = false)
    (h : ∀ put : Json → Extra, ∃ p, e.held.place? put path = some p ∧ p.value? = some v) :
    e.part.value? path = some v := by
  have hplace : ∃ put : Json → Extra, e.place? path = e.held.place? put path := by
    rw [place?, if_neg (by rw [hname]; exact Bool.false_ne_true)]
    split <;> exact ⟨_, rfl⟩
  obtain ⟨put, hput⟩ := hplace
  obtain ⟨p, hp, hv⟩ := h put
  exact Part.value?_of_place? (hput.trans hp) hv

theorem lawful (e : Extra) : Lawful part view e := by
  intro path p hp
  obtain ⟨hname, put, hp, hput⟩ := place?_held hp
  refine (Json.place?_takes hp).mono ?_
  rintro old n _ ⟨w, rfl, ⟨spot, hlook⟩, hw, hagain⟩
  obtain ⟨hsame, hheld⟩ := hput w
  constructor
  · rw [view, view, hheld]
    exact .free hlook hw
  · refine value?_of_held (by rw [hsame, hname]) fun put' => ?_
    rw [hheld]
    exact hagain Extra put'

theorem takes_name (e : Extra) : e.part.Takes fun _ _ _ e' => e'.name = e.name := by
  intro path p hp
  obtain ⟨_, put, hp, hput⟩ := place?_held hp
  refine (Json.place?_takes hp).mono ?_
  rintro old n _ ⟨w, rfl, _⟩
  exact (hput w).1

/-! ## Records of unknown types -/

variable {type : Json} {extras : List Extra} {put : Json → List Extra → ρ}

def viewAll (type : Json) (extras : List Extra) : List (Key × Tree) :=
  (Field.type, .free type) :: extras.map fun e => (Key.word e.name, e.view)

/-- The parts of a record of an unknown type. -/
def allParts (type : Json) (extras : List Extra) (put : Json → List Extra → ρ) :
    List (Key × Part ρ) :=
  (Field.type, .free type (put · extras)) :: extras.mapIdx fun i e =>
    (Key.word e.name, e.part.map fun changed => put type (extras.set i changed))

theorem names_viewAll : (viewAll type extras).map (·.1.name) =
    Field.type.name :: extras.map (·.name) := by
  simp [viewAll, Key.word]

theorem names_allParts : (allParts type extras put).map (·.1.name) =
    Field.type.name :: extras.map (·.name) :=
  congrArg (_ :: ·) (List.ext_getElem (by simp) (by simp [Key.word]))

theorem tree_ofExtras_found :
    (Part.ofExtras type (extras.map found) put).tree = .record (viewAll type extras) :=
  congrArg (fun members => Tree.record (_ :: members))
    (List.ext_getElem (by simp) (by simp [Part.map, part, found, view]))

theorem names_set {i : Nat} {e e' : Extra} (he : extras[i]? = some e) (hname : e'.name = e.name) :
    (extras.set i e').map (·.name) = extras.map (·.name) := by
  obtain ⟨hi, rfl⟩ := List.getElem?_eq_some_iff.mp he
  have hi' : i < (extras.map (·.name)).length := by rwa [List.length_map]
  have hsame : (extras.map (·.name))[i] = extras[i].name := List.getElem_map _
  rw [List.map_set, hname, ← hsame, List.set_getElem_self]

/-- A number that is put into a record of an unknown type. -/
theorem takes_ofExtras
    (h : ∀ path old n type' extras',
      Rewrites path old n (.record (viewAll type extras)) (.record (viewAll type' extras')) →
        (∀ put' : Json → List Extra → ρ,
          (Part.ofExtras type' extras' put').value? path = some (.num n)) →
            holds path old n (put type' extras')) :
    (Part.ofExtras type extras put).Takes holds := by
  refine .fields fun i key part hpart hfirst => ?_
  change (allParts type extras put)[i]? = _ at hpart
  change ∀ j < i, ((allParts type extras put).map (·.1.name))[j]? ≠ some key.name at hfirst
  rw [names_allParts] at hfirst
  cases i with
  | zero =>
    cases hpart
    refine Writes.free type ρ (put · extras) _ fun path old n type' hrewrites hvalue => ?_
    refine h _ old n type' extras (hrewrites.member (k := 0) rfl) fun put' => ?_
    have hfind : (allParts type' extras put').find? (·.1.name == Field.type.name) =
        some (Field.type, .free type' (put' · extras)) := rfl
    exact Part.fields_value? hfind (hvalue (put' · extras))
  | succ i =>
    rw [allParts, List.getElem?_cons_succ, List.getElem?_mapIdx, Option.map_eq_some_iff] at hpart
    obtain ⟨e, he, heq⟩ := hpart
    cases heq
    refine .map fun path p hp => ((e.lawful path p hp).and (e.takes_name path p hp)).mono ?_
    rintro old n e' ⟨⟨hrewrites, hvalue⟩, hname⟩
    have hi : i < extras.length := (List.getElem?_eq_some_iff.mp he).1
    refine h _ old n type (extras.set i e') ?_ fun put' => ?_
    · have hmember : (viewAll type extras)[i + 1]? = some (Key.word e.name, e.view) := by
        simp [viewAll, he]
      have hnext : viewAll type (extras.set i e') =
          setMember (Key.word e.name).name (fun _ => e'.view) (viewAll type extras) := by
        rw [Tree.setMember_of_first hmember (by rwa [names_viewAll])]
        simp [viewAll, List.map_set, hname]
      rw [hnext]
      exact hrewrites.member (Tree.memberAt?_of_first hmember (by rwa [names_viewAll]))
    · have hpart : (allParts type (extras.set i e') put')[i + 1]? = some (Key.word e.name,
          e'.part.map fun changed => put' type ((extras.set i e').set i changed)) := by
        simp [allParts, hi, hname]
      have hfirst' : ∀ j < i + 1, ((allParts type (extras.set i e') put').map (·.1.name))[j]? ≠
          some (Key.word e.name).name := by
        rwa [names_allParts, names_set he hname]
      exact Part.fields_value? (Part.find?_of_first hpart hfirst')
        ((Part.value?_map _ _ _).trans hvalue)

end Extra

end TouchGame
