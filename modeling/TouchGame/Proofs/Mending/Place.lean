import TouchGame.Proofs.Mending.Gauge

/-!
# Places of fields

Where a path into a record leads, from its first step on: a named field is looked up among the parts
of its record, an index in its list, and what is found there is seen from the whole. At the end of
the path a code puts its correction, or its filling where nothing is.

* `Part.record_place?`, `inner_place?`, `items_place?` : one step of a path.
* `Remedied` : what is behind the change that a code makes at a place.
* `Remedied.change?` : the repair makes that change.
-/

namespace TouchGame

theorem position?_natCast {length i : Nat} (h : i < length) : position? length i = some i := by
  rw [position?, if_pos (by omega), Int.toNat_natCast, if_pos h]

namespace Part

variable {ρ σ α : Type} {noun field : String} {parts : List (Key × Part ρ)} {key : Key}
  {part : Part ρ} {rel : Path}

theorem fields_place? {p : Place ρ}
    (hfind : parts.find? (·.1.name == field) = some (key, part))
    (hp : part.place? rel = some p) : (fields parts).place? (.name field :: rel) = some p := by
  simp only [fields, hfind, hp]

theorem record_place? (key : Key) {p : Place ρ}
    (hfind : parts.find? (·.1.name == field) = some (key, part))
    (hp : part.place? rel = some p) :
    (record noun parts).place? (.name field :: rel) = some p := by
  simp only [record, fields_place? hfind hp, Option.some_or]

theorem withShortcuts_place? {shortcuts : List (Key × Part ρ)} {p : Place ρ}
    (hp : part.place? rel = some p) : (part.withShortcuts shortcuts).place? rel = some p := by
  simp only [withShortcuts, hp, Option.some_or]

theorem map_place? {f : ρ → σ} {p : Place ρ} (hp : part.place? rel = some p) :
    (part.map f).place? rel = some (p.map f) := by
  simp only [map, hp, Option.map_some]

theorem inner_place? {inside : α → Part α} {a : α} (put : Slot α → ρ) {p : Place α}
    (hp : (inside a).place? rel = some p) :
    (inner inside (.value a) put).place? rel = some (p.map fun b => put (.value b)) :=
  map_place? hp

theorem itemsOf_place? {parts : List (Part α)} {list : List α} {put : List α → ρ} {i : Nat}
    (part : Part α) {p : Place α} (hi : i < list.length) (hpart : parts[i]? = some part)
    (hp : part.place? rel = some p) :
    (itemsOf parts list put).place? (.index i :: rel) =
      some (p.map fun item => put (list.set i item)) := by
  simp only [itemsOf, position?_natCast hi, hpart, Option.bind_some, hp, Option.map_some]

theorem items_place? (inside : α → Part α) (list : List α) (put : List α → ρ) {i : Nat} {a : α}
    {p : Place α} (ha : list[i]? = some a) (hp : (inside a).place? rel = some p) :
    (items inside list put).place? (.index i :: rel) =
      some (p.map fun item => put (list.set i item)) := by
  have hi : i < list.length := (List.getElem?_eq_some_iff.mp ha).1
  exact itemsOf_place? (inside a) hi (by rw [List.getElem?_map, ha]; rfl) hp

end Part

@[simp] theorem Place.map_map {ρ σ τ : Type} (f : ρ → σ) (h : σ → τ) (p : Place ρ) :
    (p.map f).map h = p.map fun x => h (f x) := by
  cases p <;> rfl

namespace Mending

open Repair

variable {ρ σ : Type} {c : Code} {p : Place ρ} {y : ρ}

/-- What is behind the change that a code makes at a place: its correction where it corrects the
number there, or its filling where no number is. -/
inductive Remedied (c : Code) : Place ρ → ρ → Prop
  | corrected {n m : Number} {put : Number → ρ} (h : Corrects c n m) :
      Remedied c (.number n put) (put m)
  | filled {description : String} {value : Number} {put : Number → ρ}
      (category : c.category = .autoFixable) (h : filling? c = some (description, value)) :
      Remedied c (.vacant put) (put value)

theorem Remedied.map (f : ρ → σ) (h : Remedied c p y) : Remedied c (p.map f) (f y) := by
  cases h with
  | corrected h => exact .corrected h
  | filled category h => exact .filled category h

theorem Remedied.change? {p : Place Game} {g : Game} (h : Remedied c p g) :
    ∃ change, Repair.change? c p = .ok (some change) ∧ change.game = g := by
  cases h with
  | @corrected n m put h =>
    obtain ⟨description, correct, hc, rfl⟩ := h.corrected
    refine ⟨⟨description, .num n, correct n, put (correct n)⟩, ?_, rfl⟩
    simp only [Repair.change?, h.unfilled, hc, correct?, h.differs]
    rfl
  | @filled description value put category h =>
    refine ⟨⟨description, .null, value, put value⟩, ?_, rfl⟩
    simp only [Repair.change?, h, fill?]

end Mending

end TouchGame
