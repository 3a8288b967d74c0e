import TouchGame.Proofs.Places.Part

/-!
# Fields that take numbers

A field of a record is of one of a few kinds, each with what is seen of it. A number that is put into
the data of a field, or below it, rewrites one leaf of what is seen, whatever record the field belongs
to.

* `Writes` : that law of the data of a field.
* `Writes.field` : a record with such a field, by its own parts and by what is seen of it.
* `Writes.number?`, `Writes.text?`, `Writes.inner`, `Writes.items`, .. : the kinds of fields.
-/

namespace TouchGame

variable {ρ σ α δ : Type}

/-- A number that is put into the data of a field rewrites one leaf of what is seen of it. -/
def Writes (kind : (ρ : Type) → δ → (δ → ρ) → Part ρ) (see : δ → Tree) (d : δ) : Prop :=
  ∀ (ρ : Type) (put : δ → ρ) (holds : Path → Json → Number → ρ → Prop),
    (∀ path old n d', Rewrites path old n (see d) (see d') →
      (∀ put', (kind ρ d' put').value? path = some (.num n)) → holds path old n (put d')) →
        (kind ρ d put).Takes holds

/-- A record has a field, by what is seen of the record and by what paths find in it, whatever stands in
the field. -/
def HasField (kind : (ρ : Type) → δ → (δ → ρ) → Part ρ) (see : δ → Tree) (part : ρ → Part ρ)
    (view : ρ → Tree) (x : ρ) (key : Key) (d : δ) (put : δ → ρ) : Prop :=
  ∃ members, view x = .record members ∧ (memberAt? key.name members).map (·.2) = some (see d) ∧
    ∀ d', ∃ members', view (put d') = .record members' ∧
      members' = setMember key.name (fun _ => see d') members ∧
      ∃ put', ∀ path v, (kind ρ d' put').value? path = some v →
        (part (put d')).value? (.name key.name :: path) = some v

/-! ## What is seen of a field -/

def seeNumber? (value : Option Number) : Tree :=
  .data (value.elim .null .num)

/-- What is seen of an optional field. -/
def seeSlot (see : α → Tree) : Slot α → Tree
  | .empty => .data .null
  | .value a => see a
  | .number n => .data (.num n)

def seeList (see : α → Tree) (list : List α) : Tree :=
  .items (list.map see)

def treeOf (part : ρ → Part ρ) (x : ρ) : Tree :=
  (part x).tree

namespace Part

@[simp] theorem tree_leaf (value : Json) (p : Place ρ) : (leaf value p).tree = .data value := rfl

@[simp] theorem tree_text (value : String) : (text value : Part ρ).tree = .data (.str value) := rfl

@[simp] theorem tree_map (f : σ → ρ) (part : Part σ) : (part.map f).tree = part.tree := rfl

@[simp] theorem tree_number (value : Number) (put : Number → ρ) :
    (number value put).tree = .data (.num value) := rfl

@[simp] theorem tree_number? (value : Option Number) (put : Option Number → ρ) :
    (number? value put).tree = seeNumber? value := by
  cases value <;> rfl

theorem tree_slot {part : α → Part ρ} {see : α → Tree} (h : ∀ a, (part a).tree = see a)
    (value : Slot α) (put : Slot α → ρ) : (slot part value put).tree = seeSlot see value := by
  cases value with
  | empty => rfl
  | value a => exact h a
  | number n => rfl

@[simp] theorem tree_text? (value : Slot String) (put : Slot String → ρ) :
    (text? value put).tree = seeSlot (fun s => .data (.str s)) value :=
  tree_slot (fun _ => rfl) value put

@[simp] theorem tree_flag? (value : Slot Bool) (put : Slot Bool → ρ) :
    (flag? value put).tree = seeSlot (fun b => .data (.bool b)) value :=
  tree_slot (fun _ => rfl) value put

@[simp] theorem tree_object? (value : Slot Json.Fields) (put : Slot Json.Fields → ρ) :
    (slot object value put).tree = seeSlot (fun fields => .free (.obj fields)) value :=
  tree_slot (fun _ => rfl) value put

@[simp] theorem tree_inner (part : α → Part α) (value : Slot α) (put : Slot α → ρ) :
    (inner part value put).tree = seeSlot (treeOf part) value :=
  tree_slot (fun _ => rfl) value put

@[simp] theorem tree_itemsOf (parts : List (Part α)) (list : List α) (put : List α → ρ) :
    (itemsOf parts list put).tree = .items (parts.map (·.tree)) := rfl

@[simp] theorem tree_items (part : α → Part α) (list : List α) (put : List α → ρ) :
    (items part list put).tree = seeList (treeOf part) list := by
  simp [items, seeList, treeOf, Function.comp_def]

@[simp] theorem tree_numbers? (value : Slot (List Number)) (put : Slot (List Number) → ρ) :
    (numbers? value put).tree = seeSlot (seeList fun n => .data (.num n)) value :=
  (tree_inner _ value put).trans
    (congrArg (seeSlot · value) (funext fun list => tree_items plainNumber list id))

end Part

/-! ## Kinds of fields -/

namespace Writes

variable {kind : (ρ : Type) → δ → (δ → ρ) → Part ρ} {see : δ → Tree} {d : δ}

theorem lawful (h : Writes kind see d) : Lawful (kind δ · id) see d :=
  h δ id _ fun _ _ _ _ hrewrites hvalue => ⟨hrewrites, hvalue id⟩

theorem within (h : Writes kind see d) {part : ρ → Part ρ} {view : ρ → Tree} {x : ρ} {put : δ → ρ}
    (short : Path) {pre : Path} {whole : Tree → Tree} (hwhole : Surrounds pre whole)
    (hunfolds : ∀ p q : Path, p.Unfolds q → (short ++ p).Unfolds (pre ++ q))
    (hview : view x = whole (see d)) (hnext : ∀ d', view (put d') = whole (see d'))
    (hvalue : ∀ d', ∃ put', ∀ path v, (kind ρ d' put').value? path = some v →
      (part (put d')).value? (short ++ path) = some v) :
    (kind ρ d put).Takes fun path => Fits part view x (short ++ path) := by
  refine h ρ put _ fun path old n d' hrewrites hagain => ⟨?_, ?_⟩
  · rw [hview, hnext]
    exact hrewrites.within short hwhole hunfolds
  · obtain ⟨put', hvalue⟩ := hvalue d'
    exact hvalue path _ (hagain put')

theorem field (h : Writes kind see d) {part : ρ → Part ρ} {view : ρ → Tree} {x : ρ} {key : Key}
    {put : δ → ρ} (hfield : HasField kind see part view x key d put) :
    (kind ρ d put).Takes fun path => Fits part view x (.name key.name :: path) := by
  obtain ⟨members, hview, hmember, hnext⟩ := hfield
  obtain ⟨⟨k, now⟩, hk, hnow⟩ := Option.map_eq_some_iff.mp hmember
  dsimp only at hnow
  subst hnow
  have hthere : (memberAt? key.name members).isSome := by
    rw [hk]
    rfl
  refine h.within [.name key.name] (.member members hthere) (fun _ _ => .step _) ?_ (fun d' => ?_)
    fun d' => ?_
  · rw [hview, Tree.setMember_self hk]
  · obtain ⟨_, hview', rfl, _⟩ := hnext d'
    exact hview'
  · obtain ⟨_, _, _, hvalue⟩ := hnext d'
    exact hvalue

theorem number (v : Number) : Writes (fun _ => Part.number) (fun v => .data (.num v)) v :=
  fun _ _ _ h => .number fun n => h [] _ n n (.leaf _ n) fun _ => rfl

theorem number? (value : Option Number) : Writes (fun _ => Part.number?) seeNumber? value := by
  intro ρ put holds h
  cases value with
  | none => exact .leaf fun n => h [] _ n (some n) (.leaf _ n) fun _ => rfl
  | some m => exact .number fun n => h [] _ n (some n) (.leaf _ n) fun _ => rfl

theorem slot {part : (ρ : Type) → α → Part ρ} {see : α → Tree} {value : Slot α}
    (h : ∀ ρ a holds, (part ρ a).Takes holds) :
    Writes (fun ρ => Part.slot (part ρ)) (seeSlot see) value := by
  intro ρ put holds hput
  cases value with
  | empty => exact .leaf fun n => hput [] _ n (.number n) (.leaf _ n) fun _ => rfl
  | value a => exact h ρ a holds
  | number m => exact .number fun n => hput [] _ n (.number n) (.leaf _ n) fun _ => rfl

theorem text? (value : Slot String) :
    Writes (fun _ => Part.text?) (seeSlot fun s => .data (.str s)) value :=
  slot fun _ a _ => .text a

theorem flag? (value : Slot Bool) :
    Writes (fun _ => Part.flag?) (seeSlot fun b => .data (.bool b)) value :=
  slot fun _ a _ => .flag a

theorem object? (value : Slot Json.Fields) :
    Writes (fun _ => Part.slot Part.object) (seeSlot fun fields => .free (.obj fields)) value :=
  slot fun _ a _ => .object a

theorem mapped {part : α → Part α} {see : α → Tree} {a : α} (h : Lawful part see a) :
    Writes (fun _ a put => (part a).map put) see a := by
  intro ρ put holds hput
  refine .map (h.mono fun path old n b hb => hput path old n b hb.1 fun put' => ?_)
  rw [Part.value?_map, hb.2]

theorem inner {part : α → Part α} {see : α → Tree} {value : Slot α}
    (h : ∀ a, value = .value a → Lawful part see a) :
    Writes (fun _ => Part.inner part) (seeSlot see) value := by
  intro ρ put holds hput
  cases value with
  | empty => exact .leaf fun n => hput [] _ n (.number n) (.leaf _ n) fun _ => rfl
  | value a =>
    refine .map ((h a rfl).mono fun path old n b hb => ?_)
    refine hput path old n (.value b) hb.1 fun put' => ?_
    exact (Part.value?_map _ _ path).trans hb.2
  | number m => exact .number fun n => hput [] _ n (.number n) (.leaf _ n) fun _ => rfl

theorem items {part : α → Part α} {see : α → Tree} {list : List α}
    (h : ∀ a ∈ list, Lawful part see a) : Writes (fun _ => Part.items part) (seeList see) list := by
  intro ρ put holds hput
  refine .itemsOf fun i k inside hk hinside => ?_
  rw [List.getElem?_map, Option.map_eq_some_iff] at hinside
  obtain ⟨a, ha, rfl⟩ := hinside
  refine (h a (List.mem_of_getElem? ha)).mono fun path old n b hb => ?_
  refine hput (.index i :: path) old n (list.set k b) (hb.1.item hk ha) fun put' => ?_
  have hb' : (list.set k b)[k]? = some b := List.getElem?_set_self (List.getElem?_eq_some_iff.mp ha).1
  exact Part.items_value? part put' (by rwa [List.length_set]) hb' hb.2

theorem numbers? (value : Slot (List Number)) :
    Writes (fun _ => Part.numbers?) (seeSlot (seeList fun n => .data (.num n))) value :=
  inner fun _ _ => (items fun n _ => (number n).lawful).lawful

end Writes

end TouchGame
