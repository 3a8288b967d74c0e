import TouchGame.Proofs.Wire.Reading

/-!
# Fields that are read again

A record is written field by field, without the empty ones. Where the keys of its fields are apart, each
field is found again under its own key, and a value that was read from a document and written comes back
as it is.

* `Json.isFinite` : a document without infinite numbers; it is settled.
* `Key.apart`, `field?_toFields` : what is found under a key in what was written.
* `Tree.Alike` : trees that are written alike.
* `Returns` : a value that was read, then written, is read again, up to what is not kept.
* `Decode.Rewritten` : the fields of a record that is written and read again, kind by kind.
* `Decode.record_returns`, `list_returns` : records and lists of what comes back.
-/

namespace TouchGame

/-! ## Documents of finite numbers -/

namespace Json

mutual

/-- Whether every number of a document is finite. -/
def isFinite : Json → Bool
  | .num value => value.isFinite
  | .arr items => itemsFinite items
  | .obj fields => fieldsFinite fields
  | _ => true

def itemsFinite : List Json → Bool
  | [] => true
  | item :: rest => isFinite item && itemsFinite rest

def fieldsFinite : List (String × Json) → Bool
  | [] => true
  | (_, value) :: rest => isFinite value && fieldsFinite rest

end

mutual

theorem settled_of_isFinite : ∀ {value : Json}, value.isFinite = true → value.settled = value
  | .num n, h => by
    rw [isFinite] at h
    rw [settled, if_pos h]
  | .arr items, h => by
    rw [isFinite] at h
    rw [settled, settledItems_of_finite h]
  | .obj fields, h => by
    rw [isFinite] at h
    rw [settled, settledFields_of_finite h]
  | .null, _ | .bool _, _ | .str _, _ => by simp [settled]

theorem settledItems_of_finite : ∀ {items : List Json}, itemsFinite items = true →
    settledItems items = items
  | [], _ => rfl
  | item :: rest, h => by
    rw [itemsFinite, Bool.and_eq_true] at h
    rw [settledItems, settled_of_isFinite h.1, settledItems_of_finite h.2]

theorem settledFields_of_finite : ∀ {fields : List (String × Json)}, fieldsFinite fields = true →
    settledFields fields = fields
  | [], _ => rfl
  | (name, value) :: rest, h => by
    rw [fieldsFinite, Bool.and_eq_true] at h
    rw [settledFields, settled_of_isFinite h.1, settledFields_of_finite h.2]

end

theorem isFinite_of_mem_fields {fields : Fields} (h : fieldsFinite fields = true) :
    ∀ field ∈ fields, field.2.isFinite = true := by
  induction fields with
  | nil => simp
  | cons first rest ih =>
    rw [fieldsFinite, Bool.and_eq_true] at h
    exact List.forall_mem_cons.mpr ⟨h.1, ih h.2⟩

theorem isFinite_of_get? {fields : Fields} {name : String} {value : Json}
    (h : fieldsFinite fields = true) (hget : get? fields name = some value) : value.isFinite = true := by
  induction fields with
  | nil => cases hget
  | cons first rest ih =>
    rw [fieldsFinite, Bool.and_eq_true] at h
    rw [get?, List.lookup_cons] at hget
    split at hget
    · cases hget
      exact h.1
    · exact ih h.2 hget

theorem isFinite_getD {fields : Fields} {name : String} (h : fieldsFinite fields = true) :
    ((get? fields name).getD .null).isFinite = true := by
  cases hget : get? fields name with
  | none => rfl
  | some value => exact isFinite_of_get? h hget

end Json

/-! ## Looking up what was written -/

/-- Whether no key is found under another one, by its name or in a document. -/
def Key.apart : List Key → Bool
  | [] => true
  | key :: rest => (rest.all fun other =>
      other.wire != key.wire && other.wire != key.name && key.wire != other.name) && apart rest

namespace Tree

theorem get?_toFields_eq_none {members : List (Key × Tree)} {name : String}
    (h : ∀ m ∈ members, m.1.wire ≠ name) : Json.get? (toFields members) name = none := by
  induction members with
  | nil => rfl
  | cons m rest ih =>
    obtain ⟨hm, hrest⟩ := List.forall_mem_cons.mp h
    rw [toFields]
    split
    · exact ih hrest
    · rw [Json.get?, List.lookup_cons, beq_eq_false_iff_ne.mpr (Ne.symm hm)]
      exact ih hrest

theorem mem_of_lookup {members : List (Key × Tree)} {key : Key} {tree : Tree}
    (h : members.lookup key = some tree) : (key, tree) ∈ members := by
  obtain ⟨before, after, rfl, _⟩ := List.lookup_eq_some_iff.mp h
  simp

/-- Where keys are apart, a field of a record is found under its key, unless it is empty. -/
theorem field?_toFields {members : List (Key × Tree)} {key : Key} {tree : Tree}
    (hkeys : Key.apart (members.map (·.1)) = true) (hmember : members.lookup key = some tree) :
    Decode.field? (toFields members) key =
      if tree.isEmpty then none else some (key.wire, tree.toJson) := by
  induction members with
  | nil => cases hmember
  | cons m rest ih =>
    obtain ⟨first, member⟩ := m
    rw [List.map_cons, Key.apart, Bool.and_eq_true] at hkeys
    obtain ⟨hfirst, hrest⟩ := hkeys
    have happart : ∀ m ∈ rest, m.1.wire ≠ first.wire ∧ m.1.wire ≠ first.name ∧
        first.wire ≠ m.1.name := by
      simpa [and_assoc] using hfirst
    rw [List.lookup_cons] at hmember
    rw [toFields]
    split at hmember
    · -- The first field is the one that is looked for, and no other one is found under its key.
      rename_i hkey
      cases hmember
      rw [beq_iff_eq.mp hkey]
      split
      · rw [Decode.field?, get?_toFields_eq_none fun m hm => (happart m hm).1,
          get?_toFields_eq_none fun m hm => (happart m hm).2.1]
        rfl
      · exact Decode.field?_cons_self first _ _
    · obtain ⟨hwire, hname, hother⟩ := happart _ (mem_of_lookup hmember)
      rw [← ih hrest hmember]
      split
      · rfl
      · exact Decode.field?_cons_of_ne _ _ hwire.symm hother

theorem isEmpty_of_toJson {tree : Tree} (h : tree.toJson.isNull = false) : tree.isEmpty = false := by
  cases tree with
  | data value => cases value <;> first | rfl | cases h
  | free value => cases value <;> first | rfl | cases h
  | _ => rfl

end Tree

/-! ## Trees that are written alike -/

namespace Tree

/-- Two trees that are written alike, wherever they stand. -/
def Alike (t t' : Tree) : Prop :=
  t.toJson = t'.toJson ∧ t.isEmpty = t'.isEmpty

theorem Alike.rfl {t : Tree} : Alike t t :=
  ⟨Eq.refl _, Eq.refl _⟩

theorem toFields_congr {key : Key} {t t' : Tree} {rest rest' : List (Key × Tree)} (h : Alike t t')
    (hrest : toFields rest = toFields rest') :
    toFields ((key, t) :: rest) = toFields ((key, t') :: rest') := by
  rw [toFields, toFields, h.1, h.2, hrest]

theorem Alike.record {members members' : List (Key × Tree)} (h : toFields members = toFields members') :
    Alike (.record members) (.record members') :=
  ⟨congrArg Json.obj h, Eq.refl _⟩

variable {α ρ σ : Type} {part : α → Part α} {keep : α → α}

theorem Alike.items {list : List α} {put : List α → ρ} {put' : List α → σ}
    (h : ∀ a ∈ list, Alike (part (keep a)).tree (part a).tree) :
    Alike (Part.items part (list.map keep) put).tree (Part.items part list put').tree := by
  refine ⟨congrArg Json.arr ?_, Eq.refl _⟩
  change toItems (((list.map keep).map part).map (·.tree)) = toItems ((list.map part).map (·.tree))
  induction list with
  | nil => exact Eq.refl _
  | cons a rest ih =>
    obtain ⟨ha, hrest⟩ := List.forall_mem_cons.mp h
    simp only [List.map_cons, toItems, ha.1, ih hrest]

theorem Alike.number? {v : Option Number} {put : Option Number → ρ} {put' : Option Number → σ} :
    Alike (Part.number? v put).tree (Part.number? v put').tree := by
  cases v <;> exact Alike.rfl

theorem Alike.text? {s : Slot String} {put : Slot String → ρ} {put' : Slot String → σ} :
    Alike (Part.text? s put).tree (Part.text? s put').tree := by
  cases s <;> exact Alike.rfl

theorem Alike.inner_self {s : Slot α} {put : Slot α → ρ} {put' : Slot α → σ} :
    Alike (Part.inner part s put).tree (Part.inner part s put').tree := by
  cases s <;> exact Alike.rfl

theorem Alike.inner {s : Slot α} {put : Slot α → ρ} {put' : Slot α → σ}
    (h : ∀ a, Alike (part (keep a)).tree (part a).tree) :
    Alike (Part.inner part (s.mapValue keep) put).tree (Part.inner part s put').tree := by
  cases s with
  | value a => exact h a
  | _ => exact Alike.rfl

end Tree

/-! ## Values that are read again -/

@[simp] theorem Slot.mapValue_id {α : Type} (s : Slot α) : s.mapValue id = s := by
  cases s <;> rfl

/-- A value that is read from a document and written is read again, up to what is not kept. -/
def Returns {α : Type} (read : Json → Decoded α) (tree : α → Tree) (keep : α → α) (a : α) : Prop :=
  ∀ value : Json, value.isFinite = true → read value = .ok a →
    (tree a).toJson.isNull = false ∧ read (tree a).toJson = .ok (keep a)

namespace Decode

variable {α : Type} {fields : Json.Fields} {members : List (Key × Tree)} {key : Key}

theorem finite_of_field? {found : String} {value : Json} (hfinite : Json.fieldsFinite fields = true)
    (h : field? fields key = some (found, value)) : value.isFinite = true := by
  unfold field? at h
  split at h
  · rename_i hget
    cases h
    exact Json.isFinite_of_get? hfinite hget
  · obtain ⟨_, hget, heq⟩ := Option.map_eq_some_iff.mp h
    cases heq
    exact Json.isFinite_of_get? hfinite hget

theorem optional_some {read : Json → Decoded α} {found : String} {value : Json} {a : α}
    (hfield : field? fields key = some (found, value)) (hnull : value.isNull = false)
    (hread : read value = .ok a) : optional fields key read = .ok (.value a) := by
  rw [optional, hfield]
  split
  · rename_i heq
    cases heq
    cases hnull
  · rename_i heq
    cases heq
    rw [hread]
    rfl
  · rename_i heq
    cases heq

theorem optionalNumber_some {read : Json → Decoded Number} {found : String} {value : Json} {n : Number}
    (hfield : field? fields key = some (found, value)) (hnull : value.isNull = false)
    (hread : read value = .ok n) : optionalNumber fields key read = .ok (some n) := by
  rw [optionalNumber, hfield]
  split
  · rename_i heq
    cases heq
    cases hnull
  · rename_i heq
    cases heq
    rw [hread]
    rfl
  · rename_i heq
    cases heq

/-! ## Fields of a record -/

/-- The fields a record was read from, and the members it is written as. -/
structure Rewritten (fields : Json.Fields) (members : List (Key × Tree)) : Prop where
  finite : Json.fieldsFinite fields = true
  apart : Key.apart (members.map (·.1)) = true

namespace Rewritten

variable {read : Json → Decoded α} {tree : α → Tree} {keep : α → α}

theorem field? (w : Rewritten fields members) {tree : Tree} (hmember : members.lookup key = some tree)
    (hnull : tree.toJson.isNull = false) :
    Decode.field? (Tree.toFields members) key = some (key.wire, tree.toJson) := by
  rw [Tree.field?_toFields w.apart hmember, Tree.isEmpty_of_toJson hnull]
  rfl

theorem required {a : α} (w : Rewritten fields members) (hreturns : Returns read tree keep a)
    (hmember : members.lookup key = some (tree a)) (h : Decode.required fields key read = .ok a) :
    Decode.required (Tree.toFields members) key read = .ok (keep a) := by
  unfold Decode.required at h
  split at h
  · rename_i found value hfield
    obtain ⟨hnull, hread⟩ := hreturns value (finite_of_field? w.finite hfield) (Decoded.within_ok_iff.mp h)
    rw [Decode.required, w.field? hmember hnull]
    exact Decoded.within_ok_iff.mpr hread
  · simp at h

theorem defaulted {default a : α} (w : Rewritten fields members)
    (hreturns : Returns read tree keep a) (hmember : members.lookup key = some (tree a))
    (hdefault : (tree default).toJson.isNull = false ∧
      read (tree default).toJson = .ok (keep default))
    (h : Decode.defaulted fields key default read = .ok a) :
    Decode.defaulted (Tree.toFields members) key default read = .ok (keep a) := by
  have hread : (tree a).toJson.isNull = false ∧ read (tree a).toJson = .ok (keep a) := by
    unfold Decode.defaulted at h
    split at h
    · rename_i found value hfield
      exact hreturns value (finite_of_field? w.finite hfield) (Decoded.within_ok_iff.mp h)
    · cases h
      exact hdefault
  rw [Decode.defaulted, w.field? hmember hread.1]
  exact Decoded.within_ok_iff.mpr hread.2

/-- A field that may be missing: an empty one is not written. -/
theorem slot {ρ : Type} {part : α → Part ρ} {s : Slot α} {put : Slot α → ρ}
    (w : Rewritten fields members) (hmember : members.lookup key = some (Part.slot part s put).tree)
    (hreturns : ∀ a, s = .value a → Returns read (fun a => (part a).tree) keep a)
    (h : optional fields key read = .ok s) :
    optional (Tree.toFields members) key read = .ok (s.mapValue keep) := by
  have hempty (hs : s = .empty) :
      optional (Tree.toFields members) key read = .ok (s.mapValue keep) := by
    subst hs
    rw [optional, Tree.field?_toFields w.apart hmember]
    rfl
  unfold optional at h
  split at h
  · cases h
    exact hempty rfl
  · rename_i found value _ hfield
    simp only [Decoded.map_eq_ok_iff, Decoded.within_ok_iff] at h
    obtain ⟨a, ha, rfl⟩ := h
    obtain ⟨hnull, hread⟩ := hreturns a rfl value (finite_of_field? w.finite hfield) ha
    exact optional_some (w.field? hmember hnull) hnull hread
  · cases h
    exact hempty rfl

theorem number? {ρ : Type} {read : Json → Decoded Number} {v : Option Number} {put : Option Number → ρ}
    (w : Rewritten fields members) (hmember : members.lookup key = some (Part.number? v put).tree)
    (hread : ∀ value n, read value = .ok n → read (.num n) = .ok n)
    (h : optionalNumber fields key read = .ok v) :
    optionalNumber (Tree.toFields members) key read = .ok v := by
  have hempty (hv : v = none) : optionalNumber (Tree.toFields members) key read = .ok v := by
    subst hv
    rw [optionalNumber, Tree.field?_toFields w.apart hmember]
    rfl
  unfold optionalNumber at h
  split at h
  · cases h
    exact hempty rfl
  · simp only [Decoded.map_eq_ok_iff, Decoded.within_ok_iff] at h
    obtain ⟨n, hn, rfl⟩ := h
    exact optionalNumber_some (w.field? hmember rfl) rfl (hread _ n hn)
  · cases h
    exact hempty rfl

end Rewritten

theorem record_returns {noun : String} {read : Json.Fields → Decoded α} {tree : α → Tree} {keep : α → α}
    {a : α} (htree : tree a = .record members) (hkeys : Key.apart (members.map (·.1)) = true)
    (h : ∀ fields, Rewritten fields members → read fields = .ok a →
      read (Tree.toFields members) = .ok (keep a)) :
    Returns (record noun read) tree keep a := by
  intro value hfinite hread
  rw [htree]
  cases value with
  | obj fields => exact ⟨rfl, h fields ⟨hfinite, hkeys⟩ hread⟩
  | _ => simp [record] at hread

/-! ## Single values -/

theorem ok_of_spelled {s : String} {read : List Char → Decoded α} {a : α} (h : spelled s read = .ok a) :
    read s.toList = .ok a := by
  unfold spelled at h
  split at h
  · exact h
  · cases h

theorem isReal_of_realOr {cause : Mismatch} {x : Option Binary64} {n : Number}
    (h : realOr cause x = .ok n) : ∃ x, n = .real x := by
  cases x with
  | none => cases h
  | some x => exact ⟨x, (Decoded.ok.inj h).symm⟩

theorem real_again {value : Json} {n : Number} (h : real value = .ok n) : real (.num n) = .ok n := by
  have hreal : ∃ x, n = .real x := by
    unfold real at h
    split at h
    · exact isReal_of_realOr h
    · exact ⟨_, (Decoded.ok.inj h).symm⟩
    · exact ⟨_, (Decoded.ok.inj h).symm⟩
    · exact isReal_of_realOr (ok_of_spelled h)
    · cases h
  obtain ⟨x, rfl⟩ := hreal
  rfl

theorem integer_again {value : Json} {n : Number} (h : integer value = .ok n) :
    integer (.num n) = .ok n := by
  have hwhole : ∃ i, n = .int i := by
    unfold integer spelled at h
    split at h <;> try dsimp only at h
    all_goals repeat' split at h
    all_goals cases h
    all_goals exact ⟨_, rfl⟩
  obtain ⟨i, rfl⟩ := hwhole
  rfl

theorem text_returns {ρ : Type} (s : String) :
    Returns text (fun s => (Part.text s : Part ρ).tree) id s :=
  fun _ _ _ => ⟨rfl, rfl⟩

theorem real_returns {ρ : Type} (n : Number) {put : Number → ρ} :
    Returns real (fun n => (Part.number n put).tree) id n :=
  fun _ _ h => ⟨rfl, real_again h⟩

theorem quantity_returns {ρ : Type} (n : Number) {put : Number → ρ} :
    Returns quantity (fun n => (Part.number n put).tree) id n :=
  fun _ _ _ => ⟨rfl, rfl⟩

theorem flag_returns {ρ : Type} (b : Bool) : Returns flag (fun b => (Part.flag b : Part ρ).tree) id b :=
  fun _ _ _ => ⟨rfl, rfl⟩

theorem fields_returns {ρ : Type} (object : Json.Fields) :
    Returns Decode.fields (fun object => (Part.object object : Part ρ).tree) id object := by
  intro value hfinite h
  cases value with
  | obj found =>
    cases h
    have hsettled : ((Part.object object : Part ρ).tree).toJson = .obj object :=
      Json.settled_of_isFinite hfinite
    rw [hsettled]
    exact ⟨rfl, rfl⟩
  | _ => cases h

/-! ## Lists -/

theorem itemsFrom_again {read : Json → Decoded α} {tree : α → Tree} {keep : α → α} {items : List Json}
    {list : List α} {index : Nat} (h : itemsFrom read index items = .ok list)
    (hfinite : Json.itemsFinite items = true) (hreturns : ∀ a ∈ list, Returns read tree keep a) :
    itemsFrom read index (Tree.toItems (list.map tree)) = .ok (list.map keep) := by
  induction items generalizing index list with
  | nil =>
    cases h
    rfl
  | cons item rest ih =>
    have hgives := Decoded.gives h
    simp only [itemsFrom, Decoded.seq_gives_iff, Decoded.map_gives_iff, Decoded.within_ok_iff] at hgives
    obtain ⟨a, ha, tail, htail, rfl⟩ := hgives
    rw [Json.itemsFinite, Bool.and_eq_true] at hfinite
    obtain ⟨hfirst, hrest⟩ := List.forall_mem_cons.mp hreturns
    have hagain := (hfirst item hfinite.1 ha).2
    rw [List.map_cons, Tree.toItems, itemsFrom, hagain, ih htail hfinite.2 hrest]
    rfl

theorem list_returns {read : Json → Decoded α} {tree : α → Tree} {keep : α → α} {list : List α}
    (h : ∀ a ∈ list, Returns read tree keep a) :
    Returns (Decode.list read) (fun list => .items (list.map tree)) (List.map keep) list := by
  intro value hfinite hread
  cases value with
  | arr items =>
    rw [Json.isFinite] at hfinite
    exact ⟨rfl, itemsFrom_again hread hfinite h⟩
  | _ => simp [Decode.list] at hread

theorem tree_items {ρ : Type} (part : α → Part α) (list : List α) (put : List α → ρ) :
    (Part.items part list put).tree = .items (list.map fun a => (part a).tree) := by
  simp only [Part.items, Part.itemsOf, List.map_map]
  rfl

theorem items_returns {ρ : Type} {read : Json → Decoded α} {part : α → Part α} {keep : α → α}
    {list : List α} (put : List α → ρ) (h : ∀ a ∈ list, Returns read (fun a => (part a).tree) keep a) :
    Returns (Decode.list read) (fun list => (Part.items part list put).tree) (List.map keep) list := by
  simp only [Returns, tree_items]
  exact list_returns h

theorem numbers_returns {read : Json → Decoded Number}
    (hread : ∀ value n, read value = .ok n → read (.num n) = .ok n) (list : List Number) :
    Returns (Decode.list read) (fun list => (Part.items Part.plainNumber list id).tree) id list := by
  have hnumbers : ∀ n ∈ list, Returns read (fun n => (Part.plainNumber n).tree) id n :=
    fun n _ value _ hn => ⟨rfl, hread value n hn⟩
  have h := items_returns id hnumbers
  rwa [List.map_id_fun] at h

/-! ## Fields of each kind -/

namespace Rewritten

variable {ρ : Type}

theorem text (w : Rewritten fields members) {s : String}
    (hmember : members.lookup key = some (Part.text s : Part ρ).tree)
    (h : Decode.required fields key Decode.text = .ok s) :
    Decode.required (Tree.toFields members) key Decode.text = .ok s := by
  have hagain := w.required (text_returns s) hmember h
  exact hagain

theorem text? (w : Rewritten fields members) {s : Slot String} {put : Slot String → ρ}
    (hmember : members.lookup key = some (Part.text? s put).tree)
    (h : optional fields key Decode.text = .ok s) :
    optional (Tree.toFields members) key Decode.text = .ok s := by
  simpa using w.slot hmember (fun s _ => text_returns s) h

theorem flag? (w : Rewritten fields members) {s : Slot Bool} {put : Slot Bool → ρ}
    (hmember : members.lookup key = some (Part.flag? s put).tree)
    (h : optional fields key Decode.flag = .ok s) :
    optional (Tree.toFields members) key Decode.flag = .ok s := by
  simpa using w.slot hmember (fun b _ => flag_returns b) h

theorem object? (w : Rewritten fields members) {s : Slot Json.Fields} {put : Slot Json.Fields → ρ}
    (hmember : members.lookup key = some (Part.slot Part.object s put).tree)
    (h : optional fields key Decode.fields = .ok s) :
    optional (Tree.toFields members) key Decode.fields = .ok s := by
  simpa using w.slot hmember (fun object _ => fields_returns object) h

theorem innerUpTo (w : Rewritten fields members) {read : Json → Decoded α} {part : α → Part α}
    {keep : α → α} {s : Slot α} {put : Slot α → ρ}
    (hmember : members.lookup key = some (Part.inner part s put).tree)
    (hreturns : ∀ a, Returns read (fun a => (part a).tree) keep a)
    (h : optional fields key read = .ok s) :
    optional (Tree.toFields members) key read = .ok (s.mapValue keep) :=
  w.slot hmember (fun a _ => hreturns a) h

theorem inner (w : Rewritten fields members) {read : Json → Decoded α} {part : α → Part α} {s : Slot α}
    {put : Slot α → ρ} (hmember : members.lookup key = some (Part.inner part s put).tree)
    (hreturns : ∀ a, Returns read (fun a => (part a).tree) id a)
    (h : optional fields key read = .ok s) :
    optional (Tree.toFields members) key read = .ok s := by
  simpa using w.innerUpTo hmember hreturns h

theorem items (w : Rewritten fields members) {read : Json → Decoded α} {part : α → Part α}
    {keep : α → α} {items : List α} {put : List α → ρ}
    (hmember : members.lookup key = some (Part.items part items put).tree)
    (hreturns : ∀ a ∈ items, Returns read (fun a => (part a).tree) keep a)
    (h : Decode.required fields key (list read) = .ok items) :
    Decode.required (Tree.toFields members) key (list read) = .ok (items.map keep) := by
  rw [tree_items] at hmember
  exact w.required (list_returns hreturns) hmember h

theorem itemsOrNone (w : Rewritten fields members) {read : Json → Decoded α} {part : α → Part α}
    {keep : α → α} {items : List α} {put : List α → ρ}
    (hmember : members.lookup key = some (Part.items part items put).tree)
    (hreturns : ∀ a ∈ items, Returns read (fun a => (part a).tree) keep a)
    (h : Decode.defaulted fields key [] (list read) = .ok items) :
    Decode.defaulted (Tree.toFields members) key [] (list read) = .ok (items.map keep) := by
  rw [tree_items] at hmember
  exact w.defaulted (list_returns hreturns) hmember ⟨rfl, rfl⟩ h

theorem real (w : Rewritten fields members) {n : Number} {put : Number → ρ}
    (hmember : members.lookup key = some (Part.number n put).tree)
    (h : Decode.required fields key Decode.real = .ok n) :
    Decode.required (Tree.toFields members) key Decode.real = .ok n := by
  have hagain := w.required (real_returns n) hmember h
  exact hagain

theorem real? (w : Rewritten fields members) {v : Option Number} {put : Option Number → ρ}
    (hmember : members.lookup key = some (Part.number? v put).tree)
    (h : optionalNumber fields key Decode.real = .ok v) :
    optionalNumber (Tree.toFields members) key Decode.real = .ok v :=
  w.number? hmember (fun _ _ => real_again) h

theorem integer? (w : Rewritten fields members) {v : Option Number} {put : Option Number → ρ}
    (hmember : members.lookup key = some (Part.number? v put).tree)
    (h : optionalNumber fields key Decode.integer = .ok v) :
    optionalNumber (Tree.toFields members) key Decode.integer = .ok v :=
  w.number? hmember (fun _ _ => integer_again) h

theorem quantity? (w : Rewritten fields members) {v : Option Number} {put : Option Number → ρ}
    (hmember : members.lookup key = some (Part.number? v put).tree)
    (h : optionalNumber fields key Decode.quantity = .ok v) :
    optionalNumber (Tree.toFields members) key Decode.quantity = .ok v :=
  w.number? hmember (fun _ _ _ => rfl) h

theorem numbers? (w : Rewritten fields members) {read : Json → Decoded Number} {s : Slot (List Number)}
    {put : Slot (List Number) → ρ} (hmember : members.lookup key = some (Part.numbers? s put).tree)
    (hread : ∀ value n, read value = .ok n → read (.num n) = .ok n)
    (h : optional fields key (list read) = .ok s) :
    optional (Tree.toFields members) key (list read) = .ok s :=
  w.inner hmember (numbers_returns hread) h

end Rewritten

end Decode

end TouchGame
