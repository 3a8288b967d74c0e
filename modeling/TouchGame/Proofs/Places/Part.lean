import TouchGame.Proofs.Mending.Place
import TouchGame.Proofs.Places.Tree

/-!
# What a number at a place changes

A path into a part of a rule-set may find a number, or nothing where a number could be. A number that is
put there stands in the place of one leaf of the tree, and the path finds it from then on.

* `Path.Unfolds` : a path with its shortcuts spelled out.
* `Part.value?` : what a path finds.
* `Part.Takes` : what is known of every number that can be put below a part.
* `Rewrites` : one leaf of a tree is another one, and no more.
* `Lawful` : every number that can be put below a part rewrites a leaf and is found there.
-/

namespace TouchGame

variable {ρ σ α δ : Type}

/-! ## What paths find -/

/-- A path and the same with its shortcuts spelled out: what is next to a trigger lies below it, and the
lists of a script are found without it. -/
inductive Path.Unfolds : Path → Path → Prop
  | nil : Unfolds [] []
  | step (s : Step) {p q : Path} (h : Unfolds p q) : Unfolds (s :: p) (s :: q)
  | conditions {p q : Path} (h : Unfolds p q) :
      Unfolds (.name "conditions" :: p) (.name "triggers" :: .name "conditions" :: q)
  | layout {p q : Path} (h : Unfolds p q) : Unfolds (.name "layout_objects" :: p)
      (.name "script" :: .name "layout" :: .name "objects" :: q)
  | counters {p q : Path} (h : Unfolds p q) :
      Unfolds (.name "counters" :: p) (.name "script" :: .name "counters" :: q)
  | rules {p q : Path} (h : Unfolds p q) :
      Unfolds (.name "rules" :: p) (.name "script" :: .name "rules" :: q)

theorem Path.Unfolds.refl (path : Path) : path.Unfolds path := by
  induction path with
  | nil => exact .nil
  | cons step rest ih => exact .step step ih

/-- What stands at a place: a number, or null where a number is missing. -/
def Place.value? : Place ρ → Option Json
  | .number n _ | .fixed (some n) _ => some (.num n)
  | .vacant _ | .fixed none _ => some .null
  | .other => none

@[simp] theorem Place.value?_map (f : ρ → σ) (p : Place ρ) : (p.map f).value? = p.value? := by
  rcases p with _ | _ | ⟨_ | _, _⟩ | _ <;> rfl

/-- What a path finds in a part, if it finds a number or finds one missing. -/
def Part.value? (part : Part ρ) (path : Path) : Option Json :=
  (part.place? path).bind Place.value?

namespace Part

theorem value?_of_place? {part : Part ρ} {path : Path} {p : Place ρ} {v : Json}
    (hp : part.place? path = some p) (hv : p.value? = some v) : part.value? path = some v := by
  rw [value?, hp, Option.bind_some, hv]

theorem value?_map (f : σ → ρ) (part : Part σ) (path : Path) :
    (part.map f).value? path = part.value? path := by
  simp only [value?, map]
  cases part.place? path with
  | none => rfl
  | some p => exact p.value?_map f

theorem place?_of_value? {part : Part ρ} {path : Path} {v : Json} (h : part.value? path = some v) :
    ∃ p, part.place? path = some p ∧ p.value? = some v :=
  Option.bind_eq_some_iff.mp h

theorem fields_value? {field : String} {parts : List (Key × Part ρ)} {key : Key} {part : Part ρ}
    {path : Path} {v : Json} (hfind : parts.find? (·.1.name == field) = some (key, part))
    (hv : part.value? path = some v) : (fields parts).value? (.name field :: path) = some v := by
  obtain ⟨p, hp, hv⟩ := place?_of_value? hv
  exact value?_of_place? (fields_place? hfind hp) hv

theorem record_value? {noun field : String} {parts : List (Key × Part ρ)} {key : Key} {part : Part ρ}
    {path : Path} {v : Json} (hfind : parts.find? (·.1.name == field) = some (key, part))
    (hv : part.value? path = some v) :
    (record noun parts).value? (.name field :: path) = some v := by
  obtain ⟨p, hp, hv⟩ := place?_of_value? hv
  exact value?_of_place? (record_place? key hfind hp) hv

theorem find?_of_first {parts : List (Key × Part ρ)} {i : Nat} {key : Key} {part : Part ρ}
    (h : parts[i]? = some (key, part))
    (hfirst : ∀ j < i, (parts.map (·.1.name))[j]? ≠ some key.name) :
    parts.find? (·.1.name == key.name) = some (key, part) := by
  obtain ⟨hi, hpart⟩ := List.getElem?_eq_some_iff.mp h
  refine List.find?_eq_some_iff_getElem.mpr ⟨beq_self_eq_true _, i, hi, hpart, fun j hj => ?_⟩
  have hj' : j < parts.length := Nat.lt_trans hj hi
  have hne : parts[j].1.name ≠ key.name := by
    simpa [hj'] using hfirst j hj
  simpa using hne

theorem items_value? (inside : α → Part α) {list : List α} (put : List α → ρ) {i : Int} {k : Nat}
    {a : α} {path : Path} {v : Json} (hk : position? list.length i = some k) (ha : list[k]? = some a)
    (hv : (inside a).value? path = some v) :
    (items inside list put).value? (.index i :: path) = some v := by
  obtain ⟨p, hp, hv⟩ := place?_of_value? hv
  refine value?_of_place? (p := p.map fun item => put (list.set k item)) ?_ (by rw [Place.value?_map, hv])
  simp only [items, itemsOf, hk, List.getElem?_map, ha, Option.map_some, Option.bind_some, hp]

theorem withShortcuts_value? {part : Part ρ} {shortcuts : List (Key × Part ρ)} {path : Path} {v : Json}
    (hv : part.value? path = some v) : (part.withShortcuts shortcuts).value? path = some v := by
  obtain ⟨p, hp, hv⟩ := place?_of_value? hv
  exact value?_of_place? (withShortcuts_place? hp) hv

theorem shortcut_value? {part : Part ρ} {shortcuts : List (Key × Part ρ)} {field : String} {key : Key}
    {shortcut : Part ρ} {path : Path} {v : Json} (hlost : part.place? (.name field :: path) = none)
    (hfind : shortcuts.find? (·.1.name == field) = some (key, shortcut))
    (hv : shortcut.value? path = some v) :
    (part.withShortcuts shortcuts).value? (.name field :: path) = some v := by
  obtain ⟨p, hp, hv⟩ := place?_of_value? hv
  refine value?_of_place? ?_ hv
  simp only [withShortcuts, hlost, Option.none_or, fields_place? hfind hp]

end Part

/-! ## What can be put somewhere -/

/-- What is known of every number that can be put at a place: by the value there, the number, and what
is behind it. -/
def Place.Takes (holds : Json → Number → ρ → Prop) : Place ρ → Prop
  | .number current put => ∀ n, holds (.num current) n (put n)
  | .vacant put => ∀ n, holds .null n (put n)
  | .fixed _ _ | .other => True

def Part.Takes (holds : Path → Json → Number → ρ → Prop) (part : Part ρ) : Prop :=
  ∀ path p, part.place? path = some p → p.Takes (holds path)

theorem Place.Takes.map {f : σ → ρ} {holds : Json → Number → ρ → Prop} {p : Place σ}
    (h : p.Takes fun old n x => holds old n (f x)) : (p.map f).Takes holds := by
  cases p with
  | number => exact h
  | vacant => exact h
  | fixed => trivial
  | other => trivial

theorem Place.Takes.mono {holds also : Json → Number → ρ → Prop} {p : Place ρ} (h : p.Takes holds)
    (himp : ∀ old n x, holds old n x → also old n x) : p.Takes also := by
  cases p with
  | number current put => exact fun n => himp _ n _ (h n)
  | vacant put => exact fun n => himp _ n _ (h n)
  | fixed => trivial
  | other => trivial

theorem Place.Takes.and {holds also : Json → Number → ρ → Prop} {p : Place ρ} (h : p.Takes holds)
    (h' : p.Takes also) : p.Takes fun old n x => holds old n x ∧ also old n x := by
  cases p with
  | number current put => exact fun n => ⟨h n, h' n⟩
  | vacant put => exact fun n => ⟨h n, h' n⟩
  | fixed => trivial
  | other => trivial

theorem Number.componentAt?_takes {holds : Json → Number → ρ → Prop} {n : Number} {path : Path}
    {p : Place ρ} (h : n.componentAt? path = some p) : p.Takes holds := by
  fun_induction n.componentAt? path with
  | case1 n field =>
    obtain ⟨m, _, rfl⟩ := Option.map_eq_some_iff.mp h
    trivial
  | case2 n field rest _ ih =>
    obtain ⟨m, _, h⟩ := Option.bind_eq_some_iff.mp h
    exact ih m h
  | case3 => cases h

namespace Part.Takes

variable {holds also : Path → Json → Number → ρ → Prop} {part : Part ρ} {parts : List (Key × Part ρ)}

theorem map {f : σ → ρ} {part : Part σ} (h : part.Takes fun path old n x => holds path old n (f x)) :
    (part.map f).Takes holds := by
  intro path p hp
  obtain ⟨q, hq, rfl⟩ := Option.map_eq_some_iff.mp hp
  exact (h path q hq).map

theorem mono (h : part.Takes holds) (himp : ∀ path old n x, holds path old n x → also path old n x) :
    part.Takes also :=
  fun path p hp => (h path p hp).mono (himp path)

theorem leaf {value : Json} {p : Place ρ} (h : p.Takes (holds [])) : (Part.leaf value p).Takes holds := by
  intro path q hq
  cases path with
  | nil => exact Option.some.inj hq ▸ h
  | cons => cases hq

theorem text (value : String) : (Part.text value).Takes holds :=
  leaf trivial

theorem number {value : Number} {put : Number → ρ} (h : ∀ n, holds [] (.num value) n (put n)) :
    (Part.number value put).Takes holds := by
  intro path p hp
  cases path with
  | nil => exact Option.some.inj hp ▸ h
  | cons => exact Number.componentAt?_takes hp

theorem flag (value : Bool) : (Part.flag value : Part ρ).Takes holds := by
  intro path p hp
  cases path with
  | nil => exact Option.some.inj hp ▸ trivial
  | cons => exact Number.componentAt?_takes hp

theorem object (fields : Json.Fields) : (Part.object fields : Part ρ).Takes holds := by
  intro path p hp
  simp only [Part.object] at hp
  split at hp
  · exact Option.some.inj hp ▸ trivial
  · cases hp

/-- The part of a field is the first one of its name. -/
theorem fields (h : ∀ (i : Nat) (key : Key) (part : Part ρ), parts[i]? = some (key, part) →
      (∀ j < i, (parts.map (·.1.name))[j]? ≠ some key.name) →
        part.Takes fun path => holds (.name key.name :: path)) :
    (Part.fields parts).Takes holds := by
  intro path p hp
  match path with
  | [] => exact Option.some.inj hp ▸ trivial
  | .index _ :: _ => cases hp
  | .name field :: rest =>
    simp only [Part.fields] at hp
    split at hp
    · rename_i key part hfind
      obtain ⟨hname, front, back, rfl, hfront⟩ := List.find?_eq_some_iff_append.mp hfind
      rw [← beq_iff_eq.mp hname]
      refine h front.length key part (by simp) ?_ rest p hp
      intro j hj heq
      rw [List.map_append, List.getElem?_append_left (by rwa [List.length_map]), List.getElem?_map,
        Option.map_eq_some_iff] at heq
      obtain ⟨other, hother, heq⟩ := heq
      have hno := hfront other (List.mem_of_getElem? hother)
      rw [heq, hname] at hno
      cases hno
    · cases hp

theorem unknownFields {noun : String} {path : Path} {p : Place ρ}
    (h : unknownFields? noun path = some p) : p.Takes (holds path) := by
  unfold unknownFields? at h
  split at h
  · split at h
    · exact Option.some.inj h ▸ trivial
    · cases h
  · cases h

theorem record {noun : String}
    (h : ∀ kp ∈ parts, kp.2.Takes fun path => holds (.name kp.1.name :: path)) :
    (Part.record noun parts).Takes holds := by
  intro path p hp
  rcases Option.or_eq_some_iff.mp hp with hp | ⟨_, hp⟩
  · exact fields (fun i key part hpart _ => h (key, part) (List.mem_of_getElem? hpart)) path p hp
  · exact unknownFields hp

theorem withShortcuts {shortcuts : List (Key × Part ρ)} (h : part.Takes holds)
    (hshortcuts : ∀ kp ∈ shortcuts, kp.2.Takes fun path => holds (.name kp.1.name :: path)) :
    (part.withShortcuts shortcuts).Takes holds := by
  intro path p hp
  rcases Option.or_eq_some_iff.mp hp with hp | ⟨_, hp⟩
  · exact h path p hp
  · exact fields (fun i key part hpart _ => hshortcuts (key, part) (List.mem_of_getElem? hpart)) path p hp

theorem itemsOf {parts : List (Part α)} {list : List α} {put : List α → ρ}
    (h : ∀ i k part, position? list.length i = some k → parts[k]? = some part →
      part.Takes fun path old n a => holds (.index i :: path) old n (put (list.set k a))) :
    (Part.itemsOf parts list put).Takes holds := by
  intro path p hp
  match path with
  | [] => exact Option.some.inj hp ▸ trivial
  | .name _ :: _ => cases hp
  | .index i :: rest =>
    simp only [Part.itemsOf] at hp
    split at hp
    · rename_i k hk
      obtain ⟨part, hpart, hp⟩ := Option.bind_eq_some_iff.mp hp
      obtain ⟨q, hq, rfl⟩ := Option.map_eq_some_iff.mp hp
      exact (h i k part hk hpart rest q hq).map
    · cases hp

end Part.Takes

/-! ## One leaf and no more -/

/-- A tree around a hole: below a prefix, paths see what they see in the hole, and a number is put into
the hole. -/
def Surrounds (pre : Path) (whole : Tree → Tree) : Prop :=
  ∃ start : Spot, ∀ t q,
    (whole t).look? (pre ++ q) = (t.look? q).map (fun seen => (start ++ seen.1, seen.2)) ∧
      ∀ n, (whole t).setLeaf n (pre ++ q) = whole (t.setLeaf n q)

theorem Surrounds.member {field : String} (members : List (Key × Tree))
    (h : (memberAt? field members).isSome) :
    Surrounds [.name field] fun t => .record (setMember field (fun _ => t) members) := by
  obtain ⟨⟨k, m⟩, hk⟩ := Option.isSome_iff_exists.mp h
  refine ⟨[k], fun t q => ⟨?_, fun n => ?_⟩⟩
  · simp only [List.cons_append, List.nil_append, Tree.look?, Tree.memberAt?_setMember, hk,
      Option.map_some, Option.bind_some]
    rfl
  · simp only [List.cons_append, List.nil_append, Tree.setLeaf, Tree.setMember_setMember]

/-- One leaf of a tree, at the end of a path, is a number in another tree, and no more is different. -/
def Rewrites (path : Path) (old : Json) (n : Number) (now next : Tree) : Prop :=
  ∃ address spot, path.Unfolds address ∧ now.look? address = some (spot, .leaf old) ∧
    next = now.setLeaf n address

namespace Rewrites

variable {path : Path} {old : Json} {n : Number} {now next : Tree}

theorem leaf (old : Json) (n : Number) : Rewrites [] old n (.data old) (.data (.num n)) :=
  ⟨[], [], .nil, rfl, rfl⟩

theorem within (short : Path) {pre : Path} {whole : Tree → Tree} (hwhole : Surrounds pre whole)
    (hunfolds : ∀ p q : Path, p.Unfolds q → (short ++ p).Unfolds (pre ++ q))
    (h : Rewrites path old n now next) : Rewrites (short ++ path) old n (whole now) (whole next) := by
  obtain ⟨address, spot, haddress, hlook, rfl⟩ := h
  obtain ⟨start, hwhole⟩ := hwhole
  refine ⟨pre ++ address, start ++ spot, hunfolds _ _ haddress, ?_, ?_⟩
  · rw [(hwhole now address).1, hlook]
    rfl
  · exact ((hwhole now address).2 n).symm

theorem member {field : String} {members : List (Key × Tree)} {k : Nat}
    (hmember : memberAt? field members = some (k, now)) (h : Rewrites path old n now next) :
    Rewrites (.name field :: path) old n (.record members)
      (.record (setMember field (fun _ => next) members)) := by
  have hthere : (memberAt? field members).isSome := by
    rw [hmember]
    rfl
  have hwithin := h.within [.name field] (.member members hthere) fun _ _ => .step _
  rwa [Tree.setMember_self hmember] at hwithin

theorem item {see : α → Tree} {list : List α} {i : Int} {k : Nat} {a b : α}
    (hk : position? list.length i = some k) (ha : list[k]? = some a)
    (h : Rewrites path old n (see a) (see b)) :
    Rewrites (.index i :: path) old n (.items (list.map see)) (.items ((list.set k b).map see)) := by
  obtain ⟨address, spot, hunfolds, hlook, hnext⟩ := h
  refine ⟨.index i :: address, k :: spot, .step _ hunfolds, ?_, ?_⟩
  · simp only [Tree.look?, List.length_map, hk, List.getElem?_map, ha, Option.map_some,
      Option.bind_some, hlook, Content.below]
  · simp only [Tree.setLeaf, List.length_map, hk]
    rw [List.map_set, hnext, List.modify_eq_set, List.getElem?_map, ha]
    rfl

end Rewrites

/-- What a number at the end of a path into `x` has to leave: one leaf is another one, and the path finds
the number. -/
def Fits (part : ρ → Part ρ) (see : ρ → Tree) (x : ρ) (path : Path) (old : Json) (n : Number) (y : ρ) :
    Prop :=
  Rewrites path old n (see x) (see y) ∧ (part y).value? path = some (.num n)

/-- Every number that can be put below a part leaves what it has to. -/
def Lawful (part : ρ → Part ρ) (see : ρ → Tree) (x : ρ) : Prop :=
  (part x).Takes (Fits part see x)

end TouchGame
