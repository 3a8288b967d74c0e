import TouchGame.Script.Part

/-!
# What stands in a tree

A path into a record leads to one of its leaves, or to a list or a record on the way there. The positions
on its way tell where that is: paths that name an item from the front and from the back lead to the same
spot. A number that is put at a leaf is seen by every path that leads to the spot, and by no other.

* `Tree.look?` : the spot that a path leads to, and what stands there.
* `Tree.setLeaf` : a tree with a number in the place of a leaf.
* `Tree.look?_setLeaf` : what all paths see behind such a change.
* `Tree.at?_of_look?` : a spot is one place, whatever paths lead there.
-/

namespace TouchGame

/-- What stands somewhere in a tree: a value, a list of some length, or a record. -/
inductive Content where
  | leaf (value : Json)
  | list (length : Nat)
  | record

abbrev Spot := List Nat

/-- What is seen one step further from the root. -/
def Content.below (k : Nat) (seen : Spot × Content) : Spot × Content :=
  (k :: seen.1, seen.2)

/-! ## Free-form data -/

namespace Json

def content : Json → Content
  | .arr items => .list items.length
  | value => .leaf value

/-- What a path into free-form data leads to. -/
def look? : Path → Json → Option (Spot × Content)
  | [], value => some ([], value.content)
  | .index i :: rest, .arr items =>
    (position? items.length i).bind fun k => (items[k]?).bind fun item =>
      (look? rest item).map (Content.below k)
  | _, _ => none

/-- Free-form data with a number at the end of a path. -/
def setLeaf (n : Number) : Path → Json → Json
  | [], _ => .num n
  | .index i :: rest, .arr items =>
    match position? items.length i with
    | some k => .arr (items.modify k (setLeaf n rest))
    | none => .arr items
  | _, value => value

end Json

/-! ## Trees -/

/-- The first member of a name, with its position. -/
def memberAt? (field : String) : List (Key × Tree) → Option (Nat × Tree)
  | [] => none
  | (key, member) :: rest =>
    if key.name == field then some (0, member)
    else (memberAt? field rest).map fun (k, found) => (k + 1, found)

/-- Members with a change of the first one of a name. -/
def setMember (field : String) (change : Tree → Tree) : List (Key × Tree) → List (Key × Tree)
  | [] => []
  | (key, member) :: rest =>
    if key.name == field then (key, change member) :: rest
    else (key, member) :: setMember field change rest

namespace Tree

/-- A tree as the content of a spot. -/
def content : Tree → Content
  | .data value => .leaf value
  | .free value => value.content
  | .record _ => .record
  | .items list => .list list.length

/-- What a path into a tree leads to. -/
def look? : Path → Tree → Option (Spot × Content)
  | path, .free value => value.look? path
  | [], t => some ([], t.content)
  | .name field :: rest, .record members =>
    (memberAt? field members).bind fun (k, member) => (look? rest member).map (Content.below k)
  | .index i :: rest, .items list =>
    (position? list.length i).bind fun k => (list[k]?).bind fun item =>
      (look? rest item).map (Content.below k)
  | _, _ => none

/-- A tree with a number at the end of a path. -/
def setLeaf (n : Number) : Path → Tree → Tree
  | path, .free value => .free (value.setLeaf n path)
  | [], _ => .data (.num n)
  | .name field :: rest, .record members => .record (setMember field (setLeaf n rest) members)
  | .index i :: rest, .items list =>
    match position? list.length i with
    | some k => .items (list.modify k (setLeaf n rest))
    | none => .items list
  | _, t => t

end Tree

/-! ## Changes of one leaf -/

def Content.behind (spot : Spot) (n : Number) (seen : Spot × Content) : Spot × Content :=
  (seen.1, if seen.1 = spot then .leaf (.num n) else seen.2)

theorem Content.behind_below (spot : Spot) (n : Number) (k : Nat) (seen : Spot × Content) :
    behind (k :: spot) n (below k seen) = below k (behind spot n seen) := by
  simp [behind, below]

theorem Content.behind_elsewhere {spot : Spot} {n : Number} {k j : Nat} {seen : Spot × Content}
    (h : k ≠ j) : behind (j :: spot) n (below k seen) = below k seen := by
  simp [behind, below, h]

/-- One item of a list with a change of a leaf inside it, as paths from the list see it. -/
theorem look?_modify {α : Type} {list : List α} {look : α → Option (Spot × Content)} {change : α → α}
    {k : Nat} {item : α} {spot : Spot} {n : Number} (hitem : list[k]? = some item)
    (hchange : look (change item) = (look item).map (Content.behind spot n)) (j : Nat) :
    (((list.modify k change)[j]?).bind fun item => (look item).map (Content.below j)) =
      ((list[j]?).bind fun item => (look item).map (Content.below j)).map
        (Content.behind (k :: spot) n) := by
  by_cases hj : k = j
  · subst hj
    rw [List.getElem?_modify_eq, hitem]
    simp only [Option.map_eq_map, Option.map_some, Option.bind_some, hchange, Option.map_map]
    congr 1
    funext seen
    exact (Content.behind_below spot n k seen).symm
  · rw [List.getElem?_modify_ne _ _ hj]
    cases list[j]? with
    | none => rfl
    | some other =>
      simp only [Option.bind_some, Option.map_map]
      congr 1
      funext seen
      exact (Content.behind_elsewhere (Ne.symm hj)).symm

namespace Json

variable {n : Number} {p : Path} {v old : Json} {spot : Spot}

theorem look?_setLeaf (h : v.look? p = some (spot, .leaf old)) (q : Path) :
    (v.setLeaf n p).look? q = (v.look? q).map (Content.behind spot n) := by
  induction p generalizing v spot q with
  | nil =>
    obtain ⟨rfl, hleaf⟩ : [] = spot ∧ v.content = .leaf old := by simpa [look?] using h
    cases q with
    | nil => simp [setLeaf, look?, content, Content.behind]
    | cons step rest =>
      cases v with
      | arr items => cases hleaf
      | _ => cases step <;> rfl
  | cons step rest ih =>
    cases step with
    | name field => cases v <;> cases h
    | index i =>
      cases v with
      | arr items =>
        simp only [look?, Option.bind_eq_some_iff, Option.map_eq_some_iff] at h
        obtain ⟨k, hk, item, hitem, ⟨spot', c⟩, hlook, heq⟩ := h
        cases heq
        have hset : (arr items).setLeaf n (.index i :: rest) = arr (items.modify k (setLeaf n rest)) := by
          simp only [setLeaf, hk]
        rw [hset]
        cases q with
        | nil => simp [look?, content, Content.behind]
        | cons step' rest' =>
          cases step' with
          | name => rfl
          | index j =>
            simp only [look?, List.length_modify]
            cases position? items.length j with
            | none => rfl
            | some j => exact look?_modify hitem (ih hlook rest') j
      | _ => cases h

end Json

namespace Tree

variable {n : Number} {p : Path} {t : Tree} {old : Json} {spot : Spot}

@[simp] theorem look?_free (q : Path) (value : Json) : (free value).look? q = value.look? q := by
  cases q <;> rfl

@[simp] theorem setLeaf_free (q : Path) (value : Json) :
    (free value).setLeaf n q = .free (value.setLeaf n q) := by
  cases q <;> rfl

theorem look?_free_setLeaf {value : Json} (h : (free value).look? p = some (spot, .leaf old))
    (q : Path) : ((free value).setLeaf n p).look? q =
      ((free value).look? q).map (Content.behind spot n) := by
  rw [look?_free] at h
  rw [setLeaf_free, look?_free, look?_free]
  exact Json.look?_setLeaf h q

theorem getElem?_of_memberAt? {field : String} {members : List (Key × Tree)} {k : Nat} {m : Tree}
    (h : memberAt? field members = some (k, m)) :
    ∃ key, members[k]? = some (key, m) ∧ key.name = field := by
  induction members generalizing k with
  | nil => cases h
  | cons first rest ih =>
    obtain ⟨key, member⟩ := first
    rw [memberAt?] at h
    split at h
    · rename_i hname
      cases h
      exact ⟨key, rfl, beq_iff_eq.mp hname⟩
    · obtain ⟨⟨k, m⟩, hrest, heq⟩ := Option.map_eq_some_iff.mp h
      cases heq
      exact ih hrest

theorem memberAt?_of_first {members : List (Key × Tree)} {i : Nat} {key : Key} {m : Tree}
    (h : members[i]? = some (key, m))
    (hfirst : ∀ j < i, (members.map (·.1.name))[j]? ≠ some key.name) :
    memberAt? key.name members = some (i, m) := by
  induction members generalizing i with
  | nil => cases h
  | cons first rest ih =>
    cases i with
    | zero =>
      cases h
      rw [memberAt?, if_pos (by simp)]
    | succ i =>
      have hne : ¬ (first.1.name == key.name) = true := by
        rw [beq_iff_eq]
        exact fun heq => hfirst 0 (Nat.succ_pos i) (congrArg some heq)
      rw [memberAt?, if_neg hne, ih h fun j hj => hfirst (j + 1) (Nat.succ_lt_succ hj)]
      rfl

theorem setMember_of_first {members : List (Key × Tree)} {i : Nat} {key : Key} {m : Tree}
    {change : Tree → Tree} (h : members[i]? = some (key, m))
    (hfirst : ∀ j < i, (members.map (·.1.name))[j]? ≠ some key.name) :
    setMember key.name change members = members.set i (key, change m) := by
  induction members generalizing i with
  | nil => cases h
  | cons first rest ih =>
    cases i with
    | zero =>
      cases h
      rw [setMember, if_pos (by simp)]
      rfl
    | succ i =>
      have hne : ¬ (first.1.name == key.name) = true := by
        rw [beq_iff_eq]
        exact fun heq => hfirst 0 (Nat.succ_pos i) (congrArg some heq)
      rw [setMember, if_neg hne, ih h fun j hj => hfirst (j + 1) (Nat.succ_lt_succ hj)]
      rfl

theorem memberAt?_setMember {field : String} {change : Tree → Tree} {members : List (Key × Tree)} :
    memberAt? field (setMember field change members) =
      (memberAt? field members).map fun (k, m) => (k, change m) := by
  induction members with
  | nil => rfl
  | cons first rest ih =>
    obtain ⟨key, member⟩ := first
    rw [setMember, memberAt?]
    split
    · rename_i hname
      rw [memberAt?, if_pos hname]
      rfl
    · rename_i hname
      rw [memberAt?, if_neg hname, ih, Option.map_map, Option.map_map]
      rfl

theorem setMember_setMember {field : String} {change change' : Tree → Tree}
    {members : List (Key × Tree)} :
    setMember field change (setMember field change' members) =
      setMember field (fun m => change (change' m)) members := by
  induction members with
  | nil => rfl
  | cons first rest ih =>
    obtain ⟨key, member⟩ := first
    rw [setMember, setMember]
    split
    · rename_i hname
      rw [setMember, if_pos hname]
    · rename_i hname
      rw [setMember, if_neg hname, ih]

theorem setMember_self {field : String} {members : List (Key × Tree)} {k : Nat} {m : Tree}
    (h : memberAt? field members = some (k, m)) : setMember field (fun _ => m) members = members := by
  induction members generalizing k with
  | nil => rfl
  | cons first rest ih =>
    obtain ⟨key, member⟩ := first
    rw [memberAt?] at h
    rw [setMember]
    split
    · rename_i hname
      rw [if_pos hname] at h
      cases h
      rfl
    · rename_i hname
      rw [if_neg hname] at h
      obtain ⟨⟨j, m⟩, hrest, heq⟩ := Option.map_eq_some_iff.mp h
      cases heq
      rw [ih hrest]

theorem memberAt?_setMember_of_ne {field other : String} {change : Tree → Tree}
    {members : List (Key × Tree)} (h : other ≠ field) :
    memberAt? other (setMember field change members) = memberAt? other members := by
  induction members with
  | nil => rfl
  | cons first rest ih =>
    obtain ⟨key, member⟩ := first
    rw [setMember]
    split
    · rename_i hname
      have hother : ¬ (key.name == other) = true := by
        rw [beq_iff_eq.mp hname, beq_iff_eq]
        exact Ne.symm h
      rw [memberAt?, memberAt?, if_neg hother, if_neg hother]
    · rw [memberAt?, memberAt?, ih]

/-- A number in the place of a leaf is what all paths to its spot see, and no other path sees a
change. -/
theorem look?_setLeaf (h : t.look? p = some (spot, .leaf old)) (q : Path) :
    (t.setLeaf n p).look? q = (t.look? q).map (Content.behind spot n) := by
  induction p generalizing t spot q with
  | nil =>
    cases t with
    | free value => exact look?_free_setLeaf h q
    | data value =>
      cases h
      cases q with
      | nil => simp [setLeaf, look?, content, Content.behind]
      | cons step rest => cases step <;> rfl
    | record members => cases h
    | items list => cases h
  | cons step rest ih =>
    cases t with
    | free value => exact look?_free_setLeaf h q
    | data value => cases step <;> cases h
    | record members =>
      cases step with
      | index i => cases h
      | name field =>
        simp only [look?, Option.bind_eq_some_iff, Option.map_eq_some_iff] at h
        obtain ⟨⟨k, member⟩, hmember, ⟨spot', c⟩, hlook, heq⟩ := h
        cases heq
        cases q with
        | nil => simp [setLeaf, look?, content, Content.behind]
        | cons step' rest' =>
          cases step' with
          | index => rfl
          | name other =>
            simp only [setLeaf, look?]
            by_cases hother : other = field
            · subst hother
              rw [memberAt?_setMember, hmember]
              simp only [Option.map_some, Option.bind_some, ih hlook rest', Option.map_map]
              congr 1
              funext seen
              exact (Content.behind_below spot' n k seen).symm
            · rw [memberAt?_setMember_of_ne hother]
              cases hfound : memberAt? other members with
              | none => rfl
              | some found =>
                obtain ⟨j, m⟩ := found
                -- The member of another name stands at another position.
                have hj : j ≠ k := by
                  rintro rfl
                  obtain ⟨key, hkey, hname⟩ := getElem?_of_memberAt? hmember
                  obtain ⟨key', hkey', hname'⟩ := getElem?_of_memberAt? hfound
                  rw [hkey, Option.some.injEq, Prod.mk.injEq] at hkey'
                  exact hother (by rw [← hname, ← hname', hkey'.1])
                simp only [Option.bind_some, Option.map_map]
                congr 1
                funext seen
                exact (Content.behind_elsewhere hj).symm
    | items list =>
      cases step with
      | name field => cases h
      | index i =>
        simp only [look?, Option.bind_eq_some_iff, Option.map_eq_some_iff] at h
        obtain ⟨k, hk, item, hitem, ⟨spot', c⟩, hlook, heq⟩ := h
        cases heq
        have hset : (items list).setLeaf n (.index i :: rest) =
            items (list.modify k (setLeaf n rest)) := by
          simp only [setLeaf, hk]
        rw [hset]
        cases q with
        | nil => simp [look?, content, Content.behind]
        | cons step' rest' =>
          cases step' with
          | name => rfl
          | index j =>
            simp only [look?, List.length_modify]
            cases position? list.length j with
            | none => rfl
            | some j => exact look?_modify hitem (ih hlook rest') j

end Tree

/-! ## Spots -/

/-- What stands at a spot of free-form data. -/
def Json.at? : Spot → Json → Option Content
  | [], value => some value.content
  | k :: spot, .arr items => (items[k]?).bind (at? spot)
  | _, _ => none

/-- What stands at a spot of a tree. -/
def Tree.at? : Spot → Tree → Option Content
  | spot, .free value => value.at? spot
  | [], t => some t.content
  | k :: spot, .record members => (members[k]?).bind fun (_, member) => member.at? spot
  | k :: spot, .items list => (list[k]?).bind (at? spot)
  | _, _ => none

theorem Json.at?_of_look? {p : Path} {v : Json} {spot : Spot} {c : Content}
    (h : v.look? p = some (spot, c)) : v.at? spot = some c := by
  induction p generalizing v spot with
  | nil =>
    cases h
    cases v <;> rfl
  | cons step rest ih =>
    cases step with
    | name field => cases v <;> cases h
    | index i =>
      cases v with
      | arr items =>
        simp only [look?, Option.bind_eq_some_iff, Option.map_eq_some_iff] at h
        obtain ⟨k, _, item, hitem, ⟨spot', c'⟩, hlook, heq⟩ := h
        cases heq
        rw [at?, hitem]
        exact ih hlook
      | _ => cases h

theorem Tree.at?_free (spot : Spot) (value : Json) : (free value).at? spot = value.at? spot := by
  cases spot <;> rfl

/-- A path leads to what stands at its spot. -/
theorem Tree.at?_of_look? {p : Path} {t : Tree} {spot : Spot} {c : Content}
    (h : t.look? p = some (spot, c)) : t.at? spot = some c := by
  induction p generalizing t spot with
  | nil =>
    cases t with
    | free value =>
      rw [at?_free]
      exact Json.at?_of_look? h
    | _ =>
      cases h
      rfl
  | cons step rest ih =>
    cases t with
    | free value =>
      rw [at?_free]
      exact Json.at?_of_look? h
    | data value => cases step <;> cases h
    | record members =>
      cases step with
      | index i => cases h
      | name field =>
        simp only [look?, Option.bind_eq_some_iff, Option.map_eq_some_iff] at h
        obtain ⟨⟨k, member⟩, hmember, ⟨spot', c'⟩, hlook, heq⟩ := h
        cases heq
        obtain ⟨key, hkey, _⟩ := getElem?_of_memberAt? hmember
        rw [at?, hkey]
        exact ih hlook
    | items list =>
      cases step with
      | name field => cases h
      | index i =>
        simp only [look?, Option.bind_eq_some_iff, Option.map_eq_some_iff] at h
        obtain ⟨k, _, item, hitem, ⟨spot', c'⟩, hlook, heq⟩ := h
        cases heq
        rw [at?, hitem]
        exact ih hlook

theorem Tree.look?_setLeaf_kept {t : Tree} {p q : Path} {spot s : Spot} {old : Json} {c : Content}
    {n : Number} (h : t.look? p = some (spot, .leaf old)) (hq : t.look? q = some (s, c))
    (hc : ∀ value, c ≠ .leaf value) : (t.setLeaf n p).look? q = some (s, c) := by
  have hne : s ≠ spot := by
    rintro rfl
    have hsame := (at?_of_look? hq).symm.trans (at?_of_look? h)
    exact hc old (Option.some.inj hsame)
  rw [look?_setLeaf h, hq]
  simp [Content.behind, hne]

end TouchGame
