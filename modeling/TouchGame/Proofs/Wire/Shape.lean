import TouchGame.Proofs.Wire.Field

/-!
# Shapes that are read again

Points, regions, goals, movements and effects come back as they are. The extra fields of a record whose
type is unknown come back without those that are null, since an empty field is not written.

* `Point.returns`, `Region.returns`, `Goal.returns`, `Movement.returns`, `Effect.returns`.
* `Extra.nonNull`, `Extra.decode_again` : extra fields.
-/

namespace TouchGame

open Decode

theorem Point.returns (noun : String) (p : Point) :
    Returns (Point.decode noun) (fun p => (p.part noun).tree) id p := by
  refine record_returns rfl rfl fun fields w h => ?_
  have hgives := Decoded.gives h
  simp only [Decoded.seq_gives_iff, Decoded.map_gives_iff] at hgives
  obtain ⟨x, hx, y, hy, rfl⟩ := hgives
  rw [w.real rfl hx, w.real rfl hy]
  rfl

theorem Region.returns (r : Region) : Returns Region.decode (fun r => r.part.tree) id r := by
  refine record_returns rfl rfl fun fields w h => ?_
  have hgives := Decoded.gives h
  simp only [Decoded.seq_gives_iff, Decoded.map_gives_iff] at hgives
  obtain ⟨x, hx, y, hy, width, hwidth, height, hheight, rfl⟩ := hgives
  rw [w.real rfl hx, w.real rfl hy, w.real? rfl hwidth, w.real? rfl hheight]
  rfl

theorem Goal.returns (goal : Goal) : Returns Goal.decode (fun goal => goal.part.tree) id goal := by
  intro value hfinite h
  unfold Goal.decode at h
  split at h
  · cases h
    exact ⟨rfl, rfl⟩
  · split at h
    · rename_i p hp
      cases h
      obtain ⟨hnull, hread⟩ := Point.returns "Point" p value hfinite hp
      refine ⟨hnull, ?_⟩
      unfold Goal.decode
      split
      · rename_i id heq
        cases heq
      · rw [show Point.decode "Point" (Goal.point p).part.tree.toJson = .ok p from hread]
        rfl
    · cases h

theorem Movement.returns (m : Movement) : Returns Movement.decode (fun m => m.part.tree) id m := by
  refine record_returns rfl rfl fun fields w h => ?_
  have hgives := Decoded.gives h
  simp only [Decoded.seq_gives_iff, Decoded.map_gives_iff] at hgives
  obtain ⟨type, htype, target, htarget, speed, hspeed, duration, hduration, direction, hdirection,
    rfl⟩ := hgives
  rw [w.text? rfl htype, w.inner rfl Goal.returns htarget, w.real? rfl hspeed, w.real? rfl hduration,
    w.text? rfl hdirection]
  rfl

theorem Effect.returns (e : Effect) : Returns Effect.decode (fun e => e.part.tree) id e := by
  refine record_returns rfl rfl fun fields w h => ?_
  have hgives := Decoded.gives h
  simp only [Decoded.seq_gives_iff, Decoded.map_gives_iff] at hgives
  obtain ⟨type, htype, duration, hduration, intensity, hintensity, amount, hamount, rfl⟩ := hgives
  rw [w.text? rfl htype, w.real? rfl hduration, w.real? rfl hintensity, w.real? rfl hamount]
  rfl

/-! ## Faults in lists -/

theorem firstFault_map {α : Type} {fault : α → Option Fault} {keep : α → α} {list : List α}
    (h : ∀ a ∈ list, fault (keep a) = fault a) :
    (list.map keep).findSome? fault = list.findSome? fault := by
  induction list with
  | nil => rfl
  | cons a rest ih =>
    obtain ⟨ha, hrest⟩ := List.forall_mem_cons.mp h
    rw [List.map_cons, List.findSome?_cons, List.findSome?_cons, ha, ih hrest]

/-! ## Extra fields -/

namespace Extra

def nonNull (extras : List Extra) : List Extra :=
  extras.filter (!·.written.isNull)

def wireFields (type : Json) (extras : List Extra) : Json.Fields :=
  (if type.isNull then [] else [(Field.type.wire, type)]) ++
    (nonNull extras).map fun e => (e.name, e.written)

theorem toFields_free (pairs : List (Key × Json)) :
    Tree.toFields (pairs.map fun p => (p.1, .free p.2)) =
      (pairs.filter (!·.2.isNull)).map fun p => (p.1.wire, p.2.settled) := by
  induction pairs with
  | nil => rfl
  | cons p rest ih =>
    have hempty : (Tree.free p.2).isEmpty = p.2.isNull := by
      cases p.2 <;> rfl
    rw [List.map_cons, Tree.toFields, ih, List.filter_cons, hempty, Tree.toJson]
    cases p.2.isNull <;> rfl

theorem tree_ofExtras {ρ : Type} (type : Json) (extras : List Extra) (put : Json → List Extra → ρ) :
    (Part.ofExtras type extras put).tree =
      .record (((Field.type, type) :: extras.map fun e => (Key.word e.name, e.written)).map
        fun p => (p.1, .free p.2)) := by
  refine congrArg (Tree.record <| (Field.type, .free type) :: ·) (List.ext_getElem (by simp) ?_)
  intro i _ _
  simp [Part.map, Extra.part]

theorem toJson_ofExtras {ρ : Type} {type : Json} {extras : List Extra} {put : Json → List Extra → ρ}
    (htype : type.isFinite = true) (hextras : ∀ e ∈ extras, e.written.isFinite = true) :
    (Part.ofExtras type extras put).tree.toJson = .obj (wireFields type extras) := by
  have hfinite : ∀ p ∈ (Field.type, type) :: extras.map fun e => (Key.word e.name, e.written),
      p.2.isFinite = true := by
    simpa using ⟨htype, hextras⟩
  have hsettled : ∀ p ∈ ((Field.type, type) :: extras.map fun e =>
      (Key.word e.name, e.written)).filter (!·.2.isNull), (p.1.wire, p.2.settled) = (p.1.wire, p.2) :=
    fun p hp => by rw [Json.settled_of_isFinite (hfinite p (List.mem_filter.mp hp).1)]
  rw [tree_ofExtras, Tree.toJson, toFields_free, List.map_congr_left hsettled, List.filter_cons,
    List.filter_map]
  cases htype : type.isNull <;>
    simp [wireFields, nonNull, htype, Function.comp_def, Key.word]

theorem decode_spec {fields : Json.Fields} {extras : List Extra} (h : decode fields = .ok extras) :
    ∀ e ∈ extras, (e.name, e.written) ∈ fields ∧ Text.isWellFormed e.name = true ∧
      e.name ≠ Field.type.wire ∧ e = ⟨e.name, e.written, e.written⟩ := by
  unfold decode at h
  split at h
  · rename_i hnames
    cases h
    simp only [List.mem_map, List.mem_filter]
    rintro _ ⟨⟨name, value⟩, ⟨hmem, hname⟩, rfl⟩
    exact ⟨hmem, List.all_eq_true.mp hnames _ hmem, bne_iff_ne.mp hname, rfl⟩
  · cases h

theorem finite_of_decode {fields : Json.Fields} {extras : List Extra} (h : decode fields = .ok extras)
    (hfinite : Json.fieldsFinite fields = true) : ∀ e ∈ extras, e.written.isFinite = true :=
  fun e he => Json.isFinite_of_mem_fields hfinite _ (decode_spec h e he).1

/-- The extra fields that are not null are read again. -/
theorem decode_again {fields : Json.Fields} {type : Json} {extras : List Extra}
    (h : decode fields = .ok extras) : decode (wireFields type extras) = .ok (nonNull extras) := by
  -- Reading drops the type that writing has put first, and nothing else, since no other field is called so.
  have hspec : ∀ e ∈ nonNull extras, Text.isWellFormed e.name = true ∧ e.name ≠ Field.type.wire ∧
      e = ⟨e.name, e.written, e.written⟩ :=
    fun e he => (decode_spec h e (List.mem_filter.mp he).1).2
  have hnames : (wireFields type extras).all (fun field => Text.isWellFormed field.1) = true := by
    have htype : Text.isWellFormed Field.type.wire = true := by decide
    rw [wireFields, List.all_append, Bool.and_eq_true]
    constructor
    · split <;> simp [htype]
    · simpa using fun e he => (hspec e he).1
  have hown : ((if type.isNull then [] else [(Field.type.wire, type)]) : Json.Fields).filter
      (·.1 != Field.type.wire) = [] := by
    split <;> rfl
  have hothers : (((nonNull extras).map fun e => (e.name, e.written)).filter
      (·.1 != Field.type.wire)) = (nonNull extras).map fun e => (e.name, e.written) := by
    simpa using fun e he => (hspec e he).2.1
  refine (if_pos hnames).trans ?_
  rw [wireFields, List.filter_append, hown, hothers, List.nil_append, List.map_map]
  exact congrArg Decoded.ok ((List.map_congr_left fun e he => (hspec e he).2.2.symm).trans
    (List.map_id _))

theorem type_wireFields (type : Json) {fields : Json.Fields} {extras : List Extra}
    (h : decode fields = .ok extras) :
    (Json.get? (wireFields type extras) Field.type.wire).getD .null = type := by
  unfold wireFields
  split
  · rename_i hnull
    have hnone : (((nonNull extras).map fun e => (e.name, e.written)).lookup Field.type.wire) = none := by
      have hnames : ∀ e ∈ nonNull extras, Field.type.wire ≠ e.name :=
        fun e he => (decode_spec h e (List.mem_filter.mp he).1).2.2.1.symm
      simpa [List.lookup_eq_none_iff] using hnames
    rw [List.nil_append, Json.get?, hnone]
    cases type <;> first | rfl | cases hnull
  · rfl

theorem bind_text?_eq_none {α : Type} {type : Json} {known : String → Option (Decoded α)}
    (h : ∀ word, type = .str word → known word = none) :
    type.text?.bind (fun word => (known word).map fun d => (word, d)) = none := by
  cases type with
  | str word => simp [Json.text?, h word rfl]
  | _ => rfl

/-! ### Written without the null fields -/

theorem alike_nonNull {ρ σ : Type} (type : Json) (extras : List Extra) (put : Json → List Extra → ρ)
    (put' : Json → List Extra → σ) :
    Tree.Alike (Part.ofExtras type (nonNull extras) put).tree (Part.ofExtras type extras put').tree := by
  rw [tree_ofExtras, tree_ofExtras]
  refine .record ?_
  rw [toFields_free, toFields_free]
  simp only [List.filter_cons, List.filter_map, nonNull, List.filter_filter, Function.comp_def,
    Bool.and_self]

theorem writtenValues_nonNull (type : Json) (extras : List Extra) :
    writtenValues type (nonNull extras) = writtenValues type extras := by
  simp only [writtenValues, nonNull, List.filter_cons, List.filter_map, List.filter_filter,
    Function.comp_def, Bool.and_self]

end Extra

end TouchGame
