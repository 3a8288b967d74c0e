import TouchGame.Proofs.Json.Literal
import TouchGame.Proofs.Mending.Checkup
import TouchGame.Script.Signature

/-!
# What a condition asks for

A condition inside a rule asks for the same whether its target is left out or the rule's own object, and
whether a choice is left out or its default. `Rule.settled` writes all of this out; two conditions are the
same descriptor if they are settled to the same.

Keys leave out four fields: the mode of a collision check, the frames and the loops of an animation, and the
seed of a chance. `Rule.told` is the descriptor without them.

* `Text.IsPlain`, `Slot.IsPlain`, `Condition.IsPlainIn`, `Rule.IsPlain` : texts without the marks of
  signatures.
* `Rule.settled`, `Rule.told` : descriptors.
* `slot_signature_iff`, `signatureOr_iff`, `numberSignature_iff`, `region_signature_iff` : what is written
  for one field tells the field.
-/

namespace TouchGame

/-! ## Plain texts -/

def Text.signatureMarks : List Char := [',', '|', '[', ']']

/-- A text that signatures can hold: it has none of their marks, and is not the dash that stands for an
absent field. -/
structure Text.IsPlain (s : String) : Prop where
  marks : FreeOf signatureMarks s.toList
  dash : s ≠ "-"

/-- Whether a text is plain is decided by looking at it. -/
instance (s : String) : Decidable (Text.IsPlain s) :=
  decidable_of_iff (Text.FreeOf Text.signatureMarks s.toList ∧ s ≠ "-")
    ⟨fun h => ⟨h.1, h.2⟩, fun h => ⟨h.marks, h.dash⟩⟩

/-- A field that is empty or holds a plain text. -/
def Slot.IsPlain : Slot String → Prop
  | .empty => True
  | .value s => Text.IsPlain s
  | .number _ => False

/-- Whether a field is plain is decided by its text. -/
instance : (s : Slot String) → Decidable s.IsPlain
  | .empty => .isTrue trivial
  | .value s => inferInstanceAs (Decidable (Text.IsPlain s))
  | .number _ => .isFalse id

/-- The texts of a condition of an unknown type: those inside its type and its other fields, and the names
of these. -/
def Extra.texts (type : Json) (extras : List Extra) : List String :=
  type.texts ++ extras.flatMap fun e => e.name :: e.written.texts

/-- A condition of a rule whose texts are plain, its target resolved. No other field of an unknown condition
has the name of its type. -/
def Condition.IsPlainIn (r : Rule) : Condition → Prop
  | .touch target touchType => (r.resolve target).IsPlain ∧ touchType.IsPlain
  | .time timeType _ _ => timeType.IsPlain
  | .counter name comparison _ => name.IsPlain ∧ comparison.IsPlain
  | .collision target collisionType checkMode =>
    (r.resolve target).IsPlain ∧ collisionType.IsPlain ∧ checkMode.IsPlain
  | .flag name flagState => name.IsPlain ∧ flagState.IsPlain
  | .gameState state => state.IsPlain
  | .position target area region =>
    (r.resolve target).IsPlain ∧ area.IsPlain ∧ ∀ n, region ≠ .number n
  | .animation target condition .. => (r.resolve target).IsPlain ∧ condition.IsPlain
  | .random _ seed => seed.IsPlain
  | .objectState target state => (r.resolve target).IsPlain ∧ state.IsPlain
  | .unknown type extras => (∀ s ∈ Extra.texts type extras, Text.IsPlain s) ∧
    ∀ e ∈ extras, e.name ≠ Field.type.wire

/-- A rule with plain texts in its conditions, joined by one of the two operators in any case of letters. -/
structure Rule.IsPlain (r : Rule) : Prop where
  conditions : ∀ c ∈ r.conditions, c.IsPlainIn r
  operator : Text.upperCase r.operator = "AND" ∨ Text.upperCase r.operator = "OR"

/-! ## Descriptors -/

/-- A choice, with the default where there is none. -/
def Slot.filled (default : String) : Slot String → Slot String
  | .value s => .value (if s.isEmpty then default else s)
  | .number n => .number n
  | .empty => .value default

/-- A region rounded as signatures round it. -/
def Region.rounded (r : Region) : Region where
  x := (roundedCoordinate r.x).leveled
  y := (roundedCoordinate r.y).leveled
  width := r.width.map fun n => (roundedCoordinate n).leveled
  height := r.height.map fun n => (roundedCoordinate n).leveled

/-- The fields of an unknown condition that are not null, sorted by name. -/
def Extra.pairs (extras : List Extra) : List (String × Json) :=
  ((extras.map fun e => (e.name, e.written)).filter (!·.2.isNull)).mergeSort
    fun a b => decide (a.1 ≤ b.1)

def Extra.present (extras : List Extra) : List Extra :=
  (Extra.pairs extras).map fun p => ⟨p.1, p.2, p.2⟩

/-- What a condition of a rule asks for: its target resolved, its choices written out, its region rounded,
and whole numbers written as such. -/
def Rule.settled (r : Rule) : Condition → Condition
  | .touch target touchType => .touch (r.resolve target) (touchType.filled "down")
  | .time timeType seconds interval =>
    .time timeType (seconds.map Number.leveled) (interval.map Number.leveled)
  | .counter counter comparison value =>
    .counter counter (comparison.filled "greaterOrEqual") (value.map Number.leveled)
  | .collision target collisionType checkMode =>
    .collision (r.resolve target) (collisionType.filled "enter") checkMode
  | .flag flag flagState => .flag flag (flagState.filled "ON")
  | .gameState state => .gameState state
  | .position target area region => .position (r.resolve target) area (region.mapValue Region.rounded)
  | .animation target condition frame frameRange loopCount =>
    .animation (r.resolve target) condition (frame.map Number.leveled)
      (frameRange.mapValue (·.map Number.leveled)) (loopCount.map Number.leveled)
  | .random probability seed => .random (probability.map Number.leveled) seed
  | .objectState target state => .objectState (r.resolve target) state
  | .unknown type extras => .unknown type (Extra.present extras)

/-- A condition without the fields that keys leave out. -/
def Condition.bared : Condition → Condition
  | .collision target collisionType _ => .collision target collisionType .empty
  | .animation target condition frame _ _ => .animation target condition frame .empty none
  | .random probability _ => .random probability .empty
  | c => c

/-- What a key tells of a condition. -/
def Rule.told (r : Rule) (c : Condition) : Condition :=
  (r.settled c).bared

/-! ## One field -/

section Fields

variable {s t : Slot String}

theorem slot_signature_iff (hs : s.IsPlain) (ht : t.IsPlain) : s.signature = t.signature ↔ s = t := by
  refine ⟨fun h => ?_, congrArg _⟩
  cases s with
  | number n => exact hs.elim
  | empty =>
    cases t with
    | number n => exact ht.elim
    | empty => rfl
    | value b => exact absurd h.symm ht.dash
  | value a =>
    cases t with
    | number n => exact ht.elim
    | empty => exact absurd h hs.dash
    | value b => exact congrArg _ h

theorem signatureOr_iff {default : String} (hs : s.IsPlain) (ht : t.IsPlain) :
    s.signatureOr default = t.signatureOr default ↔ s.filled default = t.filled default := by
  have hfilled {u : Slot String} (hu : u.IsPlain) : u.filled default = .value (u.signatureOr default) := by
    cases u with
    | number n => exact hu.elim
    | empty => rfl
    | value a => rfl
  rw [hfilled hs, hfilled ht, Slot.value.injEq]

theorem numberSignature_iff {a b : Option Number} :
    numberSignature a = numberSignature b ↔ a.map Number.leveled = b.map Number.leveled := by
  have hdash (n : Number) : n.signature ≠ "-" := by
    rw [Number.signature_eq]
    exact n.leveled.text_ne_dash
  cases a with
  | none =>
    cases b with
    | none => simp
    | some n => simpa [numberSignature] using (hdash n).symm
  | some m =>
    cases b with
    | none => simpa [numberSignature] using hdash m
    | some n => simpa [numberSignature] using Number.signature_eq_iff

theorem region_signature_iff {a b : Region} : a.signature = b.signature ↔ a.rounded = b.rounded := by
  have hmeasure (n : Option Number) : (n.map roundedCoordinate).map Number.leveled =
      n.map fun n => (roundedCoordinate n).leveled := Option.map_map ..
  simp only [Region.signature, Region.rounded, List.cons.injEq, and_true, Region.mk.injEq,
    Number.signature_eq_iff, numberSignature_iff, hmeasure]

theorem regionFields_iff {a b : Slot Region} (ha : ∀ n, a ≠ .number n) (hb : ∀ n, b ≠ .number n) :
    (a.get?.map (·.signature)).getD [] = (b.get?.map (·.signature)).getD [] ↔
      a.mapValue Region.rounded = b.mapValue Region.rounded := by
  cases a with
  | number n => exact absurd rfl (ha n)
  | empty =>
    cases b with
    | number n => exact absurd rfl (hb n)
    | empty => simp
    | value q => simp [Slot.get?, Slot.mapValue, Region.signature]
  | value p =>
    cases b with
    | number n => exact absurd rfl (hb n)
    | empty => simp [Slot.get?, Slot.mapValue, Region.signature]
    | value q => simpa [Slot.get?, Slot.mapValue] using region_signature_iff

end Fields

end TouchGame
