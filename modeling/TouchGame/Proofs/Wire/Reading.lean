import TouchGame.Check.Document
import TouchGame.Proofs.Mending.Action

/-!
# Readings taken apart

What a document is read as says what its fields are read as. A condition or an action is read by its
type: as one of a known type, or with all of its fields as they stand; a choice is read option by option,
each with one more choice around it.

* `Decoded.seq_gives_iff`, `map_gives_iff`, `within_ok_iff` : readings of several fields.
* `Decode.required_ok`, `defaulted_ok`, `optional_value`, `list_ok`, `record_ok` : the field behind a value.
* `Condition.decode_cases`, `Action.decodeIn_cases` : all that a condition or an action is read as.
* `Action.decodeOption_eq` : the reading of an option by its fields.
-/

namespace TouchGame

namespace Decoded

variable {α β : Type} {b : β} {holds : β → Prop}

theorem seq_gives_iff {f : Decoded (α → β)} {x : Decoded α} :
    (∃ b, (f <*> x) = .ok b ∧ holds b) ↔ ∃ h, f = .ok h ∧ ∃ a, x = .ok a ∧ holds (h a) := by
  cases f <;> cases x <;> simp [Seq.seq, apply]

theorem map_gives_iff {f : α → β} {x : Decoded α} :
    (∃ b, (f <$> x) = .ok b ∧ holds b) ↔ ∃ a, x = .ok a ∧ holds (f a) := by
  cases x <;> simp [Functor.map, map]

theorem gives {x : Decoded β} (h : x = .ok b) : ∃ c, x = .ok c ∧ c = b :=
  ⟨b, h, rfl⟩

@[simp] theorem within_ok_iff {step : Step} {x : Decoded β} : x.within step = .ok b ↔ x = .ok b := by
  cases x <;> simp [within]

@[simp] theorem map_eq_ok_iff {f : α → β} {x : Decoded α} :
    x.map f = .ok b ↔ ∃ a, x = .ok a ∧ f a = b := by
  cases x <;> simp [map]

@[simp] theorem fail_ne_ok {cause : Mismatch} : (Decoded.fail cause : Decoded β) = .ok b ↔ False := by
  simp [fail]

end Decoded

theorem Json.text?_eq_some_iff {value : Json} {word : String} :
    value.text? = some word ↔ value = .str word := by
  cases value <;> simp [text?]

namespace Decode

variable {α : Type} {fields : Json.Fields} {key : Key}

theorem optional_ok {read : Json → Decoded α} {s : Slot α}
    (h : optional fields key read = .ok s) : ∀ n, s ≠ .number n := by
  unfold optional at h
  split at h
  · cases h
    simp
  · rw [Decoded.map_eq_ok_iff] at h
    obtain ⟨a, _, rfl⟩ := h
    simp
  · cases h
    simp

theorem optional_value {read : Json → Decoded α} {a : α}
    (h : optional fields key read = .ok (.value a)) : ∃ value, read value = .ok a := by
  unfold optional at h
  split at h
  · cases h
  · simp only [Decoded.map_eq_ok_iff, Decoded.within_ok_iff] at h
    obtain ⟨b, hb, heq⟩ := h
    cases heq
    exact ⟨_, hb⟩
  · cases h

theorem required_ok {read : Json → Decoded α} {a : α} (h : required fields key read = .ok a) :
    ∃ value, read value = .ok a := by
  unfold required at h
  split at h
  · exact ⟨_, Decoded.within_ok_iff.mp h⟩
  · simp at h

theorem defaulted_ok {read : Json → Decoded α} {default a : α}
    (h : defaulted fields key default read = .ok a) : a = default ∨ ∃ value, read value = .ok a := by
  unfold defaulted at h
  split at h
  · exact .inr ⟨_, Decoded.within_ok_iff.mp h⟩
  · cases h
    exact .inl rfl

theorem itemsFrom_ok {read : Json → Decoded α} {index : Nat} {values : List Json} {items : List α}
    (h : itemsFrom read index values = .ok items) : ∀ a ∈ items, ∃ value, read value = .ok a := by
  induction values generalizing index items with
  | nil =>
    cases h
    simp
  | cons value rest ih =>
    rw [itemsFrom] at h
    have hgives := Decoded.gives h
    simp only [Decoded.seq_gives_iff, Decoded.map_gives_iff] at hgives
    obtain ⟨a, ha, tail, htail, rfl⟩ := hgives
    intro b hb
    rcases List.mem_cons.mp hb with rfl | hb
    · exact ⟨value, Decoded.within_ok_iff.mp ha⟩
    · exact ih htail b hb

theorem list_ok {read : Json → Decoded α} {value : Json} {items : List α}
    (h : list read value = .ok items) : ∀ a ∈ items, ∃ value, read value = .ok a := by
  cases value with
  | arr values => exact itemsFrom_ok h
  | _ => simp [list] at h

theorem record_ok {noun : String} {read : Json.Fields → Decoded α} {value : Json} {a : α}
    (h : record noun read value = .ok a) : ∃ fields, read fields = .ok a := by
  cases value with
  | obj fields => exact ⟨fields, h⟩
  | _ => simp [record] at h

theorem field?_cons_self (key : Key) (value : Json) (rest : Json.Fields) :
    field? ((key.wire, value) :: rest) key = some (key.wire, value) := by
  simp [field?, Json.get?]

theorem field?_cons_of_ne {key : Key} {name : String} (value : Json) (rest : Json.Fields)
    (hwire : name ≠ key.wire) (hname : name ≠ key.name) :
    field? ((name, value) :: rest) key = field? rest key := by
  simp [field?, Json.get?, List.lookup_cons, beq_eq_false_iff_ne.mpr hwire.symm,
    beq_eq_false_iff_ne.mpr hname.symm]

end Decode

/-! ## Conditions -/

namespace Condition

theorem decodeKnown?_word {fields : Json.Fields} {word : String} {read : Decoded Condition}
    {c : Condition} (h : decodeKnown? fields word = some read) (hc : read = .ok c) :
    c.word? = some word := by
  have hgives := Decoded.gives hc
  unfold decodeKnown? at h
  split at h
  all_goals cases h
  all_goals
    simp only [Decoded.seq_gives_iff, Decoded.map_gives_iff] at hgives
    grind [word?]

/-- A condition is read as one of a known type, or keeps its type and its extra fields. -/
theorem decode_cases {value : Json} {c : Condition} (h : decode value = .ok c) :
    ∃ fields, value = .obj fields ∧
      ((∃ word, (Json.get? fields Field.type.wire).getD .null = .str word ∧
          decodeKnown? fields word = some (.ok c)) ∨
        ∃ extras, c = .unknown ((Json.get? fields Field.type.wire).getD .null) extras ∧
          Extra.decode fields = .ok extras ∧
          ∀ word, (Json.get? fields Field.type.wire).getD .null = .str word →
            decodeKnown? fields word = none) := by
  unfold decode at h
  split at h
  · rename_i fields
    refine ⟨fields, rfl, ?_⟩
    dsimp only at h
    generalize (Json.get? fields Field.type.wire).getD .null = type at h ⊢
    split at h
    · rename_i word read hread
      simp only [Option.bind_eq_some_iff, Option.map_eq_some_iff, Prod.mk.injEq] at hread
      obtain ⟨word, htype, _, hread, rfl, rfl⟩ := hread
      refine .inl ⟨word, Json.text?_eq_some_iff.mp htype, ?_⟩
      rw [hread, Decoded.within_ok_iff.mp h]
    · rename_i hnone
      rw [Decoded.within_ok_iff, Decoded.map_eq_ok_iff] at h
      obtain ⟨extras, hextras, rfl⟩ := h
      refine .inr ⟨extras, rfl, hextras, ?_⟩
      rintro word rfl
      simpa [Json.text?] using hnone
  · simp at h

end Condition

/-! ## Actions -/

namespace Action

theorem decodeKnown?_word {fields : Json.Fields} {word : String} {read : Decoded Action} {a : Action}
    (h : decodeKnown? fields word = some read) (ha : read = .ok a) :
    a.word? = some word ∧ a.isChoice = false := by
  have hgives := Decoded.gives ha
  unfold decodeKnown? at h
  split at h
  all_goals cases h
  all_goals
    simp only [Decoded.seq_gives_iff, Decoded.map_gives_iff, Decoded.ok.injEq,
      exists_eq_left'] at hgives
    grind [word?, isChoice]

theorem inChoices_ok_iff {choices : Nat} {read : Decoded Action} {a : Action} :
    inChoices choices read = .ok a ↔ choices ≤ mostChoices ∧ read = .ok a := by
  unfold inChoices
  split
  · simp only [Decoded.fail_ne_ok, false_iff, not_and]
    omega
  · simp only [iff_and_self]
    omega

theorem inChoices_fail {choices : Nat} {cause : Mismatch} {step : Step} {a : Action}
    (h : (inChoices choices (.fail cause)).within step = .ok a) : False := by
  simpa using (inChoices_ok_iff.mp (Decoded.within_ok_iff.mp h)).2

/-- An action that is no choice is read as one of a known type, or keeps its type and its extra fields. -/
theorem decodePlain_cases {choices : Nat} {fields : Json.Fields} {type : Json} {a : Action}
    (h : decodePlain choices fields type = .ok a) : choices ≤ mostChoices ∧
      ((∃ word, type = .str word ∧ decodeKnown? fields word = some (.ok a)) ∨
        ∃ extras, a = .unknown type extras ∧ Extra.decode fields = .ok extras ∧
          ∀ word, type = .str word → decodeKnown? fields word = none) := by
  unfold decodePlain at h
  split at h
  · rename_i word read hread
    obtain ⟨hchoices, hok⟩ := inChoices_ok_iff.mp (Decoded.within_ok_iff.mp h)
    simp only [Option.bind_eq_some_iff, Option.map_eq_some_iff, Prod.mk.injEq] at hread
    obtain ⟨word, htype, _, hread, rfl, rfl⟩ := hread
    refine ⟨hchoices, .inl ⟨word, Json.text?_eq_some_iff.mp htype, ?_⟩⟩
    rw [hread, hok]
  · rename_i hnone
    obtain ⟨hchoices, hok⟩ := inChoices_ok_iff.mp (Decoded.within_ok_iff.mp h)
    rw [Decoded.map_eq_ok_iff] at hok
    obtain ⟨extras, hextras, rfl⟩ := hok
    refine ⟨hchoices, .inr ⟨extras, rfl, hextras, ?_⟩⟩
    rintro word rfl
    simpa [Json.text?] using hnone

open Decode

theorem decodeOptions_eq (choices index : Nat) (items : List Json) :
    decodeOptions choices index items = itemsFrom (decodeOption choices) index items := by
  induction items generalizing index with
  | nil => rfl
  | cons item rest ih => rw [decodeOptions, itemsFrom, ih]

theorem decodeOptionList_eq (choices : Nat) (value : Json) :
    decodeOptionList choices value = list (decodeOption choices) value := by
  cases value with
  | arr items => rw [decodeOptionList, list, decodeOptions_eq]
  | _ => rfl

theorem decodeOptionsField_eq (choices : Nat) (fields : Json.Fields) :
    decodeOptionsField choices fields =
      defaulted fields Field.actions [] (list (decodeOption choices)) := by
  induction fields with
  | nil => rfl
  | cons field rest ih =>
    obtain ⟨name, value⟩ := field
    rw [decodeOptionsField]
    split
    · rename_i hname
      cases beq_iff_eq.mp hname
      rw [decodeOptionList_eq]
      rfl
    · rename_i hname
      have hother : name ≠ Field.actions.wire := by simpa using hname
      rw [ih, defaulted, defaulted, field?_cons_of_ne value rest hother hother]

theorem decodeActionField_eq (choices : Nat) (fields : Json.Fields) :
    decodeActionField choices fields = required fields Field.action (decodeIn (choices + 1)) := by
  induction fields with
  | nil => rfl
  | cons field rest ih =>
    obtain ⟨name, value⟩ := field
    rw [decodeActionField]
    split
    · rename_i hname
      cases beq_iff_eq.mp hname
      rfl
    · rename_i hname
      have hother : name ≠ Field.action.wire := by simpa using hname
      rw [ih, required, required, field?_cons_of_ne value rest hother hother]

theorem decodeOption_eq (choices : Nat) : decodeOption choices =
    record "RandomActionOption" fun fields =>
      ChoiceOption.mk <$> required fields Field.action (decodeIn (choices + 1))
        <*> optionalNumber fields Field.weight real
        <*> optionalNumber fields Field.probability real := by
  funext value
  cases value with
  | obj fields => rw [decodeOption, record, decodeActionField_eq]
  | _ => rfl

theorem decodeIn_choice (choices : Nat) {fields : Json.Fields}
    (htype : (Json.get? fields Field.type.wire).getD .null = .str "randomAction") :
    decodeIn choices (.obj fields) = (inChoices choices (.choice
      <$> defaulted fields Field.actions [] (list (decodeOption choices))
      <*> optional fields Field.selectionMode text
      <*> optional fields Field.weights (list real))).within (.name "randomAction") := by
  rw [decodeIn, htype, decodeOptionsField_eq]
  rfl

theorem decodeIn_plain (choices : Nat) {fields : Json.Fields}
    (htype : (Json.get? fields Field.type.wire).getD .null ≠ .str "randomAction") :
    decodeIn choices (.obj fields) =
      decodePlain choices fields ((Json.get? fields Field.type.wire).getD .null) := by
  rw [decodeIn]
  split
  · exact absurd ‹_› htype
  · rfl

/-- An action is read as a choice, with its options, or as one that is no choice. -/
theorem decodeIn_cases {choices : Nat} {value : Json} {a : Action} (h : decodeIn choices value = .ok a) :
    ∃ fields, value = .obj fields ∧
      ((∃ options mode weights, a = .choice options mode weights ∧ choices ≤ mostChoices ∧
          defaulted fields Field.actions [] (list (decodeOption choices)) = .ok options ∧
          optional fields Field.selectionMode text = .ok mode ∧
          optional fields Field.weights (list real) = .ok weights) ∨
        ((Json.get? fields Field.type.wire).getD .null ≠ .str "randomAction" ∧
          decodePlain choices fields ((Json.get? fields Field.type.wire).getD .null) = .ok a)) := by
  cases value with
  | obj fields =>
    refine ⟨fields, rfl, ?_⟩
    by_cases htype : (Json.get? fields Field.type.wire).getD .null = .str "randomAction"
    · rw [decodeIn_choice choices htype] at h
      obtain ⟨hchoices, hread⟩ := inChoices_ok_iff.mp (Decoded.within_ok_iff.mp h)
      have hgives := Decoded.gives hread
      simp only [Decoded.seq_gives_iff, Decoded.map_gives_iff] at hgives
      obtain ⟨options, hoptions, mode, hmode, weights, hweights, rfl⟩ := hgives
      exact .inl ⟨options, mode, weights, rfl, hchoices, hoptions, hmode, hweights⟩
    · rw [decodeIn_plain choices htype] at h
      exact .inr ⟨htype, h⟩
  | _ => exact (inChoices_fail h).elim

theorem isChoice_of_decodePlain {choices : Nat} {fields : Json.Fields} {type : Json} {a : Action}
    (h : decodePlain choices fields type = .ok a) : a.isChoice = false := by
  obtain ⟨-, ⟨word, -, hread⟩ | ⟨extras, rfl, -, -⟩⟩ := decodePlain_cases h
  · exact (decodeKnown?_word hread rfl).2
  · rfl

theorem decodeIn_picks {choices : Nat} {value : Json} {a : Action} (h : decodeIn choices value = .ok a) :
    ∀ b ∈ a.picks, ∃ item, decodeIn (choices + 1) item = .ok b := by
  obtain ⟨fields, -, ⟨options, mode, weights, rfl, -, hoptions, -, -⟩ | ⟨-, hread⟩⟩ := decodeIn_cases h
  · intro b hb
    obtain ⟨o, ho, rfl⟩ := List.mem_map.mp hb
    rcases defaulted_ok hoptions with rfl | ⟨items, hitems⟩
    · cases ho
    · obtain ⟨item, hitem⟩ := list_ok hitems o ho
      rw [decodeOption_eq] at hitem
      obtain ⟨fields, hfields⟩ := record_ok hitem
      have hgives := Decoded.gives hfields
      simp only [Decoded.seq_gives_iff, Decoded.map_gives_iff] at hgives
      obtain ⟨action, haction, _, _, _, _, rfl⟩ := hgives
      exact required_ok haction
  · have hplain := isChoice_of_decodePlain hread
    cases a with
    | choice => cases hplain
    | _ => exact fun b hb => nomatch hb

end Action

end TouchGame
