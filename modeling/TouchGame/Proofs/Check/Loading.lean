import TouchGame.Proofs.Check.References
import TouchGame.Proofs.Wire.Reading

/-!
# Names in loaded rule-sets

A field for a text is read as a text or stays empty, so in a rule-set that loads, every counter, every
sound and every object that a rule names has a text for a name. Only repairs put numbers elsewhere.

* `Action.decodeIn_names` : the names in an action; what it may pick is read too.
* `Game.decode_rules`, `Rule.decode_conditions` : what is read from a document is read item by item.
* `namesAreTexts_of_load` : the names in a rule-set that loads.
-/

namespace TouchGame

theorem Decode.name_of_optional {fields : Json.Fields} {key : Key} {s : Slot String}
    (h : optional fields key text = .ok s) :
    ∀ name, s.name? = some name → name.text?.isSome := by
  intro name hname
  cases s with
  | value t =>
    simp only [Slot.name?] at hname
    split at hname
    · cases hname
    · cases hname
      rfl
  | empty => cases hname
  | number n => exact absurd rfl (optional_ok h n)

/-! ## Conditions -/

namespace Condition

theorem decodeKnown?_names {fields : Json.Fields} {word : String} {read : Decoded Condition}
    {c : Condition} (h : decodeKnown? fields word = some read) (hc : read = .ok c) :
    ∀ name, c.counterName? = some name → name.text?.isSome := by
  have hgives := Decoded.gives hc
  intro name hname
  cases c with
  | counter field comparison value =>
    unfold decodeKnown? at h
    split at h
    all_goals cases h
    all_goals simp only [Decoded.seq_gives_iff, Decoded.map_gives_iff, reduceCtorEq, and_false,
      exists_false] at hgives
    obtain ⟨_, hfield, _, _, _, _, heq⟩ := hgives
    cases heq
    exact Decode.name_of_optional hfield name hname
  | _ => cases hname

theorem decode_names {value : Json} {c : Condition} (h : decode value = .ok c) :
    ∀ name, c.counterName? = some name → name.text?.isSome := by
  obtain ⟨fields, -, ⟨word, -, hread⟩ | ⟨extras, rfl, -, -⟩⟩ := decode_cases h
  · exact decodeKnown?_names hread rfl
  · intro name hname
    cases hname

end Condition

/-! ## Actions -/

namespace Action

/-- The names of counters and sounds in an action, and of what it shows or hides, are texts. -/
structure NamesAreTexts (a : Action) : Prop where
  names : ∀ name, a.counterName? = some name ∨ a.soundName? = some name → name.text?.isSome
  target : a.changesVisibility = true → ∀ field, a.worksOn? = some field →
    ∀ name, field.name? = some name → name.text?.isSome

theorem decodeKnown?_names {fields : Json.Fields} {word : String} {read : Decoded Action} {a : Action}
    (h : decodeKnown? fields word = some read) (ha : read = .ok a) : a.NamesAreTexts := by
  have hgives := Decoded.gives ha
  unfold decodeKnown? at h
  split at h
  all_goals cases h
  all_goals simp only [Decoded.seq_gives_iff, Decoded.map_gives_iff, Decoded.ok.injEq,
    exists_eq_left'] at hgives
  case h_3.refl =>
    obtain ⟨target, htarget, _, _, _, _, rfl⟩ := hgives
    exact ⟨fun name hname => hname.elim nofun nofun,
      fun _ field hfield => Option.some.inj hfield ▸ Decode.name_of_optional htarget⟩
  case h_4.refl =>
    obtain ⟨target, htarget, _, _, _, _, rfl⟩ := hgives
    exact ⟨fun name hname => hname.elim nofun nofun,
      fun _ field hfield => Option.some.inj hfield ▸ Decode.name_of_optional htarget⟩
  case h_11.refl =>
    obtain ⟨counter, hcounter, _, _, _, _, rfl⟩ := hgives
    exact ⟨fun name hname => Decode.name_of_optional hcounter name (hname.elim id nofun), nofun⟩
  case h_16.refl =>
    obtain ⟨sound, hsound, _, _, rfl⟩ := hgives
    exact ⟨fun name hname => Decode.name_of_optional hsound name (hname.elim nofun id), nofun⟩
  case h_17.refl =>
    obtain ⟨sound, hsound, rfl⟩ := hgives
    exact ⟨fun name hname => Decode.name_of_optional hsound name (hname.elim nofun id), nofun⟩
  -- The other types name no counter and no sound, and show and hide nothing.
  all_goals constructor <;> grind [counterName?, soundName?, changesVisibility]

theorem decodePlain_names {choices : Nat} {fields : Json.Fields} {type : Json} {a : Action}
    (h : decodePlain choices fields type = .ok a) : a.NamesAreTexts := by
  obtain ⟨-, ⟨word, -, hread⟩ | ⟨extras, rfl, -, -⟩⟩ := decodePlain_cases h
  · exact decodeKnown?_names hread rfl
  · exact ⟨fun name hname => hname.elim nofun nofun, nofun⟩

theorem decodeIn_names {choices : Nat} {value : Json} {a : Action} (h : decodeIn choices value = .ok a) :
    a.NamesAreTexts := by
  obtain ⟨fields, -, ⟨options, mode, weights, rfl, -⟩ | ⟨-, hread⟩⟩ := decodeIn_cases h
  · exact ⟨fun name hname => hname.elim nofun nofun, nofun⟩
  · exact decodePlain_names hread

end Action

/-! ## Rule-sets -/

theorem Trigger.decode_conditions {value : Json} {t : Trigger} (h : Trigger.decode value = .ok t) :
    ∀ c ∈ t.conditions, ∃ item, Condition.decode item = .ok c := by
  obtain ⟨fields, hread⟩ := Decode.record_ok h
  have hgives := Decoded.gives hread
  simp only [Decoded.seq_gives_iff, Decoded.map_gives_iff] at hgives
  obtain ⟨_, _, conditions, hconditions, rfl⟩ := hgives
  rcases Decode.defaulted_ok hconditions with rfl | ⟨list, hlist⟩
  · simp
  · exact Decode.list_ok hlist

theorem Rule.decode_conditions {value : Json} {r : Rule} (h : Rule.decode value = .ok r) :
    ∀ c ∈ r.conditions, ∃ item, Condition.decode item = .ok c := by
  obtain ⟨fields, hread⟩ := Decode.record_ok h
  have hgives := Decoded.gives hread
  simp only [Decoded.seq_gives_iff, Decoded.map_gives_iff] at hgives
  obtain ⟨_, _, _, _, _, _, trigger, htrigger, _, _, rfl⟩ := hgives
  intro c hc
  cases trigger with
  | value t =>
    obtain ⟨value, hvalue⟩ := Decode.optional_value htrigger
    exact Trigger.decode_conditions hvalue c hc
  | empty => cases hc
  | number n => cases hc

theorem Rule.decode_actions {value : Json} {r : Rule} (h : Rule.decode value = .ok r) :
    ∀ a ∈ r.actions, ∃ item, Action.decode item = .ok a := by
  obtain ⟨fields, hread⟩ := Decode.record_ok h
  have hgives := Decoded.gives hread
  simp only [Decoded.seq_gives_iff, Decoded.map_gives_iff] at hgives
  obtain ⟨_, _, _, _, _, _, _, _, actions, hactions, rfl⟩ := hgives
  rcases Decode.defaulted_ok hactions with rfl | ⟨list, hlist⟩
  · simp
  · exact Decode.list_ok hlist

theorem Rule.resolve_cases (r : Rule) (target : Slot String) :
    r.resolve target = r.targetObject ∨ r.resolve target = target := by
  unfold Rule.resolve
  split
  · exact .inl rfl
  · exact .inl rfl
  · exact .inr rfl

theorem Rule.decode_targetName {value : Json} {r : Rule} (h : Rule.decode value = .ok r) :
    ∀ name, r.targetObject.name? = some name → name.text?.isSome := by
  obtain ⟨fields, hread⟩ := Decode.record_ok h
  have hgives := Decoded.gives hread
  simp only [Decoded.seq_gives_iff, Decoded.map_gives_iff] at hgives
  obtain ⟨_, _, _, _, target, htarget, _, _, _, _, rfl⟩ := hgives
  exact Decode.name_of_optional htarget

theorem Rule.decode_allActions {value : Json} {r : Rule} (h : Rule.decode value = .ok r) :
    ∀ a ∈ r.allActions, a.NamesAreTexts := by
  intro a ha
  obtain ⟨b, hb, hab⟩ := List.mem_flatMap.mp ha
  obtain ⟨item, hitem⟩ := Rule.decode_actions h b hb
  rcases List.mem_cons.mp hab with rfl | hab
  · exact Action.decodeIn_names hitem
  · obtain ⟨pick, hpick⟩ := Action.decodeIn_picks hitem a hab
    exact Action.decodeIn_names hpick

theorem Rule.decode_names {value : Json} {r : Rule} (h : Rule.decode value = .ok r) :
    r.NamesAreTexts := by
  refine ⟨?_, fun a ha => (Rule.decode_allActions h a ha).names, ?_⟩
  · intro c hc
    obtain ⟨item, hitem⟩ := Rule.decode_conditions h c hc
    exact Condition.decode_names hitem
  · intro a ha name hname
    rw [Rule.shownOrHidden?] at hname
    split at hname
    · rename_i hvisible
      have htarget := (Rule.decode_allActions h a ha).target hvisible
      rw [Rule.objectOf] at hname
      split at hname
      · rename_i field hfield
        rcases Rule.resolve_cases r field with hobject | hown
        · exact Rule.decode_targetName h name (hobject ▸ hname)
        · exact htarget field hfield name (hown ▸ hname)
      · cases hname
    · cases hname

theorem Game.decodeScript_rules {value : Json} {script : List Placement × List Counter × List Rule}
    (h : Game.decodeScript value = .ok script) : ∀ r ∈ script.2.2, ∃ item, Rule.decode item = .ok r := by
  obtain ⟨fields, hread⟩ := Decode.record_ok h
  have hgives := Decoded.gives hread
  simp only [Decoded.seq_gives_iff, Decoded.map_gives_iff] at hgives
  obtain ⟨_, _, _, _, rules, hrules, rfl⟩ := hgives
  obtain ⟨list, hlist⟩ := Decode.required_ok hrules
  exact Decode.list_ok hlist

theorem Game.decode_rules {value : Json} {g : Game} (h : Game.decode value = .ok g) :
    ∀ r ∈ g.rules, ∃ item, Rule.decode item = .ok r := by
  obtain ⟨fields, hread⟩ := Decode.record_ok h
  have hgives := Decoded.gives hread
  simp only [Decoded.seq_gives_iff, Decoded.map_gives_iff] at hgives
  obtain ⟨script, hscript, _, _, rfl⟩ := hgives
  obtain ⟨value, hvalue⟩ := Decode.required_ok hscript
  exact Game.decodeScript_rules hvalue

theorem decode_of_load {document : Json} {g : Game} (h : Check.load document = .ok g) :
    Game.decode document = .ok g := by
  unfold Check.load at h
  split at h
  · split at h
    · rename_i game hgame
      cases h
      exact hgame
    · cases h
  · cases h

theorem namesAreTexts_of_load {document : Json} {g : Game} (h : Check.load document = .ok g) :
    g.NamesAreTexts := by
  intro r hr
  obtain ⟨item, hitem⟩ := Game.decode_rules (decode_of_load h) r hr
  exact Rule.decode_names hitem

end TouchGame
