import TouchGame.Proofs.Wire.Shape
import TouchGame.Script.Depth

/-!
# Actions that are read again

An action comes back as it is, but for the null fields of unknown types, its own or those of what it may
pick. The choices around an action are counted anew, and are as many as before.

* `Action.withoutNulls` : what comes back.
* `Action.returns` : every action that is read.
* `Action.alike`, `depthFault?_withoutNulls` : the null fields are not written.
-/

namespace TouchGame.Action

open Decode

mutual

/-- An action without the null fields of unknown types, in what it may pick too. -/
def withoutNulls : Action → Action
  | .choice options mode weights => .choice (optionsWithoutNulls options) mode weights
  | .unknown type extras => .unknown type (Extra.nonNull extras)
  | a => a

/-- The options of a choice without the null fields of unknown types. -/
def optionsWithoutNulls : List (ChoiceOption Action) → List (ChoiceOption Action)
  | [] => []
  | ⟨action, weight, probability⟩ :: rest =>
    ⟨withoutNulls action, weight, probability⟩ :: optionsWithoutNulls rest

end

def optionWithoutNulls (o : ChoiceOption Action) : ChoiceOption Action :=
  { o with action := o.action.withoutNulls }

theorem optionsWithoutNulls_eq_map (options : List (ChoiceOption Action)) :
    optionsWithoutNulls options = options.map optionWithoutNulls := by
  induction options with
  | nil => rfl
  | cons o rest ih => rw [optionsWithoutNulls, ih]; rfl

/-! ## Actions of known types -/

theorem withoutNulls_of_known {a : Action} (h : a.word?.isSome) (hplain : a.isChoice = false) :
    a.withoutNulls = a := by
  cases a with
  | unknown => cases h
  | choice => cases hplain
  | _ => rfl

theorem rewritten {fields : Json.Fields} {a : Action} (hfinite : Json.fieldsFinite fields = true)
    (h : a.word?.isSome) : Rewritten fields a.part.tree.members := by
  refine ⟨hfinite, ?_⟩
  cases a with
  | unknown => cases h
  | _ => rfl

theorem decodeKnown?_again {fields : Json.Fields} {word : String} {a : Action}
    (w : Rewritten fields a.part.tree.members) (h : decodeKnown? fields word = some (.ok a)) :
    decodeKnown? (Tree.toFields a.part.tree.members) word = some (.ok a) := by
  unfold decodeKnown? at h
  split at h
  case h_27 => cases h
  case h_19 | h_26 =>
    cases h
    rfl
  all_goals
    have hgives := Decoded.gives (Option.some.inj h)
    simp only [Decoded.seq_gives_iff, Decoded.map_gives_iff] at hgives
    refine congrArg some ?_
  case h_1 | h_2 =>
    obtain ⟨score, hscore, message, hmessage, rfl⟩ := hgives
    rw [w.quantity? rfl hscore, w.text? rfl hmessage]
    rfl
  case h_3 | h_4 =>
    obtain ⟨target, htarget, fade, hfade, duration, hduration, rfl⟩ := hgives
    rw [w.text? rfl htarget, w.flag? rfl hfade, w.real? rfl hduration]
    rfl
  case h_5 =>
    obtain ⟨target, htarget, movement, hmovement, rfl⟩ := hgives
    rw [w.text? rfl htarget, w.inner rfl Movement.returns hmovement]
    rfl
  case h_6 =>
    obtain ⟨target, htarget, constraint, hconstraint, smooth, hsmooth, rfl⟩ := hgives
    rw [w.text? rfl htarget, w.text? rfl hconstraint, w.flag? rfl hsmooth]
    rfl
  case h_7 | h_8 =>
    obtain ⟨target, htarget, push, hpush, rfl⟩ := hgives
    rw [w.text? rfl htarget, w.inner rfl (Point.returns "Vector") hpush]
    rfl
  case h_9 | h_16 | h_22 | h_24 =>
    obtain ⟨name, hname, amount, hamount, rfl⟩ := hgives
    rw [w.text? rfl hname, w.real? rfl hamount]
    rfl
  case h_10 =>
    obtain ⟨target, htarget, physics, hphysics, rfl⟩ := hgives
    rw [w.text? rfl htarget, w.object? rfl hphysics]
    rfl
  case h_11 =>
    obtain ⟨counter, hcounter, operation, hoperation, value, hvalue, rfl⟩ := hgives
    rw [w.text? rfl hcounter, w.text? rfl hoperation, w.quantity? rfl hvalue]
    rfl
  case h_12 =>
    obtain ⟨points, hpoints, rfl⟩ := hgives
    rw [w.quantity? rfl hpoints]
    rfl
  case h_13 | h_21 =>
    obtain ⟨name, hname, flag, hflag, rfl⟩ := hgives
    rw [w.text? rfl hname, w.flag? rfl hflag]
    rfl
  case h_14 | h_17 =>
    obtain ⟨name, hname, rfl⟩ := hgives
    rw [w.text? rfl hname]
    rfl
  case h_15 =>
    obtain ⟨target, htarget, effect, heffect, rfl⟩ := hgives
    rw [w.text? rfl htarget, w.inner rfl Effect.returns heffect]
    rfl
  case h_18 | h_25 =>
    obtain ⟨amount, hamount, rfl⟩ := hgives
    rw [w.real? rfl hamount]
    rfl
  case h_20 =>
    obtain ⟨target, htarget, index, hindex, start, hstart, play, hplay, loop, hloop, speed, hspeed,
      reverse, hreverse, rfl⟩ := hgives
    rw [w.text? rfl htarget, w.integer? rfl hindex, w.integer? rfl hstart, w.flag? rfl hplay,
      w.flag? rfl hloop, w.real? rfl hspeed, w.flag? rfl hreverse]
    rfl
  case h_23 =>
    obtain ⟨target, htarget, frame, hframe, rfl⟩ := hgives
    rw [w.text? rfl htarget, w.integer? rfl hframe]
    rfl

theorem decodeKnown?_eq_none {fields : Json.Fields} {word : String} (h : decodeKnown? fields word = none)
    (others : Json.Fields) : decodeKnown? others word = none := by
  unfold decodeKnown? at h
  split at h
  case h_27 =>
    unfold decodeKnown?
    split <;> simp_all
  all_goals cases h

theorem toJson_known {a : Action} (h : a.word?.isSome) :
    a.part.tree.toJson = .obj (Tree.toFields a.part.tree.members) := by
  cases a with
  | unknown => cases h
  | _ => rfl

theorem type_known {a : Action} {word : String} (h : a.word? = some word) :
    (Json.get? (Tree.toFields a.part.tree.members) Field.type.wire).getD .null = .str word := by
  cases a with
  | unknown => cases h
  | _ =>
    cases h
    rfl

/-! ## Reading by type -/

theorem decodePlain_known {choices : Nat} {fields : Json.Fields} {word : String} {a : Action}
    (hchoices : choices ≤ mostChoices) (h : decodeKnown? fields word = some (.ok a)) :
    decodePlain choices fields (.str word) = .ok a := by
  have hread : inChoices choices (.ok a) = .ok a := inChoices_ok_iff.mpr ⟨hchoices, rfl⟩
  simp [decodePlain, Json.text?, h, hread, Decoded.within]

theorem decodePlain_unknown {choices : Nat} {fields : Json.Fields} {type : Json} {extras : List Extra}
    (hchoices : choices ≤ mostChoices) (hextras : Extra.decode fields = .ok extras)
    (h : ∀ word, type = .str word → decodeKnown? fields word = none) :
    decodePlain choices fields type = .ok (.unknown type extras) := by
  have hread : inChoices choices (.ok (.unknown type extras)) = .ok (.unknown type extras) :=
    inChoices_ok_iff.mpr ⟨hchoices, rfl⟩
  simp [decodePlain, Extra.bind_text?_eq_none h, hextras, hread, Decoded.map, Decoded.within]

/-! ## Actions that come back -/

theorem plain_returns {a : Action} (hplain : a.isChoice = false) (choices : Nat) :
    Returns (decodeIn choices) (fun a => a.part.tree) withoutNulls a := by
  intro value hfinite h
  obtain ⟨fields, rfl, ⟨_, _, _, rfl, -⟩ | ⟨htype, hread⟩⟩ := decodeIn_cases h
  · cases hplain
  · obtain ⟨hchoices, ⟨word, hword, hknown⟩ | ⟨extras, rfl, hextras, hnone⟩⟩ := decodePlain_cases hread
    · have hkind := (decodeKnown?_word hknown rfl).1
      have hisKnown : a.word?.isSome := by rw [hkind]; rfl
      have hagain := type_known hkind
      rw [withoutNulls_of_known hisKnown hplain, toJson_known hisKnown]
      refine ⟨rfl, ?_⟩
      rw [decodeIn_plain choices (by rw [hagain, ← hword]; exact htype), hagain]
      exact decodePlain_known hchoices (decodeKnown?_again (rewritten hfinite hisKnown) hknown)
    · have hagain := Extra.type_wireFields ((Json.get? fields Field.type.wire).getD .null) hextras
      dsimp only
      rw [part, Extra.toJson_ofExtras (Json.isFinite_getD hfinite)
        (Extra.finite_of_decode hextras hfinite)]
      refine ⟨rfl, ?_⟩
      rw [decodeIn_plain choices (by rw [hagain]; exact htype), hagain]
      exact decodePlain_unknown hchoices (Extra.decode_again hextras)
        fun word hword => decodeKnown?_eq_none (hnone word hword) _

theorem option_returns {choices : Nat} {o : ChoiceOption Action}
    (h : Returns (decodeIn (choices + 1)) (fun a => a.part.tree) withoutNulls o.action) :
    Returns (decodeOption choices) (fun o => (Mending.optionPart o).tree) optionWithoutNulls o := by
  rw [decodeOption_eq]
  refine record_returns rfl rfl fun fields w hread => ?_
  have hgives := Decoded.gives hread
  simp only [Decoded.seq_gives_iff, Decoded.map_gives_iff] at hgives
  obtain ⟨action, haction, weight, hweight, probability, hprobability, rfl⟩ := hgives
  rw [w.required h rfl haction, w.real? rfl hweight, w.real? rfl hprobability]
  rfl

/-- The members of a choice. -/
def choiceMembers (options : List (ChoiceOption Action)) (mode : Slot String)
    (weights : Slot (List Number)) : List (Key × Tree) := [
  (Field.type, .data (.str "randomAction")),
  (Field.actions, (Part.items Mending.optionPart options (Action.choice · mode weights)).tree),
  (Field.selectionMode, (Part.text? mode (Action.choice options · weights)).tree),
  (Field.weights, (Part.numbers? weights (Action.choice options mode ·)).tree)]

theorem tree_choice (options : List (ChoiceOption Action)) (mode : Slot String)
    (weights : Slot (List Number)) :
    (part (.choice options mode weights)).tree = .record (choiceMembers options mode weights) := by
  rw [part, Mending.optionParts_eq_map]
  rfl

theorem choice_returns {options : List (ChoiceOption Action)} (mode : Slot String)
    (weights : Slot (List Number)) (choices : Nat)
    (h : ∀ o ∈ options, Returns (decodeIn (choices + 1)) (fun a => a.part.tree) withoutNulls o.action) :
    Returns (decodeIn choices) (fun a => a.part.tree) withoutNulls (.choice options mode weights) := by
  intro value hfinite hread
  obtain ⟨fields, rfl, ⟨_, _, _, heq, hchoices, hoptions, hmode, hweights⟩ | ⟨-, hplain⟩⟩ :=
    decodeIn_cases hread
  · cases heq
    have w : Rewritten fields (choiceMembers options mode weights) := ⟨hfinite, rfl⟩
    dsimp only
    rw [tree_choice]
    refine ⟨rfl, ?_⟩
    rw [Tree.toJson, decodeIn_choice choices rfl,
      w.itemsOrNone rfl (fun o ho => option_returns (h o ho)) hoptions, w.text? rfl hmode,
      w.numbers? rfl (fun _ _ => real_again) hweights, withoutNulls, optionsWithoutNulls_eq_map]
    exact Decoded.within_ok_iff.mpr (inChoices_ok_iff.mpr ⟨hchoices, rfl⟩)
  · cases isChoice_of_decodePlain hplain

theorem returns (a : Action) : ∀ choices,
    Returns (decodeIn choices) (fun a => a.part.tree) withoutNulls a := by
  induction a using nested_induction with
  | plain a hplain => exact plain_returns hplain
  | choice options mode weights ih =>
    exact fun choices => choice_returns mode weights choices fun o ho => ih o ho (choices + 1)

/-! ## Written without the null fields -/

theorem option_alike {o : ChoiceOption Action}
    (h : Tree.Alike o.action.withoutNulls.part.tree o.action.part.tree) :
    Tree.Alike (Mending.optionPart (optionWithoutNulls o)).tree (Mending.optionPart o).tree :=
  .record (Tree.toFields_congr h (Tree.toFields_congr .number? (Tree.toFields_congr .number? rfl)))

theorem alike (a : Action) : Tree.Alike a.withoutNulls.part.tree a.part.tree := by
  induction a using nested_induction with
  | plain a hplain =>
    cases a with
    | unknown type extras => exact Extra.alike_nonNull type extras unknown unknown
    | choice => cases hplain
    | _ => exact .rfl
  | choice options mode weights ih =>
    rw [withoutNulls, optionsWithoutNulls_eq_map, tree_choice, tree_choice]
    exact .record (Tree.toFields_congr .rfl (Tree.toFields_congr
      (.items fun o ho => option_alike (ih o ho))
      (Tree.toFields_congr .text? (Tree.toFields_congr .inner_self rfl))))

theorem optionsDepthFault?_eq (choices : Nat) (options : List (ChoiceOption Action)) :
    optionsDepthFault? choices options = options.findSome? fun o => o.action.depthFault? choices := by
  induction options with
  | nil => rfl
  | cons o rest ih =>
    rw [optionsDepthFault?, ih, List.findSome?_cons]
    cases o.action.depthFault? choices <;> rfl

theorem depthFault?_withoutNulls (a : Action) : ∀ choices,
    a.withoutNulls.depthFault? choices = a.depthFault? choices := by
  induction a using nested_induction with
  | plain a hplain =>
    intro choices
    cases a with
    | unknown type extras => simp only [withoutNulls, depthFault?, Extra.writtenValues_nonNull]
    | choice => cases hplain
    | _ => rfl
  | choice options mode weights ih =>
    intro choices
    rw [withoutNulls, optionsWithoutNulls_eq_map, depthFault?, depthFault?, optionsDepthFault?_eq,
      optionsDepthFault?_eq]
    exact firstFault_map fun o ho => ih o ho (choices + 1)

end TouchGame.Action
