import TouchGame.Proofs.Wire.Shape
import TouchGame.Script.Depth

/-!
# Conditions that are read again

A known condition comes back as it is, one of an unknown type without its extra fields that are null.

* `Condition.withoutNulls` : what comes back.
* `Condition.returns` : every condition that is read.
* `Condition.alike`, `depthFault?_withoutNulls` : the null fields are not written.
-/

namespace TouchGame.Condition

open Decode

/-- A condition without the null fields of an unknown type. -/
def withoutNulls : Condition → Condition
  | .unknown type extras => .unknown type (Extra.nonNull extras)
  | c => c

theorem withoutNulls_of_known {c : Condition} (h : c.word?.isSome) : c.withoutNulls = c := by
  cases c with
  | unknown => cases h
  | _ => rfl

/-! ## Known conditions -/

theorem rewritten {fields : Json.Fields} {c : Condition} (hfinite : Json.fieldsFinite fields = true)
    (h : c.word?.isSome) : Rewritten fields c.part.tree.members := by
  refine ⟨hfinite, ?_⟩
  cases c with
  | unknown => cases h
  | _ => rfl

theorem decodeKnown?_again {fields : Json.Fields} {word : String} {c : Condition}
    (w : Rewritten fields c.part.tree.members) (h : decodeKnown? fields word = some (.ok c)) :
    decodeKnown? (Tree.toFields c.part.tree.members) word = some (.ok c) := by
  unfold decodeKnown? at h
  split at h
  case h_11 => cases h
  all_goals
    have hgives := Decoded.gives (Option.some.inj h)
    simp only [Decoded.seq_gives_iff, Decoded.map_gives_iff] at hgives
    refine congrArg some ?_
  case h_1 =>
    obtain ⟨target, htarget, type, htype, rfl⟩ := hgives
    rw [w.text? rfl htarget, w.text? rfl htype]
    rfl
  case h_2 =>
    obtain ⟨type, htype, seconds, hseconds, interval, hinterval, rfl⟩ := hgives
    rw [w.text? rfl htype, w.real? rfl hseconds, w.real? rfl hinterval]
    rfl
  case h_3 =>
    obtain ⟨counter, hcounter, comparison, hcomparison, value, hvalue, rfl⟩ := hgives
    rw [w.text? rfl hcounter, w.text? rfl hcomparison, w.quantity? rfl hvalue]
    rfl
  case h_4 =>
    obtain ⟨target, htarget, type, htype, mode, hmode, rfl⟩ := hgives
    rw [w.text? rfl htarget, w.text? rfl htype, w.text? rfl hmode]
    rfl
  case h_5 =>
    obtain ⟨flag, hflag, state, hstate, rfl⟩ := hgives
    rw [w.text? rfl hflag, w.text? rfl hstate]
    rfl
  case h_6 =>
    obtain ⟨state, hstate, rfl⟩ := hgives
    rw [w.text? rfl hstate]
    rfl
  case h_7 =>
    obtain ⟨target, htarget, area, harea, region, hregion, rfl⟩ := hgives
    rw [w.text? rfl htarget, w.text? rfl harea, w.inner rfl Region.returns hregion]
    rfl
  case h_8 =>
    obtain ⟨target, htarget, condition, hcondition, frame, hframe, range, hrange, count, hcount,
      rfl⟩ := hgives
    rw [w.text? rfl htarget, w.text? rfl hcondition, w.integer? rfl hframe,
      w.numbers? rfl (fun _ _ => integer_again) hrange, w.integer? rfl hcount]
    rfl
  case h_9 =>
    obtain ⟨probability, hprobability, seed, hseed, rfl⟩ := hgives
    rw [w.real? rfl hprobability, w.text? rfl hseed]
    rfl
  case h_10 =>
    obtain ⟨target, htarget, state, hstate, rfl⟩ := hgives
    rw [w.text? rfl htarget, w.text? rfl hstate]
    rfl

/-! ## Types -/

theorem decodeKnown?_eq_none {fields : Json.Fields} {word : String} (h : decodeKnown? fields word = none)
    (others : Json.Fields) : decodeKnown? others word = none := by
  unfold decodeKnown? at h
  split at h
  case h_11 =>
    unfold decodeKnown?
    split <;> simp_all
  all_goals cases h

theorem decode_known {fields : Json.Fields} {word : String} {c : Condition}
    (htype : (Json.get? fields Field.type.wire).getD .null = .str word)
    (h : decodeKnown? fields word = some (.ok c)) : decode (.obj fields) = .ok c := by
  simp [decode, htype, Json.text?, h, Decoded.within]

theorem decode_unknown {fields : Json.Fields} {type : Json} {extras : List Extra}
    (htype : (Json.get? fields Field.type.wire).getD .null = type)
    (hextras : Extra.decode fields = .ok extras)
    (h : ∀ word, type = .str word → decodeKnown? fields word = none) :
    decode (.obj fields) = .ok (.unknown type extras) := by
  simp [decode, htype, Extra.bind_text?_eq_none h, hextras, Decoded.map, Decoded.within]

theorem toJson_known {c : Condition} (h : c.word?.isSome) :
    c.part.tree.toJson = .obj (Tree.toFields c.part.tree.members) := by
  cases c with
  | unknown => cases h
  | _ => rfl

theorem type_known {c : Condition} {word : String} (h : c.word? = some word) :
    (Json.get? (Tree.toFields c.part.tree.members) Field.type.wire).getD .null = .str word := by
  cases c with
  | unknown => cases h
  | _ =>
    cases h
    rfl

theorem returns (c : Condition) : Returns decode (fun c => c.part.tree) withoutNulls c := by
  intro value hfinite h
  obtain ⟨fields, rfl, ⟨word, htype, hread⟩ | ⟨extras, rfl, hextras, hnone⟩⟩ := decode_cases h
  · have hword := decodeKnown?_word hread rfl
    have hknown : c.word?.isSome := by rw [hword]; rfl
    rw [withoutNulls_of_known hknown, toJson_known hknown]
    exact ⟨rfl, decode_known (type_known hword) (decodeKnown?_again (rewritten hfinite hknown) hread)⟩
  · dsimp only
    rw [part, Extra.toJson_ofExtras (Json.isFinite_getD hfinite)
      (Extra.finite_of_decode hextras hfinite)]
    exact ⟨rfl, decode_unknown (Extra.type_wireFields _ hextras) (Extra.decode_again hextras)
      fun word hword => decodeKnown?_eq_none (hnone word hword) _⟩

/-! ## Written without the null fields -/

theorem alike (c : Condition) : Tree.Alike c.withoutNulls.part.tree c.part.tree := by
  cases c with
  | unknown type extras => exact Extra.alike_nonNull type extras unknown unknown
  | _ => exact .rfl

theorem depthFault?_withoutNulls (c : Condition) : c.withoutNulls.depthFault? = c.depthFault? := by
  cases c with
  | unknown type extras => simp only [withoutNulls, depthFault?, Extra.writtenValues_nonNull]
  | _ => rfl

theorem depthFault?_unknown {type : Json} {extras : List Extra} {e : Extra} (he : e ∈ extras)
    (hnull : e.written.isNull = false) (hdeep : (e.written.beyond? documentLevels).isSome) :
    (unknown type extras).depthFault? = some .tooDeep := by
  have hwritten : e.written ∈ Extra.writtenValues type extras := by
    simp only [Extra.writtenValues, List.mem_filter, List.mem_cons, List.mem_map, hnull,
      Bool.not_false, and_true]
    exact .inr ⟨e, he, rfl⟩
  have hbeyond : (firstBeyond? documentLevels (Extra.writtenValues type extras)).isSome :=
    List.findSome?_isSome_iff.mpr ⟨e.written, hwritten, hdeep⟩
  rw [depthFault?, if_pos hbeyond]

end TouchGame.Condition
