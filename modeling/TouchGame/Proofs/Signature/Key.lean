import TouchGame.Proofs.Signature.Descriptor

/-!
# Keys tell conditions apart

The key of a condition with plain texts can be read back: its fields stand between commas that are in none
of them, and the fields of an unknown type are values on one line.

* `keyFields_iff` : the fields of a key, for conditions of one known type.
* `keyPairs_iff` : the fields of conditions of unknown types.
* `keyOf_iff` : conditions have one key exactly if they are told alike.
* `keyOf_free` : the bar between keys is in none of them.
-/

namespace TouchGame

open Text

section Fields

variable {s : Slot String}

theorem slot_signature_free (hs : s.IsPlain) : FreeOf signatureMarks s.signature.toList := by
  cases s with
  | number n => exact hs.elim
  | empty => exact (by decide : FreeOf signatureMarks "-".toList)
  | value a => exact hs.marks

theorem signatureOr_free {default : String} (hdefault : FreeOf signatureMarks default.toList)
    (hs : s.IsPlain) : FreeOf signatureMarks (s.signatureOr default).toList := by
  cases s with
  | number n => exact hs.elim
  | empty => exact hdefault
  | value a =>
    rw [Slot.signatureOr]
    split
    · exact hdefault
    · exact hs.marks

theorem number_signature_free (n : Number) : FreeOf signatureMarks n.signature.toList := fun c hc =>
  (by decide : FreeOf signatureMarks Numeral.characters) c (n.signature_subset hc)

theorem numberSignature_free (n : Option Number) : FreeOf signatureMarks (numberSignature n).toList := by
  cases n with
  | none => exact (by decide : FreeOf signatureMarks "-".toList)
  | some n => exact number_signature_free n

theorem regionFields_free (region : Slot Region) :
    ∀ s ∈ (region.get?.map (·.signature)).getD [], FreeOf signatureMarks s.toList := by
  cases region with
  | value r =>
    simp only [Slot.get?, Option.map_some, Option.getD_some, Region.signature, List.forall_mem_cons]
    exact ⟨number_signature_free _, number_signature_free _, numberSignature_free _,
      numberSignature_free _, List.forall_mem_nil _⟩
  | _ => exact List.forall_mem_nil _

end Fields

/-! ## Known types -/

section Known

variable {r r' : Rule} {c c' : Condition}

theorem keyFields_free (hc : c.IsPlainIn r) (hknown : c.word? ≠ none) :
    ∀ s ∈ r.keyFields c, FreeOf signatureMarks s.toList := by
  cases c with
  | unknown => exact absurd rfl hknown
  | touch t k =>
    simpa [Rule.keyFields] using ⟨slot_signature_free hc.1, signatureOr_free (by decide) hc.2⟩
  | collision t k m =>
    simpa [Rule.keyFields] using ⟨slot_signature_free hc.1, signatureOr_free (by decide) hc.2.1⟩
  | counter n k v =>
    simpa [Rule.keyFields] using
      ⟨slot_signature_free hc.1, signatureOr_free (by decide) hc.2, numberSignature_free v⟩
  | time k s i =>
    simpa [Rule.keyFields] using
      ⟨slot_signature_free hc, numberSignature_free s, numberSignature_free i⟩
  | flag n k =>
    simpa [Rule.keyFields] using ⟨slot_signature_free hc.1, signatureOr_free (by decide) hc.2⟩
  | gameState s => simpa [Rule.keyFields] using slot_signature_free hc
  | position t a region =>
    rw [Rule.keyFields, List.forall_mem_cons, List.forall_mem_cons]
    exact ⟨slot_signature_free hc.1, slot_signature_free hc.2.1, regionFields_free region⟩
  | animation t k f range loops =>
    simpa [Rule.keyFields] using ⟨slot_signature_free hc.1, slot_signature_free hc.2, numberSignature_free f⟩
  | random p s => simpa [Rule.keyFields] using numberSignature_free p
  | objectState t s => simpa [Rule.keyFields] using ⟨slot_signature_free hc.1, slot_signature_free hc.2⟩

theorem keyFields_ne_nil (r : Rule) (c : Condition) : r.keyFields c ≠ [] := by
  cases c <;> simp [Rule.keyFields]

/-- Conditions of one known type have the same fields in their keys exactly if they are told alike. -/
theorem keyFields_iff (hc : c.IsPlainIn r) (hc' : c'.IsPlainIn r') (hknown : c.word? ≠ none)
    (hword : c.word? = c'.word?) :
    r.keyFields c = r'.keyFields c' ↔ r.told c = r'.told c' := by
  -- Conditions of two types have two words.
  cases c <;> cases c' <;> first | (simp [Condition.word?] at hword; done) | skip
  all_goals simp only [Rule.keyFields, Rule.told, Rule.settled, Condition.bared, List.cons.injEq,
    and_true]
  case touch.touch =>
    rw [slot_signature_iff hc.1 hc'.1, signatureOr_iff hc.2 hc'.2, Condition.touch.injEq]
  case collision.collision =>
    rw [slot_signature_iff hc.1 hc'.1, signatureOr_iff hc.2.1 hc'.2.1, Condition.collision.injEq]
    simp only [and_true]
  case counter.counter =>
    rw [slot_signature_iff hc.1 hc'.1, signatureOr_iff hc.2 hc'.2, numberSignature_iff,
      Condition.counter.injEq]
  case time.time =>
    rw [slot_signature_iff hc hc', numberSignature_iff, numberSignature_iff, Condition.time.injEq]
  case flag.flag =>
    rw [slot_signature_iff hc.1 hc'.1, signatureOr_iff hc.2 hc'.2, Condition.flag.injEq]
  case gameState.gameState =>
    rw [slot_signature_iff hc hc', Condition.gameState.injEq]
  case position.position =>
    rw [slot_signature_iff hc.1 hc'.1, slot_signature_iff hc.2.1 hc'.2.1, regionFields_iff hc.2.2 hc'.2.2,
      Condition.position.injEq]
  case animation.animation =>
    rw [slot_signature_iff hc.1 hc'.1, slot_signature_iff hc.2 hc'.2, numberSignature_iff,
      Condition.animation.injEq]
    simp only [and_true]
  case random.random =>
    rw [numberSignature_iff, Condition.random.injEq]
    simp only [and_true]
  case objectState.objectState =>
    rw [slot_signature_iff hc.1 hc'.1, slot_signature_iff hc.2 hc'.2, Condition.objectState.injEq]
  case unknown.unknown => exact absurd rfl hknown

end Known

/-! ## Unknown types -/

section Unknown

variable {type type' : Json} {extras extras' : List Extra}

def pairText (p : String × Json) : String :=
  "(" ++ Text.quoted p.1 ++ ", " ++ p.2.literal ++ ")"

/-- The type of an unknown condition among its fields, unless it is null. -/
def typePairs (type : Json) : List (String × Json) :=
  [(Field.type.wire, type)].filter (!·.2.isNull)

def beforeType (p : String × Json) : Bool :=
  !decide (Field.type.wire ≤ p.1)

/-- All fields of an unknown condition that are not null, its type at its place among them. -/
def keyPairs (type : Json) (extras : List Extra) : List (String × Json) :=
  (Extra.pairs extras).takeWhile beforeType ++
    (typePairs type ++ (Extra.pairs extras).dropWhile beforeType)

theorem names_trans (p q t : String × Json) (hpq : decide (p.1 ≤ q.1) = true)
    (hqt : decide (q.1 ≤ t.1) = true) : decide (p.1 ≤ t.1) = true := by
  rw [decide_eq_true_eq] at *
  exact String.le_trans hpq hqt

theorem names_total (p q : String × Json) : (decide (p.1 ≤ q.1) || decide (q.1 ≤ p.1)) = true := by
  simpa using String.le_total p.1 q.1

theorem pairs_sorted (list : List (String × Json)) :
    (list.mergeSort fun a b => decide (a.1 ≤ b.1)).Pairwise fun a b => a.1 ≤ b.1 :=
  (List.pairwise_mergeSort names_trans names_total list).imp of_decide_eq_true

/-- The type of a condition is sorted in among its other fields. -/
theorem sorted_eq (type : Json) (extras : List Extra) :
    (((Field.type.wire, type) :: extras.map fun e => (e.name, e.written)).filter (!·.2.isNull)).mergeSort
      (fun a b => decide (a.1 ≤ b.1)) = keyPairs type extras := by
  rw [keyPairs, typePairs, List.filter_cons, List.filter_cons]
  split
  · -- Sorting puts a new pair behind those that are smaller and in front of the others.
    obtain ⟨front, back, hwith, hwithout, hfront⟩ := List.mergeSort_cons names_trans names_total
      (Field.type.wire, type) ((extras.map fun e => (e.name, e.written)).filter (!·.2.isNull))
    have hbefore : ∀ p ∈ front, beforeType p = true := hfront
    have hback : ∀ p ∈ back, beforeType p = false := by
      intro p hp
      have hsorted := pairs_sorted
        ((Field.type.wire, type) :: (extras.map fun e => (e.name, e.written)).filter (!·.2.isNull))
      rw [hwith, List.pairwise_append, List.pairwise_cons] at hsorted
      have hle := hsorted.2.1.1 p hp
      rw [beforeType, decide_eq_true hle]
      rfl
    obtain ⟨hsmaller, hothers⟩ := span_append hbefore fun p hp => hback p (List.mem_of_mem_head? hp)
    rw [hwith, Extra.pairs, hwithout, hsmaller, hothers]
    rfl
  · rw [List.filter_nil, List.nil_append, List.takeWhile_append_dropWhile]
    rfl

theorem unknownFields_eq (type : Json) (extras : List Extra) : Rule.keyFields.unknownFields type extras =
    "[" ++ joined ", " ((keyPairs type extras).map pairText) ++ "]" := by
  rw [← sorted_eq]
  rfl

theorem name_of_mem_pairs {p : String × Json} (h : p ∈ Extra.pairs extras) :
    ∃ e ∈ extras, p = (e.name, e.written) := by
  rw [Extra.pairs, List.mem_mergeSort, List.mem_filter, List.mem_map] at h
  obtain ⟨⟨e, he, rfl⟩, -⟩ := h
  exact ⟨e, he, rfl⟩

/-- The type among the fields of a key, and what is left without it. -/
theorem filter_keyPairs (hextras : ∀ e ∈ extras, e.name ≠ Field.type.wire) (type : Json) :
    (keyPairs type extras).filter (·.1 == Field.type.wire) = typePairs type ∧
      (keyPairs type extras).filter (·.1 != Field.type.wire) = Extra.pairs extras := by
  have hothers (list : List (String × Json)) (hlist : list ⊆ Extra.pairs extras) :
      list.filter (·.1 == Field.type.wire) = [] ∧ list.filter (·.1 != Field.type.wire) = list := by
    have hname (p : String × Json) (hp : p ∈ list) : (p.1 == Field.type.wire) = false := by
      obtain ⟨e, he, rfl⟩ := name_of_mem_pairs (hlist hp)
      exact beq_eq_false_iff_ne.mpr (hextras e he)
    exact ⟨List.filter_eq_nil_iff.mpr fun p hp => by rw [hname p hp]; decide,
      List.filter_eq_self.mpr fun p hp => by rw [bne, hname p hp]; rfl⟩
  have htype : (typePairs type).filter (·.1 == Field.type.wire) = typePairs type ∧
      (typePairs type).filter (·.1 != Field.type.wire) = [] := by
    have hname (p : String × Json) (hp : p ∈ typePairs type) : (p.1 == Field.type.wire) = true := by
      rw [List.mem_singleton.mp (List.mem_of_mem_filter hp)]
      exact beq_self_eq_true _
    exact ⟨List.filter_eq_self.mpr hname,
      List.filter_eq_nil_iff.mpr fun p hp => by rw [bne, hname p hp]; decide⟩
  obtain ⟨hfront, hfront'⟩ := hothers _ (List.takeWhile_prefix beforeType).subset
  obtain ⟨hback, hback'⟩ := hothers _ (List.dropWhile_suffix beforeType).subset
  rw [keyPairs, List.filter_append, List.filter_append, List.filter_append, List.filter_append, hfront,
    hback, htype.1, hfront', hback', htype.2]
  simp only [List.nil_append, List.append_nil, List.takeWhile_append_dropWhile, and_self]

theorem typePairs_inj (h : typePairs type = typePairs type') : type = type' := by
  have hnull {t : Json} (ht : t.isNull = true) : t = .null := by
    cases t with
    | null => rfl
    | _ => cases ht
  simp only [typePairs, List.filter_cons, List.filter_nil] at h
  cases hone : type.isNull <;> cases htwo : type'.isNull <;> rw [hone, htwo] at h
  · simpa using h
  · cases h
  · cases h
  · rw [hnull hone, hnull htwo]

theorem keyPairs_iff (hextras : ∀ e ∈ extras, e.name ≠ Field.type.wire)
    (hextras' : ∀ e ∈ extras', e.name ≠ Field.type.wire) :
    keyPairs type extras = keyPairs type' extras' ↔
      type = type' ∧ Extra.present extras = Extra.present extras' := by
  have hpresent : Function.Injective fun p : String × Json => Extra.mk p.1 p.2 p.2 := by
    intro p q h
    rw [Extra.mk.injEq] at h
    exact Prod.ext h.1 h.2.1
  have hpairs : Extra.present extras = Extra.present extras' ↔ Extra.pairs extras = Extra.pairs extras' :=
    (List.map_injective_iff.mpr hpresent).eq_iff
  rw [hpairs]
  constructor
  · intro h
    obtain ⟨htype, hothers⟩ := filter_keyPairs hextras type
    obtain ⟨htype', hothers'⟩ := filter_keyPairs hextras' type'
    rw [h] at htype hothers
    exact ⟨typePairs_inj (htype.symm.trans htype'), hothers.symm.trans hothers'⟩
  · rintro ⟨rfl, h⟩
    rw [keyPairs, keyPairs, h]

theorem pairText_cut (p : String × Json) : Cuts pairText p := by
  intro q back back' hback hback' h
  simp only [pairText, String.toList_append, List.append_assoc] at h
  obtain ⟨hname, hrest⟩ := quoted_cut (List.append_cancel_left h)
  obtain ⟨hvalue, hend⟩ := Json.literal_cut p.2 (by simp [stops]) (by simp [stops])
    (List.append_cancel_left hrest)
  exact ⟨Prod.ext hname hvalue, List.append_cancel_left hend⟩

theorem pairText_head (p : String × Json) : ∃ c rest, (pairText p).toList = c :: rest ∧ c ≠ ']' := by
  have htext : (pairText p).toList = '(' :: (Text.quoted p.1 ++ ", " ++ p.2.literal ++ ")").toList := by
    simp [pairText]
  exact ⟨_, _, htext, by decide⟩

theorem texts_of_mem_keyPairs {p : String × Json} (h : p ∈ keyPairs type extras) :
    p.1 = Field.type.wire ∧ p.2 = type ∨ ∃ e ∈ extras, p = (e.name, e.written) := by
  rw [keyPairs, List.mem_append, List.mem_append] at h
  rcases h with h | h | h
  · exact .inr (name_of_mem_pairs ((List.takeWhile_prefix _).subset h))
  · have hp := List.mem_singleton.mp (List.mem_of_mem_filter h)
    exact .inl ⟨congrArg Prod.fst hp, congrArg Prod.snd hp⟩
  · exact .inr (name_of_mem_pairs ((List.dropWhile_suffix _).subset h))

theorem mild_of_plain {texts : List String} (h : ∀ s ∈ texts, Text.IsPlain s) : Json.Mild texts :=
  fun s hs => (h s hs).marks.mono (by decide)

theorem pairText_bars {p : String × Json} (hname : FreeOf ['|', '['] p.1.toList)
    (hvalue : Json.Mild p.2.texts) : FreeOf ['|'] (pairText p).toList := by
  have hquoted := (Json.tidy_quoted hname).bars
  have hliteral := (Json.tidy_literal p.2 hvalue).bars
  simp [pairText, hquoted, hliteral]

theorem keyPairs_bars (h : ∀ s ∈ Extra.texts type extras, Text.IsPlain s) :
    ∀ s ∈ (keyPairs type extras).map pairText, FreeOf ['|'] s.toList := by
  rw [Extra.texts, List.forall_mem_append] at h
  obtain ⟨htype, hextras⟩ := h
  have hextra (e : Extra) (he : e ∈ extras) :
      FreeOf ['|', '['] e.name.toList ∧ Json.Mild e.written.texts := by
    have hmild := mild_of_plain fun s hs => hextras s (List.mem_flatMap.mpr ⟨e, he, hs⟩)
    exact List.forall_mem_cons.mp hmild
  rw [List.forall_mem_map]
  intro p hp
  rcases texts_of_mem_keyPairs hp with ⟨hname, hvalue⟩ | ⟨e, he, rfl⟩
  · exact pairText_bars (hname ▸ by decide) (hvalue ▸ mild_of_plain htype)
  · exact pairText_bars (hextra e he).1 (hextra e he).2

theorem tidy_shown (h : ∀ s ∈ type.texts, Text.IsPlain s) : Tidy type.shown.toList := by
  rcases type.shown_cases with ⟨s, rfl⟩ | hshown
  · exact tidy_of_freeOf (mild_of_plain h s List.mem_cons_self)
  · rw [hshown]
    exact Json.tidy_literal type (mild_of_plain h)

end Unknown

/-! ## Whole keys -/

section Keys

variable {r r' : Rule} {c c' : Condition}

theorem freeOf_joined {marks : List Char} {separator : String} {texts : List String}
    (hseparator : FreeOf marks separator.toList) (h : ∀ s ∈ texts, FreeOf marks s.toList) :
    FreeOf marks (joined separator texts).toList := by
  cases texts with
  | nil => exact freeOf_nil
  | cons s rest =>
    rw [joined_cons, freeOf_append]
    refine ⟨h s List.mem_cons_self, fun c hc => ?_⟩
    obtain ⟨t, ht, hc⟩ := List.mem_flatMap.mp hc
    exact (freeOf_append.mpr ⟨hseparator, h t (List.mem_cons_of_mem _ ht)⟩) c hc

theorem keyOf_toList (r : Rule) (c : Condition) : (r.keyOf c).toList =
    c.kind.shown.toList ++ ':' :: (joined "," (r.keyFields c)).toList := by
  simp [Rule.keyOf]

theorem unknown_toList (r : Rule) (type : Json) (extras : List Extra) :
    (r.keyOf (.unknown type extras)).toList = type.shown.toList ++
      ':' :: '[' :: ((joined ", " ((keyPairs type extras).map pairText)).toList ++ [']']) := by
  simp [Rule.keyOf, Rule.keyFields, unknownFields_eq, joined, Condition.kind]

theorem eq_unknown (h : c.word? = none) : ∃ type extras, c = .unknown type extras := by
  cases c with
  | unknown type extras => exact ⟨type, extras, rfl⟩
  | _ => cases h

theorem word_free (hknown : c.word? ≠ none) : FreeOf [':', '|', '['] c.kind.shown.toList := by
  cases c
  case unknown => exact absurd rfl hknown
  all_goals
    simp only [Condition.kind, Condition.word?, Option.getD_some, Json.shown]
    decide

theorem known_free (hc : c.IsPlainIn r) (hknown : c.word? ≠ none) :
    FreeOf ['|', '['] (r.keyOf c).toList := by
  have hfields : FreeOf ['|', '['] (joined "," (r.keyFields c)).toList :=
    freeOf_joined (by decide) fun s hs => (keyFields_free hc hknown s hs).mono (by decide)
  rw [keyOf_toList, freeOf_append, freeOf_cons]
  exact ⟨(word_free hknown).mono (by decide), by decide, hfields⟩

theorem keyOf_free (hc : c.IsPlainIn r) : '|' ∉ (r.keyOf c).toList := by
  rw [← freeOf_singleton]
  by_cases hknown : c.word? = none
  · obtain ⟨type, extras, rfl⟩ := eq_unknown hknown
    have htype := tidy_shown fun s hs => hc.1 s (List.mem_append_left _ hs)
    have hpairs := freeOf_joined (by decide : FreeOf ['|'] ", ".toList) (keyPairs_bars hc.1)
    rw [unknown_toList]
    simp [htype.bars, hpairs]
  · exact (known_free hc hknown).mono (by decide)

theorem told_kind (r : Rule) (c : Condition) : (r.told c).kind = c.kind := by
  cases c <;> rfl

theorem told_word (r : Rule) (c : Condition) : (r.told c).word? = c.word? := by
  cases c <;> rfl

/-- Conditions of known types with one key have one type and the same fields. -/
theorem known_cut (hc : c.IsPlainIn r) (hc' : c'.IsPlainIn r') (hknown : c.word? ≠ none)
    (hknown' : c'.word? ≠ none) (h : r.keyOf c = r'.keyOf c') : c.word? = c'.word? ∧ r.keyFields c = r'.keyFields c' := by
  have hshown {c : Condition} (hc : c.word? ≠ none) : c.word? = some c.kind.shown := by
    cases c with
    | unknown => exact absurd rfl hc
    | _ => rfl
  have hcolon {c : Condition} (hc : c.word? ≠ none) : FreeOf [':'] c.kind.shown.toList :=
    (word_free hc).mono (by decide)
  have hchars := congrArg String.toList h
  rw [keyOf_toList, keyOf_toList] at hchars
  obtain ⟨hword, hfields⟩ := cut_marks (hcolon hknown) (hcolon hknown') (by simp) (by simp) hchars
  refine ⟨?_, ?_⟩
  · rw [hshown hknown, hshown hknown', String.toList_injective hword]
  · have hcomma {r : Rule} {c : Condition} (hc : c.IsPlainIn r)
        (hknown : c.word? ≠ none) : ∀ s ∈ r.keyFields c, ',' ∉ s.toList := fun s hs hmark =>
      keyFields_free hc hknown s hs ',' hmark (by decide)
    have hjoined : joined "," (r.keyFields c) = joined "," (r'.keyFields c') :=
      String.toList_injective (List.cons.inj hfields).2
    exact joined_inj rfl (hcomma hc hknown) (hcomma hc' hknown') (keyFields_ne_nil r c)
      (keyFields_ne_nil r' c') hjoined

theorem unknown_cut {type type' : Json} {extras extras' : List Extra}
    (hc : (Condition.unknown type extras).IsPlainIn r) (hc' : (Condition.unknown type' extras').IsPlainIn r')
    (h : r.keyOf (.unknown type extras) = r'.keyOf (.unknown type' extras')) :
    keyPairs type extras = keyPairs type' extras' := by
  have hchars := congrArg String.toList h
  rw [unknown_toList, unknown_toList] at hchars
  have htidy := tidy_shown fun s hs => hc.1 s (List.mem_append_left _ hs)
  have htidy' := tidy_shown fun s hs => hc'.1 s (List.mem_append_left _ hs)
  obtain ⟨-, hpairs⟩ := opening_cut htidy htidy' hchars
  exact (series_cut (fun p _ => pairText_cut p) (by decide) (by decide) pairText_head hpairs).1

theorem known_ne_unknown {type : Json} {extras : List Extra} (hc : c.IsPlainIn r)
    (hknown : c.word? ≠ none) : r.keyOf c ≠ r'.keyOf (.unknown type extras) := by
  intro h
  have hfree := known_free hc hknown
  rw [h, unknown_toList, freeOf_append, freeOf_cons, freeOf_cons] at hfree
  exact absurd hfree.2.2.1 (by decide)

/-- Conditions with plain texts have one key exactly if they are told alike. -/
theorem keyOf_iff (hc : c.IsPlainIn r) (hc' : c'.IsPlainIn r') :
    r.keyOf c = r'.keyOf c' ↔ r.told c = r'.told c' := by
  constructor
  · intro h
    by_cases hknown : c.word? = none
    · obtain ⟨type, extras, rfl⟩ := eq_unknown hknown
      by_cases hknown' : c'.word? = none
      · obtain ⟨type', extras', rfl⟩ := eq_unknown hknown'
        obtain ⟨htype, hextras⟩ := (keyPairs_iff hc.2 hc'.2).mp (unknown_cut hc hc' h)
        simp only [Rule.told, Rule.settled, htype, hextras]
      · exact absurd h.symm (known_ne_unknown hc' hknown')
    · by_cases hknown' : c'.word? = none
      · obtain ⟨type', extras', rfl⟩ := eq_unknown hknown'
        exact absurd h (known_ne_unknown hc hknown)
      · obtain ⟨hword, hfields⟩ := known_cut hc hc' hknown hknown' h
        exact (keyFields_iff hc hc' hknown hword).mp hfields
  · intro h
    have hkind : c.kind = c'.kind := by rw [← told_kind r c, h, told_kind]
    have hword : c.word? = c'.word? := by rw [← told_word r c, h, told_word]
    have hfields : r.keyFields c = r'.keyFields c' := by
      by_cases hknown : c.word? = none
      · obtain ⟨type, extras, rfl⟩ := eq_unknown hknown
        obtain ⟨type', extras', rfl⟩ := eq_unknown hword.symm
        simp only [Rule.told, Rule.settled, Condition.bared, Condition.unknown.injEq] at h
        rw [Rule.keyFields, Rule.keyFields, unknownFields_eq, unknownFields_eq,
          (keyPairs_iff hc.2 hc'.2).mpr h]
      · exact (keyFields_iff hc hc' hknown hword).mpr h
    rw [Rule.keyOf, Rule.keyOf, hkind, hfields]

end Keys

end TouchGame
