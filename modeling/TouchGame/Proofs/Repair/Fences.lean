import Mathlib.Data.List.Infix
import Mathlib.Data.List.TakeWhile
import TouchGame.Proofs.Repair.Answers

/-!
# Documents between marks

An answer may hold its document between an opening and a closing mark, with blanks inside the marks
and any text around them. Such an answer says the same as the document alone, as long as the text in
front holds no opening mark and the document can be told from the closing one.

* `trim_padded` : blanks at the ends of a text are trimmed with its own.
* `Clear` : a mark behind a text does not begin inside the text.
* `cut_of_clear` : what stands in front of a mark, and what stands behind it.
* `clear_openingMark`, `clear_closingMark` : texts that a mark stands behind.
* `revisedRules_fenced` : answers with and without marks.
-/

namespace TouchGame

namespace Text

/-! ## Trimmed texts -/

section Trim

variable {drop : Char → Bool} {s front back : List Char}

theorem trim_padded (hfront : ∀ c ∈ front, drop c = true) (hback : ∀ c ∈ back, drop c = true) :
    trim drop (front ++ s ++ back) = trim drop s := by
  have hempty : back.dropWhile drop = [] := List.dropWhile_eq_nil_iff.mpr hback
  rw [trim, trim, trimFront, trimFront, List.append_assoc, List.dropWhile_append_of_pos hfront,
    List.dropWhile_append]
  split
  · rename_i hnone
    rw [List.isEmpty_iff.mp hnone, hempty]
  · have hreversed : ∀ c ∈ back.reverse, drop c = true := fun c hc => hback c (List.mem_reverse.mp hc)
    rw [trimBack, trimBack, List.reverse_append, List.dropWhile_append_of_pos hreversed]

theorem getLast?_trim {c : Char} (hc : drop c = false) (h : s.getLast? = some c) :
    (trim drop s).getLast? = some c := by
  obtain ⟨rest, rfl⟩ := List.getLast?_eq_some_iff.mp h
  have hfront : trimFront drop (rest ++ [c]) = rest.dropWhile drop ++ [c] := by
    rw [trimFront, List.dropWhile_append]
    split
    · rename_i hnone
      rw [List.isEmpty_iff.mp hnone, List.dropWhile_cons_of_neg (by simp [hc]), List.nil_append]
    · rfl
  have hlast : trimBack drop (rest.dropWhile drop ++ [c]) = rest.dropWhile drop ++ [c] := by
    rw [trimBack, List.reverse_append, List.reverse_singleton, List.singleton_append,
      List.dropWhile_cons_of_neg (by simp [hc]), List.reverse_cons, List.reverse_reverse]
  rw [trim, hfront, hlast, List.getLast?_concat]

end Trim

end Text

namespace Repair

/-! ## Marks behind texts -/

section Marks

variable {mark text cs behind rest : List Char}

/-- A mark does not begin inside a text, given what stands behind it. -/
def Clear (mark text behind : List Char) : Prop :=
  ∀ front back, front ++ back = text → back ≠ [] → ¬ mark <+: back ++ behind

theorem Clear.tail {c : Char} (h : Clear mark (c :: text) behind) : Clear mark text behind :=
  fun front back heq => h (c :: front) back (by rw [List.cons_append, heq])

theorem cut_of_clear (hmark : mark ≠ []) (h : Clear mark text (mark ++ rest)) :
    beforeMark? mark (text ++ (mark ++ rest)) = some text ∧
      behindMark? mark (text ++ (mark ++ rest)) = some rest := by
  induction text with
  | nil =>
    obtain ⟨m, ms, rfl⟩ := List.exists_cons_of_ne_nil hmark
    have hhere : (m :: ms).isPrefixOf (m :: (ms ++ rest)) = true :=
      List.isPrefixOf_iff_prefix.mpr (List.prefix_append (m :: ms) rest)
    have hbehind : (m :: (ms ++ rest)).drop (m :: ms).length = rest := List.drop_left
    rw [List.nil_append, List.cons_append, beforeMark?, behindMark?, if_pos hhere, if_pos hhere,
      hbehind]
    exact ⟨rfl, rfl⟩
  | cons c text ih =>
    have hnot : ¬ mark.isPrefixOf (c :: (text ++ (mark ++ rest))) = true := fun hbegins =>
      h [] (c :: text) rfl (List.cons_ne_nil c text) (List.isPrefixOf_iff_prefix.mp hbegins)
    obtain ⟨hbefore, hbehind⟩ := ih h.tail
    rw [List.cons_append, beforeMark?, behindMark?, if_neg hnot, if_neg hnot, hbefore, hbehind]
    exact ⟨rfl, rfl⟩

/-- A mark begins inside a text only if it occurs there, or if an end of the text is a part of it and
the text behind goes on with the other part. -/
theorem clear_of_overlaps (hnot : ¬ mark <:+: text)
    (hoverlap : ∀ back more, back ++ more = mark → back ≠ [] → more ≠ [] → back <:+ text →
      ¬ more <+: behind) : Clear mark text behind := by
  intro front back heq hne hbegins
  have hsuffix : back <:+ text := ⟨front, heq⟩
  have hinside : ¬ mark <+: back := fun hwhole => hnot (hwhole.isInfix.trans hsuffix.isInfix)
  obtain ⟨more, hmore⟩ :=
    (List.prefix_or_prefix_of_prefix hbegins (List.prefix_append back behind)).resolve_left hinside
  subst hmore
  refine hoverlap back more rfl hne ?_ hsuffix ((List.prefix_append_right_inj back).mp hbegins)
  rintro rfl
  exact hinside (by rw [List.append_nil])

theorem infix_of_append_free {front : List Char} (hfree : ∀ c ∈ front, c ∉ mark)
    (h : mark <:+: front ++ text) : mark <:+: text := by
  induction front with
  | nil => exact h
  | cons c front ih =>
    rw [List.cons_append, List.infix_cons_iff] at h
    rcases h with hbegins | hinfix
    · cases mark with
      | nil => exact List.nil_infix
      | cons m ms =>
        obtain ⟨rfl, -⟩ := List.cons_prefix_cons.mp hbegins
        exact absurd List.mem_cons_self (hfree m List.mem_cons_self)
    · exact ih (fun d hd => hfree d (List.mem_cons_of_mem c hd)) hinfix

end Marks

/-! ## The two marks -/

theorem openingMark_unbordered : ∀ n < openingMark.length, 0 < n →
    ¬ openingMark.drop n <+: openingMark := by
  decide

theorem clear_openingMark {text rest : List Char} (h : ¬ openingMark <:+: text) :
    Clear openingMark text (openingMark ++ rest) := by
  refine clear_of_overlaps h fun back more heq hback hmore _ hbegins => ?_
  have hlength : openingMark.length = back.length + more.length := by rw [← heq, List.length_append]
  have hshorter : back.length < openingMark.length := by
    rw [hlength]
    exact Nat.lt_add_of_pos_right (List.length_pos_iff.mpr hmore)
  refine openingMark_unbordered back.length hshorter (List.length_pos_iff.mpr hback) ?_
  have hdrop : openingMark.drop back.length = more := by rw [← heq, List.drop_left]
  rw [hdrop]
  exact List.prefix_of_prefix_length_le hbegins (List.prefix_append openingMark rest) (by omega)

theorem eq_of_mem_closingMark {c : Char} (h : c ∈ closingMark) : c = '\x60' := by
  simpa [closingMark] using h

theorem clear_closingMark {text behind : List Char} (h : ¬ closingMark <:+: text)
    (hend : text.getLast? ≠ some '\x60') : Clear closingMark text behind := by
  refine clear_of_overlaps h fun back more heq hback _ hsuffix _ => hend ?_
  obtain ⟨rest, c, rfl⟩ := (List.eq_nil_or_concat' back).resolve_left hback
  have hc : c = '\x60' := eq_of_mem_closingMark (by simp [← heq])
  obtain ⟨front, rfl⟩ := hsuffix
  rw [← List.append_assoc, List.getLast?_concat, hc]

theorem closingMark_infix_of_padded {text front back : List Char}
    (hfront : ∀ c ∈ front, Text.isBlank c = true) (hback : ∀ c ∈ back, Text.isBlank c = true)
    (h : closingMark <:+: front ++ text ++ back) : closingMark <:+: text := by
  have hblank : ∀ c, Text.isBlank c = true → c ∉ closingMark := by
    rintro c hc hmark
    rw [eq_of_mem_closingMark hmark] at hc
    cases hc
  rw [List.append_assoc] at h
  have hbehind := infix_of_append_free (fun c hc => hblank c (hfront c hc)) h
  rw [← List.reverse_infix, List.reverse_append] at hbehind
  rw [← List.reverse_infix]
  refine infix_of_append_free (fun c hc => ?_) hbehind
  rw [List.mem_reverse] at hc ⊢
  exact hblank c (hback c hc)

/-! ## Answers -/

theorem fenced?_marked {lead inner trail : List Char} (hlead : ¬ openingMark <:+: lead)
    (hinner : ¬ closingMark <:+: inner) (hend : inner.getLast? ≠ some '\x60') :
    fenced? (lead ++ (openingMark ++ (inner ++ (closingMark ++ trail)))) = some inner := by
  have hopened : behindMark? openingMark (lead ++ (openingMark ++ (inner ++ (closingMark ++ trail)))) =
      some (inner ++ (closingMark ++ trail)) :=
    (cut_of_clear (List.cons_ne_nil _ _) (clear_openingMark hlead)).2
  have hclosed : beforeMark? closingMark (inner ++ (closingMark ++ trail)) = some inner :=
    (cut_of_clear (List.cons_ne_nil _ _) (clear_closingMark hinner hend)).1
  rw [fenced?, hopened, Option.bind_some, hclosed]

variable {answer lead spaces spaces' trail : String}

theorem payload_of_unmarked (h : ¬ closingMark <:+: answer.toList) :
    payload answer.toList = Text.trim Text.isBlank answer.toList := by
  have hopening : ¬ openingMark <:+: answer.toList := fun hin =>
    h ((show closingMark <:+: openingMark by decide).trans hin)
  rw [payload, fenced?_eq_none hopening, Option.getD_none]

/-- **An answer says the same with marks and without.** -/
theorem revisedRules_fenced (hanswer : ¬ closingMark <:+: answer.toList)
    (hend : (Text.trim Text.isBlank answer.toList).getLast? ≠ some '\x60')
    (hlead : ¬ openingMark <:+: lead.toList) (hspaces : ∀ c ∈ spaces.toList, Text.isBlank c = true)
    (hspaces' : ∀ c ∈ spaces'.toList, Text.isBlank c = true) :
    revisedRules (lead ++ "```json" ++ spaces ++ answer ++ spaces' ++ "```" ++ trail) =
      revisedRules answer := by
  have htrimmed : Text.trim Text.isBlank (spaces.toList ++ answer.toList ++ spaces'.toList) =
      Text.trim Text.isBlank answer.toList := Text.trim_padded hspaces hspaces'
  have hinside : ¬ closingMark <:+: spaces.toList ++ answer.toList ++ spaces'.toList := fun hin =>
    hanswer (closingMark_infix_of_padded hspaces hspaces' hin)
  have hlast : (spaces.toList ++ answer.toList ++ spaces'.toList).getLast? ≠ some '\x60' := fun hlast =>
    hend (htrimmed ▸ Text.getLast?_trim rfl hlast)
  have hmarked : (lead ++ "```json" ++ spaces ++ answer ++ spaces' ++ "```" ++ trail).toList =
      lead.toList ++ (openingMark ++
        (spaces.toList ++ answer.toList ++ spaces'.toList ++ (closingMark ++ trail.toList))) := by
    have hopening : "```json".toList = openingMark := rfl
    have hclosing : "```".toList = closingMark := rfl
    simp only [String.toList_append, List.append_assoc, hopening, hclosing]
  rw [revisedRules, revisedRules, payload_of_unmarked hanswer, hmarked, payload,
    fenced?_marked hlead hinside hlast, Option.getD_some, htrimmed]

/-- An answer with talk around it: marks of other kinds in front, two backticks before the opening mark
and inside the document, and another document behind. -/
theorem revisedRules_fenced_chatty :
    let answer := "\n[\x7b\"id\": \"``tap``\"\x7d, 7]\t"
    let lead := "Not ```js or ```\n, but ``"
    let trail := " or ```json []```"
    ¬ closingMark <:+: answer.toList ∧ ¬ openingMark <:+: lead.toList ∧
      (revisedRules answer).toOption.map (·.map Json.literal) = some ["\x7b'id': '``tap``'\x7d"] ∧
      revisedRules (lead ++ "```json" ++ " \n" ++ answer ++ "\r" ++ "```" ++ trail) =
        revisedRules answer := by
  have hblank : ∀ c ∈ " \n".toList, Text.isBlank c = true := List.all_eq_true.mp (by decide +kernel)
  have hreturn : ∀ c ∈ "\r".toList, Text.isBlank c = true := List.all_eq_true.mp (by decide +kernel)
  refine ⟨by decide +kernel, by decide +kernel, by decide +kernel, ?_⟩
  exact revisedRules_fenced (by decide +kernel) (by decide +kernel) (by decide +kernel) hblank hreturn

end Repair

end TouchGame
