import Mathlib.Data.List.Chain
import TouchGame.Json.Basic
import TouchGame.Proofs.Number.Notation
import TouchGame.Proofs.Text.Quoted

/-!
# Values on one line

A value on one line can be read back, whatever stands behind it, if that begins like the end of an item:
its first character tells what kind of value it is, and each kind of value tells where it ends. An
opening bracket stands right behind a colon in none of them, so the two together mark where a value ends
in a key.

* `Text.Cuts`, `Text.series_cut` : texts that tell where they end, alone and in a series.
* `Json.literal_cut` : a value on one line can be read back.
* `Text.Tidy`, `Text.opening_cut` : texts in front of a colon and an opening bracket.
* `Json.tidy_literal` : values whose texts hold neither bar nor opening bracket are such texts.
-/

namespace TouchGame

namespace Text

def stops : List Char := [',', ']', '\x7d', ')', ':']

/-- What is written for an item tells the item, and where its text ends. -/
def Cuts {α : Type} (write : α → String) (x : α) : Prop :=
  ∀ ⦃y : α⦄ ⦃back back' : List Char⦄, BeginsWith stops back → BeginsWith stops back' →
    (write x).toList ++ back = (write y).toList ++ back' → x = y ∧ back = back'

section Series

variable {α : Type} {write : α → String} {closing : Char} {xs ys : List α} {back back' : List Char}

/-- Items behind commas, up to a closing bracket. -/
theorem behind_cut (hcut : ∀ x ∈ xs, Cuts write x) (hclosing : closing ∈ stops) (hcomma : closing ≠ ',')
    (h : xs.flatMap (fun x => ',' :: ' ' :: (write x).toList) ++ closing :: back =
      ys.flatMap (fun y => ',' :: ' ' :: (write y).toList) ++ closing :: back') :
    xs = ys ∧ back = back' := by
  have hback (list : List α) (end_ : List Char) :
      BeginsWith stops (list.flatMap (fun x => ',' :: ' ' :: (write x).toList) ++ closing :: end_) := by
    cases list with
    | nil => simpa using hclosing
    | cons x rest => simp [stops]
  -- By induction on one list of items; a comma or the closing bracket tells whether the other goes on.
  induction xs generalizing ys with
  | nil =>
    cases ys with
    | nil => simpa using h
    | cons y rest =>
      rw [List.flatMap_nil, List.nil_append, List.flatMap_cons, List.cons_append, List.cons_append,
        List.cons.injEq] at h
      exact absurd h.1 hcomma
  | cons x rest ih =>
    cases ys with
    | nil =>
      rw [List.flatMap_nil, List.nil_append, List.flatMap_cons, List.cons_append, List.cons_append,
        List.cons.injEq] at h
      exact absurd h.1.symm hcomma
    | cons y rest' =>
      simp only [List.flatMap_cons, List.cons_append, List.append_assoc, List.cons.injEq, true_and] at h
      obtain ⟨rfl, hrest⟩ := hcut x List.mem_cons_self (hback rest back) (hback rest' back') h
      obtain ⟨rfl, hend⟩ := ih (fun z hz => hcut z (List.mem_cons_of_mem _ hz)) hrest
      exact ⟨rfl, hend⟩

/-- Items with commas between them, up to a closing bracket. -/
theorem series_cut (hcut : ∀ x ∈ xs, Cuts write x) (hclosing : closing ∈ stops) (hcomma : closing ≠ ',')
    (hhead : ∀ x, ∃ c rest, (write x).toList = c :: rest ∧ c ≠ closing)
    (h : (joined ", " (xs.map write)).toList ++ closing :: back =
      (joined ", " (ys.map write)).toList ++ closing :: back') : xs = ys ∧ back = back' := by
  have hcons (x : α) (rest : List α) : (joined ", " ((x :: rest).map write)).toList =
      (write x).toList ++ rest.flatMap (fun x => ',' :: ' ' :: (write x).toList) := by
    rw [List.map_cons, joined_cons, List.flatMap_map]
    rfl
  have hempty : (joined ", " (([] : List α).map write)).toList = [] := rfl
  cases xs with
  | nil =>
    cases ys with
    | nil => simpa using h
    | cons y rest =>
      obtain ⟨c, tail, hc, hne⟩ := hhead y
      rw [hempty, hcons, hc, List.nil_append, List.cons_append, List.cons_append, List.cons.injEq] at h
      exact absurd h.1.symm hne
  | cons x rest =>
    cases ys with
    | nil =>
      obtain ⟨c, tail, hc, hne⟩ := hhead x
      rw [hempty, hcons, hc, List.nil_append, List.cons_append, List.cons_append, List.cons.injEq] at h
      exact absurd h.1 hne
    | cons y rest' =>
      -- Two more characters in front of both make the first item one like the others.
      refine behind_cut hcut hclosing hcomma ?_
      rw [hcons, hcons] at h
      simp only [List.flatMap_cons, List.cons_append]
      rw [h]

end Series

end Text

namespace Json

open Text

/-! ## First characters -/

/-- What kind of value a text is, by its first character. -/
def leadKind (c : Char) : Nat :=
  if c = 'N' then 0
  else if c ∈ ['T', 'F'] then 1
  else if c ∈ Numeral.characters then 2
  else if c ∈ quotes then 3
  else if c = '[' then 4
  else if c = '\x7b' then 5
  else 6

/-- The kind of a value. -/
def leadOf : Json → Nat
  | .null => 0
  | .bool _ => 1
  | .num _ => 2
  | .str _ => 3
  | .arr _ => 4
  | .obj _ => 5

theorem literalItems_eq (items : List Json) : literalItems items = items.map literal := by
  induction items with
  | nil => rfl
  | cons item rest ih => rw [literalItems, ih, List.map_cons]

def fieldText (field : String × Json) : String :=
  Text.quoted field.1 ++ ": " ++ field.2.literal

theorem literalFields_eq (fields : List (String × Json)) :
    literalFields fields = fields.map fieldText := by
  induction fields with
  | nil => rfl
  | cons field rest ih => rw [literalFields, ih, List.map_cons, fieldText]

theorem literal_arr (items : List Json) : (literal (.arr items)).toList =
    '[' :: ((joined ", " (items.map literal)).toList ++ [']']) := by
  rw [literal, literalItems_eq]
  simp

theorem literal_obj (fields : List (String × Json)) : (literal (.obj fields)).toList =
    '\x7b' :: ((joined ", " (fields.map fieldText)).toList ++ ['\x7d']) := by
  rw [literal, literalFields_eq]
  simp

theorem literal_lead (v : Json) : ∃ c rest, v.literal.toList = c :: rest ∧ leadKind c = v.leadOf := by
  cases v with
  | null => exact ⟨'N', _, rfl, by decide⟩
  | bool b => cases b with
    | false => exact ⟨'F', _, rfl, by decide⟩
    | true => exact ⟨'T', _, rfl, by decide⟩
  | num n =>
    have hkind : ∀ c ∈ Numeral.characters, leadKind c = 2 := List.map_inj_left.mp (by decide)
    cases htext : n.text.toList with
    | nil => exact absurd (String.toList_eq_nil_iff.mp htext) n.text_ne_empty
    | cons c rest =>
      exact ⟨c, rest, htext, hkind c (n.text_subset (htext ▸ List.mem_cons_self))⟩
  | str s =>
    have hkind : ∀ c ∈ quotes, leadKind c = 3 := List.map_inj_left.mp (by decide)
    exact ⟨_, _, quoted_toList s, hkind _ (quoteMark_mem_quotes _)⟩
  | arr items => exact ⟨'[', _, literal_arr items, (by decide : leadKind '[' = 4)⟩
  | obj fields => exact ⟨'\x7b', _, literal_obj fields, (by decide : leadKind '\x7b' = 5)⟩

theorem leadOf_eq {v w : Json} {back back' : List Char}
    (h : v.literal.toList ++ back = w.literal.toList ++ back') : v.leadOf = w.leadOf := by
  obtain ⟨c, rest, hv, hc⟩ := v.literal_lead
  obtain ⟨d, rest', hw, hd⟩ := w.literal_lead
  rw [hv, hw, List.cons_append, List.cons_append, List.cons.injEq] at h
  rw [← hc, ← hd, h.1]

theorem literal_ne_stop {stop : Char} (hstop : leadKind stop = 6) (v : Json) :
    ∃ c rest, v.literal.toList = c :: rest ∧ c ≠ stop := by
  obtain ⟨c, rest, hv, hc⟩ := v.literal_lead
  refine ⟨c, rest, hv, ?_⟩
  rintro rfl
  rw [hstop] at hc
  cases v <;> cases hc

theorem shown_cases (v : Json) : (∃ s, v = .str s) ∨ v.shown = v.literal := by
  cases v with
  | str s => exact .inl ⟨s, rfl⟩
  | _ => exact .inr rfl

/-! ## Reading back -/

theorem null_cut : Cuts literal .null := by
  intro w back back' _ _ h
  have hlead := leadOf_eq h
  cases w <;> cases hlead
  exact ⟨rfl, List.append_cancel_left h⟩

theorem bool_cut (b : Bool) : Cuts literal (.bool b) := by
  intro w back back' _ _ h
  have hlead := leadOf_eq h
  cases w <;> cases hlead
  rename_i b'
  have hsame : b = b' := by
    cases b <;> cases b' <;> first | rfl | simp [literal] at h
  subst hsame
  exact ⟨rfl, List.append_cancel_left h⟩

theorem num_cut (n : Number) : Cuts literal (.num n) := by
  intro w back back' hback hback' h
  have hlead := leadOf_eq h
  cases w <;> cases hlead
  rename_i n'
  have hfree (n : Number) : FreeOf stops n.text.toList := fun c hc =>
    (by decide : FreeOf stops Numeral.characters) c (n.text_subset hc)
  obtain ⟨htext, hend⟩ := cut_marks (hfree n) (hfree n') hback hback' h
  exact ⟨congrArg _ (Number.text_inj (String.toList_injective htext)), hend⟩

theorem str_cut (s : String) : Cuts literal (.str s) := by
  intro w back back' _ _ h
  have hlead := leadOf_eq h
  cases w <;> cases hlead
  obtain ⟨rfl, hend⟩ := quoted_cut h
  exact ⟨rfl, hend⟩

theorem arr_cut {items : List Json} (hitems : ∀ v ∈ items, Cuts literal v) :
    Cuts literal (.arr items) := by
  intro w back back' _ _ h
  have hlead := leadOf_eq h
  cases w <;> cases hlead
  rw [literal_arr, literal_arr] at h
  simp only [List.cons_append, List.append_assoc, List.cons.injEq, List.nil_append, true_and] at h
  obtain ⟨rfl, hend⟩ := series_cut hitems (by decide) (by decide) (literal_ne_stop (by decide)) h
  exact ⟨rfl, hend⟩

theorem fieldText_cut {field : String × Json} (hvalue : Cuts literal field.2) : Cuts fieldText field := by
  intro other back back' hback hback' h
  simp only [fieldText, String.toList_append, List.append_assoc] at h
  obtain ⟨hname, hrest⟩ := quoted_cut h
  obtain ⟨hval, hend⟩ := hvalue hback hback' (List.append_cancel_left hrest)
  exact ⟨Prod.ext hname hval, hend⟩

theorem fieldText_head (field : String × Json) :
    ∃ c rest, (fieldText field).toList = c :: rest ∧ c ≠ '\x7d' := by
  have hmark : '\x7d' ∉ quotes := by decide
  have htext : (fieldText field).toList =
      (Text.quoted field.1).toList ++ (": " ++ field.2.literal).toList := by
    rw [fieldText, String.append_assoc, String.toList_append]
  rw [quoted_toList, List.cons_append] at htext
  exact ⟨_, _, htext, fun heq => hmark (heq ▸ quoteMark_mem_quotes _)⟩

theorem obj_cut {fields : List (String × Json)} (hfields : ∀ f ∈ fields, Cuts fieldText f) :
    Cuts literal (.obj fields) := by
  intro w back back' _ _ h
  have hlead := leadOf_eq h
  cases w <;> cases hlead
  rw [literal_obj, literal_obj] at h
  simp only [List.cons_append, List.append_assoc, List.cons.injEq, List.nil_append, true_and] at h
  obtain ⟨rfl, hend⟩ := series_cut hfields (by decide) (by decide) fieldText_head h
  exact ⟨rfl, hend⟩

mutual

theorem literal_cut : ∀ v : Json, Cuts literal v
  | .null => null_cut
  | .bool b => bool_cut b
  | .num n => num_cut n
  | .str s => str_cut s
  | .arr items => arr_cut (items_cut items)
  | .obj fields => obj_cut (fields_cut fields)

theorem items_cut : ∀ items : List Json, ∀ v ∈ items, Cuts literal v
  | [] => List.forall_mem_nil _
  | item :: rest => List.forall_mem_cons.mpr ⟨literal_cut item, items_cut rest⟩

theorem fields_cut : ∀ fields : List (String × Json), ∀ f ∈ fields, Cuts fieldText f
  | [] => List.forall_mem_nil _
  | (_, value) :: rest =>
    List.forall_mem_cons.mpr ⟨fieldText_cut (literal_cut value), fields_cut rest⟩

end

end Json

/-! ## What a value on one line does not hold -/

namespace Text

/-- Characters without a bar, and without a bracket that opens right behind a colon. -/
structure Tidy (cs : List Char) : Prop where
  bars : FreeOf ['|'] cs
  brackets : cs.IsChain fun c d => ¬(c = ':' ∧ d = '[')

section Tidy

variable {cs ds : List Char}

theorem tidy_of_freeOf (h : FreeOf ['|', '['] cs) : Tidy cs where
  bars := h.mono (by decide)
  brackets := by
    refine List.Pairwise.isChain (List.pairwise_of_forall_mem_list fun c _ d hd hcolon => ?_)
    exact h d hd (by simp [hcolon.2])

theorem tidy_singleton {c : Char} (h : c ≠ '|') : Tidy [c] where
  bars := by simpa using h
  brackets := by simp

theorem Tidy.tail {c : Char} (h : Tidy (c :: cs)) : Tidy cs where
  bars := (freeOf_cons.mp h.bars).2
  brackets := h.brackets.tail

theorem Tidy.append (hcs : Tidy cs) (hds : Tidy ds)
    (hedge : cs.getLast? ≠ some ':' ∨ ds.head? ≠ some '[') : Tidy (cs ++ ds) where
  bars := freeOf_append.mpr ⟨hcs.bars, hds.bars⟩
  brackets := by
    refine List.isChain_append.mpr ⟨hcs.brackets, hds.brackets, ?_⟩
    rintro c hc d hd ⟨rfl, rfl⟩
    exact hedge.elim (· hc) (· hd)

theorem tidy_joined {texts : List String} (h : ∀ s ∈ texts, Tidy s.toList) :
    Tidy (joined ", " texts).toList := by
  have hseparator : Tidy [',', ' '] := tidy_of_freeOf (by decide)
  have hnil : Tidy [] := tidy_of_freeOf (by decide)
  have hrest (list : List String) (hlist : ∀ s ∈ list, Tidy s.toList) :
      Tidy (list.flatMap fun t => ", ".toList ++ t.toList) ∧
        (list.flatMap fun t => ", ".toList ++ t.toList).head? ≠ some '[' := by
    induction list with
    | nil => exact ⟨hnil, by simp⟩
    | cons s rest ih =>
      obtain ⟨htidy, hhead⟩ := ih fun t ht => hlist t (List.mem_cons_of_mem _ ht)
      have hs : Tidy (", ".toList ++ s.toList) :=
        hseparator.append (hlist s List.mem_cons_self) (.inl (by decide))
      rw [List.flatMap_cons]
      exact ⟨hs.append htidy (.inr hhead), by simp⟩
  cases texts with
  | nil => exact hnil
  | cons s rest =>
    obtain ⟨htidy, hhead⟩ := hrest rest fun t ht => h t (List.mem_cons_of_mem _ ht)
    rw [joined_cons]
    exact (h s List.mem_cons_self).append htidy (.inr hhead)

theorem eq_nil_of_opening {back back' : List Char} (hds : Tidy ds)
    (h : ':' :: '[' :: back = ds ++ ':' :: '[' :: back') : ds = [] := by
  match ds with
  | [] => rfl
  | [d] => simp at h
  | d :: e :: rest =>
    simp only [List.cons_append, List.cons.injEq] at h
    have hchain := (List.isChain_cons_cons.mp hds.brackets).1
    exact absurd ⟨h.1.symm, h.2.1.symm⟩ hchain

theorem opening_cut {back back' : List Char} (hcs : Tidy cs) (hds : Tidy ds)
    (h : cs ++ ':' :: '[' :: back = ds ++ ':' :: '[' :: back') : cs = ds ∧ back = back' := by
  induction cs generalizing ds with
  | nil =>
    obtain rfl := eq_nil_of_opening hds h
    simpa using h
  | cons c rest ih =>
    cases ds with
    | nil => exact absurd (eq_nil_of_opening hcs h.symm) (List.cons_ne_nil _ _)
    | cons d rest' =>
      rw [List.cons_append, List.cons_append, List.cons.injEq] at h
      obtain ⟨rfl, hrest⟩ := h
      obtain ⟨rfl, hback⟩ := ih hcs.tail hds.tail hrest
      exact ⟨rfl, hback⟩

end Tidy

end Text

namespace Json

open Text

mutual

/-- The texts inside a value: those it is made of, and the names of fields. -/
def texts : Json → List String
  | .str s => [s]
  | .arr items => itemTexts items
  | .obj fields => fieldTexts fields
  | _ => []

def itemTexts : List Json → List String
  | [] => []
  | item :: rest => texts item ++ itemTexts rest

def fieldTexts : List (String × Json) → List String
  | [] => []
  | (name, value) :: rest => name :: (texts value ++ fieldTexts rest)

end

def Mild (list : List String) : Prop :=
  ∀ s ∈ list, FreeOf ['|', '['] s.toList

theorem mild_append {list list' : List String} : Mild (list ++ list') ↔ Mild list ∧ Mild list' :=
  List.forall_mem_append

theorem tidy_quoted {s : String} (h : FreeOf ['|', '['] s.toList) : Tidy (Text.quoted s).toList :=
  tidy_of_freeOf (freeOf_quoted (by decide) h)

theorem tidy_field {field : String × Json} (hname : FreeOf ['|', '['] field.1.toList)
    (hvalue : Tidy field.2.literal.toList) : Tidy (fieldText field).toList := by
  have hcolon : Tidy [':', ' '] := tidy_of_freeOf (by decide)
  rw [fieldText, String.append_assoc, String.toList_append, String.toList_append]
  exact (tidy_quoted hname).append (hcolon.append hvalue (.inl (by decide))) (.inr (by simp))

theorem tidy_bracketed {opening closing : Char} {cs : List Char} (hopening : opening ∈ ['[', '\x7b'])
    (hclosing : closing ∈ [']', '\x7d']) (hcs : Tidy cs) : Tidy (opening :: (cs ++ [closing])) := by
  have hopen : ∀ c ∈ ['[', '\x7b'], c ≠ '|' ∧ c ≠ ':' := by simp
  have hclose : ∀ c ∈ [']', '\x7d'], c ≠ '|' ∧ c ≠ '[' := by simp
  obtain ⟨hfirst, hcolon⟩ := hopen opening hopening
  obtain ⟨hlast, hbracket⟩ := hclose closing hclosing
  have hinside : Tidy (cs ++ [closing]) :=
    hcs.append (tidy_singleton hlast) (.inr (by simpa using hbracket))
  exact (tidy_singleton hfirst).append hinside (.inl (by simpa using hcolon))

mutual

theorem tidy_literal : ∀ v : Json, Mild v.texts → Tidy v.literal.toList
  | .null, _ => tidy_of_freeOf (by decide)
  | .bool b, _ => tidy_of_freeOf (by cases b <;> decide)
  | .num n, _ => tidy_of_freeOf fun c hc =>
    (by decide : FreeOf ['|', '['] Numeral.characters) c (n.text_subset hc)
  | .str s, h => tidy_quoted (h s List.mem_cons_self)
  | .arr items, h => by
    rw [literal_arr]
    exact tidy_bracketed (by decide) (by decide)
      (tidy_joined (List.forall_mem_map.mpr (tidy_items items h)))
  | .obj fields, h => by
    rw [literal_obj]
    exact tidy_bracketed (by decide) (by decide)
      (tidy_joined (List.forall_mem_map.mpr (tidy_fields fields h)))

theorem tidy_items : ∀ items : List Json, Mild (itemTexts items) → ∀ v ∈ items, Tidy v.literal.toList
  | [], _ => List.forall_mem_nil _
  | item :: rest, h => by
    obtain ⟨hitem, hrest⟩ := mild_append.mp h
    exact List.forall_mem_cons.mpr ⟨tidy_literal item hitem, tidy_items rest hrest⟩

theorem tidy_fields : ∀ fields : List (String × Json), Mild (fieldTexts fields) →
    ∀ f ∈ fields, Tidy (fieldText f).toList
  | [], _ => List.forall_mem_nil _
  | (name, value) :: rest, h => by
    obtain ⟨hname, hbehind⟩ := List.forall_mem_cons.mp h
    obtain ⟨hvalue, hrest⟩ := mild_append.mp hbehind
    exact List.forall_mem_cons.mpr
      ⟨tidy_field hname (tidy_literal value hvalue), tidy_fields rest hrest⟩

end

end Json

end TouchGame
