import Mathlib.Data.List.TakeWhile
import TouchGame.Number.Numeral
import TouchGame.Proofs.Number.Order
import TouchGame.Proofs.Number.Shortest
import TouchGame.Proofs.Text.Cut

/-!
# The notation of numbers

The plain notation of a number can be read: doubles by the reader of plain numerals, and whole numbers by
their digits. A double that is whole has a point or an exponent, so its text is not that of the whole
number; signatures drop this difference and no other.

* `Numeral.Spells` : characters that read as a decimal of some value.
* `NumeralStyle.spells_magnitude` : the plain notation of digits spells their value.
* `Binary64.decimal?_text` : the text of a double reads back.
* `Number.text_inj` : numbers with one text are the same.
* `Number.signature_eq_iff` : numbers with one signature are the same but for what they are written as.
* `Number.leveled_eq_iff` : these are the numbers that lie at one place.
-/

namespace TouchGame

namespace Numeral

/-! ## Digits -/

def AreDigits (cs : List Char) : Prop :=
  ∀ c ∈ cs, c.isDigit = true

def characters : List Char := "0123456789.-+einfa".toList

variable {cs ds : List Char}

@[simp] theorem areDigits_nil : AreDigits [] := by
  simp [AreDigits]

@[simp] theorem areDigits_cons {c : Char} : AreDigits (c :: cs) ↔ c.isDigit = true ∧ AreDigits cs := by
  simp [AreDigits]

@[simp] theorem areDigits_append : AreDigits (cs ++ ds) ↔ AreDigits cs ∧ AreDigits ds := by
  simp [AreDigits, or_imp, forall_and]

theorem AreDigits.mono (h : AreDigits ds) (hsub : cs ⊆ ds) : AreDigits cs :=
  fun c hc => h c (hsub hc)

theorem areDigits_zeros (n : Nat) : AreDigits (List.replicate n '0') := by
  intro c hc
  rw [List.eq_of_mem_replicate hc]
  decide

theorem areDigits_toDigits (n : Nat) : AreDigits (Nat.toDigits 10 n) :=
  fun _ => Nat.isDigit_of_mem_toDigits (by decide) (by decide)

theorem isDigit_mem {c : Char} (h : c.isDigit = true) : c ∈ "0123456789".toList := by
  have hbounds : 48 ≤ c.toNat ∧ c.toNat ≤ 57 := by
    rw [Char.isDigit, Bool.and_eq_true, decide_eq_true_eq, decide_eq_true_eq] at h
    exact h
  have hall : ∀ n < 58, 48 ≤ n → Char.ofNat n ∈ "0123456789".toList := by decide
  have hmem := hall c.toNat (by omega) hbounds.1
  rwa [Char.ofNat_toNat] at hmem

theorem AreDigits.subset (h : AreDigits cs) : cs ⊆ characters :=
  fun c hc => (by decide : "0123456789".toList ⊆ characters) (isDigit_mem (h c hc))

theorem digits_append {rest : List Char} (hcs : AreDigits cs) (hrest : ∀ c ∈ rest.head?, c.isDigit = false) :
    digits (cs ++ rest) = (cs, rest) := by
  obtain ⟨hfront, hback⟩ := Text.span_append hcs hrest
  rw [digits, hfront, hback]

theorem digits_all (hcs : AreDigits cs) : digits cs = (cs, []) := by
  have happend : digits (cs ++ []) = (cs, []) := digits_append hcs (by simp)
  rwa [List.append_nil] at happend

theorem value_append (cs ds : List Char) : value (cs ++ ds) = value cs * 10 ^ ds.length + value ds := by
  show Nat.ofDigitChars 10 (cs ++ ds) 0 = _
  rw [Nat.ofDigitChars_append, Nat.ofDigitChars_eq_ofDigitChars_zero, Nat.mul_comm]
  rfl

theorem value_zeros (n : Nat) : value (List.replicate n '0') = 0 := by
  show Nat.ofDigitChars 10 (List.replicate n '0') 0 = 0
  rw [Nat.ofDigitChars_replicate_zero, Nat.mul_zero]

theorem value_toDigits (n : Nat) : value (Nat.toDigits 10 n) = n :=
  Nat.ofDigitChars_ten_toDigits

theorem signed?_digits {negative : Bool} (hsign : sign cs = (negative, ds)) (hne : ds ≠ [])
    (hds : AreDigits ds) : signed? cs = some (signedInt negative (value ds)) := by
  obtain ⟨d, rest, rfl⟩ := List.exists_cons_of_ne_nil hne
  rw [signed?, hsign]
  dsimp only
  rw [digits_all hds]

/-! ## Reading a spelled decimal -/

/-- Characters that read as a decimal of a value: digits, then a point and a fraction, or an exponent, or
both. -/
inductive Spells : List Char → ℚ → Prop
  | mk {whole more part tail : List Char} {mark : Char} {e : Int} (hne : whole ≠ [])
      (hwhole : AreDigits whole) (hmark : mark ∈ ['.', 'e']) (hmore : more ⊆ characters)
      (hfraction : fraction (mark :: more) = (part, tail)) (hexponent : exponent? tail = some e) :
      Spells (whole ++ mark :: more) (Decimal.mk (value (whole ++ part)) (e - part.length)).value

def minus (negative : Bool) : List Char :=
  if negative then ['-'] else []

theorem sign_minus (negative : Bool) {c : Char} (hc : c.isDigit = true) :
    sign (minus negative ++ c :: cs) = (negative, c :: cs) := by
  cases negative with
  | true => rfl
  | false =>
    have hplain : c ≠ '-' ∧ c ≠ '+' := by
      constructor <;> rintro rfl <;> revert hc <;> decide
    show sign (c :: cs) = _
    unfold sign
    split <;> simp_all

theorem lowerWord_ne {c letter : Char} (letters : List Char) (hc : c.isDigit = true)
    (hletter : letter ∈ ['i', 'n']) : (lowerWord (c :: cs) == String.ofList (letter :: letters)) = false := by
  rw [beq_eq_false_iff_ne]
  intro h
  rw [lowerWord, String.ofList_inj, List.map_cons, List.cons.injEq] at h
  have hlower : Text.FreeOf ['i', 'n'] ("0123456789".toList.map Char.toLower) := by decide
  exact hlower c.toLower (List.mem_map_of_mem (isDigit_mem hc)) (h.1 ▸ hletter)

theorem decimal?_of_spells {d : Decimal} (negative : Bool) (h : Spells cs d.value) :
    decimal? (minus negative ++ cs) = some (d.toBinary64 negative) := by
  generalize hworth : d.value = worth at h
  obtain @⟨whole, more, part, tail, mark, e, hne, hwhole, hmark, -, hfraction, hexponent⟩ := h
  obtain ⟨c, rest, rfl⟩ := List.exists_cons_of_ne_nil hne
  have hc : c.isDigit = true := hwhole c List.mem_cons_self
  have hstop : ∀ m ∈ (mark :: more).head?, m.isDigit = false := by
    intro m hm
    obtain rfl := Option.some.inj hm
    simp only [List.mem_cons, List.not_mem_nil, or_false] at hmark
    rcases hmark with rfl | rfl <;> rfl
  have hsplit := digits_append hwhole hstop
  rw [List.cons_append] at hsplit ⊢
  unfold decimal?
  rw [sign_minus negative hc]
  dsimp only
  have hinf : (lowerWord (c :: (rest ++ mark :: more)) == "inf") = false :=
    lowerWord_ne ['n', 'f'] hc (by decide)
  have hinfinity : (lowerWord (c :: (rest ++ mark :: more)) == "infinity") = false :=
    lowerWord_ne ['n', 'f', 'i', 'n', 'i', 't', 'y'] hc (by decide)
  have hnan : (lowerWord (c :: (rest ++ mark :: more)) == "nan") = false :=
    lowerWord_ne ['a', 'n'] hc (by decide)
  rw [hinf, hinfinity, hnan, hsplit]
  dsimp only
  rw [hfraction]
  simp only [Bool.or_false, Bool.false_eq_true, if_false, List.isEmpty_cons, Bool.false_and,
    hexponent, Option.map_some]
  rw [Decimal.toBinary64_congr negative hworth]

end Numeral

/-! ## Spelling a magnitude -/

namespace NumeralStyle

open Numeral

variable {ds : List Char}

theorem toDigits_eq_trimmed (n : Nat) :
    ∃ zeros, Nat.toDigits 10 n = trimmed n ++ List.replicate zeros '0' := by
  obtain ⟨zeros, hzeros⟩ : ∃ zeros,
      (Nat.toDigits 10 n).reverse.takeWhile (· == '0') = List.replicate zeros '0' :=
    ⟨_, List.eq_replicate_of_mem fun c hc => by simpa using List.mem_takeWhile_imp hc⟩
  refine ⟨zeros, ?_⟩
  have hsplit := List.takeWhile_append_dropWhile (p := (· == '0')) (l := (Nat.toDigits 10 n).reverse)
  rw [hzeros] at hsplit
  rw [trimmed, ← List.reverse_replicate, ← List.reverse_append, hsplit, List.reverse_reverse]

theorem areDigits_trimmed (n : Nat) : AreDigits (trimmed n) := by
  obtain ⟨zeros, h⟩ := toDigits_eq_trimmed n
  exact (areDigits_toDigits n).mono (h ▸ List.subset_append_left _ _)

theorem value_trimmed_eq (n : Nat) : ∃ zeros, n = value (trimmed n) * 10 ^ zeros ∧
    digitCount n = (trimmed n).length + zeros := by
  obtain ⟨zeros, h⟩ := toDigits_eq_trimmed n
  refine ⟨zeros, ?_, ?_⟩
  · have hvalue := congrArg value h
    rwa [value_toDigits, value_append, value_zeros, Nat.add_zero, List.length_replicate] at hvalue
  · rw [digitCount, h, List.length_append, List.length_replicate]

theorem trimmed_ne_nil {n : Nat} (hn : n ≠ 0) : trimmed n ≠ [] := by
  intro h
  obtain ⟨zeros, hvalue, -⟩ := value_trimmed_eq n
  rw [h] at hvalue
  exact hn (hvalue.trans (Nat.zero_mul _))

theorem value_trimmed (d : Decimal) :
    (Decimal.mk (value (trimmed d.digits))
      (d.exponent + digitCount d.digits - 1 + 1 - (trimmed d.digits).length)).value = d.value := by
  obtain ⟨zeros, hvalue, hcount⟩ := value_trimmed_eq d.digits
  have hexponent : d.exponent + digitCount d.digits - 1 + 1 - (trimmed d.digits).length =
      d.exponent + zeros := by omega
  rw [hexponent, ← Decimal.value_scaled, ← hvalue]

theorem spells_pointed (whole part : List Char) (hne : whole ≠ []) (hwhole : AreDigits whole)
    (hpart : AreDigits part) :
    Spells (whole ++ '.' :: part) (Decimal.mk (value (whole ++ part)) (-part.length)).value := by
  have hfraction : fraction ('.' :: part) = (part, []) := digits_all hpart
  have hspells := Spells.mk hne hwhole (List.mem_cons_self ..) hpart.subset hfraction rfl
  rwa [Int.zero_sub] at hspells

theorem spells_behind (hds : AreDigits ds) (zeros : Nat) :
    Spells ('0' :: '.' :: (List.replicate zeros '0' ++ ds))
      (Decimal.mk (value ds) (-(zeros + ds.length : Nat))).value := by
  have hspells := spells_pointed ['0'] _ (by simp) (by simp)
    (areDigits_append.mpr ⟨areDigits_zeros zeros, hds⟩)
  have hvalue : value (['0'] ++ (List.replicate zeros '0' ++ ds)) = value ds := by
    rw [value_append, value_append, value_zeros]
    simp [value]
  rw [hvalue, List.length_append, List.length_replicate] at hspells
  exact hspells

theorem spells_front (hds : AreDigits ds) {zeros : Nat} (hne : ds ++ List.replicate zeros '0' ≠ []) :
    Spells (ds ++ List.replicate zeros '0' ++ ['.', '0']) (Decimal.mk (value ds) zeros).value := by
  have hspells := spells_pointed _ ['0'] hne (areDigits_append.mpr ⟨hds, areDigits_zeros zeros⟩) (by simp)
  have hvalue : value (ds ++ List.replicate zeros '0' ++ ['0']) = value ds * 10 ^ (zeros + 1) := by
    rw [value_append, value_append, value_zeros, List.length_replicate, Nat.pow_succ, ← Nat.mul_assoc]
    rfl
  have hplace : -(1 : Int) + (zeros + 1 : Nat) = zeros := by omega
  rw [hvalue, List.length_singleton, Decimal.value_scaled, Nat.cast_one, hplace] at hspells
  exact hspells

theorem spells_between (hds : AreDigits ds) {front : Nat} (hpos : 0 < front) (hlt : front < ds.length) :
    Spells (ds.take front ++ '.' :: ds.drop front)
      (Decimal.mk (value ds) (front - ds.length)).value := by
  have hne : ds.take front ≠ [] := by
    rw [← List.length_pos_iff, List.length_take]
    omega
  have hspells := spells_pointed _ _ hne (hds.mono (List.take_subset _ _))
    (hds.mono (List.drop_subset front ds))
  have hplace : -((ds.drop front).length : Int) = front - ds.length := by
    rw [List.length_drop]
    omega
  rwa [hplace, List.take_append_drop] at hspells

/-- Digits with a point in front of them, behind them or between them. -/
theorem spells_positional (hds : AreDigits ds) (lead : Int) :
    Spells (plain.positional ds lead).toList
      (Decimal.mk (value ds) (lead + 1 - ds.length)).value := by
  unfold positional
  split
  · rename_i hlead
    have hspells := spells_behind hds (-lead - 1).toNat
    have hplace : -(((-lead - 1).toNat + ds.length : Nat) : Int) = lead + 1 - ds.length := by omega
    rw [hplace] at hspells
    simpa using hspells
  · rename_i hlead
    dsimp only
    generalize hbefore : lead.toNat + 1 = before
    split
    · rename_i hback
      have hle : ds.length ≤ before := List.drop_eq_nil_iff.mp hback
      have hne : ds ++ List.replicate (before - ds.length) '0' ≠ [] := by
        rw [← List.length_pos_iff, List.length_append, List.length_replicate]
        omega
      have hspells := spells_front hds hne
      have hplace : ((before - ds.length : Nat) : Int) = lead + 1 - ds.length := by omega
      rw [hplace] at hspells
      simpa [plain, List.take_of_length_le hle] using hspells
    · rename_i hback
      have hlt : before < ds.length := by
        rw [← Nat.not_le, ← List.drop_eq_nil_iff]
        exact hback
      have hspells := spells_between hds (by omega) hlt
      have hplace : (before : Int) - ds.length = lead + 1 - ds.length := by omega
      have hzeros : before - ds.length = 0 := by omega
      rw [hplace] at hspells
      simpa [hzeros] using hspells

def exponentText (lead : Int) : List Char :=
  'e' :: (if lead < 0 then '-' else '+') ::
    ((if (toString lead.natAbs).length < 2 then ['0'] else []) ++ Nat.toDigits 10 lead.natAbs)

theorem exponentText_subset (lead : Int) : exponentText lead ⊆ characters := by
  have hdigits := (areDigits_toDigits lead.natAbs).subset
  intro c hc
  simp only [exponentText, List.mem_cons, List.mem_append] at hc
  rcases hc with rfl | rfl | hc | hc
  · decide
  · split <;> decide
  · split at hc
    · rw [List.mem_singleton.mp hc]
      decide
    · cases hc
  · exact hdigits hc

theorem exponent?_exponentText (lead : Int) : exponent? (exponentText lead) = some lead := by
  generalize hpadding : (if (toString lead.natAbs).length < 2 then ['0'] else []) = padding
  have hzeros : AreDigits padding ∧ value padding = 0 := by
    rw [← hpadding]
    split <;> simp [value]
  have hdigits : AreDigits (padding ++ Nat.toDigits 10 lead.natAbs) :=
    areDigits_append.mpr ⟨hzeros.1, areDigits_toDigits _⟩
  have hne : padding ++ Nat.toDigits 10 lead.natAbs ≠ [] := by simp [Nat.toDigits_ne_nil]
  have hvalue : value (padding ++ Nat.toDigits 10 lead.natAbs) = lead.natAbs := by
    rw [value_append, hzeros.2, value_toDigits, Nat.zero_mul, Nat.zero_add]
  have hsigns : sign ('-' :: (padding ++ Nat.toDigits 10 lead.natAbs)) =
        (true, padding ++ Nat.toDigits 10 lead.natAbs) ∧
      sign ('+' :: (padding ++ Nat.toDigits 10 lead.natAbs)) =
        (false, padding ++ Nat.toDigits 10 lead.natAbs) := ⟨rfl, rfl⟩
  rw [exponentText, hpadding]
  split
  · have hread := signed?_digits hsigns.1 hne hdigits
    rw [hvalue, signedInt, if_pos rfl, show -(lead.natAbs : Int) = lead by omega] at hread
    exact hread
  · have hread := signed?_digits hsigns.2 hne hdigits
    rw [hvalue, signedInt, if_neg (by decide), show (lead.natAbs : Int) = lead by omega] at hread
    exact hread

theorem exponentText_eq (lead : Int) : ((if lead < 0 then "e-" else "e+") ++
    if (toString lead.natAbs).length < 2 then "0" ++ toString lead.natAbs
    else toString lead.natAbs).toList = exponentText lead := by
  rw [exponentText, String.toList_append]
  split <;> split <;> simp

theorem scientific_toList (ds : List Char) (lead : Int) : (scientific ds lead).toList =
    (match ds with
      | first :: second :: rest => first :: '.' :: second :: rest
      | short => short) ++ exponentText lead := by
  unfold scientific
  rw [String.append_assoc, String.toList_append, exponentText_eq]
  match ds with
  | [] | [_] | _ :: _ :: _ => simp

/-- Digits with a point behind the first one, and an exponent. -/
theorem spells_scientific (hds : AreDigits ds) (hne : ds ≠ []) (lead : Int) :
    Spells (scientific ds lead).toList (Decimal.mk (value ds) (lead + 1 - ds.length)).value := by
  have htail := exponentText_subset lead
  have hexponent := exponent?_exponentText lead
  rw [scientific_toList]
  match ds with
  | [] => exact absurd rfl hne
  | [first] =>
    have hfraction : fraction (exponentText lead) = ([], exponentText lead) := rfl
    have hspells := Spells.mk hne hds (List.mem_cons_of_mem _ (List.mem_singleton_self 'e'))
      (List.cons_subset.mp htail).2 hfraction hexponent
    have hplace : lead - (0 : Nat) = lead + 1 - ([first].length : Int) := by simp
    rw [List.append_nil, List.length_nil, hplace] at hspells
    exact hspells
  | first :: second :: rest =>
    rw [areDigits_cons] at hds
    have hfraction : fraction ('.' :: (second :: rest ++ exponentText lead)) =
        (second :: rest, exponentText lead) := by
      refine digits_append hds.2 fun c hc => ?_
      obtain rfl := Option.some.inj hc
      decide
    have hfirst : AreDigits [first] := by simpa using hds.1
    have hspells := Spells.mk (List.cons_ne_nil first []) hfirst (by simp)
      (List.append_subset.mpr ⟨hds.2.subset, htail⟩) hfraction hexponent
    have hplace : lead - ((second :: rest).length : Int) =
        lead + 1 - ((first :: second :: rest).length : Int) := by
      simp only [List.length_cons]
      omega
    rw [hplace] at hspells
    exact hspells

theorem spells_magnitude {d : Decimal} (hd : d.digits ≠ 0) :
    Spells (plain.magnitude d.digits (d.exponent + digitCount d.digits - 1)).toList d.value := by
  rw [← value_trimmed d, magnitude]
  split
  · exact spells_positional (areDigits_trimmed _) _
  · exact spells_scientific (areDigits_trimmed _) (trimmed_ne_nil hd) _

end NumeralStyle

/-! ## The text of a double -/

namespace Binary64

open Numeral NumeralStyle

theorem text_finite (negative : Bool) {quanta : Nat} (hfits : Fits quanta) :
    ∃ (d : Decimal) (cs : List Char),
      (Binary64.finite negative quanta hfits).text.toList = minus negative ++ cs ∧
        Spells cs d.value ∧ d.toBinary64 negative = .finite negative quanta hfits := by
  have hminus : (if negative then "-" else "").toList = minus negative := by cases negative <;> rfl
  by_cases hquanta : quanta = 0
  · subst hquanta
    have hspells := spells_pointed ['0'] ['0'] (by simp) (by simp) (by simp)
    refine ⟨_, _, ?_, hspells, ?_⟩
    · rw [text, double, String.toList_append, hminus]
      rfl
    · have hzero : value (['0'] ++ ['0']) = 0 := by decide
      rw [Decimal.toBinary64, if_pos hzero, zero]
  · have hspells := spells_magnitude (shortest_digits_ne_zero hfits hquanta)
    refine ⟨_, _, ?_, hspells, shortest_readsBack negative hfits⟩
    rw [text, double, String.toList_append, hminus, if_neg hquanta]

/-- **Doubles read back.** The plain notation of a double is a numeral for this double. -/
theorem decimal?_text (x : Binary64) : decimal? x.text.toList = some x := by
  cases x with
  | nan => rfl
  | infinite negative => cases negative <;> rfl
  | finite negative quanta hfits =>
    obtain ⟨d, cs, htext, hspells, hread⟩ := text_finite negative hfits
    rw [htext, decimal?_of_spells negative hspells, hread]

theorem text_inj {x y : Binary64} (h : x.text = y.text) : x = y := by
  have hread := decimal?_text x
  rw [h, decimal?_text y] at hread
  exact (Option.some.inj hread).symm

theorem text_marked (x : Binary64) : ∃ c ∈ ['.', 'e', 'n'], c ∈ x.text.toList := by
  cases x with
  | nan => exact ⟨'n', by decide, by decide⟩
  | infinite negative => exact ⟨'n', by decide, by cases negative <;> decide⟩
  | finite negative quanta hfits =>
    obtain ⟨d, cs, htext, hspells, -⟩ := text_finite negative hfits
    generalize d.value = worth at hspells
    obtain @⟨whole, more, part, tail, mark, e, -, -, hmark, -⟩ := hspells
    exact ⟨mark, List.mem_append_left ['n'] hmark, by simp [htext]⟩

theorem text_subset (x : Binary64) : x.text.toList ⊆ characters := by
  cases x with
  | nan => exact fun c hc => (by decide : "nan".toList ⊆ characters) hc
  | infinite negative => cases negative <;> decide
  | finite negative quanta hfits =>
    obtain ⟨d, cs, htext, hspells, -⟩ := text_finite negative hfits
    generalize d.value = worth at hspells
    obtain @⟨whole, more, part, tail, mark, e, -, hwhole, hmark, hmore, -⟩ := hspells
    have hminus : minus negative ⊆ characters := by cases negative <;> decide
    have hmarks : mark ∈ characters := (by decide : ['.', 'e'] ⊆ characters) hmark
    rw [htext, List.append_subset, List.append_subset, List.cons_subset]
    exact ⟨hminus, hwhole.subset, hmarks, hmore⟩

end Binary64

/-! ## Whole doubles -/

namespace Binary64

theorem signed_mul (negative : Bool) (m n : Nat) : signed negative m * n = signed negative (m * n) := by
  cases negative <;> simp [signed]

theorem signed_inj {negative negative' : Bool} {m n : Nat} (hm : m ≠ 0)
    (h : signed negative m = signed negative' n) : negative = negative' ∧ m = n := by
  unfold signed at h
  cases negative <;> cases negative' <;> simp at h ⊢ <;> omega

theorem whole?_of_extent? {x : Binary64} {n : Int} (h : x.extent? = some (.point (n * unit))) :
    x.whole? ≠ none := by
  cases x with
  | nan => cases h
  | infinite negative => cases negative <;> cases h
  | finite negative quanta hfits =>
    have hplace : signed negative quanta = n * unit := by
      rw [extent?, Option.some.injEq, Extent.point.injEq] at h
      exact h
    have hquanta := congrArg Int.natAbs hplace
    rw [natAbs_signed, Int.natAbs_mul, Int.natAbs_natCast] at hquanta
    rw [whole?, hquanta, if_pos (Nat.mul_mod_left ..)]
    exact Option.some_ne_none _

/-- Doubles that are not whole lie at different places. -/
theorem eq_of_extent? {x y : Binary64} (hx : x.whole? = none) (h : x.extent? = y.extent?) : x = y := by
  cases x with
  | nan =>
    cases y with
    | nan => rfl
    | infinite negative => cases negative <;> cases h
    | finite negative quanta hfits => cases h
  | infinite negative =>
    cases y with
    | nan => cases negative <;> cases h
    | infinite negative' => cases negative <;> cases negative' <;> first | rfl | cases h
    | finite negative' quanta hfits => cases negative <;> cases h
  | finite negative quanta hfits =>
    cases y with
    | nan => cases h
    | infinite negative' => cases negative' <;> cases h
    | finite negative' quanta' hfits' =>
      have hplace : signed negative quanta = signed negative' quanta' := by
        rw [extent?, extent?, Option.some.injEq, Extent.point.injEq] at h
        exact h
      have hzero : quanta ≠ 0 := by
        rintro rfl
        rw [whole?, if_pos (Nat.zero_mod _)] at hx
        cases hx
      obtain ⟨rfl, rfl⟩ := signed_inj hzero hplace
      rfl

end Binary64

/-! ## The text of a number -/

namespace Number

open Numeral

theorem toList_toString_int (n : Int) :
    (toString n).toList = minus (decide (n < 0)) ++ Nat.toDigits 10 n.natAbs := by
  cases n with
  | ofNat n => simp [minus, Int.toString_eq_repr, Int.repr]
  | negSucc n => simp [minus, Int.toString_eq_repr, Int.repr]

theorem text_subset (n : Number) : n.text.toList ⊆ characters := by
  cases n with
  | int n =>
    have hminus : minus (decide (n < 0)) ⊆ characters := by
      cases decide (n < 0) <;> decide
    rw [text, toList_toString_int, List.append_subset]
    exact ⟨hminus, (areDigits_toDigits _).subset⟩
  | real x => exact x.text_subset

theorem toString_ne_text (n : Int) (x : Binary64) : toString n ≠ x.text := by
  intro h
  obtain ⟨c, hc, hmem⟩ := x.text_marked
  have hmark : ∀ c ∈ ['.', 'e', 'n'], c.isDigit = false ∧ c ≠ '-' := by simp [Char.isDigit]
  obtain ⟨hdigit, hminus⟩ := hmark c hc
  rw [← h, toList_toString_int, List.mem_append] at hmem
  rcases hmem with hmem | hmem
  · cases hneg : decide (n < 0) <;> rw [hneg] at hmem
    · cases hmem
    · exact hminus (List.mem_singleton.mp hmem)
  · rw [areDigits_toDigits _ c hmem] at hdigit
    cases hdigit

theorem signed?_toString (n : Int) : signed? (toString n).toList = some n := by
  obtain ⟨d, rest, hcons⟩ := List.exists_cons_of_ne_nil (Nat.toDigits_ne_nil (n := n.natAbs) (b := 10))
  have hdigits := areDigits_toDigits n.natAbs
  have hsign : sign (toString n).toList = (decide (n < 0), Nat.toDigits 10 n.natAbs) := by
    rw [toList_toString_int, hcons]
    exact sign_minus _ (hdigits d (hcons ▸ List.mem_cons_self))
  rw [signed?_digits hsign Nat.toDigits_ne_nil hdigits, value_toDigits, signedInt, Option.some.injEq]
  by_cases hn : n < 0
  · rw [decide_eq_true hn, if_pos rfl]
    omega
  · rw [decide_eq_false hn, if_neg Bool.false_ne_true]
    omega

theorem text_inj {a b : Number} (h : a.text = b.text) : a = b := by
  cases a with
  | int m =>
    cases b with
    | int n =>
      have hread := signed?_toString m
      rw [show toString m = toString n from h, signed?_toString n] at hread
      exact congrArg _ (Option.some.inj hread).symm
    | real y => exact absurd h (toString_ne_text m y)
  | real x =>
    cases b with
    | int n => exact absurd h.symm (toString_ne_text n x)
    | real y => exact congrArg _ (Binary64.text_inj h)

/-- A number as signatures see it: a double that is whole counts as the whole number. -/
def leveled : Number → Number
  | .int n => .int n
  | .real x => (x.whole?.map Number.int).getD (.real x)

theorem signature_eq (n : Number) : n.signature = n.leveled.text := by
  cases n with
  | int n => rfl
  | real x =>
    rw [signature, leveled]
    cases x.whole? <;> rfl

theorem signature_eq_iff {a b : Number} : a.signature = b.signature ↔ a.leveled = b.leveled := by
  rw [signature_eq, signature_eq]
  exact ⟨text_inj, congrArg _⟩

theorem signature_subset (n : Number) : n.signature.toList ⊆ characters := by
  rw [signature_eq]
  exact text_subset _

/-- Levelling keeps a number where it is. -/
theorem extent?_leveled (n : Number) : n.leveled.extent? = n.extent? := by
  cases n with
  | int n => rfl
  | real x =>
    rw [leveled]
    cases hwhole : x.whole? with
    | none => rfl
    | some n =>
      cases x with
      | nan => cases hwhole
      | infinite negative => cases hwhole
      | finite negative quanta hfits =>
        rw [Binary64.whole?] at hwhole
        split at hwhole
        · rename_i hmod
          obtain rfl := Option.some.inj hwhole
          have hquanta : quanta / Binary64.unit * Binary64.unit = quanta :=
            Nat.div_mul_cancel (Nat.dvd_of_mod_eq_zero hmod)
          show some (Extent.point (_ * _)) = some (Extent.point _)
          rw [Binary64.signed_mul, hquanta]
        · cases hwhole

theorem leveled_real {n : Number} {x : Binary64} (h : n.leveled = .real x) : x.whole? = none := by
  cases n with
  | int m => cases h
  | real y =>
    rw [leveled] at h
    cases hwhole : y.whole? with
    | none =>
      rw [hwhole] at h
      cases h
      exact hwhole
    | some m =>
      rw [hwhole] at h
      cases h

/-- Two numbers are the same to signatures if they lie at one place of the line, or both nowhere. -/
theorem leveled_eq_iff {a b : Number} : a.leveled = b.leveled ↔ a.extent? = b.extent? := by
  constructor
  · intro h
    rw [← extent?_leveled a, h, extent?_leveled]
  · intro h
    rw [← extent?_leveled a, ← extent?_leveled b] at h
    cases ha : a.leveled with
    | int m =>
      cases hb : b.leveled with
      | int n =>
        rw [ha, hb, extent?, extent?, Option.some.injEq, Extent.point.injEq] at h
        exact congrArg _ (Int.eq_of_mul_eq_mul_right (Int.ne_of_gt unit_pos) h)
      | real y =>
        rw [ha, hb] at h
        exact absurd (leveled_real hb) (Binary64.whole?_of_extent? h.symm)
    | real x =>
      cases hb : b.leveled with
      | int n =>
        rw [ha, hb] at h
        exact absurd (leveled_real ha) (Binary64.whole?_of_extent? h)
      | real y =>
        rw [ha, hb] at h
        exact congrArg _ (Binary64.eq_of_extent? (leveled_real ha) h)

theorem text_ne (n : Number) {s : String} (hread : signed? s.toList = none)
    (hmark : Text.FreeOf s.toList ['.', 'e', 'n']) : n.text ≠ s := by
  rintro rfl
  cases n with
  | int n =>
    rw [text, signed?_toString] at hread
    cases hread
  | real x =>
    obtain ⟨c, hc, hmem⟩ := x.text_marked
    exact hmark c hc hmem

theorem text_ne_empty (n : Number) : n.text ≠ "" :=
  n.text_ne rfl (by decide)

theorem text_ne_dash (n : Number) : n.text ≠ "-" :=
  n.text_ne rfl (by decide)

end Number

end TouchGame
