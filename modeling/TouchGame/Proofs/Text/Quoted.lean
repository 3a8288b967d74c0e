import Mathlib.Algebra.Group.Nat.Defs
import TouchGame.Proofs.Text.Cut

/-!
# Quoted texts

What stands between quotes can be read back, whatever stands behind it: each character is written as
itself, or as a backslash with a letter that tells how many digits follow.

* `hexRead_hexPadded` : the number that hexadecimal digits stand for.
* `readEscape_escaped` : the character that an escape stands for.
* `quoted_cut` : a quoted text in front of other characters.
* `freeOf_quoted` : the characters that a quoted text does not hold.
-/

namespace TouchGame.Text

/-! ## Hexadecimal digits -/

def hexDigits : List Char := "0123456789abcdef".toList

def hexValue (c : Char) : Nat :=
  if c.isDigit then c.toNat - 48 else c.toNat - 87

def hexRead (cs : List Char) : Nat :=
  cs.foldl (fun n c => 16 * n + hexValue c) 0

theorem hexValue_digitChar : ∀ n < 16, hexValue n.digitChar = n := by
  decide

theorem digitChar_mem_hexDigits : ∀ n < 16, n.digitChar ∈ hexDigits := by
  decide

theorem hexRead_concat (cs : List Char) (c : Char) : hexRead (cs ++ [c]) = 16 * hexRead cs + hexValue c := by
  simp [hexRead]

theorem hexRead_toDigits (n : Nat) : hexRead (Nat.toDigits 16 n) = n := by
  induction n using Nat.strongRecOn with
  | ind n ih =>
    rw [Nat.toDigits_eq_if (by decide)]
    split
    · rename_i hn
      simpa [hexRead] using hexValue_digitChar n hn
    · rename_i hn
      rw [hexRead_concat, ih (n / 16) (by omega), hexValue_digitChar _ (Nat.mod_lt n (by decide))]
      omega

theorem toDigits_subset_hexDigits (n : Nat) : Nat.toDigits 16 n ⊆ hexDigits := by
  induction n using Nat.strongRecOn with
  | ind n ih =>
    rw [Nat.toDigits_eq_if (by decide)]
    split
    · rename_i hn
      simpa using digitChar_mem_hexDigits n hn
    · rename_i hn
      rw [List.append_subset]
      exact ⟨ih (n / 16) (by omega), by simpa using digitChar_mem_hexDigits _ (Nat.mod_lt n (by decide))⟩

theorem hexRead_hexPadded (width n : Nat) : hexRead (hexPadded width n) = n := by
  have hzeros (k : Nat) (cs : List Char) : hexRead (List.replicate k '0' ++ cs) = hexRead cs := by
    induction k with
    | zero => rfl
    | succ k ih => exact ih
  rw [hexPadded, hzeros, hexRead_toDigits]

theorem length_hexPadded {width n : Nat} (hwidth : 0 < width) (hn : n < 16 ^ width) :
    (hexPadded width n).length = width := by
  have hle : (Nat.toDigits 16 n).length ≤ width := (Nat.length_toDigits_le_iff (by decide) hwidth).mpr hn
  rw [hexPadded, List.length_append, List.length_replicate]
  omega

theorem hexPadded_subset (width n : Nat) : hexPadded width n ⊆ hexDigits := by
  rw [hexPadded, List.append_subset]
  refine ⟨fun c hc => ?_, toDigits_subset_hexDigits n⟩
  rw [List.eq_of_mem_replicate hc]
  decide

/-! ## Escapes -/

def escapeWidth (letter : Char) : Nat :=
  if letter = 'x' then 2 else if letter = 'u' then 4 else if letter = 'U' then 8 else 0

/-- The character of a four-digit number: surrogates that stand alone have one of their own. -/
def ofUnit (unit : Nat) : Char :=
  if opensPair unit || closesPair unit then ofSurrogate unit else Char.ofNat unit

/-- The character that an escape or a single character stands for. An escape is longer than one character:
a letter and digits stand behind its backslash. -/
def readEscape : List Char → Char
  | _ :: letter :: digits =>
    if letter = 'n' then '\n'
    else if letter = 'r' then '\r'
    else if letter = 't' then '\t'
    else if letter = 'u' then ofUnit (hexRead digits)
    else if letter = 'x' ∨ letter = 'U' then Char.ofNat (hexRead digits)
    else letter
  | [c] => c
  | [] => default

def quotes : List Char := [Char.ofNat 39, '"']

theorem quoteMark_mem_quotes (s : List Char) : quoteMark s ∈ quotes := by
  rw [quoteMark]
  split <;> simp [quotes]

theorem not_unpaired (c : Char) : (opensPair c.toNat || closesPair c.toNat) = false := by
  have hvalid : c.toNat < 0xd800 ∨ 0xdfff < c.toNat ∧ c.toNat < 0x110000 := c.valid
  simp only [opensPair, closesPair, Bool.or_eq_false_iff, Bool.and_eq_false_iff, decide_eq_false_iff_not]
  omega

theorem surrogate?_eq_some {c : Char} {unit : Nat} (h : surrogate? c = some unit) :
    (opensPair unit || closesPair unit) = true ∧ ofSurrogate unit = c := by
  unfold surrogate? at h
  dsimp only at h
  split at h
  · rename_i hpair
    obtain rfl := Option.some.inj h
    rw [Bool.and_eq_true, decide_eq_true_eq] at hpair
    refine ⟨hpair.2, ?_⟩
    rw [ofSurrogate, Nat.add_sub_cancel' hpair.1, Char.ofNat_toNat]
  · cases h

theorem unit_lt {unit : Nat} (h : (opensPair unit || closesPair unit) = true) : unit < 0x10000 := by
  simp only [opensPair, closesPair, Bool.or_eq_true, Bool.and_eq_true, decide_eq_true_eq] at h
  omega

/-- A numbered character: a letter, its digits, and what both stand for. -/
theorem numbered_cases (c : Char) : ∃ letter ∈ ['x', 'u', 'U'], ∃ n, n < 16 ^ escapeWidth letter ∧
    numbered c = '\\' :: letter :: hexPadded (escapeWidth letter) n ∧
      (if letter = 'u' then ofUnit n else Char.ofNat n) = c := by
  have hplain : Char.ofNat c.toNat = c := Char.ofNat_toNat c
  have hbound : c.toNat < 0x110000 := by
    have hvalid : c.toNat < 0xd800 ∨ 0xdfff < c.toNat ∧ c.toNat < 0x110000 := c.valid
    omega
  unfold numbered
  split
  · rename_i unit hunit
    obtain ⟨hpair, hchar⟩ := surrogate?_eq_some hunit
    refine ⟨'u', by simp, unit, unit_lt hpair, rfl, ?_⟩
    rw [if_pos rfl, ofUnit, if_pos hpair, hchar]
  · split
    · rename_i hlow
      exact ⟨'x', by simp, c.toNat, hlow, rfl, hplain⟩
    · split
      · rename_i hlow
        refine ⟨'u', by simp, c.toNat, hlow, rfl, ?_⟩
        rw [if_pos rfl, ofUnit, not_unpaired]
        exact hplain
      · exact ⟨'U', by simp, c.toNat, Nat.lt_trans hbound (by decide), rfl, hplain⟩

section Escaped

variable {mark : Char}

/-- An escaped character: itself, or a backslash, a letter and its digits. -/
theorem escaped_cases (hmark : mark ∈ quotes) (c : Char) :
    (escaped mark c = [c] ∧ c ≠ '\\' ∧ c ≠ mark) ∨
      ∃ letter digits, escaped mark c = '\\' :: letter :: digits ∧
        digits.length = escapeWidth letter ∧ readEscape ('\\' :: letter :: digits) = c ∧
          (letter = c ∨ letter ∈ ['n', 'r', 't', 'x', 'u', 'U']) ∧ digits ⊆ hexDigits := by
  have hwidth : ∀ m ∈ '\\' :: quotes, escapeWidth m = 0 ∧ readEscape ['\\', m] = m := by
    simp [quotes, escapeWidth, readEscape]
  unfold escaped
  split
  · rename_i hself
    rw [Bool.or_eq_true, beq_iff_eq, beq_iff_eq] at hself
    have hc : c ∈ '\\' :: quotes := by
      rcases hself with rfl | rfl
      · exact List.mem_cons_of_mem _ hmark
      · exact List.mem_cons_self
    exact .inr ⟨c, [], rfl, (hwidth c hc).1.symm, (hwidth c hc).2, .inl rfl, List.nil_subset _⟩
  · rename_i hself
    rw [Bool.or_eq_true, beq_iff_eq, beq_iff_eq, not_or] at hself
    split
    · rename_i heq
      rw [beq_iff_eq] at heq
      exact .inr ⟨'n', [], rfl, rfl, heq ▸ rfl, by simp, List.nil_subset _⟩
    split
    · rename_i heq
      rw [beq_iff_eq] at heq
      exact .inr ⟨'r', [], rfl, rfl, heq ▸ rfl, by simp, List.nil_subset _⟩
    split
    · rename_i heq
      rw [beq_iff_eq] at heq
      exact .inr ⟨'t', [], rfl, rfl, heq ▸ rfl, by simp, List.nil_subset _⟩
    split
    · exact .inl ⟨rfl, hself.2, hself.1⟩
    · obtain ⟨letter, hletter, n, hn, heq, hread⟩ := numbered_cases c
      simp only [List.mem_cons, List.not_mem_nil, or_false] at hletter
      refine .inr ⟨letter, _, heq, length_hexPadded ?_ hn, ?_, ?_, hexPadded_subset _ n⟩
      · rcases hletter with rfl | rfl | rfl <;> decide
      · rw [← hread]
        rcases hletter with rfl | rfl | rfl <;> simp [readEscape, hexRead_hexPadded]
      · rcases hletter with rfl | rfl | rfl <;> simp

theorem readEscape_escaped (hmark : mark ∈ quotes) (c : Char) : readEscape (escaped mark c) = c := by
  rcases escaped_cases hmark c with ⟨heq, -, -⟩ | ⟨letter, digits, heq, -, hread, -, -⟩
  · rw [heq, readEscape]
  · rw [heq, hread]

theorem escaped_cut (hmark : mark ∈ quotes) {c d : Char} {back back' : List Char}
    (h : escaped mark c ++ back = escaped mark d ++ back') : c = d ∧ back = back' := by
  have hequal (heq : escaped mark c = escaped mark d) : c = d := by
    rw [← readEscape_escaped hmark c, heq, readEscape_escaped hmark d]
  rcases escaped_cases hmark c with ⟨hc, hne, -⟩ | ⟨letter, digits, hc, hlength, -⟩ <;>
    rcases escaped_cases hmark d with ⟨hd, hne', -⟩ | ⟨letter', digits', hd, hlength', -⟩
  · rw [hc, hd, List.singleton_append, List.singleton_append, List.cons.injEq] at h
    exact h
  · rw [hc, hd, List.singleton_append, List.cons_append, List.cons.injEq] at h
    exact absurd h.1 hne
  · rw [hc, hd, List.singleton_append, List.cons_append, List.cons.injEq] at h
    exact absurd h.1.symm hne'
  · have hsame := h
    rw [hc, hd] at hsame
    simp only [List.cons_append, List.cons.injEq, true_and] at hsame
    obtain ⟨rfl, hdigits⟩ := hsame
    obtain ⟨rfl, hback⟩ := List.append_inj hdigits (hlength.trans hlength'.symm)
    exact ⟨hequal (hc.trans hd.symm), hback⟩

theorem head_escaped (hmark : mark ∈ quotes) (c : Char) (back back' : List Char) :
    mark :: back ≠ escaped mark c ++ back' := by
  intro h
  rcases escaped_cases hmark c with ⟨hc, -, hne⟩ | ⟨letter, digits, hc, -⟩
  · rw [hc, List.singleton_append, List.cons.injEq] at h
    exact hne h.1.symm
  · rw [hc, List.cons_append, List.cons.injEq] at h
    rw [h.1] at hmark
    exact absurd hmark (by decide)

/-- Escaped characters in front of the closing quote. -/
theorem escapes_cut (hmark : mark ∈ quotes) {cs ds back back' : List Char}
    (h : cs.flatMap (escaped mark) ++ mark :: back = ds.flatMap (escaped mark) ++ mark :: back') :
    cs = ds ∧ back = back' := by
  induction cs generalizing ds with
  | nil =>
    cases ds with
    | nil => exact ⟨rfl, by simpa using h⟩
    | cons d rest =>
      rw [List.flatMap_nil, List.nil_append, List.flatMap_cons, List.append_assoc] at h
      exact absurd h (head_escaped hmark d _ _)
  | cons c rest ih =>
    cases ds with
    | nil =>
      rw [List.flatMap_nil, List.nil_append, List.flatMap_cons, List.append_assoc] at h
      exact absurd h.symm (head_escaped hmark c _ _)
    | cons d rest' =>
      rw [List.flatMap_cons, List.flatMap_cons, List.append_assoc, List.append_assoc] at h
      obtain ⟨rfl, hrest⟩ := escaped_cut hmark h
      obtain ⟨rfl, hback⟩ := ih hrest
      exact ⟨rfl, hback⟩

end Escaped

/-! ## Quoted texts -/

theorem quoted_toList (s : String) : (quoted s).toList =
    quoteMark s.toList :: (s.toList.flatMap (escaped (quoteMark s.toList)) ++ [quoteMark s.toList]) := by
  simp [quoted]

theorem quoted_cut {s t : String} {back back' : List Char}
    (h : (quoted s).toList ++ back = (quoted t).toList ++ back') : s = t ∧ back = back' := by
  rw [quoted_toList, quoted_toList, List.cons_append, List.cons_append, List.cons.injEq,
    List.append_assoc, List.append_assoc] at h
  obtain ⟨hmark, hrest⟩ := h
  rw [← hmark] at hrest
  obtain ⟨hchars, hback⟩ := escapes_cut (quoteMark_mem_quotes _) hrest
  exact ⟨String.toList_injective hchars, hback⟩

def quotingCharacters : List Char :=
  quotes ++ ['\\', 'n', 'r', 't', 'x', 'u', 'U'] ++ hexDigits

theorem quoted_subset (s : String) : (quoted s).toList ⊆ quotingCharacters ++ s.toList := by
  have hmark : quoteMark s.toList ∈ quotingCharacters :=
    List.mem_append_left _ (List.mem_append_left _ (quoteMark_mem_quotes _))
  rw [quoted_toList, List.cons_subset, List.append_subset]
  refine ⟨List.mem_append_left _ hmark, fun x hx => ?_, by simpa using .inl hmark⟩
  obtain ⟨c, hc, hx⟩ := List.mem_flatMap.mp hx
  rcases escaped_cases (quoteMark_mem_quotes s.toList) c with
    ⟨heq, -, -⟩ | ⟨letter, digits, heq, -, -, hletter, hdigits⟩
  · rw [heq, List.mem_singleton] at hx
    exact List.mem_append_right _ (hx ▸ hc)
  · rw [heq, List.mem_cons, List.mem_cons] at hx
    rcases hx with rfl | rfl | hx
    · exact List.mem_append_left _ (by decide)
    · rcases hletter with rfl | hletter
      · exact List.mem_append_right _ hc
      · exact List.mem_append_left _ (List.mem_append_left _ (List.mem_append_right _
          (List.mem_cons_of_mem _ hletter)))
    · exact List.mem_append_left _ (List.mem_append_right _ (hdigits hx))

theorem freeOf_quoted {marks : List Char} {s : String} (hmarks : FreeOf marks quotingCharacters)
    (hs : FreeOf marks s.toList) : FreeOf marks (quoted s).toList := fun c hc =>
  (List.mem_append.mp (quoted_subset s hc)).elim (hmarks c) (hs c)

end TouchGame.Text
