import TouchGame.Repair.Answer

/-!
# Answers that cannot be read

An answer with a whole number of too many digits is no answer at all: the reader fails on it, where it
takes every other text that is no list of rules for an empty list.

* `fenced?_eq_none` : a text without an opening mark is a document as a whole.
* `read_endless` : a list with a number of too many digits is not read.
* `endless`, `revisedRules_endless` : an answer that is one.
-/

namespace TouchGame

/-! ## Documents with long numbers -/

namespace Json

open Reader

variable {n : Nat}

theorem wholePart_ones (n : Nat) :
    wholePart (List.replicate (n + 1) '1' ++ [']']) = (List.replicate (n + 1) '1', [']']) := by
  have hdigits : ∀ c ∈ List.replicate (n + 1) '1', c.isDigit = true := by
    intro c hc
    rw [List.eq_of_mem_replicate hc]
    rfl
  rw [wholePart, List.takeWhile_append_of_pos hdigits, List.dropWhile_append_of_pos hdigits]
  · simp [Char.isDigit]
  · rw [List.replicate_succ]
    simp

theorem unsigned_endless (h : Numeral.digitLimit < n + 1) (negative : Bool) :
    unsigned negative (List.replicate (n + 1) '1' ++ [']']) = .error (.tooManyDigits (n + 1)) := by
  have hpart : fraction [']'] = ([], [']']) := rfl
  have hexponent : exponent? [']'] = none := rfl
  rw [unsigned, wholePart_ones, List.replicate_succ]
  simp only [hpart, hexponent, List.length_cons, List.length_replicate]
  rw [if_pos h]

theorem value_one (fuel : Nat) (rest : List Char) :
    value (fuel + 1) ('1' :: rest) = (number ('1' :: rest)).map fun (n, rest) => (.num n, rest) := by
  rw [value]
  rfl

theorem read_list {rest : List Char} {fault : ReadFault}
    (h : ∀ fuel, value (fuel + 1) ('1' :: rest) = .error fault) :
    Json.read ('[' :: '1' :: rest) = .error fault := by
  have hlist (fuel : Nat) : value (fuel + 3) ('[' :: '1' :: rest) = .error fault := by
    have hitems : value (fuel + 3) ('[' :: '1' :: rest) = items (fuel + 2) [] ('1' :: rest) := by
      rw [value]
      rfl
    rw [hitems, items, h]
  have hread : value (2 * ('[' :: '1' :: rest).length + 2) ('[' :: '1' :: rest) = .error fault :=
    hlist (2 * rest.length + 3)
  rw [Json.read, hread]

theorem read_endless (h : Numeral.digitLimit < n) :
    Json.read ('[' :: List.replicate n '1' ++ [']']) = .error (.tooManyDigits n) := by
  obtain ⟨n, rfl⟩ : ∃ k, n = k + 1 := ⟨n - 1, by omega⟩
  have hnumber : number ('1' :: List.replicate n '1' ++ [']']) = .error (.tooManyDigits (n + 1)) :=
    unsigned_endless h false
  rw [List.replicate_succ]
  refine read_list fun fuel => ?_
  rw [value_one, List.append_eq, ← List.cons_append, hnumber]
  rfl

end Json

/-! ## Answers -/

namespace Repair

section Marks

variable {mark cs : List Char}

theorem behindMark?_eq_none (h : ¬ mark <:+: cs) : behindMark? mark cs = none := by
  induction cs with
  | nil => rfl
  | cons c rest ih =>
    rw [List.infix_cons_iff, not_or, ← List.isPrefixOf_iff_prefix] at h
    rw [behindMark?, if_neg h.1, ih h.2]

theorem fenced?_eq_none (h : ¬ openingMark <:+: cs) : fenced? cs = none := by
  rw [fenced?, behindMark?_eq_none h, Option.bind_none]

end Marks

/-- A list with a number of too many digits. -/
def endless (n : Nat) : String :=
  String.ofList ('[' :: List.replicate n '1' ++ [']'])

theorem not_mem_endless (n : Nat) {c : Char} (h : c ∉ ['[', '1', ']']) : c ∉ (endless n).toList := by
  rw [endless, String.toList_ofList]
  simp only [List.cons_append, List.mem_cons, List.mem_append, List.mem_replicate, List.not_mem_nil,
    or_false, not_or] at h ⊢
  exact ⟨h.1, fun hin => h.2.1 hin.2, h.2.2⟩

theorem payload_endless (n : Nat) :
    payload (endless n).toList = '[' :: List.replicate n '1' ++ [']'] := by
  have hmarks : fenced? (endless n).toList = none := fenced?_eq_none fun hmark =>
    not_mem_endless n (by decide) (hmark.subset List.mem_cons_self)
  have hfront : ('[' :: List.replicate n '1' ++ [']']).dropWhile Text.isBlank =
      '[' :: List.replicate n '1' ++ [']'] := rfl
  rw [payload, hmarks, Option.getD_none, endless, String.toList_ofList, Text.trim, Text.trimFront,
    Text.trimBack, hfront, List.reverse_append, List.reverse_singleton, List.singleton_append,
    List.dropWhile_cons_of_neg (by decide), List.reverse_cons, List.reverse_reverse]

/-- **An answer with a number of too many digits cannot be read.** -/
theorem revisedRules_endless {n : Nat} (h : Numeral.digitLimit < n) :
    revisedRules (endless n) = .error (.tooManyDigits n) := by
  rw [revisedRules, payload_endless, Json.read_endless h]

end Repair

end TouchGame
