import TouchGame.Proofs.Check.Verdicts
import TouchGame.Proofs.Mending.Wiring

/-!
# Conflicts between rules

A conflict between rules is one of two rules of one signature, the earlier rule first. What the rules
do stays when numbers are mended, so mending can add conflicts only by making signatures equal.

* `betweenRules` : the conflicts between rules, apart from those within one.
* `bySignature_eq` : the groups of rules, as filters of all rules.
* `mem_betweenRules_iff` : two rules behind each of them.
* `verdicts_oppositions` : what two rules on one trigger count for.
* `signature_eq_empty_iff` : which rules have no signature.
* `merged_of_mem` : conflicts of mended rules that were not there before.
-/

namespace TouchGame.Check

open Mending

variable {v : Vocabulary} {f : Finding} {rules : List Rule}

def betweenRules (rules : List Rule) : List Finding :=
  (bySignature rules).flatMap fun (signature, group) => everyPair (oppositions signature) group

theorem conflicts_eq (g : Game) :
    conflicts g = g.rules.flatMap ownConflicts ++ betweenRules g.rules := rfl

/-! ## Two rules behind a conflict -/

theorem not_mem_everyPair {α : Type} {check : α → α → List Finding} {list : List α} :
    f ∉ everyPair check list ↔ list.Pairwise fun a b => f ∉ check a b := by
  induction list with
  | nil => simp [everyPair]
  | cons a rest ih => simp [everyPair, ih]

/-- The signatures of rules without the empty one, in the order in which they first occur. -/
def signatures (rules : List Rule) : List String :=
  ((rules.map (·.signature)).filter (!·.isEmpty)).eraseDups

def hasSignature (signature : String) (r : Rule) : Bool :=
  r.signature == signature && !r.signature.isEmpty

theorem mem_signatures {signature : String} : signature ∈ signatures rules ↔
    (∃ r ∈ rules, r.signature = signature) ∧ signature ≠ "" := by
  simp [signatures, List.mem_eraseDups]

theorem bySignature_eq : bySignature rules = (signatures rules).map fun signature =>
    (signature, rules.filter (hasSignature signature)) := by
  have hsignatures : (((rules.map fun r => (r.signature, r)).filter (!·.1.isEmpty)).map
      (·.1)).eraseDups = signatures rules := by
    rw [signatures, List.filter_map, List.filter_map, List.map_map]
    rfl
  rw [bySignature, grouped, hsignatures]
  refine List.map_congr_left fun signature _ => ?_
  have hgroup : (((rules.map fun r => (r.signature, r)).filter (!·.1.isEmpty)).filter
      (·.1 == signature)).map (·.2) = rules.filter (hasSignature signature) := by
    simp only [List.filter_map, List.filter_filter, List.map_map]
    exact List.map_id _
  rw [hgroup]

theorem mem_bySignature {signature : String} {group : List Rule} :
    (signature, group) ∈ bySignature rules ↔ (∃ r ∈ rules, r.signature = signature) ∧
      signature ≠ "" ∧ group = rules.filter (hasSignature signature) := by
  rw [bySignature_eq, List.mem_map, ← and_assoc, ← mem_signatures]
  constructor
  · rintro ⟨s, hs, heq⟩
    rw [Prod.mk.injEq] at heq
    obtain ⟨rfl, rfl⟩ := heq
    exact ⟨hs, rfl⟩
  · rintro ⟨hs, rfl⟩
    exact ⟨signature, hs, rfl⟩

/-- The pairs of rules in one group are the pairs of all rules that have one signature. -/
theorem pairwise_bySignature {R : String → Rule → Rule → Prop} :
    (∀ entry ∈ bySignature rules, entry.2.Pairwise (R entry.1)) ↔ rules.Pairwise fun a b =>
      a.signature = b.signature → a.signature ≠ "" → R a.signature a b := by
  have hgroups : (∀ entry ∈ bySignature rules, entry.2.Pairwise (R entry.1)) ↔
      ∀ signature, (∃ r ∈ rules, r.signature = signature) → signature ≠ "" →
        rules.Pairwise fun a b => a.signature = signature → b.signature = signature →
          R signature a b := by
    rw [Prod.forall]
    simp only [mem_bySignature]
    constructor
    · intro h signature hr hne
      have hgroup := h signature _ ⟨hr, hne, rfl⟩
      rw [List.pairwise_filter] at hgroup
      refine hgroup.imp fun {a b} hab ha hb => ?_
      exact hab (by simp [hasSignature, ha, hne]) (by simp [hasSignature, hb, hne])
    · rintro h signature group ⟨hr, hne, rfl⟩
      rw [List.pairwise_filter]
      refine (h signature hr hne).imp fun {a b} hab ha hb => ?_
      rw [hasSignature, Bool.and_eq_true, beq_iff_eq] at ha hb
      exact hab ha.1 hb.1
  -- A group has all rules of its signature in order, so it has every pair of them in order.
  rw [hgroups]
  simp only [List.pairwise_iff_forall_sublist]
  constructor
  · intro h a b hab hsame hne
    have ha : a ∈ rules := hab.subset List.mem_cons_self
    exact h a.signature ⟨a, ha, rfl⟩ hne hab rfl hsame.symm
  · rintro h signature _ hne a b hab rfl hb
    exact h hab hb.symm hne

theorem not_mem_betweenRules : f ∉ betweenRules rules ↔ rules.Pairwise fun a b =>
    a.signature = b.signature → a.signature ≠ "" → f ∉ oppositions a.signature a b := by
  rw [← pairwise_bySignature (R := fun signature a b => f ∉ oppositions signature a b), betweenRules,
    List.mem_flatMap]
  simp only [not_exists, not_and, not_mem_everyPair]

theorem groupSortFault?_eq_none_iff : groupSortFault? rules = none ↔ rules.Pairwise fun a b =>
    a.signature = b.signature → a.signature ≠ "" → pairSortFault? a b = none := by
  rw [← pairwise_bySignature (R := fun _ a b => pairSortFault? a b = none), groupSortFault?,
    List.findSome?_eq_none_iff]
  simp only [everyPairFault?_eq_none_iff]

theorem mem_betweenRules_iff : f ∈ betweenRules rules ↔ ∃ i j, ∃ hi : i < rules.length,
    ∃ hj : j < rules.length, i < j ∧ rules[i].signature = rules[j].signature ∧
      rules[i].signature ≠ "" ∧ f ∈ oppositions rules[i].signature rules[i] rules[j] := by
  rw [← Decidable.not_not (p := f ∈ betweenRules rules), not_mem_betweenRules,
    List.pairwise_iff_getElem]
  simp only [Classical.not_forall, Decidable.not_not, exists_prop]

theorem verdicts_oppositions (signature : String) (a b : Rule) :
    (oppositions signature a b).map Finding.verdict =
      (if oppositeOutcomes a b then [(.critical, .listed .successFailureConflict)] else []) ++
        List.replicate (crossed a.shownObjects b.hiddenObjects a.hiddenObjects b.shownObjects).length
          (.critical, .listed .showHideConflict) ++
        List.replicate
          (crossed a.raisedCounters b.loweredCounters a.loweredCounters b.raisedCounters).length
          (.critical, .listed .counterConflict) := by
  rw [oppositions, opposition, List.map_append, List.map_append, verdicts_ite,
    verdicts_map fun _ => Finding.verdict_critical .showHideConflict ..,
    verdicts_map fun _ => Finding.verdict_critical .counterConflict ..]
  rfl

theorem critical_of_oppositions {signature : String} {a b : Rule} (hf : f ∈ oppositions signature a b) :
    f.severity = .critical := by
  have hverdict : f.verdict ∈ (oppositions signature a b).map Finding.verdict :=
    List.mem_map_of_mem hf
  rw [verdicts_oppositions, List.mem_append, List.mem_append] at hverdict
  rcases hverdict with (hverdict | hverdict) | hverdict
  · split at hverdict
    · exact congrArg Prod.fst (List.mem_singleton.mp hverdict)
    · cases hverdict
  · exact congrArg Prod.fst (List.eq_of_mem_replicate hverdict)
  · exact congrArg Prod.fst (List.eq_of_mem_replicate hverdict)

/-! ## Signatures -/

theorem keyOf_ne_empty (r : Rule) (c : Condition) : r.keyOf c ≠ "" := by
  simp [Rule.keyOf, String.append_eq_empty_iff]

theorem signature_eq_empty_iff (r : Rule) : r.signature = "" ↔ r.conditions = [] := by
  have hlength : (sortTexts (r.conditions.map r.keyOf)).length = r.conditions.length := by
    rw [sortTexts, List.length_mergeSort, List.length_map]
  constructor
  · intro h
    rw [Rule.signature, Rule.joinedKeys] at h
    split at h
    · rename_i hnone
      rw [hnone] at hlength
      exact List.length_eq_zero_iff.mp hlength.symm
    · rename_i key hkey
      have hmem : key ∈ sortTexts (r.conditions.map r.keyOf) := by simp [hkey]
      rw [sortTexts, List.mem_mergeSort, List.mem_map] at hmem
      obtain ⟨c, _, rfl⟩ := hmem
      exact absurd h (keyOf_ne_empty r c)
    · simp [String.append_eq_empty_iff] at h
  · intro h
    simp [Rule.signature, Rule.joinedKeys, sortTexts, h]

/-! ## Mended rules -/

section Mended

variable {old new : List Rule} {a b a' b' : Rule}

theorem signature_empty_of_mended (h : mendRule v a' = mendRule v a) :
    a'.signature = "" ↔ a.signature = "" := by
  have hconditions : a'.conditions.map (mendCondition v) = a.conditions.map (mendCondition v) := by
    rw [← conditions_mendRule, ← conditions_mendRule, h]
  rw [signature_eq_empty_iff, signature_eq_empty_iff, ← List.map_eq_nil_iff (f := mendCondition v),
    hconditions, List.map_eq_nil_iff]

theorem oppositions_of_mended (ha : mendRule v a' = mendRule v a) (hb : mendRule v b' = mendRule v b)
    (signature : String) : oppositions signature a' b' = oppositions signature a b := by
  rw [← oppositions_mendRule (v := v), ha, hb, oppositions_mendRule]

/-- A conflict of two rules whose signatures were told apart before. -/
def IsMerged (old new : List Rule) (f : Finding) : Prop :=
  ∃ (i j : Nat) (a b a' b' : Rule), i < j ∧ old[i]? = some a ∧ old[j]? = some b ∧
    new[i]? = some a' ∧ new[j]? = some b' ∧ a.signature ≠ b.signature ∧
      a'.signature = b'.signature ∧ f ∈ oppositions a'.signature a' b'

theorem getElem_of_mended (h : new.map (mendRule v) = old.map (mendRule v)) {i : Nat}
    (hi : i < new.length) :
    ∃ hi' : i < old.length, mendRule v new[i] = mendRule v old[i] := by
  have hlength : new.length = old.length := by
    rw [← List.length_map (mendRule v), h, List.length_map]
  refine ⟨by omega, ?_⟩
  rw [← List.getElem_map (mendRule v) (h := by simpa using hi)]
  simp only [h, List.getElem_map]

/-- A conflict between mended rules was there before, with another signature in its message, or it is
one of rules whose signatures were told apart. -/
theorem merged_of_mem (h : new.map (mendRule v) = old.map (mendRule v)) (hf : f ∈ betweenRules new) :
    (∃ f' ∈ betweenRules old, f'.verdict = f.verdict) ∨ IsMerged old new f := by
  obtain ⟨i, j, hi, hj, hij, hsame, hne, hf⟩ := mem_betweenRules_iff.mp hf
  obtain ⟨hi', hmendi⟩ := getElem_of_mended h hi
  obtain ⟨hj', hmendj⟩ := getElem_of_mended h hj
  by_cases hold : old[i].signature = old[j].signature
  · refine .inl ?_
    have hverdict : f.verdict ∈ (oppositions old[i].signature old[i] old[j]).map Finding.verdict := by
      rw [← oppositions_of_mended hmendi hmendj, verdicts_oppositions,
        ← verdicts_oppositions new[i].signature]
      exact List.mem_map_of_mem hf
    obtain ⟨f', hf', hverdict⟩ := List.mem_map.mp hverdict
    have hne' : old[i].signature ≠ "" := mt (signature_empty_of_mended hmendi).mpr hne
    exact ⟨f', mem_betweenRules_iff.mpr ⟨i, j, hi', hj', hij, hold, hne', hf'⟩, hverdict⟩
  · exact .inr ⟨i, j, old[i], old[j], new[i], new[j], hij, List.getElem?_eq_getElem hi',
      List.getElem?_eq_getElem hj', List.getElem?_eq_getElem hi, List.getElem?_eq_getElem hj, hold,
      hsame, hf⟩

end Mended

end TouchGame.Check
