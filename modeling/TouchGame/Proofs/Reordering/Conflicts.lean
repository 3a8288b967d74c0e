import Mathlib.Data.List.Perm.Basic
import TouchGame.Proofs.Check.Conflicts
import TouchGame.Proofs.Check.Verdicts
import TouchGame.Proofs.Reordering.Basic

/-!
# Conflicts in another order

The check of conflicts goes signature by signature, and in each group pair by pair, the earlier rule
first. Its findings are those of all pairs of rules, where a pair has some only if both rules have one
trigger. The two rules of a pair may change places, since an opposition counts the same from both
sides, and so may the actions of each rule, since it counts what is named and not how often.

* `betweenRules_perm` : the conflicts between rules, pair by pair.
* `everyPair_verdicts`, `everyPair_replaced` : pairs of a list in another order, and with another item.
* `opposed_comm`, `Rule.Reorders.opposed_left` : the verdicts of one pair.
* `signature_congr` : rules with the same keys have one signature.
* `Game.Reorders.conflicts_perm` : the verdicts of all conflicts.
* `Game.Reorders.groupSortFault?_isSome` : whether the names in conflict can be put in order.
-/

namespace TouchGame

namespace Check

section Lists

variable {α β κ : Type}

theorem nodup_eraseDups [BEq α] [LawfulBEq α] : ∀ list : List α, list.eraseDups.Nodup
  | [] => by simp
  | a :: rest => by
    rw [List.eraseDups_cons, List.nodup_cons]
    have hfresh : a ∉ (rest.filter fun b => !b == a).eraseDups := by simp [List.mem_eraseDups]
    exact ⟨hfresh, nodup_eraseDups _⟩
termination_by list => list.length
decreasing_by exact Nat.lt_succ_of_le (List.length_filter_le ..)

theorem length_eraseDups_congr [BEq α] [LawfulBEq α] {list list' : List α}
    (h : ∀ a, a ∈ list ↔ a ∈ list') : list.eraseDups.length = list'.eraseDups.length := by
  refine List.Perm.length_eq ?_
  rw [List.perm_ext_iff_of_nodup (nodup_eraseDups list) (nodup_eraseDups list')]
  intro a
  rw [List.mem_eraseDups, List.mem_eraseDups, h]

theorem flatMap_single {keys : List κ} {see : κ → List β} {k : κ} (hnodup : keys.Nodup) (hk : k ∈ keys)
    (hother : ∀ s ∈ keys, s ≠ k → see s = []) : keys.flatMap see = see k := by
  induction keys with
  | nil => cases hk
  | cons s rest ih =>
    rw [List.nodup_cons] at hnodup
    rw [List.flatMap_cons]
    rcases List.mem_cons.mp hk with rfl | hk
    · have hrest : rest.flatMap see = [] := by
        rw [List.flatMap_eq_nil_iff]
        intro s hs
        refine hother s (List.mem_cons_of_mem _ hs) fun heq => ?_
        exact hnodup.1 (heq ▸ hs)
      rw [hrest, List.append_nil]
    · have hne : s ≠ k := fun heq => hnodup.1 (heq ▸ hk)
      rw [hother s List.mem_cons_self hne, List.nil_append]
      exact ih hnodup.2 hk fun t ht => hother t (List.mem_cons_of_mem s ht)

theorem flatMap_comm_perm (xs : List α) (ys : List κ) (see : α → κ → List β) :
    (xs.flatMap fun x => ys.flatMap (see x)).Perm (ys.flatMap fun y => xs.flatMap (see · y)) := by
  induction xs with
  | nil => simp
  | cons x rest ih =>
    simp only [List.flatMap_cons]
    exact (ih.append_left _).trans (List.flatMap_append_perm ys _ _)

end Lists

/-! ## Pairs of a list -/

section Pairs

variable {α κ : Type} {check check' : α → α → List Finding}

theorem everyPair_congr {list : List α} (h : ∀ a ∈ list, ∀ b ∈ list, check a b = check' a b) :
    everyPair check list = everyPair check' list := by
  induction list with
  | nil => rfl
  | cons a rest ih =>
    have hfirst : rest.flatMap (check a) = rest.flatMap (check' a) :=
      List.flatMap_congr fun b hb => h a List.mem_cons_self b (List.mem_cons_of_mem a hb)
    rw [everyPair, everyPair, hfirst,
      ih fun b hb c hc => h b (List.mem_cons_of_mem a hb) c (List.mem_cons_of_mem a hc)]

theorem everyPair_filter (p : α → Bool) (list : List α) : everyPair check (list.filter p) =
    everyPair (fun a b => if p a && p b then check a b else []) list := by
  induction list with
  | nil => rfl
  | cons a rest ih =>
    rw [List.filter_cons, everyPair]
    cases hp : p a with
    | false => simp [ih]
    | true =>
      rw [if_pos rfl, everyPair, ih, flatMap_filter]
      rfl

theorem everyPair_flatMap (keys : List κ) (check : κ → α → α → List Finding) (list : List α) :
    (keys.flatMap fun k => everyPair (check k) list).Perm
      (everyPair (fun a b => keys.flatMap fun k => check k a b) list) := by
  induction list with
  | nil => simp [everyPair]
  | cons a rest ih =>
    simp only [everyPair]
    refine (List.flatMap_append_perm keys _ _).symm.trans ?_
    exact (flatMap_comm_perm keys rest fun k b => check k a b).append ih

theorem everyPair_verdicts {list list' : List α}
    (hsymm : ∀ a b, (check a b).map Finding.verdict = (check b a).map Finding.verdict)
    (h : list'.Perm list) : ((everyPair check list').map Finding.verdict).Perm
      ((everyPair check list).map Finding.verdict) := by
  induction h with
  | nil => exact .refl _
  | cons a hrest ih =>
    simp only [everyPair, List.map_append, List.map_flatMap]
    exact (hrest.flatMap_right _).append ih
  | swap a b rest =>
    simp only [everyPair, List.flatMap_cons, List.map_append, List.append_assoc, hsymm b a]
    refine List.Perm.append_left _ ?_
    rw [← List.append_assoc, ← List.append_assoc]
    exact List.perm_append_comm.append_right _
  | trans _ _ ih ih' => exact ih.trans ih'

theorem everyPair_replaced {a a' : α} (before after : List α)
    (hleft : ∀ b, (check a' b).map Finding.verdict = (check a b).map Finding.verdict)
    (hright : ∀ b, (check b a').map Finding.verdict = (check b a).map Finding.verdict) :
    (everyPair check (before ++ a' :: after)).map Finding.verdict =
      (everyPair check (before ++ a :: after)).map Finding.verdict := by
  induction before with
  | nil => simp only [List.nil_append, everyPair, List.map_append, List.map_flatMap, hleft]
  | cons first rest ih =>
    simp only [List.cons_append, everyPair, List.map_append, List.flatMap_append, List.flatMap_cons,
      hright, ih]

end Pairs

/-! ## Pairs of rules -/

def opposed (a b : Rule) : List Finding :=
  if a.signature = b.signature ∧ a.signature ≠ "" then oppositions a.signature a b else []

/-- Of all signatures, only the one of both rules of a pair looks at them. -/
theorem flatMap_signatures {rules : List Rule} {a : Rule} (ha : a ∈ rules) (b : Rule) :
    ((signatures rules).flatMap fun signature =>
      if hasSignature signature a && hasSignature signature b then oppositions signature a b
      else []) = opposed a b := by
  rw [opposed]
  split
  · rename_i h
    obtain ⟨hsame, hne⟩ := h
    have hmem : a.signature ∈ signatures rules := mem_signatures.mpr ⟨⟨a, ha, rfl⟩, hne⟩
    have hnodup : (signatures rules).Nodup := nodup_eraseDups _
    rw [flatMap_single hnodup hmem]
    · simp [hasSignature, ← hsame, hne]
    · intro signature _ hother
      simp [hasSignature, hother.symm]
  · rename_i h
    rw [List.flatMap_eq_nil_iff]
    intro signature _
    rw [if_neg]
    simp only [hasSignature, Bool.and_eq_true, beq_iff_eq, Bool.not_eq_true',
      String.isEmpty_eq_false_iff]
    rintro ⟨⟨ha, hne⟩, hb, _⟩
    exact h ⟨ha.trans hb.symm, hne⟩

theorem betweenRules_perm (rules : List Rule) :
    (betweenRules rules).Perm (everyPair opposed rules) := by
  have hgroups : betweenRules rules = (signatures rules).flatMap fun signature => everyPair (fun a b =>
      if hasSignature signature a && hasSignature signature b then oppositions signature a b
      else []) rules := by
    rw [betweenRules, bySignature_eq, List.flatMap_map]
    exact List.flatMap_congr fun signature _ => everyPair_filter ..
  rw [hgroups, ← everyPair_congr fun a ha b _ => flatMap_signatures ha b]
  exact everyPair_flatMap (signatures rules) _ rules

theorem mem_crossing {a b c d : List Name} {n : Name} :
    n ∈ crossing a b c d ↔ n ∈ a ∧ n ∈ b ∨ n ∈ c ∧ n ∈ d := by
  simp only [crossing, common, List.mem_append, List.mem_filter, List.contains_iff_mem]

theorem mem_crossing_comm {a b c d : List Name} {n : Name} :
    n ∈ crossing a b c d ↔ n ∈ crossing d c b a := by
  rw [mem_crossing, mem_crossing, or_comm, and_comm (a := n ∈ c), and_comm (a := n ∈ a)]

theorem length_crossed_congr {a b c d a' b' c' d' : List Name}
    (h : ∀ {n}, n ∈ crossing a b c d ↔ n ∈ crossing a' b' c' d') :
    (crossed a b c d).length = (crossed a' b' c' d').length := by
  rw [crossed, crossed, sortedNames, sortedNames, List.length_mergeSort, List.length_mergeSort]
  exact length_eraseDups_congr fun n => h

theorem verdicts_opposed (a b : Rule) : (opposed a b).map Finding.verdict =
    if a.signature = b.signature ∧ a.signature ≠ "" then (oppositions "" a b).map Finding.verdict
    else [] := by
  rw [opposed, verdicts_ite, verdicts_oppositions, verdicts_oppositions]
  rfl

theorem opposed_comm (a b : Rule) :
    (opposed a b).map Finding.verdict = (opposed b a).map Finding.verdict := by
  have hopposite : oppositeOutcomes a b = oppositeOutcomes b a := by
    rw [oppositeOutcomes, oppositeOutcomes, Bool.or_comm, Bool.and_comm (b.fires "success"),
      Bool.and_comm (b.fires "failure")]
  have hobjects : (crossed a.shownObjects b.hiddenObjects a.hiddenObjects b.shownObjects).length =
      (crossed b.shownObjects a.hiddenObjects b.hiddenObjects a.shownObjects).length :=
    length_crossed_congr mem_crossing_comm
  have hcounters :
      (crossed a.raisedCounters b.loweredCounters a.loweredCounters b.raisedCounters).length =
        (crossed b.raisedCounters a.loweredCounters b.loweredCounters a.raisedCounters).length :=
    length_crossed_congr mem_crossing_comm
  rw [verdicts_opposed, verdicts_opposed, verdicts_oppositions, verdicts_oppositions, hopposite,
    hobjects, hcounters]
  by_cases hsame : a.signature = b.signature
  · rw [hsame]
  · rw [if_neg fun h => hsame h.1, if_neg fun h => hsame h.1.symm]

end Check

/-! ## Reordered rules -/

theorem sortTexts_perm {texts texts' : List String} (h : texts'.Perm texts) :
    sortTexts texts' = sortTexts texts := by
  have hsorted (list : List String) : (sortTexts list).Pairwise fun a b => decide (a ≤ b) = true := by
    refine List.pairwise_mergeSort ?_ ?_ list
    · intro a b c hab hbc
      rw [decide_eq_true_eq] at *
      exact String.le_trans hab hbc
    · intro a b
      simpa using String.le_total a b
  refine List.Perm.eq_of_pairwise ?_ (hsorted texts') (hsorted texts) ?_
  · intro a b _ _ hab hba
    rw [decide_eq_true_eq] at hab hba
    exact String.le_antisymm hab hba
  · exact (List.mergeSort_perm _ _).trans (h.trans (List.mergeSort_perm _ _).symm)

section Signatures

variable {r r' : Rule}

theorem keyOf_congr (h : r'.targetObject = r.targetObject) : r'.keyOf = r.keyOf := by
  funext c
  rw [Rule.keyOf, Rule.keyOf]
  cases c <;> simp only [Rule.keyFields, Rule.resolve_congr h]

theorem signature_congr (hoperator : r'.operator = r.operator)
    (hkeys : (r'.conditions.map r'.keyOf).Perm (r.conditions.map r.keyOf)) :
    r'.signature = r.signature := by
  rw [Rule.signature, Rule.signature, Rule.joinedKeys, Rule.joinedKeys, sortTexts_perm hkeys,
    hoperator]

end Signatures

namespace Rule.Reorders

open Check

variable {r r' : Rule}

theorem signature_eq (h : r.Reorders r') : r'.signature = r.signature := by
  refine signature_congr h.operator_eq ?_
  rw [keyOf_congr h.targetObject_eq]
  exact h.conditions_perm.map r.keyOf

theorem shownObjects_perm (h : r.Reorders r') : r'.shownObjects.Perm r.shownObjects := by
  rw [shownObjects, shownObjects, h.resolve_eq]
  exact h.actions_filterMap fun _ _ _ _ => rfl

theorem hiddenObjects_perm (h : r.Reorders r') : r'.hiddenObjects.Perm r.hiddenObjects := by
  rw [hiddenObjects, hiddenObjects, h.resolve_eq]
  exact h.actions_filterMap fun _ _ _ _ => rfl

theorem raisedCounters_perm (h : r.Reorders r') : r'.raisedCounters.Perm r.raisedCounters :=
  h.actions_filterMap fun _ _ _ _ => rfl

theorem loweredCounters_perm (h : r.Reorders r') : r'.loweredCounters.Perm r.loweredCounters :=
  h.actions_filterMap fun _ _ _ _ => rfl

theorem mem_common_iff (h : r.Reorders r') {n : Name} :
    n ∈ common r'.shownObjects r'.hiddenObjects ↔ n ∈ common r.shownObjects r.hiddenObjects := by
  simp only [common, List.mem_filter, List.contains_iff_mem, h.shownObjects_perm.mem_iff,
    h.hiddenObjects_perm.mem_iff]

theorem mem_objects_iff (h : r.Reorders r') (b : Rule) {n : Name} :
    n ∈ crossing r'.shownObjects b.hiddenObjects r'.hiddenObjects b.shownObjects ↔
      n ∈ crossing r.shownObjects b.hiddenObjects r.hiddenObjects b.shownObjects := by
  rw [mem_crossing, mem_crossing, h.shownObjects_perm.mem_iff, h.hiddenObjects_perm.mem_iff]

theorem mem_counters_iff (h : r.Reorders r') (b : Rule) {n : Name} :
    n ∈ crossing r'.raisedCounters b.loweredCounters r'.loweredCounters b.raisedCounters ↔
      n ∈ crossing r.raisedCounters b.loweredCounters r.loweredCounters b.raisedCounters := by
  rw [mem_crossing, mem_crossing, h.raisedCounters_perm.mem_iff, h.loweredCounters_perm.mem_iff]

theorem ownConflicts_verdicts (h : r.Reorders r') :
    (ownConflicts r').map Finding.verdict = (ownConflicts r).map Finding.verdict := by
  have hnames : (sortedNames (common r'.shownObjects r'.hiddenObjects)).length =
      (sortedNames (common r.shownObjects r.hiddenObjects)).length := by
    rw [sortedNames, sortedNames, List.length_mergeSort, List.length_mergeSort]
    exact length_eraseDups_congr fun n => h.mem_common_iff
  rw [ownConflicts, ownConflicts, ownOutcomes, ownOutcomes, ownVisibility, ownVisibility, h.fires_eq,
    h.fires_eq, List.map_append, List.map_append, verdicts_ite, verdicts_ite,
    verdicts_map fun _ => Finding.verdict_critical .sameRuleShowHide ..,
    verdicts_map fun _ => Finding.verdict_critical .sameRuleShowHide .., hnames]
  rfl

theorem opposed_left (h : r.Reorders r') (b : Rule) :
    (opposed r' b).map Finding.verdict = (opposed r b).map Finding.verdict := by
  have hobjects : (crossed r'.shownObjects b.hiddenObjects r'.hiddenObjects b.shownObjects).length =
      (crossed r.shownObjects b.hiddenObjects r.hiddenObjects b.shownObjects).length :=
    length_crossed_congr (h.mem_objects_iff b)
  have hcounters :
      (crossed r'.raisedCounters b.loweredCounters r'.loweredCounters b.raisedCounters).length =
        (crossed r.raisedCounters b.loweredCounters r.loweredCounters b.raisedCounters).length :=
    length_crossed_congr (h.mem_counters_iff b)
  have hopposite : oppositeOutcomes r' b = oppositeOutcomes r b := by
    rw [oppositeOutcomes, oppositeOutcomes, h.fires_eq, h.fires_eq]
  rw [verdicts_opposed, verdicts_opposed, verdicts_oppositions, verdicts_oppositions, h.signature_eq,
    hopposite, hobjects, hcounters]

end Rule.Reorders

theorem Game.Reorders.conflicts_perm {g g' : Game} (h : g.Reorders g') :
    ((Check.conflicts g').map Finding.verdict).Perm ((Check.conflicts g).map Finding.verdict) := by
  have hown : ((g'.rules.flatMap Check.ownConflicts).map Finding.verdict).Perm
      ((g.rules.flatMap Check.ownConflicts).map Finding.verdict) := by
    rw [List.map_flatMap, List.map_flatMap]
    exact h.rules_flatMap fun hr => by rw [hr.ownConflicts_verdicts]
  have hpairs : ((Check.everyPair Check.opposed g'.rules).map Finding.verdict).Perm
      ((Check.everyPair Check.opposed g.rules).map Finding.verdict) := by
    cases h with
    | rules h => exact Check.everyPair_verdicts Check.opposed_comm h
    | @inside before after r r' hrules hr =>
      have hright (b : Rule) : (Check.opposed b r').map Finding.verdict =
          (Check.opposed b r).map Finding.verdict := by
        rw [Check.opposed_comm b r', hr.opposed_left, Check.opposed_comm]
      rw [hrules, Check.everyPair_replaced before after hr.opposed_left hright]
  have hbetween : ((Check.betweenRules g'.rules).map Finding.verdict).Perm
      ((Check.betweenRules g.rules).map Finding.verdict) :=
    ((Check.betweenRules_perm g'.rules).map _).trans
      (hpairs.trans ((Check.betweenRules_perm g.rules).map _).symm)
  rw [Check.conflicts_eq, Check.conflicts_eq, List.map_append, List.map_append]
  exact hown.append hbetween

/-! ## Sorts of names -/

namespace Check

theorem isSome_sortFault? (names : List Name) : (sortFault? names).isSome =
    (names.any (·.number?.isSome) && names.any (·.text?.isSome)) := by
  rw [sortFault?, ← List.isSome_findSome?, ← List.isSome_findSome?]
  cases names.findSome? (·.number?) <;> cases names.findSome? (·.text?) <;> rfl

theorem sortFault?_congr {names names' : List Name} (h : ∀ {n}, n ∈ names' ↔ n ∈ names) :
    (sortFault? names').isSome = (sortFault? names).isSome := by
  have hany (p : Name → Bool) : names'.any p = names.any p := by
    rw [Bool.eq_iff_iff, List.any_eq_true, List.any_eq_true]
    simp only [h]
  rw [isSome_sortFault?, isSome_sortFault?, hany, hany]

/-- Whether the names that two rules pull in opposite directions can be put in order, if the rules have
one trigger. -/
def Sorts (a b : Rule) : Prop :=
  a.signature = b.signature → a.signature ≠ "" → (pairSortFault? a b).isSome = false

theorem sorts_comm {a b : Rule} (h : Sorts a b) : Sorts b a := by
  intro hsame hne
  rw [← h hsame.symm (hsame ▸ hne), pairSortFault?, pairSortFault?, Option.isSome_or, Option.isSome_or]
  exact congrArg₂ or (sortFault?_congr mem_crossing_comm) (sortFault?_congr mem_crossing_comm)

theorem groupSortFault?_isSome (rules : List Rule) :
    (groupSortFault? rules).isSome = false ↔ rules.Pairwise Sorts := by
  rw [Option.isSome_eq_false_iff, Option.isNone_iff_eq_none, groupSortFault?_eq_none_iff]
  refine List.Pairwise.iff fun {a b} => ?_
  rw [Sorts, Option.isSome_eq_false_iff, Option.isNone_iff_eq_none]

end Check

namespace Rule.Reorders

open Check

variable {r r' : Rule}

theorem ownSortFault?_isSome (h : r.Reorders r') :
    (ownSortFault? r').isSome = (ownSortFault? r).isSome :=
  sortFault?_congr h.mem_common_iff

theorem sorts_left (h : r.Reorders r') (b : Rule) : Sorts r' b ↔ Sorts r b := by
  have hpair : (pairSortFault? r' b).isSome = (pairSortFault? r b).isSome := by
    rw [pairSortFault?, pairSortFault?, Option.isSome_or, Option.isSome_or,
      sortFault?_congr (h.mem_objects_iff b), sortFault?_congr (h.mem_counters_iff b)]
  rw [Sorts, Sorts, h.signature_eq, hpair]

end Rule.Reorders

theorem Game.Reorders.groupSortFault?_isSome {g g' : Game} (h : g.Reorders g') :
    (Check.groupSortFault? g'.rules).isSome = (Check.groupSortFault? g.rules).isSome := by
  have hpairs : g'.rules.Pairwise Check.Sorts ↔ g.rules.Pairwise Check.Sorts := by
    cases h with
    | rules h => exact h.pairwise_iff Check.sorts_comm
    | @inside before after r r' hrules hr =>
      have hright (b : Rule) : Check.Sorts b r' ↔ Check.Sorts b r :=
        ⟨fun hb => Check.sorts_comm ((hr.sorts_left b).mp (Check.sorts_comm hb)),
          fun hb => Check.sorts_comm ((hr.sorts_left b).mpr (Check.sorts_comm hb))⟩
      simp only [hrules, List.pairwise_append, List.pairwise_cons, List.mem_cons, forall_eq_or_imp,
        hr.sorts_left, hright]
  rw [← Check.groupSortFault?_isSome, ← Check.groupSortFault?_isSome] at hpairs
  rw [Bool.eq_iff_iff, ← not_iff_not, Bool.not_eq_true, Bool.not_eq_true, hpairs]

end TouchGame
