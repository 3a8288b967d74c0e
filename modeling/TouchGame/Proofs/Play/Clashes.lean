import Mathlib.Data.List.FinRange
import TouchGame.Play.Report
import TouchGame.Proofs.Check.Opposition

/-!
# Clashes of outcomes and their findings

The check between rules collects the rules of each signature and goes through the pairs of each group;
the search for a way through a game goes through all pairs of rules and compares signatures. Both come
to the same pairs of rules that end a game in opposite ways on one trigger, each as often.

* `outcomePairs` : those pairs by the positions of their rules, the earlier rule first.
* `clashPairs_outcomeClashes` : the clashes of a list of rules are its pairs.
* `findingPairs_rulewise` : the findings about them are those of pairs of rules.
* `conflicts_agree` : both sides together.
-/

namespace TouchGame

open Check Play

/-- The ids that a finding about opposite outcomes names, the rule's and the other one. -/
def Finding.outcomePair? (f : Finding) : Option (Option String × Option String) :=
  if f.label = .listed .successFailureConflict then some (f.location.rule, f.location.subject) else none

/-- The ids that a clash of outcomes names. -/
def Play.Clash.outcomePair? : Clash → Option (Option String × Option String)
  | .opposite first second => some (some first, some second)
  | .hidden .. => none

/-- Whether two rules fire on one trigger, one to win and one to lose. -/
def endOpposed (first second : Rule) : Bool :=
  !first.signature.isEmpty && second.signature == first.signature && oppositeOutcomes first second

/-- The ids of the rules at two positions, if the first one is the earlier and they end opposed. -/
def pairAt? (rules : List Rule) (i j : Fin rules.length) : Option (Option String × Option String) :=
  if i < j ∧ endOpposed rules[i] rules[j] then some (some rules[i].id, some rules[j].id) else none

/-- The ids of every two rules that end opposed, the earlier rule first. -/
def outcomePairs (rules : List Rule) : List (Option String × Option String) :=
  (List.finRange rules.length).flatMap fun i => (List.finRange rules.length).filterMap (pairAt? rules i)

/-! ## Clashes -/

theorem outcomePair?_outcomeClash? (first second : Rule) :
    (outcomeClash? first second).bind Clash.outcomePair? =
      if endOpposed first second then some (some first.id, some second.id) else none := by
  unfold outcomeClash? endOpposed
  split <;> rfl

/-- The pairs of a list are those of its first rule, then those of the rest. -/
theorem outcomePairs_cons (r : Rule) (rest : List Rule) :
    outcomePairs (r :: rest) = (rest.filterMap fun s =>
      if endOpposed r s then some (some r.id, some s.id) else none) ++ outcomePairs rest := by
  have hpositions : List.finRange (r :: rest).length =
      0 :: (List.finRange rest.length).map Fin.succ := List.finRange_succ
  have hlater (i : Fin (r :: rest).length) (hi : pairAt? (r :: rest) i 0 = none) :
      (List.finRange (r :: rest).length).filterMap (pairAt? (r :: rest) i) =
        (List.finRange rest.length).filterMap fun j => pairAt? (r :: rest) i j.succ := by
    rw [hpositions, List.filterMap_cons_none hi, List.filterMap_map]
    rfl
  have hfirst : ((List.finRange rest.length).filterMap fun j => pairAt? (r :: rest) 0 j.succ) =
      rest.filterMap fun s => if endOpposed r s then some (some r.id, some s.id) else none := by
    conv_rhs => rw [← List.map_getElem_finRange rest, List.filterMap_map]
    refine List.filterMap_congr fun j _ => ?_
    simp [pairAt?]
  have hrest (i : Fin rest.length) : ((List.finRange rest.length).filterMap fun j =>
      pairAt? (r :: rest) i.succ j.succ) = (List.finRange rest.length).filterMap (pairAt? rest i) := by
    refine List.filterMap_congr fun j _ => ?_
    simp [pairAt?]
  have hexpand : outcomePairs (r :: rest) =
      (0 :: (List.finRange rest.length).map Fin.succ).flatMap fun i =>
        (List.finRange (r :: rest).length).filterMap (pairAt? (r :: rest) i) :=
    congrArg (List.flatMap _) hpositions
  rw [hexpand, List.flatMap_cons, List.flatMap_map, hlater 0 (by simp [pairAt?]), hfirst]
  congr 1
  refine List.flatMap_congr fun i _ => ?_
  rw [hlater i.succ (by simp [pairAt?]), hrest]

theorem clashPairs_outcomeClashes (rules : List Rule) :
    (outcomeClashes rules).filterMap Clash.outcomePair? = outcomePairs rules := by
  induction rules with
  | nil => rfl
  | cons r rest ih =>
    rw [outcomeClashes, List.filterMap_append, ih, outcomePairs_cons, List.filterMap_filterMap]
    simp only [outcomePair?_outcomeClash?]

theorem clashPairs_hidingClashesFrom (shown : List String) (before rules : List Rule) :
    (hidingClashesFrom shown before rules).filterMap Clash.outcomePair? = [] := by
  induction rules generalizing before with
  | nil => rfl
  | cons r behind ih =>
    rw [hidingClashesFrom, List.filterMap_append, ih, List.append_nil, hidingClash,
      List.filterMap_filterMap, List.filterMap_eq_nil_iff]
    intro object _
    split <;> rfl

theorem clashPairs_clashes (g : Game) :
    (clashes g).filterMap Clash.outcomePair? = outcomePairs g.rules := by
  rw [clashes, List.filterMap_append, clashPairs_outcomeClashes, hidingClashes,
    clashPairs_hidingClashesFrom, List.append_nil]

/-! ## Findings -/

theorem outcomePair?_eq : Finding.outcomePair? = Finding.naming? .successFailureConflict := rfl

theorem findingPairs_oppositions (signature : String) (first second : Rule) :
    (oppositions signature first second).filterMap Finding.outcomePair? =
      if oppositeOutcomes first second then [(some first.id, some second.id)] else [] := by
  unfold oppositions opposition
  dsimp only
  rw [outcomePair?_eq, List.filterMap_append, List.filterMap_append,
    naming_others _ (fun _ => rfl) (by decide), naming_others _ (fun _ => rfl) (by decide),
    List.append_nil, List.append_nil]
  split <;> rfl

theorem findingPairs_opposed (first second : Rule) :
    (opposed first second).filterMap Finding.outcomePair? =
      if endOpposed first second then [(some first.id, some second.id)] else [] := by
  unfold opposed endOpposed
  by_cases hsame : first.signature = second.signature ∧ first.signature ≠ ""
  · rw [if_pos hsame, findingPairs_oppositions]
    simp [← hsame.1, hsame.2]
  · rw [if_neg hsame, List.filterMap_nil, if_neg]
    simp only [Bool.and_eq_true, Bool.not_eq_true', String.isEmpty_eq_false_iff, beq_iff_eq]
    rintro ⟨⟨hne, hsecond⟩, _⟩
    exact hsame ⟨hsecond.symm, hne⟩

theorem findingPairs_everyPair (rules : List Rule) :
    (everyPair opposed rules).filterMap Finding.outcomePair? = outcomePairs rules := by
  induction rules with
  | nil => rfl
  | cons r rest ih =>
    rw [everyPair, List.filterMap_append, ih, outcomePairs_cons, List.filterMap_flatMap]
    congr 1
    rw [List.filterMap_eq_flatMap_toList]
    refine List.flatMap_congr fun s _ => ?_
    rw [findingPairs_opposed]
    split <;> rfl

theorem findingPairs_rulewise (g : Game) :
    ((rulewiseFindings g).filterMap Finding.outcomePair?).Perm (outcomePairs g.rules) := by
  rw [← findingPairs_everyPair, outcomePair?_eq]
  exact naming_rulewise (by decide) g

/-! ## Both together -/

theorem explore_clashes {settings : Settings} {g : Game} {report : Report}
    (h : explore settings g = .ok report) : report.clashes = clashes g := by
  simp only [explore, bind_ok_iff, pure_ok_iff] at h
  obtain ⟨_, _, _, _, _, _, rfl⟩ := h
  rfl

/-- **The findings about opposite outcomes and the clashes of outcomes are about the same rules.** Each
pair of ids occurs as often among the findings as among the clashes, namely once for every earlier and
later rule with these ids that win and lose on one trigger. -/
theorem conflicts_agree {settings : Settings} {g : Game} {findings : List Finding} {report : Report}
    (hf : rulewise g = .ok findings) (hr : explore settings g = .ok report) :
    (findings.filterMap Finding.outcomePair?).Perm (report.clashes.filterMap Clash.outcomePair?) ∧
      report.clashes.filterMap Clash.outcomePair? = outcomePairs g.rules := by
  have hclashes : report.clashes.filterMap Clash.outcomePair? = outcomePairs g.rules := by
    rw [explore_clashes hr, clashPairs_clashes]
  obtain ⟨_, hfindings⟩ := rulewise_ok_iff.mp hf
  refine ⟨?_, hclashes⟩
  rw [← hfindings, hclashes]
  exact findingPairs_rulewise g

/-- Three rules on one tap, two of one id, of which the last one wins and loses at once. -/
def tugOfWar : Game where
  layout := [⟨"rope", ⟨.thousandths 500, .thousandths 500⟩, .empty⟩]
  counters := []
  rules := [
    tap "team" [.success none .empty],
    tap "team" [.failure none .empty],
    tap "judge" [.success none .empty, .failure none .empty]]
  objects := [⟨"rope", .empty, .empty, .empty, .empty, .empty⟩]
  sounds := []
  music := .empty
where
  /-- A rule that a tap on the rope fires. -/
  tap (id : String) (actions : List Action) : Rule :=
    ⟨id, .empty, .value "rope", .value ⟨"AND", [.touch .empty (.value "down")]⟩, actions⟩

theorem conflicts_agree_tugOfWar :
    ∃ findings report, rulewise tugOfWar = .ok findings ∧ explore .standard tugOfWar = .ok report ∧
      outcomePairs tugOfWar.rules = [(some "team", some "team"), (some "team", some "judge"),
        (some "team", some "judge")] ∧
      (findings.filterMap Finding.outcomePair?).Perm (report.clashes.filterMap Clash.outcomePair?) ∧
      report.clashes.filterMap Clash.outcomePair? = outcomePairs tugOfWar.rules := by
  have hfindings : rulewise tugOfWar = .ok (rulewiseFindings tugOfWar) :=
    rulewise_ok_iff.mpr ⟨by decide +kernel, rfl⟩
  have hreports : (explore .standard tugOfWar).toOption.isSome := by decide +kernel
  obtain ⟨report, hreport⟩ := Option.isSome_iff_exists.mp hreports
  have hreport := toOption_some_iff.mp hreport
  exact ⟨_, report, hfindings, hreport, by decide +kernel, conflicts_agree hfindings hreport⟩

end TouchGame
