import TouchGame.Proofs.Check.Locations
import TouchGame.Proofs.Play.Gap
import TouchGame.Proofs.Play.Start

/-!
# Counters that win at the start

A rule may win at the start because it waits for one counter, and that is where it should be. The check of
a rule-set looks for such rules by comparing what counters are declared with. The search for a way through
the game looks for the gap of the counter, and makes no move where there is none. On whole numbers both come
to the same, whatever the comparison, as long as the counter has a name.

* `ReportsInstantWin` : the check says of the rule at a place that it wins at the start.
* `reportsInstantWin_iff` : when it says so.
* `reach_idle_iff` : when the search for a rule makes no move.
* `instantWin_iff_idle` : the two agree.
* `nameless_won` : a counter without a name is looked at by neither, and the search takes it for won.
-/

namespace TouchGame

namespace Check

open Mending

variable {g : Game} {w : Rule} {i : Nat} {findings : List Finding}

/-- The findings say of the rule at a place that it wins at the start. -/
def ReportsInstantWin (findings : List Finding) (i : Nat) : Prop :=
  ∃ f ∈ findings, f.label = .listed .instantWin ∧ rulePath i <+: f.location.path

theorem successReachability_unreachable (g : Game) :
    Coded [.unreachableSuccess, .unreachableObjectState] (successReachability g) := by
  refine coded_indexed fun _ r => coded_ite (coded_indexed fun _ c => ?_) coded_nil
  unfold successNeeds
  repeat' split
  all_goals simp

/-- Only the check of a rule's own outcomes says of its place that it wins at the start. -/
theorem mem_instantOutcome_of_reported {f : Finding} (hi : g.rules[i]? = some w)
    (hf : f ∈ rulewiseFindings g) (hlabel : f.label = .listed .instantWin)
    (hpath : rulePath i <+: f.location.path) : f ∈ instantOutcome g i w instantWin := by
  have hplaced : f.location.path ≠ [] := by
    rintro hnone
    rw [hnone] at hpath
    cases List.prefix_nil.mp hpath
  have hother {codes : List Code} {fs : List Finding} (hcoded : Coded codes fs) (hf : f ∈ fs)
      (hnot : Code.instantWin ∉ codes) : False := by
    obtain ⟨c, hc, heq⟩ := hcoded f hf
    rw [hlabel, Label.listed.injEq] at heq
    exact hnot (heq ▸ hc)
  simp only [rulewiseFindings, List.mem_append] at hf
  -- the other checks use other codes, or tell no place
  rcases hf with ((((((hf | hf) | hf) | hf) | hf) | hf) | hf) | hf
  · exact (hother (references_coded g) hf (by decide)).elim
  · exact absurd (outcomesExist_pathless f hf) hplaced
  · obtain ⟨j, r, hj, hf⟩ := getElem?_of_mem_indexed hf
    rw [Nat.zero_add] at hf
    have hpoints := points_append (instantOutcome_points g r j instantWin)
      (instantOutcome_points g r j instantLose)
    obtain ⟨-, rel, hplace, -⟩ := hpoints f hf
    obtain rfl : i = j := by
      obtain ⟨rest, heq⟩ := hpath
      rw [hplace] at heq
      simp only [rulePath, List.cons_append, List.nil_append, List.cons.injEq, Step.index.injEq,
        true_and] at heq
      exact Int.ofNat_inj.mp heq.1
    obtain rfl : w = r := Option.some.inj (hi.symm.trans hj)
    refine (List.mem_append.mp hf).resolve_right fun hf => ?_
    exact hother (instantOutcome_coded g i w instantLose) hf (by decide)
  · exact absurd (automaticOutcomes_pathless f hf) hplaced
  · exact absurd (playerAction_pathless f hf) hplaced
  · exact absurd (conflicts_pathless f hf) hplaced
  · exact (hother (counterUses_coded g) hf (by decide)).elim
  · exact (hother (successReachability_unreachable g) hf (by decide)).elim

/-- **The check says of a rule that it wins at the start exactly if it brings success there.** -/
theorem reportsInstantWin_iff (hi : g.rules[i]? = some w) :
    ReportsInstantWin (rulewiseFindings g) i ↔ bringsAtStart g instantWin w = true := by
  have hverdicts := verdicts_instantOutcome (g := g) i w instantWin
  constructor
  · rintro ⟨f, hf, hlabel, hpath⟩
    have hown := mem_instantOutcome_of_reported hi hf hlabel hpath
    by_contra hnot
    rw [if_neg hnot, List.map_eq_nil_iff] at hverdicts
    rw [hverdicts] at hown
    cases hown
  · intro hbrings
    rw [if_pos hbrings] at hverdicts
    obtain ⟨f, hf, hverdict⟩ := List.mem_map.mp (hverdicts ▸ List.mem_singleton_self _)
    obtain ⟨-, rel, hplace, -⟩ := instantOutcome_points g w i instantWin f hf
    refine ⟨f, ?_, congrArg Prod.snd hverdict, rel, hplace.symm⟩
    have hmem : f ∈ instantOutcomes g :=
      mem_indexed_of_getElem? hi (List.mem_append_left _ (by rwa [Nat.zero_add]))
    simp [rulewiseFindings, hmem]

end Check

namespace Play

open Check

variable {g : Game} {w : Rule} {settings : Settings} {name comparison : Slot String} {counter : String}
  {compare : Comparison} {n v : Int}

theorem walk_of_idle (s : State) (secondsPerTap : Number) :
    ∃ walk, (Trail.start s).walk secondsPerTap = .ok walk ∧ walk.moves = [] := by
  have htapping : ∃ tapping, arithmetic ((Number.int (0 : Nat)).mul secondsPerTap) = .ok tapping := by
    cases secondsPerTap with
    | int n => exact ⟨_, rfl⟩
    | real x =>
      have hreal : (Number.real x).WholeWithin 0 := fun n hn => by cases hn
      have hcount : (0 : Nat) ≤ 2 ^ 0 := Nat.zero_le _
      obtain ⟨tapping, htapping, _⟩ := Number.WholeWithin.times hcount hreal (by decide)
      exact ⟨tapping, by rw [htapping]; rfl⟩
  obtain ⟨tapping, htapping⟩ := htapping
  refine ⟨⟨[], 0, tapping.max State.noTime⟩, ?_, rfl⟩
  rw [Trail.walk]
  change (do let tapping ← arithmetic ((Number.int (0 : Nat)).mul secondsPerTap); _) = _
  rw [htapping]
  rfl

/-- **The search makes no move for a rule that waits for one counter exactly if the counter is where it
should be,** given that what it holds and what it is compared with are whole numbers. -/
theorem reach_idle_iff
    (hconditions : w.conditions = [.counter name comparison (some (.int n))])
    (hname : name.text? = some counter)
    (hcompare : Comparison.ofName? (comparison.textOr Comparison.defaultName) = some compare)
    (hinitial : (State.initial g).counter counter = .int v) :
    (∃ walk, reach settings g w = .ok walk ∧ walk.moves = []) ↔
      compare.holds (.int v) (.int n) = true := by
  have hholds : counterHolds (State.initial g) counter comparison (some (.int n)) =
      compare.holds (.int v) (.int n) := by
    rw [counterHolds, hcompare, hinitial]
    rfl
  rw [reach_single hconditions, ← hholds]
  constructor
  · rintro ⟨walk, hwalk, hidle⟩
    obtain ⟨t, htrail, hwalk⟩ := walkFor_ok hwalk
    -- no move was made, so the search is still where it started, and there the counter is looked at
    have hlatest : t.latest = [] := by
      rw [← List.reverse_eq_nil_iff, ← (walk_moves hwalk).1, hidle]
    obtain ⟨rfl, _⟩ := meetAll_idle Outcome.noConfusion (trailFor_meetAll htrail) (by rw [hlatest]; rfl)
    exact (trailFor_retraced htrail).2 _ _ _ _ (List.mem_singleton_self _) hname
  · intro h
    obtain ⟨distance, hgap, hzero⟩ := gap_zero_of_holds (hholds ▸ h)
    have hgap' : gap compare (thresholdOf (some (.int n))) ((State.initial g).counter counter) =
        .ok distance := by rw [hinitial]; exact hgap
    have htrail : trailFor g w [.counter name comparison (some (.int n))] =
        .ok (.start (.initial g)) := by
      rw [trailFor_counter hname, bringCounter_of_gap_zero hcompare hgap' hzero]
      exact if_pos h
    obtain ⟨walk, hwalk, hmoves⟩ := walk_of_idle (.initial g) settings.secondsPerTap
    refine ⟨walk, ?_, hmoves⟩
    rw [walkFor, htrail]
    change attempt (Trail.walk _ _) = _
    rw [hwalk]
    rfl

theorem counter?_of_nodup {c : Counter} (hdistinct : (g.counters.map (·.id)).Nodup)
    (hc : c ∈ g.counters) : g.counter? c.id = some c := by
  obtain ⟨first, hfirst⟩ : ∃ first, g.counter? c.id = some first :=
    Option.isSome_iff_exists.mp (List.find?_isSome.mpr ⟨c, hc, beq_self_eq_true _⟩)
  have hid : first.id = c.id := by simpa using List.find?_some hfirst
  rw [hfirst, List.inj_on_of_nodup_map hdistinct (List.mem_of_find?_eq_some hfirst) hc hid]

/-- **The check and the search agree on counters that win at the start.** Where the ids of counters are
distinct, a rule that may win waits for one declared counter, and what the counter starts at and is compared
with are whole numbers, the check of the rule-set says that the rule wins at the start exactly if the
search for the rule comes back with no move. -/
theorem instantWin_iff_idle {i : Nat} {c : Counter} {findings : List Finding}
    (hdistinct : (g.counters.map (·.id)).Nodup) (hi : g.rules[i]? = some w)
    (hmay : w.mayFire "success" = true)
    (hconditions : w.conditions = [.counter name comparison (some (.int n))])
    (hcompare : Comparison.ofName? (comparison.textOr Comparison.defaultName) = some compare)
    (hc : c ∈ g.counters) (hname : name.text? = some c.id) (hinitial : c.initialValue = .int v)
    (h : rulewise g = .ok findings) :
    ReportsInstantWin findings i ↔ ∃ walk, reach settings g w = .ok walk ∧ walk.moves = [] := by
  obtain ⟨_, rfl⟩ := rulewise_ok_iff.mp h
  have hstart : (State.initial g).counter c.id = .int v :=
    (initial_counter_of_nodup hdistinct hc).trans hinitial
  have hbrings : bringsAtStart g instantWin w = compare.holds (.int v) (.int n) := by
    have hmayWin : w.mayFire instantWin.type = true := hmay
    simp only [bringsAtStart, hmayWin, hconditions, List.isEmpty_cons, List.any_cons, List.any_nil,
      holdsAtStart?, hname, counter?_of_nodup hdistinct hc, hcompare, hinitial, Option.bind_eq_bind,
      Option.bind_some, Bool.true_and, Bool.false_or, Bool.or_false]
    have hcovers : instantWin.covers compare = true := rfl
    rw [hcovers, Bool.true_and]
    cases compare.holds (.int v) (.int n) <;> rfl
  rw [reportsInstantWin_iff hi, hbrings, reach_idle_iff hconditions hname hcompare hstart]

/-- A rule that wins as soon as an account is in the red. -/
def debtWin (account : String) : Rule :=
  ⟨"win", .empty, .empty, .value ⟨"AND", [.counter (.value account) (.value "less") (some 0)]⟩,
    [.success none .empty]⟩

/-- A game about an account that every tap on a coin lowers. -/
def spending (account : String) (balance : Int) : Game where
  layout := [⟨"coin", ⟨.thousandths 500, .thousandths 500⟩, .empty⟩]
  counters := [⟨account, .empty, .int balance⟩]
  rules := [
    ⟨"pay", .empty, .value "coin", .value ⟨"AND", [.touch .empty (.value "down")]⟩,
      [.counter (.value account) (.value "decrement") none]⟩,
    debtWin account]
  objects := [⟨"coin", .empty, .empty, .empty, .empty, .empty⟩]
  sounds := []
  music := .empty

theorem rulewise_spending {account : String} {balance : Int}
    (h : ∀ r ∈ (spending account balance).rules, ∀ name ∈ r.pulledNames, name.text?.isSome) :
    rulewise (spending account balance) = .ok (rulewiseFindings (spending account balance)) :=
  rulewise_ok_iff.mpr ⟨rulewiseFault?_of_texts h, rfl⟩

/-- An account that is in the red to begin with. -/
theorem instantWin_iff_idle_spending :
    ((spending "cash" (-1)).counters.map (·.id)).Nodup ∧
      ∃ findings, rulewise (spending "cash" (-1)) = .ok findings ∧ ReportsInstantWin findings 1 ∧
        ∃ walk, reach .standard (spending "cash" (-1)) (debtWin "cash") = .ok walk ∧ walk.moves = [] := by
  have hdistinct : ((spending "cash" (-1)).counters.map (·.id)).Nodup := by decide
  have hcompare : Comparison.ofName? ((Slot.value "less").textOr Comparison.defaultName) =
      some .less := by decide
  have hi : (spending "cash" (-1)).rules[1]? = some (debtWin "cash") := rfl
  have hmay : (debtWin "cash").mayFire "success" = true := by decide
  have hfindings : rulewise (spending "cash" (-1)) = .ok (rulewiseFindings (spending "cash" (-1))) :=
    rulewise_spending (by decide)
  have hagree : ReportsInstantWin (rulewiseFindings (spending "cash" (-1))) 1 ↔
      ∃ walk, reach .standard (spending "cash" (-1)) (debtWin "cash") = .ok walk ∧ walk.moves = [] :=
    instantWin_iff_idle hdistinct hi hmay rfl hcompare (List.mem_singleton_self _) rfl rfl hfindings
  have hidle : (reach .standard (spending "cash" (-1)) (debtWin "cash")).toOption.map (·.moves) =
      some [] := by decide +kernel
  obtain ⟨walk, hwalk, hmoves⟩ := Option.map_eq_some_iff.mp hidle
  have hreach : ∃ walk, reach .standard (spending "cash" (-1)) (debtWin "cash") = .ok walk ∧
      walk.moves = [] := ⟨walk, toOption_some_iff.mp hwalk, hmoves⟩
  exact ⟨hdistinct, _, hfindings, hagree.mpr hreach, hreach⟩

/-- An account without a name is not looked at by the search, which then sees nothing to wait for. -/
theorem nameless_won :
    ((spending "" 0).counters.map (·.id)).Nodup ∧ (spending "" 0).rules[1]? = some (debtWin "") ∧
      ∃ findings, rulewise (spending "" 0) = .ok findings ∧ ¬ ReportsInstantWin findings 1 ∧
        ∃ walk, reach .standard (spending "" 0) (debtWin "") = .ok walk ∧ walk.moves = [] := by
  have hidle : (reach .standard (spending "" 0) (debtWin "")).toOption.map (·.moves) = some [] := by
    decide +kernel
  obtain ⟨walk, hwalk, hmoves⟩ := Option.map_eq_some_iff.mp hidle
  refine ⟨by decide, rfl, _, rulewise_spending (by decide), ?_, walk, toOption_some_iff.mp hwalk, hmoves⟩
  rw [reportsInstantWin_iff rfl]
  decide

end Play

end TouchGame
