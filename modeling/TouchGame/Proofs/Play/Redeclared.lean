import TouchGame.Proofs.Play.Start

/-!
# Counters that are declared again

Nothing keeps a rule-set from declaring a counter more than once. The checks of the start look a
counter up among the declarations and find the first one; the state of a play is filled from all of
them, so the last one stays. The two start from one value exactly if these two declarations agree.

* `FirstDeclared`, `LastDeclared` : a declaration of an id with no other one before it, or behind it.
* `StartsAlike` : the checks of the start and a play start a counter from equal numbers.
* `startsAlike_iff` : which declaration each of them takes, and when they start alike.
* `judged_alike` : conditions on a counter that starts alike hold for both or for neither.
-/

namespace TouchGame.Play

open Check

variable {g : Game} {id : String} {c : Counter}

/-! ## Declarations -/

/-- A counter with an id, and no other one with that id before it. -/
def FirstDeclared (g : Game) (id : String) (c : Counter) : Prop :=
  ∃ before after, g.counters = before ++ c :: after ∧ c.id = id ∧ ∀ d ∈ before, d.id ≠ id

/-- A counter with an id, and no other one with that id behind it. -/
def LastDeclared (g : Game) (id : String) (c : Counter) : Prop :=
  ∃ before after, g.counters = before ++ c :: after ∧ c.id = id ∧ ∀ d ∈ after, d.id ≠ id

theorem counter?_eq_some_iff : g.counter? id = some c ↔ FirstDeclared g id c := by
  rw [Game.counter?, List.find?_eq_some_iff_append, FirstDeclared]
  constructor
  · rintro ⟨hid, before, after, heq, hbefore⟩
    exact ⟨before, after, heq, by simpa using hid, fun d hd => by simpa using hbefore d hd⟩
  · rintro ⟨before, after, heq, hid, hbefore⟩
    exact ⟨by simpa using hid, before, after, heq, fun d hd => by simpa using hbefore d hd⟩

theorem lastCounter?_eq_some_iff : lastCounter? g id = some c ↔ LastDeclared g id c := by
  rw [lastCounter?, List.find?_eq_some_iff_append, LastDeclared]
  constructor
  · rintro ⟨hid, behind, before, heq, hbehind⟩
    refine ⟨before.reverse, behind.reverse, ?_, by simpa using hid, fun d hd => ?_⟩
    · rw [← List.reverse_reverse g.counters, heq]
      simp
    · simpa using hbehind d (List.mem_reverse.mp hd)
  · rintro ⟨before, after, heq, hid, hafter⟩
    refine ⟨by simpa using hid, after.reverse, before.reverse, ?_, fun d hd => ?_⟩
    · rw [heq]
      simp
    · simpa using hafter d (List.mem_reverse.mp hd)

/-! ## The start -/

/-- The checks of the start and a play take equal numbers for what a counter holds at the start, or
take no number at all. -/
def StartsAlike (g : Game) (id : String) : Prop :=
  ∃ c, g.counter? id = some c ∧ ((State.initial g).counter id).extent? = c.initialValue.extent?

/-- **The checks of the start take the first declaration of a counter, and a play takes the last one.**
They start the counter alike exactly if the initial values of these two are equal numbers. -/
theorem startsAlike_iff (h : id ∈ g.counterIds) : ∃ first last,
    FirstDeclared g id first ∧ LastDeclared g id last ∧ g.counter? id = some first ∧
      (State.initial g).counter id = last.initialValue ∧
      (StartsAlike g id ↔ first.initialValue.extent? = last.initialValue.extent?) := by
  obtain ⟨c, hc, rfl⟩ := List.mem_map.mp h
  obtain ⟨first, hfirst⟩ : ∃ first, g.counter? c.id = some first :=
    Option.isSome_iff_exists.mp (List.find?_isSome.mpr ⟨c, hc, beq_self_eq_true _⟩)
  obtain ⟨last, hlast, hinitial⟩ := lastCounter?_of_counter? hfirst
  refine ⟨first, last, counter?_eq_some_iff.mp hfirst, lastCounter?_eq_some_iff.mp hlast, hfirst,
    hinitial, ?_⟩
  rw [StartsAlike, hinitial, hfirst]
  constructor
  · rintro ⟨_, ⟨rfl⟩, heq⟩
    exact heq.symm
  · exact fun heq => ⟨first, rfl, heq.symm⟩

theorem holds_congr {a b : Number} (h : a.extent? = b.extent?) (compare : Comparison)
    (threshold : Number) : compare.holds a threshold = compare.holds b threshold := by
  cases compare <;> simp only [Comparison.holds, Number.eq, Number.le, Number.lt, h]

/-- A condition on a counter that starts alike brings a win at the start, as the check sees it, exactly
if it holds in the state that a play starts from. -/
theorem judged_alike (h : StartsAlike g id) {name : Slot String} (hname : name.text? = some id)
    (comparison : Slot String) (threshold : Number) :
    (holdsAtStart? g instantWin.covers (.counter name comparison (some threshold))).isSome =
      counterHolds (State.initial g) id comparison (some threshold) := by
  obtain ⟨c, hc, hinitial⟩ := h
  rw [counterHolds, thresholdOf, Option.getD_some]
  cases hcompare : Comparison.ofName? (comparison.textOr Comparison.defaultName) with
  | none => simp [holdsAtStart?, hname, hcompare]
  | some compare =>
    simp only [holds_congr hinitial]
    cases hholds : compare.holds c.initialValue threshold with
    | true => simp [holdsAtStart?, hname, hc, hcompare, hholds, instantWin]
    | false => simp [holdsAtStart?, hname, hc, hcompare, hholds, instantWin]

theorem startsAlike_iff_doubleScore :
    "score" ∈ doubleScore.counterIds ∧ ∃ first last,
      FirstDeclared doubleScore "score" first ∧ LastDeclared doubleScore "score" last ∧
        doubleScore.counter? "score" = some first ∧
        (State.initial doubleScore).counter "score" = last.initialValue ∧
        (StartsAlike doubleScore "score" ↔
          first.initialValue.extent? = last.initialValue.extent?) := by
  have hdeclared : "score" ∈ doubleScore.counterIds := by decide
  exact ⟨hdeclared, startsAlike_iff hdeclared⟩

/-- A score that is declared as zero and again as five is zero for the checks of the start, and five
where a play starts. -/
theorem doubleScore_starts_apart :
    load doubleScore.toJson = .ok doubleScore ∧
      ¬ ∀ id ∈ doubleScore.counterIds, StartsAlike doubleScore id := by
  refine ⟨rfl, fun h => ?_⟩
  obtain ⟨c, hc, hinitial⟩ := h "score" (by decide)
  have hfirst : doubleScore.counter? "score" = some ⟨"score", .empty, 0⟩ := by decide
  rw [hfirst, Option.some.injEq] at hc
  subst hc
  revert hinitial
  decide +kernel

end TouchGame.Play
