import TouchGame.Proofs.Repair.Atomic

/-!
# Fixes applied twice

A fix leaves a number that its code asks no more of: a correction leads into the numbers that it does not
change, and a filling leaves no gap. The path of the finding finds that number, and still leads to the
rule that the finding names, so a second application of the finding changes nothing and has no record.

* `correction?_settles` : a corrected number stays what it is.
* `autoFix_again` : a finding whose fix has been made asks for no other.
* `fixEach_twice` : two applications of a finding are one of them.
-/

namespace TouchGame.Repair

open Mending

variable {g next : Game} {f : Finding} {a : Amendment} {c : Code} {n : Number}

/-- A corrected number stays what it is, unless it is a NaN. -/
theorem correction?_settles {description : String} {correct : Number → Number}
    (h : correction? c = some (description, correct)) (hn : n ≠ .real .nan) :
    (correct (correct n)).eq (correct n) = true := by
  have hclamp {low high : Number} (bounds : low.lt high = true) :
      ((n.clamp low high).clamp low high).eq (n.clamp low high) = true :=
    Number.clamp_eq_of_within bounds (Number.within_clamp n bounds)
  have hspeed := Number.abs_clamp_eq_of_within slowest_pos slowest_lt_fastest
    (Number.within_clamp n.abs slowest_lt_fastest)
  unfold correction? at h
  split at h <;> cases h
  · exact hclamp zero_lt_one
  · exact hspeed
  · exact hspeed
  · exact hclamp zero_lt_longestTime
  · exact hclamp (by decide +kernel)
  · exact hclamp zero_lt_one
  · exact hclamp zero_lt_one
  · exact Number.abs_abs_eq hn
  · exact hclamp (by decide +kernel)
  · exact hclamp (by decide +kernel)
  · exact hclamp (by decide +kernel)
  · exact hclamp (by decide +kernel)
  · exact Number.max_max_eq (by decide +kernel) n
  · -- A scale is set to one, or was above zero and has been left alone.
    dsimp only
    split
    · decide +kernel
    · exact Number.eq_self hn
  · exact Number.min_min_eq (by decide +kernel) n

/-- A code asks for nothing where a number stands that it would not correct. -/
theorem change?_of_settled {p : Place Game} (hp : p.value? = some (.num n))
    (h : ∀ description correct, correction? c = some (description, correct) →
      (correct n).eq n = true) : change? c p = .ok none := by
  unfold change?
  split
  · cases p with
    | vacant | other => cases hp
    | number => rfl
    | fixed current =>
      cases current with
      | none => cases hp
      | some => rfl
  · rename_i description correct _ hcorrects
    have hsettled := h description correct hcorrects
    cases p with
    | vacant | other => cases hp
    | number =>
      cases hp
      simp only [correct?, hsettled, if_true]
    | fixed current =>
      cases current with
      | none => cases hp
      | some =>
        cases hp
        simp only [correct?, hsettled, if_true]
  · rfl

theorem settled_of_change {p : Place Game} {change : Change}
    (h : change? c p = .ok (some change)) (hn : change.before ≠ .num (.real .nan))
    {description : String} {correct : Number → Number}
    (hc : correction? c = some (description, correct)) :
    (correct change.after).eq change.after = true := by
  rcases change?_cases h with ⟨_, _, _, hfills, _, _⟩ | ⟨_, _, n, _, hcorrects, _, _, rfl⟩
  · rw [filling?_of_correction? hc] at hfills
    cases hfills
  · rw [hc] at hcorrects
    cases hcorrects
    exact correction?_settles hc fun hnan => hn (congrArg Json.num hnan)

theorem leadsToRule_congr (h : next.rules.map (·.id) = g.rules.map (·.id)) (l : Location) :
    leadsToRule next l = leadsToRule g l := by
  have hlength : next.rules.length = g.rules.length := by
    simpa using congrArg List.length h
  have hrule (k : Nat) (id : String) :
      (next.rules[k]?).any (·.id == id) = (g.rules[k]?).any (·.id == id) := by
    have hk := congrArg (fun ids => (ids[k]?).any (· == id)) h
    simpa only [List.getElem?_map, Option.any_map] using hk
  unfold leadsToRule
  simp only [hlength, hrule]

theorem autoFix_again (h : autoFix g f = .ok (some (next, a)))
    (hn : a.before ≠ .num (.real .nan)) : autoFix next f = .ok none := by
  obtain ⟨c, place, change, hlabel, hleads, _, hchange, _, rfl⟩ := autoFix_change h
  have hamends := autoFix_amends h
  obtain ⟨p, hp, hvalue⟩ := Part.place?_of_value? hamends.after
  rw [← leadsToRule_congr hamends.ids] at hleads
  rw [autoFix_of_place hlabel hleads hp,
    change?_of_settled hvalue fun _ _ => settled_of_change hchange hn]
  rfl

/-- **Fixes are idempotent.** Unless its path leads to a NaN or through a reserved name, a finding that is
applied twice leaves what one application leaves, and the second has no record. There is a result exactly
if the finding does not stumble. -/
theorem fixEach_twice (g : Game) (f : Finding) (_hplain : f.location.path.isPlain)
    (h : g.part.value? f.location.path ≠ some (.num (.real .nan))) :
    fixEach g [f, f] =
        (fixEach g [f]).map (fun (last, records) => (last, records ++ [none])) ∧
      ∀ fault, fixEach g [f, f] = .error fault ↔ Stumbles g f fault := by
  have htwice : fixEach g [f, f] =
      (fixEach g [f]).map fun (last, records) => (last, records ++ [none]) := by
    rw [fixEach, fixEach_singleton]
    cases hfix : autoFix g f with
    | error fault => rfl
    | ok fix =>
      cases fix with
      | none =>
        simp only [bind, Except.bind, Option.map_none, Option.getD_none, fixEach_singleton, hfix]
        rfl
      | some made =>
        obtain ⟨next, a⟩ := made
        have hagain : autoFix next f = .ok none := by
          refine autoFix_again hfix fun hnan => h ?_
          rw [(autoFix_amends hfix).before, hnan]
        simp only [bind, Except.bind, Option.map_some, Option.getD_some, fixEach_singleton, hagain]
        rfl
  refine ⟨htwice, fun fault => ?_⟩
  rw [htwice, map_error_iff, fixEach_singleton, map_error_iff, autoFix_fails_iff]

theorem fixEach_twice_farStar : ∃ last a, a.before = .num 2 ∧
    fixEach unruly [farStar] = .ok (last, [some a]) ∧
      fixEach unruly [farStar, farStar] = .ok (last, [some a, none]) := by
  have hvalue : unruly.part.value? farStar.location.path = some (.num 2) := rfl
  have hnumber : unruly.part.value? farStar.location.path ≠ some (.num (.real .nan)) := by
    rw [hvalue]
    exact fun h => by cases h
  have hmakes : ((autoFix unruly farStar).toOption.bind id).isSome = true := by
    decide +kernel
  obtain ⟨⟨last, a⟩, hmade⟩ := Option.isSome_iff_exists.mp hmakes
  obtain ⟨_, hfix, rfl⟩ := Option.bind_eq_some_iff.mp hmade
  rw [toOption_some_iff] at hfix
  have honce : fixEach unruly [farStar] = .ok (last, [some a]) := by
    rw [fixEach_singleton, hfix]
    rfl
  refine ⟨last, a, ?_, honce, ?_⟩
  · exact Option.some.inj ((autoFix_amends hfix).before.symm.trans hvalue)
  · rw [(fixEach_twice unruly farStar (by decide +kernel) hnumber).1, honce]
    rfl

/-- A finding about the points of a rule that is no longer there, counted from the end of the rules. -/
def lostPoints : Finding where
  severity := .warning
  label := .listed .negativePoints
  message := "The points are below zero"
  fix := none
  location := ⟨[.name "script", .name "rules", .index (-2), .name "actions", .index 0, .name "points"],
    some "gone", none⟩

/-- No application of a finding about a rule that has gone gives a result, if its index counts from the
end. -/
theorem lostPoints_stumbles :
    ¬ ∃ last records, fixEach unruly [lostPoints, lostPoints] = .ok (last, records) := by
  rintro ⟨last, records, h⟩
  have hstumbles : Stumbles unruly lostPoints .indexOutOfRange := .beforeRules rfl rfl (by decide)
  rw [fixEach, autoFix_fails_iff.mpr hstumbles] at h
  cases h

end TouchGame.Repair
