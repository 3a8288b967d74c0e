import Mathlib.Algebra.BigOperators.Group.List.Basic
import TouchGame.Proofs.Play.Steady

/-!
# Rules fired several times

The search adds up once what the actions of a rule do to a counter, and fires the rule as often as it takes.
Firing goes through the actions one by one each time. On a counter to which the rule gives whole numbers both
come to the same: a counter that the rule does not set moves by the sum each time, and one that it sets is
brought to the same value each time, to what the last setting says and the changes behind it. Firing fails
only on the way: where an action has to add a double on another counter that holds a whole number which is too
large for one, or the other way round.

* `Number.Incompatible` : two numbers that have no sum.
* `Overruns` : such a sum comes up while a rule is fired a number of times.
* `fires_error_iff` : firing fails exactly then.
* `Tallied` : what a counter holds then, said by the last setting and the changes behind it.
* `refire_tallied` : a rule that is fired a number of times either overruns or leaves its tally.
* `dusty_not_fired` : a rule that overruns.
-/

namespace TouchGame

namespace Number

variable {a b : Number} {cause : ArithmeticFault}

/-- One of two numbers is a double, and the other one is too large to become one. -/
def Incompatible (a b : Number) : Prop :=
  ¬ a.HasReal ∧ (∃ y, b = .real y) ∨ (∃ x, a = .real x) ∧ ¬ b.HasReal

theorem toReal_error_iff : a.toReal = .error cause ↔ cause = .integerTooLarge ∧ ¬ a.HasReal := by
  cases a with
  | real x => exact ⟨nofun, fun h => absurd (real_hasReal x) h.2⟩
  | int n =>
    cases hreal : Binary64.ofInt? n with
    | none =>
      have hfails : (Number.int n).toReal = .error .integerTooLarge := by
        unfold toReal
        simp only [hreal]
      have hnone : ¬ (Number.int n).HasReal := by
        rintro ⟨x, hx⟩
        rw [hfails] at hx
        cases hx
      rw [hfails, Except.error.injEq, and_iff_left hnone]
      exact ⟨Eq.symm, Eq.symm⟩
    | some x =>
      rw [toReal_int hreal]
      exact ⟨nofun, fun h => absurd ⟨x, toReal_int hreal⟩ h.2⟩

theorem add_error_iff : a.add b = .error cause ↔ cause = .integerTooLarge ∧ a.Incompatible b := by
  cases a with
  | int m =>
    cases b with
    | int n => simp [add, lift, Incompatible]
    | real y =>
      have hsum : (Number.int m).add (.real y) = (Number.int m).toReal.map fun x => .real (x.add y) := by
        cases hreal : (Number.int m).toReal <;> simp only [add, lift, hreal] <;> rfl
      rw [hsum, map_error_iff, toReal_error_iff]
      simp [Incompatible]
  | real x =>
    have hsum : (Number.real x).add b = b.toReal.map fun y => .real (x.add y) := by
      cases hreal : b.toReal <;> simp only [add, lift_real, hreal] <;> rfl
    rw [hsum, map_error_iff, toReal_error_iff]
    simp [Incompatible, real_hasReal]

theorem not_incompatible_int (m n : Int) : ¬ (Number.int m).Incompatible (.int n) := by
  simp [Incompatible]

end Number

namespace Play

variable {r : Rule} {a : Action} {s u : State} {counter : String} {v : Int} {k : Nat} {fault : Fault}

/-! ## Firing that fails -/

/-- An operation fails exactly where it changes a counter by a number that has no sum with its value. -/
theorem operate_error_iff {id : String} {operation : Slot String} {value : Option Number} :
    s.operate id operation value = .error fault ↔ fault = .arithmetic .integerTooLarge ∧
      ∃ change, counterChange? operation value = some change ∧ (s.counter id).Incompatible change := by
  unfold State.operate
  by_cases hset : operation = .value "set"
  · subst hset
    rw [if_pos (beq_self_eq_true _)]
    exact ⟨nofun, fun ⟨_, _, hchange, _⟩ => by cases hchange⟩
  · rw [if_neg (by simpa using hset)]
    cases hchange : counterChange? operation value with
    | none => exact ⟨nofun, fun ⟨_, _, hnone, _⟩ => by cases hnone⟩
    | some change =>
      have hmap : (do return s.setCounter id (← arithmetic ((s.counter id).add change))) =
          (arithmetic ((s.counter id).add change)).map (s.setCounter id) := by
        cases arithmetic ((s.counter id).add change) <;> rfl
      dsimp only
      rw [hmap, map_error_iff, arithmetic, mapError_error_iff]
      simp only [Number.add_error_iff, Option.some.injEq, exists_eq_left']
      constructor
      · rintro ⟨cause, ⟨rfl, hincompatible⟩, rfl⟩
        exact ⟨rfl, hincompatible⟩
      · rintro ⟨rfl, hincompatible⟩
        exact ⟨_, ⟨rfl, hincompatible⟩, rfl⟩

/-- An action of a type that can be looked up fails exactly where it changes a counter by a number that has
no sum with its value. -/
theorem after_error_iff (htype : a.kind.isContainer = false) :
    State.after r s a = .error fault ↔ fault = .arithmetic .integerTooLarge ∧
      ∃ id change, id ≠ "" ∧ changeOf? id a = some change ∧ (s.counter id).Incompatible change := by
  constructor
  · intro h
    cases a with
    | counter name operation value =>
      rw [State.after] at h
      split at h
      · rename_i id hname
        obtain ⟨rfl, hid⟩ := eq_value_of_text? hname
        obtain ⟨hfault, change, hchange, hincompatible⟩ := operate_error_iff.mp h
        exact ⟨hfault, id, change, hid, (if_pos (beq_self_eq_true id)).trans hchange, hincompatible⟩
      · cases h
    | unknown type extras =>
      rw [after_unknown htype] at h
      cases h
    | _ => cases h
  · rintro ⟨hfault, id, change, hid, hchange, hincompatible⟩
    obtain ⟨operation, value, rfl, hoperation⟩ := changeOf?_eq_some hchange
    rw [State.after, text?_value hid]
    exact operate_error_iff.mpr ⟨hfault, change, hoperation, hincompatible⟩

/-- While a rule is fired a number of times, one of its actions has to change another counter than the given
one by a number that has no sum with what that counter holds at the moment. -/
def Overruns (r : Rule) (counter : String) (k : Nat) (s : State) : Prop :=
  ∃ earlier a later t other change,
    (List.replicate k r.actions).flatten = earlier ++ a :: later ∧
    earlier.foldlM (State.after r) s = .ok t ∧
    other ≠ "" ∧ other ≠ counter ∧ changeOf? other a = some change ∧
    (t.counter other).Incompatible change

theorem fires_eq_flatten (r : Rule) (k : Nat) (s : State) :
    (List.replicate k r).foldlM State.fire s =
      (List.replicate k r.actions).flatten.foldlM (State.after r) s := by
  induction k generalizing s with
  | zero => rfl
  | succ k ih =>
    rw [List.replicate_succ, List.replicate_succ, List.foldlM_cons, List.flatten_cons, List.foldlM_append]
    exact bind_congr ih

theorem mem_flatten_replicate {actions : List Action} (ha : a ∈ (List.replicate k actions).flatten) :
    a ∈ actions := by
  obtain ⟨list, hlist, ha⟩ := List.mem_flatten.mp ha
  rwa [List.eq_of_mem_replicate hlist] at ha

/-- **Firing fails exactly where it overruns.** -/
theorem fires_error_iff (hcounter : counter ≠ "") (htypes : ∀ a ∈ r.actions, a.kind.isContainer = false)
    (hr : WholeFor counter r) (hv : s.counter counter = .int v) :
    (List.replicate k r).foldlM State.fire s = .error fault ↔
      fault = .arithmetic .integerTooLarge ∧ Overruns r counter k s := by
  rw [fires_eq_flatten, foldlM_error_iff]
  constructor
  · rintro ⟨earlier, a, later, t, hsplit, ht, hfails⟩
    have hmem (b : Action) (hb : b ∈ earlier ++ a :: later) : b ∈ r.actions :=
      mem_flatten_replicate (hsplit ▸ hb)
    have ha : a ∈ r.actions := hmem a (List.mem_append_right _ List.mem_cons_self)
    obtain ⟨hfault, other, change, hnamed, hchange, hincompatible⟩ :=
      (after_error_iff (htypes a ha)).mp hfails
    refine ⟨hfault, earlier, a, later, t, other, change, hsplit, ht, hnamed, ?_, hchange, hincompatible⟩
    -- the counter itself holds a whole number at that moment, and whole numbers have a sum
    rintro rfl
    have hearlier : ∀ b ∈ earlier, b.isWholeFor other = true := fun b hb =>
      hr b (hmem b (List.mem_append_left _ hb))
    rw [counter_tally hnamed hearlier hv ht, changeOf?_whole (hr a ha) hchange] at hincompatible
    exact Number.not_incompatible_int _ _ hincompatible
  · rintro ⟨hfault, earlier, a, later, t, other, change, hsplit, ht, hnamed, _, hchange, hincompatible⟩
    have ha : a ∈ r.actions :=
      mem_flatten_replicate (hsplit ▸ List.mem_append_right _ List.mem_cons_self)
    exact ⟨earlier, a, later, t, hsplit, ht,
      (after_error_iff (htypes a ha)).mpr ⟨hfault, other, change, hnamed, hchange, hincompatible⟩⟩

theorem fires_return (hr : WholeRule r) (htypes : ∀ a ∈ r.actions, a.kind.isContainer = false)
    (hs : s.Whole) (k : Nat) : ∃ u, (List.replicate k r).foldlM State.fire s = .ok u := by
  induction k generalizing s with
  | zero => exact ⟨s, rfl⟩
  | succ k ih =>
    obtain ⟨next, hnext, hwhole⟩ := fire_returns hr htypes hs
    rw [List.replicate_succ, List.foldlM_cons, hnext]
    exact ih hwhole

/-! ## What a counter holds -/

theorem tally_append (v : Int) (earlier later : List Action) :
    tally counter v (earlier ++ later) = tally counter (tally counter v earlier) later :=
  List.foldl_append

/-- Behind the last action that sets a counter, the tally is what that sets it to and the changes since. -/
theorem tally_of_set {before after : List Action} {n : Int} (hset : settingOf? counter a = some (.int n))
    (hlast : ∀ b ∈ after, settingOf? counter b = none) :
    tally counter v (before ++ a :: after) = n + (after.map (·.shift counter)).sum := by
  have hbehind (w : Int) : a.behind counter w = n := by
    rw [Action.behind, hset]
  rw [tally_append, tally, List.foldl_cons, hbehind, ← tally, tally_of_unset hlast]

theorem tally_replicate (hunset : ∀ a ∈ r.actions, settingOf? counter a = none) (k : Nat) :
    tally counter v (List.replicate k r.actions).flatten = v + k * r.shift counter := by
  rw [tally_of_unset fun a ha => hunset a (mem_flatten_replicate ha), List.map_flatten,
    List.map_replicate, List.sum_flatten, List.map_replicate, List.sum_replicate, Rule.shift,
    nsmul_eq_mul]

/-- The last of some actions that set a counter. -/
theorem exists_last_setting {actions : List Action} (h : ∃ a ∈ actions, settingOf? counter a ≠ none) :
    ∃ before a after setting, actions = before ++ a :: after ∧ settingOf? counter a = some setting ∧
      ∀ b ∈ after, settingOf? counter b = none := by
  induction actions with
  | nil =>
    obtain ⟨_, hnone, _⟩ := h
    cases hnone
  | cons first rest ih =>
    by_cases hrest : ∃ a ∈ rest, settingOf? counter a ≠ none
    · obtain ⟨before, a, after, setting, rfl, hset, hlast⟩ := ih hrest
      exact ⟨first :: before, a, after, setting, rfl, hset, hlast⟩
    · have hunset : ∀ b ∈ rest, settingOf? counter b = none := by
        intro b hb
        by_contra hb'
        exact hrest ⟨b, hb, hb'⟩
      obtain ⟨a, ha, hset⟩ := h
      have hfirst : a = first := by
        rcases List.mem_cons.mp ha with ha | ha
        · exact ha
        · exact absurd (hunset a ha) hset
      subst hfirst
      obtain ⟨setting, hsetting⟩ := Option.ne_none_iff_exists'.mp hset
      exact ⟨[], a, rest, setting, rfl, hsetting, hunset⟩

/-- What a counter holds behind a rule that has fired a number of times, if it held a whole number before. -/
structure Tallied (r : Rule) (counter : String) (v : Int) (k : Nat) (u : State) : Prop where
  /-- A counter that the rule does not set has moved as often by its net change. -/
  moved : (∀ a ∈ r.actions, settingOf? counter a = none) →
    ∃ d, netChange r counter = .ok (.int d) ∧ u.counter counter = .int (v + k * d)
  /-- One that it sets holds what it is set to last, and the changes behind that. -/
  set : (∃ a ∈ r.actions, settingOf? counter a ≠ none) → 0 < k →
    ∃ before a after n d, r.actions = before ++ a :: after ∧ settingOf? counter a = some (.int n) ∧
      (∀ b ∈ after, settingOf? counter b = none) ∧
      netChange { r with actions := after } counter = .ok (.int d) ∧ u.counter counter = .int (n + d)

theorem tallied_of_fires (hcounter : counter ≠ "") (hr : WholeFor counter r)
    (hv : s.counter counter = .int v) (h : (List.replicate k r).foldlM State.fire s = .ok u) :
    Tallied r counter v k u := by
  rw [fires_eq_flatten] at h
  have htally := counter_tally hcounter (fun a ha => hr a (mem_flatten_replicate ha)) hv h
  constructor
  · intro hunset
    refine ⟨r.shift counter, netChange_wholeFor hr, ?_⟩
    rw [htally, tally_replicate hunset]
  · intro hset hk
    obtain ⟨before, a, after, setting, hsplit, hsetting, hlast⟩ := exists_last_setting hset
    have hmem : a ∈ r.actions := hsplit ▸ List.mem_append_right before List.mem_cons_self
    obtain ⟨n, rfl⟩ := settingOf?_whole (hr a hmem) hsetting
    have hafter : WholeFor counter { r with actions := after } := fun b hb =>
      hr b (hsplit ▸ List.mem_append_right before (List.mem_cons_of_mem a hb))
    refine ⟨before, a, after, n, _, hsplit, hsetting, hlast, netChange_wholeFor hafter, ?_⟩
    -- only the last time that the rule fires counts
    obtain ⟨k, rfl⟩ := Nat.exists_eq_add_one.mpr hk
    rw [htally, List.replicate_succ', List.flatten_append, List.flatten_singleton, tally_append, hsplit,
      tally_of_set hsetting hlast, Rule.shift]

/-- **A rule that is fired a number of times leaves its tally, unless it overruns.** It does not overrun
where all numbers are whole. -/
theorem refire_tallied (hcounter : counter ≠ "") (htypes : ∀ a ∈ r.actions, a.kind.isContainer = false)
    (hr : WholeFor counter r) (hv : s.counter counter = .int v) (k : Nat) :
    (Overruns r counter k s →
      (List.replicate k r).foldlM State.fire s = .error (.arithmetic .integerTooLarge)) ∧
    (¬ Overruns r counter k s →
      ∃ u, (List.replicate k r).foldlM State.fire s = .ok u ∧ Tallied r counter v k u) ∧
    (WholeRule r → s.Whole → ¬ Overruns r counter k s) := by
  have hfails (fault : Fault) : (List.replicate k r).foldlM State.fire s = .error fault ↔
      fault = .arithmetic .integerTooLarge ∧ Overruns r counter k s :=
    fires_error_iff hcounter htypes hr hv
  refine ⟨?_, ?_, ?_⟩
  · intro hoverruns
    exact (hfails _).mpr ⟨rfl, hoverruns⟩
  · intro hnot
    cases hfires : (List.replicate k r).foldlM State.fire s with
    | error fault => exact absurd ((hfails fault).mp hfires).2 hnot
    | ok u => exact ⟨u, rfl, tallied_of_fires hcounter hr hv hfires⟩
  · intro hwhole hs hoverruns
    obtain ⟨u, hu⟩ := fires_return hwhole htypes hs k
    rw [(hfails _).mpr ⟨rfl, hoverruns⟩] at hu
    cases hu

/-- A harvest: whatever is in the basket, ten apples are, of which four are lost, and one more is found. To
double them is no operation. A day goes by, and half a coin is spent. -/
def harvest : Rule := ⟨"harvest", .empty, .value "tree", .empty, [
  .counter (.value "apples") (.value "add") (some 3), .counter (.value "days") (.value "decrement") none,
  .counter (.value "apples") (.value "set") (some 10), .counter (.value "apples") (.value "double") none,
  .counter (.value "coins") (.value "subtract") (some (.thousandths 500)),
  .counter (.value "apples") (.value "subtract") (some 4),
  .counter (.value "apples") (.value "increment") none]⟩

/-- An orchard in late summer. -/
def orchard : State := { State.empty with counters := [("apples", 5), ("days", 20), ("coins", 2)] }

theorem refire_tallied_harvest :
    ("apples" ≠ "" ∧ "days" ≠ "") ∧ (∀ a ∈ harvest.actions, a.kind.isContainer = false) ∧
      (WholeFor "apples" harvest ∧ WholeFor "days" harvest) ∧
      (orchard.counter "apples" = .int 5 ∧ orchard.counter "days" = .int 20) ∧
      ∃ u, (List.replicate 3 harvest).foldlM State.fire orchard = .ok u ∧
        Tallied harvest "apples" 5 3 u ∧ Tallied harvest "days" 20 3 u ∧
        u.counter "apples" = 7 ∧ u.counter "days" = 17 := by
  have htypes : ∀ a ∈ harvest.actions, a.kind.isContainer = false := by decide
  have happles : WholeFor "apples" harvest := by unfold WholeFor; decide
  have hdays : WholeFor "days" harvest := by unfold WholeFor; decide
  have hfound : ((List.replicate 3 harvest).foldlM State.fire orchard).toOption.map
      (fun u => (u.counter "apples", u.counter "days")) = some (7, 17) := by
    decide +kernel
  obtain ⟨u, hu, hstate⟩ := Option.map_eq_some_iff.mp hfound
  rw [toOption_some_iff] at hu
  rw [Prod.mk.injEq] at hstate
  obtain ⟨happles', hreturns, _⟩ := refire_tallied (by decide) htypes happles (s := orchard) (v := 5) rfl 3
  obtain ⟨hdays', hreturns', _⟩ := refire_tallied (by decide) htypes hdays (s := orchard) (v := 20) rfl 3
  have hruns {counter : String} (h : Overruns harvest counter 3 orchard →
      (List.replicate 3 harvest).foldlM State.fire orchard = .error (.arithmetic .integerTooLarge)) :
      ¬ Overruns harvest counter 3 orchard := by
    intro hoverruns
    rw [h hoverruns] at hu
    cases hu
  obtain ⟨u', hu', htallied⟩ := hreturns (hruns happles')
  obtain ⟨u'', hu'', htallied'⟩ := hreturns' (hruns hdays')
  obtain rfl := Except.ok.inj (hu.symm.trans hu')
  obtain rfl := Except.ok.inj (hu.symm.trans hu'')
  exact ⟨by decide, htypes, ⟨happles, hdays⟩, ⟨rfl, rfl⟩, u, hu, htallied, htallied', hstate⟩

/-- A star is swept: one grain of dust is added as a double, and the score goes up. -/
def sweep : Rule := ⟨"sweep", .empty, .value "star", .empty, [
  .counter (.value "dust") (.value "add") (some (.thousandths 1000)),
  .counter (.value "score") (.value "increment") none]⟩

/-- There is more dust than any double can tell. -/
def dusty : State := State.empty.setCounter "dust" (.int (10 ^ 309))

/-- **A rule whose net change of the score is one need not raise it,** though all counters hold whole numbers
and it gives the score nothing else. -/
theorem dusty_not_fired :
    dusty.Whole ∧ (∀ a ∈ sweep.actions, a.kind.isContainer = false) ∧ WholeFor "score" sweep ∧
      (∀ a ∈ sweep.actions, settingOf? "score" a = none) ∧ netChange sweep "score" = .ok (.int 1) ∧
      ¬ ∃ u, (List.replicate 1 sweep).foldlM State.fire dusty = .ok u ∧
        u.counter "score" = .int (0 + (1 : Nat) * 1) := by
  have hempty : State.empty.Whole := fun _ => ⟨0, rfl⟩
  have hfails : (List.replicate 1 sweep).foldlM State.fire dusty =
      .error (.arithmetic .integerTooLarge) := by
    decide +kernel
  refine ⟨hempty.setCounter _, by decide, by unfold WholeFor; decide, by decide, by decide, ?_⟩
  rintro ⟨u, hu, _⟩
  rw [hfails] at hu
  cases hu

end Play

end TouchGame
