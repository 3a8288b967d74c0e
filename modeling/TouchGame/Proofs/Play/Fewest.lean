import Mathlib.Algebra.Order.Floor.Div
import Mathlib.Order.Bounds.Defs
import TouchGame.Proofs.Play.Likeness
import TouchGame.Proofs.Play.Steady
import TouchGame.Proofs.Play.Totality

/-!
# The fewest taps

A game of whole numbers is won when one counter is where it should be. The search finds the first rule that
moves the counter the right way, divides the distance by what the rule adds, and taps as often. If the rule
can be fired again and again, these are the fewest taps of it after which the counter is where it should
be; and if it steps over a value that the counter has to equal, no number of taps is enough, and the search
says so.

* `Comparison.distance` : how far a counter is from where a comparison holds.
* `Comparison.holds_steps_iff` : after how many steps of one length the comparison holds.
* `Goal`, `IsFirstMover`, `ReachedIn` : what is waited for, what is fired for it, and whether that is enough.
* `isLeast_reachedIn` : the rounded quotient is the least number of taps that is enough.
* `explore_fewest_taps` : the report tells it.
* `nameless_leaps` : a counter without a name is not waited for.
-/

namespace TouchGame

namespace Comparison

variable {compare : Comparison} {n v d : Int}

/-- How far a whole number is from where a comparison with another one holds: positive below it, negative
above it. -/
def distance (compare : Comparison) (n v : Int) : Int :=
  n + compare.offset - v

theorem distance_ne_zero (h : compare.holds (.int v) (.int n) = false) : compare.distance n v ≠ 0 := by
  cases compare <;>
    simp only [holds, Number.eq_int, Number.le_int, Number.lt_int, decide_eq_false_iff_not] at h <;>
    simp only [distance, offset] <;> omega

/-- **Steps towards where a comparison holds get there** when they are as long as the distance together,
and exactly as long where the values have to be equal. -/
theorem holds_steps_iff (hfails : compare.holds (.int v) (.int n) = false)
    (htoward : d.sign = (compare.distance n v).sign) (k : Nat) :
    compare.holds (.int (v + k * d)) (.int n) = true ↔
      (compare.distance n v).natAbs ≤ d.natAbs * k ∧
        (compare = .equals → d.natAbs * k = (compare.distance n v).natAbs) := by
  -- all steps go one way, so they are as long together as one is times their number
  have hgone : 0 < compare.distance n v ∧ k * d = (d.natAbs * k : Nat) ∨
      compare.distance n v < 0 ∧ k * d = -(d.natAbs * k : Nat) := by
    rw [Int.natCast_mul, Int.mul_comm]
    rcases Int.lt_or_gt_of_ne (distance_ne_zero hfails) with hdown | hup
    · have hd : d < 0 := Int.sign_eq_neg_one_iff_neg.mp (htoward.trans (Int.sign_eq_neg_one_of_neg hdown))
      rw [Int.ofNat_natAbs_of_nonpos hd.le, Int.neg_mul, Int.neg_neg]
      exact .inr ⟨hdown, rfl⟩
    · have hd : 0 < d := Int.sign_eq_one_iff_pos.mp (htoward.trans (Int.sign_eq_one_of_pos hup))
      rw [Int.natAbs_of_nonneg hd.le]
      exact .inl ⟨hup, rfl⟩
  generalize d.natAbs * k = gone, k * d = moved at hgone ⊢
  cases compare <;>
    simp only [holds, Number.eq_int, Number.le_int, Number.lt_int, decide_eq_false_iff_not,
      decide_eq_true_iff, distance, offset, reduceCtorEq, false_imp_iff, true_imp_iff, and_true]
      at hfails hgone ⊢ <;> omega

theorem natAbs_pos_of_sign (hfails : compare.holds (.int v) (.int n) = false)
    (htoward : d.sign = (compare.distance n v).sign) : 0 < d.natAbs := by
  refine Int.natAbs_pos.mpr fun hzero => distance_ne_zero hfails (Int.sign_eq_zero_iff_zero.mp ?_)
  rw [← htoward, hzero, Int.sign_zero]

/-- Steps that are as many as the rounded quotient says get there, unless they step over a value that has
to be equal. -/
theorem holds_ceilDiv_iff (hfails : compare.holds (.int v) (.int n) = false)
    (htoward : d.sign = (compare.distance n v).sign) :
    compare.holds (.int (v + ((compare.distance n v).natAbs ⌈/⌉ d.natAbs : Nat) * d)) (.int n) = true ↔
      compare ≠ .equals ∨ d ∣ compare.distance n v := by
  have hpositive := natAbs_pos_of_sign hfails htoward
  have henough : (compare.distance n v).natAbs ≤
      d.natAbs * ((compare.distance n v).natAbs ⌈/⌉ d.natAbs) :=
    (ceilDiv_le_iff_le_mul hpositive).mp (Nat.le_refl _)
  rw [holds_steps_iff hfails htoward, ← Int.natAbs_dvd_natAbs]
  constructor
  · rintro ⟨_, hexact⟩
    by_cases hequals : compare = .equals
    · exact .inr ⟨_, (hexact hequals).symm⟩
    · exact .inl hequals
  · rintro (hother | ⟨c, hc⟩)
    · exact ⟨henough, fun hequals => absurd hequals hother⟩
    · have hfew : (compare.distance n v).natAbs ⌈/⌉ d.natAbs ≤ c :=
        (ceilDiv_le_iff_le_mul hpositive).mpr (Nat.le_of_eq hc)
      have hexact : d.natAbs * ((compare.distance n v).natAbs ⌈/⌉ d.natAbs) ≤
          (compare.distance n v).natAbs :=
        calc d.natAbs * ((compare.distance n v).natAbs ⌈/⌉ d.natAbs) ≤ d.natAbs * c :=
              Nat.mul_le_mul_left d.natAbs hfew
          _ = (compare.distance n v).natAbs := hc.symm
      exact ⟨henough, fun _ => Nat.le_antisymm hexact henough⟩

theorem ceilDiv_le_of_holds (hfails : compare.holds (.int v) (.int n) = false)
    (htoward : d.sign = (compare.distance n v).sign) {k : Nat}
    (h : compare.holds (.int (v + k * d)) (.int n) = true) :
    (compare.distance n v).natAbs ⌈/⌉ d.natAbs ≤ k :=
  (ceilDiv_le_iff_le_mul (natAbs_pos_of_sign hfails htoward)).mpr
    ((holds_steps_iff hfails htoward k).mp h).1

theorem ceilDiv_le_distance (hfails : compare.holds (.int v) (.int n) = false)
    (htoward : d.sign = (compare.distance n v).sign) :
    (compare.distance n v).natAbs ⌈/⌉ d.natAbs ≤ (compare.distance n v).natAbs := by
  have hpositive := natAbs_pos_of_sign hfails htoward
  exact (ceilDiv_le_iff_le_mul hpositive).mpr (Nat.le_mul_of_pos_left _ hpositive)

end Comparison

namespace Play

variable {g : Game} {w m : Rule} {settings : Settings} {name comparison : Slot String}
  {value : Option Number} {counter object : String} {compare : Comparison} {n v : Int}

/-! ## What the search fires -/

/-- A game is won when one counter is where it should be, which it is not at the start; what it holds and
what it is compared with are whole numbers. -/
structure Goal (g : Game) (w : Rule) (counter : String) (comparison : Slot String)
    (value : Option Number) (compare : Comparison) (n v : Int) : Prop where
  wins : g.rulesFiring "success" = [w]
  waits : ∃ name, name.text? = some counter ∧ w.conditions = [.counter name comparison value]
  compares : Comparison.ofName? (comparison.textOr Comparison.defaultName) = some compare
  threshold : thresholdOf value = .int n
  start : (State.initial g).counter counter = .int v
  fails : compare.holds (.int v) (.int n) = false

/-- A rule is the first one that moves a counter towards where it should be. -/
def IsFirstMover (g : Game) (m : Rule) (counter : String) (distance : Int) : Prop :=
  ∃ before after, g.rules = before ++ m :: after ∧
    (∀ r ∈ before, (r.shift counter).sign ≠ distance.sign) ∧ (m.shift counter).sign = distance.sign

/-- A counter is where it should be after a rule has fired a number of times from the start. -/
def ReachedIn (g : Game) (m : Rule) (counter : String) (comparison : Slot String)
    (value : Option Number) (k : Nat) : Prop :=
  ∃ s, (List.replicate k m).foldlM State.fire (.initial g) = .ok s ∧
    counterHolds s counter comparison value = true

theorem Goal.nonempty (hw : Goal g w counter comparison value compare n v) : counter ≠ "" := by
  obtain ⟨name, hname, _⟩ := hw.waits
  exact (eq_value_of_text? hname).2

theorem goes_iff {distance d : Int} (hdistance : distance ≠ 0) :
    goes (Number.lt 0 (.int distance)) (.int d) = true ↔ d.sign = distance.sign := by
  have hup : Number.lt 0 (.int distance) = decide (0 < distance) := Number.lt_int 0 distance
  have hafter : Number.lt 0 (.int d) = decide (0 < d) := Number.lt_int 0 d
  have hbelow : (Number.int d).lt 0 = decide (d < 0) := Number.lt_int d 0
  rw [goes, hup, hafter, hbelow]
  rcases Int.lt_or_gt_of_ne hdistance with hd | hd
  · rw [decide_eq_false (by omega), Int.sign_eq_neg_one_of_neg hd, Int.sign_eq_neg_one_iff_neg]
    exact decide_eq_true_iff
  · rw [decide_eq_true hd, Int.sign_eq_one_of_pos hd, Int.sign_eq_one_iff_pos]
    exact decide_eq_true_iff

theorem IsFirstMover.mover? {distance : Int} (hdistance : distance ≠ 0)
    (hfirst : IsFirstMover g m counter distance) (hg : WholeGame g) :
    mover? g counter (Number.lt 0 (.int distance)) = .ok (some (m, .int (m.shift counter))) := by
  obtain ⟨before, after, hrules, hbefore, htoward⟩ := hfirst
  have hwhole (r : Rule) (hr : r ∈ g.rules) : netChange r counter = .ok (.int (r.shift counter)) :=
    netChange_whole (hg.rules r hr)
  rw [Play.mover?, hrules, firstMover?_append, firstMover?, hwhole m (by rw [hrules]; simp)]
  · exact if_pos ((goes_iff hdistance).mpr htoward)
  · intro r hr
    refine ⟨_, hwhole r (by rw [hrules]; exact List.mem_append_left _ hr), ?_⟩
    rw [← Bool.not_eq_true, goes_iff hdistance]
    exact hbefore r hr

theorem IsFirstMover.toward {distance : Int} (hfirst : IsFirstMover g m counter distance) :
    (m.shift counter).sign = distance.sign := by
  obtain ⟨_, _, _, _, htoward⟩ := hfirst
  exact htoward

theorem IsFirstMover.mem {distance : Int} (hfirst : IsFirstMover g m counter distance) : m ∈ g.rules := by
  obtain ⟨before, after, hrules, _⟩ := hfirst
  rw [hrules]
  exact List.mem_append_right _ List.mem_cons_self

/-! ## What the search does -/

theorem planCounter_of_mover {threshold distance change : Number} {times : Int} {shown : String}
    (hmover : mover? g counter (Number.lt 0 distance) = .ok (some (m, change)))
    (htimes : distance.abs.quotient change.abs >>= Number.ceil = .ok times)
    (hshown : change.generalSigned = .ok shown) :
    planCounter g counter compare threshold distance =
      .ok ⟨m, times.toNat, s!"Counter {counter} {shown}"⟩ := by
  rw [planCounter, bind_ok_iff]
  refine ⟨_, attempt_ok.mpr hmover, ?_⟩
  rw [bind_ok_iff]
  refine ⟨times, attempt_ok.mpr (mapError_ok_iff.mpr htimes), ?_⟩
  rw [bind_ok_iff]
  exact ⟨shown, attempt_ok.mpr (mapError_ok_iff.mpr hshown), rfl⟩

section Search

variable (hw : Goal g w counter comparison value compare n v) (hg : WholeGame g)
  (hfirst : IsFirstMover g m counter (compare.distance n v))
  (hshift : (m.shift counter).natAbs < 2 ^ 53) (hdistance : (compare.distance n v).natAbs < 2 ^ 53)
include hw hg hfirst hshift hdistance

theorem planCounter_whole :
    ∃ plan, planCounter g counter compare (.int n) (.int (compare.distance n v)) = .ok plan ∧
      plan.rule = m ∧ plan.times = (compare.distance n v).natAbs ⌈/⌉ (m.shift counter).natAbs := by
  have hne := Comparison.distance_ne_zero hw.fails
  have htimes : (Number.int (compare.distance n v)).abs.quotient (Number.int (m.shift counter)).abs >>=
      Number.ceil = .ok ((compare.distance n v).natAbs ⌈/⌉ (m.shift counter).natAbs : Nat) :=
    Number.ceil_quotient hdistance hshift (Comparison.natAbs_pos_of_sign hw.fails hfirst.toward)
  have hreal : (Number.int (m.shift counter)).HasReal :=
    Number.Within.hasReal (by decide : 53 < 1024) (.int (Nat.le_of_lt hshift))
  obtain ⟨shown, hshown⟩ := hreal.generalSigned
  exact ⟨_, planCounter_of_mover (hfirst.mover? hne hg) htimes hshown, rfl, Int.toNat_natCast _⟩

/-- The search taps as often as that. -/
theorem bringCounter_steady (hm : Steady m counter object) :
    ∃ t, bringCounter g (.start (.initial g)) counter comparison value = .ok t ∧
      Going object counter
        (v + ((compare.distance n v).natAbs ⌈/⌉ (m.shift counter).natAbs : Nat) * m.shift counter) t.state ∧
      t.taps = (compare.distance n v).natAbs ⌈/⌉ (m.shift counter).natAbs ∧ t.longest = State.noTime := by
  have hgap : gap compare (.int n) ((State.initial g).counter counter) =
      .ok (.int (compare.distance n v)) := by
    rw [hw.start, gap_int, Comparison.remaining_int hw.fails]
    rfl
  have hapart : (Number.int (compare.distance n v)).eq 0 = false := by
    have heq : (Number.int (compare.distance n v)).eq (.int 0) = _ := Number.eq_int _ _
    exact heq.trans (decide_eq_false (Comparison.distance_ne_zero hw.fails))
  obtain ⟨plan, hplan, hrule, htimes⟩ := planCounter_whole hw hg hfirst hshift hdistance
  have hgoing : Going object counter v (Trail.start (.initial g)).state := hg.going hw.start object
  obtain ⟨t, ht, hlast, htaps, hlongest⟩ :=
    hm.fireTimes (hg.rules m hfirst.mem) hw.nonempty hrule (.int n) hgoing plan.times
  rw [htimes] at hlast htaps
  refine ⟨t, ?_, hlast, ?_, hlongest⟩
  · rw [bringCounter_gap hw.compares, hw.threshold, bind_ok_iff]
    refine ⟨_, attempt_ok.mpr hgap, ?_⟩
    rw [if_neg (by rw [hapart]; exact Bool.noConfusion), bind_ok_iff]
    refine ⟨plan, hplan, ?_⟩
    rw [hrule, hm.handle]
    exact ht
  · rw [htaps]
    exact Nat.zero_add _

/-! ## Enough taps -/

omit hshift hdistance in
theorem reachedIn_iff (hm : Steady m counter object) (k : Nat) :
    ReachedIn g m counter comparison value k ↔
      compare.holds (.int (v + k * m.shift counter)) (.int n) = true := by
  obtain ⟨u, hu, hgoing⟩ :=
    hm.fires (hg.rules m hfirst.mem) hw.nonempty (hg.going hw.start object) k
  have hholds : counterHolds u counter comparison value =
      compare.holds (.int (v + k * m.shift counter)) (.int n) := by
    rw [counterHolds, hw.compares, hgoing.value, hw.threshold]
  rw [ReachedIn, ← hholds]
  constructor
  · rintro ⟨s, hs, h⟩
    rwa [Except.ok.inj (hu.symm.trans hs)]
  · exact fun h => ⟨u, hu, h⟩

omit hshift hdistance in
/-- **The rounded quotient is the least number of taps that is enough,** if any is. -/
theorem isLeast_reachedIn (hm : Steady m counter object)
    (henough : compare ≠ .equals ∨ m.shift counter ∣ compare.distance n v) :
    IsLeast {k | ReachedIn g m counter comparison value k}
      ((compare.distance n v).natAbs ⌈/⌉ (m.shift counter).natAbs) := by
  constructor
  · rw [Set.mem_ofPred_eq, reachedIn_iff hw hg hfirst hm,
      Comparison.holds_ceilDiv_iff hw.fails hfirst.toward]
    exact henough
  · intro k hk
    rw [Set.mem_ofPred_eq, reachedIn_iff hw hg hfirst hm] at hk
    exact Comparison.ceilDiv_le_of_holds hw.fails hfirst.toward hk

end Search

/-! ## Reports -/

/-- The seconds of any fewer than `2 ^ 53` taps, and the time limit, can be told. Doubles always can. -/
structure Tellable (settings : Settings) : Prop where
  secondsPerTap : settings.secondsPerTap.WholeWithin 970
  timeLimit : settings.timeLimit.HasReal

theorem Tellable.walk (h : Tellable settings) {t : Trail} (htaps : t.taps ≤ 2 ^ 53)
    (hlongest : t.longest.HasReal) :
    ∃ walk, t.walk settings.secondsPerTap = .ok walk ∧ walk.taps = t.taps ∧ Told settings walk := by
  obtain ⟨tapping, htapping, htold⟩ := h.secondsPerTap.times htaps (by decide)
  refine ⟨⟨t.latest.reverse, t.taps, tapping.max t.longest⟩, ?_, rfl, htold.max hlongest, h.timeLimit⟩
  rw [Trail.walk, bind_ok_iff]
  exact ⟨tapping, mapError_ok_iff.mpr htapping, rfl⟩

/-- A prospect whose walk can be told is reported. -/
theorem explore_of_told {found : Prospect} (h : prospect settings g = .ok found)
    (htold : ∀ walk, found = .reachable walk → Told settings walk) :
    ∃ report, explore settings g = .ok report ∧ report.prospect = found := by
  have hissues : ∃ issues, issuesOf settings g found = .ok issues := by
    cases found with
    | blocked reasons => exact ⟨_, rfl⟩
    | reachable walk =>
      obtain ⟨htime, hlimit⟩ := htold walk rfl
      obtain ⟨needed, hneeded⟩ := htime.fixedOne
      obtain ⟨limit, hlimit⟩ := hlimit.general
      rw [issuesOf, hneeded, hlimit]
      split <;> exact ⟨_, rfl⟩
  obtain ⟨issues, hissues⟩ := hissues
  have htext : ∃ text, reasoningOf found (clashes g) issues = .ok text := by
    cases found with
    | blocked reasons => exact ⟨_, rfl⟩
    | reachable walk =>
      obtain ⟨seconds, hseconds⟩ := (htold walk rfl).1.fixedOne
      rw [reasoningOf, prospectText, hseconds]
      exact ⟨_, rfl⟩
  obtain ⟨text, htext⟩ := htext
  refine ⟨⟨found, perilWalks settings g, risks g, clashes g, issues, text⟩, ?_, rfl⟩
  rw [explore, h]
  change (do let issues ← issuesOf settings g found; _) = _
  rw [hissues]
  change (do let text ← reasoningOf found (clashes g) issues; _) = _
  rw [htext]
  rfl

theorem firstMover?_whole {up : Bool} {rules : List Rule} (h : ∀ r ∈ rules, WholeRule r) :
    ∃ found, firstMover? counter up rules = .ok found := by
  induction rules with
  | nil => exact ⟨none, rfl⟩
  | cons r rest ih =>
    obtain ⟨found, hfound⟩ := ih fun q hq => h q (List.mem_cons_of_mem r hq)
    rw [firstMover?, netChange_whole (h r List.mem_cons_self), hfound]
    by_cases hgoes : goes up (.int (r.shift counter)) = true
    · exact ⟨_, if_pos hgoes⟩
    · exact ⟨_, if_neg hgoes⟩

theorem lacking_whole (hg : WholeGame g) (w : Rule) (c : Condition) :
    ∃ lacks, lacking g w c = .ok lacks := by
  cases c with
  | counter name comparison value =>
    rw [lacking]
    split
    · rename_i counter _
      obtain ⟨found, hfound⟩ : ∃ found, firstMover? counter false g.rules = .ok found :=
        firstMover?_whole hg.rules
      obtain ⟨lacks, hlacks⟩ : ∃ lacks, startsTooHigh g counter comparison value = .ok lacks := by
        unfold startsTooHigh
        dsimp only
        rw [mover?, hfound]
        split
        · split <;> exact ⟨_, rfl⟩
        · exact ⟨_, rfl⟩
      rw [hlacks]
      exact ⟨_, rfl⟩
    · exact ⟨_, rfl⟩
  | touch target touchType => exact lacking_touch g w target touchType
  | _ => exact ⟨_, rfl⟩

theorem allLacking_whole (hg : WholeGame g) (winning : List Rule) :
    ∃ lacks, allLacking g winning = .ok lacks := by
  have hrule (w : Rule) : ∃ lacks, lackingOf g w = .ok lacks := by
    obtain ⟨all, hall⟩ := mapM_ok_of fun c (_ : c ∈ w.conditions) => lacking_whole hg w c
    exact ⟨all.flatten, bind_ok_iff.mpr ⟨all, hall, rfl⟩⟩
  obtain ⟨all, hall⟩ := mapM_ok_of fun w (_ : w ∈ winning) => hrule w
  exact ⟨all.flatten, bind_ok_iff.mpr ⟨all, hall, rfl⟩⟩

/-! ## The report -/

theorem prospect_of_walk {walk : Walk} (hwins : g.rulesFiring "success" = [w])
    (h : reach settings g w = .ok walk) : prospect settings g = .ok (.reachable walk) := by
  rw [prospect, hwins]
  change (do let found ← firstReached settings g [] [w]; _) = _
  rw [firstReached, h]
  rfl

theorem prospect_of_blocked {reasons : List Blocker} (hg : WholeGame g)
    (hwins : g.rulesFiring "success" = [w]) (h : reach settings g w = .error (.blocked reasons)) :
    ∃ why, prospect settings g = .ok (.blocked why) := by
  obtain ⟨lacks, hlacks⟩ := allLacking_whole hg [w]
  refine ⟨(lacks.map (·.message) ++ [reasonsText reasons]).eraseDups, ?_⟩
  rw [prospect, hwins]
  change (do let found ← firstReached settings g [] [w]; _) = _
  rw [firstReached, h]
  change (do let lacks ← allLacking g [w]; _) = _
  rw [hlacks]
  rfl

theorem not_reachable_of_error {setback : Setback} {found : Prospect}
    (hwins : g.rulesFiring "success" = [w]) (h : reach settings g w = .error setback)
    (hfound : prospect settings g = .ok found) : found.isReachable = false := by
  cases found with
  | blocked reasons => rfl
  | reachable walk =>
    obtain ⟨before, won, after, hrules, _, hreach⟩ := prospect_reachable hfound
    have hwon : won ∈ [w] := by
      rw [← hwins, hrules]
      exact List.mem_append_right _ List.mem_cons_self
    rw [List.mem_singleton.mp hwon, h] at hreach
    cases hreach

theorem reach_of_bringCounter {t : Trail} (hname : name.text? = some counter)
    (hconditions : w.conditions = [.counter name comparison value])
    (h : bringCounter g (.start (.initial g)) counter comparison value = .ok t) :
    reach settings g w =
      if counterHolds t.state counter comparison value then attempt (t.walk settings.secondsPerTap)
      else .error (shortfall t.state counter comparison value) := by
  rw [reach_single hconditions, walkFor, trailFor_counter hname, h]
  change (if counterHolds t.state counter comparison value = true then (.ok t : Attempt Trail)
    else .error (shortfall t.state counter comparison value)) >>= _ = _
  split <;> rfl

section Found

variable (hw : Goal g w counter comparison value compare n v) (hg : WholeGame g)
  (hfirst : IsFirstMover g m counter (compare.distance n v)) (hm : Steady m counter object)
  (hshift : (m.shift counter).natAbs < 2 ^ 53) (hdistance : (compare.distance n v).natAbs < 2 ^ 53)
include hw hg hfirst hm hshift hdistance

/-- Behind the taps the search comes back with its walk, or with what is missing if the counter has stepped
over the value. -/
theorem reach_steady : ∃ t : Trail,
    t.taps = (compare.distance n v).natAbs ⌈/⌉ (m.shift counter).natAbs ∧ t.longest = State.noTime ∧
      t.state.counter counter =
        .int (v + ((compare.distance n v).natAbs ⌈/⌉ (m.shift counter).natAbs : Nat) * m.shift counter) ∧
      (compare ≠ .equals ∨ m.shift counter ∣ compare.distance n v →
        reach settings g w = attempt (t.walk settings.secondsPerTap)) ∧
      (compare = .equals → ¬ m.shift counter ∣ compare.distance n v →
        reach settings g w = .error (shortfall t.state counter comparison value)) := by
  obtain ⟨t, ht, hlast, htaps, hlongest⟩ := bringCounter_steady hw hg hfirst hshift hdistance hm
  obtain ⟨name, hname, hconditions⟩ := hw.waits
  have hholds : counterHolds t.state counter comparison value = true ↔
      compare ≠ .equals ∨ m.shift counter ∣ compare.distance n v := by
    rw [counterHolds, hw.compares, hlast.value, hw.threshold]
    exact Comparison.holds_ceilDiv_iff hw.fails hfirst.toward
  have hreach : reach settings g w = _ := reach_of_bringCounter hname hconditions ht
  refine ⟨t, htaps, hlongest, hlast.value, fun henough => ?_, fun hequals hover => ?_⟩
  · rw [hreach, if_pos (hholds.mpr henough)]
  · have hfails : ¬ counterHolds t.state counter comparison value = true := by
      rw [hholds, not_or]
      exact ⟨fun hne => hne hequals, hover⟩
    rw [hreach, if_neg hfails]

theorem explore_enough (hsettings : Tellable settings)
    (henough : compare ≠ .equals ∨ m.shift counter ∣ compare.distance n v) :
    ∃ report, explore settings g = .ok report ∧ report.prospect.isReachable = true ∧
      report.prospect.tapCount =
        ((compare.distance n v).natAbs ⌈/⌉ (m.shift counter).natAbs : Nat) := by
  obtain ⟨t, htaps, hlongest, _, hreach, _⟩ := reach_steady hw hg hfirst hm hshift hdistance
  have hfew : t.taps ≤ 2 ^ 53 := by
    rw [htaps]
    exact Nat.le_trans (Comparison.ceilDiv_le_distance hw.fails hfirst.toward) (Nat.le_of_lt hdistance)
  have hwaited : t.longest.HasReal := by
    rw [hlongest]
    exact Number.real_hasReal _
  obtain ⟨walk, hwalk, hcount, htold⟩ := hsettings.walk hfew hwaited
  have hfound : reach settings g w = .ok walk := by rw [hreach henough, hwalk]; rfl
  obtain ⟨report, hreport, hprospect⟩ := explore_of_told (prospect_of_walk hw.wins hfound)
    fun other hother => Prospect.reachable.inj hother ▸ htold
  refine ⟨report, hreport, by rw [hprospect]; rfl, ?_⟩
  rw [hprospect, ← htaps, ← hcount]
  rfl

/-- If a value that has to be equal is stepped over, no report says that the game can be won. The only
other thing that can happen is that the counter ends at a number of too many digits. -/
theorem explore_over (hequals : compare = .equals)
    (hover : ¬ m.shift counter ∣ compare.distance n v) :
    (∀ report, explore settings g = .ok report → report.prospect.isReachable = false) ∧
      ((v + ((compare.distance n v).natAbs ⌈/⌉ (m.shift counter).natAbs : Nat) *
          m.shift counter).natAbs < 10 ^ Numeral.digitLimit →
        ∃ report, explore settings g = .ok report) := by
  obtain ⟨t, _, _, hlast, _, hblocked⟩ := reach_steady hw hg hfirst hm hshift hdistance
  have hreach : reach settings g w = _ := hblocked hequals hover
  refine ⟨fun report hreport => ?_, fun hshort => ?_⟩
  · exact not_reachable_of_error hw.wins hreach (explore_prospect hreport)
  · obtain ⟨reasons, hreasons⟩ : ∃ reasons, shortfall t.state counter comparison value =
        .blocked reasons := by
      rw [shortfall, hlast, Number.written_int hshort]
      exact ⟨_, rfl⟩
    rw [hreasons] at hreach
    obtain ⟨why, hwhy⟩ := prospect_of_blocked hg hw.wins hreach
    obtain ⟨report, hreport, _⟩ := explore_of_told hwhy fun _ hwalk => Prospect.noConfusion hwalk
    exact ⟨report, hreport⟩

end Found

/-- **The report tells the fewest taps.** A game of whole numbers is won when one counter is where it should
be, which it is not at the start. The first rule that moves the counter towards there can be fired again and
again. What it adds, and the distance, have at most 53 binary digits. Then the report says that the game
can be won, and in how many taps: the least number of times that the rule has to fire from the start. Where
the counter has to equal a value that the rule steps over, no report says that the game can be won, and
there is one unless the counter ends at a number of too many digits to be written. -/
theorem explore_fewest_taps (hw : Goal g w counter comparison value compare n v) (hg : WholeGame g)
    (hfirst : IsFirstMover g m counter (compare.distance n v)) (hm : Steady m counter object)
    (hshift : (m.shift counter).natAbs < 2 ^ 53) (hdistance : (compare.distance n v).natAbs < 2 ^ 53)
    (hsettings : Tellable settings) :
    (compare ≠ .equals ∨ m.shift counter ∣ compare.distance n v →
      ∃ report, explore settings g = .ok report ∧ report.prospect.isReachable = true ∧
        ∃ k : Nat, report.prospect.tapCount = k ∧
          IsLeast {k | ReachedIn g m counter comparison value k} k) ∧
    (compare = .equals → ¬ m.shift counter ∣ compare.distance n v →
      (∀ report, explore settings g = .ok report → report.prospect.isReachable = false) ∧
        ((v + ((compare.distance n v).natAbs ⌈/⌉ (m.shift counter).natAbs : Nat) *
            m.shift counter).natAbs < 10 ^ Numeral.digitLimit →
          ∃ report, explore settings g = .ok report)) := by
  constructor
  · intro henough
    obtain ⟨report, hreport, hreachable, htaps⟩ :=
      explore_enough hw hg hfirst hm hshift hdistance hsettings henough
    exact ⟨report, hreport, hreachable, _, htaps, isLeast_reachedIn hw hg hfirst hm henough⟩
  · exact explore_over hw hg hfirst hm hshift hdistance

/-- A rule that moves a counter when a frog is touched. -/
def hop (id counter operation : String) (length : Int) : Rule :=
  ⟨id, .empty, .value "frog", .value ⟨"AND", [.touch .empty (.value "down")]⟩,
    [.counter (.value counter) (.value operation) (some (.int length))]⟩

/-- A rule that wins when a counter compares with seven. -/
def arrival (counter comparison : String) : Rule :=
  ⟨"win", .empty, .empty,
    .value ⟨"AND", [.counter (.value counter) (.value comparison) (some 7)]⟩, [.success none .empty]⟩

/-- A frog that steps back by one, or leaps ahead by three. -/
def leaps (counter comparison : String) : Game where
  layout := [⟨"frog", ⟨.thousandths 500, .thousandths 500⟩, .empty⟩]
  counters := [⟨counter, .empty, 0⟩]
  rules := [hop "step" counter "subtract" 1, hop "leap" counter "add" 3, arrival counter comparison]
  objects := [⟨"frog", .empty, .empty, .empty, .empty, .empty⟩]
  sounds := []
  music := .empty

theorem shift_leap (counter : String) : (hop "leap" counter "add" 3).shift counter = 3 := by
  simp [Rule.shift, hop, Action.shift, changeOf?, counterChange?]

theorem leaps_whole (counter comparison : String) : WholeGame (leaps counter comparison) where
  initial c hc := by
    obtain rfl := List.mem_singleton.mp hc
    rfl
  rules := by simp [leaps, hop, arrival, WholeRule, Action.isWhole, Number.isInt]

theorem leap_isFirstMover (counter comparison : String) {distance : Int} (hdistance : 0 < distance) :
    IsFirstMover (leaps counter comparison) (hop "leap" counter "add" 3) counter distance := by
  refine ⟨[hop "step" counter "subtract" 1], [arrival counter comparison], rfl, fun r hr => ?_, ?_⟩
  · obtain rfl := List.mem_singleton.mp hr
    have hback : (hop "step" counter "subtract" 1).shift counter = -1 := by
      simp [Rule.shift, hop, Action.shift, changeOf?, counterChange?, Number.neg]
    rw [hback, Int.sign_eq_one_of_pos hdistance]
    decide
  · rw [shift_leap, Int.sign_eq_one_of_pos hdistance]
    rfl

theorem leap_steady (counter : String) : Steady (hop "leap" counter "add" 3) counter "frog" where
  handle := rfl
  inSight := rfl
  unset := by simp [hop, settingOf?]
  lasting := by simp [hop, ending?]
  types := by simp [hop, Action.kind, Json.isContainer]

theorem standard_tellable : Tellable .standard where
  secondsPerTap _ h := nomatch h
  timeLimit := Number.real_hasReal _

/-- Three leaps are the fewest that bring the frog past seven; none bring it exactly there. -/
theorem explore_fewest_taps_leaps :
    (∃ report, explore .standard (leaps "way" "greater") = .ok report ∧
      report.prospect.isReachable = true ∧ ∃ k : Nat, report.prospect.tapCount = k ∧
        IsLeast {k | ReachedIn (leaps "way" "greater") (hop "leap" "way" "add" 3) "way"
          (.value "greater") (some 7) k} k) ∧
    ∃ report, explore .standard (leaps "way" "equals") = .ok report ∧
      report.prospect.isReachable = false := by
  have hpast : Goal (leaps "way" "greater") (arrival "way" "greater") "way" (.value "greater") (some 7)
      .greater 7 0 :=
    ⟨rfl, ⟨.value "way", rfl, rfl⟩, by decide, rfl, rfl, by decide +kernel⟩
  have hthere : Goal (leaps "way" "equals") (arrival "way" "equals") "way" (.value "equals") (some 7)
      .equals 7 0 :=
    ⟨rfl, ⟨.value "way", rfl, rfl⟩, by decide, rfl, rfl, by decide +kernel⟩
  have hshift : ((hop "leap" "way" "add" 3).shift "way").natAbs < 2 ^ 53 := by
    rw [shift_leap]
    decide
  obtain ⟨hreached, _⟩ := explore_fewest_taps hpast (leaps_whole _ _)
    (leap_isFirstMover _ _ (by decide)) (leap_steady _) hshift (by decide) standard_tellable
  obtain ⟨_, hover⟩ := explore_fewest_taps hthere (leaps_whole _ _)
    (leap_isFirstMover _ _ (by decide)) (leap_steady _) hshift (by decide) standard_tellable
  obtain ⟨hnever, hreported⟩ := hover rfl (by rw [shift_leap]; decide)
  obtain ⟨report, hreport⟩ := hreported (by rw [shift_leap]; decide +kernel)
  exact ⟨hreached (.inl Comparison.noConfusion), report, hreport, hnever report hreport⟩

/-- A counter without a name is not waited for: the report says that the game can be won without a tap,
where leaps of three pass by seven. -/
theorem nameless_leaps :
    (leaps "" "equals").rulesFiring "success" = [arrival "" "equals"] ∧
      (arrival "" "equals").conditions = [.counter (.value "") (.value "equals") (some 7)] ∧
      (State.initial (leaps "" "equals")).counter "" = .int 0 ∧ WholeGame (leaps "" "equals") ∧
      IsFirstMover (leaps "" "equals") (hop "leap" "" "add" 3) "" (Comparison.equals.distance 7 0) ∧
      Steady (hop "leap" "" "add" 3) "" "frog" ∧
      ¬ (hop "leap" "" "add" 3).shift "" ∣ Comparison.equals.distance 7 0 ∧
      ∃ report, explore .standard (leaps "" "equals") = .ok report ∧
        report.prospect.isReachable = true ∧ report.prospect.tapCount = 0 := by
  have hfound : (explore .standard (leaps "" "equals")).toOption.map
      (fun report => (report.prospect.isReachable, report.prospect.tapCount)) = some (true, 0) := by
    decide +kernel
  obtain ⟨report, hreport, hprospect⟩ := Option.map_eq_some_iff.mp hfound
  obtain ⟨hreachable, htaps⟩ := Prod.mk.inj hprospect
  refine ⟨rfl, rfl, rfl, leaps_whole _ _, leap_isFirstMover _ _ (by decide), leap_steady _, ?_,
    report, toOption_some_iff.mp hreport, hreachable, htaps⟩
  rw [shift_leap]
  decide

end Play

end TouchGame
