import TouchGame.Proofs.Check.Loading
import TouchGame.Proofs.Check.Widening
import TouchGame.Proofs.Play.Growth
import TouchGame.Proofs.Play.Start

/-!
# When a search fails

A rule-set that passes the check can be searched, but the search may fail where its arithmetic does: the
check puts no bound to what counters start at, are changed by and compared with, and a numeral may stand
for an infinity. That is the only way in which it fails, and it does not fail in a rule-set of moderate
numbers.

* `vetted_of_accepts` : what loading and the check make sure of.
* `prospect_settled` : a search for a walk fails in arithmetic alone.
* `explore_settles` : so does the report, and not in a rule-set of moderate numbers.
* `endless_fails` : an accepted rule-set whose report fails.
-/

namespace TouchGame

/-! ## Waits -/

/-- A number that is read as a double is one. -/
theorem Decode.real_ok {value : Json} {n : Number} (h : real value = .ok n) : ∃ x, n = .real x := by
  have hor {cause : Mismatch} {x : Option Binary64} (h : realOr cause x = .ok n) :
      ∃ y, n = .real y := by
    cases x with
    | some y =>
      cases h
      exact ⟨y, rfl⟩
    | none => cases h
  unfold real at h
  split at h
  · exact hor h
  · cases h
    exact ⟨_, rfl⟩
  · cases h
    exact ⟨_, rfl⟩
  · unfold spelled at h
    split at h
    · exact hor h
    · cases h
  · cases h

theorem Decode.optionalNumber_ok {fields : Json.Fields} {key : Key} {read : Json → Decoded Number}
    {found : Option Number} (h : optionalNumber fields key read = .ok found) :
    ∀ n, found = some n → ∃ value, read value = .ok n := by
  intro n hn
  subst hn
  unfold optionalNumber at h
  split at h
  · cases h
  · simp only [Decoded.map_eq_ok_iff, Decoded.within_ok_iff] at h
    obtain ⟨m, hm, heq⟩ := h
    cases heq
    exact ⟨_, hm⟩
  · cases h

namespace Play

theorem waitOf_hasReal {seconds interval : Option Number}
    (h : ∀ n, seconds = some n ∨ interval = some n → ∃ x, n = .real x) :
    (waitOf seconds interval).HasReal := by
  have hnone : State.noTime.HasReal := Number.real_hasReal _
  unfold waitOf
  split
  · rename_i n hn
    split
    · exact hnone
    · obtain ⟨x, rfl⟩ := h n (Option.or_eq_some_iff.mp hn |>.imp id And.right)
      exact Number.real_hasReal x
  · exact hnone

end Play

namespace Condition

theorem decodeKnown?_wait {fields : Json.Fields} {word : String} {read : Decoded Condition}
    {type : Slot String} {seconds interval : Option Number} (h : decodeKnown? fields word = some read)
    (hc : read = .ok (.time type seconds interval)) : (Play.waitOf seconds interval).HasReal := by
  have hgives := Decoded.gives hc
  unfold decodeKnown? at h
  split at h
  all_goals cases h
  all_goals simp only [Decoded.seq_gives_iff, Decoded.map_gives_iff, reduceCtorEq, and_false,
    exists_false] at hgives
  obtain ⟨_, _, _, hseconds, _, hinterval, heq⟩ := hgives
  cases heq
  refine Play.waitOf_hasReal fun n hn => ?_
  rcases hn with hn | hn
  · obtain ⟨value, hvalue⟩ := Decode.optionalNumber_ok hseconds n hn
    exact Decode.real_ok hvalue
  · obtain ⟨value, hvalue⟩ := Decode.optionalNumber_ok hinterval n hn
    exact Decode.real_ok hvalue

theorem decode_wait {value : Json} {type : Slot String} {seconds interval : Option Number}
    (h : decode value = .ok (.time type seconds interval)) :
    (Play.waitOf seconds interval).HasReal := by
  obtain ⟨fields, -, ⟨word, -, hread⟩ | ⟨extras, heq, -, -⟩⟩ := decode_cases h
  · exact decodeKnown?_wait hread rfl
  · cases heq

end Condition

namespace Play

open Check

variable {bits p : Nat} {settings : Settings} {g : Game} {w : Rule} {v : Vocabulary}

/-- No type of an accepted rule-set's action is a list or an object, and what is read as seconds is a
double. -/
theorem vetted_of_accepts {document : Json} {findings : List Finding}
    (hload : Check.load document = .ok g) (h : validate v g = .ok findings)
    (haccepts : accepts findings = true) : Vetted g where
  types r hr a ha := by
    have hsupported :=
      supportsGame_of_findings refusesTypes_notCritical (Quiet.of_accepts h haccepts).fieldwise
    exact typeFault?_of_hasAction (hsupported.actions r hr a ha).own
  waits r hr type seconds interval hc := by
    obtain ⟨item, hitem⟩ := Game.decode_rules (decode_of_load hload) r hr
    obtain ⟨value, hvalue⟩ := Rule.decode_conditions hitem _ hc
    exact Condition.decode_wait hvalue

/-! ## Walks -/

theorem initial_held (hm : Moderate bits settings g) :
    (Trail.start (.initial g)).Held (bits + 54) where
  state := by
    intro id
    change ((State.initial g).counter id).Within (bits + 54)
    rw [initial_counter]
    refine Number.Within.mono (Nat.le_add_right _ _) (getD_within zero_held fun n hn => ?_)
    obtain ⟨c, hc, rfl⟩ := Option.map_eq_some_iff.mp hn
    exact hm.initial c (List.mem_reverse.mp (List.mem_of_find?_eq_some hc))
  taps := Nat.zero_le _
  longest := Number.real_hasReal _

theorem digits_le {count : Nat} (hm : Moderate bits settings g) (hw : w ∈ g.rulesFiring "success")
    (hcount : count ≤ w.conditions.length) :
    bits + 54 + count * digitsPerCondition bits + bits ≤ 1022 := by
  have hall := hm.digits w hw
  have hsome := Nat.mul_le_mul_right (3 * bits + 2) hcount
  rw [digitsPerCondition]
  omega

/-- What is said of a condition that does not hold can be said where the numbers are moderate. -/
theorem shortfall?_settled {t : Trail} {c : Condition} {setback : Setback} {p : Nat}
    (hp : Moderate bits settings g → p < 1024) (ht : Moderate bits settings g → t.Held p)
    (h : shortfall? t.state c = some setback) : Stall bits settings g setback := by
  unfold shortfall? at h
  split at h
  · split at h
    · rename_i counter _
      split at h
      · cases h
      · cases h
        have hwritten : Settled (Excess bits settings g) (fun _ => True)
            (arithmetic (t.state.counter counter).written) :=
          arithmetic_returns fun hm => Number.Within.written (hp hm) ((ht hm).state counter)
        rw [shortfall]
        split
        · exact trivial
        · rename_i cause hcause
          rw [hcause] at hwritten
          exact hwritten
    · cases h
  · cases h

theorem trailFor_settled {conditions : List Condition} (hg : Vetted g)
    (hw : w ∈ g.rulesFiring "success") (hconditions : conditions.Sublist w.conditions) :
    Settled (Stall bits settings g)
      (fun u => Moderate bits settings g →
        u.Held (bits + 54 + conditions.length * digitsPerCondition bits))
      (trailFor g w conditions) := by
  rw [trailFor]
  refine (meetAll_settled hg hw (fun c hc => hconditions.subset hc) (fun hm => ?_) initial_held).bind
    fun t _ ht => ?_
  · have := digits_le hm hw hconditions.length_le
    exact ⟨Nat.le_refl _, by omega⟩
  · split
    · rename_i setback hfails
      obtain ⟨c, _, hc⟩ := List.exists_of_findSome?_eq_some hfails
      refine shortfall?_settled (fun hm => ?_) ht hc
      have := digits_le hm hw hconditions.length_le
      omega
    · exact ht

/-- The time of a walk and the time limit can be told in seconds. -/
def Told (settings : Settings) (walk : Walk) : Prop :=
  walk.time.HasReal ∧ settings.timeLimit.HasReal

theorem walkFor_settled {conditions : List Condition} (hg : Vetted g)
    (hw : w ∈ g.rulesFiring "success") (hconditions : conditions.Sublist w.conditions) :
    Settled (Stall bits settings g) (fun walk => Moderate bits settings g → Told settings walk)
      (walkFor settings g w conditions) := by
  rw [walkFor]
  refine (trailFor_settled hg hw hconditions).bind fun t _ ht => attempt_settled ?_
  rw [Trail.walk]
  have htapping : Settled (Excess bits settings g)
      (fun tapping => Moderate bits settings g → tapping.HasReal)
      (arithmetic ((Number.int t.taps).mul settings.secondsPerTap)) := arithmetic_settled fun hm => by
    have hdigits := digits_le hm hw hconditions.length_le
    exact hm.secondsPerTap.times (ht hm).taps (by omega)
  refine htapping.bind fun tapping _ htold hm => ⟨(htold hm).max (ht hm).longest, ?_⟩
  have hdigits := digits_le hm hw hconditions.length_le
  exact hm.timeLimit.hasReal (by omega)

theorem firstWalk_settled {reasons : List Blocker} {conditions : List Condition} (hg : Vetted g)
    (hw : w ∈ g.rulesFiring "success") (hconditions : ∀ c ∈ conditions, c ∈ w.conditions) :
    Settled (Stall bits settings g) (fun walk => Moderate bits settings g → Told settings walk)
      (firstWalk settings g w reasons conditions) := by
  induction conditions generalizing reasons with
  | nil => exact trivial
  | cons c rest ih =>
    have hwalk : Settled (Stall bits settings g)
        (fun walk => Moderate bits settings g → Told settings walk) (walkFor settings g w [c]) :=
      walkFor_settled hg hw (List.singleton_sublist.mpr (hconditions c List.mem_cons_self))
    rw [firstWalk]
    split
    · exact ih fun d hd => hconditions d (List.mem_cons_of_mem c hd)
    · exact hwalk

theorem reach_settled (hg : Vetted g) (hw : w ∈ g.rulesFiring "success") :
    Settled (Stall bits settings g) (fun walk => Moderate bits settings g → Told settings walk)
      (reach settings g w) := by
  rw [reach]
  split
  · exact firstWalk_settled hg hw fun _ hc => hc
  · exact walkFor_settled hg hw (List.Sublist.refl _)

/-! ## Prospects -/

theorem firstReached_settled {reasons : List String} {rules : List Rule} (hg : Vetted g)
    (hrules : ∀ w ∈ rules, w ∈ g.rulesFiring "success") :
    Settled (Excess bits settings g)
      (fun found => ∀ walk, found = .ok walk → Moderate bits settings g → Told settings walk)
      (firstReached settings g reasons rules) := by
  induction rules generalizing reasons with
  | nil =>
    intro walk h
    cases h
  | cons w rest ih =>
    have hreach : Settled (Stall bits settings g)
        (fun walk => Moderate bits settings g → Told settings walk) (reach settings g w) :=
      reach_settled hg (hrules w List.mem_cons_self)
    rw [firstReached]
    split
    · rename_i walk hwalk
      rw [hwalk] at hreach
      intro other h
      cases h
      exact hreach
    · exact ih fun q hq => hrules q (List.mem_cons_of_mem w hq)
    · rename_i cause hcause
      rw [hcause] at hreach
      exact hreach

theorem startsTooHigh_settled {counter : String} {comparison : Slot String} {value : Option Number}
    (hw : w ∈ g.rulesFiring "success") :
    Settled (Excess bits settings g) (fun _ => True) (startsTooHigh g counter comparison value) := by
  have hdigits : Moderate bits settings g → 2 * bits + 54 ≤ 1022 := fun hm => by
    have := hm.digits w hw
    omega
  unfold startsTooHigh
  dsimp only
  split
  · split
    · exact (firstMover?_settled (fun _ hr => hr) hdigits).bind fun _ _ _ => trivial
    · exact trivial
  · exact trivial

theorem lacking_settled {c : Condition} (hw : w ∈ g.rulesFiring "success") :
    Settled (Excess bits settings g) (fun _ => True) (lacking g w c) := by
  cases c with
  | counter name comparison value =>
    simp only [lacking]
    split
    · exact (startsTooHigh_settled hw).bind fun _ _ _ => trivial
    · exact trivial
  | touch target touchType =>
    simp only [lacking]
    split
    · split <;> exact trivial
    · exact trivial
  | _ => exact trivial

/-- **A search for a walk fails in arithmetic alone,** and not in a rule-set of moderate numbers. -/
theorem prospect_settled (hg : Vetted g) :
    Settled (Excess bits settings g)
      (fun found => ∀ walk, found = .reachable walk → Moderate bits settings g → Told settings walk)
      (prospect settings g) := by
  unfold prospect
  split
  · intro walk h
    cases h
  · refine (firstReached_settled hg fun _ hw => hw).bind fun found _ hfound => ?_
    split
    · intro walk h
      cases h
      exact hfound _ rfl
    · have hlacks : Settled (Excess bits settings g) (fun _ => True)
          (allLacking g (g.rulesFiring "success")) := by
        refine (Settled.mapM fun w hw => ?_).bind fun _ _ _ => trivial
        exact (Settled.mapM fun c _ => lacking_settled hw).bind fun _ _ _ => trivial
      refine hlacks.bind fun lacks _ _ => ?_
      intro walk h
      cases h

/-! ## Reports -/

theorem issuesOf_settled {found : Prospect}
    (h : ∀ walk, found = .reachable walk → Moderate bits settings g → Told settings walk) :
    Settled (Excess bits settings g) (fun _ => True) (issuesOf settings g found) := by
  cases found with
  | reachable walk =>
    rw [issuesOf]
    split
    · refine (arithmetic_returns fun hm => (h walk rfl hm).1.fixedOne).bind fun _ _ _ => ?_
      exact (arithmetic_returns fun hm => (h walk rfl hm).2.general).bind fun _ _ _ => trivial
    · exact trivial
  | blocked reasons => exact trivial

theorem prospectText_settled {found : Prospect}
    (h : ∀ walk, found = .reachable walk → Moderate bits settings g → Told settings walk) :
    Settled (Excess bits settings g) (fun _ => True) (prospectText found) := by
  cases found with
  | reachable walk =>
    exact (arithmetic_returns fun hm => (h walk rfl hm).1.fixedOne).bind fun _ _ _ => trivial
  | blocked reasons => exact trivial

theorem explore_settled (hg : Vetted g) :
    Settled (Excess bits settings g) (fun _ => True) (explore settings g) := by
  rw [explore]
  refine (prospect_settled hg).bind fun found _ hfound => ?_
  refine (issuesOf_settled hfound).bind fun issues _ _ => ?_
  have hreasoning : Settled (Excess bits settings g) (fun _ => True)
      (reasoningOf found (clashes g) issues) := (prospectText_settled hfound).bind fun _ _ _ => trivial
  exact hreasoning.bind fun _ _ _ => trivial

/-- **An accepted rule-set has a report, unless arithmetic fails; and that does not fail where the numbers
are moderate.** -/
theorem explore_settles {document : Json} {findings : List Finding}
    (hload : Check.load document = .ok g) (h : validate v g = .ok findings)
    (haccepts : accepts findings = true) (settings : Settings) :
    (∃ report, explore settings g = .ok report) ∨
      (∃ cause, explore settings g = .error (.arithmetic cause)) ∧ ∀ bits, ¬ Moderate bits settings g := by
  have hsettled (bits : Nat) : Settled (Excess bits settings g) (fun _ => True) (explore settings g) :=
    explore_settled (vetted_of_accepts hload h haccepts)
  cases hfound : explore settings g with
  | ok report => exact .inl ⟨report, rfl⟩
  | error fault =>
    simp only [hfound] at hsettled
    obtain ⟨⟨cause, rfl⟩, _⟩ := hsettled 0
    exact .inr ⟨⟨cause, rfl⟩, fun bits => (hsettled bits).2⟩

/-- A document of a game in which taps on a star count, and a number of them wins. -/
def tapDocument (goal : Json) : Json :=
  .obj [
    ("script", .obj [
      ("layout", .obj [("objects", .arr [.obj [
        ("objectId", .str "star"),
        ("position", .obj [("x", .num (.thousandths 500)), ("y", .num (.thousandths 500))])]])]),
      ("counters", .arr [.obj [("id", .str "score")]]),
      ("rules", .arr [
        .obj [("id", .str "tap"), ("targetObjectId", .str "star"),
          ("triggers", .obj [("conditions", .arr [
            .obj [("type", .str "touch"), ("touchType", .str "down")]])]),
          ("actions", .arr [.obj [("type", .str "counter"), ("counterName", .str "score"),
            ("operation", .str "increment")]])],
        .obj [("id", .str "win"),
          ("triggers", .obj [("conditions", .arr [
            .obj [("type", .str "counter"), ("counterName", .str "score"),
              ("comparison", .str "greaterOrEqual"), ("value", goal)]])]),
          ("actions", .arr [.obj [("type", .str "success")]])]])]),
    ("assetPlan", .obj [("objects", .arr [.obj [("id", .str "star")]])])]

theorem load_threeTaps : Check.load (tapDocument (.num 3)) = .ok threeTaps :=
  rfl

theorem moderate_threeTaps : Moderate 2 .standard threeTaps where
  secondsPerTap _ h := nomatch h
  timeLimit _ h := nomatch h
  initial c hc := by
    obtain rfl := List.mem_singleton.mp hc
    exact zero_held
  changes r hr name operation value ha := by
    rcases List.mem_cons.mp hr with rfl | hr
    · cases List.mem_singleton.mp ha
    · obtain rfl := List.mem_singleton.mp hr
      cases List.mem_singleton.mp ha
  actions := by decide
  strides r hr counter up change hnet hgoes := by
    refine stride_of_whole (fun a ha step hstep => ?_) hnet hgoes
    rcases List.mem_cons.mp hr with rfl | hr
    · obtain rfl := List.mem_singleton.mp ha
      simp only [changeOf?] at hstep
      split at hstep
      · exact ⟨1, (Option.some.inj hstep).symm⟩
      · cases hstep
    · obtain rfl := List.mem_singleton.mp hr
      obtain rfl := List.mem_singleton.mp ha
      cases hstep
  thresholds w hw name comparison value hc := by
    rcases List.mem_cons.mp (List.mem_of_mem_filter hw) with rfl | hw
    · cases List.mem_singleton.mp hc
    · obtain rfl := List.mem_singleton.mp hw
      cases List.mem_singleton.mp hc
      exact .int (by decide)
  digits := by decide

theorem explore_settles_threeTaps :
    ∃ findings, Check.load (tapDocument (.num 3)) = .ok threeTaps ∧
      validate .editor threeTaps = .ok findings ∧ accepts findings = true ∧
        Moderate 2 .standard threeTaps ∧ ∃ report, explore .standard threeTaps = .ok report := by
  have haccepts : (validate .editor threeTaps).toOption.map accepts = some true := by
    decide +kernel
  obtain ⟨findings, h, haccepts⟩ := Option.map_eq_some_iff.mp haccepts
  have hvalid := toOption_some_iff.mp h
  refine ⟨findings, load_threeTaps, hvalid, haccepts, moderate_threeTaps, ?_⟩
  rcases explore_settles load_threeTaps hvalid haccepts .standard with hreport | ⟨-, hnot⟩
  · exact hreport
  · exact absurd moderate_threeTaps (hnot 2)

/-- An endless number of taps wins: the numeral `inf` is read as a number, the check accepts it, and the
search asks how many taps it is away. -/
theorem endless_fails :
    ∃ g findings, Check.load (tapDocument (.str "inf")) = .ok g ∧
      validate .editor g = .ok findings ∧ accepts findings = true ∧
        explore .standard g = .error (.arithmetic .ceilingOfInfinity) := by
  have hfound : ((Check.load (tapDocument (.str "inf"))).toOption.bind fun g =>
      (validate .editor g).toOption.map fun findings => (accepts findings, explore .standard g)) =
        some (true, .error (.arithmetic .ceilingOfInfinity)) := by
    decide +kernel
  simp only [Option.bind_eq_some_iff, Option.map_eq_some_iff, toOption_some_iff,
    Prod.mk.injEq] at hfound
  obtain ⟨g, hload, findings, h, haccepts, hfails⟩ := hfound
  exact ⟨g, findings, hload, h, haccepts, hfails⟩

end Play

end TouchGame
