import TouchGame.Proofs.Play.Runs
import TouchGame.Proofs.Play.Trimming

/-!
# What stands in the way

A game that cannot be won is reported with reasons. An attempt to meet conditions is blocked for one
reason, that of the step at which it stops. A rule of which one condition is enough is blocked for as many
reasons as it has conditions, and their texts are told as one. The report has the text for every rule that
wins, each text once, so there is always something to tell.

* `SingleReason` : a setback for one reason; `trailFor_single` : an attempt has no other.
* `Against` : the reasons against a rule, by its conditions; `reach_blocked` : they are told.
* `firstReached_blocked` : a search that comes to nothing has tried every rule.
* `explore_blocked` : what a report says of a game that cannot be won.
-/

namespace TouchGame.Play

variable {g : Game} {settings : Settings} {w : Rule}

/-! ## Single reasons -/

def SingleReason : Setback → Prop
  | .blocked reasons => ∃ reason, reasons = [reason]
  | .fault _ => True

section Single

variable {counter : String} {threshold : Number}

abbrev BlockedOnce {α : Type} (x : Attempt α) : Prop :=
  Settled SingleReason (fun _ => True) x

theorem blocked_single {α : Type} (reason : Blocker) : BlockedOnce (blocked reason : Attempt α) :=
  ⟨reason, rfl⟩

theorem attempt_single {α : Type} (x : Except Fault α) : BlockedOnce (attempt x) := by
  cases x <;> exact trivial

theorem planCounter_single (compare : Comparison) (distance : Number) :
    BlockedOnce (planCounter g counter compare threshold distance) := by
  rw [planCounter]
  refine (attempt_single _).bind fun found _ _ => ?_
  split
  · refine (attempt_single _).bind fun _ _ _ => ?_
    exact (attempt_single _).bind fun _ _ _ => trivial
  · split
    · exact (attempt_single _).bind fun _ _ _ => trivial
    · exact blocked_single _

theorem fireTimes_single (plan : Plan) (object : String) (times : Nat) (t : Trail) :
    BlockedOnce (fireTimes plan object counter threshold times t) := by
  induction times generalizing t with
  | zero => exact trivial
  | succ times ih =>
    rw [fireTimes]
    split
    · exact blocked_single _
    · refine (attempt_single _).bind fun next _ _ => ?_
      dsimp only
      split
      · exact blocked_single _
      · exact trivial
      · exact ih _

theorem bringCounter_single (t : Trail) (comparison : Slot String) (value : Option Number) :
    BlockedOnce (bringCounter g t counter comparison value) := by
  simp only [bringCounter]
  split
  · exact blocked_single _
  · refine (attempt_single _).bind fun distance _ _ => ?_
    split
    · exact trivial
    · refine (planCounter_single _ _).bind fun plan _ _ => ?_
      split
      · exact blocked_single _
      · exact fireTimes_single plan _ _ t

theorem firstSwitch_single (t : Trail) (flag : String) (on : Bool) (rules : List Rule) :
    BlockedOnce (firstSwitch t flag on rules) := by
  induction rules with
  | nil => exact blocked_single _
  | cons r rest ih =>
    rw [firstSwitch]
    refine (attempt_single _).bind fun next _ _ => ?_
    split
    · exact ih
    · split
      · exact ih
      · split
        · exact blocked_single _
        · exact trivial

theorem meet_single (t : Trail) (c : Condition) : BlockedOnce (meet g w t c) := by
  cases c with
  | counter name comparison value =>
    rw [meet]
    split
    · exact bringCounter_single t comparison value
    · exact trivial
  | flag name flagState =>
    rw [meet]
    split
    · rw [bringFlag]
      split
      · exact trivial
      · exact firstSwitch_single t _ _ _
    · exact trivial
  | touch target touchType =>
    simp only [meet]
    split
    · exact blocked_single _
    · exact trivial
  | _ => exact trivial

theorem meetAll_single (conditions : List Condition) (t : Trail) :
    BlockedOnce (meetAll g w conditions t) := by
  induction conditions generalizing t with
  | nil => exact trivial
  | cons c rest ih =>
    rw [meetAll]
    refine (meet_single t c).bind fun next _ _ => ?_
    split
    · exact trivial
    · exact ih next

theorem shortfall?_single {s : State} {c : Condition} {setback : Setback}
    (h : shortfall? s c = some setback) : SingleReason setback := by
  cases c with
  | counter name comparison value =>
    rw [shortfall?] at h
    split at h
    · split at h
      · cases h
      · rename_i counter _ _
        rw [Option.some.injEq] at h
        rw [← h, shortfall]
        split
        · exact ⟨_, rfl⟩
        · exact trivial
    · cases h
  | _ => cases h

/-- **An attempt that is blocked has one reason:** that of the step at which it stops. -/
theorem trailFor_single (conditions : List Condition) : BlockedOnce (trailFor g w conditions) := by
  rw [trailFor]
  refine (meetAll_single conditions _).bind fun t _ _ => ?_
  split
  · rename_i setback hsetback
    obtain ⟨c, _, hc⟩ := List.exists_of_findSome?_eq_some hsetback
    exact shortfall?_single hc
  · exact trivial

theorem walkFor_single (conditions : List Condition) : BlockedOnce (walkFor settings g w conditions) :=
  (trailFor_single conditions).bind fun _ _ _ => attempt_single _

end Single

/-! ## Reasons against rules -/

/-- An attempt at some conditions of a rule is blocked for a reason. -/
def BlockedBy (settings : Settings) (g : Game) (w : Rule) (conditions : List Condition)
    (reason : Blocker) : Prop :=
  walkFor settings g w conditions = .error (.blocked [reason])

/-- The reasons against a rule: the one against all its conditions together, or, where one condition is
enough, one against each of them, in order. -/
def Against (settings : Settings) (g : Game) (w : Rule) (reasons : List Blocker) : Prop :=
  if isChoice w then List.Forall₂ (fun c => BlockedBy settings g w [c]) w.conditions reasons
  else ∃ reason, reasons = [reason] ∧ BlockedBy settings g w w.conditions reason

theorem walkFor_blocked {conditions : List Condition} {reasons : List Blocker}
    (h : walkFor settings g w conditions = .error (.blocked reasons)) :
    ∃ reason, reasons = [reason] ∧ BlockedBy settings g w conditions reason := by
  have hsingle : BlockedOnce (walkFor settings g w conditions) := walkFor_single conditions
  rw [h] at hsingle
  obtain ⟨reason, rfl⟩ := hsingle
  exact ⟨reason, rfl, h⟩

theorem firstWalk_blocked {conditions : List Condition} {earlier reasons : List Blocker}
    (h : firstWalk settings g w earlier conditions = .error (.blocked reasons)) :
    ∃ more, reasons = earlier ++ more ∧
      List.Forall₂ (fun c => BlockedBy settings g w [c]) conditions more := by
  induction conditions generalizing earlier with
  | nil =>
    rw [firstWalk] at h
    cases h
    exact ⟨[], (List.append_nil _).symm, .nil⟩
  | cons c rest ih =>
    rw [firstWalk] at h
    split at h
    · rename_i own hown
      obtain ⟨more, rfl, hmore⟩ := ih h
      obtain ⟨reason, rfl, hreason⟩ := walkFor_blocked hown
      exact ⟨reason :: more, List.append_assoc .., .cons hreason hmore⟩
    · rename_i hopen
      exact absurd h (hopen reasons)

theorem reach_blocked {reasons : List Blocker} (h : reach settings g w = .error (.blocked reasons)) :
    Against settings g w reasons := by
  rw [reach] at h
  rw [Against]
  split at h
  · rename_i hchoice
    rw [if_pos hchoice]
    obtain ⟨more, rfl, hmore⟩ := firstWalk_blocked h
    exact hmore
  · rename_i hchoice
    rw [if_neg hchoice]
    exact walkFor_blocked h

/-- **A search over rules that comes to nothing has tried every rule,** and has kept what it had. -/
theorem firstReached_blocked {earlier all : List String} {rules : List Rule}
    (h : firstReached settings g earlier rules = .ok (.error all)) :
    (∀ text ∈ earlier, text ∈ all) ∧
      ∀ w ∈ rules, ∃ reasons, reach settings g w = .error (.blocked reasons) ∧
        reasonsText reasons ∈ all := by
  induction rules generalizing earlier with
  | nil =>
    rw [firstReached] at h
    cases h
    exact ⟨fun _ htext => htext, fun _ hw => absurd hw List.not_mem_nil⟩
  | cons first rest ih =>
    rw [firstReached] at h
    split at h
    · cases h
    · rename_i own hown
      obtain ⟨hkept, hrest⟩ := ih h
      refine ⟨fun text htext => hkept text (List.mem_append_left _ htext), fun w hw => ?_⟩
      rcases List.mem_cons.mp hw with rfl | hw
      · exact ⟨own, hown, hkept _ (List.mem_append_right _ (List.mem_singleton_self _))⟩
      · exact hrest w hw
    · cases h

/-! ## Reports -/

/-- The reasons against a win; none where there is a walk. -/
def Prospect.reasons : Prospect → List String
  | .reachable _ => []
  | .blocked reasons => reasons

/-- What stands against a win: no text twice, and the text against every rule that wins. -/
theorem prospect_blocked {reasons : List String} (h : prospect settings g = .ok (.blocked reasons)) :
    reasons ≠ [] ∧ reasons.Nodup ∧
      ∀ w ∈ g.rulesFiring "success", ∃ why, reach settings g w = .error (.blocked why) ∧
        reasonsText why ∈ reasons := by
  rw [prospect] at h
  split at h
  · cases h
    exact ⟨List.cons_ne_nil _ _, List.nodup_singleton _, fun _ hw => by simp_all⟩
  · rename_i winning hsome
    rw [bind_ok_iff] at h
    obtain ⟨found, hfound, h⟩ := h
    cases found with
    | ok walk => cases h
    | error texts =>
      rw [bind_ok_iff] at h
      obtain ⟨lacks, _, h⟩ := h
      cases h
      have hall (w : Rule) (hw : w ∈ g.rulesFiring "success") :
          ∃ why, reach settings g w = .error (.blocked why) ∧
            reasonsText why ∈ (lacks.map (·.message) ++ texts).eraseDups := by
        obtain ⟨why, hwhy, htext⟩ := (firstReached_blocked hfound).2 w hw
        exact ⟨why, hwhy, List.mem_eraseDups.mpr (List.mem_append_right _ htext)⟩
      obtain ⟨w, hw⟩ := List.exists_mem_of_ne_nil _ hsome
      obtain ⟨_, _, htext⟩ := hall w hw
      exact ⟨List.ne_nil_of_mem htext, Check.nodup_eraseDups _, hall⟩

/-- **A report of a game that cannot be won is never silent.** It tells no walk and no taps, but reasons,
each of them once; and for every rule that wins the reasons for which the attempt at it was blocked. -/
theorem explore_blocked {report : Report} (h : explore settings g = .ok report)
    (hlost : report.prospect.isReachable = false) :
    report.prospect.walk? = none ∧ report.prospect.tapCount = -1 ∧
      report.prospect.reasons ≠ [] ∧ report.prospect.reasons.Nodup ∧
      ∀ w ∈ g.rulesFiring "success", ∃ why, reach settings g w = .error (.blocked why) ∧
        Against settings g w why ∧ reasonsText why ∈ report.prospect.reasons := by
  have hfound := explore_prospect h
  cases hprospect : report.prospect with
  | reachable walk =>
    rw [hprospect] at hlost
    cases hlost
  | blocked reasons =>
    rw [hprospect] at hfound
    obtain ⟨hsome, honce, hall⟩ := prospect_blocked hfound
    refine ⟨rfl, rfl, hsome, honce, fun w hw => ?_⟩
    obtain ⟨why, hwhy, htext⟩ := hall w hw
    exact ⟨why, hwhy, reach_blocked hwhy, htext⟩

def unlocking (id operator : String) (conditions : List Condition) : Rule :=
  ⟨id, .empty, .value "door", .value ⟨operator, conditions⟩, [.success none .empty]⟩

/-- A door that a code or a key opens, and nobody has the code or finds the key. -/
def lockedDoor : Game where
  layout := [⟨"door", ⟨.thousandths 500, .thousandths 500⟩, .empty⟩]
  counters := [⟨"digits", .empty, 0⟩]
  rules := [
    unlocking "open" "OR" [.counter (.value "digits") (.value "equals") (some 4),
      .flag (.value "key") (.value "ON")],
    unlocking "turn" "AND" [.touch .empty (.value "down"), .flag (.value "key") (.value "ON")],
    unlocking "wait" "AND" [.flag (.value "key") (.value "ON"), .time (.value "exact") (some 5) none]]
  objects := [⟨"door", .empty, .empty, .empty, .empty, .empty⟩]
  sounds := []
  music := .empty

/-- What the counter lacks, what stands against the two alternatives, and, once, what stands against the
two other rules. -/
def lockedDoorReasons : List String := [
  "Counter \"digits\" has no modifying rule",
  "No rule to increase counter \"digits\"; No player-triggered rule sets flag \"key\"",
  "No player-triggered rule sets flag \"key\""]

theorem explore_blocked_lockedDoor :
    ∃ report, explore .standard lockedDoor = .ok report ∧
      report.prospect = .blocked lockedDoorReasons ∧ report.prospect.isReachable = false ∧
      report.prospect.walk? = none ∧ report.prospect.tapCount = -1 ∧
      report.prospect.reasons ≠ [] ∧ report.prospect.reasons.Nodup ∧
      ∀ w ∈ lockedDoor.rulesFiring "success", ∃ why,
        reach .standard lockedDoor w = .error (.blocked why) ∧
          Against .standard lockedDoor w why ∧ reasonsText why ∈ report.prospect.reasons := by
  have hfound : (explore .standard lockedDoor).toOption.map (·.prospect) =
      some (.blocked lockedDoorReasons) := by
    decide +kernel
  obtain ⟨report, hreport, hblocked⟩ := Option.map_eq_some_iff.mp hfound
  have hlost : report.prospect.isReachable = false := by rw [hblocked]; rfl
  have h := toOption_some_iff.mp hreport
  exact ⟨report, h, hblocked, hlost, explore_blocked h hlost⟩

end TouchGame.Play
