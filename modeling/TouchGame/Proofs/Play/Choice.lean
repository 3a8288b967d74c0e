import TouchGame.Proofs.Play.Gap
import TouchGame.Proofs.Play.Runs
import TouchGame.Proofs.Play.Trimming

/-!
# Conditions of which one is enough

A rule that waits for any of several conditions wins like as many rules that wait for one of them each: the
same walk is found, or none. The search over the conditions of the rule and the search over the rules try
the same attempts in the same order, and what is blocked leaves nothing behind. The rule also stands in the
list in which the search looks for rules to fire; but a rule that changes no counter and no flag is passed
over there, and so are the rules in its place.

* `Alternative` : a rule that is another one with a single condition.
* `Idle` : a rule that changes no counter and no flag.
* `SameLevers` : the search finds the same rules to fire; `walkFor_same` : then it finds the same walks.
* `firstOf` : the first of some attempts that is not blocked; both searches look for it.
* `explore_choice` : the rule can be replaced.
-/

namespace TouchGame.Play

variable {g g' : Game} {settings : Settings} {w w' r : Rule} {c : Condition} {a : Action} {t : Trail}

/-- A rule that is another one with a single condition. -/
structure Alternative (w : Rule) (c : Condition) (w' : Rule) : Prop where
  id : w'.id = w.id
  name : w'.name = w.name
  target : w'.targetObject = w.targetObject
  conditions : w'.conditions = [c]
  actions : w'.actions = w.actions

/-- No action of a rule's own changes a counter or a flag. -/
def Idle (w : Rule) : Prop :=
  ∀ a ∈ w.actions, a.kindText? ∉ [some "counter", some "setFlag", some "toggleFlag"]

/-! ## Levers -/

/-- Two rule-sets start alike, and a search finds the same rules to fire in both. -/
structure SameLevers (g g' : Game) : Prop where
  initial : State.initial g' = State.initial g
  mover : ∀ counter up, mover? g' counter up = mover? g counter up
  setter : ∀ counter accepts, setter? g' counter accepts = setter? g counter accepts
  switch : ∀ t flag on, bringFlag g' t flag on = bringFlag g t flag on

theorem bringCounter_congr (hmover : ∀ counter up, mover? g' counter up = mover? g counter up)
    (hsetter : ∀ counter accepts, setter? g' counter accepts = setter? g counter accepts) (t : Trail)
    (counter : String) (comparison : Slot String) (value : Option Number) :
    bringCounter g' t counter comparison value = bringCounter g t counter comparison value := by
  have hplan (compare : Comparison) (threshold distance : Number) :
      planCounter g' counter compare threshold distance =
        planCounter g counter compare threshold distance := by
    simp only [planCounter, hmover, hsetter]
  simp only [bringCounter, hplan]

section Walks

variable (h : SameLevers g g')
include h

variable (hid : w'.id = w.id) (htarget : w'.targetObject = w.targetObject)
include hid htarget

theorem meet_same (t : Trail) (c : Condition) : meet g' w' t c = meet g w t c := by
  have hresolve := Rule.resolve_congr htarget
  cases c with
  | counter name comparison value => simp only [meet, bringCounter_congr h.mover h.setter]
  | flag name flagState => simp only [meet, h.switch]
  | touch target touchType => simp only [meet, hresolve, hid]
  | _ => rfl

theorem meetAll_same (conditions : List Condition) (t : Trail) :
    meetAll g' w' conditions t = meetAll g w conditions t := by
  induction conditions generalizing t with
  | nil => rfl
  | cons c rest ih => simp only [meetAll, meet_same h hid htarget, ih]

/-- **Where the levers are the same, so are the walks.** -/
theorem walkFor_same (conditions : List Condition) :
    walkFor settings g' w' conditions = walkFor settings g w conditions := by
  simp only [walkFor, trailFor, meetAll_same h hid htarget, h.initial]

end Walks

/-! ## Rules that change no counter -/

def setterIn? (counter : String) (accepts : Number → Bool) (r : Rule) : Option (Rule × Number) :=
  ((r.actions.filterMap (settingOf? counter)).find? accepts).map fun value => (r, value)

section Uncounted

variable {counter : String} (h : r.fires "counter" = false)
include h

theorem kindText?_uncounted (ha : a ∈ r.actions) : a.kindText? ≠ some "counter" := by
  have hkind := List.any_eq_false.mp h a ha
  rwa [beq_iff_eq] at hkind

theorem netChange_uncounted (up : Bool) :
    ∃ change, netChange r counter = .ok change ∧ goes up change = false := by
  have hnone : r.actions.filterMap (changeOf? counter) = [] := by
    refine List.filterMap_eq_nil_iff.mpr fun a ha => ?_
    cases a with
    | counter => exact absurd rfl (kindText?_uncounted h ha)
    | _ => rfl
  refine ⟨0, ?_, ?_⟩
  · rw [netChange, hnone]
    rfl
  · rw [goes]
    split <;> exact Number.lt_irrefl 0

theorem setterIn?_uncounted {accepts : Number → Bool} : setterIn? counter accepts r = none := by
  have hnone : r.actions.filterMap (settingOf? counter) = [] := by
    refine List.filterMap_eq_nil_iff.mpr fun a ha => ?_
    cases a with
    | counter => exact absurd rfl (kindText?_uncounted h ha)
    | _ => rfl
  rw [setterIn?, hnone]
  rfl

end Uncounted

/-! ## Idle rules -/

section Idle

variable {counter flag : String} {rest rest' before ws : List Rule}

theorem kindText?_idle (hw : Idle w) (ha : a ∈ w.actions) :
    a.kindText? ≠ some "counter" ∧ a.kindText? ≠ some "setFlag" ∧ a.kindText? ≠ some "toggleFlag" := by
  simpa [Idle] using hw a ha

theorem Idle.uncounted (hw : Idle w) : w.fires "counter" = false := by
  refine List.any_eq_false.mpr fun a ha => ?_
  rw [beq_iff_eq]
  exact (kindText?_idle hw ha).1

theorem flagName?_idle (hw : Idle w) (ha : a ∈ w.actions) : a.flagName? = none := by
  cases a with
  | setFlag => exact absurd rfl (kindText?_idle hw ha).2.1
  | toggleFlag => exact absurd rfl (kindText?_idle hw ha).2.2
  | _ => rfl

theorem flag_idle {s u : State} (hw : Idle w) (h : s.fire w = .ok u) : u.flag flag = s.flag flag := by
  refine flag_of_unturned (fun r hr a ha => ?_) (run_singleton h)
  obtain rfl := List.mem_singleton.mp hr
  rw [flagName?_idle hw ha]
  simp

/-- In the search for a rule that puts a flag into a position, an idle rule is fired and passed over. -/
theorem firstSwitch_idle {on : Bool} (hw : Idle w) (hflag : t.state.flag flag ≠ on) :
    firstSwitch t flag on (w :: rest) = (do
      let _ ← attempt (t.state.fire w)
      firstSwitch t flag on rest) := by
  rw [firstSwitch]
  cases hfire : t.state.fire w with
  | error fault => rfl
  | ok next =>
    have hkept : next.flag flag ≠ on := by rwa [flag_idle hw hfire]
    refine if_pos ?_
    rw [Bool.or_eq_true, bne_iff_ne]
    exact .inl hkept

end Idle

/-! ## Alternatives -/

namespace Alternative

variable (h : Alternative w c w')
include h

theorem fires (type : String) : w'.fires type = w.fires type := by
  rw [Rule.fires, Rule.fires, h.actions]

theorem idle (hw : Idle w) : Idle w' := by
  unfold Idle
  rw [h.actions]
  exact hw

theorem fire (s : State) : s.fire w' = s.fire w := by
  have hafter : State.after w' = State.after w :=
    funext fun s => funext fun a => after_congr h.target s a
  rw [State.fire, State.fire, h.actions, hafter]

theorem reach (hlevers : SameLevers g g') : reach settings g' w' = walkFor settings g w [c] := by
  rw [reach_single h.conditions, walkFor_same hlevers h.id h.target]

end Alternative

theorem ne_nil_of_alternatives {alternatives : List Rule} (hchoice : isChoice w = true)
    (h : List.Forall₂ (Alternative w) w.conditions alternatives) : alternatives ≠ [] := by
  rintro rfl
  rw [isChoice, List.forall₂_nil_right_iff.mp h] at hchoice
  simp at hchoice

/-- A rule is replaced in place by its alternatives, one for each of its conditions. -/
def Spread (w : Rule) (g g' : Game) : Prop :=
  ∃ before after alternatives, g.rules = before ++ w :: after ∧
    List.Forall₂ (Alternative w) w.conditions alternatives ∧
    g' = { g with rules := before ++ alternatives ++ after }

section Levers

variable {counter flag : String} {up on : Bool} {before after ws : List Rule}

theorem firstMover?_congr {rest rest' : List Rule}
    (h : firstMover? counter up rest = firstMover? counter up rest') :
    firstMover? counter up (before ++ rest) = firstMover? counter up (before ++ rest') := by
  induction before with
  | nil => exact h
  | cons r before ih => rw [List.cons_append, List.cons_append, firstMover?, firstMover?, ih]

theorem firstSwitch_congr {rest rest' : List Rule}
    (h : firstSwitch t flag on rest = firstSwitch t flag on rest') :
    firstSwitch t flag on (before ++ rest) = firstSwitch t flag on (before ++ rest') := by
  induction before with
  | nil => exact h
  | cons r before ih => rw [List.cons_append, List.cons_append, firstSwitch, firstSwitch, ih]

theorem firstSwitch_alternatives {rest : List Rule} (hidle : ∀ r ∈ ws, Idle r)
    (hfire : ∀ r ∈ ws, ∀ s : State, s.fire r = s.fire w) (hsome : ws ≠ [])
    (hflag : t.state.flag flag ≠ on) :
    firstSwitch t flag on (ws ++ rest) = (do
      let _ ← attempt (t.state.fire w)
      firstSwitch t flag on rest) := by
  induction ws with
  | nil => exact absurd rfl hsome
  | cons r ws ih =>
    rw [List.cons_append, firstSwitch_idle (hidle r List.mem_cons_self) hflag,
      hfire r List.mem_cons_self]
    by_cases hlast : ws = []
    · rw [hlast, List.nil_append]
    · rw [ih (fun q hq => hidle q (List.mem_cons_of_mem r hq))
        (fun q hq => hfire q (List.mem_cons_of_mem r hq)) hlast]
      cases attempt (t.state.fire w) <;> rfl

/-- **A rule that changes no counter and no flag is no lever,** and neither are its alternatives. -/
theorem Spread.sameLevers (h : Spread w g g') (hchoice : isChoice w = true) (hidle : Idle w) :
    SameLevers g g' := by
  obtain ⟨before, after, ws, hrules, hws, rfl⟩ := h
  have halternative (r : Rule) (hr : r ∈ ws) : ∃ c ∈ w.conditions, Alternative w c r :=
    exists_of_mem_related hws.flip hr
  have hidles (r : Rule) (hr : r ∈ ws) : Idle r := by
    obtain ⟨c, _, hr⟩ := halternative r hr
    exact hr.idle hidle
  have hnonempty : ws ≠ [] := ne_nil_of_alternatives hchoice hws
  refine ⟨rfl, fun counter up => ?_, fun counter accepts => ?_, fun t flag on => ?_⟩
  · have hpassed (passed : List Rule) (hp : ∀ r ∈ passed, Idle r) :
        firstMover? counter up (passed ++ after) = firstMover? counter up after :=
      firstMover?_append fun r hr => netChange_uncounted (hp r hr).uncounted up
    rw [mover?, mover?, hrules, List.append_assoc]
    refine firstMover?_congr ((hpassed ws hidles).trans (hpassed [w] ?_).symm)
    exact fun r hr => List.mem_singleton.mp hr ▸ hidle
  · have hpassed : ws.findSome? (setterIn? counter accepts) = none :=
      List.findSome?_eq_none_iff.mpr fun r hr => setterIn?_uncounted (hidles r hr).uncounted
    change (before ++ ws ++ after).findSome? (setterIn? counter accepts) =
      g.rules.findSome? (setterIn? counter accepts)
    rw [hrules, List.append_assoc, List.findSome?_append, List.findSome?_append, hpassed,
      List.findSome?_append, List.findSome?_cons, setterIn?_uncounted hidle.uncounted, Option.none_or]
  · rw [bringFlag, bringFlag, hrules, List.append_assoc]
    split
    · rfl
    · rename_i hflag
      rw [beq_iff_eq] at hflag
      refine firstSwitch_congr ?_
      rw [firstSwitch_idle hidle hflag, firstSwitch_alternatives hidles ?_ hnonempty hflag]
      intro r hr
      obtain ⟨c, _, hr⟩ := halternative r hr
      exact hr.fire

end Levers

/-! ## The first that is not blocked -/

section First

variable {α : Type}

/-- The first of some attempts that is not blocked, if there is one. -/
def firstOf : List (Attempt α) → Except Fault (Option α)
  | [] => .ok none
  | .ok a :: _ => .ok (some a)
  | .error (.blocked _) :: rest => firstOf rest
  | .error (.fault cause) :: _ => .error cause

theorem firstOf_append (first rest : List (Attempt α)) :
    firstOf (first ++ rest) = (do
      match ← firstOf first with
      | some a => return some a
      | none => firstOf rest) := by
  induction first with
  | nil => rfl
  | cons x first ih =>
    cases x with
    | ok a => rfl
    | error setback => cases setback with
      | blocked more => exact ih
      | fault cause => rfl

theorem firstOf_firstWalk (reasons : List Blocker) (conditions : List Condition) :
    firstOf [firstWalk settings g w reasons conditions] =
      firstOf (conditions.map fun c => walkFor settings g w [c]) := by
  induction conditions generalizing reasons with
  | nil => rfl
  | cons c rest ih =>
    rw [firstWalk, List.map_cons]
    cases walkFor settings g w [c] with
    | ok walk => rfl
    | error setback => cases setback with
      | blocked more => exact ih (reasons ++ more)
      | fault cause => rfl

theorem firstReached_firstOf (reasons : List String) (rules : List Rule) :
    (firstReached settings g reasons rules).map Except.toOption =
      firstOf (rules.map (reach settings g)) := by
  induction rules generalizing reasons with
  | nil => rfl
  | cons w rest ih =>
    rw [firstReached, List.map_cons]
    cases reach settings g w with
    | ok walk => rfl
    | error setback => cases setback with
      | blocked more => exact ih (reasons ++ [reasonsText more])
      | fault cause => rfl

theorem firstReached_matched {rules rules' : List Rule}
    (h : firstOf (rules'.map (reach settings g')) = firstOf (rules.map (reach settings g)))
    (reasons reasons' : List String) :
    Matched Eq (Matched (fun _ _ => True) Eq) (firstReached settings g reasons rules)
      (firstReached settings g' reasons' rules') := by
  rw [← firstReached_firstOf reasons', ← firstReached_firstOf reasons] at h
  generalize firstReached settings g reasons rules = found,
    firstReached settings g' reasons' rules' = found' at h ⊢
  match found, found' with
  | .error _, .error _ =>
    cases h
    exact .error rfl
  | .ok (.ok _), .ok (.ok _) =>
    cases h
    exact .ok (.ok rfl)
  | .ok (.error _), .ok (.error _) => exact .ok (.error trivial)
  | .ok (.ok _), .ok (.error _) => cases h
  | .ok (.error _), .ok (.ok _) => cases h
  | .ok _, .error _ => cases h
  | .error _, .ok _ => cases h

end First

/-! ## What rules lack -/

theorem lacking_same (h : SameLevers g g') (w w' : Rule) (c : Condition) :
    FailAlike (lacking g w c) (lacking g' w' c) := by
  cases c with
  | counter name comparison value =>
    have htooHigh (counter : String) : startsTooHigh g' counter comparison value =
        startsTooHigh g counter comparison value := by
      simp only [startsTooHigh, h.initial, h.mover, h.setter]
    rw [lacking, lacking]
    cases name.text? with
    | none => exact .ok trivial
    | some counter =>
      dsimp only
      rw [htooHigh]
      exact (FailAlike.refl _).bind fun _ _ _ => .ok trivial
  | touch target touchType =>
    obtain ⟨lacks, hlacks⟩ := lacking_touch g w target touchType
    obtain ⟨lacks', hlacks'⟩ := lacking_touch g' w' target touchType
    rw [hlacks, hlacks']
    exact .ok trivial
  | _ => exact .ok trivial

theorem lackingOf_same (h : SameLevers g g') (w : Rule) :
    FailAlike (lackingOf g w) (lackingOf g' w) := by
  have hconditions : FailAlike (w.conditions.mapM (lacking g w)) (w.conditions.mapM (lacking g' w)) :=
    .mapM_same (lacking_same h w w) w.conditions
  exact hconditions.bind fun _ _ _ => .ok trivial

/-! ## Prospects -/

theorem firstWalk_same (h : SameLevers g g') (reasons : List Blocker) (conditions : List Condition) :
    firstWalk settings g' w reasons conditions = firstWalk settings g w reasons conditions := by
  induction conditions generalizing reasons with
  | nil => rfl
  | cons c rest ih => simp only [firstWalk, walkFor_same h rfl rfl, ih]

theorem reach_same (h : SameLevers g g') (w : Rule) : reach settings g' w = reach settings g w := by
  rw [reach, reach, firstWalk_same h, walkFor_same h rfl rfl]

theorem prospect_of_winning (hsome : g.rulesFiring "success" ≠ []) :
    prospect settings g = (do
      match ← firstReached settings g [] (g.rulesFiring "success") with
      | .ok walk => return .reachable walk
      | .error reasons =>
        let lacks ← allLacking g (g.rulesFiring "success")
        return .blocked (lacks.map (·.message) ++ reasons).eraseDups) := by
  rw [prospect]
  split
  · rename_i hnone
    exact absurd hnone hsome
  · rfl

section Spread

variable (h : Spread w g g') (hlevers : SameLevers g g') (hwins : w.fires "success" = true)

include h hwins in
theorem Spread.winning : ∃ before after alternatives,
    g.rulesFiring "success" = before ++ w :: after ∧
      List.Forall₂ (Alternative w) w.conditions alternatives ∧
      g'.rulesFiring "success" = before ++ (alternatives ++ after) := by
  obtain ⟨before, after, ws, hrules, hws, rfl⟩ := h
  have hall : ws.filter (·.fires "success") = ws := by
    refine List.filter_eq_self.mpr fun r hr => ?_
    obtain ⟨c, _, hr⟩ := exists_of_mem_related hws.flip hr
    rw [hr.fires, hwins]
  refine ⟨before.filter (·.fires "success"), after.filter (·.fires "success"), ws, ?_, hws, ?_⟩
  · rw [Game.rulesFiring, hrules, List.filter_append, List.filter_cons, if_pos hwins]
  · change (before ++ ws ++ after).filter (·.fires "success") = _
    rw [List.append_assoc, List.filter_append, List.filter_append, hall]

include hlevers in
theorem reach_alternatives {conditions : List Condition} {alternatives : List Rule}
    (hws : List.Forall₂ (Alternative w) conditions alternatives) :
    alternatives.map (reach settings g') = conditions.map fun c => walkFor settings g w [c] := by
  induction hws with
  | nil => rfl
  | cons hfirst _ ih => rw [List.map_cons, List.map_cons, hfirst.reach hlevers, ih]

include hlevers in
theorem lacking_alternatives {conditions : List Condition} {alternatives : List Rule}
    (hws : List.Forall₂ (Alternative w) conditions alternatives) :
    FailAlike (conditions.mapM (lacking g w))
      (alternatives.mapM (lackingOf g')) := by
  have hitem (c : Condition) (r : Rule) (hr : Alternative w c r) :
      FailAlike (lacking g w c) (lackingOf g' r) := by
    have hsingle : lackingOf g' r = (lacking g' r c).map fun lacks => [lacks].flatten := by
      rw [lackingOf, hr.conditions, List.mapM_cons, List.mapM_nil]
      cases lacking g' r c <;> rfl
    rw [hsingle]
    exact (lacking_same hlevers w r c).map _
  exact .mapM hitem hws

include h hlevers hwins in
/-- **The attempts come to the same:** the search over the conditions stands for one over rules. -/
theorem Spread.firstOf_winning (hchoice : isChoice w = true) :
    firstOf ((g'.rulesFiring "success").map (reach settings g')) =
      firstOf ((g.rulesFiring "success").map (reach settings g)) := by
  obtain ⟨before, after, ws, hwinning, hws, hwinning'⟩ := h.winning hwins
  have hsame : reach settings g' = reach settings g := funext (reach_same hlevers)
  have hreach : reach settings g w = firstWalk settings g w [] w.conditions := if_pos hchoice
  have hinner : firstOf (ws.map (reach settings g)) = firstOf ([w].map (reach settings g)) := by
    rw [← hsame, reach_alternatives hlevers hws, hsame, List.map_singleton, hreach, firstOf_firstWalk]
  rw [hwinning, hwinning', hsame, List.append_cons, List.append_assoc]
  simp only [List.map_append, firstOf_append, hinner]

include h hlevers hwins in
theorem Spread.allLacking : FailAlike (Play.allLacking g (g.rulesFiring "success"))
    (Play.allLacking g' (g'.rulesFiring "success")) := by
  obtain ⟨before, after, ws, hwinning, hws, hwinning'⟩ := h.winning hwins
  have hothers (rules : List Rule) : FailAlike (rules.mapM (lackingOf g)) (rules.mapM (lackingOf g')) :=
    .mapM_same (lackingOf_same hlevers) rules
  have hsingle : [w].mapM (lackingOf g) =
      (w.conditions.mapM (lacking g w)).map fun lacks => [lacks.flatten] := by
    rw [List.mapM_cons, List.mapM_nil, lackingOf]
    cases w.conditions.mapM (lacking g w) <;> rfl
  have hinner : FailAlike ([w].mapM (lackingOf g)) (ws.mapM (lackingOf g')) := by
    rw [hsingle]
    exact ((lacking_alternatives hlevers hws).symm.map _).symm
  rw [hwinning, hwinning']
  exact allLacking_alike (.mapM_append (hothers before) (.mapM_append hinner (hothers after)))

include h hlevers hwins in
/-- **A search that wants one of the conditions fails alike, or finds the same walk, or none.** -/
theorem Spread.prospect (hchoice : isChoice w = true) :
    Matched Eq (ProspectLike .same) (prospect settings g) (Play.prospect settings g') := by
  obtain ⟨before, after, ws, hwinning, hws, hwinning'⟩ := h.winning hwins
  have hsome : g.rulesFiring "success" ≠ [] := by
    rw [hwinning]
    simp
  have hsome' : g'.rulesFiring "success" ≠ [] := by
    rw [hwinning']
    simp [ne_nil_of_alternatives hchoice hws]
  rw [prospect_of_winning hsome, prospect_of_winning hsome']
  refine (firstReached_matched (h.firstOf_winning hlevers hwins hchoice) [] []).bind
    fun found found' hfound => ?_
  cases hfound with
  | ok heq => exact .ok (heq ▸ .reachable (.refl _))
  | error => exact (h.allLacking hlevers hwins).bind fun _ _ _ => .ok (.blocked _ _)

end Spread

/-- **A choice of conditions is a choice of rules.** A rule that wins waits for any of two or more
conditions, and it changes no counter and no flag itself. Replace it in place by one rule for each of
its conditions. A search fails as before, or it says as before whether the game can be won, with as many
taps, in as many seconds, and by the same walk, move by move. -/
theorem explore_choice (h : Spread w g g') (hchoice : isChoice w = true)
    (hwins : w.fires "success" = true) (hidle : Idle w) :
    (explore settings g').map (fun report => (report.prospect.isReachable, report.prospect.tapCount,
        report.prospect.estimatedSeconds, report.prospect.walk?)) =
      (explore settings g).map (fun report => (report.prospect.isReachable, report.prospect.tapCount,
        report.prospect.estimatedSeconds, report.prospect.walk?)) :=
  explore_eq_of_prospects (h.prospect (h.sameLevers hchoice hidle) hwins hchoice)

/-- A rule that lets the player pass a gate. -/
def passage (operator : String) (conditions : List Condition) : Rule :=
  ⟨"pass", .empty, .value "gate", .value ⟨operator, conditions⟩, [.success none .empty]⟩

/-- A coin has been put in. -/
def paid : Condition := .counter (.value "coins") .empty (some 1)

/-- The gate has been opened. -/
def opened : Condition := .flag (.value "open") (.value "ON")

/-- A gate with a lever, and a slot for coins that the player has not got. -/
def gate (passages : List Rule) : Game where
  layout := [⟨"gate", ⟨.thousandths 500, .thousandths 500⟩, .empty⟩,
    ⟨"lever", ⟨.thousandths 200, .thousandths 800⟩, .empty⟩]
  counters := [⟨"coins", .empty, 0⟩]
  rules := passages ++ [
    ⟨"pull", .empty, .value "lever", .value ⟨"AND", [.touch .empty (.value "down")]⟩,
      [.setFlag (.value "open") (.value true)]⟩]
  objects := [⟨"gate", .empty, .empty, .empty, .empty, .empty⟩,
    ⟨"lever", .empty, .empty, .empty, .empty, .empty⟩]
  sounds := []
  music := .empty

theorem gate_spread :
    Spread (passage "OR" [paid, opened]) (gate [passage "OR" [paid, opened]])
      (gate [passage "AND" [paid], passage "AND" [opened]]) :=
  ⟨[], _, [passage "AND" [paid], passage "AND" [opened]], rfl,
    .cons ⟨rfl, rfl, rfl, rfl, rfl⟩ (.cons ⟨rfl, rfl, rfl, rfl, rfl⟩ .nil), rfl⟩

/-- There is no way to pay, but one to open the gate; either way two rules do for one. -/
theorem explore_choice_gate :
    isChoice (passage "OR" [paid, opened]) = true ∧ Idle (passage "OR" [paid, opened]) ∧
      (explore .standard (gate [passage "AND" [paid], passage "AND" [opened]])).map
          (fun report => (report.prospect.isReachable, report.prospect.tapCount,
            report.prospect.estimatedSeconds, report.prospect.walk?)) =
        (explore .standard (gate [passage "OR" [paid, opened]])).map
          (fun report => (report.prospect.isReachable, report.prospect.tapCount,
            report.prospect.estimatedSeconds, report.prospect.walk?)) ∧
      ∃ report, explore .standard (gate [passage "OR" [paid, opened]]) = .ok report ∧
        report.prospect.walk? =
          some ⟨[.touch .tap "lever" "Flag open ON"], 1, .thousandths 500⟩ := by
  have hidle : Idle (passage "OR" [paid, opened]) := by
    unfold Idle
    decide
  have hfound : (explore .standard (gate [passage "OR" [paid, opened]])).toOption.map
      (·.prospect.walk?) =
        some (some ⟨[.touch .tap "lever" "Flag open ON"], 1, .thousandths 500⟩) := by
    decide +kernel
  obtain ⟨report, hreport, hwalk⟩ := Option.map_eq_some_iff.mp hfound
  exact ⟨by decide, hidle, explore_choice gate_spread (by decide) (by decide) hidle, report,
    toOption_some_iff.mp hreport, hwalk⟩

end TouchGame.Play
