import TouchGame.Play.Report
import TouchGame.Proofs.Results

/-!
# Replaying a walk

The walk of a report can be replayed: from the initial state there is a state behind every move, and
each follows from the one before it by waiting, by a touch that the driven rule waits for, or by
firing a rule whose object is in sight. No state on the way is lost, and at the end the counters
stand where the driven conditions want them.

* `Follows` : how a state follows another one by a move.
* `Replay` : states for a list of moves, and the rules that the moves fire.
* `Retraced` : the invariant of a trail; every step of the search keeps it.
* `explore_replays` : the walk of a report has a replay.
-/

namespace TouchGame.Play

variable {g : Game} {w r : Rule} {driven : List Condition} {settings : Settings}

/-! ## Attempts -/

@[simp] theorem attempt_ok {α : Type} {x : Except Fault α} {a : α} :
    attempt x = .ok a ↔ x = .ok a :=
  mapError_ok_iff

@[simp] theorem blocked_ne_ok {α : Type} {reason : Blocker} {a : α} :
    (blocked reason : Attempt α) ≠ .ok a := by
  simp [blocked]

/-! ## Replays -/

def Move.isTouch : Move → Bool
  | .touch .. => true
  | .wait .. => false

/-- How a state follows another one by a move while some conditions of a rule are driven, and the rule
that the move fires, if it fires one. -/
inductive Follows (g : Game) (w : Rule) (driven : List Condition) :
    State → Move → Option Rule → State → Prop
  /-- Waiting changes nothing. -/
  | wait {s : State} {seconds : Number} {result : String} :
      Follows g w driven s (.wait seconds result) none s
  /-- A touch that a driven condition waits for changes nothing, and its target is in sight. -/
  | touch {s : State} {target touchType : Slot String} {result : String}
      (waits : .touch target touchType ∈ driven)
      (inSight : ∀ object, (w.resolve target).text? = some object → s.isHidden object = false) :
      Follows g w driven s (.touch .tap ((w.resolve target).textOr "stage") result) none s
  /-- A rule fires by its object, which is in sight. -/
  | fire {s next : State} {r : Rule} {object result : String}
      (member : r ∈ g.rules) (handle : r.handle? = some object)
      (inSight : s.isHidden object = false) (fires : s.fire r = .ok next) :
      Follows g w driven s (.touch r.gesture object result) (some r) next

/-- States for a list of moves, one more than there are moves, and the rules that the moves fire: the
first state is initial, each of the others follows from the one before it, and none is lost. -/
structure Replay (g : Game) (w : Rule) (driven : List Condition) (moves : List Move)
    (fired : List (Option Rule)) (states : List State) : Prop where
  aligned : states.length = moves.length + 1
  paired : fired.length = moves.length
  starts : states[0]? = some (.initial g)
  follows : ∀ (i : Nat) (s next : State) (m : Move) (r? : Option Rule), states[i]? = some s →
    moves[i]? = some m → fired[i]? = some r? → states[i + 1]? = some next →
    Follows g w driven s m r? next
  notLost : ∀ s ∈ states, s.outcome ≠ .failure

namespace Replay

variable {moves : List Move} {fired : List (Option Rule)} {states : List State} {s next : State}
  {m : Move} {r? : Option Rule}

theorem nil : Replay g w driven [] [] [.initial g] where
  aligned := rfl
  paired := rfl
  starts := rfl
  follows := by simp
  notLost := by
    intro s hs
    rw [List.mem_singleton] at hs
    rw [hs]
    exact Outcome.noConfusion

theorem last_of_getLast? (h : Replay g w driven moves fired states)
    (hs : states.getLast? = some s) : states[moves.length]? = some s := by
  rw [List.getLast?_eq_getElem?, h.aligned] at hs
  exact hs

theorem at_move (h : Replay g w driven moves fired states) {i : Nat} (hi : i < moves.length) :
    ∃ s m r? next, states[i]? = some s ∧ moves[i]? = some m ∧ fired[i]? = some r? ∧
      states[i + 1]? = some next ∧ Follows g w driven s m r? next := by
  have hstates : i + 1 < states.length := by
    rw [h.aligned]
    omega
  have hfired : i < fired.length := h.paired ▸ hi
  have hs := List.getElem?_eq_getElem (Nat.lt_of_succ_lt hstates)
  have hm := List.getElem?_eq_getElem hi
  have hr := List.getElem?_eq_getElem hfired
  have hnext := List.getElem?_eq_getElem hstates
  exact ⟨_, _, _, _, hs, hm, hr, hnext, h.follows i _ _ _ _ hs hm hr hnext⟩

/-- One more move: a replay goes on with a state that follows from its last one. -/
theorem snoc (h : Replay g w driven moves fired states) (hs : states.getLast? = some s)
    (hf : Follows g w driven s m r? next) (hn : next.outcome ≠ .failure) :
    Replay g w driven (moves ++ [m]) (fired ++ [r?]) (states ++ [next]) where
  aligned := by simp [h.aligned]
  paired := by simp [h.paired]
  starts := by
    rw [List.getElem?_append_left (by rw [h.aligned]; omega)]
    exact h.starts
  follows := by
    intro i t u k q? ht hk hq hu
    have hi : i < moves.length + 1 := by
      have := (List.getElem?_eq_some_iff.mp hk).1
      simpa using this
    rw [List.getElem?_append_left (by rw [h.aligned]; exact hi)] at ht
    rcases Nat.lt_succ_iff_lt_or_eq.mp hi with hlt | rfl
    · rw [List.getElem?_append_left hlt] at hk
      rw [List.getElem?_append_left (by rw [h.paired]; exact hlt)] at hq
      rw [List.getElem?_append_left (by rw [h.aligned]; omega)] at hu
      exact h.follows i t u k q? ht hk hq hu
    · -- the new move is the last one, and it leads from the old last state to the new one
      have hst : s = t := Option.some.inj ((h.last_of_getLast? hs).symm.trans ht)
      have hmk : m = k := by simpa using hk
      have hrq : r? = q? := by
        rw [← h.paired] at hq
        simpa using hq
      have hnu : next = u := by
        rw [← h.aligned, List.getElem?_append_right (Nat.le_refl _)] at hu
        simpa using hu
      rw [← hst, ← hmk, ← hrq, ← hnu]
      exact hf
  notLost := by
    intro t ht
    rcases List.mem_append.mp ht with ht | ht
    · exact h.notLost t ht
    · rw [List.mem_singleton] at ht
      rw [ht]
      exact hn

end Replay

/-! ## Trails -/

/-- How many of some moves are taps or drags. -/
def touches (moves : List Move) : Nat :=
  moves.countP (·.isTouch)

/-- The invariant of a trail: its moves have a replay that ends in its state, and its taps are
counted. -/
def Retraced (g : Game) (w : Rule) (driven : List Condition) (t : Trail) : Prop :=
  ∃ fired states, Replay g w driven t.latest.reverse fired states ∧
    states.getLast? = some t.state ∧ t.taps = touches t.latest.reverse

namespace Retraced

variable {t : Trail}

theorem start : Retraced g w driven (.start (.initial g)) :=
  ⟨[], [.initial g], .nil, rfl, rfl⟩

theorem notLost (h : Retraced g w driven t) : t.state.outcome ≠ .failure := by
  obtain ⟨_, states, hr, hl, _⟩ := h
  exact hr.notLost _ (List.mem_of_getLast? hl)

theorem touch {next : State} {r? : Option Rule} {gesture : Gesture} {target result : String}
    (h : Retraced g w driven t) (hn : next.outcome ≠ .failure)
    (hf : Follows g w driven t.state (.touch gesture target result) r? next) :
    Retraced g w driven { t.touch gesture target result with state := next } := by
  obtain ⟨fired, states, hr, hl, ht⟩ := h
  refine ⟨fired ++ [r?], states ++ [next], ?_, List.getLast?_concat, ?_⟩
  · simp only [Trail.touch, List.reverse_cons]
    exact hr.snoc hl hf hn
  · simp [Trail.touch, touches, ht, Move.isTouch]

theorem wait {seconds : Number} {result : String} (h : Retraced g w driven t) :
    Retraced g w driven (t.wait seconds result) := by
  have hn := h.notLost
  obtain ⟨fired, states, hr, hl, ht⟩ := h
  refine ⟨fired ++ [none], states ++ [t.state], ?_, List.getLast?_concat, ?_⟩
  · simp only [Trail.wait, List.reverse_cons]
    exact hr.snoc hl .wait hn
  · simp [Trail.wait, touches, ht, Move.isTouch]

end Retraced

/-! ## Driving a counter -/

theorem firstMover?_mem {counter : String} {up : Bool} {change : Number} {rules : List Rule}
    (h : firstMover? counter up rules = .ok (some (r, change))) : r ∈ rules := by
  induction rules with
  | nil => simp [firstMover?] at h
  | cons first rest ih =>
    rw [firstMover?, bind_ok_iff] at h
    obtain ⟨net, _, h⟩ := h
    split at h
    · rw [pure_ok_iff] at h
      cases h
      exact List.mem_cons_self
    · exact List.mem_cons_of_mem _ (ih h)

theorem firstMover?_append {counter : String} {up : Bool} {passed rest : List Rule}
    (hpassed : ∀ r ∈ passed, ∃ change, netChange r counter = .ok change ∧ goes up change = false) :
    firstMover? counter up (passed ++ rest) = firstMover? counter up rest := by
  induction passed with
  | nil => rfl
  | cons r passed ih =>
    obtain ⟨change, hnet, hgoes⟩ := hpassed r List.mem_cons_self
    rw [List.cons_append, firstMover?, hnet]
    change (if goes up change = true then _ else _) = _
    rw [hgoes]
    exact ih fun q hq => hpassed q (List.mem_cons_of_mem r hq)

theorem setter?_mem {counter : String} {accepts : Number → Bool} {value : Number}
    (h : setter? g counter accepts = some (r, value)) : r ∈ g.rules := by
  obtain ⟨q, hq, h⟩ := List.exists_of_findSome?_eq_some h
  simp only [Option.map_eq_some_iff, Prod.mk.injEq] at h
  obtain ⟨_, _, rfl, _⟩ := h
  exact hq

theorem planCounter_mem {counter : String} {compare : Comparison} {threshold distance : Number}
    {plan : Plan} (h : planCounter g counter compare threshold distance = .ok plan) :
    plan.rule ∈ g.rules := by
  simp only [planCounter, bind_ok_iff, attempt_ok] at h
  obtain ⟨found, hfound, h⟩ := h
  split at h
  · simp only [bind_ok_iff, pure_ok_iff] at h
    obtain ⟨_, _, _, _, rfl⟩ := h
    exact firstMover?_mem hfound
  · split at h
    · rename_i hset
      simp only [bind_ok_iff, pure_ok_iff] at h
      obtain ⟨_, _, rfl⟩ := h
      exact setter?_mem hset
    · simp at h

/-- Firing a plan's rule any number of times keeps the invariant. -/
theorem Retraced.fireTimes {plan : Plan} {object counter : String} {threshold : Number}
    (hm : plan.rule ∈ g.rules) (hh : plan.rule.handle? = some object) {times : Nat} {t u : Trail}
    (h : Retraced g w driven t) (hu : fireTimes plan object counter threshold times t = .ok u) :
    Retraced g w driven u := by
  induction times generalizing t with
  | zero =>
    cases hu
    exact h
  | succ times ih =>
    rw [Play.fireTimes] at hu
    split at hu
    · simp at hu
    · rename_i hs
      rw [Bool.not_eq_true] at hs
      simp only [bind_ok_iff, attempt_ok] at hu
      obtain ⟨next, hfire, hu⟩ := hu
      have hf {result : String} : Follows g w driven t.state (.touch plan.rule.gesture object result)
          (some plan.rule) next := .fire hm hh hs hfire
      cases hout : next.outcome with
      | failure => simp [hout] at hu
      | success =>
        simp only [hout, pure_ok_iff] at hu
        rw [← hu]
        exact h.touch (by simp [hout]) hf
      | «open» =>
        simp only [hout] at hu
        exact ih (h.touch (by simp [hout]) hf) hu

theorem Retraced.bringCounter {counter : String} {comparison : Slot String} {value : Option Number}
    {t u : Trail} (h : Retraced g w driven t)
    (hu : bringCounter g t counter comparison value = .ok u) : Retraced g w driven u := by
  simp only [Play.bringCounter] at hu
  split at hu
  · simp at hu
  · simp only [bind_ok_iff, attempt_ok] at hu
    obtain ⟨distance, _, hu⟩ := hu
    split at hu
    · rw [pure_ok_iff] at hu
      rw [← hu]
      exact h
    · rw [bind_ok_iff] at hu
      obtain ⟨plan, hplan, hu⟩ := hu
      split at hu
      · simp at hu
      · rename_i hh
        exact h.fireTimes (planCounter_mem hplan) hh hu

/-! ## Driving a flag -/

theorem Retraced.firstSwitch {flag : String} {on : Bool} {rules : List Rule} {t u : Trail}
    (hm : ∀ r ∈ rules, r ∈ g.rules) (h : Retraced g w driven t)
    (hu : firstSwitch t flag on rules = .ok u) : Retraced g w driven u := by
  induction rules with
  | nil => simp [Play.firstSwitch] at hu
  | cons r rest ih =>
    have hrest : ∀ q ∈ rest, q ∈ g.rules := fun q hq => hm q (List.mem_cons_of_mem _ hq)
    simp only [Play.firstSwitch, bind_ok_iff, attempt_ok] at hu
    obtain ⟨next, hfire, hu⟩ := hu
    split at hu
    · exact ih hrest hu
    · rename_i hn
      simp only [Bool.or_eq_true, beq_iff_eq, not_or] at hn
      split at hu
      · exact ih hrest hu
      · rename_i object hh
        split at hu
        · simp at hu
        · rename_i hs
          rw [Bool.not_eq_true] at hs
          rw [pure_ok_iff] at hu
          rw [← hu]
          exact h.touch hn.2 (.fire (hm r List.mem_cons_self) hh hs hfire)

theorem Retraced.bringFlag {flag : String} {on : Bool} {t u : Trail} (h : Retraced g w driven t)
    (hu : bringFlag g t flag on = .ok u) : Retraced g w driven u := by
  rw [Play.bringFlag] at hu
  split at hu
  · cases hu
    exact h
  · exact h.firstSwitch (fun _ hr => hr) hu

/-! ## Driving conditions -/

/-- One condition of the driven ones keeps the invariant. -/
theorem Retraced.meet {c : Condition} {t u : Trail} (hc : c ∈ driven) (h : Retraced g w driven t)
    (hu : meet g w t c = .ok u) : Retraced g w driven u := by
  unfold Play.meet at hu
  split at hu
  · split at hu
    · exact h.bringCounter hu
    · cases hu
      exact h
  · split at hu
    · exact h.bringFlag hu
    · cases hu
      exact h
  · rename_i target touchType
    simp only at hu
    split at hu
    · simp at hu
    · rename_i hs
      cases hu
      refine h.touch h.notLost (.touch hc ?_)
      intro object ho
      simpa [ho, Option.filter] using hs
  · cases hu
    exact h.wait
  · cases hu
    exact h

theorem Retraced.meetAll {conditions : List Condition} {t u : Trail}
    (hc : ∀ c ∈ conditions, c ∈ driven) (h : Retraced g w driven t)
    (hu : meetAll g w conditions t = .ok u) : Retraced g w driven u := by
  induction conditions generalizing t with
  | nil =>
    cases hu
    exact h
  | cons c rest ih =>
    simp only [Play.meetAll, bind_ok_iff] at hu
    obtain ⟨next, hnext, hu⟩ := hu
    have hn : Retraced g w driven next := h.meet (hc c List.mem_cons_self) hnext
    split at hu
    · rw [pure_ok_iff] at hu
      rw [← hu]
      exact hn
    · exact ih (fun d hd => hc d (List.mem_cons_of_mem _ hd)) hn hu

/-- Every counter condition of a list that names its counter holds in a state. -/
def CountersHold (conditions : List Condition) (s : State) : Prop :=
  ∀ name comparison value counter, .counter name comparison value ∈ conditions →
    name.text? = some counter → counterHolds s counter comparison value = true

theorem countersHold_of_no_shortfall {conditions : List Condition} {s : State}
    (h : conditions.findSome? (shortfall? s) = none) : CountersHold conditions s := by
  intro name comparison value counter hc hn
  rw [List.findSome?_eq_none_iff] at h
  simpa [shortfall?, hn] using h _ hc

theorem trailFor_retraced {t : Trail} (h : trailFor g w driven = .ok t) :
    Retraced g w driven t ∧ CountersHold driven t.state := by
  simp only [trailFor, bind_ok_iff] at h
  obtain ⟨u, hu, h⟩ := h
  split at h
  · simp at h
  · rename_i hs
    rw [pure_ok_iff] at h
    rw [← h]
    exact ⟨Retraced.start.meetAll (fun _ hc => hc) hu, countersHold_of_no_shortfall hs⟩

/-! ## Driving rules -/

/-- What is driven for a rule: all its conditions, or one where one is enough. -/
def Drives (w : Rule) (driven : List Condition) : Prop :=
  if isChoice w then ∃ c ∈ w.conditions, driven = [c] else driven = w.conditions

theorem walkFor_ok {conditions : List Condition} {walk : Walk}
    (h : walkFor settings g w conditions = .ok walk) :
    ∃ t, trailFor g w conditions = .ok t ∧ t.walk settings.secondsPerTap = .ok walk := by
  simpa [walkFor, bind_ok_iff] using h

theorem firstWalk_ok {reasons : List Blocker} {conditions : List Condition} {walk : Walk}
    (h : firstWalk settings g w reasons conditions = .ok walk) :
    ∃ c ∈ conditions, walkFor settings g w [c] = .ok walk := by
  induction conditions generalizing reasons with
  | nil => simp [firstWalk] at h
  | cons c rest ih =>
    rw [firstWalk] at h
    split at h
    · obtain ⟨d, hd, h⟩ := ih h
      exact ⟨d, List.mem_cons_of_mem _ hd, h⟩
    · exact ⟨c, List.mem_cons_self, h⟩

theorem reach_ok {walk : Walk} (h : reach settings g w = .ok walk) :
    ∃ driven, Drives w driven ∧ ∃ t, trailFor g w driven = .ok t ∧
      t.walk settings.secondsPerTap = .ok walk := by
  rw [reach] at h
  split at h
  · rename_i hw
    obtain ⟨c, hc, h⟩ := firstWalk_ok h
    refine ⟨[c], ?_, walkFor_ok h⟩
    rw [Drives, if_pos hw]
    exact ⟨c, hc, rfl⟩
  · rename_i hw
    refine ⟨w.conditions, ?_, walkFor_ok h⟩
    rw [Drives, if_neg hw]

/-- The first rule of a list that is reached, behind others that are all blocked. -/
theorem firstReached_ok {reasons : List String} {rules : List Rule} {walk : Walk}
    (h : firstReached settings g reasons rules = .ok (.ok walk)) :
    ∃ before w after, rules = before ++ w :: after ∧
      (∀ b ∈ before, ∃ why, reach settings g b = .error (.blocked why)) ∧
      reach settings g w = .ok walk := by
  induction rules generalizing reasons with
  | nil => simp [firstReached] at h
  | cons first rest ih =>
    rw [firstReached] at h
    split at h
    · rename_i hfirst
      cases h
      exact ⟨[], first, rest, rfl, by simp, hfirst⟩
    · rename_i why hfirst
      obtain ⟨before, w, after, rfl, hbefore, hw⟩ := ih h
      refine ⟨first :: before, w, after, rfl, ?_, hw⟩
      rintro b (_ | ⟨_, hb⟩)
      · exact ⟨why, hfirst⟩
      · exact hbefore b hb
    · cases h

theorem prospect_reachable {walk : Walk} (h : prospect settings g = .ok (.reachable walk)) :
    ∃ before w after, g.rulesFiring "success" = before ++ w :: after ∧
      (∀ b ∈ before, ∃ why, reach settings g b = .error (.blocked why)) ∧
      reach settings g w = .ok walk := by
  rw [prospect] at h
  split at h
  · cases h
  · rw [bind_ok_iff] at h
    obtain ⟨found, hfound, h⟩ := h
    cases found with
    | ok walked =>
      cases h
      exact firstReached_ok hfound
    | error reasons =>
      rw [bind_ok_iff] at h
      obtain ⟨lacks, _, h⟩ := h
      cases h

theorem explore_prospect {report : Report} (h : explore settings g = .ok report) :
    prospect settings g = .ok report.prospect := by
  simp only [explore, bind_ok_iff, pure_ok_iff] at h
  obtain ⟨found, hfound, _, _, _, _, rfl⟩ := h
  exact hfound

theorem walk_moves {t : Trail} {secondsPerTap : Number} {walk : Walk}
    (h : t.walk secondsPerTap = .ok walk) : walk.moves = t.latest.reverse ∧ walk.taps = t.taps := by
  simp only [Trail.walk, bind_ok_iff, pure_ok_iff] at h
  obtain ⟨_, _, rfl⟩ := h
  exact ⟨rfl, rfl⟩

/-- **The walk of a report can be replayed.** Some rule that wins is driven along it: there is a
state behind every move, each following from the one before, none of them lost; the last one meets
the driven conditions on counters; and the taps that the report tells are those of the walk. -/
theorem explore_replays {report : Report} {walk : Walk} (h : explore settings g = .ok report)
    (hr : report.prospect = .reachable walk) :
    ∃ w ∈ g.rulesFiring "success", ∃ driven, Drives w driven ∧
      ∃ fired states, Replay g w driven walk.moves fired states ∧
        (∃ last, states.getLast? = some last ∧ CountersHold driven last) ∧
        walk.taps = touches walk.moves ∧ report.prospect.tapCount = walk.taps := by
  have hp := explore_prospect h
  rw [hr] at hp
  obtain ⟨before, w, after, hrules, _, hreach⟩ := prospect_reachable hp
  obtain ⟨driven, hdrives, t, htrail, hwalk⟩ := reach_ok hreach
  obtain ⟨hmoves, htaps⟩ := walk_moves hwalk
  obtain ⟨⟨fired, states, hreplay, hlast, hcount⟩, hcounters⟩ := trailFor_retraced htrail
  refine ⟨w, by simp [hrules], driven, hdrives, fired, states, ?_, ⟨_, hlast, hcounters⟩, ?_, ?_⟩
  · rw [hmoves]
    exact hreplay
  · rw [hmoves, htaps]
    exact hcount
  · rw [hr]
    rfl

/-- A game that three taps on a star win. -/
def threeTaps : Game where
  layout := [⟨"star", ⟨.thousandths 500, .thousandths 500⟩, .empty⟩]
  counters := [⟨"score", .empty, 0⟩]
  rules := [
    ⟨"tap", .empty, .value "star", .value ⟨"AND", [.touch .empty (.value "down")]⟩,
      [.counter (.value "score") (.value "increment") none]⟩,
    ⟨"win", .empty, .empty,
      .value ⟨"AND", [.counter (.value "score") (.value "greaterOrEqual") (some 3)]⟩,
      [.success none .empty]⟩]
  objects := [⟨"star", .empty, .empty, .empty, .empty, .empty⟩]
  sounds := []
  music := .empty

/-- The taps that win `threeTaps`. -/
def threeTapsWalk : Walk :=
  let tap : Move := .touch .tap "star" "Counter score +1"
  ⟨[tap, tap, tap], 3, .thousandths 1500⟩

theorem explore_threeTaps :
    ∃ report, explore .standard threeTaps = .ok report ∧ report.prospect = .reachable threeTapsWalk := by
  have hfound : (explore .standard threeTaps).toOption.map (·.prospect) =
      some (.reachable threeTapsWalk) := by
    decide +kernel
  obtain ⟨report, h, hr⟩ := Option.map_eq_some_iff.mp hfound
  exact ⟨report, toOption_some_iff.mp h, hr⟩

theorem explore_replays_threeTaps :
    ∃ report, explore .standard threeTaps = .ok report ∧ report.prospect = .reachable threeTapsWalk ∧
      ∃ w ∈ threeTaps.rulesFiring "success", ∃ driven, Drives w driven ∧
        ∃ fired states, Replay threeTaps w driven threeTapsWalk.moves fired states ∧
          (∃ last, states.getLast? = some last ∧ CountersHold driven last) ∧
          threeTapsWalk.taps = touches threeTapsWalk.moves ∧
          report.prospect.tapCount = threeTapsWalk.taps := by
  obtain ⟨report, h, hr⟩ := explore_threeTaps
  exact ⟨report, h, hr, explore_replays h hr⟩

end TouchGame.Play
