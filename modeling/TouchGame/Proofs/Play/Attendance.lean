import TouchGame.Check.Wiring
import TouchGame.Proofs.Play.Stuck

/-!
# Whether a player can make the taps

A search fires a rule by working on its object. A rule without an object of its own is worked on by one of
its conditions, a touch, a collision or a position, and these are what a player does. A rule with an object
of its own is tapped there, whatever it waits for; if it waits for none of the three, no tap of a player
sets it off. The check between rules knows such rules as not gated by the player; the search does not ask.

* `gated_or_own` : a rule that can be worked on is gated by the player or has an object of its own.
* `Unattended` : a rule that has an object of its own and is not gated by the player.
* `explore_attended_iff` : a player can make the taps of a walk if it fires no unattended rule.
* `sunrise_unattended` : a walk of which the player can make no tap.
-/

namespace TouchGame.Play

variable {g : Game} {w r : Rule} {driven : List Condition} {object : String}

/-! ## Handles -/

theorem isInput_of_handle? {c : Condition} (h : c.handle? = some object) :
    r.isInput .any c = true := by
  cases c with
  | touch | collision | position => rfl
  | _ => cases h

theorem isInput_of_touchesStage {c : Condition} (h : c.touchesStage = true) :
    r.isInput .any c = true := by
  cases c with
  | touch => rfl
  | _ => cases h

/-- **A rule that can be worked on** is gated by the player, or is worked on by its own object. -/
theorem gated_or_own (h : r.handle? = some object) :
    r.gatedByPlayer .any = true ∨ r.targetObject.text? = some object := by
  rw [Rule.handle?] at h
  split at h
  · rename_i hown
    rw [hown]
    exact .inr h
  · refine .inl (List.any_eq_true.mpr ?_)
    split at h
    · rename_i hcondition
      obtain ⟨c, hc, hhandle⟩ := List.exists_of_findSome?_eq_some hcondition
      exact ⟨c, hc, isInput_of_handle? hhandle⟩
    · split at h
      · rename_i hstage
        obtain ⟨c, hc, htouches⟩ := List.any_eq_true.mp hstage
        exact ⟨c, hc, isInput_of_touchesStage htouches⟩
      · cases h

/-- A rule has an object of its own, but no touch, collision or position among its conditions. -/
structure Unattended (r : Rule) : Prop where
  own : r.targetObject.text? ≠ none
  ungated : r.gatedByPlayer .any = false

/-! ## Moves -/

theorem Follows.touch_cases {s next : State} {m : Move} {r? : Option Rule}
    (h : Follows g w driven s m r? next) (hm : m.isTouch = true) :
    (∃ target touchType, .touch target touchType ∈ driven) ∨ ∃ r ∈ g.rules, r? = some r := by
  cases h with
  | wait => cases hm
  | touch waits => exact .inl ⟨_, _, waits⟩
  | fire member => exact .inr ⟨_, member, rfl⟩

theorem Follows.handle {s next : State} {gesture : Gesture} {result : String}
    (h : Follows g w driven s (.touch gesture object result) (some r) next) : r.handle? = some object := by
  cases h with
  | fire _ handle => exact handle

theorem Replay.handle_of_fired {moves : List Move} {fired : List (Option Rule)} {states : List State}
    {i : Nat} (h : Replay g w driven moves fired states) (hr : fired[i]? = some (some r)) :
    ∃ gesture object result, moves[i]? = some (.touch gesture object result) ∧
      r.handle? = some object := by
  have hi : i < moves.length := h.paired ▸ (List.getElem?_eq_some_iff.mp hr).1
  obtain ⟨s, m, r?, next, _, hm, hr?, _, hfollows⟩ := h.at_move hi
  obtain rfl := Option.some.inj (hr.symm.trans hr?)
  cases m with
  | wait => cases hfollows
  | touch gesture object result => exact ⟨gesture, object, result, hm, hfollows.handle⟩

/-! ## Reports -/

/-- **When a player can make the taps of a walk.** The walk of a report is that of the first winning rule
that is not blocked. Each of its taps and drags is one that a driven condition of this rule waits for, or
fires a rule that is gated by the player or is tapped on an object of its own. So all the rules that it fires
are gated by the player exactly if none of them is unattended. -/
theorem explore_attended_iff {settings : Settings} {report : Report} {walk : Walk}
    (h : explore settings g = .ok report) (hr : report.prospect = .reachable walk) :
    ∃ (before : List Rule) (w : Rule) (after : List Rule),
      g.rulesFiring "success" = before ++ w :: after ∧
      (∀ b ∈ before, ∃ why, reach settings g b = .error (.blocked why)) ∧
      reach settings g w = .ok walk ∧
      ∃ driven, Drives w driven ∧ ∃ fired states, Replay g w driven walk.moves fired states ∧
        (∀ (i : Nat) (r : Rule), fired[i]? = some (some r) → ∃ gesture object result,
          walk.moves[i]? = some (.touch gesture object result) ∧
            (r.gatedByPlayer .any = true ∨ r.targetObject.text? = some object)) ∧
        ((∀ r, some r ∈ fired → r.gatedByPlayer .any = true) ↔
          ∀ r, some r ∈ fired → ¬ Unattended r) := by
  have hp := explore_prospect h
  rw [hr] at hp
  obtain ⟨before, w, after, hrules, hbefore, hreach⟩ := prospect_reachable hp
  obtain ⟨driven, hdrives, t, htrail, hwalk⟩ := reach_ok hreach
  obtain ⟨fired, states, hreplay, _⟩ := (trailFor_retraced htrail).1
  rw [← (walk_moves hwalk).1] at hreplay
  have htaps (i : Nat) (r : Rule) (hfired : fired[i]? = some (some r)) :
      ∃ gesture object result, walk.moves[i]? = some (.touch gesture object result) ∧
        (r.gatedByPlayer .any = true ∨ r.targetObject.text? = some object) := by
    obtain ⟨gesture, object, result, hmove, hhandle⟩ := hreplay.handle_of_fired hfired
    exact ⟨gesture, object, result, hmove, gated_or_own hhandle⟩
  refine ⟨before, w, after, hrules, hbefore, hreach, driven, hdrives, fired, states, hreplay, htaps, ?_, ?_⟩
  · intro hgated r hfired hunattended
    exact Bool.false_ne_true (hunattended.ungated.symm.trans (hgated r hfired))
  · intro hattended r hfired
    obtain ⟨i, hi⟩ := List.getElem?_of_mem hfired
    obtain ⟨_, object, _, _, hgated | hown⟩ := htaps i r hi
    · exact hgated
    · by_contra hungated
      exact hattended r hfired ⟨by simp [hown], Bool.eq_false_iff.mpr hungated⟩

/-- A rule that wins once the bell has rung twice and it is light. -/
def morning : Rule :=
  ⟨"win", .empty, .empty, .value ⟨"AND", [
    .counter (.value "chimes") (.value "greaterOrEqual") (some 2),
    .flag (.value "light") (.value "ON")]⟩, [.success none .empty]⟩

def chime (waits : Condition) : Rule :=
  ⟨"chime", .empty, .value "bell", .value ⟨"AND", [waits]⟩,
    [.counter (.value "chimes") (.value "increment") none]⟩

/-- The sun rises after five seconds. -/
def dawn : Rule :=
  ⟨"dawn", .empty, .value "sun", .value ⟨"AND", [.time (.value "exact") (some (.thousandths 5000)) none]⟩,
    [.setFlag (.value "light") (.value true)]⟩

/-- A bell that waits for something, and a sun that rises by itself. -/
def steeple (waits : Condition) : Game where
  layout := [⟨"bell", ⟨.thousandths 200, .thousandths 500⟩, .empty⟩,
    ⟨"sun", ⟨.thousandths 800, .thousandths 500⟩, .empty⟩]
  counters := [⟨"chimes", .empty, 0⟩]
  rules := [chime waits, dawn, morning]
  objects := [⟨"bell", .empty, .empty, .empty, .empty, .empty⟩,
    ⟨"sun", .empty, .empty, .empty, .empty, .empty⟩]
  sounds := []
  music := .empty

/-- The player rings the bell. -/
def vigil : Game :=
  steeple (.touch .empty (.value "down"))

/-- The bell rings every second. The player has no part in it. -/
def sunrise : Game :=
  steeple (.time (.value "interval") none (some (.thousandths 1000)))

/-- Two taps on the bell and one on the sun. -/
def sunriseWalk : Walk :=
  let ring : Move := .touch .tap "bell" "Counter chimes +1"
  ⟨[ring, ring, .touch .tap "sun" "Flag light ON"], 3, .thousandths 1500⟩

theorem explore_steeple (g : Game)
    (h : (explore .standard g).toOption.map (·.prospect) = some (.reachable sunriseWalk)) :
    ∃ report, explore .standard g = .ok report ∧ report.prospect = .reachable sunriseWalk := by
  obtain ⟨report, h, hr⟩ := Option.map_eq_some_iff.mp h
  exact ⟨report, toOption_some_iff.mp h, hr⟩

/-- The winning rule of these games waits for no touch, so each tap of the walk fires a rule on its
handle. -/
theorem fired_steeple {waits : Condition} {driven : List Condition} {fired : List (Option Rule)}
    {states : List State} (hdrives : Drives morning driven)
    (hreplay : Replay (steeple waits) morning driven sunriseWalk.moves fired states) (i : Nat)
    {gesture : Gesture} {object result : String}
    (hi : sunriseWalk.moves[i]? = some (.touch gesture object result)) :
    ∃ r ∈ [chime waits, dawn, morning], fired[i]? = some (some r) ∧ r.handle? = some object := by
  have hdriven : driven = morning.conditions := by
    rwa [Drives, if_neg (by decide)] at hdrives
  obtain ⟨s, m, r?, next, _, hm, hr?, _, hfollows⟩ :=
    hreplay.at_move (List.getElem?_eq_some_iff.mp hi).1
  obtain rfl := Option.some.inj (hi.symm.trans hm)
  rcases hfollows.touch_cases rfl with ⟨_, _, hwaits⟩ | ⟨r, hr, rfl⟩
  · rw [hdriven] at hwaits
    simp [morning, Rule.conditions, Slot.get?] at hwaits
  · exact ⟨r, hr, hr?, hfollows.handle⟩

/-- The walk rings the bell, which is gated by the player, and makes the sun rise, which is not. -/
theorem explore_attended_iff_vigil :
    ∃ report, explore .standard vigil = .ok report ∧ report.prospect = .reachable sunriseWalk ∧
      ∃ (before : List Rule) (w : Rule) (after : List Rule),
        vigil.rulesFiring "success" = before ++ w :: after ∧
        (∀ b ∈ before, ∃ why, reach .standard vigil b = .error (.blocked why)) ∧
        reach .standard vigil w = .ok sunriseWalk ∧
        ∃ driven, Drives w driven ∧ ∃ fired states,
          Replay vigil w driven sunriseWalk.moves fired states ∧
          (∀ (i : Nat) (r : Rule), fired[i]? = some (some r) → ∃ gesture object result,
            sunriseWalk.moves[i]? = some (.touch gesture object result) ∧
              (r.gatedByPlayer .any = true ∨ r.targetObject.text? = some object)) ∧
          ((∀ r, some r ∈ fired → r.gatedByPlayer .any = true) ↔
            ∀ r, some r ∈ fired → ¬ Unattended r) ∧
          (∃ r, some r ∈ fired ∧ r.gatedByPlayer .any = true) ∧ ∃ r, some r ∈ fired ∧ Unattended r := by
  obtain ⟨report, h, hr⟩ := explore_steeple vigil (by decide +kernel)
  obtain ⟨before, w, after, hrules, hbefore, hreach, driven, hdrives, fired, states, hreplay, htaps, hiff⟩ :=
    explore_attended_iff h hr
  have hwinning : vigil.rulesFiring "success" = [morning] := rfl
  have hw : w = morning := by
    have hmem : w ∈ [morning] := hwinning ▸ hrules ▸ List.mem_append_right before List.mem_cons_self
    exact List.mem_singleton.mp hmem
  subst hw
  obtain ⟨rings, hrings, hfirst, hbell⟩ := fired_steeple hdrives hreplay 0 rfl
  obtain ⟨rises, hrises, hlast, hsun⟩ := fired_steeple hdrives hreplay 2 rfl
  simp only [List.mem_cons, List.not_mem_nil, or_false] at hrings hrises
  refine ⟨report, h, hr, before, morning, after, hrules, hbefore, hreach, driven, hdrives, fired, states,
    hreplay, htaps, hiff, ⟨rings, List.mem_of_getElem? hfirst, ?_⟩, rises, List.mem_of_getElem? hlast, ?_⟩
  · rcases hrings with rfl | rfl | rfl
    · rfl
    · exact absurd hbell (by decide)
    · cases hbell
  · rcases hrises with rfl | rfl | rfl
    · exact absurd hsun (by decide)
    · exact ⟨nofun, rfl⟩
    · cases hsun

/-- The report takes the three taps for a way to win; but the rule that wins waits for no touch, and
however the walk is replayed, each tap fires a rule that is not gated by the player. -/
theorem sunrise_unattended :
    ∃ report, explore .standard sunrise = .ok report ∧ report.prospect = .reachable sunriseWalk ∧
      sunrise.rulesFiring "success" = [morning] ∧
      ∀ driven, Drives morning driven → ∀ fired states,
        Replay sunrise morning driven sunriseWalk.moves fired states →
        ∀ i < 3, ∃ r, fired[i]? = some (some r) ∧ r.gatedByPlayer .any = false := by
  obtain ⟨report, h, hr⟩ := explore_steeple sunrise (by decide +kernel)
  refine ⟨report, h, hr, rfl, fun driven hdrives fired states hreplay i hi => ?_⟩
  have hungated : ∀ r ∈ sunrise.rules, r.gatedByPlayer .any = false := by decide +kernel
  have htouches : ∀ i < 3, ∃ gesture object result,
      sunriseWalk.moves[i]? = some (.touch gesture object result) := by
    intro i hi
    match i, hi with
    | 0, _ | 1, _ | 2, _ => exact ⟨_, _, _, rfl⟩
  obtain ⟨_, _, _, hmove⟩ := htouches i hi
  obtain ⟨r, hr, hfired, _⟩ := fired_steeple hdrives hreplay i hmove
  exact ⟨r, hfired, hungated r hr⟩

end TouchGame.Play
