import TouchGame.Proofs.Play.Choice
import TouchGame.Proofs.Play.Obstacles

/-!
# Rules put behind the others

A search looks for rules to fire from the front of the list. Rules put behind all others that change no
counter are passed over there, and for a flag they are tried only where the search would be blocked without
them. So a trail that is found is found again. Attempts that were blocked may succeed now, or fail, and then
another walk is told; but what succeeds does not come to be blocked, and a game that could be won can be won.

* `Game.followedBy` : a rule-set with more rules behind its own.
* `meet_followedBy` : one condition is met as before; `trailFor_followedBy` : so are all of them.
* `reach_followedBy` : a rule that is reached is not blocked with more rules.
* `explore_followedBy` : a win is not lost.
-/

namespace TouchGame

/-- A rule-set with more rules behind its own. -/
def Game.followedBy (g : Game) (more : List Rule) : Game :=
  { g with rules := g.rules ++ more }

namespace Play

variable {g : Game} {more : List Rule} {settings : Settings} {w : Rule} {t u : Trail}
  {conditions : List Condition} {walk : Walk}

/-! ## Levers -/

section Levers

variable (hmore : ∀ r ∈ more, r.fires "counter" = false)
include hmore

theorem mover?_followedBy (counter : String) (up : Bool) :
    mover? (g.followedBy more) counter up = mover? g counter up := by
  have hpassed : firstMover? counter up (more ++ []) = firstMover? counter up [] :=
    firstMover?_append fun r hr => netChange_uncounted (hmore r hr) up
  rw [List.append_nil] at hpassed
  have hwhole : firstMover? counter up (g.rules ++ more) = firstMover? counter up (g.rules ++ []) :=
    firstMover?_congr hpassed
  rwa [List.append_nil] at hwhole

theorem setter?_followedBy (counter : String) (accepts : Number → Bool) :
    setter? (g.followedBy more) counter accepts = setter? g counter accepts := by
  have hpassed : more.findSome? (setterIn? counter accepts) = none :=
    List.findSome?_eq_none_iff.mpr fun r hr => setterIn?_uncounted (hmore r hr)
  change (g.rules ++ more).findSome? (setterIn? counter accepts) =
    g.rules.findSome? (setterIn? counter accepts)
  rw [List.findSome?_append, hpassed, Option.or_none]

end Levers

/-- A rule that is found for a flag is found in front of others. -/
theorem firstSwitch_front {flag : String} {on : Bool} {rules : List Rule}
    (h : firstSwitch t flag on rules = .ok u) : firstSwitch t flag on (rules ++ more) = .ok u := by
  induction rules with
  | nil => simp [firstSwitch] at h
  | cons r rest ih =>
    rw [firstSwitch, bind_ok_iff] at h
    obtain ⟨next, hfire, h⟩ := h
    rw [List.cons_append, firstSwitch, bind_ok_iff]
    refine ⟨next, hfire, ?_⟩
    split at h
    · rename_i hpassed
      rw [if_pos hpassed]
      exact ih h
    · rename_i hpassed
      rw [if_neg hpassed]
      cases hhandle : r.handle? with
      | none =>
        rw [hhandle] at h
        exact ih h
      | some object =>
        rw [hhandle] at h
        exact h

theorem bringFlag_followedBy {flag : String} {on : Bool} (h : bringFlag g t flag on = .ok u) :
    bringFlag (g.followedBy more) t flag on = .ok u := by
  rw [bringFlag] at h ⊢
  split at h
  · rename_i hflag
    rwa [if_pos hflag]
  · rename_i hflag
    rw [if_neg hflag]
    exact firstSwitch_front h

/-! ## Trails -/

section Trails

variable (hmore : ∀ r ∈ more, r.fires "counter" = false)
include hmore

theorem meet_followedBy {c : Condition} (h : meet g w t c = .ok u) :
    meet (g.followedBy more) w t c = .ok u := by
  cases c with
  | counter name comparison value =>
    simpa only [meet, bringCounter_congr (mover?_followedBy hmore) (setter?_followedBy hmore)] using h
  | flag name flagState =>
    rw [meet] at h ⊢
    cases hname : name.text? with
    | none => rwa [hname] at h
    | some flag =>
      rw [hname] at h
      exact bringFlag_followedBy h
  | _ => exact h

theorem meetAll_followedBy (h : meetAll g w conditions t = .ok u) :
    meetAll (g.followedBy more) w conditions t = .ok u := by
  induction conditions generalizing t with
  | nil => exact h
  | cons c rest ih =>
    rw [meetAll, bind_ok_iff] at h ⊢
    obtain ⟨next, hnext, h⟩ := h
    refine ⟨next, meet_followedBy hmore hnext, ?_⟩
    split at h
    · rename_i hwon
      rwa [if_pos hwon]
    · rename_i hwon
      rw [if_neg hwon]
      exact ih h

/-- **A trail that is found is found again.** -/
theorem trailFor_followedBy (h : trailFor g w conditions = .ok t) :
    trailFor (g.followedBy more) w conditions = .ok t := by
  rw [trailFor, bind_ok_iff] at h ⊢
  obtain ⟨u, hu, h⟩ := h
  exact ⟨u, meetAll_followedBy hmore hu, h⟩

theorem walkFor_followedBy (h : walkFor settings g w conditions = .ok walk) :
    walkFor settings (g.followedBy more) w conditions = .ok walk := by
  rw [walkFor, bind_ok_iff] at h ⊢
  obtain ⟨t, ht, h⟩ := h
  exact ⟨t, trailFor_followedBy hmore ht, h⟩

end Trails

/-! ## Prospects -/

theorem reach_followedBy (hmore : ∀ r ∈ more, r.fires "counter" = false)
    (h : reach settings g w = .ok walk) (why : List Blocker) :
    reach settings (g.followedBy more) w ≠ .error (.blocked why) := by
  intro hblocked
  have hagainst := reach_blocked hblocked
  rw [reach] at h
  rw [Against] at hagainst
  split at h
  · rename_i hchoice
    rw [if_pos hchoice] at hagainst
    obtain ⟨c, hc, hwalk⟩ := firstWalk_ok h
    obtain ⟨reason, _, hreason⟩ := exists_of_mem_related hagainst hc
    cases (walkFor_followedBy hmore hwalk).symm.trans hreason
  · rename_i hchoice
    rw [if_neg hchoice] at hagainst
    obtain ⟨reason, _, hreason⟩ := hagainst
    cases (walkFor_followedBy hmore h).symm.trans hreason

theorem rulesFiring_followedBy (type : String) :
    (g.followedBy more).rulesFiring type = g.rulesFiring type ++ more.filter (·.fires type) :=
  List.filter_append ..

/-- **One rule that is not blocked is enough,** and then the walk is one for a rule of the game's own. -/
theorem prospect_followedBy {found : Prospect} (hw : w ∈ g.rulesFiring "success")
    (hopen : ∀ why, reach settings (g.followedBy more) w ≠ .error (.blocked why))
    (hfound : prospect settings (g.followedBy more) = .ok found) :
    ∃ w' ∈ g.rulesFiring "success", ∃ walk, reach settings (g.followedBy more) w' = .ok walk ∧
      found = .reachable walk := by
  cases found with
  | blocked reasons =>
    have hwinning : w ∈ (g.followedBy more).rulesFiring "success" := by
      rw [rulesFiring_followedBy]
      exact List.mem_append_left _ hw
    obtain ⟨why, hwhy, _⟩ := (prospect_blocked hfound).2.2 w hwinning
    exact absurd hwhy (hopen why)
  | reachable walk =>
    obtain ⟨before, w', after, hrules, hbefore, hreach⟩ := prospect_reachable hfound
    refine ⟨w', ?_, walk, hreach, rfl⟩
    rw [rulesFiring_followedBy] at hrules
    -- were it one of the new rules, all of the old ones would be blocked
    rcases List.append_eq_append_iff.mp hrules with ⟨passed, hpassed, _⟩ | ⟨passed, hold, hpassed⟩
    · obtain ⟨why, hwhy⟩ := hbefore w (hpassed ▸ List.mem_append_left _ hw)
      exact absurd hwhy (hopen why)
    · cases passed with
      | nil =>
        rw [List.append_nil] at hold
        obtain ⟨why, hwhy⟩ := hbefore w (hold ▸ hw)
        exact absurd hwhy (hopen why)
      | cons first passed =>
        obtain ⟨rfl, _⟩ := List.cons.inj hpassed
        rw [hold]
        exact List.mem_append_right _ List.mem_cons_self

/-- **More rules lose no win.** A game can be won, and rules that change no counter by an action of their
own are put behind its rules. A search that does not fail finds that the game can be won, still by one of
the rules that won it before, though perhaps by another of them and along another walk. -/
theorem explore_followedBy {report report' : Report} (hmore : ∀ r ∈ more, r.fires "counter" = false)
    (h : explore settings g = .ok report) (hwon : report.prospect.isReachable = true)
    (h' : explore settings (g.followedBy more) = .ok report') :
    report'.prospect.isReachable = true ∧
      ∃ w ∈ g.rulesFiring "success", ∃ walk, reach settings (g.followedBy more) w = .ok walk ∧
        report'.prospect = .reachable walk := by
  have hfound := explore_prospect h
  cases hprospect : report.prospect with
  | blocked reasons =>
    rw [hprospect] at hwon
    cases hwon
  | reachable walk =>
    rw [hprospect] at hfound
    obtain ⟨before, w, after, hrules, _, hreach⟩ := prospect_reachable hfound
    have hw : w ∈ g.rulesFiring "success" := by simp [hrules]
    obtain ⟨w', hw', walk', hreach', hreachable⟩ :=
      prospect_followedBy hw (reach_followedBy hmore hreach) (explore_prospect h')
    refine ⟨?_, w', hw', walk', hreach', hreachable⟩
    rw [hreachable]
    rfl

/-- A game in the dark that a lit lamp wins, and a star that is caught. Nothing lights the lamp. -/
def darkness : Game where
  layout := [⟨"lamp", ⟨.thousandths 200, .thousandths 500⟩, .empty⟩,
    ⟨"star", ⟨.thousandths 800, .thousandths 200⟩, .empty⟩]
  counters := []
  rules := [
    ⟨"see", .empty, .empty, .value ⟨"AND", [.flag (.value "lit") (.value "ON")]⟩,
      [.success none .empty]⟩,
    ⟨"catch", .empty, .value "star", .value ⟨"AND", [.touch .empty (.value "down")]⟩,
      [.success none .empty]⟩]
  objects := [⟨"lamp", .empty, .empty, .empty, .empty, .empty⟩,
    ⟨"star", .empty, .empty, .empty, .empty, .empty⟩]
  sounds := []
  music := .empty

/-- Touching the lamp lights it, and hides the star. -/
def kindling : Rule :=
  ⟨"kindle", .empty, .value "lamp", .value ⟨"AND", [.touch .empty (.value "down")]⟩,
    [.setFlag (.value "lit") (.value true), .hide (.value "star") .empty none]⟩

/-- With a way to light the lamp the search no longer catches the star, but the game can be won. -/
theorem explore_followedBy_darkness :
    (∀ r ∈ [kindling], r.fires "counter" = false) ∧
      ∃ report report', explore .standard darkness = .ok report ∧
        report.prospect.walk? = some ⟨[.touch .tap "star" "Rule \"catch\" fires"], 1, .thousandths 500⟩ ∧
        explore .standard (darkness.followedBy [kindling]) = .ok report' ∧
        report'.prospect.walk? = some ⟨[.touch .tap "lamp" "Flag lit ON"], 1, .thousandths 500⟩ ∧
        report'.prospect.isReachable = true ∧
        ∃ w ∈ darkness.rulesFiring "success", ∃ walk,
          reach .standard (darkness.followedBy [kindling]) w = .ok walk ∧
            report'.prospect = .reachable walk := by
  have hidle : ∀ r ∈ [kindling], r.fires "counter" = false := by decide
  have hbefore : (explore .standard darkness).toOption.map
      (fun report => (report.prospect.isReachable, report.prospect.walk?)) =
        some (true, some ⟨[.touch .tap "star" "Rule \"catch\" fires"], 1, .thousandths 500⟩) := by
    decide +kernel
  have hbehind : (explore .standard (darkness.followedBy [kindling])).toOption.map (·.prospect.walk?) =
      some (some ⟨[.touch .tap "lamp" "Flag lit ON"], 1, .thousandths 500⟩) := by
    decide +kernel
  obtain ⟨report, hreport, hfound⟩ := Option.map_eq_some_iff.mp hbefore
  obtain ⟨report', hreport', hwalk'⟩ := Option.map_eq_some_iff.mp hbehind
  obtain ⟨hwon, hwalk⟩ := Prod.mk.inj hfound
  rw [toOption_some_iff] at hreport hreport'
  exact ⟨hidle, report, report', hreport, hwalk, hreport', hwalk',
    explore_followedBy hidle hreport hwon hreport'⟩

end Play

end TouchGame
