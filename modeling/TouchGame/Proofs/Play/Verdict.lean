import TouchGame.Proofs.Play.Obstacles

/-!
# What settings decide

A search does not look at settings while it goes on: it comes to a trail or to reasons, and settings only
say how long the trail takes. A walk that takes too long is an issue, but a mere warning, and the only one.
So the settings change times and warnings, but not the verdict of a report.

* `trailOf`, `outlook` : the search for a trail, without settings.
* `prospect_eq` : a prospect is an outlook that settings have timed.
* `Report.SameVerdict` : two reports say the same of a game, but for times and warnings.
* `Report.Judged` : the summary of a report goes by whether the game can be won, and in how many taps.
* `explore_verdict` : settings do not change the verdict.
-/

namespace TouchGame.Play

variable {g : Game} {settings settings' : Settings} {w : Rule}

/-! ## Searches without settings -/

/-- The trail for the first condition of a list that can be met, or the reasons against each. -/
def firstTrail (g : Game) (w : Rule) (reasons : List Blocker) : List Condition → Attempt Trail
  | [] => .error (.blocked reasons)
  | c :: rest => match trailFor g w [c] with
    | .error (.blocked more) => firstTrail g w (reasons ++ more) rest
    | other => other

def trailOf (g : Game) (w : Rule) : Attempt Trail :=
  if isChoice w then firstTrail g w [] w.conditions else trailFor g w w.conditions

/-- The trail for the first rule of a list that can be reached, or the reasons of each. -/
def firstFound (g : Game) (reasons : List String) :
    List Rule → Except Fault (Except (List String) Trail)
  | [] => .ok (.error reasons)
  | w :: rest => match trailOf g w with
    | .ok t => .ok (.ok t)
    | .error (.blocked more) => firstFound g (reasons ++ [reasonsText more]) rest
    | .error (.fault cause) => .error cause

/-- The trail to a win, or what stands in the way. -/
def outlook (g : Game) : Except Fault (Except (List String) Trail) :=
  match g.rulesFiring "success" with
  | [] => .ok (.error [Blocker.noSuccessRule.message])
  | winning => do
    match ← firstFound g [] winning with
    | .ok t => return .ok t
    | .error reasons =>
      let lacks ← allLacking g winning
      return .error (lacks.map (·.message) ++ reasons).eraseDups

/-! ## Timing -/

def timed (settings : Settings) (t : Trail) : Attempt Walk :=
  attempt (t.walk settings.secondsPerTap)

theorem timed_unblocked (t : Trail) (reasons : List Blocker) :
    timed settings t ≠ .error (.blocked reasons) := by
  rw [timed, attempt]
  cases t.walk settings.secondsPerTap <;> exact nofun

theorem firstWalk_eq (reasons : List Blocker) (conditions : List Condition) :
    firstWalk settings g w reasons conditions =
      firstTrail g w reasons conditions >>= timed settings := by
  induction conditions generalizing reasons with
  | nil => rfl
  | cons c rest ih =>
    have hwalk : walkFor settings g w [c] = trailFor g w [c] >>= timed settings := rfl
    rw [firstWalk, firstTrail, hwalk]
    cases trailFor g w [c] with
    | error setback => cases setback with
      | blocked more => exact ih (reasons ++ more)
      | fault cause => rfl
    | ok t =>
      have htimed : (Except.ok t >>= timed settings) = timed settings t := rfl
      simp only [htimed]
      split
      · rename_i more hblocked
        exact absurd hblocked (timed_unblocked t more)
      · rfl

theorem reach_eq (w : Rule) : reach settings g w = trailOf g w >>= timed settings := by
  rw [reach, trailOf]
  split
  · exact firstWalk_eq [] w.conditions
  · rfl

/-- What a search has found: the walk of its trail, or its reasons. -/
def told (settings : Settings) : Except (List String) Trail → Except Fault (Except (List String) Walk)
  | .ok t => return .ok (← t.walk settings.secondsPerTap)
  | .error reasons => return .error reasons

theorem firstReached_eq (reasons : List String) (rules : List Rule) :
    firstReached settings g reasons rules = firstFound g reasons rules >>= told settings := by
  induction rules generalizing reasons with
  | nil => rfl
  | cons w rest ih =>
    rw [firstReached, firstFound, reach_eq]
    cases trailOf g w with
    | error setback => cases setback with
      | blocked more => exact ih _
      | fault cause => rfl
    | ok t =>
      have htimed : (Except.ok t >>= timed settings) = timed settings t := rfl
      have htold : (Except.ok (.ok t) >>= told settings) = told settings (.ok t) := rfl
      simp only [htimed, htold]
      rw [timed, told]
      cases t.walk settings.secondsPerTap <;> rfl

/-- A walk or reasons as a prospect. -/
def Prospect.of : Except (List String) Walk → Prospect
  | .ok walk => .reachable walk
  | .error reasons => .blocked reasons

/-- **Settings time what a search has found** without them. -/
theorem prospect_eq (settings : Settings) (g : Game) :
    prospect settings g = do return .of (← told settings (← outlook g)) := by
  rw [prospect, outlook]
  cases g.rulesFiring "success" with
  | nil => rfl
  | cons w rest =>
    dsimp only
    rw [firstReached_eq]
    cases firstFound g [] (w :: rest) with
    | error cause => rfl
    | ok found => cases found with
      | ok t =>
        change told settings (.ok t) >>= _ = told settings (.ok t) >>= _
        rw [told]
        cases t.walk settings.secondsPerTap <;> rfl
      | error reasons =>
        change allLacking g (w :: rest) >>= _ = (allLacking g (w :: rest) >>= _) >>= _
        cases allLacking g (w :: rest) <;> rfl

/-! ## Prospects -/

/-- Two prospects differ in times only: walks with the same moves, or the same reasons. -/
inductive Prospect.Retimed : Prospect → Prospect → Prop
  | reachable {walk walk' : Walk} (moves : walk'.moves = walk.moves) (taps : walk'.taps = walk.taps) :
      Retimed (.reachable walk) (.reachable walk')
  | blocked (reasons : List String) : Retimed (.blocked reasons) (.blocked reasons)

theorem Prospect.Retimed.same {found found' : Prospect} (h : found.Retimed found') :
    found'.isReachable = found.isReachable ∧ found'.tapCount = found.tapCount ∧
      found'.walk?.map (·.moves) = found.walk?.map (·.moves) ∧ found'.reasons = found.reasons := by
  cases h with
  | reachable moves taps => exact ⟨rfl, congrArg Int.ofNat taps, congrArg some moves, rfl⟩
  | blocked => exact ⟨rfl, rfl, rfl, rfl⟩

/-- **Settings change times only.** -/
theorem prospect_retimed {found found' : Prospect} (h : prospect settings g = .ok found)
    (h' : prospect settings' g = .ok found') : found.Retimed found' := by
  simp only [prospect_eq, bind_ok_iff, pure_ok_iff] at h h'
  obtain ⟨sought, hsought, result, htold, rfl⟩ := h
  obtain ⟨sought', hsought', result', htold', rfl⟩ := h'
  obtain rfl := Except.ok.inj (hsought.symm.trans hsought')
  cases sought with
  | error reasons =>
    cases htold
    cases htold'
    exact .blocked reasons
  | ok t =>
    simp only [told, bind_ok_iff, pure_ok_iff] at htold htold'
    obtain ⟨walk, hwalk, rfl⟩ := htold
    obtain ⟨walk', hwalk', rfl⟩ := htold'
    obtain ⟨hmoves, htaps⟩ := walk_moves hwalk
    obtain ⟨hmoves', htaps'⟩ := walk_moves hwalk'
    exact .reachable (hmoves'.trans hmoves.symm) (htaps'.trans htaps.symm)

/-! ## Summaries -/

namespace Report

/-- The summary of a report goes by whether the game can be won, and in how many taps; there is one issue
at most. -/
structure Judged (report : Report) : Prop where
  issues : report.issues.length ≤ 1
  playable : report.isPlayable = report.prospect.isReachable
  low : report.confidence = .low ↔ report.prospect.isReachable = false
  medium : report.confidence = .medium ↔
    report.prospect.isReachable = true ∧ 20 < report.prospect.tapCount
  high : report.confidence = .high ↔
    report.prospect.isReachable = true ∧ report.prospect.tapCount ≤ 20

/-- Two reports say the same of a game, but for times and warnings. -/
structure SameVerdict (report report' : Report) : Prop where
  reachable : report'.prospect.isReachable = report.prospect.isReachable
  taps : report'.prospect.tapCount = report.prospect.tapCount
  moves : report'.prospect.walk?.map (·.moves) = report.prospect.walk?.map (·.moves)
  reasons : report'.prospect.reasons = report.prospect.reasons
  clashes : report'.clashes = report.clashes
  playable : report'.isPlayable = report.isPlayable
  confidence : report'.confidence = report.confidence

end Report

theorem issuesOf_few {found : Prospect} {issues : List Issue} (h : issuesOf settings g found = .ok issues) :
    issues.length ≤ 1 ∧ (found.isReachable = true → errorCount issues = 0) := by
  cases found with
  | blocked reasons =>
    cases h
    refine ⟨?_, fun hreachable => nomatch hreachable⟩
    split <;> simp
  | reachable walk =>
    rw [issuesOf] at h
    split at h
    · simp only [bind_ok_iff, pure_ok_iff] at h
      obtain ⟨needed, _, limit, _, rfl⟩ := h
      exact ⟨Nat.le_refl 1, fun _ => rfl⟩
    · cases h
      exact ⟨Nat.zero_le 1, fun _ => rfl⟩

theorem explore_parts {report : Report} (h : explore settings g = .ok report) :
    issuesOf settings g report.prospect = .ok report.issues ∧ report.clashes = clashes g := by
  simp only [explore, bind_ok_iff, pure_ok_iff] at h
  obtain ⟨found, _, issues, hissues, _, _, rfl⟩ := h
  exact ⟨hissues, rfl⟩

/-- With few issues and, where the game can be won, no error, taps alone decide about a report that tells
of a win. -/
theorem confidence_eq {report : Report} (hissues : report.issues.length ≤ 1)
    (herrors : report.prospect.isReachable = true → errorCount report.issues = 0) :
    report.confidence = if report.prospect.isReachable then
      if 20 < report.prospect.tapCount then .medium else .high else .low := by
  have hfew : ¬ simpleIssues < report.issues.length := by
    rw [simpleIssues]
    omega
  rw [Report.confidence]
  cases hreachable : report.prospect.isReachable with
  | false => rfl
  | true =>
    by_cases htaps : 20 < report.prospect.tapCount <;>
      simp [herrors hreachable, hfew, simpleTaps, htaps]

/-- **The summary of every report** goes by whether the game can be won and in how many taps. -/
theorem explore_judged {report : Report} (h : explore settings g = .ok report) : report.Judged := by
  obtain ⟨hissues, herrors⟩ := issuesOf_few (explore_parts h).1
  have hconfidence := confidence_eq hissues herrors
  cases hreachable : report.prospect.isReachable with
  | false =>
    rw [hreachable] at hconfidence
    refine ⟨hissues, ?_, ?_, ?_, ?_⟩ <;> simp [Report.isPlayable, hconfidence, hreachable]
  | true =>
    rw [hreachable, if_pos rfl] at hconfidence
    refine ⟨hissues, ?_, ?_, ?_, ?_⟩
    · simp [Report.isPlayable, hreachable, herrors hreachable]
    all_goals
      rw [hconfidence]
      split <;> simp [hreachable] <;> omega

/-- **Settings do not change the verdict.** Two searches in one rule-set with any settings that do not fail
agree on whether the game can be won, in how many taps and by which moves, on the reasons against a win, on
the clashes and on the summary; and the summary of a report goes by whether the game can be won and in how
many taps. -/
theorem explore_verdict {report report' : Report} (h : explore settings g = .ok report)
    (h' : explore settings' g = .ok report') :
    report.SameVerdict report' ∧ report.Judged ∧ report'.Judged := by
  have hjudged := explore_judged h
  have hjudged' := explore_judged h'
  obtain ⟨hissues, hclashes⟩ := explore_parts h
  obtain ⟨hissues', hclashes'⟩ := explore_parts h'
  obtain ⟨hreachable, htaps, hmoves, hreasons⟩ :=
    (prospect_retimed (explore_prospect h) (explore_prospect h')).same
  refine ⟨⟨hreachable, htaps, hmoves, hreasons, hclashes'.trans hclashes.symm, ?_, ?_⟩, hjudged, hjudged'⟩
  · rw [hjudged'.playable, hjudged.playable, hreachable]
  · obtain ⟨hfew, herrors⟩ := issuesOf_few hissues
    obtain ⟨hfew', herrors'⟩ := issuesOf_few hissues'
    rw [confidence_eq hfew' herrors', confidence_eq hfew herrors, hreachable, htaps]

/-- Taps that take two seconds each, in a game that lasts one. -/
def hasty : Settings := ⟨.thousandths 1000, .thousandths 2000, 10, false⟩

/-- In the standard time three taps on the star win; in a hurry they come too late, and do so all the
same. -/
theorem explore_verdict_threeTaps :
    ∃ report report', explore .standard threeTaps = .ok report ∧ explore hasty threeTaps = .ok report' ∧
      report.issues = [] ∧ report'.issues = [.afterTimeout "6.0" "1"] ∧
      report.SameVerdict report' ∧ report.Judged ∧ report'.Judged := by
  have hfound : (explore .standard threeTaps).toOption.map (·.issues) = some [] := by decide +kernel
  have hfound' : (explore hasty threeTaps).toOption.map (·.issues) = some [.afterTimeout "6.0" "1"] := by
    decide +kernel
  obtain ⟨report, hreport, hissues⟩ := Option.map_eq_some_iff.mp hfound
  obtain ⟨report', hreport', hissues'⟩ := Option.map_eq_some_iff.mp hfound'
  have h := toOption_some_iff.mp hreport
  have h' := toOption_some_iff.mp hreport'
  exact ⟨report, report', h, h', hissues, hissues', explore_verdict h h'⟩

end TouchGame.Play
