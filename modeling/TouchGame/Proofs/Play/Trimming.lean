import TouchGame.Proofs.Play.Likeness
import TouchGame.Proofs.Play.Recheck

/-!
# Actions that do not matter for winning

A search for a way to win looks only at actions that show or hide objects, change counters or flags, or end
the game. All others are for show: effects, sounds, motion, and whole choices, whose picks are never
counted. Taking any of them out of the rules gives a rule-set that plays like the one before.

* `playedTypes`, `Action.isPlayed` : the actions that a search looks at.
* `Trimmed`, `Game.Trimmed` : some of the others are taken out.
* `Rule.Trimmed.like` : what is left of a rule is like the rule.
* `explore_trimmed` : the same game is won in the same way.
-/

namespace TouchGame.Play

/-- The types of the actions that a search for a way to win looks at. -/
def playedTypes : List String :=
  ["hide", "show", "counter", "setFlag", "toggleFlag", "success", "failure"]

def isPlayed (a : Action) : Bool :=
  a.kindText?.any playedTypes.contains

/-- A list of actions from which some are taken out that no search looks at. -/
inductive Trimmed : List Action → List Action → Prop
  | nil : Trimmed [] []
  | keep (a : Action) {actions left : List Action} (h : Trimmed actions left) :
    Trimmed (a :: actions) (a :: left)
  | drop {a : Action} {actions left : List Action} (ha : isPlayed a = false)
      (h : Trimmed actions left) : Trimmed (a :: actions) left

/-- A rule with a trimmed list of actions. -/
structure TrimmedRule (r r' : Rule) : Prop where
  actions : Trimmed r.actions r'.actions
  rest : r' = { r with actions := r'.actions }

/-- A rule-set with trimmed rules. -/
structure TrimmedGame (g g' : Game) : Prop where
  rules : List.Forall₂ TrimmedRule g.rules g'.rules
  rest : g' = { g with rules := g'.rules }

/-! ## What is left of a rule -/

section Actions

variable {r r' : Rule} {a : Action}

theorem after_unplayed (ha : isPlayed a = false) (htype : a.kind.isContainer = false) (s : State) :
    State.after r s a = .ok s := by
  cases a with
  | unknown type extras => exact after_unknown htype r s
  | hide | reveal | counter | setFlag | toggleFlag | success | failure => cases ha
  | _ => rfl

theorem changeOf?_unplayed (ha : isPlayed a = false) (counter : String) : changeOf? counter a = none := by
  cases a with
  | counter => cases ha
  | _ => rfl

theorem settingOf?_unplayed (ha : isPlayed a = false) (counter : String) :
    settingOf? counter a = none := by
  cases a with
  | counter => cases ha
  | _ => rfl

theorem kindText?_unplayed (ha : isPlayed a = false) : a.kindText? ≠ some "success" := by
  intro hkind
  rw [isPlayed, hkind] at ha
  exact absurd ha (by decide)

theorem after_congr (h : r'.targetObject = r.targetObject) (s : State) (a : Action) :
    State.after r' s a = State.after r s a := by
  have hresolve := Rule.resolve_congr h
  cases a with
  | hide target => rw [State.after, State.after, hresolve]
  | reveal target => rw [State.after, State.after, hresolve]
  | _ => rfl

end Actions

section Lists

variable {actions left : List Action} (h : Trimmed actions left)
include h

theorem Trimmed.foldlM (r : Rule) (htypes : ∀ a ∈ actions, a.kind.isContainer = false) (s : State) :
    left.foldlM (State.after r) s = actions.foldlM (State.after r) s := by
  induction h generalizing s with
  | nil => rfl
  | keep a _ ih =>
    rw [List.foldlM_cons, List.foldlM_cons]
    exact congrArg _ (funext (ih fun b hb => htypes b (List.mem_cons_of_mem a hb)))
  | drop ha _ ih =>
    rw [List.foldlM_cons, after_unplayed ha (htypes _ List.mem_cons_self),
      ih fun b hb => htypes b (List.mem_cons_of_mem _ hb)]
    rfl

theorem Trimmed.filterMap {α : Type} {observe : Action → Option α}
    (hunplayed : ∀ a, isPlayed a = false → observe a = none) :
    left.filterMap observe = actions.filterMap observe := by
  induction h with
  | nil => rfl
  | keep a _ ih => rw [List.filterMap_cons, List.filterMap_cons, ih]
  | drop ha _ ih => rw [List.filterMap_cons, hunplayed _ ha, ih]

theorem Trimmed.wins :
    left.any (·.kindText? == some "success") = actions.any (·.kindText? == some "success") := by
  induction h with
  | nil => rfl
  | keep a _ ih => rw [List.any_cons, List.any_cons, ih]
  | drop ha _ ih => rw [List.any_cons, beq_false_of_ne (kindText?_unplayed ha), Bool.false_or, ih]

end Lists

/-- What is left of a rule is like the rule, all names the same. -/
theorem TrimmedRule.like {r r' : Rule} (h : TrimmedRule r r')
    (htypes : ∀ a ∈ r.actions, a.kind.isContainer = false) : RuleLike .same r r' where
  named := by
    rw [h.rest]
    rfl
  target := by
    rw [h.rest]
    exact (Slot.mapValue_id _).symm
  operator := by
    rw [h.rest]
    rfl
  conditions := by
    have hsame : Condition.rename .same = id := funext Condition.rename_same
    rw [hsame, List.map_id, h.rest]
    rfl
  wins := h.actions.wins
  fire s := by
    have hobject : r'.targetObject = r.targetObject := by rw [h.rest]
    have hafter : State.after r' = State.after r :=
      funext fun s => funext fun a => after_congr hobject s a
    have hsame : State.rename .same = id := funext State.rename_same
    rw [State.rename_same, State.fire, hafter, h.actions.foldlM r htypes, hsame, ← State.fire]
    cases s.fire r <;> rfl
  changes counter := h.actions.filterMap fun a ha => changeOf?_unplayed ha counter
  settings counter := h.actions.filterMap fun a ha => settingOf?_unplayed ha counter
  touched _ _ _ _ _ := rfl

theorem TrimmedGame.like {g g' : Game} (h : TrimmedGame g g')
    (htypes : ∀ r ∈ g.rules, ∀ a ∈ r.actions, a.kind.isContainer = false) : GameLike .same g g' where
  rules := by
    have hrules := h.rules
    generalize g.rules = rules, g'.rules = rules' at hrules htypes ⊢
    induction hrules with
    | nil => exact .nil
    | cons hr _ ih =>
      exact .cons (hr.like (htypes _ List.mem_cons_self))
        (ih fun r hr => htypes r (List.mem_cons_of_mem _ hr))
  initial := by
    rw [h.rest, State.rename_same]
    rfl

/-! ## Reports -/

/-- The walk of a prospect, if it has one. -/
def Prospect.walk? : Prospect → Option Walk
  | .reachable walk => some walk
  | .blocked _ => none

theorem WalkLike.eq {walk walk' : Walk} (h : WalkLike .same walk walk') : walk' = walk := by
  have hmoves : walk.moves = walk'.moves := by
    rw [← List.forall₂_eq_eq_eq]
    refine h.moves.imp fun m m' hm => ?_
    cases hm with
    | touch gesture target htext => rw [htext rfl]; rfl
    | wait seconds htext => rw [htext rfl]
  obtain ⟨moves, taps, time⟩ := walk
  obtain ⟨moves', taps', time'⟩ := walk'
  cases hmoves
  cases h.taps
  cases h.time
  rfl

theorem MoveLike.refl (m : Move) : MoveLike .same m m := by
  cases m with
  | touch gesture target result => exact .touch gesture target fun _ => rfl
  | wait seconds result => exact .wait seconds fun _ => rfl

theorem WalkLike.refl (walk : Walk) : WalkLike .same walk walk :=
  ⟨List.forall₂_same.mpr fun m _ => .refl m, rfl, rfl⟩

/-- Where prospects are alike and all names are the same, so are the reports in all they say of winning. -/
theorem explore_eq_of_prospects {settings : Settings} {g g' : Game}
    (h : Matched Eq (ProspectLike .same) (prospect settings g) (prospect settings g')) :
    (explore settings g').map (fun report => (report.prospect.isReachable, report.prospect.tapCount,
        report.prospect.estimatedSeconds, report.prospect.walk?)) =
      (explore settings g).map (fun report => (report.prospect.isReachable, report.prospect.tapCount,
        report.prospect.estimatedSeconds, report.prospect.walk?)) := by
  have hlike : Matched Eq (fun report report' => ProspectLike .same report.prospect report'.prospect)
      (explore settings g) (explore settings g') := explore_of_prospects h
  generalize explore settings g = found, explore settings g' = found' at hlike ⊢
  cases hlike with
  | error h =>
    cases h
    rfl
  | @ok report report' h =>
    cases report
    cases report'
    cases h with
    | blocked => rfl
    | reachable h => rw [h.eq]; rfl

/-- **Actions for show do not matter for winning.** In a rule-set in which no action type is a list or an
object, take any actions out of the rules, at top level, that are not of the types that a search looks at;
whole choices may go. A search fails as before, or it says as before whether the game can be won, with as
many taps, in as many seconds, and by the same walk, move by move. -/
theorem explore_trimmed {settings : Settings} {g g' : Game} (h : TrimmedGame g g')
    (htypes : ∀ r ∈ g.rules, ∀ a ∈ r.actions, a.kind.isContainer = false) :
    (explore settings g').map (fun report => (report.prospect.isReachable, report.prospect.tapCount,
        report.prospect.estimatedSeconds, report.prospect.walk?)) =
      (explore settings g).map (fun report => (report.prospect.isReachable, report.prospect.tapCount,
        report.prospect.estimatedSeconds, report.prospect.walk?)) :=
  explore_eq_of_prospects (prospect_like (h.like htypes))

/-- The game `threeTaps` with a flash and a random bonus at every tap, and a message at the end. -/
def noisyTaps : Game :=
  { threeTaps with rules := [
      ⟨"tap", .empty, .value "star", .value ⟨"AND", [.touch .empty (.value "down")]⟩,
        [.effect .empty (.value ⟨.value "flash", none, none, none⟩),
          .counter (.value "score") (.value "increment") none,
          .choice [⟨.counter (.value "score") (.value "add") (some 10), none, none⟩,
            ⟨.failure none .empty, none, none⟩] .empty .empty]⟩,
      ⟨"win", .empty, .empty,
        .value ⟨"AND", [.counter (.value "score") (.value "greaterOrEqual") (some 3)]⟩,
        [.showMessage (.value "Done") none, .success none .empty]⟩] }

theorem noisyTaps_trimmed : TrimmedGame noisyTaps threeTaps where
  rules := .cons ⟨.drop rfl (.keep _ (.drop rfl .nil)), rfl⟩
    (.cons ⟨.drop rfl (.keep _ .nil), rfl⟩ .nil)
  rest := rfl

theorem explore_trimmed_noisyTaps :
    TrimmedGame noisyTaps threeTaps ∧
      (∀ r ∈ noisyTaps.rules, ∀ a ∈ r.actions, a.kind.isContainer = false) ∧
      (explore .standard threeTaps).map (fun report => (report.prospect.isReachable,
          report.prospect.tapCount, report.prospect.estimatedSeconds, report.prospect.walk?)) =
        (explore .standard noisyTaps).map (fun report => (report.prospect.isReachable,
          report.prospect.tapCount, report.prospect.estimatedSeconds, report.prospect.walk?)) ∧
      ∃ report, explore .standard threeTaps = .ok report ∧
        report.prospect = .reachable threeTapsWalk := by
  have htypes : ∀ r ∈ noisyTaps.rules, ∀ a ∈ r.actions, a.kind.isContainer = false := by decide
  exact ⟨noisyTaps_trimmed, htypes, explore_trimmed noisyTaps_trimmed htypes, explore_threeTaps⟩

end TouchGame.Play
