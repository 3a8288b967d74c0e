import Mathlib.Data.List.ReduceOption
import TouchGame.Proofs.Play.Replay

/-!
# What a walk leaves behind

Only counters are looked at again at the end of a walk. Whether its flags and objects still stand as
the conditions of the winning rule want them depends on what the fired rules did last to each: the
last of them to put a flag into a position counts, and every toggle behind it turns the flag over;
the last one to show or hide an object decides whether it is hidden.

* `turned`, `leavesHidden` : where actions leave a flag and an object.
* `flag_of_fired`, `isHidden_of_fired` : the state behind fired rules, read off their actions.
* `explore_met_iff` : when the conditions of the winning rule are still met at the end.
-/

namespace TouchGame.Play

variable {g : Game} {w r : Rule} {settings : Settings} {s u : State} {a : Action}

/-! ## Tables -/

theorem get?_cons {α : Type} (table : Table α) (name key : String) (value : α) :
    Table.get? ((name, value) :: table) key = if key = name then some value else table.get? key := by
  rw [Table.get?, List.lookup_cons]
  by_cases h : key = name
  · rw [if_pos h, beq_iff_eq.mpr h]
  · rw [if_neg h, beq_eq_false_iff_ne.mpr h]
    rfl

theorem get?_put {α : Type} (table : Table α) (name key : String) (value : α) :
    (table.put name value).get? key = if key = name then some value else table.get? key := by
  induction table with
  | nil => rw [Table.put, get?_cons]
  | cons entry rest ih =>
    obtain ⟨first, old⟩ := entry
    rw [Table.put]
    by_cases hf : first = name
    · rw [if_pos (beq_iff_eq.mpr hf), get?_cons, get?_cons, hf]
      split <;> rfl
    · rw [if_neg (by simpa using hf), get?_cons, get?_cons, ih]
      by_cases hk : key = first
      · rw [if_pos hk, if_pos hk, if_neg (hk ▸ hf)]
      · rw [if_neg hk, if_neg hk]

theorem flag_setFlag (s : State) (flag other : String) (on : Bool) :
    (s.setFlag flag on).flag other = if other = flag then on else s.flag other := by
  simp only [State.flag, State.setFlag, get?_put]
  split <;> rfl

theorem isHidden_hide (s : State) (object other : String) :
    (s.hide object).isHidden other = if other = object then true else s.isHidden other := by
  simp only [State.isHidden, State.hide, List.contains_eq_mem, List.mem_insert_iff]
  by_cases h : other = object <;> simp [h]

theorem isHidden_reveal (s : State) (object other : String) :
    (s.reveal object).isHidden other = if other = object then false else s.isHidden other := by
  simp only [State.isHidden, State.reveal, List.contains_eq_mem, List.mem_filter]
  by_cases h : other = object <;> simp [h]

/-! ## Flags -/

/-- What an action does to a flag: it puts it into a position, or turns it over. -/
inductive Turn where
  | put (on : Bool)
  | flip
  deriving DecidableEq, Repr

/-- What an action does to a flag, if it is about that flag. -/
def turnOf? (flag : String) : Action → Option Turn
  | .setFlag name value => if name.text? = some flag then some (.put (flagValue value)) else none
  | .toggleFlag name => if name.text? = some flag then some .flip else none
  | _ => none

/-- Where turns, the latest first, leave a flag: the last position it was put into counts, and every
flip behind it turns it over. -/
def turned (start : Bool) : List Turn → Bool
  | [] => start
  | .put on :: _ => on
  | .flip :: earlier => !turned start earlier

theorem turned_append (start : Bool) (late early : List Turn) :
    turned start (late ++ early) = turned (turned start early) late := by
  induction late with
  | nil => rfl
  | cons turn late ih => cases turn <;> simp [turned, ih]

/-- The turns of a flag by the actions of fired rules, the latest first. -/
def turnsBy (fired : List Rule) (flag : String) : List Turn :=
  ((fired.flatMap (·.actions)).filterMap (turnOf? flag)).reverse

/-- Whether fired rules leave a flag on that was off before them. -/
def leavesOn (fired : List Rule) (flag : String) : Bool :=
  turned false (turnsBy fired flag)

/-! ## Objects -/

/-- Whether an action of a rule hides an object or shows it, if it does either. -/
def hides? (r : Rule) (object : String) : Action → Option Bool
  | .hide target .. => if (r.resolve target).text? = some object then some true else none
  | .reveal target .. => if (r.resolve target).text? = some object then some false else none
  | _ => none

/-- The hidings and showings of an object by the actions of fired rules, in order. -/
def hidingsBy (fired : List Rule) (object : String) : List Bool :=
  fired.flatMap fun r => r.actions.filterMap (hides? r object)

/-- Whether fired rules leave an object hidden that was not before them: the last one to hide or show
it hides it. -/
def leavesHidden (fired : List Rule) (object : String) : Bool :=
  (hidingsBy fired object).getLast?.getD false

/-! ## What actions leave behind -/

theorem operate_leaves {id : String} {operation : Slot String} {value : Option Number}
    (h : s.operate id operation value = .ok u) : u.flag = s.flag ∧ u.isHidden = s.isHidden := by
  simp only [State.operate] at h
  split at h
  · cases h
    exact ⟨rfl, rfl⟩
  · split at h
    · simp only [bind_ok_iff, pure_ok_iff] at h
      obtain ⟨_, _, rfl⟩ := h
      exact ⟨rfl, rfl⟩
    · cases h
      exact ⟨rfl, rfl⟩

theorem finish_leaves (s : State) (outcome : Outcome) :
    (s.finish outcome).flag = s.flag ∧ (s.finish outcome).isHidden = s.isHidden := by
  unfold State.finish
  split <;> exact ⟨rfl, rfl⟩

theorem after_unknown {type : Json} {extras : List Extra}
    (htype : (Action.unknown type extras).kind.isContainer = false) (r : Rule) (s : State) :
    State.after r s (.unknown type extras) = .ok s := by
  rw [State.after]
  cases type with
  | arr | obj => cases htype
  | _ => rfl

/-- One action turns a flag, and hides or shows an object, as it says. -/
theorem after_leaves (flag object : String) (h : State.after r s a = .ok u) :
    u.flag flag = turned (s.flag flag) (turnOf? flag a).toList ∧
      u.isHidden object = (hides? r object a).getD (s.isHidden object) := by
  cases a with
  | hide target _ _ =>
    simp only [State.after, Except.ok.injEq] at h
    subst h
    cases ht : (r.resolve target).text? with
    | none => simp [hides?, turnOf?, turned, ht]
    | some other =>
      refine ⟨rfl, ?_⟩
      by_cases ho : other = object
      · simp [hides?, ht, ho, isHidden_hide]
      · simp [hides?, ht, ho, isHidden_hide, Ne.symm ho]
  | reveal target _ _ =>
    simp only [State.after, Except.ok.injEq] at h
    subst h
    cases ht : (r.resolve target).text? with
    | none => simp [hides?, turnOf?, turned, ht]
    | some other =>
      refine ⟨rfl, ?_⟩
      by_cases ho : other = object
      · simp [hides?, ht, ho, isHidden_reveal]
      · simp [hides?, ht, ho, isHidden_reveal, Ne.symm ho]
  | setFlag name value =>
    simp only [State.after, Except.ok.injEq] at h
    subst h
    cases hn : name.text? with
    | none => simp [hides?, turnOf?, turned, hn]
    | some id =>
      refine ⟨?_, rfl⟩
      by_cases hf : id = flag
      · simp [turnOf?, hn, hf, turned, flag_setFlag]
      · simp [turnOf?, hn, hf, turned, flag_setFlag, Ne.symm hf]
  | toggleFlag name =>
    simp only [State.after, Except.ok.injEq] at h
    subst h
    cases hn : name.text? with
    | none => simp [hides?, turnOf?, turned, hn]
    | some id =>
      refine ⟨?_, rfl⟩
      by_cases hf : id = flag
      · simp [turnOf?, hn, hf, turned, flag_setFlag]
      · simp [turnOf?, hn, hf, turned, flag_setFlag, Ne.symm hf]
  | counter name operation value =>
    simp only [State.after] at h
    split at h
    · obtain ⟨hflag, hhidden⟩ := operate_leaves h
      rw [hflag, hhidden]
      exact ⟨rfl, rfl⟩
    · cases h
      exact ⟨rfl, rfl⟩
  | success =>
    cases h
    rw [(finish_leaves ..).1, (finish_leaves ..).2]
    exact ⟨rfl, rfl⟩
  | failure =>
    cases h
    rw [(finish_leaves ..).1, (finish_leaves ..).2]
    exact ⟨rfl, rfl⟩
  | unknown type extras =>
    simp only [State.after] at h
    split at h
    · cases h
    · cases h
      exact ⟨rfl, rfl⟩
  | _ =>
    cases h
    exact ⟨rfl, rfl⟩

theorem flag_foldlM (flag : String) {actions : List Action}
    (h : actions.foldlM (State.after r) s = .ok u) :
    u.flag flag = turned (s.flag flag) (actions.filterMap (turnOf? flag)).reverse := by
  induction actions generalizing s with
  | nil =>
    cases h
    rfl
  | cons a rest ih =>
    rw [List.foldlM_cons, bind_ok_iff] at h
    obtain ⟨next, hnext, h⟩ := h
    rw [ih h, (after_leaves flag flag hnext).1, ← turned_append]
    cases ht : turnOf? flag a <;> simp [ht]

theorem run_singleton (h : s.fire r = .ok u) : [r].foldlM State.fire s = .ok u := by
  rw [List.foldlM_cons, h]
  rfl

theorem flag_of_fired (flag : String) {fired : List Rule}
    (h : fired.foldlM State.fire s = .ok u) :
    u.flag flag = turned (s.flag flag) (turnsBy fired flag) := by
  induction fired generalizing s with
  | nil =>
    cases h
    rfl
  | cons r rest ih =>
    rw [List.foldlM_cons, bind_ok_iff] at h
    obtain ⟨next, hnext, h⟩ := h
    rw [ih h, flag_foldlM flag hnext, ← turned_append]
    simp [turnsBy]

theorem isHidden_foldlM (object : String) {actions : List Action}
    (h : actions.foldlM (State.after r) s = .ok u) :
    u.isHidden object =
      (actions.filterMap (hides? r object)).getLast?.getD (s.isHidden object) := by
  induction actions generalizing s with
  | nil =>
    cases h
    rfl
  | cons a rest ih =>
    rw [List.foldlM_cons, bind_ok_iff] at h
    obtain ⟨next, hnext, h⟩ := h
    rw [ih h, (after_leaves object object hnext).2]
    cases ht : hides? r object a <;> simp [ht, List.getLast?_cons]

theorem isHidden_of_fired (object : String) {fired : List Rule}
    (h : fired.foldlM State.fire s = .ok u) :
    u.isHidden object = (hidingsBy fired object).getLast?.getD (s.isHidden object) := by
  induction fired generalizing s with
  | nil =>
    cases h
    rfl
  | cons r rest ih =>
    rw [List.foldlM_cons, bind_ok_iff] at h
    obtain ⟨next, hnext, h⟩ := h
    rw [ih h, isHidden_foldlM object hnext, hidingsBy, hidingsBy, List.flatMap_cons,
      List.getLast?_append]
    cases (rest.flatMap fun q => q.actions.filterMap (hides? q object)).getLast? <;> simp

/-! ## The end of a walk -/

/-- What a condition of a rule asks of flags and hidden objects: a flag it names is in the wanted
position, an object it wants hidden or visible is that, and an object to touch is not hidden. -/
def Met (w : Rule) (flagOn isHidden : String → Bool) : Condition → Prop
  | .flag name flagState => ∀ flag, name.text? = some flag → flagOn flag = wantsOn flagState
  | .objectState target state => ∀ object, (w.resolve target).text? = some object →
      (state = .value "hidden" → isHidden object = true) ∧
        (state = .value "visible" → isHidden object = false)
  | .touch target _ => ∀ object, (w.resolve target).text? = some object → isHidden object = false
  | _ => True

theorem state_of_fired {fired : List Rule} (h : fired.foldlM State.fire (.initial g) = .ok s) :
    s.flag = leavesOn fired ∧ s.isHidden = leavesHidden fired := by
  constructor
  · funext flag
    exact flag_of_fired flag h
  · funext object
    exact isHidden_of_fired object h

theorem fire_of_follows {driven : List Condition} {m : Move} {r? : Option Rule}
    (h : Follows g w driven s m r? u) : r?.toList.foldlM State.fire s = .ok u := by
  cases h with
  | wait => rfl
  | touch => rfl
  | fire member handle inSight fires =>
    rw [Option.toList_some, List.foldlM_cons, bind_ok_iff]
    exact ⟨u, fires, rfl⟩

/-- Every state of a replay is the one behind the rules that the moves before it fire. -/
theorem Replay.state {driven : List Condition} {moves : List Move} {fired : List (Option Rule)}
    {states : List State} (h : Replay g w driven moves fired states) {i : Nat}
    (hs : states[i]? = some s) :
    (fired.take i).reduceOption.foldlM State.fire (.initial g) = .ok s := by
  induction i generalizing s with
  | zero =>
    rw [h.starts, Option.some.injEq] at hs
    rw [← hs]
    rfl
  | succ i ih =>
    have hi : i + 1 < states.length := (List.getElem?_eq_some_iff.mp hs).1
    have hmoves : i < moves.length := by
      have := h.aligned
      omega
    obtain ⟨before, m, r?, next, hbefore, _, hfired, hnext, hfollows⟩ := h.at_move hmoves
    obtain rfl := Option.some.inj (hs.symm.trans hnext)
    rw [List.take_add_one, hfired, Option.toList_some, List.reduceOption_append, List.foldlM_append,
      bind_ok_iff]
    refine ⟨before, ih hbefore, ?_⟩
    rw [List.reduceOption_singleton]
    exact fire_of_follows hfollows

/-- **When the winning rule is met at the end of the walk.** The walk of a report is that of the
first winning rule that is not blocked. If all conditions of the rule have to hold, then those on
flags and objects do at the end of the walk exactly if the rules fired along it leave the flags and
objects so: a walk may undo what it brought about before. -/
theorem explore_met_iff {report : Report} {walk : Walk} (h : explore settings g = .ok report)
    (hr : report.prospect = .reachable walk) :
    ∃ (before : List Rule) (w : Rule) (after : List Rule),
      g.rulesFiring "success" = before ++ w :: after ∧
      (∀ b ∈ before, ∃ why, reach settings g b = .error (.blocked why)) ∧
      reach settings g w = .ok walk ∧
      (isChoice w = false → ∃ fired states last,
        Replay g w w.conditions walk.moves fired states ∧ states.getLast? = some last ∧
        ((∀ c ∈ w.conditions, Met w last.flag last.isHidden c) ↔ ∀ c ∈ w.conditions,
          Met w (leavesOn fired.reduceOption) (leavesHidden fired.reduceOption) c)) := by
  have hp := explore_prospect h
  rw [hr] at hp
  obtain ⟨before, w, after, hrules, hbefore, hreach⟩ := prospect_reachable hp
  refine ⟨before, w, after, hrules, hbefore, hreach, ?_⟩
  intro hw
  obtain ⟨driven, hdrives, t, htrail, hwalk⟩ := reach_ok hreach
  rw [Drives, if_neg (by simp [hw])] at hdrives
  subst hdrives
  obtain ⟨fired, states, hreplay, hlast, _⟩ := (trailFor_retraced htrail).1
  rw [← (walk_moves hwalk).1] at hreplay
  have hstate := hreplay.state (hreplay.last_of_getLast? hlast)
  rw [← hreplay.paired, List.take_length] at hstate
  obtain ⟨hflag, hhidden⟩ := state_of_fired hstate
  refine ⟨fired, states, t.state, hreplay, hlast, ?_⟩
  rw [hflag, hhidden]

/-- A rule that wins when two flags are on. -/
def seesawWin : Rule :=
  ⟨"win", .empty, .empty,
    .value ⟨"AND", [.flag (.value "a") (.value "ON"), .flag (.value "b") (.value "ON")]⟩,
    [.success none .empty]⟩

/-- A game whose two levers each put one flag on and the other one off, won when both are on. -/
def seesaw : Game where
  layout := [⟨"left", ⟨.thousandths 200, .thousandths 500⟩, .empty⟩,
    ⟨"right", ⟨.thousandths 800, .thousandths 500⟩, .empty⟩]
  counters := []
  rules := [lever "left" "a" "b", lever "right" "b" "a", seesawWin]
  objects := [⟨"left", .empty, .empty, .empty, .empty, .empty⟩,
    ⟨"right", .empty, .empty, .empty, .empty, .empty⟩]
  sounds := []
  music := .empty
where
  /-- A lever: touching an object puts one flag on and another one off. -/
  lever (object raised lowered : String) : Rule :=
    ⟨"pull_" ++ object, .empty, .value object, .value ⟨"AND", [.touch .empty (.value "down")]⟩,
      [.setFlag (.value raised) (.value true), .setFlag (.value lowered) (.value false)]⟩

/-- Pulling the left lever, then the right one, which puts the first flag off again. -/
def seesawWalk : Walk :=
  ⟨[.touch .tap "left" "Flag a ON", .touch .tap "right" "Flag b ON"], 2, .thousandths 1000⟩

theorem explore_seesaw :
    ∃ report, explore .standard seesaw = .ok report ∧ report.prospect = .reachable seesawWalk := by
  have hfound : (explore .standard seesaw).toOption.map (·.prospect) = some (.reachable seesawWalk) := by
    decide +kernel
  obtain ⟨report, h, hr⟩ := Option.map_eq_some_iff.mp hfound
  exact ⟨report, toOption_some_iff.mp h, hr⟩

theorem explore_met_iff_seesaw :
    ∃ report, explore .standard seesaw = .ok report ∧ report.prospect = .reachable seesawWalk ∧
      ∃ (before : List Rule) (w : Rule) (after : List Rule),
        seesaw.rulesFiring "success" = before ++ w :: after ∧
        (∀ b ∈ before, ∃ why, reach .standard seesaw b = .error (.blocked why)) ∧
        reach .standard seesaw w = .ok seesawWalk ∧
        (isChoice w = false → ∃ fired states last,
          Replay seesaw w w.conditions seesawWalk.moves fired states ∧
          states.getLast? = some last ∧
          ((∀ c ∈ w.conditions, Met w last.flag last.isHidden c) ↔ ∀ c ∈ w.conditions,
            Met w (leavesOn fired.reduceOption) (leavesHidden fired.reduceOption) c)) := by
  obtain ⟨report, h, hr⟩ := explore_seesaw
  exact ⟨report, h, hr, explore_met_iff h hr⟩

theorem trailFor_seesaw :
    ∃ t, trailFor seesaw seesawWin seesawWin.conditions = .ok t ∧
      t.walk Settings.standard.secondsPerTap = .ok seesawWalk ∧ t.state.flag "a" = false := by
  have htrail : (trailFor seesaw seesawWin seesawWin.conditions).toOption.map
      (fun t => ((t.walk Settings.standard.secondsPerTap).toOption, t.state.flag "a")) =
      some (some seesawWalk, false) := by
    decide +kernel
  obtain ⟨t, ht, hpair⟩ := Option.map_eq_some_iff.mp htrail
  obtain ⟨hwalk, hoff⟩ := Prod.mk.inj hpair
  exact ⟨t, toOption_some_iff.mp ht, toOption_some_iff.mp hwalk, hoff⟩

/-- The report takes the two pulls for a way to win, though the first flag is off behind them. -/
theorem seesaw_not_met :
    ∃ report, explore .standard seesaw = .ok report ∧ report.prospect = .reachable seesawWalk ∧
      seesaw.rulesFiring "success" = [seesawWin] ∧ isChoice seesawWin = false ∧
      ∃ t, trailFor seesaw seesawWin seesawWin.conditions = .ok t ∧
        t.walk Settings.standard.secondsPerTap = .ok seesawWalk ∧
        ¬ ∀ c ∈ seesawWin.conditions, Met seesawWin t.state.flag t.state.isHidden c := by
  obtain ⟨report, h, hr⟩ := explore_seesaw
  obtain ⟨t, ht, hwalk, hoff⟩ := trailFor_seesaw
  refine ⟨report, h, hr, rfl, by decide, t, ht, hwalk, ?_⟩
  intro hmet
  have hon := hmet _ List.mem_cons_self "a" rfl
  rw [hoff] at hon
  exact absurd hon (by decide)

end TouchGame.Play
