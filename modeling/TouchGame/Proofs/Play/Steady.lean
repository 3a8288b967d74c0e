import TouchGame.Proofs.Play.Gap
import TouchGame.Proofs.Play.Runs

/-!
# Rules that move a counter steadily

Where all counters hold whole numbers and all changes are whole, a rule that fires adds its net change to a
counter that it does not set, and no arithmetic fails. If the rule ends no game either, and does not hide
what the player works on, it can be fired again; so a number of times moves the counter by as many net
changes.

* `WholeGame`, `State.Whole` : whole numbers alone.
* `Rule.shift` : the net change of a counter; `netChange_whole` : the search calculates it.
* `tally` : what a counter holds behind some actions, and `counter_tally`.
* `after_whole`, `fire_whole` : what an action, and what a rule, does to whole counters.
* `Steady`, `Going` : a rule that can be fired again and again, and a state in which it can.
* `Steady.fire`, `Steady.fires`, `Steady.fireTimes` : one step, a run, and the moves of a search.
-/

namespace TouchGame

def Number.isInt : Number → Bool
  | .int _ => true
  | .real _ => false

theorem Number.isInt_iff {a : Number} : a.isInt = true ↔ ∃ n, a = .int n := by
  cases a <;> simp [Number.isInt]

def Action.isWhole : Action → Bool
  | .counter _ _ value => value.all (·.isInt)
  | _ => true

def Action.isWholeFor (counter : String) : Action → Bool
  | .counter (.value name) _ value => name != counter || value.all (·.isInt)
  | _ => true

/-- The whole number that an action adds to a counter. -/
def Action.shift (counter : String) (a : Action) : Int :=
  match Play.changeOf? counter a with
  | some (.int n) => n
  | _ => 0

/-- The whole number that a rule's own actions add to a counter. -/
def Rule.shift (r : Rule) (counter : String) : Int :=
  (r.actions.map (·.shift counter)).sum

/-- The whole number that a counter holds behind an action that found a whole number in it. -/
def Action.behind (counter : String) (v : Int) (a : Action) : Int :=
  match Play.settingOf? counter a with
  | some (.int n) => n
  | _ => v + a.shift counter

def tally (counter : String) (v : Int) (actions : List Action) : Int :=
  actions.foldl (Action.behind counter) v

namespace Play

variable {g : Game} {r m : Rule} {a : Action} {s u : State} {counter object : String} {v : Int}

/-- A rule gives counters only whole numbers. -/
def WholeRule (r : Rule) : Prop :=
  ∀ a ∈ r.actions, a.isWhole = true

/-- A rule gives one counter only whole numbers. -/
def WholeFor (counter : String) (r : Rule) : Prop :=
  ∀ a ∈ r.actions, a.isWholeFor counter = true

theorem isWholeFor_of_isWhole (ha : a.isWhole = true) : a.isWholeFor counter = true := by
  cases a with
  | counter name operation value =>
    cases name with
    | value id =>
      rw [Action.isWholeFor, Bool.or_eq_true]
      exact .inr ha
    | _ => rfl
  | _ => rfl

theorem WholeRule.wholeFor (hr : WholeRule r) (counter : String) : WholeFor counter r :=
  fun a ha => isWholeFor_of_isWhole (hr a ha)

/-- Every counter starts at a whole number, and the rules give counters only whole numbers. -/
structure WholeGame (g : Game) : Prop where
  initial : ∀ c ∈ g.counters, c.initialValue.isInt = true
  rules : ∀ r ∈ g.rules, WholeRule r

/-- Every counter holds a whole number. -/
def State.Whole (s : State) : Prop :=
  ∀ id, ∃ n, s.counter id = .int n

theorem WholeGame.whole_initial (hg : WholeGame g) : (State.initial g).Whole := by
  intro id
  rw [initial_counter]
  cases hfind : lastCounter? g id with
  | none => exact ⟨0, rfl⟩
  | some c =>
    exact Number.isInt_iff.mp (hg.initial c (List.mem_reverse.mp (List.mem_of_find?_eq_some hfind)))

/-! ## Net changes -/

theorem getD_whole {value : Option Number} {default : Int} (h : value.all (·.isInt) = true) :
    ∃ n, value.getD (.int default) = .int n := by
  cases value with
  | none => exact ⟨default, rfl⟩
  | some a => exact Number.isInt_iff.mp h

theorem counterChange?_whole {operation : Slot String} {value : Option Number} {change : Number}
    (hvalue : value.all (·.isInt) = true) (h : counterChange? operation value = some change) :
    ∃ n, change = .int n := by
  obtain ⟨n, hn⟩ : ∃ n, value.getD 1 = .int n := getD_whole hvalue
  unfold counterChange? at h
  rw [hn] at h
  split at h
  · exact ⟨n, (Option.some.inj h).symm⟩
  · exact ⟨n, (Option.some.inj h).symm⟩
  · exact ⟨-n, (Option.some.inj h).symm⟩
  · exact ⟨-n, (Option.some.inj h).symm⟩
  · cases h

theorem shift_eq_zero (h : changeOf? counter a = none) : a.shift counter = 0 := by
  rw [Action.shift, h]

theorem whole_of_isWholeFor {operation : Slot String} {value : Option Number}
    (h : (Action.counter (.value counter) operation value).isWholeFor counter = true) :
    value.all (·.isInt) = true := by
  simpa [Action.isWholeFor] using h

theorem changeOf?_whole {change : Number} (ha : a.isWholeFor counter = true)
    (h : changeOf? counter a = some change) : change = .int (a.shift counter) := by
  obtain ⟨operation, value, rfl, hchange⟩ := changeOf?_eq_some h
  obtain ⟨n, rfl⟩ := counterChange?_whole (whole_of_isWholeFor ha) hchange
  rw [Action.shift, h]

theorem settingOf?_whole {setting : Number} (ha : a.isWholeFor counter = true)
    (h : settingOf? counter a = some setting) : ∃ n, setting = .int n := by
  obtain ⟨value, rfl, rfl⟩ := settingOf?_eq_some h
  exact getD_whole (whole_of_isWholeFor ha)

/-- The search calculates the shift of a counter that the rule gives whole numbers. -/
theorem netChange_wholeFor (hr : WholeFor counter r) :
    netChange r counter = .ok (.int (r.shift counter)) := by
  have hsum (actions : List Action) (hwhole : ∀ a ∈ actions, a.isWholeFor counter = true) (n : Int) :
      (actions.filterMap (changeOf? counter)).foldlM
        (fun (total : Number) change => arithmetic (total.add change)) (.int n) =
          .ok (.int (n + (actions.map (·.shift counter)).sum)) := by
    induction actions generalizing n with
    | nil =>
      rw [List.map_nil, List.sum_nil, Int.add_zero]
      rfl
    | cons a rest ih =>
      have hrest := ih fun b hb => hwhole b (List.mem_cons_of_mem a hb)
      rw [List.filterMap_cons, List.map_cons, List.sum_cons]
      cases hchange : changeOf? counter a with
      | none =>
        rw [shift_eq_zero hchange, Int.zero_add]
        exact hrest n
      | some change =>
        rw [changeOf?_whole (hwhole a List.mem_cons_self) hchange, ← Int.add_assoc]
        exact hrest (n + a.shift counter)
  have hnet := hsum r.actions hr 0
  rwa [Int.zero_add] at hnet

theorem netChange_whole (hr : WholeRule r) : netChange r counter = .ok (.int (r.shift counter)) :=
  netChange_wholeFor (hr.wholeFor counter)

/-! ## Firing -/

theorem State.Whole.setCounter {id : String} (h : s.Whole) (n : Int) :
    (s.setCounter id (.int n)).Whole := by
  intro other
  rw [counter_setCounter]
  split
  · exact ⟨n, rfl⟩
  · exact h other

theorem operate_whole {id : String} {operation : Slot String} {value : Option Number}
    (hvalue : value.all (·.isInt) = true) (hs : s.Whole) :
    ∃ u, s.operate id operation value = .ok u ∧ u.Whole := by
  unfold State.operate
  split
  · obtain ⟨n, hn⟩ : ∃ n, value.getD 0 = .int n := getD_whole hvalue
    rw [hn]
    exact ⟨_, rfl, hs.setCounter n⟩
  · split
    · rename_i change hchange
      obtain ⟨k, rfl⟩ := counterChange?_whole hvalue hchange
      obtain ⟨n, hn⟩ := hs id
      rw [hn]
      exact ⟨_, rfl, hs.setCounter (n + k)⟩
    · exact ⟨s, rfl, hs⟩

theorem counter_operate_self {operation : Slot String} {value : Option Number}
    (hset : operation ≠ .value "set") (hvalue : value.all (·.isInt) = true)
    (hv : s.counter counter = .int v) (h : s.operate counter operation value = .ok u) :
    u.counter counter = .int (v + (Action.counter (.value counter) operation value).shift counter) := by
  have hchange : changeOf? counter (.counter (.value counter) operation value) =
      counterChange? operation value := if_pos (beq_self_eq_true counter)
  rw [State.operate, if_neg (by simpa using hset)] at h
  split at h
  · rename_i change hsome
    have hshift := changeOf?_whole (a := .counter (.value counter) operation value)
      (by simpa [Action.isWholeFor] using hvalue) (hchange.trans hsome)
    rw [hv, hshift] at h
    cases h
    rw [counter_setCounter, if_pos rfl]
  · rename_i hnone
    cases h
    rw [hv, shift_eq_zero (hchange.trans hnone), Int.add_zero]

theorem after_whole (ha : a.isWhole = true) (htype : a.kind.isContainer = false) (hs : s.Whole) :
    ∃ u, State.after r s a = .ok u ∧ u.Whole := by
  -- an action on anything else has a result, and leaves the counters alone
  have hother {u : State} (hname : a.counterName? = none) (hu : State.after r s a = .ok u) :
      u.Whole := by
    intro id
    rw [counter_after (by rw [hname]; simp) hu]
    exact hs id
  cases a with
  | counter name operation value =>
    rw [State.after]
    split
    · exact operate_whole ha hs
    · exact ⟨s, rfl, hs⟩
  | unknown type extras => exact ⟨s, after_unknown htype r s, hs⟩
  | _ => exact ⟨_, rfl, hother rfl rfl⟩

theorem changeOf?_of_other (hcounter : counter ≠ "") (h : a.counterName? ≠ some (.text counter)) :
    changeOf? counter a = none := by
  unfold changeOf?
  split
  · rename_i name _ _
    refine if_neg fun hname => h ?_
    rw [beq_iff_eq.mp hname]
    exact Repair.name?_of_text? (text?_value hcounter)
  · rfl

theorem eq_value_of_name? {field : Slot String} (h : field.name? = some (.text counter)) :
    field = .value counter := by
  cases field with
  | value id =>
    simp only [Slot.name?] at h
    split at h
    · cases h
    · cases h
      rfl
  | _ => cases h

theorem eq_value_of_text? {field : Slot String} (h : field.text? = some counter) :
    field = .value counter ∧ counter ≠ "" := by
  have hvalue : field = .value counter := eq_value_of_name? (Repair.name?_of_text? h)
  subst hvalue
  refine ⟨rfl, ?_⟩
  rintro rfl
  cases h

theorem counter_after_whole (hcounter : counter ≠ "") (ha : a.isWholeFor counter = true)
    (hunset : settingOf? counter a = none) (hv : s.counter counter = .int v)
    (h : State.after r s a = .ok u) : u.counter counter = .int (v + a.shift counter) := by
  by_cases hname : a.counterName? = some (.text counter)
  · cases a with
    | counter name operation value =>
      obtain rfl : name = .value counter := eq_value_of_name? hname
      have hset : operation ≠ .value "set" := by
        rintro rfl
        rw [settingOf?, if_pos (beq_self_eq_true counter)] at hunset
        cases hunset
      rw [State.after, text?_value hcounter] at h
      exact counter_operate_self hset (whole_of_isWholeFor ha) hv h
    | _ => cases hname
  · rw [counter_after hname h, shift_eq_zero (changeOf?_of_other hcounter hname), Int.add_zero, hv]

theorem counter_after_set {setting : Number} (hcounter : counter ≠ "")
    (hset : settingOf? counter a = some setting) (h : State.after r s a = .ok u) :
    u.counter counter = setting := by
  obtain ⟨value, rfl, rfl⟩ := settingOf?_eq_some hset
  rw [State.after, text?_value hcounter] at h
  cases h
  rw [counter_setCounter, if_pos rfl]

/-- **Actions that give a counter whole numbers leave their tally in it.** -/
theorem counter_tally (hcounter : counter ≠ "") {actions : List Action}
    (hwhole : ∀ a ∈ actions, a.isWholeFor counter = true) (hv : s.counter counter = .int v)
    (h : actions.foldlM (State.after r) s = .ok u) : u.counter counter = .int (tally counter v actions) := by
  induction actions generalizing s v with
  | nil =>
    cases h
    exact hv
  | cons a rest ih =>
    rw [List.foldlM_cons, bind_ok_iff] at h
    obtain ⟨next, hnext, h⟩ := h
    have ha := hwhole a List.mem_cons_self
    have hbehind : next.counter counter = .int (a.behind counter v) := by
      unfold Action.behind
      cases hset : settingOf? counter a with
      | none => exact counter_after_whole hcounter ha hset hv hnext
      | some setting =>
        obtain ⟨n, rfl⟩ := settingOf?_whole ha hset
        exact counter_after_set hcounter hset hnext
    exact ih (fun b hb => hwhole b (List.mem_cons_of_mem a hb)) hbehind h

theorem tally_of_unset {actions : List Action} (hunset : ∀ a ∈ actions, settingOf? counter a = none) :
    tally counter v actions = v + (actions.map (·.shift counter)).sum := by
  induction actions generalizing v with
  | nil => exact (Int.add_zero v).symm
  | cons a rest ih =>
    have hbehind : a.behind counter v = v + a.shift counter := by
      rw [Action.behind, hunset a List.mem_cons_self]
    have hrest := @ih (a.behind counter v) fun b hb => hunset b (List.mem_cons_of_mem a hb)
    rw [tally, List.foldl_cons, ← tally, hrest, hbehind, List.map_cons, List.sum_cons, Int.add_assoc]

theorem fire_returns (hr : WholeRule r) (htypes : ∀ a ∈ r.actions, a.kind.isContainer = false)
    (hs : s.Whole) : ∃ u, s.fire r = .ok u ∧ u.Whole := by
  unfold WholeRule at hr
  rw [State.fire]
  generalize r.actions = actions at hr htypes
  induction actions generalizing s with
  | nil => exact ⟨s, rfl, hs⟩
  | cons a rest ih =>
    obtain ⟨next, hnext, hwhole⟩ :=
      after_whole (r := r) (hr a List.mem_cons_self) (htypes a List.mem_cons_self) hs
    rw [List.foldlM_cons, hnext]
    exact ih hwhole (fun b hb => hr b (List.mem_cons_of_mem a hb))
      fun b hb => htypes b (List.mem_cons_of_mem a hb)

/-- **A rule of whole numbers gives a result, and moves a counter that it does not set by its shift.** -/
theorem fire_whole (hcounter : counter ≠ "") (hr : WholeRule r)
    (htypes : ∀ a ∈ r.actions, a.kind.isContainer = false)
    (hunset : ∀ a ∈ r.actions, settingOf? counter a = none) (hs : s.Whole)
    (hv : s.counter counter = .int v) :
    ∃ u, s.fire r = .ok u ∧ u.Whole ∧ u.counter counter = .int (v + r.shift counter) := by
  obtain ⟨u, hu, hlast⟩ := fire_returns hr htypes hs
  refine ⟨u, hu, hlast, ?_⟩
  rw [counter_tally hcounter (hr.wholeFor counter) hv hu, tally_of_unset hunset, Rule.shift]

/-! ## Firing again and again -/

/-- A rule that can be fired again and again to move a counter: it has something to work on, which it
does not hide; it does not set the counter; and it ends no game. -/
structure Steady (m : Rule) (counter object : String) : Prop where
  handle : m.handle? = some object
  inSight : leavesHidden [m] object = false
  unset : ∀ a ∈ m.actions, settingOf? counter a = none
  lasting : ∀ a ∈ m.actions, ending? a = none
  types : ∀ a ∈ m.actions, a.kind.isContainer = false

/-- A game that is going on: all counters are whole, one of them holds a value, and an object is in
sight. -/
structure Going (object counter : String) (v : Int) (s : State) : Prop where
  whole : s.Whole
  value : s.counter counter = .int v
  lasting : s.outcome = .open
  inSight : s.isHidden object = false

theorem WholeGame.going (hg : WholeGame g) (hv : (State.initial g).counter counter = .int v)
    (object : String) : Going object counter v (.initial g) :=
  ⟨hg.whole_initial, hv, rfl, rfl⟩

theorem add_steps (v d : Int) (k : Nat) : v + d + k * d = v + (k + 1 : Nat) * d := by
  rw [Int.natCast_succ, Int.add_mul, Int.one_mul]
  omega

theorem isHidden_of_leavesHidden (hm : leavesHidden [m] object = false) (hs : s.isHidden object = false)
    (h : s.fire m = .ok u) : u.isHidden object = false := by
  rw [isHidden_of_fired object (run_singleton h)]
  rw [leavesHidden] at hm
  cases hlast : (hidingsBy [m] object).getLast? with
  | none => exact hs
  | some side => rwa [hlast] at hm

namespace Steady

variable (hm : Steady m counter object) (hwhole : WholeRule m) (hcounter : counter ≠ "")
include hm hwhole hcounter

/-- **The game goes on behind a steady rule,** which has moved its counter. -/
theorem fire (h : Going object counter v s) :
    ∃ u, s.fire m = .ok u ∧ Going object counter (v + m.shift counter) u := by
  obtain ⟨u, hu, hlast, hvalue⟩ := fire_whole hcounter hwhole hm.types hm.unset h.whole h.value
  have hend : endOf m.actions = .open := by
    rw [endOf, List.findSome?_eq_none_iff.mpr hm.lasting]
    rfl
  have htypes : ∀ r ∈ [m], ∀ a ∈ r.actions, a.kind.isContainer = false :=
    fun r hr => List.mem_singleton.mp hr ▸ hm.types
  have hleads := run_leads htypes s
  rw [run_singleton hu] at hleads
  have hopen : u.outcome = .open := by
    rw [hleads.outcome, h.lasting, List.flatMap_singleton, hend]
    rfl
  exact ⟨u, hu, hlast, hvalue, hopen, isHidden_of_leavesHidden hm.inSight h.inSight hu⟩

/-- **So does a run of it,** which has moved the counter as often. -/
theorem fires (h : Going object counter v s) (k : Nat) :
    ∃ u, (List.replicate k m).foldlM State.fire s = .ok u ∧
      Going object counter (v + k * m.shift counter) u := by
  induction k generalizing s v with
  | zero => exact ⟨s, rfl, by rwa [Int.natCast_zero, Int.zero_mul, Int.add_zero]⟩
  | succ k ih =>
    obtain ⟨next, hnext, hgoing⟩ := hm.fire hwhole hcounter h
    obtain ⟨u, hu, hlast⟩ := ih hgoing
    refine ⟨u, ?_, ?_⟩
    · rw [List.replicate_succ, List.foldlM_cons, hnext]
      exact hu
    · rwa [← add_steps]

/-- **The search makes a tap for each time,** and comes to the same value. -/
theorem fireTimes {plan : Plan} (hplan : plan.rule = m) (threshold : Number) {t : Trail}
    (h : Going object counter v t.state) (k : Nat) :
    ∃ u, fireTimes plan object counter threshold k t = .ok u ∧
      Going object counter (v + k * m.shift counter) u.state ∧ u.taps = t.taps + k ∧
      u.longest = t.longest := by
  induction k generalizing t v with
  | zero => exact ⟨t, rfl, by rwa [Int.natCast_zero, Int.zero_mul, Int.add_zero], rfl, rfl⟩
  | succ k ih =>
    obtain ⟨next, hnext, hgoing⟩ := hm.fire hwhole hcounter h
    obtain ⟨u, hu, hlast, htaps, hlongest⟩ :=
      @ih _ { t.touch plan.rule.gesture object plan.result with state := next } hgoing
    refine ⟨u, ?_, by rwa [← add_steps], ?_, hlongest⟩
    · have hfire : attempt (t.state.fire plan.rule) = .ok next := by rw [hplan, hnext]; rfl
      rw [Play.fireTimes, if_neg (by rw [h.inSight]; exact Bool.noConfusion), bind_ok_iff]
      refine ⟨next, hfire, ?_⟩
      rw [hgoing.lasting]
      exact hu
    · rw [htaps]
      change t.taps + 1 + k = t.taps + (k + 1)
      omega

end Steady

end Play

end TouchGame
