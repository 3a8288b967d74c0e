import TouchGame.Proofs.Number.Range
import TouchGame.Proofs.Play.Stuck

/-!
# How far a search counts

A search for a way through a game adds to counters, divides by what a rule adds to one, and writes
numbers down. All of it can fail, where a number is infinite or too large for a double. It cannot fail in
a rule-set of moderate numbers: a counter that is driven to a threshold takes as many steps as the
threshold is away, every step changes the other counters by little, and so each condition adds a fixed
number of binary digits to what the counters hold.

* `Moderate` : the numbers of a rule-set lie between a power of two and its inverse.
* `State.Held`, `Trail.Held` : the counters of a state, and the taps of a trail, are within bounds.
* `State.fire_settled` : a rule that fires moves the bound by as much as it adds.
* `bringCounter_settled` : driving a counter adds binary digits to the bound.
* `meetAll_settled` : so does every condition of a rule.
-/

namespace TouchGame.Play

open Number (Within)

/-- The numbers that a search calculates with are moderate. What counters start at, are changed by, set
to and compared with is finite, and at most a power of two; what a rule adds to a counter is nothing, or
at least the inverse of that power; a rule has at most as many actions; and no success rule has so many
conditions that the digits of all of them together exceed those of a double's range. -/
structure Moderate (bits : Nat) (settings : Settings) (g : Game) : Prop where
  secondsPerTap : settings.secondsPerTap.WholeWithin bits
  timeLimit : settings.timeLimit.WholeWithin bits
  initial : ∀ c ∈ g.counters, c.initialValue.Within bits
  changes : ∀ r ∈ g.rules, ∀ name operation value,
    Action.counter name operation (some value) ∈ r.actions → value.Within bits
  actions : ∀ r ∈ g.rules, r.actions.length ≤ 2 ^ bits
  strides : ∀ r ∈ g.rules, ∀ counter up change,
    netChange r counter = .ok change → goes up change = true → change.AtLeast bits
  thresholds : ∀ w ∈ g.rulesFiring "success", ∀ name comparison value,
    Condition.counter name comparison (some value) ∈ w.conditions → value.Within bits
  -- A summand has to lie 54 digits below a double to leave its power of two alone, each condition adds
  -- the digits of a gap, of a step and of what a rule does on the side, and doubles end at `2 ^ 1024`.
  digits : ∀ w ∈ g.rulesFiring "success",
    2 * bits + 54 + w.conditions.length * (3 * bits + 2) ≤ 1022

/-- A fault of arithmetic, in a rule-set of numbers that are not moderate. -/
def Excess (bits : Nat) (settings : Settings) (g : Game) (fault : Fault) : Prop :=
  (∃ cause, fault = .arithmetic cause) ∧ ¬ Moderate bits settings g

/-- A setback that is no fault, or a fault of arithmetic in a rule-set of numbers that are not
moderate. -/
def Stall (bits : Nat) (settings : Settings) (g : Game) : Setback → Prop
  | .blocked _ => True
  | .fault cause => Excess bits settings g cause

variable {bits p q bound : Nat} {settings : Settings} {g : Game} {r w : Rule} {a : Action} {s : State}
  {α : Type}

/-! ## Steps that can fail -/

theorem arithmetic_settled {x : Except ArithmeticFault α} {holds : α → Prop}
    (h : Moderate bits settings g → ∃ a, x = .ok a ∧ holds a) :
    Settled (Excess bits settings g) (fun a => Moderate bits settings g → holds a) (arithmetic x) := by
  cases x with
  | error cause =>
    refine ⟨⟨cause, rfl⟩, fun hm => ?_⟩
    obtain ⟨a, ha, _⟩ := h hm
    cases ha
  | ok a =>
    intro hm
    obtain ⟨b, hb, hholds⟩ := h hm
    cases hb
    exact hholds

theorem arithmetic_returns {x : Except ArithmeticFault α}
    (h : Moderate bits settings g → ∃ a, x = .ok a) :
    Settled (Excess bits settings g) (fun _ => True) (arithmetic x) := by
  have hsettled : Settled (Excess bits settings g) (fun _ => Moderate bits settings g → True)
      (arithmetic x) := arithmetic_settled fun hm => (h hm).imp fun _ ha => ⟨ha, trivial⟩
  exact hsettled.mono fun _ _ => trivial

theorem attempt_settled {x : Except Fault α} {holds : α → Prop}
    (h : Settled (Excess bits settings g) holds x) :
    Settled (Stall bits settings g) holds (attempt x) := by
  cases x <;> exact h

theorem blocked_settled {reason : Blocker} {holds : α → Prop} :
    Settled (Stall bits settings g) holds (blocked reason : Attempt α) :=
  trivial

/-! ## Room -/

/-- Doubles within a power of two are far above the moderate numbers and far below the largest double,
and a bound for whole numbers is within the same power. -/
structure Room (bits p bound : Nat) : Prop where
  above : bits + 54 ≤ p
  below : p ≤ 1022
  held : bound ≤ 2 ^ p

theorem Room.less {low : Nat} (h : Room bits p bound) (hlow : low ≤ bound) : Room bits p low :=
  ⟨h.above, h.below, Nat.le_trans hlow h.held⟩

theorem zero_held : Number.Held p bound 0 :=
  .int (Nat.zero_le _)

theorem one_within : Number.Within p 1 :=
  .int Nat.one_le_two_pow

/-- A run moves a bound by as much as all its steps. -/
theorem run_settled {β : Type} (step : β → α → Except Fault β) (holds : Nat → β → Prop)
    {list : List α} {start : β}
    (hstep : ∀ a ∈ list, ∀ bound b, (Moderate bits settings g → Room bits p (bound + 2 ^ bits)) →
      (Moderate bits settings g → holds bound b) → Settled (Excess bits settings g)
        (fun next => Moderate bits settings g → holds (bound + 2 ^ bits) next) (step b a))
    (hroom : Moderate bits settings g → Room bits p (bound + list.length * 2 ^ bits))
    (h : Moderate bits settings g → holds bound start) :
    Settled (Excess bits settings g)
      (fun last => Moderate bits settings g → holds (bound + list.length * 2 ^ bits) last)
      (list.foldlM step start) := by
  induction list generalizing bound start with
  | nil =>
    intro hm
    rw [List.length_nil, Nat.zero_mul]
    exact h hm
  | cons a rest ih =>
    have hsteps : bound + (a :: rest).length * 2 ^ bits =
        bound + 2 ^ bits + rest.length * 2 ^ bits := by
      rw [List.length_cons, Nat.succ_mul]
      omega
    rw [hsteps] at hroom ⊢
    rw [List.foldlM_cons]
    refine (hstep a List.mem_cons_self bound start
      (fun hm => (hroom hm).less (Nat.le_add_right _ _)) h).bind fun next _ hnext => ?_
    exact ih (fun c hc => hstep c (List.mem_cons_of_mem a hc)) hroom hnext

theorem Moderate.actions_le {n : Nat} (hm : Moderate bits settings g) (hr : r ∈ g.rules)
    (hn : n ≤ r.actions.length) : bound + n * 2 ^ bits ≤ bound + 2 ^ (2 * bits) := by
  rw [Nat.two_mul, Nat.pow_add]
  exact Nat.add_le_add_left (Nat.mul_le_mul_right _ (Nat.le_trans hn (hm.actions r hr))) bound

/-! ## Firing rules -/

def State.Held (p bound : Nat) (s : State) : Prop :=
  ∀ id, (s.counter id).Held p bound

namespace State

theorem Held.mono {low high : Nat} (hpq : p ≤ q) (hbound : low ≤ high) (h : s.Held p low) :
    s.Held q high :=
  fun id => (h id).mono hpq hbound

theorem Held.setCounter {id : String} {value : Number} (h : s.Held p bound)
    (hvalue : value.Held p bound) : (s.setCounter id value).Held p bound := by
  intro other
  rw [counter_setCounter]
  split
  · exact hvalue
  · exact h other

theorem Held.finish {outcome : Outcome} (h : s.Held p bound) : (s.finish outcome).Held p bound := by
  intro id
  rw [counter_finish]
  exact h id

end State

theorem getD_within {value : Option Number} {default : Number} (hdefault : default.Within bits)
    (h : ∀ n, value = some n → n.Within bits) : (value.getD default).Within bits := by
  cases value with
  | none => exact hdefault
  | some n => exact h n rfl

theorem counterChange?_within {operation : Slot String} {value : Option Number} {change : Number}
    (h : ∀ n, value = some n → n.Within bits) (hchange : counterChange? operation value = some change) :
    change.Within bits := by
  have hvalue : (value.getD 1).Within bits := getD_within one_within h
  unfold counterChange? at hchange
  split at hchange
  · cases hchange
    exact hvalue
  · cases hchange
    exact hvalue
  · cases hchange
    exact hvalue.neg
  · cases hchange
    exact hvalue.neg
  · cases hchange

theorem add_settled {value change : Number}
    (hroom : Moderate bits settings g → Room bits p (bound + 2 ^ bits))
    (hvalue : Moderate bits settings g → value.Held p bound)
    (hchange : Moderate bits settings g → change.Within bits) :
    Settled (Excess bits settings g)
      (fun sum => Moderate bits settings g → sum.Held p (bound + 2 ^ bits))
      (arithmetic (value.add change)) := by
  refine arithmetic_settled fun hm => ?_
  obtain ⟨habove, hbelow, -⟩ := hroom hm
  have hheld : bound ≤ 2 ^ p := ((hroom hm).less (Nat.le_add_right _ _)).held
  exact (hvalue hm).add (hchange hm) habove (by omega) hheld (Nat.le_refl _)

theorem State.operate_settled {id : String} {operation : Slot String} {value : Option Number}
    (hroom : Moderate bits settings g → Room bits p (bound + 2 ^ bits))
    (hs : Moderate bits settings g → s.Held p bound)
    (hvalue : Moderate bits settings g → ∀ n, value = some n → n.Within bits) :
    Settled (Excess bits settings g)
      (fun u => Moderate bits settings g → u.Held p (bound + 2 ^ bits))
      (s.operate id operation value) := by
  have hwider : Moderate bits settings g → s.Held p (bound + 2 ^ bits) := fun hm =>
    (hs hm).mono (Nat.le_refl _) (Nat.le_add_right _ _)
  have hbits : Moderate bits settings g → bits ≤ p := fun hm => by
    have := (hroom hm).above
    omega
  unfold State.operate
  split
  · intro hm
    have hset : (value.getD 0).Within bits := getD_within zero_held (hvalue hm)
    exact (hwider hm).setCounter (Number.Held.mono (hbits hm) (Nat.le_add_left _ _) hset)
  · split
    · rename_i change hchange
      refine (add_settled hroom (fun hm => hs hm id)
        fun hm => counterChange?_within (hvalue hm) hchange).bind fun sum _ hsum => ?_
      exact fun hm => (hwider hm).setCounter (hsum hm)
    · exact hwider

/-- **An action moves the bound of the counters by the size of a moderate number.** -/
theorem State.after_settled (hr : r ∈ g.rules) (ha : a ∈ r.actions) (htype : a.kind.typeFault? = none)
    (hroom : Moderate bits settings g → Room bits p (bound + 2 ^ bits))
    (hs : Moderate bits settings g → s.Held p bound) :
    Settled (Excess bits settings g)
      (fun u => Moderate bits settings g → u.Held p (bound + 2 ^ bits)) (State.after r s a) := by
  have hwider : Moderate bits settings g → s.Held p (bound + 2 ^ bits) := fun hm =>
    (hs hm).mono (Nat.le_refl _) (Nat.le_add_right _ _)
  cases a with
  | counter name operation value =>
    simp only [State.after]
    split
    · refine State.operate_settled hroom hs fun hm n hn => ?_
      subst hn
      exact hm.changes r hr name operation n ha
    · exact hwider
  | success => exact fun hm => (hwider hm).finish
  | failure => exact fun hm => (hwider hm).finish
  | unknown type extras =>
    rw [Action.kind] at htype
    simp only [State.after, htype]
    exact hwider
  | hide =>
    simp only [State.after]
    split <;> exact hwider
  | reveal =>
    simp only [State.after]
    split <;> exact hwider
  | setFlag =>
    simp only [State.after]
    split <;> exact hwider
  | toggleFlag =>
    simp only [State.after]
    split <;> exact hwider
  | _ => exact hwider

/-- No action of a rule-set has a type that cannot be looked up, and every wait can be told in
seconds. -/
structure Vetted (g : Game) : Prop where
  types : ∀ r ∈ g.rules, ∀ a ∈ r.actions, a.kind.typeFault? = none
  waits : ∀ r ∈ g.rules, ∀ type seconds interval,
    Condition.time type seconds interval ∈ r.conditions → (waitOf seconds interval).HasReal

/-- **A rule that fires moves the bound of the counters by as much as all its actions.** -/
theorem State.fire_settled (hg : Vetted g) (hr : r ∈ g.rules)
    (hroom : Moderate bits settings g → Room bits p (bound + 2 ^ (2 * bits)))
    (hs : Moderate bits settings g → s.Held p bound) :
    Settled (Excess bits settings g)
      (fun u => Moderate bits settings g → u.Held p (bound + 2 ^ (2 * bits))) (s.fire r) := by
  have hrun := run_settled (State.after r) (fun bound u => u.Held p bound)
    (fun a ha _ _ => State.after_settled hr ha (hg.types r hr a ha))
    (fun hm => (hroom hm).less (hm.actions_le hr (Nat.le_refl _))) hs
  exact hrun.mono fun u hu hm => (hu hm).mono (Nat.le_refl _) (hm.actions_le hr (Nat.le_refl _))

/-! ## Driving a counter -/

theorem changeOf?_within {counter : String} {change : Number} (hm : Moderate bits settings g)
    (hr : r ∈ g.rules) (ha : a ∈ r.actions) (hchange : changeOf? counter a = some change) :
    change.Within bits := by
  obtain ⟨operation, value, rfl, hoperation⟩ := changeOf?_eq_some hchange
  refine counterChange?_within (fun n hn => ?_) hoperation
  subst hn
  exact hm.changes r hr _ _ n ha

/-- What a rule adds to a counter is at most the square of a moderate number. -/
theorem netChange_settled {counter : String} (hr : r ∈ g.rules)
    (hdigits : Moderate bits settings g → 2 * bits + 54 ≤ 1022) :
    Settled (Excess bits settings g)
      (fun change => Moderate bits settings g → change.Within (2 * bits + 54))
      (netChange r counter) := by
  have hlength : (r.actions.filterMap (changeOf? counter)).length ≤ r.actions.length :=
    List.length_filterMap_le _ _
  have hroom : Moderate bits settings g → Room bits (2 * bits + 54) (0 + 2 ^ (2 * bits)) := fun hm =>
    ⟨by omega, hdigits hm, by
      rw [Nat.zero_add]
      exact Nat.pow_le_pow_right (by decide) (by omega)⟩
  have hwithin : ∀ change ∈ r.actions.filterMap (changeOf? counter),
      Moderate bits settings g → change.Within bits := by
    intro change hchange hm
    obtain ⟨a, ha, hchange⟩ := List.mem_filterMap.mp hchange
    exact changeOf?_within hm hr ha hchange
  have hrun := run_settled (fun (sum : Number) change => arithmetic (sum.add change))
    (fun bound sum => sum.Held (2 * bits + 54) bound)
    (fun change hchange _ _ hroom hsum => add_settled hroom hsum (hwithin change hchange))
    (fun hm => (hroom hm).less (hm.actions_le hr hlength)) fun _ => zero_held
  exact hrun.mono fun sum hsum hm => (hsum hm).mono (Nat.le_refl _)
    (Nat.le_trans (hm.actions_le hr hlength) (hroom hm).held)

theorem kindWord_add {a c : Number} {n : Int} (h : a.add (.int n) = .ok c) :
    c.kindWord = a.kindWord := by
  cases a with
  | int =>
    cases h
    rfl
  | real x =>
    rw [Number.add, Number.lift] at h
    · simp only [bind_ok_iff, pure_ok_iff] at h
      obtain ⟨_, _, _, _, rfl⟩ := h
      rfl
    · simp

theorem stride_of_whole {counter : String} {up : Bool} {change : Number}
    (hwhole : ∀ a ∈ r.actions, ∀ step, changeOf? counter a = some step → ∃ n, step = .int n)
    (hnet : netChange r counter = .ok change) (hgoes : goes up change = true) :
    change.AtLeast bits := by
  have hkind : change.kindWord = (0 : Number).kindWord := by
    refine foldlM_keeps (fun step hstep sum next hnext => ?_) hnet
    obtain ⟨a, ha, hstep⟩ := List.mem_filterMap.mp hstep
    obtain ⟨n, rfl⟩ := hwhole a ha step hstep
    exact kindWord_add (mapError_ok_iff.mp hnext)
  cases change with
  | int n =>
    refine .int ?_
    rintro rfl
    have hstays : goes up (.int 0) = false := by
      unfold goes
      split <;> exact Number.lt_irrefl (.int 0)
    rw [hstays] at hgoes
    cases hgoes
  | real => exact absurd hkind (by simp [Number.kindWord])

/-- A mover that is found is a rule of the list, and what it adds is neither too large nor too small. -/
theorem firstMover?_settled {counter : String} {up : Bool} {rules : List Rule}
    (hrules : ∀ r ∈ rules, r ∈ g.rules)
    (hdigits : Moderate bits settings g → 2 * bits + 54 ≤ 1022) :
    Settled (Excess bits settings g)
      (fun found => ∀ r change, found = some (r, change) → r ∈ g.rules ∧
        (Moderate bits settings g → change.Within (2 * bits + 54) ∧ change.AtLeast bits))
      (firstMover? counter up rules) := by
  induction rules with
  | nil =>
    intro r change h
    cases h
  | cons r rest ih =>
    have hr := hrules r List.mem_cons_self
    rw [firstMover?]
    refine (netChange_settled hr hdigits).bind fun change hnet hchange => ?_
    split
    · rename_i hgoes
      intro mover moved h
      cases h
      exact ⟨hr, fun hm => ⟨hchange hm, hm.strides r hr counter up change hnet hgoes⟩⟩
    · exact ih fun q hq => hrules q (List.mem_cons_of_mem r hq)

theorem setter?_within {counter : String} {accepts : Number → Bool} {value : Number}
    (hm : Moderate bits settings g) (h : setter? g counter accepts = some (r, value)) :
    value.Within bits := by
  obtain ⟨q, hq, h⟩ := List.exists_of_findSome?_eq_some h
  simp only [Option.map_eq_some_iff, Prod.mk.injEq] at h
  obtain ⟨found, hfound, rfl, rfl⟩ := h
  obtain ⟨a, ha, hset⟩ := List.mem_filterMap.mp (List.mem_of_find?_eq_some hfound)
  obtain ⟨setting, rfl, rfl⟩ := settingOf?_eq_some hset
  refine getD_within zero_held fun n hn => ?_
  subst hn
  exact hm.changes q hq _ _ n ha

/-- The binary digits that one condition adds to what the counters hold. -/
def digitsPerCondition (bits : Nat) : Nat :=
  3 * bits + 2

/-- The counters hold numbers with so many binary digits that those of one more condition fit. -/
structure Stage (bits p : Nat) : Prop where
  above : bits + 54 ≤ p
  below : p + digitsPerCondition bits ≤ 1022

theorem beside_within {threshold : Number} (hthreshold : threshold.Within bits) (hp : bits + 54 ≤ p)
    (hbelow : p ≤ 1022) : (∃ above, threshold.add 1 = .ok above ∧ above.Within p) ∧
      ∃ below, threshold.sub 1 = .ok below ∧ below.Within p := by
  constructor
  · have hshort : threshold.Held p (2 ^ bits) :=
      Number.Held.mono (by omega) (Nat.le_refl _) hthreshold
    have hlow : (2 : Nat) ^ (bits + 1) ≤ 2 ^ p := Nat.pow_le_pow_right (by decide) (by omega)
    rw [Nat.pow_succ] at hlow
    obtain ⟨above, habove, hheld⟩ :=
      hshort.add one_within hp (by omega) (by omega) (Nat.le_refl _)
    exact ⟨above, habove, hheld.mono (Nat.le_refl _) (by omega)⟩
  · obtain ⟨below, hbelow, hwithin⟩ := hthreshold.sub one_within (by omega)
    exact ⟨below, hbelow, hwithin.mono (by omega)⟩

/-- A gap is at most twice as large as what the counters hold. -/
theorem gap_settled {compare : Comparison} {threshold current : Number}
    (hstage : Moderate bits settings g → Stage bits p)
    (hthreshold : Moderate bits settings g → threshold.Within bits)
    (hcurrent : Moderate bits settings g → current.Within p) :
    Settled (Excess bits settings g)
      (fun distance => Moderate bits settings g → distance.Within (p + 1))
      (gap compare threshold current) := by
  unfold gap
  refine arithmetic_settled fun hm => ?_
  obtain ⟨habove, hbelow⟩ := hstage hm
  rw [digitsPerCondition] at hbelow
  obtain ⟨⟨above, habove, haboveWithin⟩, below, hbelow, hbelowWithin⟩ :=
    beside_within (hthreshold hm) habove (by omega)
  have hthreshold : threshold.Within p := (hthreshold hm).mono (by omega)
  have hdistance {start : Number} (h : start.Within p) := h.sub (hcurrent hm) (by omega)
  have hzero : Within (p + 1) 0 := zero_held
  cases compare with
  | equals => exact hdistance hthreshold
  | greaterOrEqual =>
    obtain ⟨distance, hdistance, hwithin⟩ := hdistance hthreshold
    refine ⟨Number.max 0 distance, ?_, hzero.max hwithin⟩
    simp only [hdistance, pure, Except.pure, bind, Except.bind]
  | lessOrEqual =>
    obtain ⟨distance, hdistance, hwithin⟩ := hdistance hthreshold
    refine ⟨Number.min 0 distance, ?_, hzero.min hwithin⟩
    simp only [hdistance, pure, Except.pure, bind, Except.bind]
  | greater =>
    obtain ⟨distance, hdistance, hwithin⟩ := hdistance haboveWithin
    refine ⟨Number.max 0 distance, ?_, hzero.max hwithin⟩
    simp only [habove, hdistance, pure, Except.pure, bind, Except.bind]
  | less =>
    obtain ⟨distance, hdistance, hwithin⟩ := hdistance hbelowWithin
    refine ⟨Number.min 0 distance, ?_, hzero.min hwithin⟩
    simp only [hbelow, hdistance, pure, Except.pure, bind, Except.bind]

theorem times_settled {distance change : Number}
    (hstage : Moderate bits settings g → Stage bits p)
    (hdistance : Moderate bits settings g → distance.Within (p + 1))
    (hchange : Moderate bits settings g → change.Within (2 * bits + 54) ∧ change.AtLeast bits) :
    Settled (Excess bits settings g)
      (fun times => Moderate bits settings g → times.toNat ≤ 2 ^ (p + 1 + bits))
      (arithmetic (do Number.ceil (← distance.abs.quotient change.abs))) := by
  refine arithmetic_settled fun hm => ?_
  obtain ⟨habove, hbelow⟩ := hstage hm
  rw [digitsPerCondition] at hbelow
  obtain ⟨hwithin, hatLeast⟩ := hchange hm
  obtain ⟨x, hx, hrange⟩ :=
    Within.quotient (hdistance hm).abs hwithin.abs hatLeast.abs (by omega) (by omega)
  rw [hx]
  exact Number.ceil_within hrange

/-- **A plan fires a rule of the rule-set, at most as often as a gap is steps wide.** -/
theorem planCounter_settled {counter : String} {compare : Comparison} {threshold distance : Number}
    (hstage : Moderate bits settings g → Stage bits p)
    (hdistance : Moderate bits settings g → distance.Within (p + 1)) :
    Settled (Stall bits settings g)
      (fun plan => plan.rule ∈ g.rules ∧
        (Moderate bits settings g → plan.times ≤ 2 ^ (p + 1 + bits)))
      (planCounter g counter compare threshold distance) := by
  have hrange : Moderate bits settings g → 2 * bits + 54 ≤ 1022 := fun hm => by
    obtain ⟨habove, hbelow⟩ := hstage hm
    rw [digitsPerCondition] at hbelow
    omega
  unfold planCounter
  refine (attempt_settled (firstMover?_settled (fun _ hr => hr) hrange)).bind fun found _ hfound => ?_
  split
  · rename_i mover change _
    obtain ⟨hr, hchange⟩ := hfound mover change rfl
    refine (attempt_settled (times_settled hstage hdistance hchange)).bind fun times _ htimes => ?_
    refine (attempt_settled (arithmetic_returns fun hm => ?_)).bind fun shown _ _ => ?_
    · have := hrange hm
      exact ((hchange hm).1.hasReal (by omega)).generalSigned
    · exact ⟨hr, htimes⟩
  · split
    · rename_i setter value hset
      refine (attempt_settled (arithmetic_returns fun hm => ?_)).bind fun shown _ _ => ?_
      · have := hrange hm
        exact ((setter?_within hm hset).hasReal (by omega)).general
      · exact ⟨setter?_mem hset, fun _ => Nat.one_le_two_pow⟩
    · exact blocked_settled

/-! ## Trails -/

/-- The counters of a trail's state and its taps are within a power of two, and the longest wait can be
told in seconds. -/
structure Trail.Held (p : Nat) (t : Trail) : Prop where
  state : t.state.Held p (2 ^ p)
  taps : t.taps ≤ 2 ^ p
  longest : t.longest.HasReal

theorem Trail.Held.mono {t : Trail} (hpq : p ≤ q) (h : t.Held p) : t.Held q :=
  have hpow : 2 ^ p ≤ 2 ^ q := Nat.pow_le_pow_right (by decide) hpq
  ⟨h.state.mono hpq hpow, Nat.le_trans h.taps hpow, h.longest⟩

/-- A rule that fires a number of times moves the bound of the counters as often. -/
theorem fireTimes_settled {plan : Plan} {object counter : String} {threshold : Number} (hg : Vetted g)
    (hplan : plan.rule ∈ g.rules) {times : Nat} {t : Trail}
    (hroom : Moderate bits settings g → Room bits p (bound + times * 2 ^ (2 * bits)))
    (ht : Moderate bits settings g → t.state.Held p bound) :
    Settled (Stall bits settings g)
      (fun u => u.taps ≤ t.taps + times ∧ u.longest = t.longest ∧
        (Moderate bits settings g → u.state.Held p (bound + times * 2 ^ (2 * bits))))
      (fireTimes plan object counter threshold times t) := by
  induction times generalizing t bound with
  | zero =>
    refine ⟨Nat.le_refl _, rfl, fun hm => ?_⟩
    rw [Nat.zero_mul]
    exact ht hm
  | succ times ih =>
    have hsteps : bound + (times + 1) * 2 ^ (2 * bits) =
        bound + 2 ^ (2 * bits) + times * 2 ^ (2 * bits) := by
      rw [Nat.succ_mul]
      omega
    rw [hsteps] at hroom ⊢
    rw [fireTimes]
    split
    · exact blocked_settled
    · refine (attempt_settled (State.fire_settled hg hplan
        (fun hm => (hroom hm).less (Nat.le_add_right _ _)) ht)).bind fun next _ hnext => ?_
      dsimp only
      split
      · exact blocked_settled
      · refine ⟨?_, rfl, fun hm => (hnext hm).mono (Nat.le_refl _) (Nat.le_add_right _ _)⟩
        exact Nat.add_le_add_left (Nat.le_add_left 1 times) t.taps
      · refine (ih hroom hnext).mono fun u hu => ?_
        obtain ⟨htaps, hlongest, hstate⟩ := hu
        refine ⟨?_, hlongest, hstate⟩
        change u.taps ≤ t.taps + 1 + times at htaps
        omega

theorem driven_le {times : Nat} (htimes : times ≤ 2 ^ (p + 1 + bits)) :
    2 ^ p + times * 2 ^ (2 * bits) ≤ 2 ^ (p + digitsPerCondition bits) := by
  have hmoves : times * 2 ^ (2 * bits) ≤ 2 ^ (p + 1 + bits) * 2 ^ (2 * bits) :=
    Nat.mul_le_mul_right _ htimes
  rw [← Nat.pow_add] at hmoves
  have hold : (2 : Nat) ^ p ≤ 2 ^ (p + 1 + bits + 2 * bits) := Nat.pow_le_pow_right (by decide) (by omega)
  have hsum : p + digitsPerCondition bits = p + 1 + bits + 2 * bits + 1 := by
    rw [digitsPerCondition]
    omega
  rw [hsum, Nat.pow_succ]
  omega

/-- **Driving a counter adds a fixed number of binary digits to what the counters hold.** -/
theorem bringCounter_settled {t : Trail} {counter : String} {comparison : Slot String}
    {value : Option Number} (hg : Vetted g) (hstage : Moderate bits settings g → Stage bits p)
    (hvalue : Moderate bits settings g → ∀ n, value = some n → n.Within bits)
    (ht : Moderate bits settings g → t.Held p) :
    Settled (Stall bits settings g)
      (fun u => Moderate bits settings g → u.Held (p + digitsPerCondition bits))
      (bringCounter g t counter comparison value) := by
  have hwider : Moderate bits settings g → t.Held (p + digitsPerCondition bits) := fun hm =>
    (ht hm).mono (Nat.le_add_right _ _)
  have hthreshold : Moderate bits settings g → (thresholdOf value).Within bits := fun hm =>
    getD_within zero_held (hvalue hm)
  unfold bringCounter
  dsimp only
  split
  · exact blocked_settled
  · refine (attempt_settled (gap_settled hstage hthreshold
      fun hm => (ht hm).state counter)).bind fun distance _ hdistance => ?_
    split
    · exact hwider
    · refine (planCounter_settled hstage hdistance).bind fun plan _ hfound => ?_
      obtain ⟨hplan, htimes⟩ := hfound
      split
      · exact blocked_settled
      · have hroom : Moderate bits settings g → Room bits (p + digitsPerCondition bits)
            (2 ^ p + plan.times * 2 ^ (2 * bits)) := fun hm => by
          obtain ⟨habove, hbelow⟩ := hstage hm
          exact ⟨by omega, hbelow, driven_le (htimes hm)⟩
        refine (fireTimes_settled hg hplan hroom fun hm =>
          (ht hm).state.mono (Nat.le_add_right _ _) (Nat.le_refl _)).mono
            fun u hu hm => ?_
        obtain ⟨htaps, hlongest, hstate⟩ := hu
        refine ⟨(hstate hm).mono (Nat.le_refl _) (hroom hm).held, ?_, ?_⟩
        · have htaps' := (ht hm).taps
          have hheld := (hroom hm).held
          have hone : plan.times ≤ plan.times * 2 ^ (2 * bits) :=
            Nat.le_mul_of_pos_right _ (Nat.two_pow_pos _)
          omega
        · rw [hlongest]
          exact (ht hm).longest

theorem Trail.Held.touch {t : Trail} {gesture : Gesture} {target result : String} {next : State}
    (h : t.Held p) (hnext : next.Held (p + digitsPerCondition bits) (2 ^ (p + digitsPerCondition bits))) :
    Trail.Held (p + digitsPerCondition bits)
      { t.touch gesture target result with state := next } where
  state := hnext
  taps := by
    have hheld : 2 ^ p + 1 * 2 ^ (2 * bits) ≤ 2 ^ (p + digitsPerCondition bits) :=
      driven_le Nat.one_le_two_pow
    have hpositive := Nat.two_pow_pos (2 * bits)
    have htaps := h.taps
    change t.taps + 1 ≤ _
    omega
  longest := h.longest

/-- Switching a flag takes no more room than driving a counter. -/
theorem firstSwitch_settled {t : Trail} {flag : String} {on : Bool} {rules : List Rule} (hg : Vetted g)
    (hrules : ∀ r ∈ rules, r ∈ g.rules) (hstage : Moderate bits settings g → Stage bits p)
    (ht : Moderate bits settings g → t.Held p) :
    Settled (Stall bits settings g)
      (fun u => Moderate bits settings g → u.Held (p + digitsPerCondition bits))
      (firstSwitch t flag on rules) := by
  have hroom : Moderate bits settings g →
      Room bits (p + digitsPerCondition bits) (2 ^ p + 2 ^ (2 * bits)) := fun hm => by
    obtain ⟨habove, hbelow⟩ := hstage hm
    have hheld : 2 ^ p + 1 * 2 ^ (2 * bits) ≤ 2 ^ (p + digitsPerCondition bits) :=
      driven_le Nat.one_le_two_pow
    rw [Nat.one_mul] at hheld
    exact ⟨by omega, hbelow, hheld⟩
  induction rules with
  | nil => exact blocked_settled
  | cons r rest ih =>
    have hrest := ih fun q hq => hrules q (List.mem_cons_of_mem r hq)
    rw [firstSwitch]
    refine (attempt_settled (State.fire_settled hg (hrules r List.mem_cons_self) hroom
      fun hm => (ht hm).state.mono (Nat.le_add_right _ _) (Nat.le_refl _))).bind fun next _ hnext => ?_
    split
    · exact hrest
    · split
      · exact hrest
      · split
        · exact blocked_settled
        · exact fun hm => (ht hm).touch ((hnext hm).mono (Nat.le_refl _) (hroom hm).held)

/-! ## Conditions -/

/-- **Every condition of a rule adds a fixed number of binary digits to what the counters hold.** -/
theorem meet_settled {t : Trail} {c : Condition} (hg : Vetted g) (hw : w ∈ g.rulesFiring "success")
    (hc : c ∈ w.conditions) (hstage : Moderate bits settings g → Stage bits p)
    (ht : Moderate bits settings g → t.Held p) :
    Settled (Stall bits settings g)
      (fun u => Moderate bits settings g → u.Held (p + digitsPerCondition bits)) (meet g w t c) := by
  have hwider : Moderate bits settings g → t.Held (p + digitsPerCondition bits) := fun hm =>
    (ht hm).mono (Nat.le_add_right _ _)
  cases c with
  | counter name comparison value =>
    simp only [meet]
    split
    · refine bringCounter_settled hg hstage (fun hm n hn => ?_) ht
      subst hn
      exact hm.thresholds w hw name comparison n hc
    · exact hwider
  | flag name flagState =>
    simp only [meet, bringFlag]
    split
    · split
      · exact hwider
      · exact firstSwitch_settled hg (fun _ hr => hr) hstage ht
    · exact hwider
  | touch target touchType =>
    simp only [meet]
    split
    · exact blocked_settled
    · exact fun hm => (ht hm).touch (hwider hm).state
  | time type seconds interval =>
    have hwait := hg.waits w (List.mem_of_mem_filter hw) type seconds interval hc
    exact fun hm => ⟨(hwider hm).state, (hwider hm).taps, (hwider hm).longest.max hwait⟩
  | _ => exact hwider

/-- **So do all conditions of a rule, one after the other.** -/
theorem meetAll_settled {t : Trail} {conditions : List Condition} (hg : Vetted g)
    (hw : w ∈ g.rulesFiring "success") (hconditions : ∀ c ∈ conditions, c ∈ w.conditions)
    (hstages : Moderate bits settings g → bits + 54 ≤ p ∧
      p + conditions.length * digitsPerCondition bits ≤ 1022)
    (ht : Moderate bits settings g → t.Held p) :
    Settled (Stall bits settings g)
      (fun u => Moderate bits settings g → u.Held (p + conditions.length * digitsPerCondition bits))
      (meetAll g w conditions t) := by
  induction conditions generalizing t p with
  | nil =>
    intro hm
    rw [List.length_nil, Nat.zero_mul]
    exact ht hm
  | cons c rest ih =>
    have hdigits : p + (c :: rest).length * digitsPerCondition bits =
        p + digitsPerCondition bits + rest.length * digitsPerCondition bits := by
      rw [List.length_cons, Nat.succ_mul]
      omega
    rw [hdigits] at hstages ⊢
    rw [meetAll]
    have hstage : Moderate bits settings g → Stage bits p := fun hm => by
      obtain ⟨habove, hbelow⟩ := hstages hm
      exact ⟨habove, by omega⟩
    refine (meet_settled hg hw (hconditions c List.mem_cons_self) hstage ht).bind
      fun next _ hnext => ?_
    split
    · exact fun hm => (hnext hm).mono (Nat.le_add_right _ _)
    · refine ih (fun d hd => hconditions d (List.mem_cons_of_mem c hd)) (fun hm => ?_) hnext
      obtain ⟨habove, hbelow⟩ := hstages hm
      exact ⟨by omega, hbelow⟩

end TouchGame.Play
