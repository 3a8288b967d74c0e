import TouchGame.Proofs.Check.References
import TouchGame.Proofs.Check.Resolution
import TouchGame.Proofs.Mending.Game
import TouchGame.Proofs.Repair.AnyOrder

/-!
# Numbers of a clean rule-set

The fieldwise check measures the numbers of a rule-set. Some of its checks ask whether a number is in
its range; others ask whether it is too small, and then whether it is too large. A NaN compares with
nothing, so the former refuse it, and it slips through the latter. The volume of the music is measured
by no check at all. Every other number of a rule-set without findings is in its range, those inside
choices included, to any depth.

* `Measure.allows` : the range of each kind of number.
* `Game.Measures` : the numbers of a rule-set with their kinds.
* `Passes` : the check of a kind of number finds nothing; `allows_of_passes` says what follows.
* `clean_numbers` : the numbers of a rule-set without findings.
-/

namespace TouchGame

/-! ## What is measured -/

/-- The kinds of numbers that have a range. -/
inductive Measure where
  | coordinate
  | scale
  | seconds
  | interval
  | chance
  | volume
  | musicVolume
  | speed
  | duration
  | effectDuration
  | scaleAmount
  | points
  deriving DecidableEq, Repr

namespace Measure

/-- Whether a number is in the range of its kind. -/
def allows : Measure → Number → Bool
  | .coordinate, n | .chance, n | .volume, n | .musicVolume, n => n.within 0 1
  | .scale, n | .scaleAmount, n => Number.lt 0 n && n.le 3
  | .seconds, n => n.within 0 60
  | .interval, n => Number.lt 0 n && n.le 10
  | .speed, n => n.within (.thousandths 500) 15
  | .duration, n => Number.lt 0 n
  | .effectDuration, n => Number.lt 0 n && n.le 5
  | .points, n => Number.le 0 n

/-- Whether the check of a kind asks for numbers outside of the range, not for those in it. -/
def asksOutside : Measure → Bool
  | .scale | .seconds | .interval | .duration | .effectDuration | .scaleAmount | .points => true
  | _ => false

/-- A number that the checks overlook: a NaN where they ask for numbers outside of the range, and a
volume of the music that is out of its range. -/
def Overlooks (m : Measure) (n : Number) : Prop :=
  m.asksOutside = true ∧ n = .real .nan ∨ m = .musicVolume ∧ m.allows n = false

def ofOption (m : Measure) (value : Option Number) : List (Measure × Number) :=
  value.toList.map fun n => (m, n)

def ofPoint (m : Measure) (p : Point) : List (Measure × Number) :=
  [(m, p.x), (m, p.y)]

end Measure

def Placement.measures (p : Placement) : List (Measure × Number) :=
  Measure.coordinate.ofPoint p.position ++ (p.scale.get?.map Measure.scale.ofPoint).getD []

def ObjectPlan.measures (o : ObjectPlan) : List (Measure × Number) :=
  (o.initialPosition.get?.map Measure.coordinate.ofPoint).getD []

/-- The numbers of a condition. -/
def Condition.measures : Condition → List (Measure × Number)
  | .time _ seconds interval => Measure.seconds.ofOption seconds ++ Measure.interval.ofOption interval
  | .random chance _ => Measure.chance.ofOption chance
  | .position _ _ (.value region) => Measure.coordinate.ofPoint ⟨region.x, region.y⟩
  | _ => []

/-- The numbers of a movement. -/
def Movement.measures (m : Movement) : List (Measure × Number) :=
  Measure.speed.ofOption m.speed ++ Measure.duration.ofOption m.duration ++
    match m.target with
    | .value (.point p) => Measure.coordinate.ofPoint p
    | _ => []

/-- The numbers of an action by itself; of a choice, the probabilities of its options. -/
def Action.measures : Action → List (Measure × Number)
  | .move _ (.value m) => m.measures
  | .hide _ _ duration | .reveal _ _ duration => Measure.duration.ofOption duration
  | .effect _ (.value e) =>
    Measure.effectDuration.ofOption e.duration ++ Measure.scaleAmount.ofOption e.scaleAmount
  | .addScore points => Measure.points.ofOption points
  | .playSound _ volume => Measure.volume.ofOption volume
  | .playMusic volume => Measure.musicVolume.ofOption volume
  | .choice options _ _ => options.flatMap fun o => Measure.chance.ofOption o.probability
  | _ => []

/-- The numbers of a rule-set with their kinds; those of actions inside any number of choices. -/
inductive Game.Measures (g : Game) (m : Measure) (n : Number) : Prop
  | placed {p : Placement} (hp : p ∈ g.layout) (h : (m, n) ∈ p.measures)
  | planned {o : ObjectPlan} (ho : o ∈ g.objects) (h : (m, n) ∈ o.measures)
  | tested {r : Rule} {c : Condition} (hr : r ∈ g.rules) (hc : c ∈ r.conditions)
      (h : (m, n) ∈ c.measures)
  | done {r : Rule} {a b : Action} {k : Nat} (hr : r ∈ g.rules) (ha : a ∈ r.actions)
      (hb : b ∈ a.inside k) (h : (m, n) ∈ b.measures)

/-! ## The limits as whole numbers -/

namespace Limits

theorem extent?_zero : zero.extent? = (0 : Number).extent? := by decide +kernel

theorem extent?_one : one.extent? = (1 : Number).extent? := by decide +kernel

theorem extent?_fastest : fastest.extent? = (15 : Number).extent? := by decide +kernel

theorem extent?_longestTime : longestTime.extent? = (60 : Number).extent? := by decide +kernel

theorem extent?_longestInterval : longestInterval.extent? = (10 : Number).extent? := by
  decide +kernel

theorem extent?_longestEffect : longestEffect.extent? = (5 : Number).extent? := by decide +kernel

theorem extent?_largestAmount : largestAmount.extent? = (3 : Number).extent? := by decide +kernel

theorem extent?_largestScale : largestScale.extent? = (3 : Number).extent? := by decide +kernel

end Limits

open Check Mending

/-! ## Gauges and ranges -/

namespace Measure

/-- The gauge of a kind of number, if it is checked. -/
def gauge? : Measure → Option Gauge
  | .coordinate => some Mending.coordinate
  | .scale => some Mending.scale
  | .seconds => some Mending.seconds
  | .interval => some Mending.interval
  | .chance => some Mending.chance
  | .volume => some Mending.volume
  | .musicVolume => none
  | .speed => some Mending.speed
  | .duration => some Mending.duration
  | .effectDuration => some effectTime
  | .scaleAmount => some amount
  | .points => some Mending.points

/-- The check of a kind of number finds nothing wrong with a number. -/
def Passes (m : Measure) (n : Number) : Prop :=
  ∀ gauge, m.gauge? = some gauge → gauge.code? n = none

end Measure

section Ranges

variable {m : Measure} {n high : Number} {bound : Int} {least most : Code}

theorem unit_of_silent {code : Code} (h : (if outsideUnit n then some code else none) = none) :
    n.within 0 1 = true := by
  have hinside : n.within Limits.zero Limits.one = true := by simpa [outsideUnit] using h
  rwa [Number.within, Number.ge_congr Limits.extent?_zero, Number.le_congr Limits.extent?_one]
    at hinside

theorem nan_or_atMost (hbound : high.extent? = (Number.int bound).extent?) (h : high.lt n = false) :
    n = .real .nan ∨ n.le (.int bound) = true := by
  rw [← Number.le_congr hbound]
  exact Number.nan_or_le (hbound ▸ rfl) h

theorem positive_of_silent (hbound : high.extent? = (Number.int bound).extent?)
    (h : (if n.le 0 then some least else if high.lt n then some most else none) = none) :
    n = .real .nan ∨ (Number.lt 0 n && n.le (.int bound)) = true := by
  split at h
  · cases h
  · rename_i hlow
    split at h
    · cases h
    · rename_i hhigh
      rw [Bool.not_eq_true] at hlow hhigh
      rcases Number.nan_or_lt rfl hlow with hnan | hlow
      · exact .inl hnan
      · exact (nan_or_atMost hbound hhigh).imp_right fun hhigh =>
          Bool.and_eq_true_iff.mpr ⟨hlow, hhigh⟩

theorem seconds_of_silent (h : Mending.seconds.code? n = none) :
    n = .real .nan ∨ n.within 0 60 = true := by
  simp only [Mending.seconds] at h
  split at h
  · cases h
  · rename_i hlow
    split at h
    · cases h
    · rename_i hhigh
      rw [Bool.not_eq_true] at hlow hhigh
      rcases Number.nan_or_ge rfl hlow with hnan | hlow
      · exact .inl hnan
      · exact (nan_or_atMost Limits.extent?_longestTime hhigh).imp_right fun hhigh =>
          Bool.and_eq_true_iff.mpr ⟨hlow, hhigh⟩

theorem speed_of_silent (h : Mending.speed.code? n = none) :
    n.within (.thousandths 500) 15 = true := by
  simp only [Mending.speed] at h
  split at h
  · cases h
  · split at h
    · rename_i hinside
      rw [Number.within, Number.le_congr Limits.extent?_fastest, Limits.slowest] at hinside
      rw [Number.within, hinside]
    · cases h

/-- **A number that passes its check is in its range, or overlooked.** -/
theorem Measure.allows_of_passes (h : m.Passes n) : m.allows n = true ∨ m.Overlooks n := by
  have hnan (hm : m.asksOutside = true) (hor : n = .real .nan ∨ m.allows n = true) :
      m.allows n = true ∨ m.Overlooks n :=
    hor.elim (fun hn => .inr (.inl ⟨hm, hn⟩)) .inl
  cases m with
  | coordinate => exact .inl (unit_of_silent (h _ rfl))
  | chance => exact .inl (unit_of_silent (h _ rfl))
  | volume => exact .inl (unit_of_silent (h _ rfl))
  | speed => exact .inl (speed_of_silent (h _ rfl))
  | musicVolume =>
    cases hall : Measure.musicVolume.allows n with
    | true => exact .inl rfl
    | false => exact .inr (.inr ⟨rfl, hall⟩)
  | seconds => exact hnan rfl (seconds_of_silent (h _ rfl))
  | scale => exact hnan rfl (positive_of_silent Limits.extent?_largestScale (h _ rfl))
  | interval => exact hnan rfl (positive_of_silent Limits.extent?_longestInterval (h _ rfl))
  | effectDuration => exact hnan rfl (positive_of_silent Limits.extent?_longestEffect (h _ rfl))
  | scaleAmount => exact hnan rfl (positive_of_silent Limits.extent?_largestAmount (h _ rfl))
  | duration =>
    refine hnan rfl (Number.nan_or_lt rfl ?_)
    simpa [Mending.duration] using h _ rfl
  | points =>
    refine hnan rfl (Number.nan_or_ge rfl ?_)
    simpa [Mending.points] using h _ rfl

theorem Measure.not_allows_of_overlooks (h : m.Overlooks n) : m.allows n = false := by
  rcases h with ⟨hm, rfl⟩ | ⟨_, h⟩
  · cases m with
    | coordinate | chance | volume | musicVolume | speed => cases hm
    | seconds => rw [Measure.allows, Number.within, Number.le_nan, Bool.false_and]
    | scale | interval | effectDuration | scaleAmount =>
      rw [Measure.allows, Number.lt_nan, Bool.false_and]
    | duration => exact Number.lt_nan 0
    | points => exact Number.le_nan 0
  · exact h

end Ranges

/-! ## Parts without findings -/

def AllPass (numbers : List (Measure × Number)) : Prop :=
  ∀ m n, (m, n) ∈ numbers → m.Passes n

theorem allPass_nil : AllPass [] :=
  fun _ _ h => nomatch h

theorem AllPass.append {xs ys : List (Measure × Number)} (hxs : AllPass xs) (hys : AllPass ys) :
    AllPass (xs ++ ys) :=
  fun m n h => (List.mem_append.mp h).elim (hxs m n) (hys m n)

section Parts

variable {m : Measure} {gauge : Gauge} {path : Path} {owns : Location → Prop} {scope : Scope}

theorem passes_of_silent {check : Number → List Finding} {n : Number} (hm : m.gauge? = some gauge)
    (hspeaks : Speaks gauge path owns check) (h : check n = []) : m.Passes n := by
  intro found hfound
  obtain rfl := Option.some.inj (hm.symm.trans hfound)
  cases hcode : gauge.code? n with
  | none => rfl
  | some c =>
    obtain ⟨f, hf, _⟩ := hspeaks.speaks hcode
    rw [h] at hf
    cases hf

theorem allPass_option {check : Number → List Finding} {value : Option Number}
    (hm : m.gauge? = some gauge) (hspeaks : Speaks gauge path owns check)
    (h : ifPresent value check = []) : AllPass (m.ofOption value) := by
  cases value with
  | none => exact allPass_nil
  | some n =>
    intro m' n' hmem
    cases List.mem_singleton.mp hmem
    exact passes_of_silent hm hspeaks h

theorem allPass_coordinates {check : String → Number → List Finding} {base : Path} {p : Point}
    (hm : m.gauge? = some gauge) (hspeaks : ∀ axis, Speaks gauge (base ++ [.name axis]) owns (check axis))
    (hx : check "x" p.x = []) (hy : check "y" p.y = []) : AllPass (m.ofPoint p) := by
  intro m' n' hmem
  rcases List.mem_cons.mp hmem with heq | hmem
  · cases heq
    exact passes_of_silent hm (hspeaks "x") hx
  · cases List.mem_singleton.mp hmem
    exact passes_of_silent hm (hspeaks "y") hy

theorem allPass_point {check : String → Number → List Finding} {base : Path} {p : Point}
    (hm : m.gauge? = some gauge) (hspeaks : ∀ axis, Speaks gauge (base ++ [.name axis]) owns (check axis))
    (h : ((axes p).flatMap fun (axis, value) => check axis value) = []) : AllPass (m.ofPoint p) := by
  simp only [axes, List.flatMap_cons, List.flatMap_nil, List.append_nil, List.append_eq_nil_iff] at h
  exact allPass_coordinates hm hspeaks h.1 h.2

theorem placement_passes {index : Nat} {p : Placement} (h : placement index p = []) :
    AllPass p.measures := by
  obtain ⟨hposition, hscale⟩ := List.append_eq_nil_iff.mp h
  refine (allPass_point rfl (speaks_placedCoordinate _ p.object) hposition).append ?_
  cases hs : p.scale.get? with
  | none => exact allPass_nil
  | some s =>
    rw [hs] at hscale
    exact allPass_point rfl (speaks_placedScale _ p.object) hscale

theorem condition_passes {c : Condition} (h : condition scope path c = []) : AllPass c.measures := by
  have hfields : conditionFields scope path c = [] := by
    cases hsupported : scope.vocabulary.hasCondition c.kind with
    | true =>
      rw [condition_of_supported hsupported] at h
      exact (List.append_eq_nil_iff.mp h).2
    | false =>
      rw [condition, hsupported] at h
      cases h
  cases c with
  | time timeType seconds interval =>
    obtain ⟨hseconds, hinterval⟩ := List.append_eq_nil_iff.mp hfields
    exact (allPass_option rfl (speaks_timerSeconds scope path) hseconds).append
      (allPass_option rfl (speaks_timerInterval scope path) hinterval)
  | random chance seed =>
    cases chance with
    | none => exact allPass_nil
    | some n => exact allPass_option rfl (speaks_probability scope _) hfields
  | position target area region =>
    cases region with
    | value region =>
      obtain ⟨hx, hy⟩ := List.append_eq_nil_iff.mp (List.append_eq_nil_iff.mp hfields).1
      exact allPass_coordinates rfl (speaks_regionCoordinate scope path) hx hy
    | _ => exact allPass_nil
  | _ => exact allPass_nil

theorem movement_passes {movement : Movement} (h : Check.movement scope path movement = []) :
    AllPass movement.measures := by
  obtain ⟨hnumbers, hgoal⟩ := List.append_eq_nil_iff.mp h
  obtain ⟨hspeed, hduration⟩ := List.append_eq_nil_iff.mp hnumbers
  refine ((allPass_option rfl (speaks_movementSpeed scope _) hspeed).append
    (allPass_option rfl (speaks_positiveDuration scope _) hduration)).append ?_
  cases htarget : movement.target with
  | value goal =>
    rw [htarget] at hgoal
    cases goal with
    | point p => exact allPass_point rfl (speaks_goalCoordinate scope path) hgoal
    | object id => exact allPass_nil
  | _ => exact allPass_nil

/-- The numbers of an action that is no choice, where its fields have no findings. -/
theorem actionFields_passes {a : Action} (hplain : a.isChoice = false)
    (h : actionFields scope path a = []) : AllPass a.measures := by
  cases a with
  | move target movement =>
    cases movement with
    | value m => exact movement_passes h
    | _ => exact allPass_nil
  | hide target fade duration => exact allPass_option rfl (speaks_positiveDuration scope _) h
  | reveal target fade duration => exact allPass_option rfl (speaks_positiveDuration scope _) h
  | effect target e =>
    cases e with
    | value e =>
      obtain ⟨hduration, hamount⟩ := List.append_eq_nil_iff.mp h
      exact (allPass_option rfl (speaks_effectDuration scope _) hduration).append
        (allPass_option rfl (speaks_effectAmount scope _) hamount)
    | _ => exact allPass_nil
  | addScore points =>
    cases points with
    | none => exact allPass_nil
    | some n => exact allPass_option rfl (speaks_awardedPoints scope _) h
  | playSound sound volume =>
    exact allPass_option rfl (speaks_soundVolume scope _) (List.append_eq_nil_iff.mp h).2
  | playMusic volume =>
    intro m n hmem
    obtain ⟨_, _, heq⟩ := List.mem_map.mp hmem
    cases heq
    intro gauge hgauge
    cases hgauge
  | choice => cases hplain
  | _ => exact allPass_nil

theorem exists_silent {α : Type} {check : Nat → α → List Finding} {start : Nat} {list : List α} {a : α}
    (h : indexed check start list = []) (ha : a ∈ list) : ∃ i, check i a = [] := by
  obtain ⟨i, hi⟩ := forall_of_indexed (List.eq_nil_iff_forall_not_mem.mp h) ha
  exact ⟨i, List.eq_nil_iff_forall_not_mem.mpr hi⟩

/-- **The numbers of an action without findings,** and of all that stands inside its choices. -/
theorem action_passes (a : Action) : ∀ path, action scope path a = [] →
    ∀ k, ∀ b ∈ a.inside k, AllPass b.measures := by
  induction a using Action.nested_induction with
  | plain a hplain =>
    intro path h k b hb
    rw [action_of_plain hplain] at h
    rw [Action.inside_plain hplain hb]
    split at h
    · exact actionFields_passes hplain (List.append_eq_nil_iff.mp h).2
    · cases h
  | choice options mode weights ih =>
    intro path h k b hb
    cases hsupported : scope.vocabulary.hasAction (.str "randomAction") with
    | false =>
      rw [action, hsupported] at h
      cases h
    | true =>
      rw [action_choice options mode weights hsupported] at h
      have hoption {o : ChoiceOption Action} (ho : o ∈ options) :
          ∃ i, optionFindings scope path i o = [] :=
        exists_silent (List.append_eq_nil_iff.mp h).2 ho
      cases k with
      | zero =>
        obtain rfl := List.mem_singleton.mp hb
        intro m n hmem
        obtain ⟨o, ho, hmem⟩ := List.mem_flatMap.mp hmem
        obtain ⟨i, hi⟩ := hoption ho
        exact allPass_option rfl (speaks_probability scope _) (List.append_eq_nil_iff.mp hi).1 m n hmem
      | succ k =>
        obtain ⟨picked, hpicked, hb⟩ := List.mem_flatMap.mp hb
        obtain ⟨o, ho, rfl⟩ := List.mem_map.mp hpicked
        obtain ⟨i, hi⟩ := hoption ho
        exact ih o ho _ (List.append_eq_nil_iff.mp hi).2 k b hb

end Parts

/-! ## Rule-sets without findings -/

section Clean

variable {v : Vocabulary} {g : Game} {m : Measure} {n : Number}

theorem passes_of_measures (h : fieldwise v g = []) (hn : g.Measures m n) : m.Passes n := by
  simp only [fieldwise, layout, initialPositions, List.append_eq_nil_iff] at h
  obtain ⟨⟨⟨_, hlayout, _⟩, hobjects⟩, hrules⟩ := h
  cases hn with
  | placed hp hmem =>
    obtain ⟨i, hi⟩ := exists_silent hlayout hp
    exact placement_passes hi m n hmem
  | planned ho hmem =>
    obtain ⟨i, hi⟩ := exists_silent hobjects ho
    rw [ObjectPlan.measures] at hmem
    unfold pointFindings at hi
    split at hi
    · rename_i p hp
      rw [hp] at hmem
      exact allPass_point rfl (speaks_initialCoordinate i _) hi m n hmem
    · rename_i hp
      rw [hp] at hmem
      cases hmem
  | tested hr hc hmem =>
    obtain ⟨index, hrule⟩ := exists_silent hrules hr
    rw [rule_findings, List.append_eq_nil_iff, List.append_eq_nil_iff] at hrule
    obtain ⟨i, hi⟩ := exists_silent hrule.1.2 hc
    exact condition_passes hi m n hmem
  | done hr ha hb hmem =>
    obtain ⟨index, hrule⟩ := exists_silent hrules hr
    rw [rule_findings, List.append_eq_nil_iff] at hrule
    obtain ⟨i, hi⟩ := exists_silent hrule.2 ha
    exact action_passes _ _ hi _ _ hb m n hmem

/-- **The numbers of a rule-set without findings.** Each of them is in the range of its kind, at any
depth, or is overlooked: a NaN where the check asks for numbers outside of the range, or too loud a
music. So all of them are in their ranges exactly if none of them is overlooked. -/
theorem clean_numbers (h : fieldCheck v g = .ok []) :
    (∀ m n, g.Measures m n → m.allows n = true ∨ m.Overlooks n) ∧
      ((∀ m n, g.Measures m n → m.allows n = true) ↔ ∀ m n, g.Measures m n → ¬ m.Overlooks n) := by
  have hclean : fieldwise v g = [] := (fieldCheck_ok_iff.mp h).2
  have hor : ∀ m n, g.Measures m n → m.allows n = true ∨ m.Overlooks n := fun m n hn =>
    Measure.allows_of_passes (passes_of_measures hclean hn)
  refine ⟨hor, fun hall m n hn hover => ?_, fun hnone m n hn => ?_⟩
  · have hout := Measure.not_allows_of_overlooks hover
    rw [hall m n hn] at hout
    cases hout
  · exact (hor m n hn).resolve_right (hnone m n hn)

end Clean

/-- What a choice may pick: actions with a number whose checks ask for numbers outside of a range, and
music with a volume. -/
def starOptions (n volume : Number) : List (ChoiceOption Action) := [
  ⟨.hide .empty .empty (some n), none, none⟩,
  ⟨.effect .empty (.value ⟨.value "flash", some n, none, some n⟩), none, none⟩,
  ⟨.addScore (some n), none, none⟩,
  ⟨.playMusic (some volume), none, none⟩]

/-- A game with a number in all places whose checks ask for numbers outside of a range, and with a
volume of the music. -/
def starGame (n volume : Number) : Game where
  layout := [⟨"star", ⟨.thousandths 500, .thousandths 500⟩, .value ⟨n, n⟩⟩]
  counters := []
  rules := [
    ⟨"tap", .empty, .value "star",
      .value ⟨"AND", [.touch .empty (.value "down"), .time (.value "exact") (some n) (some n)]⟩,
      [.choice (starOptions n volume) (.value "uniform") .empty]⟩]
  objects := [⟨"star", .empty, .empty, .empty, .empty, .empty⟩]
  sounds := []
  music := .empty

theorem starGame_clean : fieldCheck .editor (starGame 1 1) = .ok [] :=
  fieldCheck_ok_iff.mpr ⟨rfl, by decide +kernel⟩

theorem clean_numbers_starGame : fieldCheck .editor (starGame 1 1) = .ok [] ∧
    (∀ m n, (starGame 1 1).Measures m n → m.allows n = true ∨ m.Overlooks n) ∧
      ((∀ m n, (starGame 1 1).Measures m n → m.allows n = true) ↔
        ∀ m n, (starGame 1 1).Measures m n → ¬ m.Overlooks n) :=
  ⟨starGame_clean, clean_numbers starGame_clean⟩

theorem starGame_picks {n volume k : Number} {m : Measure} {o : ChoiceOption Action}
    (ho : o ∈ starOptions n volume) (h : (m, k) ∈ o.action.measures) :
    (starGame n volume).Measures m k := by
  refine .done List.mem_cons_self List.mem_cons_self (k := 1) ?_ h
  exact List.mem_flatMap.mpr ⟨o.action, List.mem_map_of_mem ho, List.mem_singleton_self _⟩

theorem starGame_measures (n volume : Number) {m : Measure} (hm : m.asksOutside = true) :
    (starGame n volume).Measures m n := by
  have htimer {m : Measure} (h : (m, n) ∈ [(Measure.seconds, n), (Measure.interval, n)]) :
      (starGame n volume).Measures m n :=
    .tested List.mem_cons_self (List.mem_cons_of_mem _ List.mem_cons_self) h
  have heffect {m : Measure} (h : (m, n) ∈ [(Measure.effectDuration, n), (Measure.scaleAmount, n)]) :
      (starGame n volume).Measures m n :=
    starGame_picks (List.mem_cons_of_mem _ List.mem_cons_self) h
  cases m with
  | scale => exact .placed List.mem_cons_self (List.mem_append_right _ List.mem_cons_self)
  | seconds => exact htimer List.mem_cons_self
  | interval => exact htimer (List.mem_cons_of_mem _ List.mem_cons_self)
  | duration => exact starGame_picks List.mem_cons_self List.mem_cons_self
  | effectDuration => exact heffect List.mem_cons_self
  | scaleAmount => exact heffect (List.mem_cons_of_mem _ List.mem_cons_self)
  | points =>
    exact starGame_picks (List.mem_cons_of_mem _ (List.mem_cons_of_mem _ List.mem_cons_self))
      List.mem_cons_self
  | coordinate | chance | volume | musicVolume | speed => cases hm

/-- With a NaN in those places, and with music twice as loud as it can be, the game has no finding
either, though each of these numbers is out of its range. -/
theorem starGame_overlooked : fieldCheck .editor (starGame (.real .nan) 2) = .ok [] ∧
    (∀ m : Measure, m.asksOutside = true →
      (starGame (.real .nan) 2).Measures m (.real .nan) ∧ m.allows (.real .nan) = false) ∧
    (starGame (.real .nan) 2).Measures .musicVolume 2 ∧ Measure.musicVolume.allows 2 = false := by
  refine ⟨fieldCheck_ok_iff.mpr ⟨rfl, by decide +kernel⟩, fun m hm => ?_, ?_, by decide +kernel⟩
  · exact ⟨starGame_measures _ _ hm, Measure.not_allows_of_overlooks (.inl ⟨hm, rfl⟩)⟩
  · exact starGame_picks (List.mem_cons_of_mem _ (List.mem_cons_of_mem _
      (List.mem_cons_of_mem _ List.mem_cons_self))) List.mem_cons_self

end TouchGame
