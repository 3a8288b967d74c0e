import Mathlib.Data.List.Forall2
import TouchGame.Play.Report
import TouchGame.Proofs.Play.Renaming

/-!
# Rule-sets that play alike

Two rule-sets are alike up to a renaming if their rules are, one by one, in all that a search for a way to
win looks at: where they stand, what they wait for, what they do to a state and to a counter. The search
then takes the same turns on both. Each layer of it is taken through both at once, from one firing of a
rule up to the report. Reasons against a rule may differ, since only their presence decides anything; the
texts that say what comes of a move are the same where all names are.

* `Matched` : two results, both given or both failed.
* `RuleLike`, `GameLike` : rules and rule-sets that are alike.
* `TrailLike`, `WalkLike`, `ProspectLike` : what is found on both.
* `bringCounter_like`, `bringFlag_like`, `meetAll_like`, `reach_like`, `prospect_like` : layer by layer.
* `explore_like` : the reports on rule-sets that are alike.
-/

namespace TouchGame

/-! ## Results that match -/

/-- Two results match if both give values that are related, or both fail with errors that are. -/
inductive Matched {ε α ε' β : Type} (E : ε → ε' → Prop) (R : α → β → Prop) :
    Except ε α → Except ε' β → Prop
  | ok {a : α} {b : β} (h : R a b) : Matched E R (.ok a) (.ok b)
  | error {e : ε} {e' : ε'} (h : E e e') : Matched E R (.error e) (.error e')

namespace Matched

variable {ε ε' α α' β β' : Type} {E : ε → ε' → Prop} {R : α → β → Prop} {S : α' → β' → Prop}

theorem bind {x : Except ε α} {y : Except ε' β} {f : α → Except ε α'} {g : β → Except ε' β'}
    (h : Matched E R x y) (hnext : ∀ a b, R a b → Matched E S (f a) (g b)) :
    Matched E S (x >>= f) (y >>= g) := by
  cases h with
  | ok h => exact hnext _ _ h
  | error h => exact .error h

theorem mapM {f : α → Except ε α'} {g : β → Except ε' β'}
    (hitem : ∀ a b, R a b → Matched E S (f a) (g b)) {list : List α} {list' : List β}
    (h : List.Forall₂ R list list') : Matched E (List.Forall₂ S) (list.mapM f) (list'.mapM g) := by
  induction h with
  | nil => exact .ok .nil
  | cons hhead _ ih =>
    rw [List.mapM_cons, List.mapM_cons]
    refine (hitem _ _ hhead).bind fun a b hab => ih.bind fun as bs habs => ?_
    exact .ok (.cons hab habs)

end Matched

theorem exists_of_mem_related {α β : Type} {R : α → β → Prop} {list : List α} {list' : List β} {a : α}
    (h : List.Forall₂ R list list') (ha : a ∈ list) : ∃ b ∈ list', R a b := by
  induction h with
  | nil => cases ha
  | cons hfirst _ ih =>
    rcases List.mem_cons.mp ha with rfl | ha
    · exact ⟨_, List.mem_cons_self, hfirst⟩
    · obtain ⟨b, hb, hab⟩ := ih ha
      exact ⟨b, List.mem_cons_of_mem _ hb, hab⟩

abbrev FailAlike {α β : Type} (x : Except Fault α) (y : Except Fault β) : Prop :=
  Matched Eq (fun _ _ => True) x y

namespace FailAlike

variable {α β γ : Type} {x : Except Fault α} {y : Except Fault β}

theorem refl (x : Except Fault α) : FailAlike x x := by
  cases x with
  | ok a => exact .ok trivial
  | error fault => exact .error rfl

theorem symm (h : FailAlike x y) : FailAlike y x := by
  cases h with
  | ok => exact .ok trivial
  | error h => exact .error h.symm

theorem map (k : β → γ) (h : FailAlike x y) : FailAlike x (y.map k) := by
  cases h with
  | ok => exact .ok trivial
  | error h => exact .error h

theorem mapM {R : α → β → Prop} {f : α → Except Fault γ} {f' : β → Except Fault γ}
    (hitem : ∀ a b, R a b → FailAlike (f a) (f' b)) {list : List α} {list' : List β}
    (h : List.Forall₂ R list list') : FailAlike (list.mapM f) (list'.mapM f') := by
  have hlist : Matched Eq (List.Forall₂ fun _ _ => True) (list.mapM f) (list'.mapM f') :=
    Matched.mapM hitem h
  generalize list.mapM f = found, list'.mapM f' = found' at hlist ⊢
  cases hlist with
  | ok => exact .ok trivial
  | error h => exact .error h

theorem mapM_same {f f' : α → Except Fault γ} (h : ∀ a, FailAlike (f a) (f' a)) (list : List α) :
    FailAlike (list.mapM f) (list.mapM f') := by
  have hitem (a b : α) (heq : a = b) : FailAlike (f a) (f' b) := heq ▸ h a
  exact FailAlike.mapM hitem (List.forall₂_same.mpr fun _ _ => rfl)

theorem mapM_append {f : α → Except Fault γ} {f' : β → Except Fault γ} {xs ys : List α}
    {xs' ys' : List β} (hxs : FailAlike (xs.mapM f) (xs'.mapM f'))
    (hys : FailAlike (ys.mapM f) (ys'.mapM f')) :
    FailAlike ((xs ++ ys).mapM f) ((xs' ++ ys').mapM f') := by
  rw [List.mapM_append, List.mapM_append]
  exact hxs.bind fun _ _ _ => hys.bind fun _ _ _ => .ok trivial

end FailAlike

namespace Play

variable {ρ : Renaming} {settings : Settings} {g g' : Game}

/-! ## Rules and rule-sets -/

/-- Two rules are alike if a search for a way to win sees no difference but in names. -/
structure RuleLike (ρ : Renaming) (r r' : Rule) : Prop where
  named : r'.id = ρ.rule r.id
  target : r'.targetObject = r.targetObject.mapValue ρ.object
  operator : r'.operator = r.operator
  conditions : r'.conditions = r.conditions.map (Condition.rename ρ)
  wins : r'.fires "success" = r.fires "success"
  fire : ∀ s : State, (s.rename ρ).fire r' = (s.fire r).map (State.rename ρ)
  changes : ∀ counter, r'.actions.filterMap (changeOf? (ρ.counter counter)) =
    r.actions.filterMap (changeOf? counter)
  settings : ∀ counter, r'.actions.filterMap (settingOf? (ρ.counter counter)) =
    r.actions.filterMap (settingOf? counter)
  /-- A number in place of a touched object is no name. -/
  touched : ∀ target touchType n, .touch target touchType ∈ r.conditions →
    r.resolve target = .number n → ρ.object n.text = n.text

/-- Two rule-sets are alike if their rules are, one by one, and they start alike. -/
structure GameLike (ρ : Renaming) (g g' : Game) : Prop where
  rules : List.Forall₂ (RuleLike ρ) g.rules g'.rules
  initial : State.initial g' = (State.initial g).rename ρ

theorem resolve_value (r : Rule) {name : String} (h : name ≠ "self") :
    r.resolve (.value name) = .value name := by
  unfold Rule.resolve
  split
  · rename_i heq
    cases heq
  · rename_i heq
    cases heq
    exact absurd rfl h
  · rfl

theorem resolve_rename {r r' : Rule} (h : r'.targetObject = r.targetObject.mapValue ρ.object)
    (target : Slot String) :
    r'.resolve (target.mapValue ρ.object) = (r.resolve target).mapValue ρ.object := by
  have hself : "self" ∈ specialTargets := by decide
  cases target with
  | empty => exact h
  | number n => rfl
  | value name =>
    by_cases hname : name = "self"
    · rw [hname, Slot.mapValue, ρ.object_special "self" hself]
      exact h
    · have hnew : ρ.object name ≠ "self" := fun heq => hname ((ρ.object_eq_special hself).mp heq)
      rw [Slot.mapValue, resolve_value r' hnew, resolve_value r hname, Slot.mapValue]

theorem handle?_rename (c : Condition) : (c.rename ρ).handle? = c.handle?.map ρ.object := by
  have hobject (target : Slot String) :
      ((target.mapValue ρ.object).text?.filter fun object => !specialTargets.contains object) =
        (target.text?.filter fun object => !specialTargets.contains object).map ρ.object := by
    rw [Slot.text?_mapValue ρ.object_injective ρ.object_empty]
    cases target.text? with
    | none => rfl
    | some object =>
      simp only [Option.map_some, Option.filter_some, ρ.specialTargets_contains]
      split <;> rfl
  cases c with
  | touch target _ => exact hobject target
  | collision target _ _ => exact hobject target
  | position target _ _ => exact hobject target
  | _ => rfl

theorem touchesStage_rename (c : Condition) : (c.rename ρ).touchesStage = c.touchesStage := by
  have hspecial {special : String} (h : special ∈ specialTargets) (target : Slot String) :
      (target.mapValue ρ.object == .value special) = (target == .value special) := by
    cases target with
    | value name =>
      rw [Slot.mapValue, Bool.eq_iff_iff, beq_iff_eq, beq_iff_eq, Slot.value.injEq, Slot.value.injEq]
      exact ρ.object_eq_special h
    | _ => rfl
  cases c with
  | touch target _ =>
    exact congrArg₂ (· || ·) (hspecial (by decide) target) (hspecial (by decide) target)
  | _ => rfl

namespace RuleLike

variable {r r' : Rule} (h : RuleLike ρ r r')
include h

theorem resolve (target : Slot String) :
    r'.resolve (target.mapValue ρ.object) = (r.resolve target).mapValue ρ.object :=
  resolve_rename h.target target

theorem netChange (counter : String) :
    Play.netChange r' (ρ.counter counter) = Play.netChange r counter := by
  rw [Play.netChange, Play.netChange, h.changes]

theorem gesture : r'.gesture = r.gesture := by
  have hwords : r'.conditionWords = r.conditionWords := by
    rw [Rule.conditionWords, Rule.conditionWords, h.conditions, List.filterMap_map]
    refine List.filterMap_congr fun c _ => ?_
    cases c <;> rfl
  rw [Rule.gesture, Rule.gesture, hwords]

theorem handle? : r'.handle? = r.handle?.map ρ.object := by
  have hfirst : (r.conditions.map (Condition.rename ρ)).findSome? (·.handle?) =
      (r.conditions.findSome? (·.handle?)).map ρ.object := by
    rw [List.findSome?_map, List.map_findSome?]
    exact congrArg (r.conditions.findSome? ·) (funext handle?_rename)
  have hstage : (r.conditions.map (Condition.rename ρ)).any (·.touchesStage) =
      r.conditions.any (·.touchesStage) := by
    rw [List.any_map]
    exact congrArg _ (funext touchesStage_rename)
  have hnamed : ρ.object "stage" = "stage" := ρ.object_special "stage" (by decide)
  rw [Rule.handle?, Rule.handle?, h.target, h.conditions, hfirst, hstage,
    Slot.text?_mapValue ρ.object_injective ρ.object_empty]
  cases r.targetObject.text? with
  | some object => rfl
  | none =>
    cases r.conditions.findSome? (·.handle?) with
    | some object => rfl
    | none =>
      dsimp only [Option.map_none]
      split
      · rw [Option.map_some, hnamed]
      · rfl

end RuleLike

/-! ## Attempts -/

/-- Two attempts are set back alike: both blocked, for whatever reasons, or both by one fault. -/
inductive SetbackLike : Setback → Setback → Prop
  | blocked (reasons reasons' : List Blocker) : SetbackLike (.blocked reasons) (.blocked reasons')
  | fault (cause : Fault) : SetbackLike (.fault cause) (.fault cause)

variable {α β : Type} {R : α → β → Prop}

theorem blocked_like (reason reason' : Blocker) :
    Matched SetbackLike R (blocked reason) (blocked reason') :=
  .error (.blocked _ _)

theorem attempt_like {x : Except Fault α} {y : Except Fault β} (h : Matched Eq R x y) :
    Matched SetbackLike R (attempt x) (attempt y) := by
  cases h with
  | ok h => exact .ok h
  | error h =>
    cases h
    exact .error (.fault _)

theorem attempt_same (x : Except Fault α) : Matched SetbackLike Eq (attempt x) (attempt x) := by
  cases x with
  | ok a => exact .ok rfl
  | error fault => exact .error (.fault fault)

theorem attempt_map {f : α → β} {x : Except Fault α} {y : Except Fault β} (h : y = x.map f) :
    Matched SetbackLike (fun a b => b = f a) (attempt x) (attempt y) := by
  cases h
  cases x with
  | ok a => exact .ok rfl
  | error fault => exact .error (.fault fault)

/-! ## Trails -/

/-- Two moves are alike up to a renaming; where it renames nothing, they are the same. -/
inductive MoveLike (ρ : Renaming) : Move → Move → Prop
  | touch (gesture : Gesture) (target : String) {result result' : String}
      (h : ρ = .same → result' = result) :
      MoveLike ρ (.touch gesture target result) (.touch gesture (ρ.object target) result')
  | wait (seconds : Number) {result result' : String} (h : ρ = .same → result' = result) :
      MoveLike ρ (.wait seconds result) (.wait seconds result')

/-- Two trails are alike: their states are the same under new names, and so are their moves. -/
structure TrailLike (ρ : Renaming) (t u : Trail) : Prop where
  state : u.state = t.state.rename ρ
  moves : List.Forall₂ (MoveLike ρ) t.latest u.latest
  taps : u.taps = t.taps
  longest : u.longest = t.longest

/-- Two walks are alike: their moves are, with as many taps and as much time. -/
structure WalkLike (ρ : Renaming) (w v : Walk) : Prop where
  moves : List.Forall₂ (MoveLike ρ) w.moves v.moves
  taps : v.taps = w.taps
  time : v.time = w.time

namespace TrailLike

variable {t u : Trail} (h : TrailLike ρ t u)
include h

theorem touch (gesture : Gesture) (target : String) {result result' : String} (next : State)
    (htext : ρ = .same → result' = result) :
    TrailLike ρ { t.touch gesture target result with state := next }
      { u.touch gesture (ρ.object target) result' with state := next.rename ρ } where
  state := rfl
  moves := .cons (.touch gesture target htext) h.moves
  taps := congrArg (· + 1) h.taps
  longest := h.longest

theorem wait (seconds : Number) (result : String) :
    TrailLike ρ (t.wait seconds result) (u.wait seconds result) where
  state := h.state
  moves := .cons (.wait seconds fun _ => rfl) h.moves
  taps := h.taps
  longest := congrArg (·.max seconds) h.longest

theorem walk (secondsPerTap : Number) :
    Matched Eq (WalkLike ρ) (t.walk secondsPerTap) (u.walk secondsPerTap) := by
  rw [Trail.walk, Trail.walk, h.taps, h.longest]
  cases arithmetic ((Number.int t.taps).mul secondsPerTap) with
  | error fault => exact .error rfl
  | ok tapping => exact .ok ⟨List.forall₂_reverse_iff.mpr h.moves, rfl, rfl⟩

end TrailLike

/-! ## Counters -/

section Counters

variable (hg : GameLike ρ g g')

theorem firstMover?_like (counter : String) (up : Bool) {rules rules' : List Rule}
    (h : List.Forall₂ (RuleLike ρ) rules rules') :
    Matched Eq (Option.Rel fun p q => RuleLike ρ p.1 q.1 ∧ q.2 = p.2)
      (firstMover? counter up rules) (firstMover? (ρ.counter counter) up rules') := by
  induction h with
  | nil => exact .ok .none
  | cons hr _ ih =>
    rw [firstMover?, firstMover?, hr.netChange]
    cases netChange _ counter with
    | error fault => exact .error rfl
    | ok change =>
      change Matched Eq _ (if goes up change = true then _ else _) (if goes up change = true then _ else _)
      split
      · exact .ok (.some ⟨hr, rfl⟩)
      · exact ih

include hg in
theorem setter?_like (counter : String) (accepts : Number → Bool) :
    Option.Rel (fun p q => RuleLike ρ p.1 q.1 ∧ q.2 = p.2) (setter? g counter accepts)
      (setter? g' (ρ.counter counter) accepts) := by
  have hrules := hg.rules
  rw [setter?, setter?]
  generalize g.rules = rules, g'.rules = rules' at hrules ⊢
  induction hrules with
  | nil => exact .none
  | cons hr _ ih =>
    rw [List.findSome?_cons, List.findSome?_cons, hr.settings]
    cases ((_ : List Number).find? accepts) with
    | none => exact ih
    | some value => exact .some ⟨hr, rfl⟩

/-- Two plans are alike: like rules fire as often. -/
structure PlanLike (ρ : Renaming) (p q : Plan) : Prop where
  rule : RuleLike ρ p.rule q.rule
  times : q.times = p.times
  result : ρ = .same → q.result = p.result

include hg in
theorem planCounter_like (counter : String) (compare : Comparison) (threshold distance : Number) :
    Matched SetbackLike (PlanLike ρ) (planCounter g counter compare threshold distance)
      (planCounter g' (ρ.counter counter) compare threshold distance) := by
  rw [planCounter, planCounter]
  refine (attempt_like (firstMover?_like counter _ hg.rules)).bind fun found found' hfound => ?_
  cases hfound with
  | some h =>
    obtain ⟨hr, hchange⟩ := h
    dsimp only
    rw [hchange]
    refine (attempt_same _).bind fun times _ htimes => ?_
    refine (attempt_same _).bind fun shown _ hshown => ?_
    cases htimes
    cases hshown
    refine .ok ⟨hr, rfl, ?_⟩
    rintro rfl
    rfl
  | none =>
    have hsetter := setter?_like hg counter (compare.holds · threshold)
    dsimp only
    generalize setter? g counter _ = setter, setter? g' (ρ.counter counter) _ = setter' at hsetter ⊢
    cases hsetter with
    | none => exact blocked_like _ _
    | some h =>
      obtain ⟨hr, hvalue⟩ := h
      dsimp only
      rw [hvalue]
      refine (attempt_same _).bind fun shown _ hshown => ?_
      cases hshown
      refine .ok ⟨hr, rfl, ?_⟩
      rintro rfl
      rfl

theorem fireTimes_like {plan plan' : Plan} (hplan : PlanLike ρ plan plan')
    (object counter : String) (threshold : Number) (times : Nat) {t u : Trail} (h : TrailLike ρ t u) :
    Matched SetbackLike (TrailLike ρ) (fireTimes plan object counter threshold times t)
      (fireTimes plan' (ρ.object object) (ρ.counter counter) threshold times u) := by
  induction times generalizing t u with
  | zero => exact .ok h
  | succ times ih =>
    rw [fireTimes, fireTimes, h.state, State.isHidden_rename]
    split
    · exact blocked_like _ _
    · refine (attempt_map (hplan.rule.fire t.state)).bind fun next _ hnext => ?_
      cases hnext
      rw [hplan.rule.gesture, State.outcome_rename]
      have hwalked := h.touch plan.rule.gesture object next hplan.result
      cases next.outcome with
      | failure => exact blocked_like _ _
      | success => exact .ok hwalked
      | «open» => exact ih hwalked

include hg in
theorem bringCounter_like (counter : String) (comparison : Slot String) (value : Option Number)
    {t u : Trail} (h : TrailLike ρ t u) :
    Matched SetbackLike (TrailLike ρ) (bringCounter g t counter comparison value)
      (bringCounter g' u (ρ.counter counter) comparison value) := by
  rw [bringCounter, bringCounter]
  cases Comparison.ofName? (comparison.textOr Comparison.defaultName) with
  | none => exact blocked_like _ _
  | some compare =>
    dsimp only
    rw [h.state, State.counter_rename]
    refine (attempt_same _).bind fun distance _ hdistance => ?_
    cases hdistance
    split
    · exact .ok h
    · refine (planCounter_like hg counter compare _ distance).bind fun plan plan' hplan => ?_
      rw [hplan.rule.handle?, hplan.times]
      cases plan.rule.handle? with
      | none => exact blocked_like _ _
      | some object => exact fireTimes_like hplan object counter _ plan.times h

end Counters

/-! ## Flags -/

theorem firstSwitch_like (flag : String) (on : Bool) {rules rules' : List Rule}
    (hrules : List.Forall₂ (RuleLike ρ) rules rules') {t u : Trail} (h : TrailLike ρ t u) :
    Matched SetbackLike (TrailLike ρ) (firstSwitch t flag on rules)
      (firstSwitch u (ρ.flag flag) on rules') := by
  induction hrules with
  | nil => exact blocked_like _ _
  | @cons r r' _ _ hr _ ih =>
    rw [firstSwitch, firstSwitch, h.state]
    refine (attempt_map (hr.fire t.state)).bind fun next _ hnext => ?_
    cases hnext
    rw [State.flag_rename, State.outcome_rename, hr.handle?, hr.gesture]
    split
    · exact ih
    · cases r.handle? with
      | none => exact ih
      | some object =>
        dsimp only [Option.map_some]
        rw [State.isHidden_rename]
        split
        · exact blocked_like _ _
        · refine .ok (h.touch r.gesture object next ?_)
          rintro rfl
          rfl

theorem bringFlag_like (hg : GameLike ρ g g') (flag : String) (on : Bool) {t u : Trail}
    (h : TrailLike ρ t u) :
    Matched SetbackLike (TrailLike ρ) (bringFlag g t flag on) (bringFlag g' u (ρ.flag flag) on) := by
  rw [bringFlag, bringFlag, h.state, State.flag_rename]
  split
  · exact .ok h
  · exact firstSwitch_like flag on hg.rules h

/-! ## Rules -/

theorem textOr_stage_rename {target : Slot String} (h : ∀ n, target = .number n → ρ.object n.text = n.text) :
    (target.mapValue ρ.object).textOr "stage" = ρ.object (target.textOr "stage") := by
  have hstage : ρ.object "stage" = "stage" := ρ.object_special "stage" (by decide)
  cases target with
  | empty => exact hstage.symm
  | number n => exact (h n rfl).symm
  | value name =>
    simp only [Slot.mapValue, Slot.textOr, isEmpty_renamed ρ.object_injective ρ.object_empty]
    split
    · exact hstage.symm
    · rfl

theorem hiddenTarget_rename (s : State) (target : Slot String) :
    (target.mapValue ρ.object).text?.filter (s.rename ρ).isHidden =
      (target.text?.filter s.isHidden).map ρ.object := by
  rw [Slot.text?_mapValue ρ.object_injective ρ.object_empty]
  cases target.text? with
  | none => rfl
  | some object =>
    simp only [Option.map_some, Option.filter_some, State.isHidden_rename]
    split <;> rfl

section Witnesses

variable {w w' : Rule} (hg : GameLike ρ g g') (hw : RuleLike ρ w w')
include hg hw

theorem meet_like {c : Condition} (hc : c ∈ w.conditions) {t u : Trail} (h : TrailLike ρ t u) :
    Matched SetbackLike (TrailLike ρ) (meet g w t c) (meet g' w' u (c.rename ρ)) := by
  cases c with
  | counter name comparison value =>
    rw [Condition.rename, meet, meet, Slot.text?_mapValue ρ.counter_injective ρ.counter_empty]
    cases name.text? with
    | none => exact .ok h
    | some counter => exact bringCounter_like hg counter comparison value h
  | flag name flagState =>
    rw [Condition.rename, meet, meet, Slot.text?_mapValue ρ.flag_injective ρ.flag_empty]
    cases name.text? with
    | none => exact .ok h
    | some flag => exact bringFlag_like hg flag (wantsOn flagState) h
  | touch target touchType =>
    rw [Condition.rename, meet, meet, hw.resolve, h.state, hiddenTarget_rename, textOr_stage_rename fun n => hw.touched _ _ n hc]
    cases (w.resolve target).text?.filter t.state.isHidden with
    | some object => exact blocked_like _ _
    | none =>
      have hid : ρ = .same → w'.id = w.id := by
        rintro rfl
        exact hw.named
      have htouch := h.touch .tap ((w.resolve target).textOr "stage") t.state
        fun hsame => congrArg (fun id => s!"Rule \"{id}\" fires") (hid hsame)
      rw [← h.state] at htouch
      exact .ok htouch
  | time timeType seconds interval => exact .ok (h.wait (waitOf seconds interval) _)
  | _ => exact .ok h

theorem meetAll_like {conditions : List Condition} (hc : ∀ c ∈ conditions, c ∈ w.conditions)
    {t u : Trail} (h : TrailLike ρ t u) :
    Matched SetbackLike (TrailLike ρ) (meetAll g w conditions t)
      (meetAll g' w' (conditions.map (Condition.rename ρ)) u) := by
  induction conditions generalizing t u with
  | nil => exact .ok h
  | cons c rest ih =>
    rw [List.map_cons, meetAll, meetAll]
    refine (meet_like hg hw (hc c List.mem_cons_self) h).bind fun next next' hnext => ?_
    rw [hnext.state, State.outcome_rename]
    split
    · exact .ok hnext
    · exact ih (fun d hd => hc d (List.mem_cons_of_mem c hd)) hnext

omit hg hw in
/-- What is said of a counter condition that does not hold is said under new names, or is too long on
both sides. -/
theorem shortfall_like (s : State) (counter : String) (comparison : Slot String)
    (value : Option Number) : SetbackLike (shortfall s counter comparison value)
      (shortfall (s.rename ρ) (ρ.counter counter) comparison value) := by
  rw [shortfall, shortfall, State.counter_rename]
  cases arithmetic (s.counter counter).written with
  | error cause => exact .fault cause
  | ok text => exact .blocked _ _

omit hg hw in
theorem shortfall?_like (s : State) (c : Condition) :
    Option.Rel SetbackLike (shortfall? s c) (shortfall? (s.rename ρ) (c.rename ρ)) := by
  cases c with
  | counter name comparison value =>
    rw [Condition.rename, shortfall?, shortfall?,
      Slot.text?_mapValue ρ.counter_injective ρ.counter_empty]
    cases name.text? with
    | none => exact .none
    | some counter =>
      have hholds : counterHolds (s.rename ρ) (ρ.counter counter) comparison value =
          counterHolds s counter comparison value := by
        rw [counterHolds, counterHolds, State.counter_rename]
      dsimp only [Option.map_some]
      rw [hholds]
      cases counterHolds s counter comparison value with
      | true => exact .none
      | false => exact .some (shortfall_like s counter comparison value)
  | _ => exact .none

omit hg hw in
theorem firstShortfall_like (s : State) (conditions : List Condition) :
    Option.Rel SetbackLike (conditions.findSome? (shortfall? s))
      ((conditions.map (Condition.rename ρ)).findSome? (shortfall? (s.rename ρ))) := by
  induction conditions with
  | nil => exact .none
  | cons c rest ih =>
    have hfirst : Option.Rel SetbackLike (shortfall? s c)
        (shortfall? (s.rename ρ) (c.rename ρ)) := shortfall?_like s c
    rw [List.map_cons, List.findSome?_cons, List.findSome?_cons]
    generalize shortfall? s c = left, shortfall? (s.rename ρ) (c.rename ρ) = right at hfirst ⊢
    cases hfirst with
    | none => exact ih
    | some h => exact .some h

theorem trailFor_like {conditions : List Condition} (hc : ∀ c ∈ conditions, c ∈ w.conditions) :
    Matched SetbackLike (TrailLike ρ) (trailFor g w conditions)
      (trailFor g' w' (conditions.map (Condition.rename ρ))) := by
  have hstart : TrailLike ρ (.start (.initial g)) (.start (.initial g')) :=
    ⟨hg.initial, .nil, rfl, rfl⟩
  rw [trailFor, trailFor]
  refine (meetAll_like hg hw hc hstart).bind fun t u h => ?_
  have hfails : Option.Rel SetbackLike (conditions.findSome? (shortfall? t.state))
      ((conditions.map (Condition.rename ρ)).findSome? (shortfall? (t.state.rename ρ))) :=
    firstShortfall_like t.state conditions
  rw [← h.state] at hfails
  generalize conditions.findSome? _ = left, (conditions.map _).findSome? _ = right at hfails ⊢
  cases hfails with
  | none => exact .ok h
  | some hsetback => exact .error hsetback

theorem walkFor_like {conditions : List Condition} (hc : ∀ c ∈ conditions, c ∈ w.conditions) :
    Matched SetbackLike (WalkLike ρ) (walkFor settings g w conditions)
      (walkFor settings g' w' (conditions.map (Condition.rename ρ))) := by
  rw [walkFor, walkFor]
  exact (trailFor_like hg hw hc).bind fun t u h => attempt_like (h.walk settings.secondsPerTap)

theorem firstWalk_like {conditions : List Condition} (hc : ∀ c ∈ conditions, c ∈ w.conditions)
    (reasons reasons' : List Blocker) :
    Matched SetbackLike (WalkLike ρ) (firstWalk settings g w reasons conditions)
      (firstWalk settings g' w' reasons' (conditions.map (Condition.rename ρ))) := by
  induction conditions generalizing reasons reasons' with
  | nil => exact .error (.blocked _ _)
  | cons c rest ih =>
    have hfirst : Matched SetbackLike (WalkLike ρ) (walkFor settings g w [c])
        (walkFor settings g' w' [c.rename ρ]) :=
      walkFor_like hg hw fun d hd => hc d (List.mem_singleton.mp hd ▸ List.mem_cons_self)
    rw [List.map_cons, firstWalk, firstWalk]
    generalize walkFor settings g w [c] = walk, walkFor settings g' w' [c.rename ρ] = walk' at hfirst ⊢
    cases hfirst with
    | ok h => exact .ok h
    | error h =>
      cases h with
      | fault cause => exact .error (.fault cause)
      | blocked more more' => exact ih (fun d hd => hc d (List.mem_cons_of_mem c hd)) _ _

theorem reach_like :
    Matched SetbackLike (WalkLike ρ) (reach settings g w) (reach settings g' w') := by
  have hchoice : isChoice w' = isChoice w := by
    rw [isChoice, isChoice, hw.operator, hw.conditions, List.length_map]
  rw [reach, reach, hchoice, hw.conditions]
  split
  · exact firstWalk_like hg hw (fun _ hc => hc) [] []
  · exact walkFor_like hg hw fun _ hc => hc

end Witnesses

/-! ## Rule-sets -/

/-- Two prospects are alike: both with a walk, alike, or both without one. -/
inductive ProspectLike (ρ : Renaming) : Prospect → Prospect → Prop
  | reachable {walk walk' : Walk} (h : WalkLike ρ walk walk') :
      ProspectLike ρ (.reachable walk) (.reachable walk')
  | blocked (reasons reasons' : List String) : ProspectLike ρ (.blocked reasons) (.blocked reasons')

/-! ## What rules lack -/

def lackingOf (g : Game) (w : Rule) : Except Fault (List Blocker) :=
  return (← w.conditions.mapM (lacking g w)).flatten

theorem allLacking_alike {winning winning' : List Rule}
    (h : FailAlike (winning.mapM (lackingOf g)) (winning'.mapM (lackingOf g'))) :
    FailAlike (allLacking g winning) (allLacking g' winning') :=
  h.bind fun _ _ _ => .ok trivial

theorem lacking_touch (g : Game) (w : Rule) (target touchType : Slot String) :
    ∃ reasons, lacking g w (.touch target touchType) = .ok reasons := by
  rw [lacking]
  split
  · split <;> exact ⟨_, rfl⟩
  · exact ⟨_, rfl⟩

section Searches

variable (hg : GameLike ρ g g')
include hg

theorem firstReached_like {rules rules' : List Rule} (h : List.Forall₂ (RuleLike ρ) rules rules')
    (reasons reasons' : List String) :
    Matched Eq (Matched (fun _ _ => True) (WalkLike ρ)) (firstReached settings g reasons rules)
      (firstReached settings g' reasons' rules') := by
  induction h generalizing reasons reasons' with
  | nil => exact .ok (.error trivial)
  | @cons w w' _ _ hw _ ih =>
    have hreach : Matched SetbackLike (WalkLike ρ) (reach settings g w) (reach settings g' w') :=
      reach_like hg hw
    rw [firstReached, firstReached]
    generalize reach settings g w = walk, reach settings g' w' = walk' at hreach ⊢
    cases hreach with
    | ok h => exact .ok (.ok h)
    | error h =>
      cases h with
      | fault cause => exact .error rfl
      | blocked more more' => exact ih _ _

theorem rulesFiring_like :
    List.Forall₂ (RuleLike ρ) (g.rulesFiring "success") (g'.rulesFiring "success") := by
  have hrules := hg.rules
  rw [Game.rulesFiring, Game.rulesFiring]
  generalize g.rules = rules, g'.rules = rules' at hrules ⊢
  induction hrules with
  | nil => exact .nil
  | cons hr _ ih =>
    rw [List.filter_cons, List.filter_cons, hr.wins]
    split
    · exact .cons hr ih
    · exact ih

theorem startsTooHigh_like (counter : String) (comparison : Slot String) (value : Option Number) :
    FailAlike (startsTooHigh g counter comparison value)
      (startsTooHigh g' (ρ.counter counter) comparison value) := by
  unfold startsTooHigh
  dsimp only
  rw [hg.initial, State.counter_rename]
  split
  · split
    · exact (firstMover?_like counter false hg.rules).bind fun _ _ _ => .ok trivial
    · exact .ok trivial
  · exact .ok trivial

theorem lacking_like (w w' : Rule) (c : Condition) :
    FailAlike (lacking g w c) (lacking g' w' (c.rename ρ)) := by
  cases c with
  | counter name comparison value =>
    rw [Condition.rename, lacking, lacking, Slot.text?_mapValue ρ.counter_injective ρ.counter_empty]
    cases name.text? with
    | none => exact .ok trivial
    | some counter =>
      exact (startsTooHigh_like hg counter comparison value).bind fun _ _ _ => .ok trivial
  | touch target touchType =>
    obtain ⟨reasons, hreasons⟩ := lacking_touch g w target touchType
    obtain ⟨reasons', hreasons'⟩ := lacking_touch g' w' (target.mapValue ρ.object) touchType
    rw [Condition.rename, hreasons, hreasons']
    exact .ok trivial
  | _ => exact .ok trivial

theorem lackingOf_like (w w' : Rule) (hw : RuleLike ρ w w') :
    FailAlike (lackingOf g w) (lackingOf g' w') := by
  have hconditions : List.Forall₂ (fun c d => d = c.rename ρ) w.conditions w'.conditions := by
    rw [hw.conditions, List.forall₂_map_right_iff]
    exact List.forall₂_same.mpr fun _ _ => rfl
  refine (FailAlike.mapM (fun c d hd => ?_) hconditions).bind fun _ _ _ => .ok trivial
  rw [hd]
  exact lacking_like hg w w' c

theorem allLacking_like {winning winning' : List Rule}
    (h : List.Forall₂ (RuleLike ρ) winning winning') :
    FailAlike (allLacking g winning) (allLacking g' winning') :=
  allLacking_alike (FailAlike.mapM (lackingOf_like hg) h)

theorem prospect_like : Matched Eq (ProspectLike ρ) (prospect settings g) (prospect settings g') := by
  have hwinning := rulesFiring_like hg
  rw [prospect, prospect]
  generalize g.rulesFiring "success" = winning, g'.rulesFiring "success" = winning' at hwinning ⊢
  cases hwinning with
  | nil => exact .ok (.blocked _ _)
  | cons hw hrest =>
    refine (firstReached_like hg (.cons hw hrest) [] []).bind fun found found' hfound => ?_
    cases hfound with
    | ok h => exact .ok (.reachable h)
    | error =>
      exact (allLacking_like hg (.cons hw hrest)).bind fun _ _ _ => .ok (.blocked _ _)

end Searches

/-! ## Reports -/

theorem issuesOf_like {found found' : Prospect} (h : ProspectLike ρ found found') :
    FailAlike (issuesOf settings g found) (issuesOf settings g' found') := by
  cases h with
  | blocked => exact .ok trivial
  | @reachable walk walk' h =>
    rw [issuesOf, issuesOf, h.time]
    split
    · exact FailAlike.refl _
    · exact .ok trivial

theorem reasoningOf_like {found found' : Prospect} (h : ProspectLike ρ found found')
    (clashing clashing' : List Clash) (issues issues' : List Issue) :
    FailAlike (reasoningOf found clashing issues) (reasoningOf found' clashing' issues') := by
  have htext : FailAlike (prospectText found) (prospectText found') := by
    cases h with
    | blocked => exact .ok trivial
    | reachable h =>
      rw [prospectText, prospectText, h.time]
      exact (FailAlike.refl _).bind fun _ _ _ => .ok trivial
  exact htext.bind fun _ _ _ => .ok trivial

theorem explore_of_prospects
    (h : Matched Eq (ProspectLike ρ) (prospect settings g) (prospect settings g')) :
    Matched Eq (fun report report' => ProspectLike ρ report.prospect report'.prospect)
      (explore settings g) (explore settings g') := by
  rw [explore, explore]
  refine h.bind fun found found' hfound => ?_
  refine (issuesOf_like hfound).bind fun issues issues' _ => ?_
  exact (reasoningOf_like hfound _ _ issues issues').bind fun _ _ _ => .ok hfound

/-- **Rule-sets that are alike play alike.** A search fails on both with the same fault, or it finds on
both that the game can be won, by walks that are alike, or on both that it cannot. -/
theorem explore_like (hg : GameLike ρ g g') :
    Matched Eq (fun report report' => ProspectLike ρ report.prospect report'.prospect)
      (explore settings g) (explore settings g') :=
  explore_of_prospects (prospect_like hg)

end Play

end TouchGame
