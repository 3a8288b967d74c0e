import Mathlib.Tactic.ByContra
import TouchGame.Proofs.Check.Resolution
import TouchGame.Proofs.Check.Verdicts
import TouchGame.Proofs.Mending.Wiring
import TouchGame.Proofs.Repair.AnyOrder

/-!
# Wider vocabularies

A vocabulary that supports more types and allows more values finds no more. The check under it goes
through the same fields in the same order: the types that the narrow vocabulary supports are looked
into under both, and a value that the wide one refuses is refused by the narrow one as well. Only the
hints differ, since they list what is supported. A type that the narrow vocabulary does not support is
left alone by it, and may have more findings under the wide one; so the law needs that there is none.

* `Vocabulary.Widens` : a vocabulary is at least as wide as another one.
* `Relaxes` : findings that are among others, hints aside.
* `action_relaxes` : the law for actions, through choices to any depth.
* `widening_relaxes` : the law for rule-sets, and what it means for accepted ones.
-/

namespace TouchGame

/-- A vocabulary supports all that another one does, and restricts no field that the other one does
not restrict at least as much. -/
structure Vocabulary.Widens (wide narrow : Vocabulary) : Prop where
  conditions : ∀ type ∈ narrow.conditionTypes, type ∈ wide.conditionTypes
  actions : ∀ type ∈ narrow.actionTypes, type ∈ wide.actionTypes
  values : ∀ field allowed, wide.allowed? field = some allowed →
    ∃ fewer, narrow.allowed? field = some fewer ∧ ∀ value ∈ fewer, value ∈ allowed

/-- A finding without its hint. -/
def Finding.withoutFix (f : Finding) : Finding :=
  { f with fix := none }

namespace Check

open Mending

variable {wide narrow : Vocabulary} {g : Game} {r : Rule} {path : Path} {p : Finding → Prop}

/-! ## Supported types -/

theorem hasCondition_mono (hw : wide.Widens narrow) {type : Json}
    (h : narrow.hasCondition type = true) : wide.hasCondition type = true := by
  cases type with
  | str word =>
    simp only [Vocabulary.hasCondition, List.contains_iff_mem] at h ⊢
    exact hw.conditions word h
  | _ => cases h

theorem hasAction_mono (hw : wide.Widens narrow) {type : Json} (h : narrow.hasAction type = true) :
    wide.hasAction type = true := by
  cases type with
  | str word =>
    simp only [Vocabulary.hasAction, List.contains_iff_mem] at h ⊢
    exact hw.actions word h
  | _ => cases h

/-- An action and all that stands inside its choices, to any depth, is of a supported type. -/
def SupportsAction (v : Vocabulary) (a : Action) : Prop :=
  ∀ n, ∀ b ∈ a.inside n, v.hasAction b.kind = true

/-- All conditions and actions of a rule-set are of supported types. -/
structure SupportsGame (v : Vocabulary) (g : Game) : Prop where
  conditions : ∀ r ∈ g.rules, ∀ c ∈ r.conditions, v.hasCondition c.kind = true
  actions : ∀ r ∈ g.rules, ∀ a ∈ r.actions, SupportsAction v a

theorem SupportsAction.own {v : Vocabulary} {a : Action} (h : SupportsAction v a) :
    v.hasAction a.kind = true :=
  h 0 a (List.mem_singleton_self a)

theorem SupportsAction.option {v : Vocabulary} {options : List (ChoiceOption Action)}
    {mode : Slot String} {weights : Slot (List Number)} {o : ChoiceOption Action}
    (h : SupportsAction v (.choice options mode weights)) (ho : o ∈ options) :
    SupportsAction v o.action := by
  intro n b hb
  exact h (n + 1) b (List.mem_flatMap.mpr ⟨o.action, List.mem_map_of_mem ho, hb⟩)

theorem supportsAction_choice {v : Vocabulary} {options : List (ChoiceOption Action)}
    {mode : Slot String} {weights : Slot (List Number)}
    (hown : v.hasAction (.str "randomAction") = true)
    (hoptions : ∀ o ∈ options, SupportsAction v o.action) :
    SupportsAction v (.choice options mode weights) := by
  intro n b hb
  cases n with
  | zero =>
    obtain rfl := List.mem_singleton.mp hb
    exact hown
  | succ n =>
    obtain ⟨a, ha, hb⟩ := List.mem_flatMap.mp hb
    obtain ⟨o, ho, rfl⟩ := List.mem_map.mp ha
    exact hoptions o ho n b hb

theorem supportsAction_plain {v : Vocabulary} {a : Action} (hplain : a.isChoice = false)
    (h : v.hasAction a.kind = true) : SupportsAction v a := by
  intro n b hb
  rw [Action.inside_plain hplain hb]
  exact h

theorem SupportsGame.mono (hw : wide.Widens narrow) (h : SupportsGame narrow g) :
    SupportsGame wide g where
  conditions r hr c hc := hasCondition_mono hw (h.conditions r hr c hc)
  actions r hr a ha n b hb := hasAction_mono hw (h.actions r hr a ha n b hb)

/-! ## Findings against types -/

/-- Something that holds of no finding against an unsupported type. -/
structure RefusesTypes (p : Finding → Prop) : Prop where
  condition : ∀ message fix location, ¬ p (.critical .invalidConditionType message fix location)
  action : ∀ message fix location, ¬ p (.critical .invalidActionType message fix location)

theorem supportsAction_of_findings (hp : RefusesTypes p) {v : Vocabulary} (a : Action) :
    ∀ path, (∀ f ∈ action ⟨v, r⟩ path a, p f) → SupportsAction v a := by
  induction a using Action.nested_induction with
  | plain a hplain =>
    intro path h
    refine supportsAction_plain hplain ?_
    by_contra hunsupported
    rw [action_of_plain hplain, if_neg hunsupported] at h
    exact hp.action _ _ _ (h _ (List.mem_singleton_self _))
  | choice options mode weights ih =>
    intro path h
    have hown : v.hasAction (.str "randomAction") = true := by
      by_contra hunsupported
      rw [action, if_neg hunsupported] at h
      exact hp.action _ _ _ (h _ (List.mem_singleton_self _))
    refine supportsAction_choice hown fun o ho => ?_
    rw [action_choice options mode weights hown, List.forall_mem_append] at h
    obtain ⟨i, hi⟩ := forall_of_indexed h.2 ho
    exact ih o ho _ fun f hf => hi f (List.mem_append_right _ hf)

theorem supportsGame_of_findings (hp : RefusesTypes p) {v : Vocabulary}
    (h : ∀ f ∈ fieldwise v g, p f) : SupportsGame v g := by
  rw [fieldwise, List.forall_mem_append] at h
  constructor
  · intro r hr c hc
    obtain ⟨index, hrule⟩ := forall_of_indexed h.2 hr
    rw [rule_findings, List.forall_mem_append, List.forall_mem_append] at hrule
    obtain ⟨i, hi⟩ := forall_of_indexed hrule.1.2 hc
    by_contra hunsupported
    simp only [condition, if_neg hunsupported] at hi
    exact hp.condition _ _ _ (hi _ (List.mem_singleton_self _))
  · intro r hr a ha
    obtain ⟨index, hrule⟩ := forall_of_indexed h.2 hr
    rw [rule_findings, List.forall_mem_append] at hrule
    obtain ⟨i, hi⟩ := forall_of_indexed hrule.2 ha
    exact supportsAction_of_findings hp a _ hi

/-! ## Findings among others -/

def Relaxes (fs more : List Finding) : Prop :=
  (fs.map Finding.withoutFix).Sublist (more.map Finding.withoutFix)

namespace Relaxes

variable {fs fs' more more' : List Finding}

theorem refl (fs : List Finding) : Relaxes fs fs := List.Sublist.refl _

theorem append (h : Relaxes fs more) (h' : Relaxes fs' more') : Relaxes (fs ++ fs') (more ++ more') := by
  rw [Relaxes, List.map_append, List.map_append]
  exact List.Sublist.append h h'

theorem flatMap {α : Type} {list : List α} {check check' : α → List Finding}
    (h : ∀ a, Relaxes (check a) (check' a)) : Relaxes (list.flatMap check) (list.flatMap check') := by
  induction list with
  | nil => exact refl []
  | cons a rest ih =>
    rw [List.flatMap_cons, List.flatMap_cons]
    exact (h a).append ih

theorem indexed {α : Type} {list : List α} {check check' : Nat → α → List Finding} {start : Nat}
    (h : ∀ i, ∀ a ∈ list, Relaxes (check i a) (check' i a)) :
    Relaxes (Check.indexed check start list) (Check.indexed check' start list) := by
  induction list generalizing start with
  | nil => exact refl []
  | cons a rest ih =>
    exact (h start a List.mem_cons_self).append
      (ih fun i b hb => h i b (List.mem_cons_of_mem a hb))

theorem accepts (h : Relaxes fs more) (haccepts : TouchGame.accepts more = true) :
    TouchGame.accepts fs = true := by
  rw [accepts_iff] at haccepts ⊢
  intro f hf
  obtain ⟨f', hf', hsame⟩ := List.mem_map.mp (h.subset (List.mem_map_of_mem hf))
  have hseverity := congrArg Finding.severity hsame
  simp only [Finding.withoutFix] at hseverity
  rw [Finding.isCritical, ← hseverity]
  exact haccepts f' hf'

end Relaxes

/-! ## The fieldwise check -/

/-- A value that the wide vocabulary refuses is refused by the narrow one. -/
theorem enumerated_relaxes (hw : wide.Widens narrow) (field : String) (value : Slot String)
    (label : String) : Relaxes (enumerated ⟨wide, r⟩ field value path label)
      (enumerated ⟨narrow, r⟩ field value path label) := by
  unfold enumerated
  cases hwide : wide.allowed? field with
  | none => exact List.nil_sublist _
  | some allowed =>
    obtain ⟨fewer, hnarrow, hfewer⟩ := hw.values field allowed hwide
    simp only [hnarrow]
    cases value with
    | empty => exact .refl _
    | number n => exact .refl _
    | value word =>
      by_cases hword : allowed.contains word = true
      · simp only [hword]
        exact List.nil_sublist _
      · have hrefused : fewer.contains word = false := by
          rw [Bool.eq_false_iff]
          intro h
          exact hword (List.contains_iff_mem.mpr (hfewer word (List.contains_iff_mem.mp h)))
        rw [Bool.not_eq_true] at hword
        simp only [hrefused, hword]
        exact .refl _

theorem condition_relaxes (hw : wide.Widens narrow) {c : Condition}
    (h : narrow.hasCondition c.kind = true) :
    Relaxes (condition ⟨wide, r⟩ path c) (condition ⟨narrow, r⟩ path c) := by
  have hwide : (Scope.mk wide r).vocabulary.hasCondition c.kind = true := hasCondition_mono hw h
  have hnarrow : (Scope.mk narrow r).vocabulary.hasCondition c.kind = true := h
  rw [condition_of_supported hwide, condition_of_supported hnarrow]
  exact (Relaxes.flatMap fun _ => enumerated_relaxes hw _ _ _).append (.refl _)

theorem ownAction_relaxes (hw : wide.Widens narrow) (a : Action) :
    Relaxes (ownAction ⟨wide, r⟩ path a) (ownAction ⟨narrow, r⟩ path a) :=
  ((Relaxes.flatMap fun _ => enumerated_relaxes hw _ _ _).append (.refl _)).append (.refl _)

/-- **A supported action has no more findings under a wider vocabulary,** nor has anything that it
may pick, to any depth. -/
theorem action_relaxes (hw : wide.Widens narrow) (a : Action) (h : SupportsAction narrow a) :
    ∀ path, Relaxes (action ⟨wide, r⟩ path a) (action ⟨narrow, r⟩ path a) := by
  induction a using Action.nested_induction with
  | plain a hplain =>
    intro path
    rw [action_of_plain hplain, action_of_plain hplain, if_pos h.own,
      if_pos (hasAction_mono hw h.own), ← ownAction_eq, ← ownAction_eq]
    exact ownAction_relaxes hw a
  | choice options mode weights ih =>
    intro path
    have hnarrow : (Scope.mk narrow r).vocabulary.hasAction (.str "randomAction") = true := h.own
    have hwide : (Scope.mk wide r).vocabulary.hasAction (.str "randomAction") = true :=
      hasAction_mono hw hnarrow
    rw [action_choice options mode weights hwide, action_choice options mode weights hnarrow]
    refine (ownAction_relaxes hw _).append (.indexed fun i o ho => ?_)
    exact (Relaxes.refl _).append (ih o ho (h.option ho) _)

theorem fieldwise_relaxes (hw : wide.Widens narrow) (h : SupportsGame narrow g) :
    Relaxes (fieldwise wide g) (fieldwise narrow g) := by
  refine (Relaxes.refl _).append (.indexed fun index r hr => ?_)
  rw [rule_findings, rule_findings]
  refine (Relaxes.append ?_ ?_).append ?_
  · unfold operatorFindings
    split
    · exact enumerated_relaxes hw _ _ _
    · exact .refl _
  · exact .indexed fun i c hc => condition_relaxes hw (h.conditions r hr c hc)
  · exact .indexed fun i a ha => action_relaxes hw a (h.actions r hr a ha) _

/-! ## Faults -/

theorem findSome?_congr_mem {α β : Type} {list : List α} {f f' : α → Option β}
    (h : ∀ a ∈ list, f a = f' a) : list.findSome? f = list.findSome? f' := by
  induction list with
  | nil => rfl
  | cons a rest ih =>
    rw [List.findSome?_cons, List.findSome?_cons, h a List.mem_cons_self,
      ih fun b hb => h b (List.mem_cons_of_mem a hb)]

theorem actionFault?_eq (hw : wide.Widens narrow) (a : Action) (h : SupportsAction narrow a) :
    actionFault? wide a = actionFault? narrow a := by
  induction a using Action.nested_induction with
  | plain a hplain =>
    rw [actionFault?_plain hplain, actionFault?_plain hplain, if_pos h.own,
      if_pos (hasAction_mono hw h.own)]
  | choice options mode weights ih =>
    have hown : narrow.hasAction (.str "randomAction") = true := h.own
    rw [actionFault?, actionFault?, if_pos hown, if_pos (hasAction_mono hw hown), optionsFault?_eq,
      optionsFault?_eq]
    exact findSome?_congr_mem fun o ho => ih o ho (h.option ho)

theorem fieldwiseFault?_eq (hw : wide.Widens narrow) (h : SupportsGame narrow g) :
    fieldwiseFault? wide g = fieldwiseFault? narrow g := by
  have hrules : g.rules.findSome? (ruleFault? wide) = g.rules.findSome? (ruleFault? narrow) := by
    refine findSome?_congr_mem fun r hr => ?_
    have hconditions : r.conditions.findSome? (conditionFault? wide) =
        r.conditions.findSome? (conditionFault? narrow) := by
      refine findSome?_congr_mem fun c hc => ?_
      have hsupported := h.conditions r hr c hc
      rw [conditionFault?, conditionFault?, if_pos hsupported, if_pos (hasCondition_mono hw hsupported)]
    have hactions : r.actions.findSome? (actionFault? wide) =
        r.actions.findSome? (actionFault? narrow) :=
      findSome?_congr_mem fun a ha => actionFault?_eq hw a (h.actions r hr a ha)
    rw [ruleFault?, ruleFault?, hconditions, hactions]
  rw [fieldwiseFault?, fieldwiseFault?, hrules]

/-! ## Wider vocabularies -/

/-- A finding is against no type. -/
def KnowsTypes (f : Finding) : Prop :=
  f.label ≠ .listed .invalidConditionType ∧ f.label ≠ .listed .invalidActionType

theorem refusesTypes_knowsTypes : RefusesTypes KnowsTypes where
  condition _ _ _ h := h.1 rfl
  action _ _ _ h := h.2 rfl

theorem refusesTypes_notCritical : RefusesTypes fun f => f.isCritical = false where
  condition _ _ _ h := Bool.noConfusion h
  action _ _ _ h := Bool.noConfusion h

/-- **A wider vocabulary finds no more.** Where the fieldwise check under the narrow vocabulary has
nothing against a type, the check under the wide one can be made too, and its findings are among those
of the narrow one, in the same order and hints aside. So whatever is accepted under the narrow
vocabulary is accepted under the wide one. -/
theorem widening_relaxes (hw : wide.Widens narrow) (g : Game) :
    (∀ found, fieldCheck narrow g = .ok found → (∀ f ∈ found, KnowsTypes f) →
      ∃ fewer, fieldCheck wide g = .ok fewer ∧
        (fewer.map Finding.withoutFix).Sublist (found.map Finding.withoutFix)) ∧
    ∀ found, validate narrow g = .ok found → accepts found = true →
      ∃ fewer, validate wide g = .ok fewer ∧ accepts fewer = true := by
  constructor
  · intro found h htypes
    obtain ⟨hfault, rfl⟩ := fieldCheck_ok_iff.mp h
    have hsupported := supportsGame_of_findings refusesTypes_knowsTypes htypes
    refine ⟨fieldwise wide g, fieldCheck_ok_iff.mpr ⟨?_, rfl⟩, fieldwise_relaxes hw hsupported⟩
    rw [fieldwiseFault?_eq hw hsupported, hfault]
  · intro found h haccepts
    obtain ⟨hfield, hrule, rfl⟩ := validate_ok_iff.mp h
    have hquiet := accepts_iff.mp haccepts
    have hsupported := supportsGame_of_findings refusesTypes_notCritical fun f hf =>
      hquiet f (List.mem_append_left _ hf)
    refine ⟨fieldwise wide g ++ rulewiseFindings g, validate_ok_iff.mpr ⟨?_, hrule, rfl⟩, ?_⟩
    · rw [fieldwiseFault?_eq hw hsupported, hfield]
    · exact ((fieldwise_relaxes hw hsupported).append (.refl _)).accepts haccepts

theorem editor_widens_verified : Vocabulary.editor.Widens .verified where
  conditions := by decide
  actions := by decide
  values _ allowed h := ⟨allowed, h, fun _ hvalue => hvalue⟩

/-- A game that a tap on a very large star wins. -/
def largeStar : Game where
  layout := [⟨"star", ⟨.thousandths 500, .thousandths 500⟩, .value ⟨.thousandths 4000, .thousandths 1000⟩⟩]
  counters := []
  rules := [⟨"tap", .empty, .value "star", .value ⟨"AND", [.touch .empty (.value "down")]⟩,
    [.success none .empty]⟩]
  objects := [⟨"star", .empty, .empty, .empty, .empty, .empty⟩]
  sounds := []
  music := .empty

theorem widening_relaxes_largeStar : Vocabulary.editor.Widens .verified ∧
    (∃ found fewer, fieldCheck .verified largeStar = .ok found ∧
      found.map (·.label) = [.listed .extremeScale] ∧
      fieldCheck .editor largeStar = .ok fewer ∧
      (fewer.map Finding.withoutFix).Sublist (found.map Finding.withoutFix)) ∧
    ∃ found fewer, validate .verified largeStar = .ok found ∧ accepts found = true ∧
      validate .editor largeStar = .ok fewer ∧ accepts fewer = true := by
  obtain ⟨hfields, hall⟩ := widening_relaxes editor_widens_verified largeStar
  have hlabels : (fieldwise .verified largeStar).map (·.label) = [.listed .extremeScale] := by
    decide +kernel
  have htypes : ∀ f ∈ fieldwise .verified largeStar, KnowsTypes f := by
    intro f hf
    have hlabel : f.label ∈ (fieldwise .verified largeStar).map (·.label) := List.mem_map_of_mem hf
    rw [hlabels, List.mem_singleton] at hlabel
    rw [KnowsTypes, hlabel]
    decide
  have haccepted : (validate .verified largeStar).toOption.map accepts = some true := by
    decide +kernel
  obtain ⟨found, hfound, haccepts⟩ := Option.map_eq_some_iff.mp haccepted
  obtain ⟨fewer, hfewer, hsublist⟩ := hfields (fieldwise .verified largeStar) rfl htypes
  obtain ⟨fewer', hfewer', haccepts'⟩ := hall found (toOption_some_iff.mp hfound) haccepts
  exact ⟨editor_widens_verified, ⟨_, fewer, rfl, hlabels, hfewer, hsublist⟩,
    found, fewer', toOption_some_iff.mp hfound, haccepts, hfewer', haccepts'⟩

end Check

end TouchGame
