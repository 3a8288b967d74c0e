import TouchGame.Proofs.Check.Loading
import TouchGame.Proofs.Repair.Semantics

/-!
# What a successful repair leaves

A repair counts by codes: a finding counts as handled as soon as one of its code was. So a success
says that every code that was found has a fix. It does not say that the repaired rule-set is valid:
fixes of single values stop at a limit, and the check of the repaired rule-set sees new counters and
new signatures. Nothing else stands against it.

* `Cycled.handled` : in a success, every finding has a code that fixes belong to.
* `Leaves` : what may stand against a rule-set behind a success.
* `success_leaves` : nothing else does.
-/

namespace TouchGame.Repair

open Check Mending

variable {v : Vocabulary} {g : Game} {f : Finding} {findings : List Finding} {limit : Number}
  {result : Result} {fixes : List Amendment}

/-- What may stand against a rule-set behind a repair that is a success: a finding that was there and
came after the limit, one about a counter that the repair defined, and a conflict of rules whose
signatures the repair made equal. -/
inductive Leaves (limit : Number) (g r : Game) (findings : List Finding) (f : Finding) : Prop
  | beyond {made : Nat} (stopped : limit.le (.int made) = true)
      (left : f ∈ (findings.filter (·.isOf .autoFixable)).drop made)
  | new (about : IsNew g r f)
  | merged (between : IsMerged g.rules r.rules f)

namespace Cycled

/-- In a success, every finding has a code that fixes belong to. -/
theorem handled (h : Cycled v limit g findings result fixes) (hs : result.isSuccess = true)
    (hf : f ∈ findings) {c : Code} (hlabel : f.label = .listed c) :
    c.category = .autoFixable ∨ (definitionOf? c).isSome = true := by
  rw [Result.isSuccess, Bool.and_eq_true, Result.needsRegeneration, Bool.not_eq_true',
    Option.isSome_eq_false_iff, Option.isNone_iff_eq_none, List.isEmpty_iff] at hs
  -- Nothing was handed over and nothing remains, so some record has the code of the finding.
  obtain ⟨hremaining, hbrief⟩ := hs
  have hlocal := h.brief.mp hbrief
  obtain ⟨a, ha, hcode⟩ : ∃ a ∈ result.amendments, f.label = .listed a.code := by
    refine Decidable.byContradiction fun hno => ?_
    have hrest : f ∈ result.remaining := by
      refine (h.remaining f).mpr ⟨hf, fun a ha hcode => hno ⟨a, ha, hcode⟩, ?_⟩
      intro f' hf' hfull
      rw [hlocal f' hf'] at hfull
      cases hfull
    rw [hremaining] at hrest
    cases hrest
  rw [hlabel, Label.listed.injEq] at hcode
  subst hcode
  rw [h.amendments, List.mem_append] at ha
  rcases ha with ha | ha
  · have hin : Label.listed a.code ∈ ((autoFindings v g).take fixes.length).map (·.label) := by
      rw [← h.fixed.codes]
      exact List.mem_map_of_mem ha
    obtain ⟨f', hf', hlabel'⟩ := List.mem_map.mp hin
    have hauto := (List.mem_filter.mp (List.mem_of_mem_take hf')).2
    rw [isOf_listed _ hlabel', beq_iff_eq] at hauto
    exact .inl hauto
  · obtain ⟨_, _, _, hdefines⟩ := defineFixes_codes ha
    exact .inr hdefines

/-- In a success, all that is left of the fieldwise findings came after the limit. -/
theorem fieldwise_left (h : Cycled v limit g findings result fixes) (hs : result.isSuccess = true)
    (hv : validate v g = .ok findings) (hf : f ∈ fieldwise v result.game) :
    ∃ made : Nat, limit.le (.int made) = true ∧ f ∈ (autoFindings v g).drop made := by
  have hsame : fieldwise v (withDefinitions result.game g) = fieldwise v result.game := rfl
  cases hauto : f.isOf .autoFixable with
  | true =>
    have hin : f ∈ autoFindings v (withDefinitions result.game g) :=
      List.mem_filter.mpr ⟨hsame ▸ hf, hauto⟩
    refine ⟨fixes.length, ?_, by rw [← h.fixed.left]; exact hin⟩
    rcases h.fixed.stops with hnone | hlimit
    · rw [hnone] at hin
      cases hin
    · rwa [Nat.zero_add] at hlimit
  | false =>
    have hin : f ∈ (fieldwise v g).filter (!·.isOf .autoFixable) := by
      rw [← h.fixed.others]
      exact List.mem_filter.mpr ⟨hsame ▸ hf, by simp [hauto]⟩
    obtain ⟨c, hc, hlabel⟩ := fieldwise_coded v _ f hf
    obtain ⟨_, _, rfl⟩ := validate_ok_iff.mp hv
    have hfound := List.mem_append_left (rulewiseFindings g) (List.mem_filter.mp hin).1
    rcases h.handled hs hfound hlabel with hcategory | hdefines
    · rw [isOf_listed _ hlabel, hcategory] at hauto
      cases hauto
    · rw [Option.isNone_iff_eq_none.mp (fieldCodes_not_definitional c hc)] at hdefines
      cases hdefines

end Cycled

theorem Repaired.not_definitional {r : Game} (h : Repaired v g r) (hg : g.NamesAreTexts)
    (hf : f ∈ rulewiseFindings r) (hcritical : f.isCritical = true) {c : Code}
    (hlabel : f.label = .listed c) : (definitionOf? c).isSome = false := by
  refine Bool.eq_false_iff.mpr fun hdefines => ?_
  rcases definitional_cases hf hlabel hdefines with ⟨hf, hc⟩ | ⟨hf, _⟩
  · obtain ⟨hcounter, hsound⟩ := h.references_defined hg hf
    simp only [referenceCodes, List.mem_cons, List.not_mem_nil, or_false] at hc
    rcases hc with rfl | rfl | rfl
    · cases hdefines
    · exact hcounter hlabel
    · exact hsound hlabel
  · -- The only critical finding about a counter is that nothing changes it.
    obtain ⟨index, counter, _, hf⟩ := mem_indexed hf
    rw [(counterUsage_critical hf hcritical).1, Label.listed.injEq] at hlabel
    rw [← hlabel] at hdefines
    cases hdefines

/-- **What a successful repair leaves.** A repair of a rule-set by its own findings and the check of
the repaired rule-set can be made. If the repair is a success, then every critical finding of that
check came after the limit of fixes, is about a counter that the repair defined, or is a conflict of
rules whose signatures the repair made equal. -/
theorem success_leaves {document : Json} (hload : Check.load document = .ok g)
    (h : validate v g = .ok findings) (settings : Settings) (context : Context) :
    ∃ result after, repair settings none context g findings = .ok result ∧
      validate v result.game = .ok after ∧ (result.isSuccess = true →
        ∀ f ∈ after, f.isCritical = true →
          Leaves settings.maxAutoRepairs g result.game findings f) := by
  have hg := namesAreTexts_of_load hload
  obtain ⟨result, fixes, hresult, hcycled⟩ := repair_run settings context h
  have hrepaired := hcycled.repaired
  refine ⟨result, _, hresult, hrepaired.validate hg h, fun hs f hf hcritical => ?_⟩
  rcases List.mem_append.mp hf with hf | hf
  · obtain ⟨made, hstopped, hleft⟩ := hcycled.fieldwise_left hs h hf
    rw [← filter_autoFixable h] at hleft
    exact .beyond hstopped hleft
  · rcases hrepaired.rulewise_cases hg hf hcritical with ⟨f', hf', hverdict⟩ | hbrought | hmerged
    · have hlabel : f'.label = f.label := congrArg Prod.snd hverdict
      obtain ⟨c, hc, hlabel'⟩ := rulewise_coded g f' hf'
      have hfound : f' ∈ findings := by
        obtain ⟨_, _, rfl⟩ := validate_ok_iff.mp h
        exact List.mem_append_right _ hf'
      rcases hcycled.handled hs hfound hlabel' with hcategory | hdefines
      · exact absurd hcategory (ruleCodes_not_autoFixable c hc)
      · rw [hrepaired.not_definitional hg hf hcritical (hlabel ▸ hlabel')] at hdefines
        cases hdefines
    · exact .new (hrepaired.isNew hg hbrought)
    · exact .merged hmerged

/-! ## Successes that leave an invalid rule-set -/

/-- A document with a star at a place, some rules, and a sound rule to win and to lose. -/
def starDocument (x y : Number) (rules : List Json) : Json :=
  .obj [
    ("script", .obj [
      ("layout", .obj [("objects", .arr [.obj [
        ("objectId", .str "star"),
        ("position", .obj [("x", .num x), ("y", .num y)])]])]),
      ("rules", .arr (rule "tap" [touch] [outcome "success"] ::
        rule "timeout" [timer 10] [outcome "failure"] :: rules))]),
    ("assetPlan", .obj [("objects", .arr [.obj [("id", .str "star")]])])]
where
  /-- A rule about the star. -/
  rule (id : String) (conditions actions : List Json) : Json :=
    .obj [("id", .str id), ("targetObjectId", .str "star"),
      ("triggers", .obj [("operator", .str "AND"), ("conditions", .arr conditions)]),
      ("actions", .arr actions)]
  /-- A touch of the rule's object. -/
  touch : Json := .obj [("type", .str "touch"), ("touchType", .str "down")]
  /-- A timer. -/
  timer (seconds : Number) : Json :=
    .obj [("type", .str "time"), ("timeType", .str "exact"), ("seconds", .num seconds)]
  /-- The end of the game. -/
  outcome (type : String) : Json := .obj [("type", .str type)]

/-- Both coordinates of the star are outside the screen. -/
def strayStar : Json :=
  starDocument 2 2 []

/-- The game is lost when no lives are left, and nothing says how many there are. -/
def uncountedLives : Json :=
  starDocument (.thousandths 500) (.thousandths 500) [
    starDocument.rule "hurt" [.obj [("type", .str "touch"), ("touchType", .str "up")]]
      [.obj [("type", .str "counter"), ("counterName", .str "lives"), ("operation", .str "decrement")]],
    starDocument.rule "dead" [.obj [("type", .str "counter"), ("counterName", .str "lives"),
      ("comparison", .str "equals"), ("value", .num 0)]] [starDocument.outcome "failure"]]

/-- Two rules with opposite outcomes go by chances that are no chances. -/
def oddChances : Json :=
  starDocument (.thousandths 500) (.thousandths 500) [
    starDocument.rule "lucky" [chance (.int (-1))] [starDocument.outcome "success"],
    starDocument.rule "unlucky" [chance (.int (-2))] [starDocument.outcome "failure"]]
where
  /-- A chance. -/
  chance (probability : Number) : Json :=
    .obj [("type", .str "random"), ("probability", .num probability)]

/-- Whether the repair of a document's rule-set is a success, and whether its rule-set is valid. -/
def verdicts (settings : Settings) (v : Vocabulary) (document : Json) : Option (Bool × Bool) :=
  (Check.load document).toOption.bind fun g =>
    (validate v g).toOption.bind fun findings =>
      (repair settings none .empty g findings).toOption.bind fun result =>
        (validate v result.game).toOption.map fun after => (result.isSuccess, accepts after)

/-- The repair of a document's rule-set is a success, and the repaired rule-set is not valid. -/
def Overlooks (settings : Settings) (v : Vocabulary) (document : Json) : Prop :=
  ∃ g findings result after, Check.load document = .ok g ∧ validate v g = .ok findings ∧
    repair settings none .empty g findings = .ok result ∧ validate v result.game = .ok after ∧
      result.isSuccess = true ∧ accepts after = false

theorem overlooks_of_verdicts {settings : Settings} {document : Json}
    (h : verdicts settings v document = some (true, false)) : Overlooks settings v document := by
  simp only [verdicts, Option.bind_eq_some_iff, Option.map_eq_some_iff, toOption_some_iff,
    Prod.mk.injEq] at h
  obtain ⟨g, hg, findings, hfindings, result, hresult, after, hafter, hsuccess, hinvalid⟩ := h
  exact ⟨g, findings, result, after, hg, hfindings, hresult, hafter, hsuccess, hinvalid⟩

/-- The settings under which a repair makes one fix of a single value. -/
def oneFix : Settings := { Settings.standard with maxAutoRepairs := 1 }

theorem overlooks_strayStar : Overlooks oneFix .editor strayStar :=
  overlooks_of_verdicts (by decide +kernel)

theorem success_leaves_strayStar :
    ∃ g findings result after, Check.load strayStar = .ok g ∧
      validate .editor g = .ok findings ∧ repair oneFix none .empty g findings = .ok result ∧
        validate .editor result.game = .ok after ∧ result.isSuccess = true ∧
          accepts after = false ∧ ∀ f ∈ after, f.isCritical = true →
            Leaves oneFix.maxAutoRepairs g result.game findings f := by
  obtain ⟨g, findings, result, after, hload, h, hresult, hafter, hsuccess, hinvalid⟩ :=
    overlooks_strayStar
  obtain ⟨result', after', hresult', hafter', hleaves⟩ := success_leaves hload h oneFix .empty
  rw [hresult] at hresult'
  cases hresult'
  rw [hafter] at hafter'
  cases hafter'
  exact ⟨g, findings, result, after, hload, h, hresult, hafter, hsuccess, hinvalid, hleaves hsuccess⟩

/-- A success does not make a rule-set valid: a coordinate is left behind the limit, a new counter has
no lives at the start, and two chances that were told apart are mended to one. -/
theorem success_not_valid : Overlooks oneFix .editor strayStar ∧
    Overlooks .standard .editor uncountedLives ∧ Overlooks .standard .editor oddChances :=
  ⟨overlooks_strayStar, overlooks_of_verdicts (by decide +kernel),
    overlooks_of_verdicts (by decide +kernel)⟩

end TouchGame.Repair
