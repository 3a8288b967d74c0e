import TouchGame.Proofs.Repair.Acceptance
import TouchGame.Proofs.Repair.Revision

/-!
# What a repair accounts for

A repair keeps its books by codes: as soon as one finding of a code is mended or handed over, no other
one of that code is listed as remaining. Fixes of single values stop at a limit, a counter without an id
is never removed, and the rules that a service answers with may have the defects that they were to be
rid of. In these cases a finding may be there after the repair and be listed nowhere; in all others it
is listed.

* `Serviced`, `repair_serviced` : what a repair leads to, whatever a service answers.
* `Revised.fieldwise_cases`, `nameless_of_reported` : which findings can be made again.
* `Masked` : findings that the books of a repair may pass over; `repair_accounts` : no others.
-/

namespace TouchGame.Repair

open Check Mending

variable {v : Vocabulary} {g mended last : Game} {f : Finding} {findings after : List Finding}
  {limit : Number} {result : Result} {fixes records : List Amendment}

/-- Some finding has the code and the place of another one. -/
def Reports (fs : List Finding) (f : Finding) : Prop :=
  ∃ f' ∈ fs, f'.label = f.label ∧ f'.location = f.location

instance (fs : List Finding) (f : Finding) : Decidable (Reports fs f) :=
  inferInstanceAs (Decidable (∃ f' ∈ fs, f'.label = f.label ∧ f'.location = f.location))

/-! ## Repairs with a service -/

/-- What a repair of a rule-set by its own findings leads to: fixes of single values, then the
definitions that the findings between rules ask for, then a revision. -/
structure Serviced (v : Vocabulary) (limit : Number) (g mended : Game) (findings : List Finding)
    (result : Result) (fixes records : List Amendment) : Prop where
  fixed : Fixed v limit 0 g mended fixes
  revised : Revised findings (withDefinitions mended (defined g)) result.game records
  amendments : result.amendments = fixes ++ (defineFixes g (rulewiseFindings g)).2 ++ records
  remaining : ∀ f, f ∈ result.remaining ↔ f ∈ findings ∧
    (∀ a ∈ result.amendments, f.label ≠ .listed a.code) ∧
      ∀ f' ∈ findings, f'.isOf .fullRegen = true → f.label ≠ f'.label

theorem repair_serviced {settings : Settings} {reviser : Option Reviser} {context : Context}
    (h : validate v g = .ok findings)
    (hresult : repair settings reviser context g findings = .ok result) :
    ∃ mended fixes records,
      Serviced v settings.maxAutoRepairs g mended findings result fixes records := by
  have hlabel : ∀ f ∈ findings, ∃ c, f.label = .listed c := fun f hf => label_of_validate h hf
  obtain ⟨mended, fixes, hrun, hfixed⟩ := applyFixes_run settings h
  obtain ⟨amended, hsteps, rfl⟩ := repair_ok hlabel hresult
  rw [amend_of_fixes hrun, map_ok_iff] at hsteps
  obtain ⟨⟨last, records, prompt⟩, hrevise, rfl⟩ := hsteps
  have hrevised := reviseIfAny_revised (fun f hf => hlabel f (toRevise_subset hf)) hrevise
  exact ⟨mended, fixes, records, hfixed, hrevised.mono toRevise_subset, rfl,
    fun f => mem_unsettled hlabel⟩

theorem Serviced.recorded (h : Serviced v limit g mended findings result fixes records)
    (hf : f ∈ findings) (hlocal : f.isOf .fullRegen = false) (hcode : ∃ c, f.label = .listed c) :
    f ∈ result.remaining ∨ ∃ a ∈ result.amendments, f.label = .listed a.code := by
  by_cases hrecorded : ∃ a ∈ result.amendments, f.label = .listed a.code
  · exact .inr hrecorded
  · refine .inl ((h.remaining f).mpr ⟨hf, fun a ha hlabel => hrecorded ⟨a, ha, hlabel⟩, ?_⟩)
    intro f' hf' hfull hlabel
    obtain ⟨c, hc⟩ := hcode
    rw [isOf_listed _ hc] at hlocal
    rw [isOf_listed _ (hlabel ▸ hc), hlocal] at hfull
    cases hfull

/-! ## Findings that are there again -/

theorem rule_of_autoFixable {r : Rule} {index : Nat} (hf : f ∈ rule v index r)
    (hauto : f.isOf .autoFixable = true) : f.location.rule = some r.id := by
  obtain ⟨before, after, hsplit⟩ := List.append_of_mem hf
  obtain ⟨_, _, _, _, _, _, howns, _⟩ := rule_heals r before f after hsplit hauto
  exact howns

theorem rule_cases {xs ys : List Rule} {start : Nat}
    (h : List.Forall₂ (Revision records) xs ys) (hf : f ∈ indexed (rule v) start ys)
    (hauto : f.isOf .autoFixable = true) : f ∈ indexed (rule v) start xs ∨
      ∃ id, f.location.rule = some id ∧ ∃ a ∈ records, IsRewriting id a := by
  induction h generalizing start with
  | nil => exact .inl hf
  | @cons old new _ _ hrevision _ ih =>
    rw [indexed, List.mem_append] at hf ⊢
    rcases hf with hf | hf
    · rcases hrevision with rfl | ⟨_, _, hrewritten⟩
      · exact .inl (.inl hf)
      · exact .inr ⟨new.id, rule_of_autoFixable hf hauto, hrewritten⟩
    · rcases ih hf with hold | hrewritten
      · exact .inl (.inr hold)
      · exact .inr hrewritten

/-- A finding that can be fixed in place was there before a revision, or is about a rule that was
rewritten. -/
theorem Revised.fieldwise_cases (h : Revised findings g last records) (hf : f ∈ fieldwise v last)
    (hauto : f.isOf .autoFixable = true) : f ∈ fieldwise v g ∨
      ∃ id, f.location.rule = some id ∧ ∃ a ∈ records, IsRewriting id a := by
  have hparts : fieldwise v last =
      ruleIds g ++ layout g ++ initialPositions g ++ indexed (rule v) 0 last.rules := by
    have hids : ruleIds last = ruleIds g := by rw [ruleIds, ruleIds, h.ids]
    rw [fieldwise, hids, h.withRules]
    rfl
  rw [hparts, List.mem_append] at hf
  rw [fieldwise, List.mem_append]
  rcases hf with hf | hf
  · exact .inl (.inl hf)
  · rcases rule_cases h.rules hf hauto with hold | hrewritten
    · exact .inl (.inr hold)
    · exact .inr hrewritten

section Definitions

variable (hcounters : last.counters = (defined g).counters)
  (hsounds : last.sounds = (defined g).sounds)

include hcounters hsounds

theorem not_dangling_of_defined (hg : g.NamesAreTexts) (hf : f ∈ references g) {c : Code}
    (hlabel : f.label = .listed c) (hc : c = .invalidCounterName ∨ c = .undefinedSoundId) :
    isDangling last f = false := by
  rcases hc with rfl | rfl
  · obtain ⟨id, hsubject, _⟩ := uses_of_reference hg hf hlabel
    have hdefined : id ∈ last.counterIds := by
      rw [Game.counterIds, hcounters]
      exact (provided_of_reference hg hf hsubject).1 hlabel
    simp [isDangling, hlabel, hsubject, hdefined]
  · obtain ⟨id, hsubject, _⟩ := sound_of_reference hg hf hlabel
    have hdefined : id ∈ last.soundIds := by
      rw [Game.soundIds, hsounds]
      exact (provided_of_reference hg hf hsubject).2 hlabel
    simp [isDangling, hlabel, hsubject, hdefined]

/-- What fixes of definitions belong to is not there again while the definitions stay, unless it is
about a counter without an id. -/
theorem nameless_of_reported (hg : g.NamesAreTexts) (hlast : last.NamesAreTexts)
    (hf : f ∈ rulewiseFindings g) {c : Code} (hlabel : f.label = .listed c)
    (hdefines : (definitionOf? c).isSome = true) (hagain : Reports (rulewiseFindings last) f) :
    c = .unusedCounter ∧ f.location.subject = some "" := by
  obtain ⟨f', hf', hlabel', hlocation⟩ := hagain
  rw [hlabel] at hlabel'
  by_cases hunused : c = .unusedCounter
  · -- The counter was unused, so it is there only if it cannot be removed.
    subst hunused
    obtain ⟨counter, _, hidle, hsubject⟩ :=
      unused_of_counterUses (counterUses_of_label hf hlabel) hlabel
    obtain ⟨left, hleft, _, hsubject'⟩ :=
      unused_of_counterUses (counterUses_of_label hf' hlabel') hlabel'
    have hid : left.id = counter.id := by
      rw [hlocation, hsubject, Option.some.injEq] at hsubject'
      exact hsubject'.symm
    rw [← hid] at hidle hsubject
    rcases counter_of_defined hg (hcounters ▸ hleft) with ⟨_, hkept⟩ | ⟨_, hused, _⟩
    · rw [keeps, hidle, Bool.or_false, String.isEmpty_iff] at hkept
      exact ⟨rfl, hkept ▸ hsubject⟩
    · rw [hidle] at hused
      cases hused
  · -- A counter or a sound was missing, and it is defined by then.
    have hc : c = .invalidCounterName ∨ c = .undefinedSoundId := by
      obtain ⟨fix, hfix⟩ := Option.isSome_iff_exists.mp hdefines
      rcases code_of_definitionOf? hfix with ⟨hc, _⟩ | ⟨hc, _⟩ | ⟨hc, _⟩
      · exact .inl hc
      · exact .inr hc
      · exact absurd hc hunused
    have hknown :=
      not_dangling_of_defined hcounters hsounds hg (references_of_label hf hlabel hc) hlabel hc
    have hdangling := isDangling_of_mem hlast (references_of_label hf' hlabel' hc)
    rw [isDangling, hlabel', hlocation, ← hlabel, ← isDangling, hknown] at hdangling
    cases hdangling

end Definitions

/-! ## The books of a repair -/

/-- Findings that the books of a repair may pass over: one behind the limit, while one of its code was
fixed; one about an unused counter without an id, while another counter was removed; and one whose code
was found in a rule that was rewritten. -/
inductive Masked (limit : Number) (findings : List Finding) (result : Result) (f : Finding) : Prop
  | beyond {made : Nat} (allowed : ∀ i < made, limit.le (.int i) = false)
      (stopped : limit.le (.int made) = true)
      (fixed : ∃ f' ∈ (findings.filter (·.isOf .autoFixable)).take made, f'.label = f.label)
      (left : Reports ((findings.filter (·.isOf .autoFixable)).drop made) f)
  | nameless (unused : f.label = .listed .unusedCounter) (about : f.location.subject = some "")
      (removed : ∃ f' ∈ findings, f'.label = f.label ∧ ∃ id, f'.location.subject = some id ∧ id ≠ "")
  | rewritten {id : String} {a : Amendment} (recorded : a ∈ result.amendments)
      (rewriting : IsRewriting id a)
      (asked : ∃ f' ∈ findings, f'.label = f.label ∧ f'.location.rule = some id)

section Books

variable (h : Serviced v limit g mended findings result fixes records)
  (hv : validate v g = .ok findings) (hafter : validate v result.game = .ok after) (hf : f ∈ findings)
  {a : Amendment} (hcode : f.label = .listed a.code) (hagain : Reports after f)

include h hv hafter hf hcode hagain

/-- Whose code was fixed in place, and what is there again, is behind the limit or in a rule that was
rewritten. -/
theorem Serviced.masked_of_fix (ha : a ∈ fixes) : Masked limit findings result f := by
  have hcodes : Label.listed a.code ∈ ((autoFindings v g).take fixes.length).map (·.label) := by
    rw [← h.fixed.codes]
    exact List.mem_map_of_mem ha
  obtain ⟨f₀, hf₀, hlabel₀⟩ := List.mem_map.mp hcodes
  have hauto₀ := (List.mem_filter.mp (List.mem_of_mem_take hf₀)).2
  obtain ⟨f', hf', hlabel', hlocation⟩ := hagain
  have hauto : f'.isOf .autoFixable = true := by
    rw [isOf_listed _ hlabel₀] at hauto₀
    rw [isOf_listed _ (hlabel'.trans hcode), hauto₀]
  have hfield : f' ∈ fieldwise v result.game := by
    obtain ⟨_, _, rfl⟩ := validate_ok_iff.mp hafter
    refine (List.mem_append.mp hf').resolve_right fun hrule => ?_
    rw [rulewise_not_autoFixable hrule] at hauto
    cases hauto
  rcases h.revised.fieldwise_cases hfield hauto with hold | ⟨id, hrule, b, hb, hrewriting⟩
  · have hleft : f' ∈ autoFindings v mended := List.mem_filter.mpr ⟨hold, hauto⟩
    have hlimit : limit.le (.int fixes.length) = true := by
      rcases h.fixed.stops with hnone | hlimit
      · rw [hnone] at hleft
        cases hleft
      · rwa [Nat.zero_add] at hlimit
    have hallowed : ∀ i < fixes.length, limit.le (.int i) = false := by
      intro i hi
      have hi' := h.fixed.allowed i hi
      rwa [Nat.zero_add] at hi'
    rw [h.fixed.left, ← filter_autoFixable hv] at hleft
    rw [← filter_autoFixable hv] at hf₀
    exact .beyond hallowed hlimit ⟨f₀, hf₀, hlabel₀.trans hcode.symm⟩ ⟨f', hleft, hlabel', hlocation⟩
  · have hrecorded : b ∈ result.amendments := by
      rw [h.amendments]
      exact List.mem_append_right _ hb
    exact .rewritten hrecorded hrewriting ⟨f, hf, rfl, hlocation ▸ hrule⟩

/-- Whose code a definition was fixed for, and what is there again, is about a counter without an
id. -/
theorem Serviced.masked_of_definition (hg : g.NamesAreTexts)
    (ha : a ∈ (defineFixes g (rulewiseFindings g)).2) : Masked limit findings result f := by
  obtain ⟨f₀, hf₀, k, next, hfix⟩ := defineFixes_mem ha
  obtain ⟨hlabel₀, hdefines⟩ := defineFix?_code hfix
  have hrulewise {k : Game} {fs : List Finding} (hk : validate v k = .ok fs) {f' : Finding}
      (hin : f' ∈ fs) (hlabel : f'.label = .listed a.code) : f' ∈ rulewiseFindings k := by
    obtain ⟨_, _, rfl⟩ := validate_ok_iff.mp hk
    refine (List.mem_append.mp hin).resolve_left fun hfield => ?_
    obtain ⟨c, hc, hlabel'⟩ := fieldwise_coded v k f' hfield
    rw [hlabel, Label.listed.injEq] at hlabel'
    rw [hlabel', Option.isNone_iff_eq_none.mp (fieldCodes_not_definitional c hc)] at hdefines
    cases hdefines
  have hlast : result.game.NamesAreTexts := by
    refine h.revised.namesAreTexts ?_
    change mended.NamesAreTexts
    rwa [← namesAreTexts_mendGame (v := v), h.fixed.mended, namesAreTexts_mendGame]
  have hcounters : result.game.counters = (defined g).counters := by
    rw [h.revised.withRules]
    rfl
  have hsounds : result.game.sounds = (defined g).sounds := by
    rw [h.revised.withRules]
    rfl
  obtain ⟨f', hf', hlabel', hlocation⟩ := hagain
  have hreported : Reports (rulewiseFindings result.game) f :=
    ⟨f', hrulewise hafter hf' (hlabel'.trans hcode), hlabel', hlocation⟩
  obtain ⟨hunused, habout⟩ := nameless_of_reported hcounters hsounds hg hlast
    (hrulewise hv hf hcode) hcode hdefines hreported
  have hfound : f₀ ∈ findings := by
    obtain ⟨_, _, rfl⟩ := validate_ok_iff.mp hv
    exact List.mem_append_right _ hf₀
  exact .nameless (hunused ▸ hcode) habout
    ⟨f₀, hfound, hlabel₀.trans hcode.symm, defineFix?_subject hfix⟩

end Books

/-- **What a repair accounts for.** Take a repair of a rule-set by its own findings, with any service
to revise rules, and a finding that does not call for a new rule-set. If the check of the repaired
rule-set still finds its code at its place, then the repair lists the finding as remaining, or it is
masked. -/
theorem repair_accounts (hg : g.NamesAreTexts) (hv : validate v g = .ok findings)
    {settings : Settings} {reviser : Option Reviser} {context : Context}
    (hresult : repair settings reviser context g findings = .ok result)
    (hafter : validate v result.game = .ok after) (hf : f ∈ findings)
    (hlocal : f.isOf .fullRegen = false) (hagain : Reports after f) :
    f ∈ result.remaining ∨ Masked settings.maxAutoRepairs findings result f := by
  obtain ⟨mended, fixes, records, h⟩ := repair_serviced hv hresult
  rcases h.recorded hf hlocal (label_of_validate hv hf) with hremaining | ⟨a, ha, hcode⟩
  · exact .inl hremaining
  refine .inr ?_
  have hrecords := ha
  rw [h.amendments, List.mem_append, List.mem_append] at hrecords
  rcases hrecords with (hfix | hdefinition) | hrecord
  · exact h.masked_of_fix hv hafter hf hcode hagain hfix
  · exact h.masked_of_definition hv hafter hf hcode hagain hg hdefinition
  · obtain ⟨id, hrewriting, f', hf', hlabel', hrule⟩ := h.revised.about a hrecord
    exact .rewritten ha hrewriting ⟨f', hf', hlabel'.trans hcode.symm, hrule⟩

/-! ## Findings that are lost -/

/-- Two counters that no rule uses, one of them without an id. -/
def idleCounters : Json :=
  .obj [
    ("script", .obj [
      ("layout", .obj [("objects", .arr [.obj [
        ("objectId", .str "star"),
        ("position", .obj [("x", .num (.thousandths 500)), ("y", .num (.thousandths 500))])]])]),
      ("counters", .arr [.obj [("id", .str "")], .obj [("id", .str "spare")]]),
      ("rules", .arr [])]),
    ("assetPlan", .obj [("objects", .arr [.obj [("id", .str "star")]])])]

/-- A rule plays a sound and does not say which. -/
def unknownSound : Json :=
  starDocument (.thousandths 500) (.thousandths 500) [
    starDocument.rule "sing" [starDocument.touch] [.obj [("type", .str "playSound")]]]

/-- A service that answers with a rule without a sound, whatever it is asked. -/
def stubborn : Reviser := fun _ =>
  some "[\x7b\"id\": \"sing\", \"actions\": [\x7b\"type\": \"playSound\"\x7d]\x7d]"

/-- Whether the repair of a document's rule-set loses a finding: one that does not call for a new
rule-set, is made again afterwards, and is not listed as remaining. -/
def losing (settings : Settings) (reviser : Option Reviser) (v : Vocabulary) (document : Json) :
    Option Bool :=
  (Check.load document).toOption.bind fun g =>
    (validate v g).toOption.bind fun findings =>
      (repair settings reviser .empty g findings).toOption.bind fun result =>
        (validate v result.game).toOption.map fun after =>
          findings.any fun f => !f.isOf .fullRegen && decide (Reports after f) &&
            !result.remaining.contains f

/-- The repair of a document's rule-set loses a finding. -/
def Loses (settings : Settings) (reviser : Option Reviser) (v : Vocabulary) (document : Json) : Prop :=
  ∃ g findings result after f, Check.load document = .ok g ∧ validate v g = .ok findings ∧
    repair settings reviser .empty g findings = .ok result ∧ validate v result.game = .ok after ∧
      f ∈ findings ∧ f.isOf .fullRegen = false ∧ Reports after f ∧ f ∉ result.remaining

theorem loses_of_losing {settings : Settings} {reviser : Option Reviser} {document : Json}
    (h : losing settings reviser v document = some true) : Loses settings reviser v document := by
  simp only [losing, Option.bind_eq_some_iff, Option.map_eq_some_iff, toOption_some_iff,
    List.any_eq_true, Bool.and_eq_true, Bool.not_eq_true', decide_eq_true_eq, List.contains_eq_mem,
    decide_eq_false_iff_not] at h
  obtain ⟨g, hg, findings, hfindings, result, hresult, after, hafter, f, hf, ⟨hlocal, hagain⟩, hlost⟩ := h
  exact ⟨g, findings, result, after, f, hg, hfindings, hresult, hafter, hf, hlocal, hagain, hlost⟩

theorem loses_strayStar : Loses oneFix none .editor strayStar :=
  loses_of_losing (by decide +kernel)

theorem repair_accounts_strayStar : ∃ g findings result after f, Check.load strayStar = .ok g ∧
    g.NamesAreTexts ∧ validate .editor g = .ok findings ∧
      repair oneFix none .empty g findings = .ok result ∧ validate .editor result.game = .ok after ∧
        f ∈ findings ∧ f.isOf .fullRegen = false ∧ Reports after f ∧
          Masked oneFix.maxAutoRepairs findings result f := by
  obtain ⟨g, findings, result, after, f, hload, h, hresult, hafter, hf, hlocal, hagain, hlost⟩ :=
    loses_strayStar
  have hg := namesAreTexts_of_load hload
  have hmasked := (repair_accounts hg h hresult hafter hf hlocal hagain).resolve_left hlost
  exact ⟨g, findings, result, after, f, hload, hg, h, hresult, hafter, hf, hlocal, hagain, hmasked⟩

/-- A repair loses findings: a coordinate behind the limit, a counter without an id next to one that
is removed, and a sound that a service leaves out once more. -/
theorem repair_loses : Loses oneFix none .editor strayStar ∧
    Loses .standard none .editor idleCounters ∧
      Loses .standard (some stubborn) .editor unknownSound :=
  ⟨loses_strayStar, loses_of_losing (by decide +kernel), loses_of_losing (by decide +kernel)⟩

end TouchGame.Repair
