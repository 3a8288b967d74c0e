import TouchGame.Proofs.Repair.Acceptance

/-!
# Codes that a repair brings up

A repair makes no check of what it does, so the check between rules can find in the repaired rule-set
what it did not find before. This happens in two ways, and whenever one of them is there it does happen:
a missing counter is defined at zero, which ends the game or leaves a counter that nothing changes; and
fixes of numbers give one trigger to rules that pull in opposite directions. All other critical codes
were there before.

* `Invented` : the codes that a repair brings up.
* `Repaired.finds_brought`, `Repaired.finds_merged` : each of them is found in the repaired rule-set.
* `repair_invents_only` : no other critical code is found there that was not found before.
-/

namespace TouchGame.Repair

open Check Mending

variable {v : Vocabulary} {g r old new : Game} {f : Finding} {findings : List Finding} {id : String}
  {code : Code}

/-- The codes of the findings that make a rule-set invalid. -/
def criticalCodes (findings : List Finding) : List Code :=
  (findings.filter (·.isCritical)).filterMap (·.label.code?)

theorem mem_criticalCodes : code ∈ criticalCodes findings ↔
    (Severity.critical, Label.listed code) ∈ findings.map Finding.verdict := by
  rw [criticalCodes, List.mem_filterMap, List.mem_map]
  constructor
  · rintro ⟨f, hf, hcode⟩
    obtain ⟨hmem, hcritical⟩ := List.mem_filter.mp hf
    have hlabel : f.label = .listed code := by
      cases hlabel : f.label with
      | listed c =>
        rw [hlabel] at hcode
        rw [Option.some.inj hcode]
      | unlisted => rw [hlabel] at hcode; cases hcode
    exact ⟨f, hmem, Prod.ext (beq_iff_eq.mp hcritical) hlabel⟩
  · rintro ⟨f, hmem, hverdict⟩
    obtain ⟨hseverity, hlabel⟩ := Prod.mk.inj hverdict
    exact ⟨f, List.mem_filter.mpr ⟨hmem, beq_iff_eq.mpr hseverity⟩, by rw [hlabel]; rfl⟩

/-- The codes that a repair brings up: those of counters that it defines at zero, and those of rules
whose signatures it makes equal. -/
inductive Invented (g r : Game) (code : Code) : Prop
  | brought {id : String} (h : Brings g id code)
  | merged {f : Finding} (h : IsMerged g.rules r.rules f) (hlabel : f.label = .listed code)

/-! ## New counters -/

theorem bringsAtStart_of_overAtZero {outcome : InstantOutcome} (hrules : new.rules = old.rules)
    (hcounter : new.counter? id = some (newCounter id)) (h : OverAtZero old outcome id) :
    ∃ rule ∈ new.rules, bringsAtStart new outcome rule = true := by
  obtain ⟨rule, hr, hfires, c, hc, hname, hzero⟩ := h
  have hsame : holdsAtStart? { old with counters := [newCounter id] } outcome.covers c =
      holdsAtStart? { new with counters := [newCounter id] } outcome.covers c :=
    holdsAtStart?_congr fun _ _ => rfl
  rw [hsame, holdsAtStart?_zero hname hcounter] at hzero
  refine ⟨rule, hrules ▸ hr, ?_⟩
  rw [bringsAtStart, hfires, Bool.true_and, Bool.or_eq_true, List.any_eq_true]
  exact .inr ⟨c, hc, hzero⟩

namespace Repaired

/-- What a missing counter brings is found once it is defined. -/
theorem finds_brought (h : Repaired v g r) (hg : g.NamesAreTexts) (hbrings : Brings g id code) :
    code ∈ criticalCodes (rulewiseFindings r) := by
  have hrules : (mendGame v r).rules = (mendGame v g).rules := h.rules
  have hcounter : r.counter? id = some (newCounter id) := by
    obtain ⟨rule, hr, c, hc, hname⟩ := hbrings.read
    cases hfound : r.counter? id with
    | none => exact absurd (h.counterIds_of_read hg hr hc hname) (counter?_eq_none.mp hfound)
    | some counter => rw [h.addsZeros hg id counter hbrings.missing hfound]
  have hinstant {outcome : InstantOutcome} (hover : OverAtZero g outcome id) :
      ∃ rule ∈ (mendGame v r).rules, bringsAtStart (mendGame v r) outcome rule = true :=
    bringsAtStart_of_overAtZero hrules hcounter ((overAtZero_mendGame outcome id).mpr hover)
  have hfound {fs : List Finding} (hsubset : fs ⊆ rulewiseFindings r)
      (hmem : (Severity.critical, Label.listed code) ∈ fs.map Finding.verdict) :
      code ∈ criticalCodes (rulewiseFindings r) :=
    mem_criticalCodes.mpr (List.map_subset _ hsubset hmem)
  have hoccurs : instantOutcomes (mendGame v r) ⊆ rulewiseFindings r := by
    intro f hf
    rw [instantOutcomes_mendGame] at hf
    simp [rulewiseFindings, hf]
  have hcounts : counterUses (mendGame v r) ⊆ rulewiseFindings r := by
    intro f hf
    rw [counterUses_mendGame] at hf
    simp [rulewiseFindings, hf]
  cases hbrings with
  | won _ ended =>
    obtain ⟨rule, hr, hbrought⟩ := hinstant ended
    refine hfound hoccurs ?_
    rw [verdicts_instantOutcomes, List.mem_flatMap]
    exact ⟨rule, hr, by simp [hbrought]⟩
  | lost _ ended =>
    obtain ⟨rule, hr, hbrought⟩ := hinstant ended
    refine hfound hoccurs ?_
    rw [verdicts_instantOutcomes, List.mem_flatMap]
    exact ⟨rule, hr, by simp [hbrought]⟩
  | stuck missing read unchanged =>
    have hreaders : (mendGame v r).counterReaders id = (mendGame v g).counterReaders id := by
      rw [Game.counterReaders, Game.counterReaders, hrules]
    have hwriters : (mendGame v r).counterWriters id = (mendGame v g).counterWriters id := by
      rw [Game.counterWriters, Game.counterWriters, hrules]
    have hid : (newCounter id).id = id := rfl
    refine hfound hcounts ?_
    rw [verdicts_counterUses, List.mem_flatMap]
    refine ⟨newCounter id, List.mem_of_find?_eq_some hcounter, ?_⟩
    rw [hid, hreaders, hwriters, counterReaders_mendGame, counterWriters_mendGame,
      List.isEmpty_map, List.isEmpty_map, read, unchanged]
    exact List.mem_singleton_self _

/-! ## New signatures -/

/-- A conflict of rules whose signatures became equal is found. -/
theorem finds_merged (h : Repaired v g r) (hmerged : IsMerged g.rules r.rules f)
    (hlabel : f.label = .listed code) : code ∈ criticalCodes (rulewiseFindings r) := by
  obtain ⟨i, j, a, b, a', b', hij, ha, hb, ha', hb', hapart, hsame, hf⟩ := hmerged
  have hmended {k : Nat} {old new : Rule} (hold : g.rules[k]? = some old)
      (hnew : r.rules[k]? = some new) : mendRule v new = mendRule v old := by
    have hmaps := congrArg (·[k]?) h.rules
    simpa [hold, hnew] using hmaps
  -- Signatures that are empty stay so, and two empty ones are not apart.
  have hne : a'.signature ≠ "" := by
    intro hempty
    have hempty' : b'.signature = "" := hsame ▸ hempty
    rw [signature_empty_of_mended (hmended ha ha')] at hempty
    rw [signature_empty_of_mended (hmended hb hb')] at hempty'
    exact hapart (hempty.trans hempty'.symm)
  obtain ⟨hi, rfl⟩ := List.getElem?_eq_some_iff.mp ha'
  obtain ⟨hj, rfl⟩ := List.getElem?_eq_some_iff.mp hb'
  have hbetween : f ∈ betweenRules r.rules :=
    mem_betweenRules_iff.mpr ⟨i, j, hi, hj, hij, hsame, hne, hf⟩
  have hfound : f ∈ rulewiseFindings r := by simp [rulewiseFindings, conflicts_eq, hbetween]
  rw [mem_criticalCodes]
  have hcritical : f.severity = .critical := critical_of_oppositions hf
  rw [← hcritical, ← hlabel]
  exact List.mem_map_of_mem hfound

end Repaired

/-! ## The repair -/

/-- **What a repair brings up.** A repair of a rule-set by its own findings can be made, and so can the
check between the rules of both rule-sets. Every critical code found in the repaired rule-set was found
before, or is that of a counter which the repair defined at zero, or of rules whose signatures it made
equal; and each code of the latter kinds is found. -/
theorem repair_invents_only (hg : g.NamesAreTexts) (h : validate v g = .ok findings)
    (settings : Settings) (context : Context) :
    ∃ result before after, repair settings none context g findings = .ok result ∧
      rulewise g = .ok before ∧ rulewise result.game = .ok after ∧ ∀ code,
        (code ∈ criticalCodes after → code ∈ criticalCodes before ∨ Invented g result.game code) ∧
          (Invented g result.game code → code ∈ criticalCodes after) := by
  obtain ⟨result, fixes, hresult, hcycled⟩ := repair_run settings context h
  have hrepaired := hcycled.repaired
  have hbefore : rulewise g = .ok (rulewiseFindings g) :=
    rulewise_ok_iff.mpr ⟨(validate_ok_iff.mp h).2.1, rfl⟩
  have hafter : rulewise result.game = .ok (rulewiseFindings result.game) :=
    rulewise_ok_iff.mpr ⟨(validate_ok_iff.mp (hrepaired.validate hg h)).2.1, rfl⟩
  refine ⟨result, _, _, hresult, hbefore, hafter, fun code => ⟨fun hcode => ?_, fun hinvented => ?_⟩⟩
  · obtain ⟨f, hf, hverdict⟩ := List.mem_map.mp (mem_criticalCodes.mp hcode)
    obtain ⟨hseverity, hlabel⟩ := Prod.mk.inj hverdict
    rcases hrepaired.rulewise_cases hg hf (beq_iff_eq.mpr hseverity) with
      ⟨f', hf', hsame⟩ | ⟨id, code', _, hlabel', hbrings⟩ | hmerged
    · refine .inl (mem_criticalCodes.mpr ?_)
      rw [← hverdict, ← hsame]
      exact List.mem_map_of_mem hf'
    · rw [hlabel, Label.listed.injEq] at hlabel'
      exact .inr (.brought (hlabel' ▸ hbrings))
    · exact .inr (.merged hmerged hlabel)
  · cases hinvented with
    | brought hbrings => exact hrepaired.finds_brought hg hbrings
    | merged hmerged hlabel => exact hrepaired.finds_merged hmerged hlabel

/-! ## Codes that were not there before -/

/-- The star is hidden at a score, and nothing counts the score. -/
def unmovedScore : Json :=
  starDocument (.thousandths 500) (.thousandths 500) [
    starDocument.rule "bonus" [.obj [("type", .str "counter"), ("counterName", .str "score"),
      ("comparison", .str "equals"), ("value", .num 5)]]
      [.obj [("type", .str "hide"), ("targetId", .str "star")]]]

/-- Whether a code is critical between the rules of a document's rule-set, before and after its
repair. -/
def criticalAround (v : Vocabulary) (document : Json) (code : Code) : Option (Bool × Bool) :=
  (Check.load document).toOption.bind fun g =>
    (validate v g).toOption.bind fun findings =>
      (repair .standard none .empty g findings).toOption.bind fun result =>
        (rulewise g).toOption.bind fun before =>
          (rulewise result.game).toOption.map fun after =>
            ((criticalCodes before).contains code, (criticalCodes after).contains code)

/-- The repair of a document's rule-set brings up a code that was not critical between its rules. -/
def BringsUp (v : Vocabulary) (document : Json) (code : Code) : Prop :=
  ∃ g findings result before after, Check.load document = .ok g ∧ validate v g = .ok findings ∧
    repair .standard none .empty g findings = .ok result ∧ rulewise g = .ok before ∧
      rulewise result.game = .ok after ∧ code ∉ criticalCodes before ∧ code ∈ criticalCodes after

theorem bringsUp_of_criticalAround {document : Json}
    (h : criticalAround v document code = some (false, true)) : BringsUp v document code := by
  simp only [criticalAround, Option.bind_eq_some_iff, Option.map_eq_some_iff, toOption_some_iff,
    Prod.mk.injEq] at h
  obtain ⟨g, hg, findings, hfindings, result, hresult, before, hbefore, after, hafter, hno, hyes⟩ := h
  refine ⟨g, findings, result, before, after, hg, hfindings, hresult, hbefore, hafter, ?_, ?_⟩
  · simpa using hno
  · simpa using hyes

theorem bringsUp_uncountedLives : BringsUp .editor uncountedLives .instantLose :=
  bringsUp_of_criticalAround (by decide +kernel)

theorem repair_invents_only_uncountedLives :
    ∃ g findings result before after, Check.load uncountedLives = .ok g ∧ g.NamesAreTexts ∧
      validate .editor g = .ok findings ∧
        repair .standard none .empty g findings = .ok result ∧ rulewise g = .ok before ∧
          rulewise result.game = .ok after ∧ Code.instantLose ∉ criticalCodes before ∧
            Code.instantLose ∈ criticalCodes after ∧ Invented g result.game .instantLose := by
  obtain ⟨g, findings, result, before, after, hload, h, hresult, hbefore, hafter, hno, hyes⟩ :=
    bringsUp_uncountedLives
  have hg := namesAreTexts_of_load hload
  obtain ⟨result', before', after', hresult', hbefore', hafter', hcodes⟩ :=
    repair_invents_only hg h .standard .empty
  rw [hresult] at hresult'
  cases hresult'
  rw [hbefore] at hbefore'
  cases hbefore'
  rw [hafter] at hafter'
  cases hafter'
  have hinvented := ((hcodes .instantLose).1 hyes).resolve_left hno
  exact ⟨g, findings, result, before, after, hload, hg, h, hresult, hbefore, hafter, hno, hyes,
    hinvented⟩

/-- A repair brings up codes: lives that are none at the start lose the game, a score that nothing
counts stays as it is, and two chances that become one win and lose together. -/
theorem repair_invents : BringsUp .editor uncountedLives .instantLose ∧
    BringsUp .editor unmovedScore .counterNeverModified ∧
      BringsUp .editor oddChances .successFailureConflict :=
  ⟨bringsUp_uncountedLives, bringsUp_of_criticalAround (by decide +kernel),
    bringsUp_of_criticalAround (by decide +kernel)⟩

end TouchGame.Repair
