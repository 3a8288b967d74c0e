import Mathlib.Data.List.Basic
import TouchGame.Proofs.Check.Loading
import TouchGame.Proofs.Repair.Repaired

/-!
# Definitions that findings report

The fixes of definitions, given all findings between the rules of a rule-set, take away exactly the
counters that are reported as unused and add exactly the counters and sounds that are reported as
undefined. A counter without an id has nothing to be told by, so it stays. What is added is used and
what is used was kept, so that the check has nothing more to report.

* `reported` : what the findings of a code are about.
* `defineFixes_reported` : the definitions behind the fixes, and the check of them.
-/

namespace TouchGame.Repair

open Check Mending

variable {g : Game} {f : Finding} {findings : List Finding}

/-- What the findings of a code are about, in the order of the findings. -/
def reported (c : Code) (findings : List Finding) : List String :=
  findings.filterMap fun f => if f.label = .listed c then f.location.subject else none

theorem mem_reported {c : Code} {id : String} : id ∈ reported c findings ↔
    ∃ f ∈ findings, f.label = .listed c ∧ f.location.subject = some id := by
  simp [reported, List.mem_filterMap]

theorem reported_append (c : Code) (xs ys : List Finding) :
    reported c (xs ++ ys) = reported c xs ++ reported c ys :=
  List.filterMap_append

theorem reported_of_coded {c : Code} {codes : List Code} (h : Coded codes findings) (hc : c ∉ codes) :
    reported c findings = [] := by
  rw [reported, List.filterMap_eq_nil_iff]
  intro f hf
  obtain ⟨d, hd, hlabel⟩ := h f hf
  rw [if_neg]
  rintro heq
  rw [hlabel, Label.listed.injEq] at heq
  exact hc (heq ▸ hd)

theorem subjects_eq_reported {c : Code} (h : ∀ f ∈ findings, f.label = .listed c →
    ∃ id, f.location.subject = some id ∧ id.isEmpty = false) :
    subjects c findings = reported c findings := by
  refine List.filterMap_congr fun f hf => ?_
  by_cases hlabel : f.label = .listed c
  · obtain ⟨id, hsubject, hid⟩ := h f hf hlabel
    rw [if_pos hlabel, if_pos hlabel, hsubject, Option.filter_some, if_pos (by rw [hid]; rfl)]
  · rw [if_neg hlabel, if_neg hlabel]

theorem reported_rulewise {c : Code} (hc : (definitionOf? c).isSome = true) :
    reported c (rulewiseFindings g) = reported c (references g) ++ reported c (counterUses g) := by
  have hnone {fs : List Finding} (hcoded : Coded outcomeCodes fs) : reported c fs = [] := by
    refine reported_of_coded hcoded fun hin => ?_
    have hno := outcomeCodes_not_definitional c hin
    rw [Option.isNone_iff_eq_none.mp hno] at hc
    cases hc
  rw [rulewiseFindings]
  simp only [reported_append, hnone (outcomesExist_coded g).loud,
    hnone (instantOutcomes_coded g).loud, hnone (automaticOutcomes_coded g).loud,
    hnone (playerAction_coded g).loud, hnone (conflicts_coded g),
    hnone (successReachability_coded g).loud, List.append_nil]

theorem reported_counters (hg : g.NamesAreTexts) :
    missing g.counterIds (subjects .invalidCounterName (references g)) =
      (reported .invalidCounterName (rulewiseFindings g)).eraseDups := by
  have hsubjects : subjects .invalidCounterName (references g) =
      reported .invalidCounterName (references g) := by
    refine subjects_eq_reported fun f hf hlabel => ?_
    obtain ⟨id, hsubject, hid, _⟩ := uses_of_reference hg hf hlabel
    exact ⟨id, hsubject, hid⟩
  have hunknown : ∀ id ∈ reported .invalidCounterName (references g),
      (!g.counterIds.contains id) = true := by
    intro id hid
    obtain ⟨f, hf, hlabel, hsubject⟩ := mem_reported.mp hid
    simpa using (missing_of_reference hg hf hsubject).1 hlabel
  rw [reported_rulewise rfl, reported_of_coded (counterUses_coded g) (by decide), List.append_nil,
    hsubjects, missing, List.filter_eq_self.mpr hunknown]

theorem reported_sounds (hg : g.NamesAreTexts) :
    missing g.soundIds (subjects .undefinedSoundId (references g)) =
      (reported .undefinedSoundId (rulewiseFindings g)).eraseDups := by
  have hsubjects : subjects .undefinedSoundId (references g) =
      reported .undefinedSoundId (references g) := by
    refine subjects_eq_reported fun f hf hlabel => ?_
    obtain ⟨id, hsubject, hid⟩ := sound_of_reference hg hf hlabel
    exact ⟨id, hsubject, hid⟩
  have hunknown : ∀ id ∈ reported .undefinedSoundId (references g),
      (!g.soundIds.contains id) = true := by
    intro id hid
    obtain ⟨f, hf, hlabel, hsubject⟩ := mem_reported.mp hid
    simpa using (missing_of_reference hg hf hsubject).2 hlabel
  rw [reported_rulewise rfl, reported_of_coded (counterUses_coded g) (by decide), List.append_nil,
    hsubjects, missing, List.filter_eq_self.mpr hunknown]

theorem mem_reported_unused {c : Counter} (hc : c ∈ g.counters) :
    c.id ∈ reported .unusedCounter (rulewiseFindings g) ↔ g.uses c.id = false := by
  rw [reported_rulewise rfl, reported_of_coded (references_coded g) (by decide), List.nil_append,
    mem_reported]
  constructor
  · rintro ⟨f, hf, hlabel, hsubject⟩
    obtain ⟨d, _, hunused, hsubject'⟩ := unused_of_counterUses hf hlabel
    rw [hsubject, Option.some.injEq] at hsubject'
    rw [hsubject']
    exact hunused
  · intro hunused
    obtain ⟨index, hin⟩ := indexed_mem (counterUsage g) 0 hc
    obtain ⟨f, hf, hlabel, hsubject⟩ := counterUsage_of_unused index hunused
    exact ⟨f, hin f (hf ▸ List.mem_singleton_self f), hlabel, hsubject⟩

theorem keeps_eq {c : Counter} (hc : c ∈ g.counters) : keeps g c =
    (c.id.isEmpty || !(reported .unusedCounter (rulewiseFindings g)).contains c.id) := by
  rw [keeps]
  congr 1
  by_cases hused : g.uses c.id = true
  · have hno : c.id ∉ reported .unusedCounter (rulewiseFindings g) := by
      rw [mem_reported_unused hc, hused]
      decide
    simp [hused, hno]
  · rw [Bool.not_eq_true] at hused
    have hin := (mem_reported_unused hc).mpr hused
    simp [hused, hin]

theorem repaired_defined (v : Vocabulary) (g : Game) : Repaired v g (defined g) := by
  rw [Repaired, defined_eq_missing]
  rfl

/-- **Fixes of definitions make up for what is reported.** Of the counters those are gone that have an
id and are reported as unused; behind the others there is one for each name that is reported as
undefined, and likewise one sound for each id, in the order of the first reports. Nothing else changes,
and the check between rules then reports no undefined counter or sound and no unused counter with an
id. -/
theorem defineFixes_reported (hg : g.NamesAreTexts) (h : rulewise g = .ok findings) :
    (defineFixes g findings).1 = { g with
      counters :=
        g.counters.filter (fun c =>
          c.id.isEmpty || !(reported .unusedCounter findings).contains c.id) ++
        (reported .invalidCounterName findings).eraseDups.map newCounter
      sounds := g.sounds ++ (reported .undefinedSoundId findings).eraseDups.map newSound } ∧
    ∃ left, rulewise (defineFixes g findings).1 = .ok left ∧ ∀ f ∈ left,
      f.label ≠ .listed .invalidCounterName ∧ f.label ≠ .listed .undefinedSoundId ∧
        (f.label = .listed .unusedCounter → f.location.subject = some "") := by
  obtain ⟨hfault, rfl⟩ := rulewise_ok_iff.mp h
  have hrepaired := repaired_defined .editor g
  refine ⟨?_, rulewiseFindings (defined g), ?_, fun f hf => ⟨?_, ?_, ?_⟩⟩
  · have hkept : g.counters.filter (keeps g) = g.counters.filter fun c =>
        c.id.isEmpty || !(reported .unusedCounter (rulewiseFindings g)).contains c.id :=
      List.filter_congr fun c hc => keeps_eq hc
    rw [← reported_counters hg, ← reported_sounds hg, ← hkept]
    exact defined_eq_missing g
  · have hsame : rulewiseFault? (defined g) = rulewiseFault? g := by
      rw [defined_eq_missing]
      rfl
    exact rulewise_ok_iff.mpr ⟨hsame.trans hfault, rfl⟩
  · intro hlabel
    have hin := references_of_label hf hlabel (.inl rfl)
    exact (hrepaired.references_defined hg hin).1 hlabel
  · intro hlabel
    have hin := references_of_label hf hlabel (.inr rfl)
    exact (hrepaired.references_defined hg hin).2 hlabel
  · intro hlabel
    obtain ⟨c, hc, hunused, hsubject⟩ := unused_of_counterUses (counterUses_of_label hf hlabel) hlabel
    rw [hrepaired.uses] at hunused
    rcases hrepaired.counter_cases hg hc with ⟨_, hkept⟩ | ⟨_, hused, _⟩
    · rw [keeps, hunused, Bool.or_false, String.isEmpty_iff] at hkept
      rw [hsubject, hkept]
    · rw [hunused] at hused
      cases hused

/-- Two spare counters of one id and one without an id, next to a score, lives and sounds that rules use
and nothing defines. -/
def untidy : Json :=
  .obj [
    ("script", .obj [
      ("layout", .obj [("objects", .arr [.obj [
        ("objectId", .str "star"),
        ("position", .obj [("x", .num 0), ("y", .num 0)])]])]),
      ("counters", .arr [counter "spare", counter "", counter "spare"]),
      ("rules", .arr [
        rule "gain" (.obj [("type", .str "touch")])
          [plays "ding", counts "lives", plays "bell", counts "score"],
        rule "cheer" (.obj [("type", .str "counter"), ("counterName", .str "score")])
          [plays "ding"]])]),
    ("assetPlan", .obj [("objects", .arr [.obj [("id", .str "star")]])])]
where
  /-- A rule about the star. -/
  rule (id : String) (condition : Json) (actions : List Json) : Json :=
    .obj [("id", .str id), ("targetObjectId", .str "star"),
      ("triggers", .obj [("conditions", .arr [condition])]), ("actions", .arr actions)]
  /-- A counter that starts at five. -/
  counter (id : String) : Json := .obj [("id", .str id), ("initialValue", .num 5)]
  /-- A sound to be heard. -/
  plays (sound : String) : Json := .obj [("type", .str "playSound"), ("soundId", .str sound)]
  /-- One more of something. -/
  counts (name : String) : Json :=
    .obj [("type", .str "counter"), ("counterName", .str name), ("operation", .str "increment")]

/-- The counters of a document, and what the check between its rules reports of unused counters and of
undefined counters and sounds. -/
def reports (document : Json) : Option (List String × List String × List String × List String) :=
  (Check.load document).toOption.bind fun g => (rulewise g).toOption.map fun findings =>
    (g.counterIds, reported .unusedCounter findings, reported .invalidCounterName findings,
      reported .undefinedSoundId findings)

theorem reports_untidy : reports untidy =
    some (["spare", "", "spare"], ["spare", "", "spare"], ["lives", "score", "score"],
      ["ding", "bell", "ding"]) := by
  decide +kernel

theorem defineFixes_reported_untidy : ∃ g findings, Check.load untidy = .ok g ∧ g.NamesAreTexts ∧
    rulewise g = .ok findings ∧
      (defineFixes g findings).1 = { g with
        counters := g.counters.filter (·.id.isEmpty) ++ [newCounter "lives", newCounter "score"]
        sounds := g.sounds ++ [newSound "ding", newSound "bell"] } ∧
      ∃ left, rulewise (defineFixes g findings).1 = .ok left ∧ ∀ f ∈ left,
        f.label ≠ .listed .invalidCounterName ∧ f.label ≠ .listed .undefinedSoundId ∧
          (f.label = .listed .unusedCounter → f.location.subject = some "") := by
  have hreports := reports_untidy
  simp only [reports, Option.bind_eq_some_iff, Option.map_eq_some_iff, toOption_some_iff,
    Prod.mk.injEq] at hreports
  obtain ⟨g, hload, findings, h, hids, hunused, hcounters, hsounds⟩ := hreports
  have hg := namesAreTexts_of_load hload
  obtain ⟨hgame, hleft⟩ := defineFixes_reported hg h
  refine ⟨g, findings, hload, hg, h, ?_, hleft⟩
  have hkept : g.counters.filter (fun c =>
      c.id.isEmpty || !(["spare", "", "spare"] : List String).contains c.id) =
        g.counters.filter (·.id.isEmpty) := by
    refine List.filter_congr fun c hc => ?_
    have hid : c.id ∈ g.counterIds := List.mem_map_of_mem hc
    rw [hids, ← List.contains_iff_mem] at hid
    rw [hid, Bool.not_true, Bool.or_false]
  rw [hgame, hunused, hcounters, hsounds, hkept]
  rfl

end TouchGame.Repair
