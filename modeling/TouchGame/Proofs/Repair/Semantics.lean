import TouchGame.Proofs.Check.Conflicts
import TouchGame.Proofs.Repair.Repaired

/-!
# What a repair does to findings between rules

A critical finding between the rules of a repaired rule-set counts as one that was there before, with
two exceptions. A counter that the repair defines starts at zero: it can make a game over at its start,
or can stay at zero for ever. And rules that were told apart by numbers can have one trigger once these
are mended.

* `Brings` : what a counter brings that is not defined, once it is defined at zero.
* `instantOutcomes_cases`, `counterUses_cases` : the checks that look at what is defined.
* `Repaired.rulewise_cases` : where a critical finding of a repaired rule-set comes from.
* `IsNew`, `Repaired.isNew` : findings about counters that the repair defined.
-/

namespace TouchGame.Repair

open Check Mending

variable {v : Vocabulary} {g r old new : Game} {f : Finding}

/-- A finding about a counter that is defined in a rule-set and not in the one before. -/
def IsNew (old new : Game) (f : Finding) : Prop :=
  f.label ∈ [Code.instantWin, .instantLose, .counterNeverModified].map Label.listed ∧
    ∃ id, f.location.subject = some id ∧ id ∉ old.counterIds ∧ id ∈ new.counterIds

/-- Some rule may fire an outcome on a condition that holds at the start while its counter is zero. -/
def OverAtZero (g : Game) (outcome : InstantOutcome) (id : String) : Prop :=
  ∃ rule ∈ g.rules, rule.mayFire outcome.type = true ∧ ∃ c ∈ rule.conditions,
    c.counterName? = some (.text id) ∧
      (holdsAtStart? { g with counters := [newCounter id] } outcome.covers c).isSome = true

/-- The code that a counter brings which is not defined, once it is defined at zero: the game is won or
lost at its start, or conditions read what nothing changes. -/
inductive Brings (g : Game) (id : String) : Code → Prop
  | won (missing : id ∉ g.counterIds) (ended : OverAtZero g instantWin id) : Brings g id .instantWin
  | lost (missing : id ∉ g.counterIds) (ended : OverAtZero g instantLose id) : Brings g id .instantLose
  | stuck (missing : id ∉ g.counterIds) (read : (g.counterReaders id).isEmpty = false)
      (unchanged : (g.counterWriters id).isEmpty = true) : Brings g id .counterNeverModified

/-! ## Games that are over at their start -/

/-- Every counter that rules use and that was defined is still the same. -/
def KeepsCounters (old new : Game) : Prop :=
  ∀ (id : String) (c : Counter), old.uses id = true → old.counter? id = some c →
    new.counter? id = some c

/-- Every counter that was not defined is defined at zero, if at all. -/
def AddsZeros (old new : Game) : Prop :=
  ∀ (id : String) (c : Counter), id ∉ old.counterIds → new.counter? id = some c → c = newCounter id

theorem name?_of_text? {field : Slot String} {id : String} (h : field.text? = some id) :
    field.name? = some (.text id) := by
  cases field with
  | value s =>
    simp only [Slot.text?, Slot.name?] at h ⊢
    split at h
    · cases h
    · rename_i hs
      cases h
      rw [if_neg hs]
  | empty => cases h
  | number n => cases h

section Start

variable {covers : Comparison → Bool} {c : Condition}

theorem holdsAtStart?_congr
    (h : ∀ id, c.counterName? = some (.text id) → new.counter? id = old.counter? id) :
    holdsAtStart? new covers c = holdsAtStart? old covers c := by
  cases c with
  | counter name comparison value =>
    cases value with
    | none => rfl
    | some value =>
      cases hname : name.text? with
      | none => simp only [holdsAtStart?, hname, Option.bind_eq_bind, Option.bind_none]
      | some id =>
        simp only [holdsAtStart?, hname, Option.bind_eq_bind, Option.bind_some,
          h id (name?_of_text? hname)]
  | _ => rfl

theorem counter_of_holdsAtStart? {id : String} {hit : Number × String × Number}
    (h : holdsAtStart? g covers c = some (id, hit)) :
    c.counterName? = some (.text id) ∧ ∃ counter, g.counter? id = some counter := by
  cases c with
  | counter name comparison value =>
    cases value with
    | none => cases h
    | some value =>
      simp only [holdsAtStart?, Option.bind_eq_bind, Option.bind_eq_some_iff] at h
      obtain ⟨id', hname, counter, hcounter, compare, _, h⟩ := h
      split at h
      · cases h
        exact ⟨name?_of_text? hname, counter, hcounter⟩
      · cases h
  | _ => cases h

theorem holdsAtStart?_zero {id : String} (hname : c.counterName? = some (.text id))
    (hcounter : g.counter? id = some (newCounter id)) :
    holdsAtStart? { g with counters := [newCounter id] } covers c = holdsAtStart? g covers c := by
  refine holdsAtStart?_congr fun id' hname' => ?_
  rw [hname, Option.some.injEq, Name.text.injEq] at hname'
  subst hname'
  rw [hcounter, Game.counter?, List.find?_cons_of_pos]
  simp [newCounter]

/-- A condition that holds at the start did so before, or by a counter that is new. -/
theorem holdsAtStart?_cases {rule : Rule} {id : String} {hit : Number × String × Number}
    (hkept : KeepsCounters old new) (hzeros : AddsZeros old new) (hr : rule ∈ old.rules)
    (hc : c ∈ rule.conditions) (h : holdsAtStart? new covers c = some (id, hit)) :
    holdsAtStart? old covers c = some (id, hit) ∨ id ∉ old.counterIds ∧ c.counterName? = some (.text id) ∧
      (holdsAtStart? { old with counters := [newCounter id] } covers c).isSome = true := by
  obtain ⟨hname, counter, hcounter⟩ := counter_of_holdsAtStart? h
  cases hold : old.counter? id with
  | some counter' =>
    refine .inl ?_
    have hused : old.uses id = true := uses_of_condition hr hc hname
    rw [← h]
    refine holdsAtStart?_congr fun id' hname' => ?_
    rw [hname, Option.some.injEq, Name.text.injEq] at hname'
    subst hname'
    rw [hold, hkept id counter' hused hold]
  | none =>
    -- The condition holds by a counter that only the new rule-set has.
    have hmissing := counter?_eq_none.mp hold
    have hzero := hzeros id counter hmissing hcounter
    subst hzero
    refine .inr ⟨hmissing, hname, ?_⟩
    have hsame : holdsAtStart? { old with counters := [newCounter id] } covers c =
        holdsAtStart? { new with counters := [newCounter id] } covers c :=
      holdsAtStart?_congr fun _ _ => rfl
    rw [hsame, holdsAtStart?_zero hname hcounter, h]
    rfl

theorem firstTrue?_some {index position : Nat} {conditions : List Condition}
    {hit : String × Number × String × Number}
    (h : firstTrue? g covers index conditions = some (position, hit)) :
    ∃ c ∈ conditions, holdsAtStart? g covers c = some hit := by
  induction conditions generalizing index with
  | nil => cases h
  | cons c rest ih =>
    rw [firstTrue?] at h
    split at h
    · rename_i hit' hhit
      cases h
      exact ⟨c, List.mem_cons_self, hhit⟩
    · obtain ⟨d, hd, hhit⟩ := ih h
      exact ⟨d, List.mem_cons_of_mem c hd, hhit⟩

end Start

theorem verdict_instantOutcome {rule : Rule} {index : Nat} {outcome : InstantOutcome}
    (hf : f ∈ instantOutcome g index rule outcome) :
    f.verdict = (.critical, .listed outcome.code) ∧ bringsAtStart g outcome rule = true := by
  have hmem : f.verdict ∈ (instantOutcome g index rule outcome).map Finding.verdict :=
    List.mem_map_of_mem hf
  rw [verdicts_instantOutcome] at hmem
  split at hmem
  · exact ⟨List.mem_singleton.mp hmem, ‹_›⟩
  · cases hmem

/-- A rule that ends the game at its start did so before, or by a counter that is new. -/
theorem instantOutcome_cases {rule : Rule} {index : Nat} {outcome : InstantOutcome}
    (hkept : KeepsCounters old new) (hzeros : AddsZeros old new) (hr : rule ∈ old.rules)
    (hf : f ∈ instantOutcome new index rule outcome) :
    (∃ f' ∈ instantOutcome old index rule outcome, f'.verdict = f.verdict) ∨
      ∃ id, f.location.subject = some id ∧ id ∉ old.counterIds ∧ OverAtZero old outcome id := by
  obtain ⟨hverdict, _⟩ := verdict_instantOutcome hf
  by_cases hbefore : bringsAtStart old outcome rule = true
  · have hmem : f.verdict ∈ (instantOutcome old index rule outcome).map Finding.verdict := by
      rw [verdicts_instantOutcome, if_pos hbefore, hverdict]
      exact List.mem_singleton_self _
    exact .inl (List.mem_map.mp hmem)
  · refine .inr ?_
    unfold instantOutcome at hf
    dsimp only at hf
    split at hf
    · cases hf
    · rename_i hfires
      rw [Bool.not_eq_true, Bool.not_eq_false'] at hfires
      rw [bringsAtStart, hfires, Bool.true_and, Bool.or_eq_true, not_or] at hbefore
      obtain ⟨hnonempty, hnone⟩ := hbefore
      rw [if_neg hnonempty] at hf
      split at hf
      · rename_i position id initial word value hfirst
        rw [List.mem_singleton] at hf
        obtain ⟨c, hc, hholds⟩ := firstTrue?_some hfirst
        rcases holdsAtStart?_cases hkept hzeros hr hc hholds with hsame | ⟨hmissing, hname, hzero⟩
        · rw [List.any_eq_true] at hnone
          exact absurd ⟨c, hc, by rw [hsame]; rfl⟩ hnone
        · exact ⟨id, by rw [hf]; rfl, hmissing, rule, hr, hfires, c, hc, hname, hzero⟩
      · cases hf

theorem indexed_cases {α : Type} {check check' : Nat → α → List Finding} {p : Prop} {start : Nat}
    {list : List α}
    (h : ∀ i, ∀ a ∈ list, f ∈ check i a → (∃ f' ∈ check' i a, f'.verdict = f.verdict) ∨ p)
    (hf : f ∈ indexed check start list) :
    (∃ f' ∈ indexed check' start list, f'.verdict = f.verdict) ∨ p := by
  induction list generalizing start with
  | nil => simp [indexed] at hf
  | cons a rest ih =>
    simp only [indexed, List.mem_append] at hf ⊢
    rcases hf with hf | hf
    · rcases h start a List.mem_cons_self hf with ⟨f', hf', hverdict⟩ | hp
      · exact .inl ⟨f', .inl hf', hverdict⟩
      · exact .inr hp
    · rcases ih (fun i b hb => h i b (List.mem_cons_of_mem a hb)) hf with ⟨f', hf', hverdict⟩ | hp
      · exact .inl ⟨f', .inr hf', hverdict⟩
      · exact .inr hp

/-- A finding whose code is brought by its subject, a counter that is not defined. -/
def IsBrought (g : Game) (f : Finding) : Prop :=
  ∃ id code, f.location.subject = some id ∧ f.label = .listed code ∧ Brings g id code

theorem instantOutcomes_cases (hrules : new.rules = old.rules) (hkept : KeepsCounters old new)
    (hzeros : AddsZeros old new) (hf : f ∈ instantOutcomes new) :
    (∃ f' ∈ instantOutcomes old, f'.verdict = f.verdict) ∨ IsBrought old f := by
  have hlabel {index : Nat} {rule : Rule} {outcome : InstantOutcome}
      (hf : f ∈ instantOutcome new index rule outcome) : f.label = .listed outcome.code :=
    congrArg Prod.snd (verdict_instantOutcome hf).1
  rw [instantOutcomes, hrules] at hf
  refine indexed_cases (fun index rule hr hf => ?_) hf
  simp only [List.mem_append] at hf ⊢
  rcases hf with hf | hf
  · rcases instantOutcome_cases hkept hzeros hr hf with ⟨f', hf', hverdict⟩ |
      ⟨id, hsubject, hmissing, hover⟩
    · exact .inl ⟨f', .inl hf', hverdict⟩
    · exact .inr ⟨id, .instantWin, hsubject, hlabel hf, .won hmissing hover⟩
  · rcases instantOutcome_cases hkept hzeros hr hf with ⟨f', hf', hverdict⟩ |
      ⟨id, hsubject, hmissing, hover⟩
    · exact .inl ⟨f', .inr hf', hverdict⟩
    · exact .inr ⟨id, .instantLose, hsubject, hlabel hf, .lost hmissing hover⟩

/-! ## Usage of counters -/

theorem counterUsage_critical {c : Counter} {index : Nat} (hf : f ∈ counterUsage g index c)
    (hcritical : f.isCritical = true) :
    f.label = .listed .counterNeverModified ∧ f.location.subject = some c.id ∧
      (g.counterReaders c.id).isEmpty = false ∧ (g.counterWriters c.id).isEmpty = true := by
  unfold counterUsage counterUse at hf
  split at hf
  · rw [List.mem_singleton] at hf
    rw [hf] at hcritical
    cases hcritical
  · rw [List.mem_singleton] at hf
    rw [hf] at hcritical
    cases hcritical
  · rename_i hread hunchanged
    rw [List.mem_singleton] at hf
    rw [hf, hread, hunchanged]
    exact ⟨rfl, rfl, rfl, rfl⟩
  · cases hf

theorem counterUses_cases (hrules : new.rules = old.rules)
    (hcounters : ∀ c ∈ new.counters, c ∈ old.counters ∨ c.id ∉ old.counterIds)
    (hf : f ∈ counterUses new) (hcritical : f.isCritical = true) :
    (∃ f' ∈ counterUses old, f'.verdict = f.verdict) ∨ IsBrought old f := by
  have husage : counterUsage new = counterUsage old := by
    funext index c
    simp only [counterUsage, Game.counterReaders, Game.counterWriters, hrules]
  obtain ⟨index, c, hc, hf⟩ := mem_indexed hf
  rw [husage] at hf
  rcases hcounters c hc with hold | hnew
  · obtain ⟨index', hmem⟩ := indexed_mem (counterUsage old) 0 hold
    have hin : f.verdict ∈ (counterUsage old index' c).map Finding.verdict := by
      rw [verdicts_counterUsage, ← verdicts_counterUsage index]
      exact List.mem_map_of_mem hf
    obtain ⟨f', hf', hverdict⟩ := List.mem_map.mp hin
    exact .inl ⟨f', hmem f' hf', hverdict⟩
  · obtain ⟨hlabel, hsubject, hread, hunchanged⟩ := counterUsage_critical hf hcritical
    exact .inr ⟨c.id, .counterNeverModified, hsubject, hlabel, .stuck hnew hread hunchanged⟩

/-! ## Mended rule-sets -/

theorem overAtZero_mendGame (outcome : InstantOutcome) (id : String) :
    OverAtZero (mendGame v g) outcome id ↔ OverAtZero g outcome id := by
  have hholds (c : Condition) :
      holdsAtStart? { mendGame v g with counters := [newCounter id] } outcome.covers c =
        holdsAtStart? { g with counters := [newCounter id] } outcome.covers c :=
    holdsAtStart?_congr fun _ _ => rfl
  constructor
  · rintro ⟨mended, hmended, hfires, mendedCondition, hin, hname, hzero⟩
    obtain ⟨rule, hr, rfl⟩ := List.mem_map.mp hmended
    rw [conditions_mendRule] at hin
    obtain ⟨c, hc, rfl⟩ := List.mem_map.mp hin
    rw [counterName?_mendCondition] at hname
    rw [hholds, holdsAtStart?_mendCondition] at hzero
    exact ⟨rule, hr, by rwa [mayFire_mendRule] at hfires, c, hc, hname, hzero⟩
  · rintro ⟨rule, hr, hfires, c, hc, hname, hzero⟩
    refine ⟨mendRule v rule, List.mem_map_of_mem hr, by rwa [mayFire_mendRule], mendCondition v c, ?_,
      by rwa [counterName?_mendCondition], by rwa [hholds, holdsAtStart?_mendCondition]⟩
    rw [conditions_mendRule]
    exact List.mem_map_of_mem hc

theorem brings_mendGame {id : String} {code : Code} :
    Brings (mendGame v g) id code ↔ Brings g id code := by
  constructor
  · rintro (⟨hmissing, hover⟩ | ⟨hmissing, hover⟩ | ⟨hmissing, hread, hunchanged⟩)
    · exact .won hmissing ((overAtZero_mendGame _ id).mp hover)
    · exact .lost hmissing ((overAtZero_mendGame _ id).mp hover)
    · exact .stuck hmissing (by simpa using hread) (by simpa using hunchanged)
  · rintro (⟨hmissing, hover⟩ | ⟨hmissing, hover⟩ | ⟨hmissing, hread, hunchanged⟩)
    · exact .won hmissing ((overAtZero_mendGame _ id).mpr hover)
    · exact .lost hmissing ((overAtZero_mendGame _ id).mpr hover)
    · exact .stuck hmissing (by simpa using hread) (by simpa using hunchanged)

theorem isBrought_mendGame : IsBrought (mendGame v g) f ↔ IsBrought g f := by
  simp only [IsBrought, brings_mendGame]

namespace Brings

variable {id : String} {code : Code}

theorem missing (h : Brings g id code) : id ∉ g.counterIds := by
  cases h <;> assumption

theorem label_mem (h : Brings g id code) :
    Label.listed code ∈ [Code.instantWin, .instantLose, .counterNeverModified].map Label.listed := by
  cases h <;> simp

theorem read (h : Brings g id code) :
    ∃ rule ∈ g.rules, ∃ c ∈ rule.conditions, c.counterName? = some (.text id) := by
  have hover {outcome : InstantOutcome} (h : OverAtZero g outcome id) :
      ∃ rule ∈ g.rules, ∃ c ∈ rule.conditions, c.counterName? = some (.text id) := by
    obtain ⟨rule, hr, _, c, hc, hname, _⟩ := h
    exact ⟨rule, hr, c, hc, hname⟩
  cases h with
  | won missing ended => exact hover ended
  | lost missing ended => exact hover ended
  | stuck missing read unchanged =>
    rw [List.isEmpty_eq_false_iff_exists_mem] at read
    obtain ⟨rule, hrule⟩ := read
    obtain ⟨hr, hreads⟩ := List.mem_filter.mp hrule
    obtain ⟨c, hc, hname⟩ := List.any_eq_true.mp hreads
    exact ⟨rule, hr, c, hc, beq_iff_eq.mp hname⟩

end Brings

/-! ## All findings between rules -/

namespace Repaired

theorem counterIds_cases (h : Repaired v g r) (hg : g.NamesAreTexts) {c : Counter}
    (hc : c ∈ r.counters) : c ∈ g.counters ∨ c.id ∉ g.counterIds := by
  rcases h.counter_cases hg hc with ⟨hold, _⟩ | ⟨_, _, hnew⟩
  · exact .inl hold
  · exact .inr hnew

theorem counter?_kept (h : Repaired v g r) (hg : g.NamesAreTexts) {id : String} {c : Counter}
    (hused : g.uses id = true) (hc : g.counter? id = some c) : r.counter? id = some c := by
  obtain ⟨counters, sounds, _, hdefined⟩ := defined_eq hg
  have hkeeps : (g.counters.filter (keeps g)).find? (·.id == id) = g.counters.find? (·.id == id) := by
    rw [List.find?_filter]
    congr 1
    funext d
    by_cases hid : d.id = id
    · simp [keeps, hid, hused]
    · simp [hid]
  rw [Game.counter?] at hc
  rw [Game.counter?, h.counters, hdefined, List.find?_append, hkeeps, hc]
  rfl

theorem addsZeros (h : Repaired v g r) (hg : g.NamesAreTexts) : AddsZeros g r := by
  intro id c hmissing hc
  have hid : c.id = id := by simpa using List.find?_some hc
  rcases h.counter_cases hg (List.mem_of_find?_eq_some hc) with ⟨hold, _⟩ | ⟨hzero, _, _⟩
  · exact absurd (List.mem_map.mpr ⟨c, hold, hid⟩) hmissing
  · rw [← hid]
    exact hzero

theorem counterIds_of_read (h : Repaired v g r) (hg : g.NamesAreTexts) {rule : Rule} {c : Condition}
    {id : String} (hr : rule ∈ g.rules) (hc : c ∈ rule.conditions)
    (hname : c.counterName? = some (.text id)) : id ∈ r.counterIds := by
  refine Decidable.byContradiction fun hno => ?_
  -- A condition on a counter that is missing is a finding about a reference, and none is left.
  have hbare : id ∉ g.bare.counterIds := List.not_mem_nil
  have hrule : rule ∈ g.bare.rules := hr
  obtain ⟨f, hf, hlabel, hsubject⟩ := reference_of_condition hrule hc hname hbare
  rw [← h.references_bare] at hf
  have hr := h.namesAreTexts.mpr hg
  have hleft : f ∈ references r := by
    rw [references_eq_filter r hr, List.mem_filter]
    exact ⟨hf, by simpa [isDangling, hlabel, hsubject] using hno⟩
  exact (h.references_defined hg hleft).1 hlabel

/-- A critical finding between the rules of a repaired rule-set counts as one that was there before, or
is brought by a counter that was not defined, or is about rules with a signature in common that they
did not have. -/
theorem rulewise_cases (h : Repaired v g r) (hg : g.NamesAreTexts) (hf : f ∈ rulewiseFindings r)
    (hcritical : f.isCritical = true) : (∃ f' ∈ rulewiseFindings g, f'.verdict = f.verdict) ∨
      IsBrought g f ∨ IsMerged g.rules r.rules f := by
  have hrules : (mendGame v r).rules = (mendGame v g).rules := h.rules
  have hold {f' : Finding} (hf' : f' ∈ rulewiseFindings g) (hverdict : f'.verdict = f.verdict) :
      (∃ f' ∈ rulewiseFindings g, f'.verdict = f.verdict) ∨
        IsBrought g f ∨ IsMerged g.rules r.rules f :=
    .inl ⟨f', hf', hverdict⟩
  have hnew (hbrought : IsBrought (mendGame v g) f) :
      (∃ f' ∈ rulewiseFindings g, f'.verdict = f.verdict) ∨
        IsBrought g f ∨ IsMerged g.rules r.rules f :=
    .inr (.inl (isBrought_mendGame.mp hbrought))
  -- Definitions are seen by the checks of instant outcomes and of counters, numbers by conflicts alone.
  simp only [rulewiseFindings, List.mem_append] at hf
  rcases hf with ((((((hf | hf) | hf) | hf) | hf) | hf) | hf) | hf
  · exact hold (by simp [rulewiseFindings, h.references_subset hg hf]) rfl
  · rw [h.same outcomesExist (fun k => outcomesExist_mendGame k) fun _ _ => rfl] at hf
    exact hold (by simp [rulewiseFindings, hf]) rfl
  · have hkept : KeepsCounters (mendGame v g) (mendGame v r) := by
      intro id c hused hc
      rw [show (mendGame v g).uses id = g.uses id by simp [Game.uses]] at hused
      exact h.counter?_kept hg hused hc
    have hzeros : AddsZeros (mendGame v g) (mendGame v r) := h.addsZeros hg
    rw [← instantOutcomes_mendGame (v := v) r] at hf
    rcases instantOutcomes_cases hrules hkept hzeros hf with ⟨f', hf', hverdict⟩ | hbrought
    · rw [instantOutcomes_mendGame] at hf'
      exact hold (by simp [rulewiseFindings, hf']) hverdict
    · exact hnew hbrought
  · rw [h.same automaticOutcomes (fun k => automaticOutcomes_mendGame k) fun _ _ => rfl] at hf
    exact hold (by simp [rulewiseFindings, hf]) rfl
  · rw [h.same playerAction (fun k => playerAction_mendGame k) fun _ _ => rfl] at hf
    exact hold (by simp [rulewiseFindings, hf]) rfl
  · rw [conflicts_eq, List.mem_append] at hf
    rcases hf with hf | hf
    · have hown (rules : List Rule) :
          (rules.map (mendRule v)).flatMap ownConflicts = rules.flatMap ownConflicts := by
        simp only [List.flatMap_map, ownConflicts_mendRule]
      rw [← hown, h.rules, hown] at hf
      exact hold (by simp [rulewiseFindings, conflicts_eq, hf]) rfl
    · rcases merged_of_mem h.rules hf with ⟨f', hf', hverdict⟩ | hmerged
      · exact hold (by simp [rulewiseFindings, conflicts_eq, hf']) hverdict
      · exact .inr (.inr hmerged)
  · rw [← counterUses_mendGame (v := v) r] at hf
    rcases counterUses_cases hrules (fun c hc => h.counterIds_cases hg hc) hf hcritical with
      ⟨f', hf', hverdict⟩ | hbrought
    · rw [counterUses_mendGame] at hf'
      exact hold (by simp [rulewiseFindings, hf']) hverdict
    · exact hnew hbrought
  · rw [h.same successReachability (fun k => successReachability_mendGame k) fun _ _ => rfl] at hf
    exact hold (by simp [rulewiseFindings, hf]) rfl

theorem isNew (h : Repaired v g r) (hg : g.NamesAreTexts) (hf : IsBrought g f) : IsNew g r f := by
  obtain ⟨id, code, hsubject, hlabel, hbrings⟩ := hf
  obtain ⟨rule, hr, c, hc, hname⟩ := hbrings.read
  rw [IsNew, hlabel]
  exact ⟨hbrings.label_mem, id, hsubject, hbrings.missing, h.counterIds_of_read hg hr hc hname⟩

end Repaired

end TouchGame.Repair
