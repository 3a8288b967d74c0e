import TouchGame.Proofs.Check.Codes
import TouchGame.Proofs.Check.References

/-!
# What definitions become

The fixes of definitions look at the findings about references, which add counters and sounds, and
then at those about counters, which take counters away. Behind both, all that rules name is defined,
and no counter is left that no rule uses.

* `defineFixes_append`, `defineFixes_filter` : which findings matter, and in which order.
* `defined`, `defined_eq` : the definitions behind the fixes.
* `defineFixes_counterUses_kept` : where all counters are kept, nothing changes.
-/

namespace TouchGame.Repair

open Check Mending

variable {g : Game} {f : Finding} {fs xs ys : List Finding}

/-! ## Which findings matter -/

theorem defineFix?_of_label {c : Code} (h : f.label = .listed c) : defineFix? g f =
    (definitionOf? c).bind fun fix => (f.location.subject.filter (!·.isEmpty)).bind (fix g) := by
  rw [defineFix?, h]
  rfl

theorem defineFix?_of_subject {c : Code} {id : String}
    {fix : Game → String → Option (Game × Amendment)} (h : f.label = .listed c)
    (hfix : definitionOf? c = some fix) (hsubject : f.location.subject = some id)
    (hid : id.isEmpty = false) : defineFix? g f = fix g id := by
  rw [defineFix?_of_label h, hfix, hsubject, Option.bind_some, Option.filter_some,
    if_pos (by simp [hid]), Option.bind_some]

theorem defineFix?_of_none {c : Code} (h : f.label = .listed c)
    (hc : (definitionOf? c).isNone = true) : defineFix? g f = none := by
  rw [defineFix?_of_label h, Option.isNone_iff_eq_none.mp hc]
  rfl

theorem defineFixes_of_none (h : ∀ f ∈ fs, defineFix? g f = none) : defineFixes g fs = (g, []) := by
  induction fs with
  | nil => rfl
  | cons f rest ih =>
    rw [defineFixes, h f List.mem_cons_self]
    exact ih fun f hf => h f (List.mem_cons_of_mem _ hf)

theorem defineFixes_of_coded {codes : List Code} (h : Coded codes fs)
    (hcodes : ∀ c ∈ codes, (definitionOf? c).isNone = true) : defineFixes g fs = (g, []) := by
  refine defineFixes_of_none fun f hf => ?_
  obtain ⟨c, hc, hlabel⟩ := h f hf
  exact defineFix?_of_none hlabel (hcodes c hc)

theorem defineFixes_append (g : Game) (xs ys : List Finding) : defineFixes g (xs ++ ys) =
    ((defineFixes (defineFixes g xs).1 ys).1,
      (defineFixes g xs).2 ++ (defineFixes (defineFixes g xs).1 ys).2) := by
  induction xs generalizing g with
  | nil => rfl
  | cons f rest ih =>
    rw [List.cons_append, defineFixes, defineFixes]
    cases defineFix? g f with
    | none => exact ih g
    | some made =>
      simp only [ih]
      rfl

/-- Only findings that call for a change of the rules concerned have fixes of definitions. -/
theorem defineFixes_filter (g : Game) (fs : List Finding) :
    defineFixes g (fs.filter (·.isOf .partialRegen)) = defineFixes g fs := by
  induction fs generalizing g with
  | nil => rfl
  | cons f rest ih =>
    cases hf : f.isOf .partialRegen with
    | true =>
      rw [List.filter_cons_of_pos hf, defineFixes, defineFixes]
      cases defineFix? g f with
      | none => exact ih g
      | some made => simp only [ih]
    | false =>
      have hnone : defineFix? g f = none := by
        cases hlabel : f.label with
        | unlisted =>
          rw [defineFix?, hlabel]
          rfl
        | listed c =>
          refine defineFix?_of_none hlabel ?_
          rw [isOf_listed _ hlabel] at hf
          cases c <;> first | rfl | cases hf
      rw [List.filter_cons_of_neg (by simp [hf]), defineFixes, hnone]
      exact ih g

/-! ## What fixes look at -/

theorem code_of_definitionOf? {c : Code} {fix : Game → String → Option (Game × Amendment)}
    (h : definitionOf? c = some fix) :
    c = .invalidCounterName ∧ fix = withCounter? ∨ c = .undefinedSoundId ∧ fix = withSound? ∨
      c = .unusedCounter ∧ fix = withoutCounter? := by
  cases c <;> simp_all [definitionOf?]

/-- The record of a fix has the code of its finding. -/
theorem defineFix?_code {made : Game × Amendment} (h : defineFix? g f = some made) :
    f.label = .listed made.2.code ∧ (definitionOf? made.2.code).isSome = true := by
  cases hlabel : f.label with
  | unlisted =>
    rw [defineFix?, hlabel] at h
    cases h
  | listed c =>
    rw [defineFix?_of_label hlabel] at h
    simp only [Option.bind_eq_some_iff] at h
    obtain ⟨fix, hfix, id, _, hmade⟩ := h
    have hcode : made.2.code = c := by
      rcases code_of_definitionOf? hfix with ⟨rfl, rfl⟩ | ⟨rfl, rfl⟩ | ⟨rfl, rfl⟩
      · unfold withCounter? at hmade
        split at hmade
        · cases hmade
        · cases hmade
          rfl
      · unfold withSound? at hmade
        split at hmade
        · cases hmade
        · cases hmade
          rfl
      · simp only [withoutCounter?, Option.map_eq_some_iff] at hmade
        obtain ⟨counter, _, rfl⟩ := hmade
        rfl
    rw [hcode, hfix]
    exact ⟨rfl, rfl⟩

theorem defineFix?_subject {made : Game × Amendment} (h : defineFix? g f = some made) :
    ∃ id, f.location.subject = some id ∧ id ≠ "" := by
  simp only [defineFix?, bind, Option.bind_eq_some_iff] at h
  obtain ⟨_, _, id, hid, _⟩ := h
  obtain ⟨hsubject, hnonempty⟩ := Option.filter_eq_some_iff.mp hid
  refine ⟨id, hsubject, ?_⟩
  rintro rfl
  cases hnonempty

theorem defineFixes_mem {a : Amendment} (h : a ∈ (defineFixes g fs).2) :
    ∃ f ∈ fs, ∃ k next, defineFix? k f = some (next, a) := by
  induction fs generalizing g with
  | nil => cases h
  | cons f rest ih =>
    rw [defineFixes] at h
    cases hfix : defineFix? g f with
    | none =>
      rw [hfix] at h
      obtain ⟨f', hf', hmade⟩ := ih h
      exact ⟨f', List.mem_cons_of_mem f hf', hmade⟩
    | some made =>
      rw [hfix] at h
      rcases List.mem_cons.mp h with rfl | h
      · exact ⟨f, List.mem_cons_self, g, made.1, hfix⟩
      · obtain ⟨f', hf', hmade⟩ := ih h
        exact ⟨f', List.mem_cons_of_mem f hf', hmade⟩

theorem defineFixes_codes {a : Amendment} (h : a ∈ (defineFixes g fs).2) :
    ∃ f ∈ fs, f.label = .listed a.code ∧ (definitionOf? a.code).isSome = true := by
  obtain ⟨f, hf, k, next, hfix⟩ := defineFixes_mem h
  exact ⟨f, hf, defineFix?_code hfix⟩

def withDefinitions (h g : Game) : Game :=
  { h with counters := g.counters, sounds := g.sounds }

/-- Fixes of definitions see and change definitions only. -/
theorem defineFix?_withDefinitions (h g : Game) (f : Finding) :
    defineFix? (withDefinitions h g) f =
      (defineFix? g f).map fun made => (withDefinitions h made.1, made.2) := by
  cases hlabel : f.label with
  | unlisted =>
    rw [defineFix?, defineFix?, hlabel]
    rfl
  | listed c =>
    rw [defineFix?_of_label hlabel, defineFix?_of_label hlabel]
    cases hfix : definitionOf? c with
    | none => rfl
    | some fix =>
      cases f.location.subject.filter (!·.isEmpty) with
      | none => rfl
      | some id =>
        simp only [Option.bind_some]
        rcases code_of_definitionOf? hfix with ⟨_, rfl⟩ | ⟨_, rfl⟩ | ⟨_, rfl⟩
        · have hcounter : (withDefinitions h g).counter? id = g.counter? id := rfl
          unfold withCounter?
          rw [hcounter]
          cases g.counter? id <;> rfl
        · have hsounds : (withDefinitions h g).soundIds = g.soundIds := rfl
          unfold withSound?
          rw [hsounds]
          split <;> rfl
        · have hcounter : (withDefinitions h g).counter? id = g.counter? id := rfl
          unfold withoutCounter?
          rw [hcounter]
          cases g.counter? id <;> rfl

theorem defineFixes_withDefinitions (h g : Game) (fs : List Finding) :
    defineFixes (withDefinitions h g) fs =
      (withDefinitions h (defineFixes g fs).1, (defineFixes g fs).2) := by
  induction fs generalizing g with
  | nil => rfl
  | cons f rest ih =>
    rw [defineFixes, defineFixes, defineFix?_withDefinitions]
    cases defineFix? g f with
    | none => exact ih g
    | some made =>
      simp only [Option.map_some, ih]

/-! ## Additions -/

def subjects (c : Code) (fs : List Finding) : List String :=
  fs.filterMap fun f =>
    if f.label = .listed c then f.location.subject.filter (!·.isEmpty) else none

theorem mem_subjects {c : Code} {id : String} : id ∈ subjects c fs ↔
    ∃ f ∈ fs, f.label = .listed c ∧ f.location.subject = some id ∧ id.isEmpty = false := by
  simp [subjects, List.mem_filterMap]

theorem counter?_eq_none {id : String} : g.counter? id = none ↔ id ∉ g.counterIds := by
  simp [Game.counter?, Game.counterIds]

theorem subjects_cons (c : Code) (f : Finding) (fs : List Finding) :
    subjects c (f :: fs) = subjects c [f] ++ subjects c fs := by
  rw [subjects, subjects, subjects, ← List.filterMap_append]
  rfl

theorem subjects_of_label {c : Code} (h : f.label = .listed c) :
    subjects c [f] = (f.location.subject.filter (!·.isEmpty)).toList := by
  rw [subjects, List.filterMap_cons, if_pos h]
  cases f.location.subject.filter (!·.isEmpty) <;> rfl

theorem subjects_of_other {c c' : Code} (h : f.label = .listed c) (hc : c ≠ c') :
    subjects c' [f] = [] := by
  simp [subjects, h, hc]

/-- A finding about a reference is fixed by a definition of what it is about, unless it is about
nothing or about what is defined by then. -/
theorem defineFix?_reference {c : Code} (hc : c ∈ referenceCodes) (h : f.label = .listed c) :
    (defineFix? g f = none ∧ (∀ id ∈ subjects .invalidCounterName [f], id ∈ g.counterIds) ∧
      ∀ id ∈ subjects .undefinedSoundId [f], id ∈ g.soundIds) ∨
    (∃ id a, subjects .invalidCounterName [f] = [id] ∧ subjects .undefinedSoundId [f] = [] ∧
      id ∉ g.counterIds ∧
      defineFix? g f = some ({ g with counters := g.counters ++ [newCounter id] }, a)) ∨
    ∃ id a, subjects .invalidCounterName [f] = [] ∧ subjects .undefinedSoundId [f] = [id] ∧
      id ∉ g.soundIds ∧ defineFix? g f = some ({ g with sounds := g.sounds ++ [newSound id] }, a) := by
  have hfix := defineFix?_of_label (g := g) h
  simp only [referenceCodes, List.mem_cons, List.not_mem_nil, or_false] at hc
  rcases hc with rfl | rfl | rfl
  · rw [subjects_of_other h (by decide), subjects_of_other h (by decide)]
    exact .inl ⟨hfix, by simp, by simp⟩
  · rw [subjects_of_label h, subjects_of_other h (by decide)]
    cases hid : f.location.subject.filter (!·.isEmpty) with
    | none =>
      rw [hid] at hfix
      exact .inl ⟨hfix, by simp, by simp⟩
    | some id =>
      rw [hid] at hfix
      have hcounter : defineFix? g f = withCounter? g id := hfix
      cases hfound : g.counter? id with
      | some found =>
        refine .inl ⟨by rw [hcounter, withCounter?, hfound], ?_, by simp⟩
        intro id' hid'
        rw [Option.toList_some, List.mem_singleton] at hid'
        rw [hid']
        refine Decidable.byContradiction fun hno => ?_
        rw [counter?_eq_none.mpr hno] at hfound
        cases hfound
      | none =>
        rw [withCounter?, hfound] at hcounter
        exact .inr (.inl ⟨id, _, rfl, rfl, counter?_eq_none.mp hfound, hcounter⟩)
  · rw [subjects_of_other h (by decide), subjects_of_label h]
    cases hid : f.location.subject.filter (!·.isEmpty) with
    | none =>
      rw [hid] at hfix
      exact .inl ⟨hfix, by simp, by simp⟩
    | some id =>
      rw [hid] at hfix
      have hsound : defineFix? g f = withSound? g id := hfix
      by_cases hfound : id ∈ g.soundIds
      · have hcontains := List.contains_iff_mem.mpr hfound
        refine .inl ⟨by rw [hsound, withSound?, if_pos hcontains], by simp, ?_⟩
        simpa using hfound
      · rw [withSound?, if_neg (mt List.contains_iff_mem.mp hfound)] at hsound
        exact .inr (.inr ⟨id, _, rfl, rfl, hfound, hsound⟩)

/-- The names of a list that are not known yet, each once, in the order of the list. -/
def missing (known names : List String) : List String :=
  (names.filter fun name => !known.contains name).eraseDups

theorem mem_missing {id : String} {known names : List String} :
    id ∈ missing known names ↔ id ∈ names ∧ id ∉ known := by
  simp [missing]

theorem missing_append_of_known {known names more : List String} (h : ∀ id ∈ names, id ∈ known) :
    missing known (names ++ more) = missing known more := by
  have hnone : names.filter (fun name => !known.contains name) = [] := by
    simpa using h
  rw [missing, List.filter_append, hnone, List.nil_append, ← missing]

theorem missing_cons_of_new {id : String} {known more : List String} (h : id ∉ known) :
    missing known (id :: more) = id :: missing (known ++ [id]) more := by
  have hnew : (!known.contains id) = true := by simpa using h
  rw [missing, List.filter_cons, if_pos hnew, List.eraseDups_cons, List.filter_filter, missing]
  congr 3
  funext name
  rw [List.contains_append, Bool.not_or, List.contains_cons, List.contains_nil, Bool.or_false,
    Bool.and_comm]

/-- The fixes of findings about references add a definition of each name that is missing, in the order
in which the findings come. -/
theorem defineFixes_references (h : Coded referenceCodes fs) :
    (defineFixes g fs).1 = { g with
      counters := g.counters ++
        (missing g.counterIds (subjects .invalidCounterName fs)).map newCounter
      sounds := g.sounds ++ (missing g.soundIds (subjects .undefinedSoundId fs)).map newSound } := by
  induction fs generalizing g with
  | nil => simp [subjects, missing, defineFixes]
  | cons f rest ih =>
    rw [coded_cons] at h
    obtain ⟨⟨c, hc, hlabel⟩, hrest⟩ := h
    rw [subjects_cons _ f rest, subjects_cons _ f rest, defineFixes]
    rcases defineFix?_reference (g := g) hc hlabel with ⟨hfix, hcounter, hsound⟩ |
      ⟨id, a, hcounter, hsound, hid, hfix⟩ | ⟨id, a, hcounter, hsound, hid, hfix⟩
    · rw [missing_append_of_known hcounter, missing_append_of_known hsound, hfix]
      exact ih hrest
    · have hids : Game.counterIds { g with counters := g.counters ++ [newCounter id] } =
          g.counterIds ++ [id] := by
        simp [Game.counterIds, newCounter]
      rw [hcounter, hsound, List.nil_append, List.singleton_append, missing_cons_of_new hid, hfix]
      simp only [ih hrest, hids, List.append_assoc, List.map_cons, List.singleton_append]
      rfl
    · have hids : Game.soundIds { g with sounds := g.sounds ++ [newSound id] } =
          g.soundIds ++ [id] := by
        simp [Game.soundIds, newSound]
      rw [hcounter, hsound, List.nil_append, List.singleton_append, missing_cons_of_new hid, hfix]
      simp only [ih hrest, hids, List.append_assoc, List.map_cons, List.singleton_append]
      rfl

/-! ## Removals -/

/-- Whether a counter stays: one that rules use, or one without an id, which nothing removes. -/
def keeps (g : Game) (c : Counter) : Bool :=
  c.id.isEmpty || g.uses c.id

theorem counterUsage_of_unused {c : Counter} (index : Nat) (h : g.uses c.id = false) :
    ∃ f, counterUsage g index c = [f] ∧ f.label = .listed .unusedCounter ∧
      f.location.subject = some c.id := by
  simp only [Game.uses, Bool.or_eq_false_iff, Bool.not_eq_false', List.isEmpty_iff] at h
  simp only [counterUsage, h.1, h.2]
  exact ⟨_, rfl, rfl, rfl⟩

theorem counterUsage_of_used {c : Counter} {index : Nat} (h : g.uses c.id = true) :
    Coded [.counterNeverChecked, .counterNeverModified] (counterUsage g index c) := by
  unfold counterUsage counterUse
  split
  · rename_i hreaders hwriters
    simp [Game.uses, hreaders, hwriters] at h
  · simp
  · simp
  · simp

theorem unused_of_counterUses (hf : f ∈ counterUses g) (hlabel : f.label = .listed .unusedCounter) :
    ∃ c ∈ g.counters, g.uses c.id = false ∧ f.location.subject = some c.id := by
  obtain ⟨index, c, hc, hf⟩ := mem_indexed hf
  cases hused : g.uses c.id with
  | true =>
    obtain ⟨d, hd, hlabel'⟩ := counterUsage_of_used hused f hf
    rw [hlabel, Label.listed.injEq] at hlabel'
    subst hlabel'
    exact absurd hd (by decide)
  | false =>
    obtain ⟨f', hf', _, hsubject⟩ := counterUsage_of_unused index hused
    rw [hf', List.mem_singleton] at hf
    exact ⟨c, hc, hused, hf ▸ hsubject⟩

theorem defineFixes_counterUsage_kept {h : Game} {c : Counter} {index : Nat}
    (hc : keeps g c = true) : defineFixes h (counterUsage g index c) = (h, []) := by
  cases hused : g.uses c.id with
  | true => exact defineFixes_of_coded (counterUsage_of_used hused) (by decide)
  | false =>
    rw [keeps, hused, Bool.or_false] at hc
    obtain ⟨f, hf, hlabel, hsubject⟩ := counterUsage_of_unused index hused
    refine defineFixes_of_none fun f' hf' => ?_
    rw [hf, List.mem_singleton] at hf'
    rw [hf', defineFix?_of_label hlabel, hsubject, Option.filter_some, if_neg (by simp [hc])]
    rfl

/-- The fixes of findings about counters take away the counters that are not kept. -/
theorem defineFixes_counterUses {h : Game} {kept cs new : List Counter} (start : Nat)
    (hkept : ∀ c ∈ kept, keeps g c = true) (hcounters : h.counters = kept ++ cs ++ new) :
    (defineFixes h (indexed (counterUsage g) start cs)).1 =
      { h with counters := kept ++ cs.filter (keeps g) ++ new } := by
  induction cs generalizing h start kept with
  | nil =>
    rw [List.append_nil] at hcounters
    rw [indexed, defineFixes, List.filter_nil, List.append_nil, ← hcounters]
  | cons c rest ih =>
    -- The counters in front are kept, so an unused one is the first of its id and the one taken away.
    rw [indexed, defineFixes_append]
    cases hc : keeps g c with
    | true =>
      have hkept' : ∀ d ∈ kept ++ [c], keeps g d = true := by
        intro d hd
        rcases List.mem_append.mp hd with hd | hd
        · exact hkept d hd
        · rw [List.mem_singleton.mp hd]
          exact hc
      have hrest := ih (start + 1) hkept' (h := h) (by simp [hcounters])
      rw [defineFixes_counterUsage_kept hc, hrest, List.filter_cons_of_pos hc]
      simp
    | false =>
      obtain ⟨hid, hused⟩ : c.id.isEmpty = false ∧ g.uses c.id = false := by
        simpa [keeps] using hc
      obtain ⟨f, hf, hlabel, hsubject⟩ := counterUsage_of_unused start hused
      have hother : ∀ d ∈ kept, (d.id == c.id) = false := by
        intro d hd
        rw [beq_eq_false_iff_ne]
        intro heq
        have hd' := hkept d hd
        rw [keeps, heq, ← keeps, hc] at hd'
        cases hd'
      have herase : h.counters.eraseP (·.id == c.id) = kept ++ rest ++ new := by
        rw [hcounters, List.append_assoc, List.eraseP_append_right _ (by simpa using hother),
          List.cons_append, List.eraseP_cons_of_pos (by simp), List.append_assoc]
      have hfound : ∃ found, h.counter? c.id = some found := by
        rw [← Option.isSome_iff_exists, Game.counter?, List.find?_isSome]
        exact ⟨c, by simp [hcounters], by simp⟩
      obtain ⟨found, hfound⟩ := hfound
      have hfix : defineFix? h f = some ({ h with counters := kept ++ rest ++ new },
          ⟨.unusedCounter, "Removed unused counter", "script.counters." ++ c.id, found.toFullJson,
            .null⟩) := by
        rw [defineFix?_of_subject hlabel rfl hsubject hid, withoutCounter?, hfound, Option.map_some,
          herase]
      rw [hf, defineFixes, hfix]
      have hrest := ih (start + 1) hkept (h := { h with counters := kept ++ rest ++ new }) rfl
      have hfilter : (c :: rest).filter (keeps g) = rest.filter (keeps g) :=
        List.filter_cons_of_neg (by simp [hc])
      simp only [defineFixes, hrest, hfilter]

theorem defineFixes_counterUses_kept {h : Game} {start : Nat} {cs : List Counter}
    (hcs : ∀ c ∈ cs, keeps g c = true) :
    defineFixes h (indexed (counterUsage g) start cs) = (h, []) := by
  induction cs generalizing start with
  | nil => rfl
  | cons c rest ih =>
    rw [indexed, defineFixes_append, defineFixes_counterUsage_kept (hcs c List.mem_cons_self),
      ih fun d hd => hcs d (List.mem_cons_of_mem c hd)]
    rfl

/-! ## The definitions behind all fixes -/

/-- A rule-set with the definitions that its findings between rules ask for. -/
def defined (g : Game) : Game :=
  (defineFixes g (rulewiseFindings g)).1

/-- Identifiers of counters and sounds that a rule-set needs: those counters are used and not there,
and nothing else that findings about references are about is missing. -/
structure Provides (g : Game) (counters sounds : List String) : Prop where
  needed : ∀ id ∈ counters, g.uses id = true ∧ id ∉ g.counterIds
  counter : ∀ f ∈ references g, f.label = .listed .invalidCounterName →
    ∀ id, f.location.subject = some id → id ∈ counters
  sound : ∀ f ∈ references g, f.label = .listed .undefinedSoundId →
    ∀ id, f.location.subject = some id → id ∈ sounds

theorem defineFixes_rulewise (g h : Game) : defineFixes h (rulewiseFindings g) =
    defineFixes h (references g ++ counterUses g) := by
  have hnone {fs : List Finding} (hcoded : Coded outcomeCodes fs) (k : Game) :
      defineFixes k fs = (k, []) := defineFixes_of_coded hcoded outcomeCodes_not_definitional
  rw [rulewiseFindings]
  simp only [defineFixes_append, hnone (outcomesExist_coded g).loud,
    hnone (instantOutcomes_coded g).loud, hnone (automaticOutcomes_coded g).loud,
    hnone (playerAction_coded g).loud, hnone (conflicts_coded g),
    hnone (successReachability_coded g).loud, List.append_nil]

/-- The findings between rules whose codes fixes of definitions belong to. -/
theorem definitional_cases {c : Code} (hf : f ∈ rulewiseFindings g) (hlabel : f.label = .listed c)
    (hdefines : (definitionOf? c).isSome = true) :
    f ∈ references g ∧ c ∈ referenceCodes ∨ f ∈ counterUses g ∧ c ∈ counterCodes := by
  have hcode {codes : List Code} {fs : List Finding} (hcoded : Coded codes fs) (hin : f ∈ fs) :
      c ∈ codes := by
    obtain ⟨d, hd, hlabel'⟩ := hcoded f hin
    rw [hlabel, Label.listed.injEq] at hlabel'
    exact hlabel' ▸ hd
  have hnot {fs : List Finding} (hcoded : Coded outcomeCodes fs) : f ∉ fs := by
    intro hin
    have hnone := outcomeCodes_not_definitional c (hcode hcoded hin)
    rw [Option.isNone_iff_eq_none.mp hnone] at hdefines
    cases hdefines
  simp only [rulewiseFindings, List.mem_append] at hf
  rcases hf with ((((((hf | hf) | hf) | hf) | hf) | hf) | hf) | hf
  · exact .inl ⟨hf, hcode (references_coded g) hf⟩
  · exact absurd hf (hnot (outcomesExist_coded g).loud)
  · exact absurd hf (hnot (instantOutcomes_coded g).loud)
  · exact absurd hf (hnot (automaticOutcomes_coded g).loud)
  · exact absurd hf (hnot (playerAction_coded g).loud)
  · exact absurd hf (hnot (conflicts_coded g))
  · exact .inr ⟨hf, hcode (counterUses_coded g) hf⟩
  · exact absurd hf (hnot (successReachability_coded g).loud)

theorem references_of_label {c : Code} (hf : f ∈ rulewiseFindings g) (hlabel : f.label = .listed c)
    (hc : c = .invalidCounterName ∨ c = .undefinedSoundId) : f ∈ references g := by
  have hdefines : (definitionOf? c).isSome = true := by
    rcases hc with rfl | rfl <;> rfl
  rcases definitional_cases hf hlabel hdefines with ⟨hin, _⟩ | ⟨_, hother⟩
  · exact hin
  · rcases hc with rfl | rfl <;> exact absurd hother (by decide)

theorem counterUses_of_label (hf : f ∈ rulewiseFindings g) (hlabel : f.label = .listed .unusedCounter) :
    f ∈ counterUses g := by
  rcases definitional_cases hf hlabel rfl with ⟨_, hother⟩ | ⟨hin, _⟩
  · exact absurd hother (by decide)
  · exact hin

theorem isDangling_of_mem (hg : g.NamesAreTexts) (hf : f ∈ references g) : isDangling g f = true := by
  rw [references_eq_filter g hg, List.mem_filter] at hf
  exact hf.2

theorem missing_of_reference (hg : g.NamesAreTexts) (hf : f ∈ references g) {id : String}
    (hsubject : f.location.subject = some id) :
    (f.label = .listed .invalidCounterName → id ∉ g.counterIds) ∧
      (f.label = .listed .undefinedSoundId → id ∉ g.soundIds) := by
  have hdangling := isDangling_of_mem hg hf
  constructor
  · intro hlabel
    simpa [isDangling, hlabel, hsubject] using hdangling
  · intro hlabel
    simpa [isDangling, hlabel, hsubject] using hdangling

/-- The definitions of a rule-set behind all fixes: the counters that are kept and those that were
missing, and the sounds with those that were missing. -/
theorem defined_eq_missing (g : Game) : defined g = { g with
    counters := g.counters.filter (keeps g) ++
      (missing g.counterIds (subjects .invalidCounterName (references g))).map newCounter
    sounds := g.sounds ++
      (missing g.soundIds (subjects .undefinedSoundId (references g))).map newSound } := by
  rw [defined, defineFixes_rulewise, defineFixes_append, defineFixes_references (references_coded g)]
  exact defineFixes_counterUses 0 (fun c hc => absurd hc List.not_mem_nil) rfl

/-- Those definitions are what the rules use and nothing provides, next to what is kept. -/
theorem defined_eq (hg : g.NamesAreTexts) : ∃ counters sounds, Provides g counters sounds ∧
    defined g = { g with
      counters := g.counters.filter (keeps g) ++ counters.map newCounter
      sounds := g.sounds ++ sounds.map newSound } := by
  refine ⟨_, _, ⟨?_, ?_, ?_⟩, defined_eq_missing g⟩
  · intro id hid
    obtain ⟨hsubject, hno⟩ := mem_missing.mp hid
    obtain ⟨f, hf, hlabel, hid', _⟩ := mem_subjects.mp hsubject
    obtain ⟨id', heq, _, huses⟩ := uses_of_reference hg hf hlabel
    rw [heq, Option.some.injEq] at hid'
    exact ⟨hid' ▸ huses, hno⟩
  · intro f hf hlabel id hid
    obtain ⟨id', heq, hempty, _⟩ := uses_of_reference hg hf hlabel
    rw [heq, Option.some.injEq] at hid
    subst hid
    exact mem_missing.mpr ⟨mem_subjects.mpr ⟨f, hf, hlabel, heq, hempty⟩,
      (missing_of_reference hg hf heq).1 hlabel⟩
  · intro f hf hlabel id hid
    obtain ⟨id', heq, hempty⟩ := sound_of_reference hg hf hlabel
    rw [heq, Option.some.injEq] at hid
    subst hid
    exact mem_missing.mpr ⟨mem_subjects.mpr ⟨f, hf, hlabel, heq, hempty⟩,
      (missing_of_reference hg hf heq).2 hlabel⟩

theorem counter_of_defined (hg : g.NamesAreTexts) {c : Counter} (hc : c ∈ (defined g).counters) :
    c ∈ g.counters ∧ keeps g c = true ∨
      c = newCounter c.id ∧ g.uses c.id = true ∧ c.id ∉ g.counterIds := by
  obtain ⟨counters, sounds, hprovides, hdefined⟩ := defined_eq hg
  rw [hdefined] at hc
  rcases List.mem_append.mp hc with hc | hc
  · exact .inl (List.mem_filter.mp hc)
  · obtain ⟨id, hid, rfl⟩ := List.mem_map.mp hc
    exact .inr ⟨rfl, hprovides.needed id hid⟩

theorem provided_of_reference (hg : g.NamesAreTexts) (hf : f ∈ references g) {id : String}
    (hsubject : f.location.subject = some id) :
    (f.label = .listed .invalidCounterName → id ∈ (defined g).counterIds) ∧
      (f.label = .listed .undefinedSoundId → id ∈ (defined g).soundIds) := by
  obtain ⟨counters, sounds, hprovides, hdefined⟩ := defined_eq hg
  rw [hdefined]
  constructor
  · intro hlabel
    have hnew := List.mem_map_of_mem (f := newCounter) (hprovides.counter f hf hlabel id hsubject)
    exact List.mem_map.mpr ⟨newCounter id, List.mem_append_right _ hnew, rfl⟩
  · intro hlabel
    have hnew := List.mem_map_of_mem (f := newSound) (hprovides.sound f hf hlabel id hsubject)
    exact List.mem_map.mpr ⟨newSound id, List.mem_append_right _ hnew, rfl⟩

end TouchGame.Repair
