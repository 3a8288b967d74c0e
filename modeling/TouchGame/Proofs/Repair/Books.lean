import TouchGame.Proofs.Mending.Checkup
import TouchGame.Proofs.Repair.Grouping
import TouchGame.Repair.Cycle

/-!
# The steps and the books of a repair

Only the steps of a repair that change a rule-set can fail, if all findings have codes. A service is
asked at most once in them, and all that is taken from its answer is the list of objects in it. What the
repair writes down about its steps is read off the findings and the records: those remain that neither
have a record of their code nor call for a new rule-set, and the author is told about those that do.

* `reviseIfAny_eq` : a revision is what comes back for its prompt, put in place.
* `amend` : the steps of a repair that change a rule-set.
* `unsettled`, `briefOf` : what remains, and what the author is told.
* `repair_eq` : a repair is its steps and its books.
* `sent?`, `received`, `amend_eq` : the prompt that a service gets to see, what comes back for it, and the
  steps of a repair given that.
-/

namespace TouchGame.Repair

open Mending

variable {findings full : List Finding} {settings : Settings} {reviser : Option Reviser}
  {context : Context} {g fixed : Game} {fixes : List Amendment} {f : Finding}

/-! ## Codes -/

theorem codeOf_ok {f : Finding} {c : Code} (h : f.label = .listed c) : codeOf f = .ok c := by
  rw [codeOf, h]

theorem mapM_codeOf (h : ∀ f ∈ findings, ∃ c, f.label = .listed c) :
    ∃ codes, findings.mapM codeOf = .ok codes ∧ codes.map .listed = findings.map (·.label) := by
  induction findings with
  | nil => exact ⟨[], rfl, rfl⟩
  | cons f rest ih =>
    obtain ⟨c, hc⟩ := h f List.mem_cons_self
    obtain ⟨codes, hcodes, hlabels⟩ := ih fun f' hf' => h f' (List.mem_cons_of_mem f hf')
    refine ⟨c :: codes, ?_, ?_⟩
    · rw [List.mapM_cons, codeOf_ok hc, hcodes]
      rfl
    · rw [List.map_cons, List.map_cons, hlabels, hc]

theorem mapM_coded (h : ∀ f ∈ findings, ∃ c, f.label = .listed c) (handled : List Code) :
    ∃ coded : List (Code × Finding), findings.mapM (fun f => return (← codeOf f, f)) = .ok coded ∧
      (coded.filter (!handled.contains ·.1)).map (·.2) =
        findings.filter fun f => !(handled.map Label.listed).contains f.label := by
  induction findings with
  | nil => exact ⟨[], rfl, rfl⟩
  | cons f rest ih =>
    obtain ⟨c, hc⟩ := h f List.mem_cons_self
    obtain ⟨coded, hcoded, hkept⟩ := ih fun f' hf' => h f' (List.mem_cons_of_mem f hf')
    refine ⟨(c, f) :: coded, ?_, ?_⟩
    · rw [List.mapM_cons, codeOf_ok hc, hcoded]
      rfl
    · have hhandled : (handled.map Label.listed).contains f.label = handled.contains c := by
        rw [hc, Bool.eq_iff_iff]
        simp
      rw [List.filter_cons, List.filter_cons, hhandled]
      cases handled.contains c with
      | true => exact hkept
      | false => exact congrArg (f :: ·) hkept

theorem remaining_eq (amendments : List Amendment) (h : ∀ f ∈ findings, ∃ c, f.label = .listed c)
    (hfull : ∀ f ∈ full, ∃ c, f.label = .listed c) :
    remaining findings amendments full = .ok (findings.filter fun f =>
      !(amendments.map (Label.listed ·.code) ++ full.map (·.label)).contains f.label) := by
  obtain ⟨codes, hcodes, hlabels⟩ := mapM_codeOf hfull
  obtain ⟨coded, hcoded, hkept⟩ := mapM_coded h (amendments.map (·.code) ++ codes)
  rw [List.map_append, List.map_map, hlabels] at hkept
  rw [remaining, hcodes, hcoded]
  exact congrArg Except.ok hkept

/-! ## Questions and answers -/

theorem revisable?_eq_some {id : String} : revisable? g f = some id ↔
    id ≠ "" ∧ id ∈ g.rules.map (·.id) ∧ isDefinitional f = false ∧ f.location.rule = some id := by
  have hthere : (g.rule? id).isSome = true ↔ id ∈ g.rules.map (·.id) := by
    simp [Game.rule?, List.find?_isSome]
  rw [revisable?]
  split
  · rename_i hdefinitional
    simp [hdefinitional]
  · rename_i hdefinitional
    have hnamed : (!id.isEmpty) = true ↔ id ≠ "" := by simp
    rw [Option.filter_eq_some_iff, Option.filter_eq_some_iff, hthere, hnamed]
    constructor
    · rintro ⟨⟨hrule, hid⟩, hmem⟩
      exact ⟨hid, hmem, Bool.eq_false_iff.mpr hdefinitional, hrule⟩
    · rintro ⟨hid, hmem, _, hrule⟩
      exact ⟨⟨hrule, hid⟩, hmem⟩

def askedAbout (g : Game) (findings : List Finding) : List String :=
  (findings.filterMap (revisable? g)).eraseDups

theorem mem_askedAbout {id : String} :
    id ∈ askedAbout g findings ↔ ∃ f ∈ findings, revisable? g f = some id := by
  rw [askedAbout, List.mem_eraseDups, List.mem_filterMap]

/-- The prompt for a revision by some findings, if there is anything to revise. -/
def promptFor? (context : Context) (g : Game) (findings : List Finding) : Option String :=
  if findings.isEmpty then none
  else (Request.of g ((askedAbout g findings).filterMap g.rule?) findings context).prompt.toOption

/-- The objects that come back for a prompt; none without a prompt, a service or an answer. -/
def replied (reviser : Option Reviser) (prompt : Option String) : Except Fault (List Json) :=
  match prompt.bind fun text => reviser.bind (· text) with
  | some answer => revisedRules answer
  | none => .ok []

/-- A revision is what comes back, put in place. -/
theorem reviseIfAny_eq (reviser : Option Reviser) :
    reviseIfAny reviser context g findings = do
      let items ← replied reviser (promptFor? context g findings)
      let (last, records) ← putRules findings (askedAbout g findings) g items
      return (last, records, reviser.bind fun _ => promptFor? context g findings) := by
  cases reviser with
  | none =>
    simp only [replied, Option.bind_none, Option.bind_fun_none]
    rfl
  | some reviser =>
    cases findings with
    | nil => rfl
    | cons f rest =>
      rw [reviseIfAny, revise, promptFor?, askedAbout]
      dsimp only [List.isEmpty_cons]
      cases (Request.of g _ (f :: rest) context).prompt with
      | error => rfl
      | ok prompt =>
        simp only [Except.toOption, replied, Option.bind_some, Bool.false_eq_true, if_false]
        cases reviser prompt with
        | none => rfl
        | some answer => rfl

theorem replied_of_silent {prompt : Option String} (reviser : Reviser)
    (h : ∀ text, prompt = some text → reviser text = none) : replied (some reviser) prompt = .ok [] := by
  cases prompt with
  | none => rfl
  | some text =>
    rw [replied, Option.bind_some, Option.bind_some, h text rfl]

/-! ## Steps and books -/

/-- The fixes that need no service: of single values, then of definitions. -/
def applyFixes (settings : Settings) (g : Game) (findings : List Finding) :
    Except Fault (Game × List Amendment) := do
  let (fixed, fixes) ← autoFixes settings.maxAutoRepairs g [] (findings.filter (·.isOf .autoFixable))
  let (defined, definitions) := defineFixes fixed (findings.filter (·.isOf .partialRegen))
  return (defined, fixes ++ definitions)

def toRevise (g : Game) (findings : List Finding) : List Finding :=
  (findings.filter (·.isOf .partialRegen)).filter fun f => (revisable? g f).isSome

theorem toRevise_subset : toRevise g findings ⊆ findings :=
  fun _ hf => (List.mem_filter.mp (List.mem_filter.mp hf).1).1

/-- The steps of a repair that change a rule-set: the fixes, then a revision. They give the rule-set,
the records of the changes, and the prompt. -/
def amend (settings : Settings) (reviser : Option Reviser) (context : Context) (g : Game)
    (findings : List Finding) : Except Fault (Game × List Amendment × Option String) := do
  let (fixed, fixes) ← applyFixes settings g findings
  let service := if settings.dryRun then none else reviser
  let (revised, revisions, prompt) ← reviseIfAny service context fixed (toRevise fixed findings)
  return (revised, fixes ++ revisions, prompt)

/-- The findings that neither have a record of their code nor call for a new rule-set. -/
def unsettled (findings : List Finding) (amendments : List Amendment) : List Finding :=
  findings.filter fun f =>
    !f.isOf .fullRegen && !(amendments.map (Label.listed ·.code)).contains f.label

def briefOf (findings : List Finding) : Option String :=
  let full := findings.filter (·.isOf .fullRegen)
  if full.isEmpty then none else (brief full).toOption

theorem contains_full (h : ∀ f ∈ findings, ∃ c, f.label = .listed c) (hf : f ∈ findings) :
    ((findings.filter (·.isOf .fullRegen)).map (·.label)).contains f.label = f.isOf .fullRegen := by
  rw [Bool.eq_iff_iff, List.contains_iff_mem, List.mem_map]
  constructor
  · rintro ⟨f', hf', hlabel⟩
    obtain ⟨hmem, hfull⟩ := List.mem_filter.mp hf'
    obtain ⟨c, hc⟩ := h f hf
    rw [isOf_listed _ (hlabel.trans hc)] at hfull
    rwa [isOf_listed _ hc]
  · intro hfull
    exact ⟨f, List.mem_filter.mpr ⟨hf, hfull⟩, rfl⟩

theorem remaining_unsettled (h : ∀ f ∈ findings, ∃ c, f.label = .listed c)
    (amendments : List Amendment) :
    remaining findings amendments (findings.filter (·.isOf .fullRegen)) =
      .ok (unsettled findings amendments) := by
  rw [remaining_eq amendments h fun f hf => h f (List.mem_filter.mp hf).1, unsettled]
  refine congrArg Except.ok (List.filter_congr fun f hf => ?_)
  rw [List.contains_append, contains_full h hf, Bool.not_or, Bool.and_comm]

/-- **A repair is its steps and its books.** -/
theorem repair_eq (h : ∀ f ∈ findings, ∃ c, f.label = .listed c) :
    repair settings reviser context g findings =
      (amend settings reviser context g findings).map fun (last, amendments, prompt) =>
        ⟨last, amendments, unsettled findings amendments, briefOf findings, prompt⟩ := by
  have hfull : ∀ f ∈ findings.filter (·.isOf .fullRegen), ∃ c, f.label = .listed c :=
    fun f hf => h f (List.mem_filter.mp hf).1
  obtain ⟨text, htext⟩ := brief_ok hfull
  rw [repair, amend, applyFixes, briefOf]
  cases autoFixes settings.maxAutoRepairs g [] (findings.filter (·.isOf .autoFixable)) with
  | error => rfl
  | ok made =>
    obtain ⟨fixed, fixes⟩ := made
    dsimp only [bind, Except.bind, pure, Except.pure, toRevise]
    cases reviseIfAny (if settings.dryRun then none else reviser) context _ _ with
    | error => rfl
    | ok last =>
      obtain ⟨revised, revisions, prompt⟩ := last
      have hbooks := remaining_unsettled h
        (fixes ++ (defineFixes fixed (findings.filter (·.isOf .partialRegen))).2 ++ revisions)
      cases (findings.filter (·.isOf .fullRegen)).isEmpty <;>
        simp only [htext, hbooks, Functor.map, Except.map, Except.toOption, if_true, if_false,
          Bool.false_eq_true]

theorem repair_ok {result : Result} (h : ∀ f ∈ findings, ∃ c, f.label = .listed c)
    (hresult : repair settings reviser context g findings = .ok result) : ∃ amended,
      amend settings reviser context g findings = .ok amended ∧
        result = ⟨amended.1, amended.2.1, unsettled findings amended.2.1, briefOf findings,
          amended.2.2⟩ := by
  rw [repair_eq h, map_ok_iff] at hresult
  obtain ⟨amended, hsteps, rfl⟩ := hresult
  exact ⟨amended, hsteps, rfl⟩

theorem amend_of_fixes (h : applyFixes settings g findings = .ok (fixed, fixes)) :
    amend settings reviser context g findings =
      (reviseIfAny (if settings.dryRun then none else reviser) context fixed
        (toRevise fixed findings)).map fun (revised, revisions, prompt) =>
          (revised, fixes ++ revisions, prompt) := by
  rw [amend, h]
  rfl

@[simp] theorem reviseIfAny_none : reviseIfAny none context g findings = .ok (g, [], none) := rfl

theorem amend_none : amend settings none context g findings =
    (applyFixes settings g findings).map fun (fixed, fixes) => (fixed, fixes, none) := by
  cases h : applyFixes settings g findings with
  | error =>
    rw [amend, h]
    rfl
  | ok fixed =>
    rw [amend_of_fixes h, ite_self, reviseIfAny_none]
    simp only [Except.map, List.append_nil]

theorem mem_unsettled (h : ∀ f ∈ findings, ∃ c, f.label = .listed c) {amendments : List Amendment} :
    f ∈ unsettled findings amendments ↔ f ∈ findings ∧
      (∀ a ∈ amendments, f.label ≠ .listed a.code) ∧
        ∀ f' ∈ findings, f'.isOf .fullRegen = true → f.label ≠ f'.label := by
  rw [unsettled, List.mem_filter, and_congr_right_iff]
  intro hf
  rw [← contains_full h hf]
  simp only [Bool.and_eq_true, Bool.not_eq_true', List.contains_eq_mem, decide_eq_false_iff_not,
    List.mem_map, List.mem_filter, not_exists, not_and, and_imp, ne_eq, eq_comm (b := f.label)]
  exact and_comm

theorem briefOf_eq_none (h : ∀ f ∈ findings, ∃ c, f.label = .listed c) :
    briefOf findings = none ↔ ∀ f ∈ findings, f.isOf .fullRegen = false := by
  obtain ⟨text, htext⟩ : ∃ text, brief (findings.filter (·.isOf .fullRegen)) = .ok text :=
    brief_ok fun f hf => h f (List.mem_filter.mp hf).1
  rw [briefOf, htext]
  simp [Except.toOption, List.filter_eq_nil_iff]

/-! ## What comes back -/

/-- The prompt that a repair sends to a service, if it sends one. -/
def sent? (settings : Settings) (context : Context) (g : Game) (findings : List Finding) :
    Option String :=
  (repair settings (some fun _ => none) context g findings).toOption.bind (·.prompt)

/-- The objects that a service sends back to a repair. -/
def received (settings : Settings) (reviser : Option Reviser) (context : Context) (g : Game)
    (findings : List Finding) : Except Fault (List Json) :=
  replied reviser (sent? settings context g findings)

theorem sent?_of_fixes (h : ∀ f ∈ findings, ∃ c, f.label = .listed c)
    (hfixes : applyFixes settings g findings = .ok (fixed, fixes)) :
    sent? settings context g findings =
      if settings.dryRun then none else promptFor? context fixed (toRevise fixed findings) := by
  rw [sent?, repair_eq h, amend_of_fixes hfixes]
  cases settings.dryRun with
  | true => rfl
  | false =>
    rw [if_neg Bool.false_ne_true, if_neg Bool.false_ne_true, reviseIfAny_eq,
      replied_of_silent _ fun _ _ => rfl]
    rfl

theorem sent?_of_failed {fault : Fault} (h : ∀ f ∈ findings, ∃ c, f.label = .listed c)
    (hfixes : applyFixes settings g findings = .error fault) :
    sent? settings context g findings = none := by
  rw [sent?, repair_eq h, amend, hfixes]
  rfl

/-- The steps of a repair: the fixes, and what comes back, put in place. -/
theorem amend_eq (h : ∀ f ∈ findings, ∃ c, f.label = .listed c) (reviser : Option Reviser) :
    amend settings reviser context g findings = do
      let (fixed, fixes) ← applyFixes settings g findings
      let items ← received settings reviser context g findings
      let asking := toRevise fixed findings
      let (last, records) ← putRules asking (askedAbout fixed asking) fixed items
      return (last, fixes ++ records, reviser.bind fun _ => sent? settings context g findings) := by
  cases hfixes : applyFixes settings g findings with
  | error =>
    rw [amend, hfixes]
    rfl
  | ok made =>
    obtain ⟨fixed, fixes⟩ := made
    rw [amend_of_fixes hfixes, received, sent?_of_fixes h hfixes]
    cases settings.dryRun with
    | true =>
      simp only [replied, if_true, Option.bind_none, Option.bind_fun_none]
      rfl
    | false =>
      simp only [Bool.false_eq_true, if_false, reviseIfAny_eq]
      dsimp only [bind, Except.bind, pure, Except.pure]
      cases replied reviser (promptFor? context fixed (toRevise fixed findings)) with
      | error => rfl
      | ok items =>
        dsimp only
        cases putRules (toRevise fixed findings) (askedAbout fixed (toRevise fixed findings)) fixed
          items <;> rfl

end TouchGame.Repair
