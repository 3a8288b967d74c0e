import TouchGame.Proofs.Repair.Accounting
import TouchGame.Proofs.Repair.Answers
import TouchGame.Proofs.Repair.Frame

/-!
# What a service contributes

The rules of an answer that were asked for are put in place one after the other, and the others are left
out. So a service that is not asked, fails, or answers with nothing of use contributes nothing, as long
as its answer can be read.

* `Implicated` : a rule that the service is asked about.
* `putRules_settles` : what is put in place of an answer.
* `repair_of_unread`, `repair_of_received` : a repair with an answer that cannot be read, or can.
* `repair_unhelped` : a service that is of no use is like none, if its answer can be read.
-/

namespace TouchGame.Repair

open Check

variable {findings : List Finding} {settings : Settings} {context : Context} {g fixed : Game}
  {asked : List String} {id : String}

/-! ## Rules that are asked about -/

/-- A rule that a service is asked about: it is there, and a local finding names it that no fix of
definitions mends. -/
def Implicated (g : Game) (findings : List Finding) (id : String) : Prop :=
  id ≠ "" ∧ id ∈ g.rules.map (·.id) ∧ ∃ f ∈ findings, f.isOf .partialRegen = true ∧
    isDefinitional f = false ∧ f.location.rule = some id

instance (g : Game) (findings : List Finding) (id : String) : Decidable (Implicated g findings id) :=
  inferInstanceAs (Decidable (_ ∧ _ ∧ ∃ f ∈ findings, _))

theorem implicated_iff : id ∈ askedAbout g (toRevise g findings) ↔ Implicated g findings id := by
  simp only [mem_askedAbout, toRevise, List.mem_filter]
  constructor
  · rintro ⟨f, ⟨⟨hf, hlocal⟩, _⟩, hrevisable⟩
    obtain ⟨hid, hthere, hfree, hrule⟩ := revisable?_eq_some.mp hrevisable
    exact ⟨hid, hthere, f, hf, hlocal, hfree, hrule⟩
  · rintro ⟨hid, hthere, f, hf, hlocal, hfree, hrule⟩
    have hrevisable := revisable?_eq_some.mpr ⟨hid, hthere, hfree, hrule⟩
    exact ⟨f, ⟨⟨hf, hlocal⟩, by rw [hrevisable]; rfl⟩, hrevisable⟩

theorem implicated_of_fixes {fixes : List Amendment}
    (h : applyFixes settings g findings = .ok (fixed, fixes)) :
    Implicated fixed findings id ↔ Implicated g findings id := by
  rw [Implicated, Implicated, applyFixes_ruleIds h]

/-! ## Answers put in place -/

/-- The rules in an answer. -/
def rulesIn (items : List Json) : List Rule :=
  items.filterMap fun data => (Rule.decode data).get?

/-- What is put in place of an answer: its rules that were asked for, one after the other. A rule that
is too deep to be written is a fault. -/
theorem putRules_settles (items : List Json) :
    let fitting := (rulesIn items).filter (asked.contains ·.id)
    Settled (fun fault => ∃ r ∈ fitting, r.document = .error fault)
      (fun (last, records) => last.rules = fitting.foldl (fun rules r => Game.replacedIn r rules) g.rules ∧
        (∀ r ∈ fitting, ∃ document, r.document = .ok document) ∧
          (fitting = [] → last = g ∧ records = [])) (putRules findings asked g items) := by
  induction items generalizing g with
  | nil => exact ⟨rfl, List.forall_mem_nil _, fun _ => ⟨rfl, rfl⟩⟩
  | cons data rest ih =>
    rw [putRules, rulesIn, List.filterMap_cons, ← rulesIn]
    cases (Rule.decode data).get? with
    | none => exact ih
    | some r =>
      dsimp only
      rw [List.filter_cons, Option.filter_some]
      cases asked.contains r.id with
      | false => exact ih
      | true =>
        simp only [if_true, putRule]
        cases hdocument : r.document with
        | error fault => exact ⟨r, List.mem_cons_self, hdocument⟩
        | ok document =>
          change Settled _ _ (putRules findings asked (g.withRule r) rest >>= _)
          refine (ih.weaken ?_).bind ?_
          · rintro fault ⟨r', hr', hfault⟩
            exact ⟨r', List.mem_cons_of_mem r hr', hfault⟩
          · rintro ⟨last, more⟩ _ ⟨hrules, hdocuments, _⟩
            refine ⟨hrules, List.forall_mem_cons.mpr ⟨⟨document, hdocument⟩, hdocuments⟩, ?_⟩
            exact fun hnone => absurd hnone (List.cons_ne_nil _ _)

theorem putRules_useless {items : List Json} (h : ∀ r ∈ rulesIn items, r.id ∉ asked) :
    putRules findings asked g items = .ok (g, []) := by
  have hnone : (rulesIn items).filter (asked.contains ·.id) = [] := by
    simpa [List.filter_eq_nil_iff] using h
  have hput : Settled _ _ (putRules findings asked g items) := putRules_settles items
  simp only [hnone] at hput
  cases hrun : putRules findings asked g items with
  | error fault =>
    rw [hrun] at hput
    obtain ⟨r, hr, _⟩ := hput
    cases hr
  | ok last =>
    rw [hrun] at hput
    obtain ⟨hlast, hrecords⟩ := hput.2.2 trivial
    rw [← hlast, ← hrecords]

theorem repair_of_unread {reviser : Option Reviser} {fault : Fault}
    (h : ∀ f ∈ findings, ∃ c, f.label = .listed c)
    (hreceived : received settings reviser context g findings = .error fault) :
    repair settings reviser context g findings = .error fault := by
  rw [repair_eq h, amend_eq h, hreceived]
  cases hfixes : applyFixes settings g findings with
  | error =>
    rw [received, sent?_of_failed h hfixes] at hreceived
    cases hreceived
  | ok => rfl

theorem repair_of_received {reviser : Option Reviser} {fixes : List Amendment} {items : List Json}
    (h : ∀ f ∈ findings, ∃ c, f.label = .listed c)
    (hfixes : applyFixes settings g findings = .ok (fixed, fixes))
    (hreceived : received settings reviser context g findings = .ok items) :
    repair settings reviser context g findings =
      (putRules (toRevise fixed findings) (askedAbout fixed (toRevise fixed findings)) fixed items).map
        fun (last, records) => ⟨last, fixes ++ records, unsettled findings (fixes ++ records),
          briefOf findings, reviser.bind fun _ => sent? settings context g findings⟩ := by
  rw [repair_eq h, amend_eq h, hfixes, hreceived]
  dsimp only [bind, Except.bind]
  cases putRules (toRevise fixed findings) (askedAbout fixed (toRevise fixed findings)) fixed
    items <;> rfl

/-! ## Services of no use -/

theorem sent?_of_dryRun (h : ∀ f ∈ findings, ∃ c, f.label = .listed c)
    (hdry : settings.dryRun = true) : sent? settings context g findings = none := by
  cases hfixes : applyFixes settings g findings with
  | error => exact sent?_of_failed h hfixes
  | ok made => rw [sent?_of_fixes h hfixes, if_pos hdry]

/-- Whether a repair with a service gives what it gives without one, but for the prompt that it sends. -/
def Alike (settings : Settings) (reviser : Reviser) (context : Context) (g : Game)
    (findings : List Finding) : Prop :=
  (repair settings (some reviser) context g findings).map (fun r => { r with prompt := none }) =
    repair settings none context g findings

/-- With nothing of use in an answer, all depends on whether it can be read. -/
theorem alike_iff {reviser : Reviser} (h : ∀ f ∈ findings, ∃ c, f.label = .listed c)
    (huseless : ∀ items, received settings (some reviser) context g findings = .ok items →
      ∀ r ∈ rulesIn items, ¬ Implicated g findings r.id) :
    Alike settings reviser context g findings ↔
      ∃ items, received settings (some reviser) context g findings = .ok items := by
  cases hfixes : applyFixes settings g findings with
  | error =>
    refine iff_of_true ?_ ⟨[], ?_⟩
    · rw [Alike, repair_eq h, repair_eq h, amend, amend, hfixes]
      rfl
    · rw [received, sent?_of_failed h hfixes]
      rfl
  | ok made =>
    obtain ⟨fixed, fixes⟩ := made
    cases hreceived : received settings (some reviser) context g findings with
    | error =>
      refine iff_of_false ?_ ?_
      · intro halike
        rw [Alike, repair_of_unread h hreceived, repair_eq h, amend_none, hfixes] at halike
        cases halike
      · rintro ⟨_, heq⟩
        cases heq
    | ok items =>
      have hput : putRules (toRevise fixed findings) (askedAbout fixed (toRevise fixed findings)) fixed
          items = .ok (fixed, []) := by
        refine putRules_useless fun r hr hasked => huseless items hreceived r hr ?_
        exact (implicated_of_fixes hfixes).mp (implicated_iff.mp hasked)
      refine iff_of_true ?_ ⟨items, rfl⟩
      rw [Alike, repair_of_received h hfixes hreceived, hput, repair_eq h, amend_none, hfixes]
      simp only [Except.map, List.append_nil]

/-- **A service that is of no use is like none.** If there is a dry run, or the service fails, the repair
gives what it gives without a service, but for the prompt that was sent. If the answer holds no rule that
was asked for, it does so exactly if the answer can be read. -/
theorem repair_unhelped (settings : Settings) (reviser : Reviser) (context : Context) (g : Game)
    (h : ∀ f ∈ findings, ∃ c, f.label = .listed c) :
    (settings.dryRun = true → Alike settings reviser context g findings) ∧
      ((∀ prompt, sent? settings context g findings = some prompt → reviser prompt = none) →
        Alike settings reviser context g findings) ∧
      ((∀ items, received settings (some reviser) context g findings = .ok items →
          ∀ r ∈ rulesIn items, ¬ Implicated g findings r.id) →
        (Alike settings reviser context g findings ↔
          ∃ items, received settings (some reviser) context g findings = .ok items)) := by
  have hsilent (hnothing : received settings (some reviser) context g findings = .ok []) :
      Alike settings reviser context g findings := by
    refine (alike_iff h ?_).mpr ⟨[], hnothing⟩
    intro items hitems r hr
    rw [hnothing] at hitems
    cases hitems
    cases hr
  refine ⟨fun hdry => hsilent ?_, fun hfails => hsilent ?_, alike_iff h⟩
  · rw [received, sent?_of_dryRun h hdry]
    rfl
  · exact replied_of_silent reviser hfails

/-- A service that answers with a rule that it was not asked for, whatever it is asked. -/
def straying : Reviser := fun _ => some "[\x7b\"id\": \"other\"\x7d]"

/-- Whether the repair of a document's rule-set sends a prompt, and a service answers with rules, none of
which it was asked for. -/
def strays (reviser : Reviser) (document : Json) : Option Bool :=
  (Check.load document).toOption.bind fun g =>
    (validate .editor g).toOption.bind fun findings =>
      (received .standard (some reviser) .empty g findings).toOption.map fun items =>
        (sent? .standard .empty g findings).isSome && !(rulesIn items).isEmpty &&
          (rulesIn items).all fun r => !decide (Implicated g findings r.id)

theorem repair_unhelped_unknownSound : ∃ g findings prompt items, Check.load unknownSound = .ok g ∧
    validate .editor g = .ok findings ∧ sent? .standard .empty g findings = some prompt ∧
      received .standard (some straying) .empty g findings = .ok items ∧ rulesIn items ≠ [] ∧
        Alike .standard straying .empty g findings := by
  have hstrays : strays straying unknownSound = some true := by decide +kernel
  simp only [strays, Option.bind_eq_some_iff, Option.map_eq_some_iff, toOption_some_iff,
    Bool.and_eq_true, Option.isSome_iff_exists, Bool.not_eq_true', List.isEmpty_eq_false_iff,
    List.all_eq_true, decide_eq_false_iff_not] at hstrays
  obtain ⟨g, hload, findings, hfindings, items, hitems, ⟨⟨prompt, hprompt⟩, hrules⟩, hforeign⟩ := hstrays
  refine ⟨g, findings, prompt, items, hload, hfindings, hprompt, hitems, hrules, ?_⟩
  have hcoded : ∀ f ∈ findings, ∃ c, f.label = .listed c := fun f hf => label_of_validate hfindings hf
  refine ((repair_unhelped .standard straying .empty g hcoded).2.2 ?_).mpr ⟨items, hitems⟩
  intro items' hitems'
  rw [hitems] at hitems'
  cases hitems'
  exact hforeign

theorem repair_endless {prompt : String} {n : Nat} (hn : Numeral.digitLimit < n)
    (h : ∀ f ∈ findings, ∃ c, f.label = .listed c)
    (hsent : sent? settings context g findings = some prompt) :
    repair settings (some fun _ => some (endless n)) context g findings = .error (.tooManyDigits n) := by
  refine repair_of_unread h ?_
  rw [received, hsent]
  exact revisedRules_endless hn

theorem sent?_unknownSound : ∃ g findings prompt, Check.load unknownSound = .ok g ∧
    validate .editor g = .ok findings ∧ sent? .standard .empty g findings = some prompt := by
  have hsends : ((Check.load unknownSound).toOption.bind fun g => (validate .editor g).toOption.map
      fun findings => (sent? .standard .empty g findings).isSome) = some true := by decide +kernel
  simp only [Option.bind_eq_some_iff, Option.map_eq_some_iff, toOption_some_iff,
    Option.isSome_iff_exists] at hsends
  obtain ⟨g, hload, findings, hfindings, prompt, hprompt⟩ := hsends
  exact ⟨g, findings, prompt, hload, hfindings, hprompt⟩

/-- There is no object in such an answer, and yet the repair is not like one without a service. -/
theorem endless_not_alike : ∃ g findings, Check.load unknownSound = .ok g ∧
    validate .editor g = .ok findings ∧ '\x7b' ∉ (endless 4301).toList ∧
      ¬ Alike .standard (fun _ => some (endless 4301)) .empty g findings := by
  obtain ⟨g, findings, prompt, hload, hfindings, hprompt⟩ := sent?_unknownSound
  refine ⟨g, findings, hload, hfindings, not_mem_endless 4301 (by decide), fun halike => ?_⟩
  have hcoded : ∀ f ∈ findings, ∃ c, f.label = .listed c := fun f hf => label_of_validate hfindings hf
  obtain ⟨result, _, hresult, _⟩ := repair_run .standard .empty hfindings
  rw [Alike, repair_endless (by decide) hcoded hprompt, hresult] at halike
  cases halike

end TouchGame.Repair
