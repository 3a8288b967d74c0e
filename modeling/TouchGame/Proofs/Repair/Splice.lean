import TouchGame.Proofs.Repair.Handover
import TouchGame.Proofs.Repair.Service

/-!
# Where revised rules stand

The rules of an answer are put in place one after the other, each in the place of the first rule with its
id. So rules stay where they are, and with their ids: a rule is another one than before only if it is
the first with its id, the service was asked about it and answered with such a rule, and then it is the
last such rule of the answer.

* `replacedIn_getElem?`, `foldl_replacedIn_getElem?` : one rule put in place, and a list of them.
* `Spliced`, `repair_splices` : how a repaired rule-set relates to the one behind the fixes of values.
-/

namespace TouchGame.Repair

open Check

variable {findings : List Finding} {settings : Settings} {reviser : Option Reviser} {context : Context}
  {v : Vocabulary} {g fixed : Game} {rules : List Rule} {i : Nat} {old : Rule} {id : String}

/-! ## Rules put in place -/

theorem replacedIn_ids (r : Rule) (rules : List Rule) :
    (Game.replacedIn r rules).map (·.id) = rules.map (·.id) := by
  induction rules with
  | nil => rfl
  | cons first rest ih =>
    rw [Game.replacedIn]
    split
    · rename_i hid
      rw [List.map_cons, List.map_cons, beq_iff_eq.mp hid]
    · rw [List.map_cons, List.map_cons, ih]

/-- One rule stands in the place of the first one with its id. -/
theorem replacedIn_getElem? (r : Rule) (h : rules[i]? = some old) :
    (Game.replacedIn r rules)[i]? =
      some (if (rules.map (·.id)).idxOf old.id = i ∧ r.id = old.id then r else old) := by
  induction rules generalizing i with
  | nil => cases h
  | cons first rest ih =>
    rw [Game.replacedIn, List.map_cons]
    cases i with
    | zero =>
      cases h
      by_cases hid : old.id = r.id
      · simp [hid]
      · simp [hid, Ne.symm hid]
    | succ i =>
      have hrest := ih (i := i) h
      by_cases hid : first.id = r.id
      · -- the first rule is replaced, and behind it nothing is
        have hnot : ¬ ((first.id :: rest.map (·.id)).idxOf old.id = i + 1 ∧ r.id = old.id) := by
          rintro ⟨hindex, hold⟩
          rw [hid, hold, List.idxOf_cons_self] at hindex
          cases hindex
        rw [if_pos (beq_iff_eq.mpr hid), if_neg hnot]
        exact h
      · have hsame : ((first.id :: rest.map (·.id)).idxOf old.id = i + 1 ∧ r.id = old.id) ↔
            ((rest.map (·.id)).idxOf old.id = i ∧ r.id = old.id) := by
          refine and_congr_left fun hold => ?_
          rw [List.idxOf_cons_ne _ (hold ▸ hid), Nat.succ_inj]
        rw [if_neg (by simpa using hid), List.getElem?_cons_succ, hrest]
        simp only [hsame]

def lastOf? (rules : List Rule) (id : String) : Option Rule :=
  rules.reverse.find? (·.id == id)

theorem lastOf?_cons (r : Rule) (rules : List Rule) (id : String) :
    lastOf? (r :: rules) id = (lastOf? rules id).or (if r.id = id then some r else none) := by
  rw [lastOf?, lastOf?, List.reverse_cons, List.find?_append, List.find?_singleton]
  simp only [beq_iff_eq]

theorem foldl_replacedIn_getElem? (updates : List Rule) (h : rules[i]? = some old) :
    (updates.foldl (fun rules r => Game.replacedIn r rules) rules)[i]? =
      some (if (rules.map (·.id)).idxOf old.id = i then (lastOf? updates old.id).getD old else old) := by
  induction updates generalizing rules old with
  | nil => rw [List.foldl_nil, h, lastOf?, List.reverse_nil, List.find?_nil, Option.getD_none, ite_self]
  | cons r rest ih =>
    have hstep := replacedIn_getElem? r h
    rw [List.foldl_cons, ih hstep, replacedIn_ids, lastOf?_cons]
    by_cases hfirst : (rules.map (·.id)).idxOf old.id = i
    · by_cases hid : r.id = old.id
      · simp only [hfirst, hid, and_self, if_true]
        cases lastOf? rest old.id <;> rfl
      · simp only [hfirst, hid, and_false, if_false, if_true, Option.or_none]
    · simp only [hfirst, false_and, if_false]

theorem foldl_replacedIn_ids (updates rules : List Rule) :
    (updates.foldl (fun rules r => Game.replacedIn r rules) rules).map (·.id) = rules.map (·.id) := by
  induction updates generalizing rules with
  | nil => rfl
  | cons r rest ih => rw [List.foldl_cons, ih, replacedIn_ids]

theorem lastOf?_filter (rules : List Rule) (asked : List String) (id : String) :
    lastOf? (rules.filter (asked.contains ·.id)) id = if id ∈ asked then lastOf? rules id else none := by
  rw [lastOf?, ← List.filter_reverse, List.find?_filter]
  split
  · rename_i hid
    have hsame (r : Rule) :
        decide (asked.contains r.id = true ∧ (r.id == id) = true) = (r.id == id) := by
      rw [Bool.eq_iff_iff, decide_eq_true_eq, and_iff_right_iff_imp]
      exact fun hr => List.contains_iff_mem.mpr (beq_iff_eq.mp hr ▸ hid)
    simp only [hsame, lastOf?]
  · rename_i hid
    refine List.find?_eq_none.mpr fun r _ hr => hid ?_
    rw [decide_eq_true_eq, List.contains_iff_mem, beq_iff_eq] at hr
    exact hr.2 ▸ hr.1

/-! ## Repaired rule-sets -/

/-- How the rules behind a repair relate to those behind the fixes of values, given the rules of an
answer. -/
structure Spliced (g fixed : Game) (findings : List Finding) (answer : List Rule) (last : Game) :
    Prop where
  ids : last.rules.map (·.id) = g.rules.map (·.id)
  /-- A rule that is another one is the last such rule of the answer, in the place of the first. -/
  changed : ∀ (i : Nat) (old new : Rule), fixed.rules[i]? = some old → last.rules[i]? = some new →
    new ≠ old → (g.rules.map (·.id)).idxOf old.id = i ∧ Implicated g findings old.id ∧
      lastOf? answer old.id = some new
  /-- What the service was asked for and answered with is put in place. -/
  put : ∀ (i : Nat) (old new : Rule), fixed.rules[i]? = some old →
    (g.rules.map (·.id)).idxOf old.id = i → Implicated g findings old.id →
      lastOf? answer old.id = some new → last.rules[i]? = some new

theorem spliced_of_put {asked : List String} {answer : List Rule} {last : Game}
    (hids : fixed.rules.map (·.id) = g.rules.map (·.id))
    (hasked : ∀ id, id ∈ asked ↔ Implicated g findings id)
    (hlast : last.rules = (answer.filter (asked.contains ·.id)).foldl
      (fun rules r => Game.replacedIn r rules) fixed.rules) :
    Spliced g fixed findings answer last := by
  have hat {i : Nat} {old : Rule} (hold : fixed.rules[i]? = some old) : last.rules[i]? =
      some (if (g.rules.map (·.id)).idxOf old.id = i ∧ Implicated g findings old.id then
        (lastOf? answer old.id).getD old else old) := by
    rw [hlast, foldl_replacedIn_getElem? _ hold, hids, lastOf?_filter]
    by_cases himplicated : Implicated g findings old.id
    · simp only [(hasked _).mpr himplicated, himplicated, if_true, and_true]
    · simp only [mt (hasked _).mp himplicated, himplicated, if_false, and_false, Option.getD_none,
        ite_self]
  refine ⟨?_, fun i old new hold hnew hother => ?_, fun i old new hold hfirst himplicated hanswer => ?_⟩
  · rw [hlast, foldl_replacedIn_ids, hids]
  · rw [hat hold] at hnew
    split at hnew
    · rename_i hplace
      refine ⟨hplace.1, hplace.2, ?_⟩
      cases hanswer : lastOf? answer old.id with
      | none =>
        rw [hanswer] at hnew
        exact absurd (Option.some.inj hnew).symm hother
      | some r =>
        rw [hanswer] at hnew
        exact hnew
    · exact absurd (Option.some.inj hnew).symm hother
  · rw [hat hold, if_pos ⟨hfirst, himplicated⟩, hanswer, Option.getD_some]

/-- With an answer that is read, a repair fails only on a rule that was asked for and is too deep to be
written. -/
theorem repair_settles {next : Game} {fixes : List Amendment} {items : List Json}
    (h : ∀ f ∈ findings, ∃ c, f.label = .listed c)
    (hfixes : applyFixes settings g findings = .ok (next, fixes))
    (hrules : next.rules = fixed.rules)
    (hreceived : received settings reviser context g findings = .ok items) :
    Settled (fun fault => ∃ r ∈ rulesIn items, Implicated g findings r.id ∧ r.document = .error fault)
      (fun result => Spliced g fixed findings (rulesIn items) result.game ∧
        ∀ r ∈ rulesIn items, Implicated g findings r.id → ∃ document, r.document = .ok document)
      (repair settings reviser context g findings) := by
  have hasked (id : String) :
      id ∈ askedAbout next (toRevise next findings) ↔ Implicated g findings id :=
    implicated_iff.trans (implicated_of_fixes hfixes)
  rw [repair_of_received h hfixes hreceived]
  generalize askedAbout next (toRevise next findings) = asked at hasked ⊢
  have hput : Settled _ _ (putRules (toRevise next findings) asked next items) := putRules_settles items
  cases hrun : putRules (toRevise next findings) asked next items with
  | error fault =>
    rw [hrun] at hput
    obtain ⟨r, hr, hfault⟩ := hput
    rw [List.mem_filter, List.contains_iff_mem, hasked] at hr
    exact ⟨r, hr.1, hr.2, hfault⟩
  | ok made =>
    rw [hrun] at hput
    obtain ⟨hlast, hdocuments, _⟩ := hput
    refine ⟨spliced_of_put (hrules ▸ applyFixes_ruleIds hfixes) hasked (hrules ▸ hlast), ?_⟩
    intro r hr himplicated
    have hcontains := List.contains_iff_mem.mpr ((hasked _).mpr himplicated)
    exact hdocuments r (List.mem_filter.mpr ⟨hr, hcontains⟩)

/-- **Revised rules stand in the places of those before.** A repair of a rule-set by its own findings
gives a result exactly if the answer of the service can be read and those of its rules that were asked
for can be written. Then the rules are those behind the fixes of values, but that the first rule with an
id that was asked about is the last one of the answer with that id, if there is one. -/
theorem repair_splices (settings : Settings) (reviser : Option Reviser) (context : Context)
    (h : validate v g = .ok findings) :
    ((∃ result, repair settings reviser context g findings = .ok result) ↔
      ∃ items, received settings reviser context g findings = .ok items ∧
        ∀ r ∈ rulesIn items, Implicated g findings r.id → ∃ document, r.document = .ok document) ∧
    ∀ result, repair settings reviser context g findings = .ok result → ∃ fixed fixes items,
      autoFixes settings.maxAutoRepairs g [] (findings.filter (·.isOf .autoFixable)) =
        .ok (fixed, fixes) ∧
      received settings reviser context g findings = .ok items ∧
        Spliced g fixed findings (rulesIn items) result.game := by
  have hcoded : ∀ f ∈ findings, ∃ c, f.label = .listed c := fun f hf => label_of_validate h hf
  obtain ⟨_, _, hfixes, _⟩ := applyFixes_run settings h
  obtain ⟨fixed, fixes, hfixed, hrules⟩ := applyFixes_rules hfixes
  cases hreceived : received settings reviser context g findings with
  | error fault =>
    rw [repair_of_unread hcoded hreceived]
    simp
  | ok items =>
    have hsettled := repair_settles hcoded hfixes hrules hreceived
    cases hrun : repair settings reviser context g findings with
    | error fault =>
      rw [hrun] at hsettled
      obtain ⟨r, hr, himplicated, hfault⟩ := hsettled
      have hunwritten : ¬ ∀ r ∈ rulesIn items, Implicated g findings r.id →
          ∃ document, r.document = .ok document := by
        intro hdocuments
        obtain ⟨document, hdocument⟩ := hdocuments r hr himplicated
        rw [hfault] at hdocument
        cases hdocument
      simpa using hunwritten
    | ok result =>
      rw [hrun] at hsettled
      refine ⟨iff_of_true ⟨result, rfl⟩ ⟨items, rfl, hsettled.2⟩, ?_⟩
      rintro _ heq
      cases heq
      exact ⟨fixed, fixes, items, hfixed, rfl, hsettled.1⟩

/-- A service that answers with a rule of another id, two rules of the id `sing`, and things that are no
rules. -/
def chorus : Reviser := fun _ => some <|
  "[\x7b\"id\": \"other\"\x7d, \x7b\"id\": \"sing\", \"name\": \"first\"\x7d, " ++
    "\x7b\"id\": \"sing\", \"actions\": \"hide\"\x7d, \x7b\"id\": \"sing\", \"name\": \"second\"\x7d, 5]"

theorem repair_splices_mutedDuet : ∃ g findings result fixed fixes items,
    Check.load mutedDuet = .ok g ∧ validate .editor g = .ok findings ∧
      repair .standard (some chorus) .empty g findings = .ok result ∧
      result.game.rules.map (·.name) = [.empty, .empty, .value "second", .empty] ∧
      autoFixes Settings.standard.maxAutoRepairs g [] (findings.filter (·.isOf .autoFixable)) =
        .ok (fixed, fixes) ∧
      received .standard (some chorus) .empty g findings = .ok items ∧
        Spliced g fixed findings (rulesIn items) result.game := by
  have hnames : ((Check.load mutedDuet).toOption.bind fun g => (validate .editor g).toOption.bind
      fun findings => (repair .standard (some chorus) .empty g findings).toOption.map
        fun result => result.game.rules.map (·.name)) =
          some [.empty, .empty, .value "second", .empty] := by decide +kernel
  simp only [Option.bind_eq_some_iff, Option.map_eq_some_iff, toOption_some_iff] at hnames
  obtain ⟨g, hload, findings, hfindings, result, hresult, hnames⟩ := hnames
  obtain ⟨fixed, fixes, items, hfixed, hreceived, hspliced⟩ :=
    (repair_splices .standard (some chorus) .empty hfindings).2 result hresult
  exact ⟨g, findings, result, fixed, fixes, items, hload, hfindings, hresult, hnames, hfixed, hreceived,
    hspliced⟩

/-- There is no rule in an answer with a number of too many digits, and yet no rule-set comes out. -/
theorem endless_not_repaired : ∃ g findings, Check.load unknownSound = .ok g ∧
    validate .editor g = .ok findings ∧
      ¬ ∃ result, repair .standard (some fun _ => some (endless 4301)) .empty g findings = .ok result := by
  obtain ⟨g, findings, prompt, hload, hfindings, hprompt⟩ := sent?_unknownSound
  have hcoded : ∀ f ∈ findings, ∃ c, f.label = .listed c := fun f hf => label_of_validate hfindings hf
  refine ⟨g, findings, hload, hfindings, fun ⟨result, hresult⟩ => ?_⟩
  rw [repair_endless (by decide) hcoded hprompt] at hresult
  cases hresult

end TouchGame.Repair
