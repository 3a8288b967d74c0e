import TouchGame.Proofs.Repair.Atomic
import TouchGame.Proofs.Repair.Books
import TouchGame.Proofs.Repair.Definitions

/-!
# What fixes leave alone

A fix of a single value puts a number somewhere, and no number stands for the id of a rule; definitions
are no rules. So whatever findings a repair is given, its fixes keep the ids of the rules, and the
findings that name a rule name it before and after them.

* `autoFixes_ruleIds`, `applyFixes_ruleIds` : the fixes keep the ids of the rules.
* `applyFixes_rules` : the rules behind all fixes are those behind the fixes of single values.
-/

namespace TouchGame.Repair

variable {g next : Game} {findings : List Finding}

theorem autoFixes_ruleIds {limit : Number} {made fixes : List Amendment}
    (h : autoFixes limit g made findings = .ok (next, fixes)) :
    next.rules.map (·.id) = g.rules.map (·.id) := by
  induction findings generalizing g made with
  | nil =>
    cases h
    rfl
  | cons f rest ih =>
    rw [autoFixes] at h
    split at h
    · cases h
      rfl
    · obtain ⟨fix, hfix, h⟩ := bind_ok_iff.mp h
      split at h
      · rw [ih h, (autoFix_amends hfix).ids]
      · exact ih h

theorem defineFixes_rules : (defineFixes g findings).1.rules = g.rules :=
  congrArg (·.1.rules) (defineFixes_withDefinitions g g findings)

theorem applyFixes_rules {settings : Settings} {fixed : Game} {fixes : List Amendment}
    (h : applyFixes settings g findings = .ok (fixed, fixes)) : ∃ mended singles,
      autoFixes settings.maxAutoRepairs g [] (findings.filter (·.isOf .autoFixable)) =
        .ok (mended, singles) ∧ fixed.rules = mended.rules := by
  obtain ⟨⟨mended, singles⟩, hmended, h⟩ := bind_ok_iff.mp h
  cases h
  exact ⟨mended, singles, hmended, defineFixes_rules⟩

theorem applyFixes_ruleIds {settings : Settings} {fixed : Game} {fixes : List Amendment}
    (h : applyFixes settings g findings = .ok (fixed, fixes)) :
    fixed.rules.map (·.id) = g.rules.map (·.id) := by
  obtain ⟨mended, _, hmended, hrules⟩ := applyFixes_rules h
  rw [hrules, autoFixes_ruleIds hmended]

end TouchGame.Repair
