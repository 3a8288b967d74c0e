import TouchGame.Proofs.Repair.Fixes

/-!
# Fixes in any order

The findings of the fieldwise check that can be fixed in place may be applied one after the other in
any order. Each of them is still found when its turn comes, since a fix takes away its own finding and
no other, so each application makes its fix. All orders end at the rule-set with every number mended,
whose findings are those that could not be fixed.

* `fixEach` : findings applied one after the other to a rule-set.
* `fixEach_step`, `fixEach_run` : what one application does, and what all of them do.
* `fixEach_any_order` : the same rule-set and the same findings, whatever the order.
-/

namespace TouchGame.Repair

open Check Mending

variable {v : Vocabulary} {g : Game} {f : Finding} {findings order : List Finding}

/-- Findings applied one after the other to a rule-set, with what each application returns. -/
def fixEach (g : Game) : List Finding → Except Fault (Game × List (Option Amendment))
  | [] => .ok (g, [])
  | f :: rest => do
    let fix ← autoFix g f
    let (last, records) ← fixEach ((fix.map (·.1)).getD g) rest
    return (last, fix.map (·.2) :: records)

/-- Any of the findings that can be fixed may be the first to be applied: the others are then what is
left to fix, and what cannot be fixed stays as it is. -/
theorem fixEach_step {rest : List Finding} (h : (f :: rest).Perm (autoFindings v g)) :
    ∃ next amendment, autoFix g f = .ok (some (next, amendment)) ∧
      f.label = .listed amendment.code ∧ rest.Perm (autoFindings v next) ∧
        (fieldwise v next).filter (!·.isOf .autoFixable) =
          (fieldwise v g).filter (!·.isOf .autoFixable) ∧ mendGame v next = mendGame v g := by
  have hmem : f ∈ autoFindings v g := h.subset List.mem_cons_self
  obtain ⟨hfound, hfixable⟩ := List.mem_filter.mp hmem
  obtain ⟨before, after, hsplit⟩ := List.append_of_mem hfound
  obtain ⟨next, amendment, hfix, hcode, hnext, hmend⟩ := autoFix_heals hsplit hfixable
  refine ⟨next, amendment, hfix, hcode, ?_, ?_, hmend⟩
  · have hautos : autoFindings v g = before.filter (·.isOf .autoFixable) ++
        f :: after.filter (·.isOf .autoFixable) := by
      rw [autoFindings, hsplit, List.filter_append, List.filter_cons_of_pos hfixable]
    have hrest : autoFindings v next = before.filter (·.isOf .autoFixable) ++
        after.filter (·.isOf .autoFixable) := by
      rw [autoFindings, hnext, List.filter_append]
    rw [hautos] at h
    rw [hrest]
    exact (h.trans List.perm_middle).cons_inv
  · rw [hsplit, hnext, List.filter_append, List.filter_append,
      List.filter_cons_of_neg (by simp [hfixable])]

/-- All findings that can be fixed, applied in some order, lead to the mended rule-set. -/
theorem fixEach_run (h : order.Perm (autoFindings v g)) : ∃ amendments : List Amendment,
    fixEach g order = .ok (mendGame v g, amendments.map some) ∧
      amendments.map (Label.listed ·.code) = order.map (·.label) ∧
        fieldwise v (mendGame v g) = (fieldwise v g).filter (!·.isOf .autoFixable) := by
  induction order generalizing g with
  | nil =>
    have hnone : ∀ f ∈ fieldwise v g, ¬f.isOf .autoFixable = true :=
      List.filter_eq_nil_iff.mp h.nil_eq.symm
    have hmended : mendGame v g = g := by
      apply mendGame_of_settled
      rw [fixable, List.any_eq_false]
      exact hnone
    refine ⟨[], by rw [hmended]; rfl, rfl, ?_⟩
    rw [hmended, List.filter_eq_self.mpr]
    intro f hf
    simpa using hnone f hf
  | cons f rest ih =>
    obtain ⟨next, amendment, hfix, hcode, hrest, hothers, hmend⟩ := fixEach_step h
    obtain ⟨amendments, hrun, hcodes, hleft⟩ := ih hrest
    rw [hmend] at hrun hleft
    refine ⟨amendment :: amendments, ?_, ?_, by rw [hleft, hothers]⟩
    · rw [fixEach, hfix]
      change (do let (last, records) ← fixEach next rest; return (last, some amendment :: records)) = _
      rw [hrun]
      rfl
    · rw [List.map_cons, List.map_cons, hcodes, hcode]

/-- **Fixes in any order.** The findings of the fieldwise check that can be fixed in place are applied
one after the other. Whatever their order, each application makes a fix of the finding's code, and the
rule-set behind them is the same; its check can be made, and finds exactly what could not be fixed, as
it was found before. -/
theorem fixEach_any_order (h : fieldCheck v g = .ok findings) :
    ∃ fixed, fieldCheck v fixed = .ok (findings.filter (!·.isOf .autoFixable)) ∧
      ∀ order : List Finding, order.Perm (findings.filter (·.isOf .autoFixable)) →
        ∃ amendments : List Amendment, fixEach g order = .ok (fixed, amendments.map some) ∧
          amendments.map (Label.listed ·.code) = order.map (·.label) := by
  obtain ⟨hfault, rfl⟩ := fieldCheck_ok_iff.mp h
  refine ⟨mendGame v g, ?_, fun order horder => ?_⟩
  · obtain ⟨_, _, _, hleft⟩ := fixEach_run (List.Perm.refl (autoFindings v g))
    exact fieldCheck_ok_iff.mpr ⟨(fieldwiseFault?_mendGame g).trans hfault, hleft⟩
  · obtain ⟨amendments, hrun, hcodes, _⟩ := fixEach_run (v := v) horder
    exact ⟨amendments, hrun, hcodes⟩

/-- A game with a star outside the screen, and with a choice of points below zero by a chance that is
no chance, or of a sound that is not named. -/
def unruly : Game where
  layout := [⟨"star", ⟨2, .thousandths 500⟩, .empty⟩]
  counters := []
  rules := [⟨"tap", .empty, .value "star", .value ⟨"AND", [.touch .empty (.value "down")]⟩,
    [.choice [⟨.addScore (some (.int (-3))), none, some 2⟩, ⟨.playSound .empty none, none, none⟩]
      (.value "probability") .empty]⟩]
  objects := [⟨"star", .empty, .empty, .empty, .empty, .empty⟩]
  sounds := []
  music := .empty

theorem fixEach_any_order_unruly : ∃ findings fixed left records backwards,
    fieldCheck .editor unruly = .ok findings ∧
      (findings.filter (·.isOf .autoFixable)).length = 3 ∧ left.length = 1 ∧
        fieldCheck .editor fixed = .ok left ∧
          fixEach unruly (findings.filter (·.isOf .autoFixable)) = .ok (fixed, records) ∧
            fixEach unruly (findings.filter (·.isOf .autoFixable)).reverse = .ok (fixed, backwards) := by
  have hcounts : (fieldCheck .editor unruly).toOption.map (fun findings =>
      ((findings.filter (·.isOf .autoFixable)).length,
        (findings.filter (!·.isOf .autoFixable)).length)) = some (3, 1) := by
    decide +kernel
  obtain ⟨findings, h, hlengths⟩ := Option.map_eq_some_iff.mp hcounts
  rw [toOption_some_iff] at h
  obtain ⟨hfixable, hothers⟩ := Prod.mk.inj hlengths
  obtain ⟨fixed, hleft, hany⟩ := fixEach_any_order h
  obtain ⟨records, hforwards, _⟩ := hany _ (List.Perm.refl _)
  obtain ⟨others, hbackwards, _⟩ := hany _ (List.reverse_perm _)
  exact ⟨findings, fixed, _, _, _, h, hfixable, hothers, hleft, hforwards, hbackwards⟩

end TouchGame.Repair
