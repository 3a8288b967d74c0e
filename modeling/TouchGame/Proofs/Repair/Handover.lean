import TouchGame.Proofs.Repair.Accounting

/-!
# Findings handed over to the author

Findings that call for a new rule-set are told to the author, and they do nothing else: no fix, no
prompt, no record and no remaining finding depends on whether they are there, or where in the list.

* `amend_local`, `unsettled_local` : steps and books without them are the same.
* `repair_without_full` : a repair without them is the same, but for what the author is told.
-/

namespace TouchGame.Repair

open Check

variable {findings : List Finding} {settings : Settings} {reviser : Option Reviser} {context : Context}
  {g : Game}

/-- The findings that a repair may do something about. -/
def localFindings (findings : List Finding) : List Finding :=
  findings.filter (!·.isOf .fullRegen)

theorem localFindings_coded (h : ∀ f ∈ findings, ∃ c, f.label = .listed c) :
    ∀ f ∈ localFindings findings, ∃ c, f.label = .listed c :=
  fun f hf => h f (List.mem_filter.mp hf).1

theorem filter_localFindings {c : Category} (hc : c ≠ .fullRegen) :
    (localFindings findings).filter (·.isOf c) = findings.filter (·.isOf c) := by
  rw [localFindings, List.filter_filter]
  refine List.filter_congr fun f _ => ?_
  rw [Finding.isOf, Finding.isOf]
  cases hcategory : f.category == c with
  | false => rfl
  | true =>
    rw [beq_iff_eq] at hcategory
    rw [hcategory, Bool.true_and, beq_eq_false_iff_ne.mpr hc]
    rfl

theorem amend_local : amend settings reviser context g (localFindings findings) =
    amend settings reviser context g findings := by
  have hrevise (next : Game) : toRevise next (localFindings findings) = toRevise next findings := by
    rw [toRevise, toRevise, filter_localFindings (by decide)]
  rw [amend, amend, applyFixes, applyFixes, filter_localFindings (by decide),
    filter_localFindings (by decide)]
  simp only [hrevise]

theorem unsettled_local (amendments : List Amendment) :
    unsettled (localFindings findings) amendments = unsettled findings amendments := by
  rw [unsettled, unsettled, localFindings, List.filter_filter]
  refine List.filter_congr fun f _ => ?_
  cases f.isOf .fullRegen <;> simp

theorem briefOf_local (h : ∀ f ∈ findings, ∃ c, f.label = .listed c) :
    briefOf (localFindings findings) = none := by
  refine (briefOf_eq_none (localFindings_coded h)).mpr fun f hf => ?_
  simpa using (List.mem_filter.mp hf).2

/-- **Findings that call for a new rule-set change nothing but what the author is told.** Whatever a
service answers, the repair without them gives the same rule-set, records, remaining findings and prompt,
or fails alike. If there are no other findings, the rule-set stays as it is and nothing is recorded. -/
theorem repair_without_full (settings : Settings) (reviser : Option Reviser) (context : Context)
    (g : Game) (h : ∀ f ∈ findings, ∃ c, f.label = .listed c) :
    (repair settings reviser context g findings).map (fun r => { r with brief := none }) =
        repair settings reviser context g (localFindings findings) ∧
      ((∀ f ∈ findings, f.isOf .fullRegen = true) →
        ∃ result, repair settings reviser context g findings = .ok result ∧ result.game = g ∧
          result.amendments = []) := by
  have hsame : (repair settings reviser context g findings).map (fun r => { r with brief := none }) =
      repair settings reviser context g (localFindings findings) := by
    rw [repair_eq h, repair_eq (localFindings_coded h), amend_local, briefOf_local h]
    simp only [unsettled_local]
    cases amend settings reviser context g findings <;> rfl
  refine ⟨hsame, fun hfull => ?_⟩
  have hnone : localFindings findings = [] := by
    simpa [localFindings, List.filter_eq_nil_iff] using hfull
  have hrepair : repair settings reviser context g [] = .ok ⟨g, [], [], none, none⟩ := by
    rw [repair]
    cases (if settings.dryRun then none else reviser) <;> rfl
  rw [hnone, hrepair, map_ok_iff] at hsame
  obtain ⟨result, hresult, hempty⟩ := hsame
  refine ⟨result, hresult, ?_, ?_⟩
  · exact congrArg Result.game hempty
  · exact congrArg Result.amendments hempty

/-- A star off the screen, with two rules of one id that play a sound and do not say which. -/
def mutedDuet : Json :=
  starDocument 2 2 [sing, sing]
where
  /-- A rule without a sound. -/
  sing : Json := starDocument.rule "sing" [starDocument.touch] [.obj [("type", .str "playSound")]]

theorem repair_without_full_mutedDuet : ∃ g findings result, Check.load mutedDuet = .ok g ∧
    validate .editor g = .ok findings ∧
    (∀ c, ∃ f ∈ findings, f.isOf c = true) ∧
    (repair .standard (some stubborn) .empty g findings).map (fun r => { r with brief := none }) =
      repair .standard (some stubborn) .empty g (localFindings findings) ∧
    repair .standard (some stubborn) .empty g (findings.filter (·.isOf .fullRegen)) = .ok result ∧
    result.game = g ∧ result.amendments = [] := by
  have hmixed : ((Check.load mutedDuet).toOption.bind fun g => (validate .editor g).toOption.map
      fun findings => [Category.autoFixable, .partialRegen, .fullRegen].all fun c =>
        findings.any (·.isOf c)) = some true := by decide +kernel
  simp only [Option.bind_eq_some_iff, Option.map_eq_some_iff, toOption_some_iff, List.all_eq_true,
    List.any_eq_true] at hmixed
  obtain ⟨g, hload, findings, hfindings, hall⟩ := hmixed
  have hcoded : ∀ f ∈ findings, ∃ c, f.label = .listed c := fun f hf => label_of_validate hfindings hf
  have hfull : ∀ f ∈ findings.filter (·.isOf .fullRegen), ∃ c, f.label = .listed c :=
    fun f hf => hcoded f (List.mem_filter.mp hf).1
  obtain ⟨result, hresult, hgame, hamendments⟩ :=
    (repair_without_full .standard (some stubborn) .empty g hfull).2
      fun f hf => (List.mem_filter.mp hf).2
  exact ⟨g, findings, result, hload, hfindings, fun c => hall c (by cases c <;> simp),
    (repair_without_full .standard (some stubborn) .empty g hcoded).1, hresult, hgame, hamendments⟩

end TouchGame.Repair
