import TouchGame.Proofs.Repair.Splice
import TouchGame.Proofs.Repair.Stumbling

/-!
# When a repair gives a result

A repair is asked to take any list of findings. It gives a result exactly if every finding has a code of
the catalogue, no fix of a single value stumbles when its turn comes, and the answer of a service can be
read and its rules can be written. So one finding with a code from outside the catalogue is enough for
it to fail, although such a finding has a category.

* `Unhindered` : no fix of a single value stumbles.
* `repair_returns_iff` : when a repair gives a result.
-/

namespace TouchGame.Repair

open Check

variable {findings : List Finding} {settings : Settings} {reviser : Option Reviser}
  {context : Context} {g : Game}

/-- No finding that is fixed in place stumbles when its turn comes, behind those in front of it and
before the limit. -/
def Unhindered (settings : Settings) (g : Game) (findings : List Finding) : Prop :=
  ∀ before f after, findings.filter (·.isOf .autoFixable) = before ++ f :: after →
    ∀ k fixes, autoFixes settings.maxAutoRepairs g [] before = .ok (k, fixes) →
      settings.maxAutoRepairs.le (.int fixes.length) = false → ∀ fault, ¬ Stumbles k f fault

theorem unhindered_iff : Unhindered settings g findings ↔
    ∃ made, applyFixes settings g findings = .ok made := by
  rw [Unhindered, ← autoFixes_returns_iff, applyFixes]
  cases autoFixes settings.maxAutoRepairs g [] (findings.filter (·.isOf .autoFixable)) with
  | error fault =>
    refine iff_of_false ?_ ?_
    · rintro ⟨_, h⟩
      cases h
    · rintro ⟨_, h⟩
      cases h
  | ok made => exact iff_of_true ⟨made, rfl⟩ ⟨_, rfl⟩

theorem label_of_codeOf {f : Finding} {c : Code} (h : codeOf f = .ok c) : f.label = .listed c := by
  unfold codeOf at h
  split at h
  · cases h
    assumption
  · cases h

theorem coded_of_remaining {amendments : List Amendment} {full left : List Finding}
    (h : remaining findings amendments full = .ok left) :
    ∀ f ∈ findings, ∃ c, f.label = .listed c := by
  intro f hf
  obtain ⟨codes, _, h⟩ := bind_ok_iff.mp h
  obtain ⟨coded, hcoded, _⟩ := bind_ok_iff.mp h
  obtain ⟨_, _, hf⟩ := mem_of_mapM_ok hcoded hf
  obtain ⟨c, hc, _⟩ := bind_ok_iff.mp hf
  exact ⟨c, label_of_codeOf hc⟩

theorem coded_of_repair {result : Result}
    (h : repair settings reviser context g findings = .ok result) :
    ∀ f ∈ findings, ∃ c, f.label = .listed c := by
  obtain ⟨fixed, _, h⟩ := bind_ok_iff.mp h
  obtain ⟨revised, _, h⟩ := bind_ok_iff.mp h
  dsimp only at h
  split at h
  · obtain ⟨text, _, h⟩ := bind_ok_iff.mp h
    obtain ⟨left, hleft, _⟩ := bind_ok_iff.mp h
    exact coded_of_remaining hleft
  · obtain ⟨text, _, h⟩ := bind_ok_iff.mp h
    obtain ⟨left, hleft, _⟩ := bind_ok_iff.mp h
    exact coded_of_remaining hleft

/-- **When a repair gives a result.** The findings that are fixed in place have plain paths. -/
theorem repair_returns_iff (settings : Settings) (reviser : Option Reviser) (context : Context)
    (g : Game) (findings : List Finding)
    (_hplain : ∀ f ∈ findings, f.isOf .autoFixable → f.location.path.isPlain) :
    (∃ result, repair settings reviser context g findings = .ok result) ↔
      (∀ f ∈ findings, ∃ c, f.label = .listed c) ∧ Unhindered settings g findings ∧
        ∃ items, received settings reviser context g findings = .ok items ∧
          ∀ r ∈ rulesIn items, Implicated g findings r.id → ∃ document, r.document = .ok document := by
  constructor
  · rintro ⟨result, hresult⟩
    have hcoded := coded_of_repair hresult
    obtain ⟨amended, hamended, _⟩ := repair_ok hcoded hresult
    obtain ⟨made, hfixes, _⟩ := bind_ok_iff.mp hamended
    obtain ⟨fixed, fixes⟩ := made
    refine ⟨hcoded, unhindered_iff.mpr ⟨_, hfixes⟩, ?_⟩
    cases hreceived : received settings reviser context g findings with
    | error fault =>
      rw [repair_of_unread hcoded hreceived] at hresult
      cases hresult
    | ok items =>
      have hsettled := repair_settles hcoded hfixes rfl hreceived
      rw [hresult] at hsettled
      exact ⟨items, rfl, hsettled.2⟩
  · rintro ⟨hcoded, hunhindered, items, hreceived, hdocuments⟩
    obtain ⟨⟨fixed, fixes⟩, hfixes⟩ := unhindered_iff.mp hunhindered
    have hsettled := repair_settles hcoded hfixes rfl hreceived
    cases hrun : repair settings reviser context g findings with
    | ok result => exact ⟨result, rfl⟩
    | error fault =>
      rw [hrun] at hsettled
      obtain ⟨r, hr, himplicated, hfault⟩ := hsettled
      obtain ⟨document, hdocument⟩ := hdocuments r hr himplicated
      rw [hfault] at hdocument
      cases hdocument

/-- A repair that fixes the star stops at a rule that has gone. -/
theorem repair_returns_iff_farStar :
    (∃ result, repair .standard none .empty unruly [farStar] = .ok result) ∧
      ¬ ∃ result, repair .standard none .empty unruly [farStar, lostName] = .ok result := by
  have hplain : ∀ f ∈ [farStar, lostName], f.isOf .autoFixable → f.location.path.isPlain := by
    decide +kernel
  constructor
  · have hfixes : ((applyFixes .standard unruly [farStar]).toOption).isSome = true := by
      decide +kernel
    obtain ⟨made, hmade⟩ := Option.isSome_iff_exists.mp hfixes
    rw [toOption_some_iff] at hmade
    have hreceived : received .standard none .empty unruly [farStar] = .ok [] := by
      simp only [received, replied, Option.bind_none, Option.bind_fun_none]
    refine (repair_returns_iff _ _ _ _ _ fun f hf => hplain f (List.mem_of_mem_take (i := 1) hf)).mpr
      ⟨by simp [farStar], unhindered_iff.mpr ⟨made, hmade⟩, [], hreceived, ?_⟩
    intro r hr
    cases hr
  · intro hresult
    obtain ⟨made, hmade⟩ :=
      unhindered_iff.mp ((repair_returns_iff _ _ _ _ _ hplain).mp hresult).2.1
    have hfixes : ((applyFixes .standard unruly [farStar, lostName]).toOption).isSome = false := by
      decide +kernel
    rw [hmade] at hfixes
    cases hfixes

/-- A warning of a code from elsewhere. -/
def slowGame : Finding where
  severity := .warning
  label := .unlisted "SLOW_GAME" rfl
  message := "The game is slow"
  fix := none
  location := ⟨[], none, none⟩

theorem repair_slowGame (g : Game) :
    repair .standard none .empty g [slowGame] = .error (.unlistedCode "SLOW_GAME") :=
  rfl

/-- A warning of a code from elsewhere counts as one that calls for a change of the rules concerned, and
no repair takes it. -/
theorem slowGame_not_repaired : slowGame.category = .partialRegen ∧
    ∃ g, Check.load (starDocument (.thousandths 500) (.thousandths 500) []) = .ok g ∧
      ¬ ∃ result, repair .standard none .empty g [slowGame] = .ok result := by
  have hloads : (Check.load (starDocument (.thousandths 500) (.thousandths 500) [])).toOption.isSome =
      true := by
    decide +kernel
  simp only [Option.isSome_iff_exists, toOption_some_iff] at hloads
  obtain ⟨g, hload⟩ := hloads
  refine ⟨rfl, g, hload, ?_⟩
  rintro ⟨result, hresult⟩
  rw [repair_slowGame] at hresult
  cases hresult

end TouchGame.Repair
