import TouchGame.Proofs.Repair.Books
import TouchGame.Proofs.Repair.Definitions

/-!
# What one repair does

Fixes of single values take the first findings away that can be fixed in place, as many as the limit
allows, and leave all others. Then the definitions become what the findings between rules ask for.
Without a service nothing else happens.

* `Fixed`, `autoFixes_run` : the fixes of single values, up to the limit.
* `defineFixes_of_mended` : the definitions behind them.
* `Cycled`, `repair_run` : one repair of a rule-set by its own findings.
-/

namespace TouchGame.Repair

open Check Mending

variable {v : Vocabulary} {g : Game} {findings : List Finding}

/-! ## Validation -/

theorem label_of_validate (h : validate v g = .ok findings) {f : Finding} (hf : f ∈ findings) :
    ∃ c, f.label = .listed c := by
  obtain ⟨_, _, rfl⟩ := validate_ok_iff.mp h
  rcases List.mem_append.mp hf with hf | hf
  · obtain ⟨c, _, hlabel⟩ := fieldwise_coded v g f hf
    exact ⟨c, hlabel⟩
  · obtain ⟨c, _, hlabel⟩ := rulewise_coded g f hf
    exact ⟨c, hlabel⟩

theorem rulewise_not_autoFixable {f : Finding} (hf : f ∈ rulewiseFindings g) :
    f.isOf .autoFixable = false := by
  obtain ⟨c, hc, hlabel⟩ := rulewise_coded g f hf
  rw [isOf_listed _ hlabel]
  simpa using ruleCodes_not_autoFixable c hc

def autoFindings (v : Vocabulary) (g : Game) : List Finding :=
  (fieldwise v g).filter (·.isOf .autoFixable)

theorem filter_autoFixable (h : validate v g = .ok findings) :
    findings.filter (·.isOf .autoFixable) = autoFindings v g := by
  obtain ⟨_, _, rfl⟩ := validate_ok_iff.mp h
  have hrule : (rulewiseFindings g).filter (·.isOf .autoFixable) = [] := by
    rw [List.filter_eq_nil_iff]
    intro f hf
    simp [rulewise_not_autoFixable hf]
  rw [List.filter_append, hrule, List.append_nil, autoFindings]

/-! ## Fixes of single values -/

/-- What some fixes of single values lead to, behind some that were made: they take the first
findings away that can be fixed in place, each by a fix of its code, and they stop at the limit or
where no such finding is left. -/
structure Fixed (v : Vocabulary) (limit : Number) (made : Nat) (g fixed : Game)
    (fixes : List Amendment) : Prop where
  mended : mendGame v fixed = mendGame v g
  left : autoFindings v fixed = (autoFindings v g).drop fixes.length
  others : (fieldwise v fixed).filter (!·.isOf .autoFixable) =
    (fieldwise v g).filter (!·.isOf .autoFixable)
  codes : fixes.map (Label.listed ·.code) =
    ((autoFindings v g).take fixes.length).map (·.label)
  allowed : ∀ i < fixes.length, limit.le (.int (made + i : Nat)) = false
  stops : autoFindings v fixed = [] ∨ limit.le (.int (made + fixes.length : Nat)) = true

theorem Fixed.refl {limit : Number} {made : Nat}
    (h : autoFindings v g = [] ∨ limit.le (.int made) = true) : Fixed v limit made g g [] where
  mended := rfl
  left := rfl
  others := rfl
  codes := rfl
  allowed i hi := absurd hi (Nat.not_lt_zero i)
  stops := h

/-- One fix, and then others. -/
theorem Fixed.cons {limit : Number} {made : Nat} {next fixed : Game} {a : Amendment}
    {fixes : List Amendment} {before after : List Finding} {f : Finding}
    (hlimit : limit.le (.int made) = false) (hsplit : fieldwise v g = before ++ f :: after)
    (hbefore : before.filter (·.isOf .autoFixable) = []) (hf : f.isOf .autoFixable = true)
    (hcode : f.label = .listed a.code) (hnext : fieldwise v next = before ++ after)
    (hmend : mendGame v next = mendGame v g) (h : Fixed v limit (made + 1) next fixed fixes) :
    Fixed v limit made g fixed (a :: fixes) := by
  have hautos : autoFindings v g = f :: autoFindings v next := by
    rw [autoFindings, autoFindings, hsplit, hnext, List.filter_append, List.filter_append, hbefore,
      List.filter_cons_of_pos hf]
    rfl
  have hothers : (fieldwise v next).filter (!·.isOf .autoFixable) =
      (fieldwise v g).filter (!·.isOf .autoFixable) := by
    rw [hsplit, hnext, List.filter_append, List.filter_append, List.filter_cons_of_neg (by simp [hf])]
  refine ⟨h.mended.trans hmend, ?_, h.others.trans hothers, ?_, ?_, ?_⟩
  · rw [h.left, hautos]
    rfl
  · rw [List.map_cons, h.codes, hautos, List.length_cons, List.take_succ_cons, List.map_cons, hcode]
  · intro i hi
    cases i with
    | zero => exact hlimit
    | succ i =>
      have hallowed := h.allowed i (by simpa using hi)
      rwa [show made + 1 + i = made + (i + 1) by omega] at hallowed
  · rw [List.length_cons, show made + (fixes.length + 1) = made + 1 + fixes.length by omega]
    exact h.stops

/-- The fixes of the findings of a rule-set that can be fixed in place. -/
theorem autoFixes_run (limit : Number) (made : List Amendment) {autos : List Finding}
    (h : autoFindings v g = autos) : ∃ fixed fixes,
      autoFixes limit g made autos = .ok (fixed, made ++ fixes) ∧
        Fixed v limit made.length g fixed fixes := by
  induction autos generalizing g made with
  | nil => exact ⟨g, [], by rw [List.append_nil]; rfl, .refl (.inl h)⟩
  | cons f rest ih =>
    cases hlimit : limit.le (.int made.length) with
    | true =>
      refine ⟨g, [], ?_, .refl (.inr hlimit)⟩
      rw [autoFixes, if_pos hlimit, List.append_nil]
    | false =>
      -- The first finding that can be fixed is healed where it stands; all others stay as they are.
      obtain ⟨before, after, hsplit, hbefore, hf, hafter⟩ := List.filter_eq_cons_iff.mp h
      obtain ⟨next, a, hfix, hcode, hnext, hmend⟩ := autoFix_heals hsplit hf
      have hnone : before.filter (·.isOf .autoFixable) = [] := List.filter_eq_nil_iff.mpr hbefore
      have hrest : autoFindings v next = rest := by
        rw [autoFindings, hnext, List.filter_append, hnone, hafter]
        rfl
      obtain ⟨fixed, fixes, hrun, hfixed⟩ := ih (made ++ [a]) hrest
      refine ⟨fixed, a :: fixes, ?_, ?_⟩
      · rw [autoFixes, if_neg (by simp [hlimit]), hfix]
        change autoFixes limit next (made ++ [a]) rest = _
        rw [hrun, List.append_assoc]
        rfl
      · rw [List.length_append] at hfixed
        exact .cons hlimit hsplit hnone hf hcode hnext hmend hfixed

/-! ## The cycle -/

theorem withDefinitions_of_mended {fixed : Game} (h : mendGame v fixed = mendGame v g) :
    withDefinitions fixed g = fixed := by
  have hcounters : (mendGame v fixed).counters = (mendGame v g).counters := by rw [h]
  have hsounds : (mendGame v fixed).sounds = (mendGame v g).sounds := by rw [h]
  rw [counters_mendGame, counters_mendGame] at hcounters
  rw [sounds_mendGame, sounds_mendGame] at hsounds
  rw [withDefinitions, ← hcounters, ← hsounds]

theorem defineFixes_of_mended {fixed : Game} (h : validate v g = .ok findings)
    (hmended : mendGame v fixed = mendGame v g) :
    defineFixes fixed (findings.filter (·.isOf .partialRegen)) =
      (withDefinitions fixed (defined g), (defineFixes g (rulewiseFindings g)).2) := by
  have hself := withDefinitions_of_mended hmended
  obtain ⟨_, _, rfl⟩ := validate_ok_iff.mp h
  rw [defineFixes_filter, defineFixes_append,
    defineFixes_of_coded (fieldwise_coded v g) fieldCodes_not_definitional, ← hself,
    defineFixes_withDefinitions]
  rfl

/-- What a repair of a rule-set by its own findings leads to: fixes of single values, then the
definitions that the findings between rules ask for. -/
structure Cycled (v : Vocabulary) (limit : Number) (g : Game) (findings : List Finding)
    (result : Result) (fixes : List Amendment) : Prop where
  fixed : Fixed v limit 0 g (withDefinitions result.game g) fixes
  game : withDefinitions result.game (defined g) = result.game
  amendments : result.amendments = fixes ++ (defineFixes g (rulewiseFindings g)).2
  remaining : ∀ f, f ∈ result.remaining ↔ f ∈ findings ∧
    (∀ a ∈ result.amendments, f.label ≠ .listed a.code) ∧
      ∀ f' ∈ findings, f'.isOf .fullRegen = true → f.label ≠ f'.label
  brief : result.brief = none ↔ ∀ f ∈ findings, f.isOf .fullRegen = false

theorem applyFixes_run (settings : Settings) (h : validate v g = .ok findings) : ∃ fixed fixes,
    applyFixes settings g findings = .ok (withDefinitions fixed (defined g),
      fixes ++ (defineFixes g (rulewiseFindings g)).2) ∧
        Fixed v settings.maxAutoRepairs 0 g fixed fixes := by
  obtain ⟨fixed, fixes, hrun, hfixed⟩ :=
    autoFixes_run settings.maxAutoRepairs [] (filter_autoFixable h).symm
  refine ⟨fixed, fixes, ?_, hfixed⟩
  rw [applyFixes, hrun]
  dsimp only [bind, Except.bind, List.nil_append]
  rw [defineFixes_of_mended h hfixed.mended]
  rfl

theorem repair_run (settings : Settings) (context : Context) (h : validate v g = .ok findings) :
    ∃ result fixes, repair settings none context g findings = .ok result ∧
      Cycled v settings.maxAutoRepairs g findings result fixes := by
  have hlabel : ∀ f ∈ findings, ∃ c, f.label = .listed c := fun f hf => label_of_validate h hf
  obtain ⟨fixed, fixes, hrun, hfixed⟩ := applyFixes_run settings h
  rw [repair_eq hlabel, amend_none, hrun]
  refine ⟨_, fixes, rfl, ?_, rfl, rfl, fun f => mem_unsettled hlabel, briefOf_eq_none hlabel⟩
  rw [← withDefinitions_of_mended hfixed.mended] at hfixed
  exact hfixed

end TouchGame.Repair
