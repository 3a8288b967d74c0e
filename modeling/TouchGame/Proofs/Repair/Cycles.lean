import TouchGame.Proofs.Repair.Repaired

/-!
# Repair cycles settle

A cycle repairs a rule-set by its own findings. Each cycle mends as many numbers as the limit allows
and settles the definitions, so after enough cycles for all findings that can be fixed in place, the
rule-set is a fixed point: the next cycle changes nothing. The fixed point is the rule-set with all
numbers mended and its definitions settled, whatever the limit.

* `cycles` : some repair cycles of a rule-set.
* `cycle_step` : what one cycle does; `cycles_run` : what some of them do.
* `cycles_settle` : the number of cycles that is enough, and the fixed point.
-/

namespace TouchGame.Repair

open Check Mending

variable {v : Vocabulary} {g r : Game} {findings : List Finding} {settings : Settings}
  {context : Context} {k : Nat}

/-- Some repair cycles of a rule-set, each by the findings of the rule-set behind those before it. -/
def cycles (settings : Settings) (context : Context) (v : Vocabulary) : Nat → Game → Except Fault Game
  | 0, g => .ok g
  | n + 1, g => do
    let findings ← validate v g
    let result ← repair settings none context g findings
    cycles settings context v n result.game

/-! ## One cycle -/

theorem Fixed.left_of_limit {fixed : Game} {fixes : List Amendment}
    (h : Fixed v (.int k) 0 g fixed fixes) : autoFindings v fixed = (autoFindings v g).drop k := by
  have hle : fixes.length ≤ k := by
    refine Nat.le_of_not_lt fun hlt => ?_
    have hallowed := h.allowed k hlt
    simp [Number.le_int] at hallowed
  rw [h.left]
  rcases h.stops with hnone | hlimit
  · rw [h.left, List.drop_eq_nil_iff] at hnone
    rw [List.drop_eq_nil_of_le hnone, List.drop_eq_nil_of_le (by omega)]
  · rw [Number.le_int, decide_eq_true_eq] at hlimit
    rw [show fixes.length = k by omega]

theorem cycles_succ {result : Result} (n : Nat) (h : validate v g = .ok findings)
    (hresult : repair settings none context g findings = .ok result) :
    cycles settings context v (n + 1) g = cycles settings context v n result.game := by
  rw [cycles, h]
  simp only [bind, Except.bind, hresult]

theorem cycle_step (context : Context) (hk : settings.maxAutoRepairs = .int k)
    (h : validate v g = .ok findings) :
    ∃ r, (∀ n, cycles settings context v (n + 1) g = cycles settings context v n r) ∧
      Repaired v g r ∧ autoFindings v r = (autoFindings v g).drop k := by
  obtain ⟨result, fixes, hresult, hcycled⟩ := repair_run settings context h
  refine ⟨result.game, fun n => cycles_succ n h hresult, hcycled.repaired, ?_⟩
  have hfixed := hcycled.fixed
  rw [hk] at hfixed
  exact hfixed.left_of_limit

theorem cycles_run (context : Context) (hg : g.NamesAreTexts) (hk : settings.maxAutoRepairs = .int k)
    (h : validate v g = .ok findings) (n : Nat) :
    ∃ r, cycles settings context v (n + 1) g = .ok r ∧ Repaired v g r ∧
      autoFindings v r = (autoFindings v g).drop ((n + 1) * k) := by
  induction n generalizing g findings with
  | zero =>
    obtain ⟨r, hcycle, hrepaired, hleft⟩ := cycle_step context hk h
    exact ⟨r, hcycle 0, hrepaired, by rw [hleft, Nat.zero_add, Nat.one_mul]⟩
  | succ n ih =>
    -- Behind the first cycle the rule-set is repaired: its check can be made, and its definitions stay.
    obtain ⟨mid, hcycle, hmid, hleft⟩ := cycle_step context hk h
    obtain ⟨r, hrun, hrepaired, hrest⟩ := ih (hmid.namesAreTexts.mpr hg) (hmid.validate hg h)
    refine ⟨r, by rw [hcycle, hrun], hmid.trans hg hrepaired, ?_⟩
    rw [hrest, hleft, List.drop_drop]
    congr 1
    rw [Nat.succ_mul (n + 1), Nat.add_comm]

/-! ## The fixed point -/

/-- A rule-set with all numbers mended and its definitions settled. -/
def settledGame (v : Vocabulary) (g : Game) : Game :=
  withDefinitions (mendGame v g) (defined g)

theorem Repaired.eq_settledGame (h : Repaired v g r) (hleft : autoFindings v r = []) :
    r = settledGame v g := by
  have hfixable : fixable (fieldwise v r) = false := by
    rw [autoFindings, List.filter_eq_nil_iff] at hleft
    rw [fixable, List.any_eq_false]
    exact hleft
  rw [← mendGame_of_settled hfixable]
  exact h

theorem Repaired.repair_nothing (h : Repaired v g r) (hg : g.NamesAreTexts)
    (hleft : autoFindings v r = []) (hr : Check.validate v r = .ok findings) (settings : Settings)
    (context : Context) : ∃ result, repair settings none context r findings = .ok result ∧
      result.amendments = [] ∧ result.game = r := by
  obtain ⟨result, fixes, hresult, hcycled⟩ := repair_run settings context hr
  have hfixes : fixes = [] := by
    have hcodes := hcycled.fixed.codes
    rw [hleft, List.take_nil, List.map_nil, List.map_eq_nil_iff] at hcodes
    exact hcodes
  refine ⟨result, hresult, by rw [hcycled.amendments, hfixes, h.settled hg]; rfl, ?_⟩
  have hnone : autoFindings v result.game = [] := by
    have hfixed := hcycled.fixed.left
    rw [hleft, List.drop_nil] at hfixed
    exact hfixed
  rw [(h.trans hg hcycled.repaired).eq_settledGame hnone, ← h.eq_settledGame hleft]

theorem le_cycles_mul (n : Nat) (hk : 1 ≤ k) : n ≤ max 1 ((n + k - 1) / k) * k := by
  have hdivision := Nat.div_add_mod (n + k - 1) k
  have hmod := Nat.mod_lt (n + k - 1) (show 0 < k by omega)
  calc n ≤ k * ((n + k - 1) / k) := by omega
    _ = (n + k - 1) / k * k := Nat.mul_comm ..
    _ ≤ max 1 ((n + k - 1) / k) * k := Nat.mul_le_mul_right k (Nat.le_max_right ..)

/-- **Repair cycles settle.** After as many cycles as are needed for all findings that can be fixed in
place, at least one, a rule-set is a fixed point: one more repair makes no change. The fixed point is
the same for every limit. Names have to be texts, as they are in every rule-set that loads. -/
theorem cycles_settle (hg : g.NamesAreTexts) (h : validate v g = .ok findings) :
    ∃ fixed, ∀ (settings : Settings) (context : Context) (k : Nat),
      settings.maxAutoRepairs = .int k → 1 ≤ k →
        cycles settings context v
          (max 1 (((findings.filter (·.isOf .autoFixable)).length + k - 1) / k)) g = .ok fixed ∧
        ∃ left result, validate v fixed = .ok left ∧
          repair settings none context fixed left = .ok result ∧
            result.amendments = [] ∧ result.game = fixed := by
  refine ⟨settledGame v g, fun settings context k hk hpos => ?_⟩
  rw [filter_autoFixable h]
  obtain ⟨n, hn⟩ : ∃ n, max 1 (((autoFindings v g).length + k - 1) / k) = n + 1 :=
    ⟨max 1 (((autoFindings v g).length + k - 1) / k) - 1, by omega⟩
  obtain ⟨r, hrun, hrepaired, hleft⟩ := cycles_run context hg hk h n
  have hnone : autoFindings v r = [] := by
    have henough := le_cycles_mul (autoFindings v g).length hpos
    rw [hn] at henough
    rw [hleft, List.drop_eq_nil_of_le henough]
  have hr := hrepaired.validate hg h
  rw [← hrepaired.eq_settledGame hnone, hn]
  exact ⟨hrun, _, (hrepaired.repair_nothing hg hnone hr settings context).elim fun result hresult =>
    ⟨result, hr, hresult⟩⟩

/-- A game with a star outside the screen, and with a score that nothing defines. -/
def crooked : Game where
  layout := [⟨"star", ⟨2, 2⟩, .empty⟩]
  counters := []
  rules := [⟨"tap", .empty, .value "star", .value ⟨"AND", [.touch .empty (.value "down")]⟩,
    [.counter (.value "score") (.value "increment") none]⟩]
  objects := [⟨"star", .empty, .empty, .empty, .empty, .empty⟩]
  sounds := []
  music := .empty

theorem namesAreTexts_crooked : crooked.NamesAreTexts := by
  intro r hr
  rw [crooked, List.mem_singleton] at hr
  subst hr
  constructor
  · intro c hc name hname
    have htouch : c = .touch .empty (.value "down") := List.mem_singleton.mp hc
    subst htouch
    cases hname
  · intro a ha name hname
    have hscore : a = .counter (.value "score") (.value "increment") none := List.mem_singleton.mp ha
    subst hscore
    rcases hname with hname | hname
    · cases hname
      rfl
    · cases hname
  · intro a ha name hname
    have hscore : a = .counter (.value "score") (.value "increment") none := List.mem_singleton.mp ha
    subst hscore
    cases hname

theorem cycles_settle_crooked : crooked.NamesAreTexts ∧ ∃ findings fixed,
    validate .editor crooked = .ok findings ∧
      (findings.filter (·.isOf .autoFixable)).length = 2 ∧
        cycles { Settings.standard with maxAutoRepairs := 1 } .empty .editor 2 crooked = .ok fixed ∧
          cycles .standard .empty .editor 1 crooked = .ok fixed ∧
            ∃ left result, validate .editor fixed = .ok left ∧
              repair .standard none .empty fixed left = .ok result ∧
                result.amendments = [] ∧ result.game = fixed := by
  have hcount : (validate .editor crooked).toOption.map
      (fun findings => (findings.filter (·.isOf .autoFixable)).length) = some 2 := by
    decide +kernel
  obtain ⟨findings, h, hlength⟩ := Option.map_eq_some_iff.mp hcount
  rw [toOption_some_iff] at h
  obtain ⟨fixed, hfixed⟩ := cycles_settle namesAreTexts_crooked h
  rw [hlength] at hfixed
  obtain ⟨hone, _⟩ := hfixed { Settings.standard with maxAutoRepairs := 1 } .empty 1 rfl (by decide)
  obtain ⟨hten, hstill⟩ := hfixed .standard .empty 10 rfl (by decide)
  exact ⟨namesAreTexts_crooked, findings, fixed, h, hlength, hone, hten, hstill⟩

end TouchGame.Repair
