import TouchGame.Proofs.Check.Codes
import TouchGame.Proofs.Results
import TouchGame.Repair.Cycle

/-!
# Fixes that fail

A fix of a single value leaves its rule-set alone where its path leads nowhere, but not always. It fails
on an index of a rule too far below zero if its finding names a rule, and on a place that can be seen
and not be changed, such as a component of a number, once its code asks for another number there.

* `Asks` : a code asks for another number at a place.
* `Stumbles`, `autoFix_fails_iff` : when a fix fails.
* `autoFixes_append`, `autoFixes_returns_iff` : when a list of fixes does.
-/

namespace TouchGame.Repair

variable {g : Game} {f : Finding} {fault : Fault}

/-- Whether a code asks for another number at a place with a number or without one. -/
inductive Asks (c : Code) : Option Number → Prop
  | fill {description : String} {value : Number} (fills : filling? c = some (description, value)) :
      Asks c none
  | correct {description : String} {corrected : Number → Number} {n : Number}
      (corrects : correction? c = some (description, corrected))
      (wrong : (corrected n).eq n = false) : Asks c (some n)

/-- What a fix of a finding fails on: an index of a rule too far below zero, where the finding names a
rule, or a place that takes no other number, where its code asks for one. -/
inductive Stumbles (g : Game) (f : Finding) : Fault → Prop
  | beforeRules {id : String} {i : Int} {rest : Path} (names : f.location.rule = some id)
      (path : f.location.path = .name "script" :: .name "rules" :: .index i :: rest)
      (far : i < -g.rules.length) : Stumbles g f .indexOutOfRange
  | sealed {c : Code} {current : Option Number} {refusal : Fault} (label : f.label = .listed c)
      (leads : leadsToRule g f.location = .ok true)
      (place : g.place? f.location.path = some (.fixed current refusal)) (asks : Asks c current) :
      Stumbles g f refusal

/-! ## Steps of a fix -/

theorem position?_eq_none {length : Nat} {i : Int} (h : i < length) :
    position? length i = none ↔ i < -length := by
  unfold position?
  split
  · split
    · simp only [reduceCtorEq, false_iff]
      omega
    · omega
  · split
    · simp only [reduceCtorEq, false_iff]
      omega
    · simp only [true_iff]
      omega

/-- Whether a path leads to the rule of its finding cannot be told if it counts back too far. -/
theorem leadsToRule_fails_iff {l : Location} : leadsToRule g l = .error fault ↔
    fault = .indexOutOfRange ∧ ∃ id i rest, l.rule = some id ∧
      l.path = .name "script" :: .name "rules" :: .index i :: rest ∧ i < -g.rules.length := by
  constructor
  · intro h
    unfold leadsToRule at h
    split at h
    · rename_i id i rest hrule hpath
      split at h
      · cases h
      · rename_i hlength
        split at h
        · cases h
        · rename_i hnone
          cases h
          exact ⟨rfl, id, i, rest, hrule, hpath, (position?_eq_none (by omega)).mp hnone⟩
    · cases h
    · cases h
  · rintro ⟨rfl, id, i, rest, hrule, hpath, hfar⟩
    have hlength : ¬ (g.rules.length : Int) ≤ i := by omega
    have hnone := (position?_eq_none (Int.lt_of_not_ge hlength)).mpr hfar
    simp only [leadsToRule, hrule, hpath, if_neg hlength, hnone]

theorem fill?_fails_iff {description : String} {value : Number} {place : Place Game} :
    fill? description value place = .error fault ↔ place = .fixed none fault := by
  constructor
  · intro h
    unfold fill? at h
    split at h
    · cases h
    · cases h
      rfl
    · cases h
  · rintro rfl
    rfl

theorem correct?_fails_iff {description : String} {corrected : Number → Number}
    {place : Place Game} : correct? description corrected place = .error fault ↔
      ∃ n, place = .fixed (some n) fault ∧ (corrected n).eq n = false := by
  constructor
  · intro h
    unfold correct? at h
    split at h
    · cases h
    · rename_i n refusal
      split at h
      · cases h
      · rename_i hwrong
        cases h
        exact ⟨n, rfl, Bool.eq_false_iff.mpr hwrong⟩
    · cases h
  · rintro ⟨n, rfl, hwrong⟩
    simp only [correct?, hwrong, Bool.false_eq_true, if_false]

theorem filling?_of_correction? {c : Code} {correction : String × (Number → Number)}
    (h : correction? c = some correction) : filling? c = none := by
  cases c <;> first | rfl | cases h

theorem change?_fails_iff {c : Code} {place : Place Game} : change? c place = .error fault ↔
    ∃ current, place = .fixed current fault ∧ Asks c current := by
  constructor
  · intro h
    unfold change? at h
    split at h
    · rename_i hfills
      exact ⟨none, fill?_fails_iff.mp h, .fill hfills⟩
    · rename_i description corrected _ hcorrects
      obtain ⟨n, hplace, hwrong⟩ := correct?_fails_iff.mp h
      exact ⟨some n, hplace, .correct hcorrects hwrong⟩
    · cases h
  · rintro ⟨current, rfl, hfills | ⟨hcorrects, hwrong⟩⟩
    · rw [change?, hfills]
      exact fill?_fails_iff.mpr rfl
    · rw [change?, filling?_of_correction? hcorrects, hcorrects]
      exact correct?_fails_iff.mpr ⟨_, rfl, hwrong⟩

def recordOf (f : Finding) (c : Code) (change : Change) : Amendment :=
  ⟨c, change.description, f.location.path.text, change.before, .num change.after⟩

theorem change?_other (c : Code) : change? c .other = .ok none := by
  unfold change?
  split <;> rfl

/-- Where a path leads to a place, and to the rule of its finding, a fix is a change of that place. -/
theorem autoFix_of_place {c : Code} {place : Place Game} (hlabel : f.label = .listed c)
    (hleads : leadsToRule g f.location = .ok true) (hplace : g.place? f.location.path = some place) :
    autoFix g f =
      (change? c place).map (Option.map fun change => (change.game, recordOf f c change)) := by
  have hcode : f.label.code? = some c := by
    rw [hlabel]
    rfl
  unfold autoFix
  dsimp only
  split
  · -- The empty path leads to the rule-set itself, which is no number.
    rename_i hempty
    rw [List.isEmpty_iff] at hempty
    have hother : g.place? f.location.path = some .other := by
      rw [hempty]
      rfl
    rw [hplace, Option.some.injEq] at hother
    rw [hother, change?_other]
    rfl
  · simp only [hleads, hplace, hcode, bind, Except.bind]
    cases change? c place <;> rfl

theorem autoFix_of_lost (hleads : leadsToRule g f.location = .error fault) :
    autoFix g f = .error fault := by
  obtain ⟨_, _, _, _, _, hpath, _⟩ := leadsToRule_fails_iff.mp hleads
  unfold autoFix
  dsimp only
  rw [if_neg (by simp [hpath]), hleads]
  rfl

theorem autoFix_of_nothing {leads : Bool} (hleads : leadsToRule g f.location = .ok leads)
    (h : leads = false ∨ g.place? f.location.path = none ∨ f.label.code? = none) :
    autoFix g f = .ok none := by
  unfold autoFix
  dsimp only
  split
  · rfl
  · simp only [hleads, bind, Except.bind]
    split
    · rename_i hplace hcode
      rw [hplace, hcode] at h
      simp at h
    · rfl

/-- A fix fails where the rule of its finding cannot be told; it is a change of the place that its path
leads to; or there is nothing that it could change. -/
theorem autoFix_cases (g : Game) (f : Finding) :
    (∃ fault, leadsToRule g f.location = .error fault) ∨
      (∃ c place, f.label = .listed c ∧ leadsToRule g f.location = .ok true ∧
        g.place? f.location.path = some place) ∨
      autoFix g f = .ok none := by
  cases hleads : leadsToRule g f.location with
  | error cause => exact .inl ⟨cause, rfl⟩
  | ok leads =>
    refine .inr ?_
    by_cases hnothing : leads = false ∨ g.place? f.location.path = none ∨ f.label.code? = none
    · exact .inr (autoFix_of_nothing hleads hnothing)
    · simp only [not_or, Bool.not_eq_false] at hnothing
      obtain ⟨rfl, hplace, hcode⟩ := hnothing
      obtain ⟨place, hplace⟩ := Option.ne_none_iff_exists'.mp hplace
      obtain ⟨c, hc⟩ := Option.ne_none_iff_exists'.mp hcode
      exact .inl ⟨c, place, Check.code?_eq_some.mp hc, rfl, hplace⟩

/-- **When a fix fails.** -/
theorem autoFix_fails_iff : autoFix g f = .error fault ↔ Stumbles g f fault := by
  constructor
  · intro h
    rcases autoFix_cases g f with ⟨cause, hleads⟩ | ⟨c, place, hlabel, hleads, hplace⟩ | hnone
    · rw [autoFix_of_lost hleads] at h
      cases h
      obtain ⟨rfl, id, i, rest, hrule, hpath, hfar⟩ := leadsToRule_fails_iff.mp hleads
      exact .beforeRules hrule hpath hfar
    · rw [autoFix_of_place hlabel hleads hplace, map_error_iff] at h
      obtain ⟨current, rfl, hasks⟩ := change?_fails_iff.mp h
      exact .sealed hlabel hleads hplace hasks
    · rw [hnone] at h
      cases h
  · rintro (⟨hrule, hpath, hfar⟩ | ⟨hlabel, hleads, hplace, hasks⟩)
    · exact autoFix_of_lost (leadsToRule_fails_iff.mpr ⟨rfl, _, _, _, hrule, hpath, hfar⟩)
    · rw [autoFix_of_place hlabel hleads hplace, change?_fails_iff.mpr ⟨_, rfl, hasks⟩]
      rfl

theorem autoFix_returns_iff : (∃ fix, autoFix g f = .ok fix) ↔ ∀ fault, ¬ Stumbles g f fault := by
  simp only [← autoFix_fails_iff]
  cases autoFix g f with
  | error fault => simp
  | ok fix => simp

/-! ## Lists of fixes -/

section Lists

variable {limit : Number} {made : List Amendment} {findings : List Finding}

theorem autoFixes_of_full (h : limit.le (.int made.length) = true) :
    autoFixes limit g made findings = .ok (g, made) := by
  cases findings with
  | nil => rfl
  | cons f rest => rw [autoFixes, if_pos h]

theorem autoFixes_of_nothing (hroom : limit.le (.int made.length) = false)
    (h : autoFix g f = .ok none) :
    autoFixes limit g made (f :: findings) = autoFixes limit g made findings := by
  rw [autoFixes, if_neg (by simp [hroom]), h]
  rfl

theorem autoFixes_of_fix {next : Game × Amendment} (hroom : limit.le (.int made.length) = false)
    (h : autoFix g f = .ok (some next)) :
    autoFixes limit g made (f :: findings) = autoFixes limit next.1 (made ++ [next.2]) findings := by
  rw [autoFixes, if_neg (by simp [hroom]), h]
  rfl

theorem autoFixes_append (limit : Number) (g : Game) (made : List Amendment) (xs ys : List Finding) :
    autoFixes limit g made (xs ++ ys) =
      (autoFixes limit g made xs >>= fun (k, fixes) => autoFixes limit k fixes ys) := by
  induction xs generalizing g made with
  | nil => rfl
  | cons f rest ih =>
    by_cases hfull : limit.le (.int made.length) = true
    · rw [autoFixes_of_full hfull, autoFixes_of_full hfull]
      exact (autoFixes_of_full hfull).symm
    · rw [List.cons_append, autoFixes, if_neg hfull, autoFixes, if_neg hfull]
      cases autoFix g f with
      | error fault => rfl
      | ok fix =>
        cases fix with
        | none => exact ih g made
        | some next => exact ih next.1 (made ++ [next.2])

/-- A list of fixes gives a result exactly if none of them stumbles when its turn comes. -/
theorem autoFixes_returns_iff : (∃ result, autoFixes limit g made findings = .ok result) ↔
    ∀ before f after, findings = before ++ f :: after →
      ∀ k fixes, autoFixes limit g made before = .ok (k, fixes) →
        limit.le (.int fixes.length) = false → ∀ fault, ¬ Stumbles k f fault := by
  constructor
  · rintro ⟨result, hresult⟩ before f after rfl k fixes hbefore hroom fault hstumbles
    rw [autoFixes_append, hbefore] at hresult
    change autoFixes limit k fixes (f :: after) = .ok result at hresult
    rw [autoFixes, if_neg (by simp [hroom]), autoFix_fails_iff.mpr hstumbles] at hresult
    cases hresult
  · intro h
    induction findings generalizing g made with
    | nil => exact ⟨_, rfl⟩
    | cons f rest ih =>
      by_cases hfull : limit.le (.int made.length) = true
      · exact ⟨_, autoFixes_of_full hfull⟩
      · -- The first fix does not stumble, and what is said of the whole list goes for the rest.
        have hroom := Bool.eq_false_iff.mpr hfull
        obtain ⟨fix, hfix⟩ := autoFix_returns_iff.mpr (h [] f rest rfl g made rfl hroom)
        cases fix with
        | none =>
          rw [autoFixes_of_nothing hroom hfix]
          refine ih fun before f' after hsplit k fixes hbefore => ?_
          exact h (f :: before) f' after (by rw [hsplit]; rfl) k fixes
            (by rw [autoFixes_of_nothing hroom hfix, hbefore])
        | some next =>
          rw [autoFixes_of_fix hroom hfix]
          refine ih fun before f' after hsplit k fixes hbefore => ?_
          exact h (f :: before) f' after (by rw [hsplit]; rfl) k fixes
            (by rw [autoFixes_of_fix hroom hfix, hbefore])

end Lists

end TouchGame.Repair
