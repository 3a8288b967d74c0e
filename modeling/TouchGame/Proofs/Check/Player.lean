import Mathlib.Data.List.Perm.Subperm
import TouchGame.Proofs.Check.Opposition

/-!
# What is said about the player

Three checks ask what the player has to do with the outcomes of a game. That of automatic outcomes
counts any touch, collision or position as player input; that of the way to success counts collisions
and positions only of what the player drags; and both follow one counter or flag to the rules that
write it. Input of the second kind is input of the first kind, through such a step too. So where the
first check says that no success, or not even a loss by timers, takes the player, the other one says
it as well.

* `Rule.gatedByPlayer_any`, `Game.fedByPlayer_any`, `Game.ledByPlayer_any` : strict input is input.
* `Told` : the findings of a code name some rules, each by a finding of its own.
* `automatic_of_told` : rules that are all told to win by themselves do so.
* `rulewise_tells_of_player` : what the findings say about the player fits together.
-/

namespace TouchGame

open Check

/-! ## Strict input -/

namespace Rule

variable {input : Input} {r : Rule} {c : Condition}

theorem isInput_any (h : r.isInput input c = true) : r.isInput .any c = true := by
  cases c with
  | touch | collision | position => rfl
  | _ => exact h

theorem gatedByPlayer_any (h : r.gatedByPlayer input = true) : r.gatedByPlayer .any = true := by
  obtain ⟨c, hc, hinput⟩ := List.any_eq_true.mp h
  exact List.any_eq_true.mpr ⟨c, hc, isInput_any hinput⟩

theorem not_isAutomatic_of_isInput (h : r.isInput input c = true) : isAutomatic c = false := by
  cases c with
  | touch | collision | position => rfl
  | _ => cases h

end Rule

namespace Game

variable {g : Game} {input : Input} {r : Rule} {c : Condition}

theorem fedByPlayer_any (h : g.fedByPlayer input c = true) : g.fedByPlayer .any c = true := by
  obtain ⟨w, hw, hgated⟩ := List.any_eq_true.mp h
  exact List.any_eq_true.mpr ⟨w, hw, Rule.gatedByPlayer_any hgated⟩

theorem ledByPlayer_any (h : g.ledByPlayer input r = true) : g.ledByPlayer .any r = true := by
  rw [ledByPlayer, Bool.or_eq_true] at h ⊢
  refine h.imp Rule.gatedByPlayer_any fun hfed => ?_
  obtain ⟨c, hc, hfed⟩ := List.any_eq_true.mp hfed
  exact List.any_eq_true.mpr ⟨c, hc, fedByPlayer_any hfed⟩

/-- A rule fires by itself: all of its conditions do, and no player feeds them. -/
def firesAlone (g : Game) (r : Rule) : Bool :=
  r.conditions.all fun c => isAutomatic c && !g.fedByPlayer .any c

theorem not_firesAlone_of_led (h : g.ledByPlayer input r = true) : g.firesAlone r = false := by
  rw [firesAlone, List.all_eq_false]
  have hled := ledByPlayer_any h
  rw [ledByPlayer, Bool.or_eq_true] at hled
  rcases hled with hgated | hfed
  · obtain ⟨c, hc, hinput⟩ := List.any_eq_true.mp hgated
    exact ⟨c, hc, by simp [Rule.not_isAutomatic_of_isInput hinput]⟩
  · obtain ⟨c, hc, hfed⟩ := List.any_eq_true.mp hfed
    exact ⟨c, hc, by simp [hfed]⟩

end Game

/-! ## Findings that name rules -/

/-- The findings of a code name some rules, each of them by a finding of its own: an id that two of
the rules share is named twice. -/
def Told (code : Code) (rules : List Rule) (findings : List Finding) : Prop :=
  (rules.map fun r => some r.id).Subperm ((findings.filterMap (Finding.naming? code)).map (·.1))

theorem told_iff_of_nodup {code : Code} {rules : List Rule} {findings : List Finding}
    (hdistinct : (rules.map (·.id)).Nodup) : Told code rules findings ↔
      ∀ r ∈ rules, ∃ f ∈ findings, f.label = .listed code ∧ f.location.rule = some r.id := by
  have hnames (id : String) : some id ∈ (findings.filterMap (Finding.naming? code)).map (·.1) ↔
      ∃ f ∈ findings, f.label = .listed code ∧ f.location.rule = some id := by
    simp [Finding.naming?]
  simp only [← hnames]
  constructor
  · exact fun h r hr => h.subset (List.mem_map_of_mem hr)
  · intro h
    have hids : (rules.map fun r => some r.id).Nodup := by
      have heach := hdistinct.map (f := some) fun _ _ => Option.some.inj
      rwa [List.map_map] at heach
    refine List.subperm_of_subset hids fun name hname => ?_
    obtain ⟨r, hr, rfl⟩ := List.mem_map.mp hname
    exact h r hr

section Automatic

variable {g : Game} {code : Code} {rules : List Rule} {findings : List Finding}

def automaticCodes : List Code := [.autoSuccess, .autoFailure]

theorem naming_rulewise_automatic (h : code ∈ automaticCodes) (g : Game) :
    (rulewiseFindings g).filterMap (Finding.naming? code) =
      (automaticOutcomes g).filterMap (Finding.naming? code) := by
  have hothers : ∀ c ∈ automaticCodes, c ∉ plainCodes ∧ c ∉ plainCodes ++ oppositionCodes ∧
      c ∉ referenceCodes ∧ c ∉ counterCodes := by
    decide
  obtain ⟨hplain, hconflicts, hreferences, hcounters⟩ := hothers code h
  rw [rulewiseFindings]
  simp only [List.filterMap_append, naming_coded (references_coded g) hreferences,
    naming_coded (outcomesExist_plain g) hplain, naming_coded (instantOutcomes_plain g) hplain,
    naming_coded (playerAction_plain g) hplain, naming_coded (conflicts_plain g) hconflicts,
    naming_coded (counterUses_coded g) hcounters,
    naming_coded (successReachability_plain g) hplain, List.nil_append, List.append_nil]

theorem naming_automaticSuccess (rules : List Rule) :
    (rules.flatMap (automaticSuccess g)).filterMap (Finding.naming? .autoSuccess) =
      (rules.filter g.firesAlone).map fun r => (some r.id, none) := by
  induction rules with
  | nil => rfl
  | cons r rest ih =>
    rw [List.flatMap_cons, List.filterMap_append, ih, List.filter_cons, automaticSuccess]
    cases hfires : g.firesAlone r with
    | true =>
      rw [Game.firesAlone] at hfires
      rw [if_pos hfires]
      rfl
    | false =>
      rw [Game.firesAlone] at hfires
      rw [if_neg (Bool.eq_false_iff.mp hfires)]
      rfl

/-- The rules that are told to win by themselves: all that do and have conditions, unless the player
can lose. -/
theorem naming_autoSuccess (g : Game) :
    (automaticOutcomes g).filterMap (Finding.naming? .autoSuccess) =
      if (g.rulesThatMay "failure").any (·.gatedByPlayer .any) then []
      else ((gated (g.rulesThatMay "success")).filter g.firesAlone).map
        fun r => (some r.id, none) := by
  have hlosing (rules : List Rule) :
      (rules.flatMap automaticFailure).filterMap (Finding.naming? .autoSuccess) = [] :=
    naming_coded (coded_flatMap fun r _ => automaticFailure_coded r) (by decide)
  simp only [automaticOutcomes, automaticFailures, List.filterMap_append, apply_ite (List.filterMap _), hlosing,
    naming_automaticSuccess, List.filterMap_nil, ite_self, List.append_nil]

theorem naming_autoFailure_of_led (h : (g.rulesThatMay "success").any (g.ledByPlayer .any) = true) :
    (automaticOutcomes g).filterMap (Finding.naming? .autoFailure) = [] := by
  have hwinning (rules : List Rule) :
      (rules.flatMap (automaticSuccess g)).filterMap (Finding.naming? .autoFailure) = [] :=
    naming_coded (coded_flatMap fun r _ => automaticSuccess_coded g r) (by decide)
  simp only [automaticOutcomes, automaticFailures, apply_ite (List.filterMap _), hwinning, h, if_true,
    List.filterMap_nil, ite_self, List.append_nil]

/-- **Rules that win and are all told to do so by themselves do so.** -/
theorem firesAlone_of_told (hwin : g.rulesThatMay "success" ≠ [])
    (h : Told .autoSuccess (g.rulesThatMay "success") (rulewiseFindings g)) :
    ∀ r ∈ g.rulesThatMay "success", g.firesAlone r = true := by
  have hmany := h.length_le
  rw [List.length_map, List.length_map, naming_rulewise_automatic (by decide),
    naming_autoSuccess] at hmany
  split at hmany
  · exact absurd (List.length_eq_zero_iff.mp (Nat.le_zero.mp hmany)) hwin
  · -- as many are told as there are, so none of them is left out
    rw [List.length_map] at hmany
    have hall := (List.filter_sublist.trans List.filter_sublist).eq_of_length_le hmany
    intro r hr
    rw [← hall] at hr
    exact (List.mem_filter.mp hr).2

end Automatic

theorem noSuccess_reported {g : Game} (h : g.rulesThatMay "success" = []) :
    ∃ f ∈ rulewiseFindings g, f.label = .listed .noSuccess := by
  obtain ⟨f, hf, hlabel⟩ : ∃ f ∈ outcomesExist g, f.label = .listed .noSuccess := by
    rw [outcomesExist, h]
    exact ⟨_, List.mem_cons_self, rfl⟩
  exact ⟨f, by simp [rulewiseFindings, hf], hlabel⟩

theorem noPlayerAction_reported {g : Game} (hwin : g.rulesThatMay "success" ≠ [])
    (hled : ∀ r ∈ g.rulesThatMay "success", g.ledByPlayer (.dragOnly g.dragged) r = false) :
    ∃ f ∈ rulewiseFindings g, f.label = .listed .noPlayerAction := by
  have hnone : (g.rulesThatMay "success").any (g.ledByPlayer (.dragOnly g.dragged)) = false :=
    List.any_eq_false.mpr fun r hr => Bool.eq_false_iff.mp (hled r hr)
  obtain ⟨f, hf, hlabel⟩ : ∃ f ∈ playerAction g, f.label = .listed .noPlayerAction := by
    obtain ⟨first, rest, hrules⟩ := List.exists_cons_of_ne_nil hwin
    rw [hrules] at hnone
    simp only [playerAction, checkPlayerAction, hrules, hnone]
    exact ⟨_, List.mem_cons_self, rfl⟩
  exact ⟨f, by simp [rulewiseFindings, hf], hlabel⟩

/-- **What is said about the player fits together.** If every rule that may win is told to win without
the player, then no player action leads to success; and if some rule is told to lose by timers alone,
then no player action leads to success, or nothing does. -/
theorem rulewise_tells_of_player {g : Game} {findings : List Finding} (h : rulewise g = .ok findings) :
    (g.rulesThatMay "success" ≠ [] → Told .autoSuccess (g.rulesThatMay "success") findings →
        ∃ f ∈ findings, f.label = .listed .noPlayerAction) ∧
      ((∃ f ∈ findings, f.label = .listed .autoFailure) →
        ∃ f ∈ findings, f.label = .listed .noPlayerAction ∨ f.label = .listed .noSuccess) := by
  obtain ⟨_, rfl⟩ := rulewise_ok_iff.mp h
  constructor
  · intro hwin htold
    refine noPlayerAction_reported hwin fun r hr => Bool.eq_false_iff.mpr fun hled => ?_
    have halone := firesAlone_of_told hwin htold r hr
    rw [Game.not_firesAlone_of_led hled] at halone
    cases halone
  · rintro ⟨f, hf, hlabel⟩
    have hled : (g.rulesThatMay "success").any (g.ledByPlayer .any) = false := by
      rw [Bool.eq_false_iff]
      intro hled
      have hnone : (rulewiseFindings g).filterMap (Finding.naming? .autoFailure) =
          (automaticOutcomes g).filterMap (Finding.naming? .autoFailure) :=
        naming_rulewise_automatic (by decide) g
      rw [naming_autoFailure_of_led hled, List.filterMap_eq_nil_iff] at hnone
      exact absurd (hnone f hf) (by simp [Finding.naming?, hlabel])
    by_cases hwin : g.rulesThatMay "success" = []
    · obtain ⟨f, hf, hlabel⟩ := noSuccess_reported hwin
      exact ⟨f, hf, .inr hlabel⟩
    · obtain ⟨f, hf, hlabel⟩ := noPlayerAction_reported hwin fun r hr =>
        Bool.eq_false_iff.mpr fun hstrict =>
          List.any_eq_false.mp hled r hr (Game.ledByPlayer_any hstrict)
      exact ⟨f, hf, .inl hlabel⟩

/-- A race against the clock in which nobody runs: dawn wins it, dusk ends it, and a lantern that the
player may light changes neither. -/
def idleRace : Game where
  layout := [⟨"lantern", ⟨.thousandths 500, .thousandths 500⟩, .empty⟩]
  counters := [⟨"hours", .empty, 0⟩]
  rules := [
    ⟨"light", .empty, .value "lantern", .value ⟨"AND", [.touch .empty (.value "down")]⟩,
      [.setFlag (.value "lit") (.value true)]⟩,
    ⟨"pass", .empty, .empty, .value ⟨"AND", [.time (.value "interval") .none (some 1)]⟩,
      [.counter (.value "hours") (.value "increment") none]⟩,
    ⟨"dawn", .empty, .empty,
      .value ⟨"AND", [.counter (.value "hours") (.value "greaterOrEqual") (some 8)]⟩,
      [.success none .empty]⟩,
    ⟨"luck", .empty, .empty, .value ⟨"AND", [.time (.value "exact") (some 9) none]⟩,
      [.choice [⟨.success none .empty, none, none⟩, ⟨.pause none, none, none⟩] .empty .empty]⟩,
    ⟨"dusk", .empty, .empty, .value ⟨"AND", [.time (.value "exact") (some 12) none]⟩,
      [.failure none .empty]⟩]
  objects := [⟨"lantern", .empty, .empty, .empty, .empty, .empty⟩]
  sounds := []
  music := .empty

theorem rulewise_tells_of_player_idleRace :
    rulewise idleRace = .ok (rulewiseFindings idleRace) ∧
      (idleRace.rulesThatMay "success").map (·.id) = ["dawn", "luck"] ∧
      Told .autoSuccess (idleRace.rulesThatMay "success") (rulewiseFindings idleRace) ∧
      (∃ f ∈ rulewiseFindings idleRace, f.label = .listed .noPlayerAction) ∧
      (∃ f ∈ rulewiseFindings idleRace, f.label = .listed .autoFailure) ∧
      ∃ f ∈ rulewiseFindings idleRace,
        f.label = .listed .noPlayerAction ∨ f.label = .listed .noSuccess := by
  have hfindings : rulewise idleRace = .ok (rulewiseFindings idleRace) :=
    rulewise_ok_iff.mpr ⟨by decide +kernel, rfl⟩
  have hids : (idleRace.rulesThatMay "success").map (·.id) = ["dawn", "luck"] := by decide +kernel
  have hwin : idleRace.rulesThatMay "success" ≠ [] := fun hnone => by simp [hnone] at hids
  have htold : Told .autoSuccess (idleRace.rulesThatMay "success") (rulewiseFindings idleRace) :=
    (told_iff_of_nodup (by rw [hids]; decide)).mpr (by decide +kernel)
  have hlosing : ∃ f ∈ rulewiseFindings idleRace, f.label = .listed .autoFailure := by decide +kernel
  obtain ⟨hwinning, hlost⟩ := rulewise_tells_of_player hfindings
  exact ⟨hfindings, hids, htold, hwinning hwin htold, hlosing, hlost hlosing⟩

end TouchGame
