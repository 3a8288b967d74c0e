import TouchGame.Proofs.Repair.Fixes

/-!
# Repaired rule-sets

A repaired rule-set is the one before with some numbers mended and with the definitions that its
findings ask for. Whatever sees neither numbers nor definitions is the same in both, so its checks can
be made again; and nothing is left that a fix of definitions would change.

* `Repaired`, `Cycled.repaired` : one repair gives a repaired rule-set.
* `Repaired.same` : what stays the same.
* `Repaired.references_defined` : all counters and sounds that rules name are there.
* `Repaired.settled`, `Repaired.trans` : definitions settle in one repair.
-/

namespace TouchGame.Repair

open Check Mending

variable {v : Vocabulary} {g r : Game} {f : Finding}

/-- A rule-set whose numbers are somewhere on the way to the mended ones, with the definitions that
the findings of another one ask for. -/
def Repaired (v : Vocabulary) (g r : Game) : Prop :=
  mendGame v r = withDefinitions (mendGame v g) (defined g)

theorem Cycled.repaired {limit : Number} {findings : List Finding} {result : Result}
    {fixes : List Amendment} (h : Cycled v limit g findings result fixes) :
    Repaired v g result.game := by
  have hmended : mendGame v (withDefinitions result.game g) = mendGame v g := h.fixed.mended
  rw [Repaired, ← hmended, ← h.game]
  rfl

namespace Repaired

theorem same {β : Type} (see : Game → β) (h : Repaired v g r)
    (hmend : ∀ k, see (mendGame v k) = see k) (hdefine : ∀ k d, see (withDefinitions k d) = see k) :
    see r = see g := by
  rw [← hmend r, h, hdefine, hmend]

theorem counters (h : Repaired v g r) : r.counters = (defined g).counters := by
  have hcounters : (mendGame v r).counters = (withDefinitions (mendGame v g) (defined g)).counters := by
    rw [h]
  exact hcounters

theorem sounds (h : Repaired v g r) : r.sounds = (defined g).sounds := by
  have hsounds : (mendGame v r).sounds = (withDefinitions (mendGame v g) (defined g)).sounds := by
    rw [h]
  exact hsounds

theorem rules (h : Repaired v g r) : r.rules.map (mendRule v) = g.rules.map (mendRule v) :=
  congrArg Game.rules h

theorem objectIds (h : Repaired v g r) : r.objectIds = g.objectIds :=
  h.same Game.objectIds objectIds_mendGame fun _ _ => rfl

theorem uses (h : Repaired v g r) (name : Name) : r.uses name = g.uses name := by
  refine h.same (fun k => k.uses name) (fun k => ?_) fun _ _ => rfl
  simp [Game.uses]

theorem references_bare (h : Repaired v g r) : references r.bare = references g.bare :=
  h.same (fun k => references k.bare) (fun k => references_mendGame k.bare) fun _ _ => rfl

theorem namesAreTexts (h : Repaired v g r) : r.NamesAreTexts ↔ g.NamesAreTexts :=
  iff_of_eq <| h.same Game.NamesAreTexts (fun k => propext (namesAreTexts_mendGame k))
    fun _ _ => rfl

theorem validate (h : Repaired v g r) (hnames : g.NamesAreTexts) {findings : List Finding}
    (hg : validate v g = .ok findings) :
    Check.validate v r = .ok (fieldwise v r ++ rulewiseFindings r) := by
  obtain ⟨hfield, hrule, _⟩ := validate_ok_iff.mp hg
  have hfield' : fieldwiseFault? v r = fieldwiseFault? v g :=
    h.same (fieldwiseFault? v) fieldwiseFault?_mendGame fun _ _ => rfl
  have hrule' : rulewiseFault? r = rulewiseFault? g := by
    rw [rulewiseFault?_of_names (h.namesAreTexts.mpr hnames), rulewiseFault?_of_names hnames]
    exact h.same lookupFault? lookupFault?_mendGame fun _ _ => rfl
  exact validate_ok_iff.mpr ⟨hfield'.trans hfield, hrule'.trans hrule, rfl⟩

/-! ## Definitions -/

theorem counter_kept (h : Repaired v g r) (hg : g.NamesAreTexts) {c : Counter} (hc : c ∈ g.counters)
    (hkept : keeps g c = true) : c ∈ r.counters := by
  obtain ⟨counters, sounds, _, hdefined⟩ := defined_eq hg
  rw [h.counters, hdefined]
  exact List.mem_append_left _ (List.mem_filter.mpr ⟨hc, hkept⟩)

theorem sound_kept (h : Repaired v g r) (hg : g.NamesAreTexts) {s : SoundPlan} (hs : s ∈ g.sounds) :
    s ∈ r.sounds := by
  obtain ⟨counters, sounds, _, hdefined⟩ := defined_eq hg
  rw [h.sounds, hdefined]
  exact List.mem_append_left _ hs

theorem counter_cases (h : Repaired v g r) (hg : g.NamesAreTexts) {c : Counter}
    (hc : c ∈ r.counters) : c ∈ g.counters ∧ keeps g c = true ∨
      c = newCounter c.id ∧ g.uses c.id = true ∧ c.id ∉ g.counterIds :=
  counter_of_defined hg (h.counters ▸ hc)

/-- After a repair, no finding about a reference is about a counter or a sound. -/
theorem references_defined (h : Repaired v g r) (hg : g.NamesAreTexts) (hf : f ∈ references r) :
    f.label ≠ .listed .invalidCounterName ∧ f.label ≠ .listed .undefinedSoundId := by
  have hr := h.namesAreTexts.mpr hg
  have hdangling := isDangling_of_mem hr hf
  rw [references_eq_filter r hr, List.mem_filter, h.references_bare] at hf
  have hbare : g.bare.NamesAreTexts := hg
  constructor
  · intro hlabel
    obtain ⟨id, hsubject, _, huses⟩ := uses_of_reference hbare hf.1 hlabel
    have hno : id ∉ r.counterIds := by
      simpa [isDangling, hlabel, hsubject] using hdangling
    by_cases hid : id ∈ g.counterIds
    · obtain ⟨c, hc, rfl⟩ := List.mem_map.mp hid
      have hkept : keeps g c = true := by
        rw [keeps, Bool.or_eq_true]
        exact .inr huses
      exact hno (List.mem_map_of_mem (h.counter_kept hg hc hkept))
    · have hin : f ∈ references g := by
        rw [references_eq_filter g hg, List.mem_filter]
        exact ⟨hf.1, by simpa [isDangling, hlabel, hsubject] using hid⟩
      have hdefined := (provided_of_reference hg hin hsubject).1 hlabel
      rw [Game.counterIds, h.counters] at hno
      exact hno hdefined
  · intro hlabel
    obtain ⟨id, hsubject, _⟩ := sound_of_reference hbare hf.1 hlabel
    have hno : id ∉ r.soundIds := by
      simpa [isDangling, hlabel, hsubject] using hdangling
    by_cases hid : id ∈ g.soundIds
    · obtain ⟨s, hs, rfl⟩ := List.mem_map.mp hid
      exact hno (List.mem_map_of_mem (h.sound_kept hg hs))
    · have hin : f ∈ references g := by
        rw [references_eq_filter g hg, List.mem_filter]
        exact ⟨hf.1, by simpa [isDangling, hlabel, hsubject] using hid⟩
      have hdefined := (provided_of_reference hg hin hsubject).2 hlabel
      rw [Game.soundIds, h.sounds] at hno
      exact hno hdefined

theorem references_subset (h : Repaired v g r) (hg : g.NamesAreTexts) (hf : f ∈ references r) :
    f ∈ references g := by
  have hr := h.namesAreTexts.mpr hg
  obtain ⟨hcounter, hsound⟩ := h.references_defined hg hf
  have hdangling := isDangling_of_mem hr hf
  obtain ⟨c, hc, hlabel⟩ := references_coded r f hf
  rw [references_eq_filter r hr, List.mem_filter, h.references_bare] at hf
  rw [references_eq_filter g hg, List.mem_filter]
  refine ⟨hf.1, ?_⟩
  simp only [referenceCodes, List.mem_cons, List.not_mem_nil, or_false] at hc
  rcases hc with rfl | rfl | rfl
  · simp only [isDangling, hlabel] at hdangling ⊢
    cases hsubject : f.location.subject with
    | none => rfl
    | some id => simpa [hsubject, h.objectIds] using hdangling
  · exact absurd hlabel hcounter
  · exact absurd hlabel hsound

/-- The definitions of a repaired rule-set are settled: its own findings change nothing more. -/
theorem settled (h : Repaired v g r) (hg : g.NamesAreTexts) :
    defineFixes r (rulewiseFindings r) = (r, []) := by
  have hreferences : defineFixes r (references r) = (r, []) := by
    refine defineFixes_of_none fun f hf => ?_
    obtain ⟨hcounter, hsound⟩ := h.references_defined hg hf
    obtain ⟨c, hc, hlabel⟩ := references_coded r f hf
    refine defineFix?_of_none hlabel ?_
    simp only [referenceCodes, List.mem_cons, List.not_mem_nil, or_false] at hc
    rcases hc with rfl | rfl | rfl
    · rfl
    · exact absurd hlabel hcounter
    · exact absurd hlabel hsound
  have hkept : ∀ c ∈ r.counters, keeps r c = true := by
    intro c hc
    rw [keeps, h.uses]
    rcases h.counter_cases hg hc with ⟨_, hkept⟩ | ⟨_, hused, _⟩
    · exact hkept
    · rw [hused, Bool.or_true]
  rw [defineFixes_rulewise, defineFixes_append, hreferences]
  exact defineFixes_counterUses_kept hkept

theorem defined_eq_self (h : Repaired v g r) (hg : g.NamesAreTexts) : defined r = r := by
  rw [defined, h.settled hg]

theorem trans (h : Repaired v g r) (hg : g.NamesAreTexts) {r' : Game} (h' : Repaired v r r') :
    Repaired v g r' := by
  rw [Repaired, h', h.defined_eq_self hg]
  exact h

end Repaired

end TouchGame.Repair
