import Mathlib.Data.List.Forall2
import TouchGame.Proofs.Check.Loading
import TouchGame.Proofs.Repair.Repaired

/-!
# What a revision does

A revision puts rules of an answer in the places of rules that it was asked about. Each rule of the
rule-set is either left alone, or another one with its id stands in its place and a record tells so.
Every record is about a finding that named the rule. Whatever the answer says, nothing else changes.

* `Revised` : how a revised rule-set relates to the one before.
* `putRule_revised`, `putRules_revised` : one rule of an answer, and all of them.
* `reviseIfAny_revised` : the revision inside a repair.
-/

namespace TouchGame.Repair

open Check

variable {g next last : Game} {f : Finding} {fs gs : List Finding} {records more : List Amendment}
  {id : String}

def IsRewriting (id : String) (a : Amendment) : Prop :=
  a.description = "Rewrote rule" ∧ a.target = "script.rules." ++ id

/-- A rule is left alone, or another one with its id stands in its place, recorded. -/
def Revision (records : List Amendment) (old new : Rule) : Prop :=
  new = old ∨ new.id = old.id ∧ new.NamesAreTexts ∧ ∃ a ∈ records, IsRewriting new.id a

/-- A rule-set in which a revision by some findings has put other rules in the places of some. -/
structure Revised (fs : List Finding) (g last : Game) (records : List Amendment) : Prop where
  withRules : last = { g with rules := last.rules }
  rules : List.Forall₂ (Revision records) g.rules last.rules
  about : ∀ a ∈ records, ∃ id, IsRewriting id a ∧
    ∃ f ∈ fs, f.label = .listed a.code ∧ f.location.rule = some id

/-! ## Steps put together -/

theorem Revision.refl (records : List Amendment) (r : Rule) : Revision records r r :=
  .inl rfl

theorem Revision.trans {a b c : Rule} (h : Revision records a b) (h' : Revision more b c) :
    Revision (records ++ more) a c := by
  rcases h' with rfl | ⟨hid', hnames', record', hrecord', hrewriting'⟩
  · rcases h with rfl | ⟨hid, hnames, record, hrecord, hrewriting⟩
    · exact .refl _ _
    · exact .inr ⟨hid, hnames, record, List.mem_append_left _ hrecord, hrewriting⟩
  · have hid : c.id = a.id := by
      rcases h with rfl | ⟨hid, _⟩
      · exact hid'
      · exact hid'.trans hid
    exact .inr ⟨hid, hnames', record', List.mem_append_right _ hrecord', hrewriting'⟩

theorem forall₂_revision_trans {xs ys zs : List Rule} (h : List.Forall₂ (Revision records) xs ys)
    (h' : List.Forall₂ (Revision more) ys zs) :
    List.Forall₂ (Revision (records ++ more)) xs zs := by
  induction h generalizing zs with
  | nil =>
    cases h'
    exact .nil
  | cons hab _ ih =>
    cases h' with
    | cons hbc hrest => exact .cons (hab.trans hbc) (ih hrest)

namespace Revised

theorem refl (fs : List Finding) (g : Game) : Revised fs g g [] where
  withRules := rfl
  rules := List.forall₂_same.mpr fun r _ => .refl _ r
  about _ ha := absurd ha List.not_mem_nil

theorem trans (h : Revised fs g next records) (h' : Revised fs next last more) :
    Revised fs g last (records ++ more) where
  withRules := by
    rw [h'.withRules, h.withRules]
  rules := forall₂_revision_trans h.rules h'.rules
  about a ha := by
    rcases List.mem_append.mp ha with ha | ha
    · exact h.about a ha
    · exact h'.about a ha

theorem mono (h : Revised fs g last records) (hsubset : fs ⊆ gs) : Revised gs g last records where
  withRules := h.withRules
  rules := h.rules
  about a ha := by
    obtain ⟨id, hrewriting, f, hf, hlabel, hrule⟩ := h.about a ha
    exact ⟨id, hrewriting, f, hsubset hf, hlabel, hrule⟩

theorem ids (h : Revised fs g last records) : last.rules.map (·.id) = g.rules.map (·.id) := by
  have hids {xs ys : List Rule} (hxs : List.Forall₂ (Revision records) xs ys) :
      ys.map (·.id) = xs.map (·.id) := by
    induction hxs with
    | nil => rfl
    | cons hab _ ih =>
      rw [List.map_cons, List.map_cons, ih]
      rcases hab with rfl | ⟨hid, _⟩
      · rfl
      · rw [hid]
  exact hids h.rules

theorem namesAreTexts (h : Revised fs g last records) (hg : g.NamesAreTexts) : last.NamesAreTexts := by
  have hnames {xs ys : List Rule} (hxs : List.Forall₂ (Revision records) xs ys)
      (hall : ∀ r ∈ xs, r.NamesAreTexts) : ∀ r ∈ ys, r.NamesAreTexts := by
    induction hxs with
    | nil => exact hall
    | cons hab _ ih =>
      rw [List.forall_mem_cons] at hall ⊢
      refine ⟨?_, ih hall.2⟩
      rcases hab with rfl | ⟨_, hnames, _⟩
      · exact hall.1
      · exact hnames
  exact hnames h.rules hg

end Revised

/-! ## One rule -/

theorem mem_codesAbout {c : Code} :
    c ∈ codesAbout fs id ↔ ∃ f ∈ fs, f.location.rule = some id ∧ f.label = .listed c := by
  simp only [codesAbout, List.mem_eraseDups, List.mem_filterMap, List.mem_filter, beq_iff_eq,
    code?_eq_some, and_assoc]

theorem replacedIn_revision {r : Rule} (hnames : r.NamesAreTexts)
    (hrecord : ∃ a ∈ records, IsRewriting r.id a) (rules : List Rule) :
    List.Forall₂ (Revision records) rules (Game.replacedIn r rules) := by
  induction rules with
  | nil => exact .nil
  | cons old rest ih =>
    rw [Game.replacedIn]
    split
    · rename_i hid
      have hsame : r.id = old.id := (beq_iff_eq.mp hid).symm
      refine .cons (.inr ⟨hsame, hnames, hrecord⟩) ?_
      exact List.forall₂_same.mpr fun r _ => .refl _ r
    · exact .cons (.refl _ old) ih

theorem putRule_revised {r : Rule} (hnames : r.NamesAreTexts)
    (hasked : ∃ f ∈ fs, f.location.rule = some r.id ∧ ∃ c, f.label = .listed c)
    (h : putRule fs g r = .ok (next, records)) : Revised fs g next records := by
  rw [putRule] at h
  simp only [bind_ok_iff, pure_ok_iff, Prod.mk.injEq] at h
  obtain ⟨document, _, rfl, rfl⟩ := h
  refine ⟨rfl, replacedIn_revision hnames ?_ g.rules, fun a ha => ?_⟩
  · -- The finding that asked has a code, so there is at least one record.
    obtain ⟨f, hf, hrule, c, hlabel⟩ := hasked
    exact ⟨_, List.mem_map_of_mem (mem_codesAbout.mpr ⟨f, hf, hrule, hlabel⟩), rfl, rfl⟩
  · obtain ⟨c, hc, rfl⟩ := List.mem_map.mp ha
    obtain ⟨f, hf, hrule, hlabel⟩ := mem_codesAbout.mp hc
    exact ⟨r.id, ⟨rfl, rfl⟩, f, hf, hlabel, hrule⟩

/-! ## Answers -/

/-- All rules of an answer, whatever it holds. -/
theorem putRules_revised {asked : List String}
    (hasked : ∀ id ∈ asked, ∃ f ∈ fs, f.location.rule = some id ∧ ∃ c, f.label = .listed c)
    (answer : List Json) (h : putRules fs asked g answer = .ok (last, records)) :
    Revised fs g last records := by
  induction answer generalizing g records with
  | nil =>
    cases h
    exact .refl fs _
  | cons data rest ih =>
    rw [putRules] at h
    split at h
    · rename_i r hr
      obtain ⟨hdecoded, hmem⟩ := Option.filter_eq_some_iff.mp hr
      have hdecode : Rule.decode data = .ok r := by
        cases hread : Rule.decode data with
        | ok r' =>
          rw [hread] at hdecoded
          rw [Option.some.inj hdecoded]
        | bad _ =>
          rw [hread] at hdecoded
          cases hdecoded
      simp only [bind_ok_iff, pure_ok_iff, Prod.exists, Prod.mk.injEq] at h
      obtain ⟨next, first, hput, last', others, hrest, rfl, rfl⟩ := h
      have hstep := putRule_revised (Rule.decode_names hdecode)
        (hasked r.id (List.contains_iff_mem.mp hmem)) hput
      exact hstep.trans (ih hrest)
    · exact ih h

theorem reviseIfAny_revised {reviser : Option Reviser} {context : Context} {prompt : Option String}
    (hcodes : ∀ f ∈ fs, ∃ c, f.label = .listed c)
    (h : reviseIfAny reviser context g fs = .ok (last, records, prompt)) :
    Revised fs g last records := by
  have hasked : ∀ id ∈ askedAbout g fs,
      ∃ f ∈ fs, f.location.rule = some id ∧ ∃ c, f.label = .listed c := by
    intro id hid
    obtain ⟨f, hf, hrevisable⟩ := mem_askedAbout.mp hid
    obtain ⟨_, _, _, hrule⟩ := revisable?_eq_some.mp hrevisable
    exact ⟨f, hf, hrule, hcodes f hf⟩
  rw [reviseIfAny_eq] at h
  simp only [bind_ok_iff, pure_ok_iff, Prod.exists, Prod.mk.injEq] at h
  obtain ⟨answer, _, last', others, hput, rfl, rfl, _⟩ := h
  exact putRules_revised hasked answer hput

end TouchGame.Repair
