import Mathlib.Data.List.Pairwise
import TouchGame.Check.Document

/-!
# Missing sections

A section is missing if null stands in its place, if one of its keys is not there, or if it would lie
inside a value that is no object. Whatever lies below a missing section is missing too, so the check
of a document reports the topmost ones only: no reported section lies below another one, and each
missing section is reported, or lies below exactly one that is.

* `Present`, `Missing` : whether the keys of a section lead to a value, said key by key.
* `Missing.mono` : what lies below a missing section is missing.
* `Covers` : what a report says about the sections that were looked at; `Covers.step` is a look at one
  more section, and `Covers.run` at a whole table.
* `sections_minimal` : the findings about the sections of an object.
-/

namespace TouchGame.Check

/-! ## Sections of a value -/

/-- The keys of a section lead through objects to a value that is not null. -/
inductive Present : Json → Section → Prop
  | here {value : Json} (h : value ≠ .null) : Present value []
  | inside {fields : Json.Fields} {key : String} {value : Json} {rest : Section}
      (h : Json.get? fields key = some value) (hrest : Present value rest) :
      Present (.obj fields) (key :: rest)

/-- A section is null, or one of its keys is not there, or one of its keys belongs to a value that is
no object. -/
inductive Missing : Json → Section → Prop
  | null : Missing .null []
  | absent {fields : Json.Fields} {key : String} {rest : Section} (h : Json.get? fields key = none) :
      Missing (.obj fields) (key :: rest)
  | outside {value : Json} {key : String} {rest : Section} (h : ∀ fields, value ≠ .obj fields) :
      Missing value (key :: rest)
  | inside {fields : Json.Fields} {key : String} {value : Json} {rest : Section}
      (h : Json.get? fields key = some value) (hrest : Missing value rest) :
      Missing (.obj fields) (key :: rest)

section Values

variable {value : Json} {fields : Json.Fields} {key : String} {s t : Section}

theorem missing_cons_iff (h : Json.get? fields key = some value) :
    Missing (.obj fields) (key :: s) ↔ Missing value s := by
  refine ⟨fun hmissing => ?_, .inside h⟩
  cases hmissing with
  | absent habsent => simp [habsent] at h
  | outside houtside => exact absurd rfl (houtside fields)
  | inside hvalue hrest =>
    rw [hvalue, Option.some.injEq] at h
    exact h ▸ hrest

theorem present_iff_not_missing : Present value s ↔ ¬ Missing value s := by
  constructor
  · intro hpresent
    induction hpresent with
    | here h =>
      rintro ⟨⟩
      exact h rfl
    | inside h _ ih => rwa [missing_cons_iff h]
  · intro hnot
    induction s generalizing value with
    | nil => exact .here fun heq => hnot (heq ▸ .null)
    | cons key rest ih =>
      cases value with
      | obj fields =>
        cases hget : Json.get? fields key with
        | none => exact absurd (.absent hget) hnot
        | some inner =>
          rw [missing_cons_iff hget] at hnot
          exact .inside hget (ih hnot)
      | _ => exact absurd (.outside nofun) hnot

theorem Missing.mono (h : Missing value s) (hbelow : s <+: t) : Missing value t := by
  obtain ⟨more, rfl⟩ := hbelow
  induction h with
  | null =>
    cases more with
    | nil => exact .null
    | cons key rest => exact .outside nofun
  | absent h => exact .absent h
  | outside h => exact .outside h
  | inside h _ ih => exact .inside h ih

theorem sectionValue_null (s : Section) : sectionValue .null s = .null := by
  cases s <;> rfl

/-- Null stands for the value of exactly the missing sections. -/
theorem sectionValue_isNull_iff : (sectionValue value s).isNull = true ↔ Missing value s := by
  induction s generalizing value with
  | nil =>
    rw [sectionValue]
    constructor
    · intro h
      cases value with
      | null => exact .null
      | _ => cases h
    · rintro ⟨⟩
      rfl
  | cons key rest ih =>
    cases value with
    | obj fields =>
      rw [sectionValue]
      cases hget : Json.get? fields key with
      | none =>
        rw [Option.getD_none, sectionValue_null]
        exact iff_of_true rfl (.absent hget)
      | some inner => rw [Option.getD_some, ih, missing_cons_iff hget]
    | _ => exact iff_of_true rfl (.outside nofun)

end Values

/-! ## Reports -/

/-- A report behind a look at one more section. -/
def report (document : Json) (reported : List Section) (required : Section) : List Section :=
  if reported.any (·.isPrefixOf required) then reported
  else if (sectionValue document required).isNull then reported ++ [required]
  else reported

theorem missingSections_eq (document : Json) :
    missingSections document = requiredSections.foldl (report document) [] := rfl

/-- A report covers the sections that were looked at: no two of its sections lie one below the other,
all of them are missing, and every missing one is among them or below one of them. -/
structure Covers (document : Json) (seen reported : List Section) : Prop where
  apart : reported.Pairwise fun p q => ¬ p <+: q ∧ ¬ q <+: p
  missing : ∀ p ∈ reported, p ∈ seen ∧ Missing document p
  reaches : ∀ s ∈ seen, Missing document s → ∃ p ∈ reported, p <+: s

namespace Covers

variable {document : Json} {seen reported table : List Section} {required s : Section}

theorem keep (h : Covers document seen reported)
    (hreached : Missing document required → ∃ p ∈ reported, p <+: required) :
    Covers document (seen ++ [required]) reported where
  apart := h.apart
  missing p hp := ⟨List.mem_append_left _ (h.missing p hp).1, (h.missing p hp).2⟩
  reaches s hs hmissing := by
    rcases List.mem_append.mp hs with hs | hs
    · exact h.reaches s hs hmissing
    · obtain rfl := List.mem_singleton.mp hs
      exact hreached hmissing

theorem add (h : Covers document seen reported) (hmissing : Missing document required)
    (hnone : ∀ p ∈ reported, ¬ p <+: required) (hlater : ∀ s ∈ seen, ¬ required <+: s) :
    Covers document (seen ++ [required]) (reported ++ [required]) where
  apart := by
    refine List.pairwise_append.mpr ⟨h.apart, List.pairwise_singleton _ _, fun p hp q hq => ?_⟩
    obtain rfl := List.mem_singleton.mp hq
    exact ⟨hnone p hp, hlater p (h.missing p hp).1⟩
  missing p hp := by
    rcases List.mem_append.mp hp with hp | hp
    · exact ⟨List.mem_append_left _ (h.missing p hp).1, (h.missing p hp).2⟩
    · obtain rfl := List.mem_singleton.mp hp
      exact ⟨List.mem_append_right _ hp, hmissing⟩
  reaches s hs hs' := by
    rcases List.mem_append.mp hs with hs | hs
    · obtain ⟨p, hp, hbelow⟩ := h.reaches s hs hs'
      exact ⟨p, List.mem_append_left _ hp, hbelow⟩
    · exact ⟨s, List.mem_append_right _ hs, List.prefix_refl s⟩

theorem step (h : Covers document seen reported) (hlater : ∀ s ∈ seen, ¬ required <+: s) :
    Covers document (seen ++ [required]) (report document reported required) := by
  unfold report
  split
  · rename_i hany
    obtain ⟨above, habove, hbelow⟩ := List.any_eq_true.mp hany
    exact h.keep fun _ => ⟨above, habove, List.isPrefixOf_iff_prefix.mp hbelow⟩
  · rename_i hany
    split
    · rename_i hnull
      refine h.add (sectionValue_isNull_iff.mp hnull) (fun p hp hbelow => hany ?_) hlater
      exact List.any_eq_true.mpr ⟨p, hp, List.isPrefixOf_iff_prefix.mpr hbelow⟩
    · rename_i hnull
      exact h.keep fun hmissing => absurd (sectionValue_isNull_iff.mpr hmissing) hnull

theorem run (h : Covers document seen reported)
    (horder : (seen ++ table).Pairwise fun s t => ¬ t <+: s) :
    Covers document (seen ++ table) (table.foldl (report document) reported) := by
  induction table generalizing seen reported with
  | nil => rwa [List.append_nil]
  | cons required rest ih =>
    have hlater : ∀ s ∈ seen, ¬ required <+: s := fun s hs =>
      (List.pairwise_append.mp horder).2.2 s hs required List.mem_cons_self
    rw [List.foldl_cons, List.append_cons]
    rw [List.append_cons] at horder
    exact ih (h.step hlater) horder

theorem unique (h : Covers document seen reported) {p q : Section} (hp : p ∈ reported)
    (hq : q ∈ reported) (hps : p <+: s) (hqs : q <+: s) : p = q := by
  by_contra hne
  have hsymm : Std.Symm fun p q : Section => ¬ p <+: q ∧ ¬ q <+: p := ⟨fun _ _ hpq => hpq.symm⟩
  obtain ⟨hpq, hqp⟩ := h.apart.forall hp hq hne
  exact (List.prefix_or_prefix_of_prefix hps hqs).elim hpq hqp

theorem eq_nil_iff (h : Covers document seen reported) :
    reported = [] ↔ ∀ s ∈ seen, Present document s := by
  simp only [present_iff_not_missing]
  constructor
  · rintro rfl s hs hmissing
    obtain ⟨_, hp, _⟩ := h.reaches s hs hmissing
    cases hp
  · intro hnone
    rw [List.eq_nil_iff_forall_not_mem]
    intro p hp
    obtain ⟨hseen, hmissing⟩ := h.missing p hp
    exact hnone p hseen hmissing

end Covers

theorem covers_missingSections (document : Json) :
    Covers document requiredSections (missingSections document) := by
  have hnothing : Covers document [] [] := ⟨List.Pairwise.nil, nofun, nofun⟩
  rw [missingSections_eq]
  exact hnothing.run (by decide)

/-! ## Findings -/

theorem path_prefix_iff : ∀ s ∈ requiredSections, ∀ t ∈ requiredSections,
    (s.map sectionStep <+: t.map sectionStep ↔ s <+: t) := by
  decide

/-- **The findings about the sections of an object are the topmost missing ones.** No path of theirs
lies below another one, each is about a section that is missing, every missing section has the path
of exactly one of them above it or as its own, and there are none exactly if every required section is
present. -/
theorem sections_minimal (fields : Json.Fields) :
    ((sections (.obj fields)).map (·.location.path)).Pairwise (fun p q => ¬ p <+: q ∧ ¬ q <+: p) ∧
      (∀ f ∈ sections (.obj fields), ∃ s ∈ requiredSections,
        f = missingSection s ∧ Missing (.obj fields) s) ∧
      (∀ s ∈ requiredSections, Missing (.obj fields) s →
        ∃! p, p ∈ (sections (.obj fields)).map (·.location.path) ∧ p <+: s.map sectionStep) ∧
      (sections (.obj fields) = [] ↔ ∀ s ∈ requiredSections, Present (.obj fields) s) := by
  have hcovers := covers_missingSections (.obj fields)
  have hrequired : ∀ p ∈ missingSections (.obj fields), p ∈ requiredSections := fun p hp =>
    (hcovers.missing p hp).1
  have hpaths : (sections (.obj fields)).map (·.location.path) =
      (missingSections (.obj fields)).map (·.map sectionStep) := by
    rw [sections, List.map_map]
    rfl
  rw [hpaths]
  refine ⟨?_, ?_, ?_, ?_⟩
  · rw [List.pairwise_map]
    refine hcovers.apart.imp_of_mem fun {p q} hp hq hpq => ?_
    rwa [path_prefix_iff p (hrequired p hp) q (hrequired q hq),
      path_prefix_iff q (hrequired q hq) p (hrequired p hp)]
  · intro f hf
    obtain ⟨p, hp, rfl⟩ := List.mem_map.mp hf
    obtain ⟨hseen, hmissing⟩ := hcovers.missing p hp
    exact ⟨p, hseen, rfl, hmissing⟩
  · intro s hs hmissing
    obtain ⟨p, hp, hbelow⟩ := hcovers.reaches s hs hmissing
    refine ⟨p.map sectionStep, ⟨List.mem_map_of_mem hp, ?_⟩, ?_⟩
    · exact (path_prefix_iff p (hrequired p hp) s hs).mpr hbelow
    · rintro path ⟨hpath, habove⟩
      obtain ⟨q, hq, rfl⟩ := List.mem_map.mp hpath
      rw [hcovers.unique hp hq hbelow ((path_prefix_iff q (hrequired q hq) s hs).mp habove)]
  · rw [sections, List.map_eq_nil_iff]
    exact hcovers.eq_nil_iff

end TouchGame.Check
