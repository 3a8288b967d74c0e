import TouchGame.Proofs.Check.Conflicts

/-!
# Names in rules

A number that a repair put in the place of a name has no order with a text. Where all names in the rules
are texts, every sort of names can be made, and what stands against the check between rules is a matter
of its lookups.

* `Game.NamesAreTexts` : the counters, sounds, and shown or hidden objects that rules name are texts.
* `rulewiseFault?_of_names` : only lookups stand against the check between rules.
-/

namespace TouchGame

def Action.soundName? : Action → Option Name
  | .playSound sound _ | .stopSound sound => sound.name?
  | _ => none

/-- The names of counters, of sounds, and of objects shown or hidden in a rule are texts, not numbers
that stand in their places. -/
structure Rule.NamesAreTexts (r : Rule) : Prop where
  conditions : ∀ c ∈ r.conditions, ∀ name, c.counterName? = some name → name.text?.isSome
  actions : ∀ a ∈ r.allActions, ∀ name, a.counterName? = some name ∨ a.soundName? = some name →
    name.text?.isSome
  objects : ∀ a ∈ r.allActions, ∀ name, r.shownOrHidden? a = some name → name.text?.isSome

/-- The names that a rule pulls in some direction: objects it shows or hides, counters it raises or
lowers. -/
def Rule.pulledNames (r : Rule) : List Name :=
  r.shownObjects ++ r.hiddenObjects ++ r.raisedCounters ++ r.loweredCounters

/-- The names in the rules are texts, as in every rule-set that is read from a document. -/
def Game.NamesAreTexts (g : Game) : Prop :=
  ∀ r ∈ g.rules, r.NamesAreTexts

theorem Name.text_of_isSome {name : Name} (h : name.text?.isSome) : ∃ id, name = .text id := by
  cases name with
  | text id => exact ⟨id, rfl⟩
  | number n => cases h

namespace Rule

variable {r : Rule} {name : Name}

theorem mem_allActions {a : Action} (h : a ∈ r.actions) : a ∈ r.allActions :=
  List.mem_flatMap.mpr ⟨a, h, List.mem_cons_self⟩

namespace NamesAreTexts

theorem text_of_filterMap (hr : r.NamesAreTexts) {pull : Action → Option Name}
    (hpull : ∀ a, pull a = some name → r.shownOrHidden? a = some name ∨ a.counterName? = some name)
    (h : name ∈ r.actions.filterMap pull) : name.text?.isSome := by
  obtain ⟨a, ha, hname⟩ := List.mem_filterMap.mp h
  rcases hpull a hname with hobject | hcounter
  · exact hr.objects a (mem_allActions ha) name hobject
  · exact hr.actions a (mem_allActions ha) name (.inl hcounter)

theorem pulledNames (hr : r.NamesAreTexts) (h : name ∈ r.pulledNames) : name.text?.isSome := by
  simp only [Rule.pulledNames, List.mem_append] at h
  rcases h with ((hshown | hhidden) | hraised) | hlowered
  · refine hr.text_of_filterMap (fun a hname => ?_) hshown
    split at hname
    · exact .inl hname
    · cases hname
  · refine hr.text_of_filterMap (fun a hname => ?_) hhidden
    split at hname
    · exact .inl hname
    · cases hname
  · refine hr.text_of_filterMap (fun a hname => ?_) hraised
    split at hname
    · exact .inr hname
    · exact .inr hname
    · cases hname
  · refine hr.text_of_filterMap (fun a hname => ?_) hlowered
    split at hname
    · exact .inr hname
    · exact .inr hname
    · cases hname

end NamesAreTexts

end Rule

namespace Check

variable {g : Game} {a b : Rule}

theorem sortFault?_of_texts {names : List Name} (h : ∀ name ∈ names, name.text?.isSome) :
    sortFault? names = none := by
  have hnumber : names.findSome? (·.number?) = none := by
    refine List.findSome?_eq_none_iff.mpr fun name hname => ?_
    obtain ⟨id, rfl⟩ := Name.text_of_isSome (h name hname)
    rfl
  rw [sortFault?, hnumber]

theorem sortFault?_common {xs ys : List Name} (h : ∀ name ∈ xs, name.text?.isSome) :
    sortFault? (common xs ys) = none :=
  sortFault?_of_texts fun name hname => h name (List.mem_filter.mp hname).1

theorem sortFault?_crossing {xs ys zs ws : List Name} (hx : ∀ name ∈ xs, name.text?.isSome)
    (hz : ∀ name ∈ zs, name.text?.isSome) : sortFault? (crossing xs ys zs ws) = none := by
  refine sortFault?_of_texts fun name hname => ?_
  rcases List.mem_append.mp hname with hname | hname
  · exact hx name (List.mem_filter.mp hname).1
  · exact hz name (List.mem_filter.mp hname).1

section Sorts

variable (ha : ∀ name ∈ a.pulledNames, name.text?.isSome)
include ha

theorem ownSortFault?_of_texts : ownSortFault? a = none :=
  sortFault?_common fun name h => ha name (by simp [Rule.pulledNames, h])

theorem pairSortFault?_of_texts : pairSortFault? a b = none := by
  have hobjects :
      sortFault? (crossing a.shownObjects b.hiddenObjects a.hiddenObjects b.shownObjects) = none :=
    sortFault?_crossing (fun name h => ha name (by simp [Rule.pulledNames, h]))
      fun name h => ha name (by simp [Rule.pulledNames, h])
  have hcounters :
      sortFault? (crossing a.raisedCounters b.loweredCounters a.loweredCounters b.raisedCounters) = none :=
    sortFault?_crossing (fun name h => ha name (by simp [Rule.pulledNames, h]))
      fun name h => ha name (by simp [Rule.pulledNames, h])
  rw [pairSortFault?, hobjects, hcounters]
  rfl

end Sorts

/-- Where rules pull in directions only what has a text for a name, no sort stands against the check
between rules. -/
theorem rulewiseFault?_of_texts (h : ∀ r ∈ g.rules, ∀ name ∈ r.pulledNames, name.text?.isSome) :
    rulewiseFault? g = lookupFault? g := by
  have hown : g.rules.findSome? ownSortFault? = none :=
    List.findSome?_eq_none_iff.mpr fun r hr => ownSortFault?_of_texts (h r hr)
  have hgroups : groupSortFault? g.rules = none := by
    refine groupSortFault?_eq_none_iff.mpr (List.pairwise_of_forall_mem_list ?_)
    exact fun a ha b _ _ _ => pairSortFault?_of_texts (h a ha)
  rw [rulewiseFault?, conflictFault?, hown, hgroups, Option.none_or, Option.or_none, lookupFault?]

theorem rulewiseFault?_of_names (h : g.NamesAreTexts) : rulewiseFault? g = lookupFault? g :=
  rulewiseFault?_of_texts fun r hr _ => (h r hr).pulledNames

end Check

end TouchGame
