import Mathlib.Data.List.Nodup
import TouchGame.Proofs.Check.Codes
import TouchGame.Proofs.Reordering.Conflicts
import TouchGame.Proofs.Repair.Fixes

/-!
# What opposed rules are reported for

Of two rules on one trigger, one may show what the other hides, or raise what the other lowers. The
check collects such names in sets, signature by signature; what it reports is the plain list of all
clashes, each once: two positions of rules on one trigger, the earlier one first, and a name.

* `Rule.Shows`, `Rule.Hides`, `Rule.Raises`, `Rule.Lowers` : what the own actions of a rule do.
* `IsClash` : two positions and a name that the rules there work on in opposite ways.
* `ReportsEach` : the findings of a code are about the clashes of a kind, one finding about each.
* `opposed_naming`, `clashesFrom_labels` : the findings about one pair, and about all pairs.
* `rulewise_reports_clashes` : objects shown and hidden, counters raised and lowered.
-/

namespace TouchGame

open Check

/-- A field holds a name: a text, which may be empty, or a number in its place. -/
def Slot.Holds : Slot String → Name → Prop
  | .value s, .text t => s = t
  | .number m, .number n => m = n
  | _, _ => False

theorem Slot.name?_eq_some_iff {slot : Slot String} {name : Name} :
    slot.name? = some name ↔ slot.Holds name ∧ name ≠ .text "" := by
  cases slot with
  | empty => simp [Slot.name?, Slot.Holds]
  | number n => cases name <;> simp [Slot.name?, Slot.Holds]
  | value s =>
    cases name with
    | number m => simp [Slot.name?, Slot.Holds]
    | text t =>
      simp only [Slot.name?, Slot.Holds, Option.ite_none_left_eq_some, Option.some.injEq,
        Name.text.injEq, ne_eq, String.isEmpty_iff]
      constructor
      · rintro ⟨hne, rfl⟩
        exact ⟨rfl, hne⟩
      · rintro ⟨rfl, hne⟩
        exact ⟨hne, rfl⟩

/-! ## What rules do -/

namespace Rule

def shownBy (r : Rule) : Action → Option (Slot String)
  | .reveal target .. => some (r.resolve target)
  | _ => none

def hiddenBy (r : Rule) : Action → Option (Slot String)
  | .hide target .. => some (r.resolve target)
  | _ => none

/-- The counter that an action changes, if it does so by one of these operations. -/
def countedBy (operations : List String) (_ : Rule) : Action → Option (Slot String)
  | .counter counter (.value operation) _ => if operation ∈ operations then some counter else none
  | _ => none

def Does (way : Rule → Action → Option (Slot String)) (r : Rule) (name : Name) : Prop :=
  ∃ a ∈ r.actions, ∃ slot, way r a = some slot ∧ slot.Holds name

/-- The rule shows an object, which may be its own. -/
def Shows : Rule → Name → Prop := Does shownBy

/-- The rule hides an object, which may be its own. -/
def Hides : Rule → Name → Prop := Does hiddenBy

/-- The rule raises a counter. -/
def Raises : Rule → Name → Prop := Does (countedBy ["increment", "add"])

/-- The rule lowers a counter. -/
def Lowers : Rule → Name → Prop := Does (countedBy ["decrement", "subtract"])

section Lists

variable {r : Rule} {name : Name}

theorem mem_filterMap_way {way : Rule → Action → Option (Slot String)} {see : Action → Option Name}
    (hsee : ∀ a, see a = (way r a).bind Slot.name?) :
    name ∈ r.actions.filterMap see ↔ r.Does way name ∧ name ≠ .text "" := by
  simp only [List.mem_filterMap, hsee, Option.bind_eq_some_iff, Slot.name?_eq_some_iff]
  constructor
  · rintro ⟨a, ha, slot, hslot, hholds, hne⟩
    exact ⟨⟨a, ha, slot, hslot, hholds⟩, hne⟩
  · rintro ⟨⟨a, ha, slot, hslot, hholds⟩, hne⟩
    exact ⟨a, ha, slot, hslot, hholds, hne⟩

theorem mem_shownObjects_iff : name ∈ r.shownObjects ↔ r.Shows name ∧ name ≠ .text "" :=
  mem_filterMap_way fun a => by cases a <;> rfl

theorem mem_hiddenObjects_iff : name ∈ r.hiddenObjects ↔ r.Hides name ∧ name ≠ .text "" :=
  mem_filterMap_way fun a => by cases a <;> rfl

/-- What sees the counter of an action for two operations and nothing else. -/
theorem see_eq_countedBy {first second : String} {see : Action → Option Name}
    (hfirst : ∀ counter value, see (.counter counter (.value first) value) = counter.name?)
    (hsecond : ∀ counter value, see (.counter counter (.value second) value) = counter.name?)
    (hother : ∀ a, (∀ counter value, a ≠ .counter counter (.value first) value) →
      (∀ counter value, a ≠ .counter counter (.value second) value) → see a = none) (a : Action) :
    see a = (countedBy [first, second] r a).bind Slot.name? := by
  unfold countedBy
  split
  · rename_i counter operation value
    by_cases h : operation ∈ [first, second]
    · rw [if_pos h]
      simp only [List.mem_cons, List.not_mem_nil, or_false] at h
      rcases h with rfl | rfl
      · exact hfirst counter value
      · exact hsecond counter value
    · rw [if_neg h]
      simp only [List.mem_cons, List.not_mem_nil, or_false, not_or] at h
      exact hother _ (fun _ _ heq => h.1 (by cases heq; rfl)) (fun _ _ heq => h.2 (by cases heq; rfl))
  · rename_i hcounter
    exact hother a (fun counter value => hcounter counter first value)
      fun counter value => hcounter counter second value

theorem mem_raisedCounters_iff : name ∈ r.raisedCounters ↔ r.Raises name ∧ name ≠ .text "" := by
  refine mem_filterMap_way (see_eq_countedBy (fun _ _ => rfl) (fun _ _ => rfl) fun a hone hother => ?_)
  split
  · exact absurd rfl (hone _ _)
  · exact absurd rfl (hother _ _)
  · rfl

theorem mem_loweredCounters_iff : name ∈ r.loweredCounters ↔ r.Lowers name ∧ name ≠ .text "" := by
  refine mem_filterMap_way (see_eq_countedBy (fun _ _ => rfl) (fun _ _ => rfl) fun a hone hother => ?_)
  split
  · exact absurd rfl (hone _ _)
  · exact absurd rfl (hother _ _)
  · rfl

end Lists

end Rule

/-! ## Clashes -/

def SameTrigger (first second : Rule) : Prop :=
  first.signature = second.signature ∧ first.signature ≠ ""

/-- One of two rules does something with a name, and the other one undoes it. -/
def Crosses (does undoes : Rule → Name → Prop) (first second : Rule) (name : Name) : Prop :=
  does first name ∧ undoes second name ∨ undoes first name ∧ does second name

/-- Two positions of rules, the earlier one first, and a name: the rules there have one trigger and
cross each other about the name. -/
def IsClash (does undoes : Rule → Name → Prop) (rules : List Rule) (clash : Nat × Nat × Name) : Prop :=
  clash.1 < clash.2.1 ∧ ∃ first second, rules[clash.1]? = some first ∧
    rules[clash.2.1]? = some second ∧ SameTrigger first second ∧
      Crosses does undoes first second clash.2.2

/-- The rule and the subject that a finding of a code names. -/
def Finding.naming? (code : Code) (f : Finding) : Option (Option String × Option String) :=
  if f.label = .listed code then some (f.location.rule, f.location.subject) else none

def idAt (rules : List Rule) (i : Nat) : Option String :=
  rules[i]?.map (·.id)

/-- The id of the earlier rule of a clash, and its name as findings show it. -/
def clashLabel (rules : List Rule) (clash : Nat × Nat × Name) : Option String × Option String :=
  (idAt rules clash.1, some clash.2.2.shown)

/-- The findings of a code are about clashes: one finding about each, and none besides. -/
def ReportsEach (code : Code) (clash : Nat × Nat × Name → Prop) (rules : List Rule)
    (findings : List Finding) : Prop :=
  ∃ clashes : List (Nat × Nat × Name), clashes.Nodup ∧ (∀ c, c ∈ clashes ↔ clash c) ∧
    (findings.filterMap (Finding.naming? code)).Perm (clashes.map (clashLabel rules))

/-- The clashes of a list of rules whose first one has a given position, when two rules clash about
the names of a list. -/
def clashesFrom (names : Rule → Rule → List Name) (start : Nat) : List Rule → List (Nat × Nat × Name)
  | [] => []
  | first :: rest =>
    (rest.zipIdx (start + 1)).flatMap (fun (second, j) => (names first second).map (start, j, ·)) ++
      clashesFrom names (start + 1) rest

section Clashes

variable {names : Rule → Rule → List Name} {start : Nat} {rules : List Rule}

theorem mem_clashesFrom {i j : Nat} {name : Name} : (i, j, name) ∈ clashesFrom names start rules ↔
    start ≤ i ∧ i < j ∧ ∃ first second, rules[i - start]? = some first ∧
      rules[j - start]? = some second ∧ name ∈ names first second := by
  induction rules generalizing start with
  | nil => simp [clashesFrom]
  | cons r rest ih =>
    have hfirst : (i, j, name) ∈ (rest.zipIdx (start + 1)).flatMap
        (fun (second, j) => (names r second).map (start, j, ·)) ↔
        i = start ∧ start < j ∧ ∃ second, rest[j - (start + 1)]? = some second ∧
          name ∈ names r second := by
      simp only [List.mem_flatMap, List.mem_map, Prod.exists, List.mk_mem_zipIdx_iff_le_and_getElem?_sub,
        Prod.mk.injEq]
      constructor
      · rintro ⟨second, _, ⟨hj, hsecond⟩, _, hname, rfl, rfl, rfl⟩
        exact ⟨rfl, hj, second, hsecond, hname⟩
      · rintro ⟨rfl, hj, second, hsecond, hname⟩
        exact ⟨second, j, ⟨hj, hsecond⟩, name, hname, rfl, rfl, rfl⟩
    rw [clashesFrom, List.mem_append, hfirst, ih]
    constructor
    · rintro (⟨rfl, hj, second, hsecond, hname⟩ | ⟨hi, hij, first, second, hone, htwo, hname⟩)
      · refine ⟨Nat.le_refl i, hj, r, second, by simp, ?_, hname⟩
        rwa [show j - i = (j - (i + 1)) + 1 by omega, List.getElem?_cons_succ]
      · refine ⟨by omega, hij, first, second, ?_, ?_, hname⟩
        · rwa [show i - start = (i - (start + 1)) + 1 by omega, List.getElem?_cons_succ]
        · rwa [show j - start = (j - (start + 1)) + 1 by omega, List.getElem?_cons_succ]
    · rintro ⟨hi, hij, first, second, hone, htwo, hname⟩
      rw [show j - start = (j - (start + 1)) + 1 by omega, List.getElem?_cons_succ] at htwo
      by_cases heq : i = start
      · subst heq
        rw [Nat.sub_self, List.getElem?_cons_zero, Option.some.injEq] at hone
        subst hone
        exact .inl ⟨rfl, hij, second, htwo, hname⟩
      · rw [show i - start = (i - (start + 1)) + 1 by omega, List.getElem?_cons_succ] at hone
        exact .inr ⟨by omega, hij, first, second, hone, htwo, hname⟩

theorem nodup_clashesFrom (h : ∀ a b, (names a b).Nodup) : (clashesFrom names start rules).Nodup := by
  induction rules generalizing start with
  | nil => simp [clashesFrom]
  | cons r rest ih =>
    rw [clashesFrom, List.nodup_append']
    refine ⟨?_, ih, ?_⟩
    · rw [List.nodup_flatMap]
      constructor
      · intro (second, j) _
        exact (h r second).map fun a b heq => by simpa using heq
      · have hpositions : ((rest.zipIdx (start + 1)).map Prod.snd).Nodup := by
          rw [List.zipIdx_map_snd]
          exact List.nodup_range'
        rw [List.Nodup, List.pairwise_map] at hpositions
        refine hpositions.imp fun {a b} hne => ?_
        simp only [Function.onFun, List.disjoint_left, List.mem_map, not_exists, not_and]
        rintro _ ⟨n, _, rfl⟩ m _ heq
        rw [Prod.mk.injEq, Prod.mk.injEq] at heq
        exact hne heq.2.1.symm
    · rw [List.disjoint_left]
      rintro ⟨i, j, name⟩ hfirst hrest
      have hi : start + 1 ≤ i := (mem_clashesFrom.mp hrest).1
      simp only [List.mem_flatMap, List.mem_map, Prod.mk.injEq] at hfirst
      obtain ⟨_, _, _, _, rfl, _⟩ := hfirst
      omega

/-- What a check of pairs says about names is what it says about the clashes of the list. -/
theorem clashesFrom_labels {code : Code} {check : Rule → Rule → List Finding} (see : Nat → Option String)
    (hcheck : ∀ a b, (check a b).filterMap (Finding.naming? code) =
      (names a b).map fun name => (some a.id, some name.shown))
    (hid : ∀ k r, rules[k]? = some r → see (start + k) = some r.id) :
    (clashesFrom names start rules).map (fun c => (see c.1, some c.2.2.shown)) =
      (everyPair check rules).filterMap (Finding.naming? code) := by
  induction rules generalizing start with
  | nil => rfl
  | cons r rest ih =>
    have hfirst : see start = some r.id := hid 0 r rfl
    have hlater (k : Nat) (s : Rule) (hs : rest[k]? = some s) : see (start + 1 + k) = some s.id := by
      rw [Nat.add_assoc, Nat.add_comm 1]
      exact hid (k + 1) s hs
    have hpairs : ((rest.zipIdx (start + 1)).flatMap
        fun (second, j) => (names r second).map (start, j, ·)).map
          (fun c => (see c.1, some c.2.2.shown)) =
        (rest.flatMap (check r)).filterMap (Finding.naming? code) := by
      rw [List.filterMap_flatMap, List.map_flatMap]
      conv_rhs => rw [← List.zipIdx_map_fst (start + 1) rest, List.flatMap_map]
      refine List.flatMap_congr fun p _ => ?_
      rw [hcheck, List.map_map, ← hfirst]
      rfl
    rw [clashesFrom, everyPair, List.map_append, List.filterMap_append, hpairs, ih hlater]

end Clashes

/-! ## Findings about names -/

theorem naming_coded {code : Code} {codes : List Code} {fs : List Finding} (h : Coded codes fs)
    (hother : code ∉ codes) : fs.filterMap (Finding.naming? code) = [] := by
  rw [List.filterMap_eq_nil_iff]
  intro f hf
  obtain ⟨c, hc, hlabel⟩ := h f hf
  refine if_neg fun heq => hother ?_
  rw [hlabel, Label.listed.injEq] at heq
  exact heq ▸ hc

theorem naming_map {α : Type} {code : Code} {say : α → Finding} (items : List α)
    (hsay : ∀ a, (say a).label = .listed code) : (items.map say).filterMap (Finding.naming? code) =
      items.map fun a => ((say a).location.rule, (say a).location.subject) := by
  rw [List.filterMap_map, ← List.filterMap_eq_map]
  refine List.filterMap_congr fun a _ => ?_
  exact if_pos (hsay a)

theorem naming_others {α : Type} {code other : Code} {say : α → Finding} (items : List α)
    (hsay : ∀ a, (say a).label = .listed other) (hne : code ≠ other) :
    (items.map say).filterMap (Finding.naming? code) = [] := by
  have hcoded : Coded [other] (items.map say) := coded_map fun a => ⟨other, by simp, hsay a⟩
  exact naming_coded hcoded (by simpa using hne)

/-- Of the checks between rules, only that of pairs of rules reports what two rules oppose each other in. -/
theorem naming_rulewise {code : Code} (h : code ∈ oppositionCodes) (g : Game) :
    ((rulewiseFindings g).filterMap (Finding.naming? code)).Perm
      ((everyPair opposed g.rules).filterMap (Finding.naming? code)) := by
  have hothers : ∀ c ∈ oppositionCodes, c ∉ quietCodes ∧ c ∉ referenceCodes ∧ c ∉ counterCodes := by
    decide
  obtain ⟨hquiet, hreferences, hcounters⟩ := hothers code h
  have hown : (g.rules.flatMap ownConflicts).filterMap (Finding.naming? code) = [] :=
    naming_coded (coded_flatMap fun r _ => ownConflicts_coded r) hquiet
  have hbetween : (rulewiseFindings g).filterMap (Finding.naming? code) =
      (betweenRules g.rules).filterMap (Finding.naming? code) := by
    rw [rulewiseFindings, conflicts_eq]
    simp only [List.filterMap_append, hown, naming_coded (references_coded g) hreferences,
      naming_coded (outcomesExist_coded g) hquiet, naming_coded (instantOutcomes_coded g) hquiet,
      naming_coded (automaticOutcomes_coded g) hquiet, naming_coded (playerAction_coded g) hquiet,
      naming_coded (counterUses_coded g) hcounters,
      naming_coded (successReachability_coded g) hquiet, List.nil_append, List.append_nil]
  rw [hbetween]
  exact (betweenRules_perm g.rules).filterMap _

theorem mem_crossed {a b c d : List Name} {name : Name} :
    name ∈ crossed a b c d ↔ name ∈ a ∧ name ∈ b ∨ name ∈ c ∧ name ∈ d := by
  rw [crossed, sortedNames, List.mem_mergeSort, List.mem_eraseDups, mem_crossing]

theorem nodup_crossed (a b c d : List Name) : (crossed a b c d).Nodup := by
  have hdistinct : (crossing a b c d).eraseDups.Nodup := nodup_eraseDups _
  exact (List.mergeSort_perm _ _).nodup_iff.mpr hdistinct

/-- What two rules on one trigger clash about, given what is done and undone by each. -/
def clashNames (does undoes : Rule → List Name) (first second : Rule) : List Name :=
  if first.signature = second.signature ∧ first.signature ≠ "" then
    crossed (does first) (undoes second) (undoes first) (does second)
  else []

section Opposed

variable {code : Code} {does undoes : Rule → List Name} {Does Undoes : Rule → Name → Prop}

theorem mem_clashNames (hdoes : ∀ r name, name ∈ does r ↔ Does r name ∧ name ≠ .text "")
    (hundoes : ∀ r name, name ∈ undoes r ↔ Undoes r name ∧ name ≠ .text "") {a b : Rule} {name : Name} :
    name ∈ clashNames does undoes a b ↔
      SameTrigger a b ∧ Crosses Does Undoes a b name ∧ name ≠ .text "" := by
  unfold clashNames SameTrigger Crosses
  split
  · rename_i hsame
    rw [mem_crossed, hdoes, hdoes, hundoes, hundoes]
    tauto
  · rename_i hsame
    simp [hsame]

theorem nodup_clashNames (a b : Rule) : (clashNames does undoes a b).Nodup := by
  unfold clashNames
  split
  · exact nodup_crossed ..
  · exact List.nodup_nil

/-- Where the findings of a code about two rules are about the names they clash about, those about a
rule-set are about its clashes. -/
theorem reportsEach_of_opposed {g : Game} {findings : List Finding} (hcode : code ∈ oppositionCodes)
    (hdoes : ∀ r name, name ∈ does r ↔ Does r name ∧ name ≠ .text "")
    (hundoes : ∀ r name, name ∈ undoes r ↔ Undoes r name ∧ name ≠ .text "")
    (hopposed : ∀ a b, (opposed a b).filterMap (Finding.naming? code) =
      (clashNames does undoes a b).map fun name => (some a.id, some name.shown))
    (h : rulewise g = .ok findings) :
    ReportsEach code (fun c => IsClash Does Undoes g.rules c ∧ c.2.2 ≠ .text "") g.rules findings := by
  obtain ⟨_, rfl⟩ := rulewise_ok_iff.mp h
  refine ⟨clashesFrom (clashNames does undoes) 0 g.rules, nodup_clashesFrom nodup_clashNames, ?_, ?_⟩
  · rintro ⟨i, j, name⟩
    rw [mem_clashesFrom]
    simp only [mem_clashNames hdoes hundoes, IsClash, Nat.zero_le, true_and, Nat.sub_zero]
    constructor
    · rintro ⟨hij, first, second, hfirst, hsecond, hsame, hcrosses, hne⟩
      exact ⟨⟨hij, first, second, hfirst, hsecond, hsame, hcrosses⟩, hne⟩
    · rintro ⟨⟨hij, first, second, hfirst, hsecond, hsame, hcrosses⟩, hne⟩
      exact ⟨hij, first, second, hfirst, hsecond, hsame, hcrosses, hne⟩
  · have hids (k : Nat) (r : Rule) (hr : g.rules[k]? = some r) :
        idAt g.rules (0 + k) = some r.id := by
      rw [Nat.zero_add, idAt, hr]
      rfl
    have hlabels : (clashesFrom (clashNames does undoes) 0 g.rules).map (clashLabel g.rules) =
        (everyPair opposed g.rules).filterMap (Finding.naming? code) :=
      clashesFrom_labels (idAt g.rules) hopposed hids
    exact hlabels ▸ naming_rulewise hcode g

end Opposed

/-! ## Objects and counters -/

section Parts

variable (signature : String) (a b : Rule)

theorem naming_outcomes {code : Code} {message fix : String} {location : Location} (p : Bool)
    (hne : code ≠ .successFailureConflict) :
    (if p then [Finding.critical .successFailureConflict message fix location] else []).filterMap
      (Finding.naming? code) = [] := by
  have hcoded : Coded [.successFailureConflict]
      (if p then [Finding.critical .successFailureConflict message fix location] else []) :=
    coded_ite (by simp) coded_nil
  exact naming_coded hcoded (by simpa using hne)

theorem naming_oppositions_objects :
    (oppositions signature a b).filterMap (Finding.naming? .showHideConflict) =
      (crossed a.shownObjects b.hiddenObjects a.hiddenObjects b.shownObjects).map
        fun name => (some a.id, some name.shown) := by
  unfold oppositions opposition
  dsimp only
  rw [List.filterMap_append, List.filterMap_append, naming_outcomes _ (by decide),
    naming_map _ fun _ => rfl, naming_others _ (fun _ => rfl) (by decide), List.nil_append,
    List.append_nil]
  rfl

theorem naming_oppositions_counters :
    (oppositions signature a b).filterMap (Finding.naming? .counterConflict) =
      (crossed a.raisedCounters b.loweredCounters a.loweredCounters b.raisedCounters).map
        fun name => (some a.id, some name.shown) := by
  unfold oppositions opposition
  dsimp only
  rw [List.filterMap_append, List.filterMap_append, naming_outcomes _ (by decide),
    naming_others _ (fun _ => rfl) (by decide), naming_map _ fun _ => rfl, List.nil_append,
    List.nil_append]
  rfl

end Parts

theorem opposed_naming {code : Code} {does undoes : Rule → List Name}
    (h : ∀ signature a b, (oppositions signature a b).filterMap (Finding.naming? code) =
      (crossed (does a) (undoes b) (undoes a) (does b)).map fun name => (some a.id, some name.shown))
    (a b : Rule) : (opposed a b).filterMap (Finding.naming? code) =
      (clashNames does undoes a b).map fun name => (some a.id, some name.shown) := by
  unfold opposed clashNames
  split
  · exact h ..
  · rfl

/-- **The conflicts of a rule-set are its clashes.** About each earlier and later rule on one trigger,
and each object with a name that one of them shows and the other hides, there is exactly one finding,
with the id of the earlier rule; and just so about each counter with a name that one of them raises and
the other lowers. -/
theorem rulewise_reports_clashes {g : Game} {findings : List Finding} (h : rulewise g = .ok findings) :
    ReportsEach .showHideConflict
        (fun c => IsClash Rule.Shows Rule.Hides g.rules c ∧ c.2.2 ≠ .text "") g.rules findings ∧
      ReportsEach .counterConflict
        (fun c => IsClash Rule.Raises Rule.Lowers g.rules c ∧ c.2.2 ≠ .text "") g.rules findings := by
  constructor
  · have hobjects := opposed_naming naming_oppositions_objects
    exact reportsEach_of_opposed (by decide) (fun _ _ => Rule.mem_shownObjects_iff)
      (fun _ _ => Rule.mem_hiddenObjects_iff) hobjects h
  · have hcounters := opposed_naming naming_oppositions_counters
    exact reportsEach_of_opposed (by decide) (fun _ _ => Rule.mem_raisedCounters_iff)
      (fun _ _ => Rule.mem_loweredCounters_iff) hcounters h

/-- A lamp that one tap turns on and off: by one rule, by another one, and by a third one both ways. -/
def flicker : Game where
  layout := [⟨"lamp", ⟨.thousandths 500, .thousandths 500⟩, .empty⟩]
  counters := [⟨"watts", .empty, 0⟩]
  rules := [
    tap "on" [lights, change "increment"],
    tap "off" [darkens, change "subtract"],
    tap "both" [darkens, change "add", lights, change "decrement"]]
  objects := [⟨"lamp", .empty, .empty, .empty, .empty, .empty⟩]
  sounds := []
  music := .empty
where
  /-- A rule that a tap on the lamp fires. -/
  tap (id : String) (actions : List Action) : Rule :=
    ⟨id, .empty, .value "lamp", .value ⟨"AND", [.touch .empty (.value "down")]⟩, actions⟩
  lights : Action := .reveal .empty .empty none
  darkens : Action := .hide (.value "self") .empty none
  change (operation : String) : Action := .counter (.value "watts") (.value operation) none

theorem rulewise_reports_clashes_flicker :
    rulewise flicker = .ok (rulewiseFindings flicker) ∧
      (rulewiseFindings flicker).filterMap (Finding.naming? .showHideConflict) =
        [(some "on", some "lamp"), (some "on", some "lamp"), (some "off", some "lamp")] ∧
      ReportsEach .showHideConflict (fun c => IsClash Rule.Shows Rule.Hides flicker.rules c ∧
        c.2.2 ≠ .text "") flicker.rules (rulewiseFindings flicker) ∧
      ReportsEach .counterConflict (fun c => IsClash Rule.Raises Rule.Lowers flicker.rules c ∧
        c.2.2 ≠ .text "") flicker.rules (rulewiseFindings flicker) := by
  have hfindings : rulewise flicker = .ok (rulewiseFindings flicker) :=
    rulewise_ok_iff.mpr ⟨by decide +kernel, rfl⟩
  exact ⟨hfindings, by decide +kernel, rulewise_reports_clashes hfindings⟩

/-- Two rules on one tap, of which one shows and the other hides an object whose id is empty. -/
def blankCurtain : Game where
  layout := [⟨"", ⟨.thousandths 500, .thousandths 500⟩, .empty⟩]
  counters := []
  rules := [
    ⟨"open", .empty, .empty, tap, [.hide (.value "") .empty none, .success none .empty]⟩,
    ⟨"close", .empty, .empty, tap, [.reveal (.value "") .empty none]⟩,
    ⟨"late", .empty, .empty, .value ⟨"AND", [.time (.value "exact") (some 9) none]⟩,
      [.failure none .empty]⟩]
  objects := [⟨"", .empty, .empty, .empty, .empty, .empty⟩]
  sounds := []
  music := .empty
where
  tap : Slot Trigger := .value ⟨"AND", [.touch (.value "stage") (.value "down")]⟩

/-- An object without a name is no object for the check: a rule may show it while another one hides
it. -/
theorem blankCurtain_unreported :
    rulewise blankCurtain = .ok (rulewiseFindings blankCurtain) ∧
      IsClash Rule.Shows Rule.Hides blankCurtain.rules (0, 1, .text "") ∧
      ¬(ReportsEach .showHideConflict (IsClash Rule.Shows Rule.Hides blankCurtain.rules)
          blankCurtain.rules (rulewiseFindings blankCurtain) ∧
        ReportsEach .counterConflict (fun c => IsClash Rule.Raises Rule.Lowers blankCurtain.rules c ∧
          c.2.2 ≠ .text "") blankCurtain.rules (rulewiseFindings blankCurtain)) := by
  have hclash : IsClash Rule.Shows Rule.Hides blankCurtain.rules (0, 1, .text "") :=
    ⟨by decide, _, _, rfl, rfl, ⟨rfl, by decide +kernel⟩,
      .inr ⟨⟨_, List.mem_cons_self, _, rfl, rfl⟩, ⟨_, List.mem_cons_self, _, rfl, rfl⟩⟩⟩
  refine ⟨rulewise_ok_iff.mpr ⟨by decide +kernel, rfl⟩, hclash, ?_⟩
  rintro ⟨⟨clashes, -, hmem, hperm⟩, -⟩
  have hnone : (rulewiseFindings blankCurtain).filterMap (Finding.naming? .showHideConflict) = [] := by
    decide +kernel
  rw [hnone, List.nil_perm, List.map_eq_nil_iff] at hperm
  have hin : (0, 1, .text "") ∈ clashes := (hmem _).mpr hclash
  rw [hperm] at hin
  cases hin

end TouchGame
