import TouchGame.Proofs.Check.Resolution
import TouchGame.Proofs.Play.Stuck

/-!
# Games won at the start

The search for a way through a game may find that no move is needed at all. The check of a rule-set
looks for such games too, but only at rules without conditions and at counters, and of two counters
with one id it takes the first where the state of the game takes the last. So a game that is won at
the start is refused, unless everything that its winning rule waits for is overlooked: a flag that is
wanted off, as all flags are at the start, or a counter that is declared again at another value. Even
then the player has to be able to lose, or to change something that the rule waits for.

* `Advances` : a step of the search leaves the trail as it is, or makes a move.
* `meetAll_idle` : a search that makes no move met every condition where it started.
* `start_win_overlooked` : what an accepted game that is won at the start waits for.
-/

namespace TouchGame.Play

open Check

variable {g : Game} {w r : Rule} {settings : Settings} {t u : Trail} {c : Condition}

/-! ## Searching without a move -/

def Advances (t u : Trail) : Prop :=
  u = t ∨ t.latest.length < u.latest.length

namespace Advances

theorem of_touch {gesture : Gesture} {target result : String} {next : State}
    (h : Advances { t.touch gesture target result with state := next } u) :
    t.latest.length < u.latest.length := by
  have hmore : t.latest.length < (t.touch gesture target result).latest.length := Nat.lt_succ_self _
  rcases h with rfl | h
  · exact hmore
  · exact Nat.lt_trans hmore h

theorem fireTimes {plan : Plan} {object counter : String} {threshold : Number} {times : Nat}
    (hu : Play.fireTimes plan object counter threshold times t = .ok u) : Advances t u := by
  induction times generalizing t with
  | zero =>
    cases hu
    exact .inl rfl
  | succ times ih =>
    rw [Play.fireTimes] at hu
    split at hu
    · simp at hu
    · simp only [bind_ok_iff, attempt_ok] at hu
      obtain ⟨next, _, hu⟩ := hu
      right
      cases hout : next.outcome with
      | failure => simp [hout] at hu
      | success =>
        simp only [hout, pure_ok_iff] at hu
        exact of_touch (.inl hu.symm)
      | «open» =>
        simp only [hout] at hu
        exact of_touch (ih hu)

theorem bringCounter {counter : String} {comparison : Slot String} {value : Option Number}
    (hu : Play.bringCounter g t counter comparison value = .ok u) : Advances t u := by
  simp only [Play.bringCounter] at hu
  split at hu
  · simp at hu
  · simp only [bind_ok_iff, attempt_ok] at hu
    obtain ⟨distance, _, hu⟩ := hu
    split at hu
    · exact .inl (pure_ok_iff.mp hu).symm
    · rw [bind_ok_iff] at hu
      obtain ⟨plan, _, hu⟩ := hu
      split at hu
      · simp at hu
      · exact fireTimes hu

theorem firstSwitch {flag : String} {on : Bool} {rules : List Rule}
    (hu : Play.firstSwitch t flag on rules = .ok u) : t.latest.length < u.latest.length := by
  induction rules with
  | nil => simp [Play.firstSwitch] at hu
  | cons r rest ih =>
    simp only [Play.firstSwitch, bind_ok_iff, attempt_ok] at hu
    obtain ⟨next, _, hu⟩ := hu
    split at hu
    · exact ih hu
    · split at hu
      · exact ih hu
      · split at hu
        · simp at hu
        · exact of_touch (.inl (pure_ok_iff.mp hu).symm)

theorem bringFlag {flag : String} {on : Bool} (hu : Play.bringFlag g t flag on = .ok u) :
    Advances t u := by
  rw [Play.bringFlag] at hu
  split at hu
  · cases hu
    exact .inl rfl
  · exact .inr (firstSwitch hu)

/-- Whatever condition is to be met, the trail stays or has a move more. -/
theorem meet (hu : Play.meet g w t c = .ok u) : Advances t u := by
  unfold Play.meet at hu
  split at hu
  · split at hu
    · exact bringCounter hu
    · cases hu
      exact .inl rfl
  · split at hu
    · exact bringFlag hu
    · cases hu
      exact .inl rfl
  · simp only at hu
    split at hu
    · simp at hu
    · cases hu
      exact .inr (Nat.lt_succ_self _)
  · cases hu
    exact .inr (Nat.lt_succ_self _)
  · cases hu
    exact .inl rfl

theorem le (h : Advances t u) : t.latest.length ≤ u.latest.length := by
  rcases h with rfl | h
  · exact Nat.le_refl _
  · exact Nat.le_of_lt h

theorem eq_of_length (h : Advances t u) (hu : u.latest.length = t.latest.length) : u = t :=
  h.resolve_right (by omega)

end Advances

theorem meetAll_length {conditions : List Condition} (hu : meetAll g w conditions t = .ok u) :
    t.latest.length ≤ u.latest.length := by
  induction conditions generalizing t with
  | nil =>
    cases hu
    exact Nat.le_refl _
  | cons c rest ih =>
    simp only [meetAll, bind_ok_iff] at hu
    obtain ⟨next, hnext, hu⟩ := hu
    have hle := (Advances.meet hnext).le
    split at hu
    · rw [← pure_ok_iff.mp hu]
      exact hle
    · exact Nat.le_trans hle (ih hu)

/-- **A search that makes no move met every condition where it started.** -/
theorem meetAll_idle {conditions : List Condition} (hopen : t.state.outcome ≠ .success)
    (hu : meetAll g w conditions t = .ok u) (hidle : u.latest.length = t.latest.length) :
    u = t ∧ ∀ c ∈ conditions, meet g w t c = .ok t := by
  induction conditions with
  | nil =>
    cases hu
    exact ⟨rfl, by simp⟩
  | cons c rest ih =>
    simp only [meetAll, bind_ok_iff] at hu
    obtain ⟨next, hnext, hu⟩ := hu
    have hadvances := Advances.meet hnext
    have hsame : next.latest.length = t.latest.length := by
      split at hu
      · rw [pure_ok_iff.mp hu, hidle]
      · exact Nat.le_antisymm (hidle ▸ meetAll_length hu) hadvances.le
    obtain rfl := hadvances.eq_of_length hsame
    rw [if_neg (by simpa using hopen)] at hu
    obtain ⟨rfl, hrest⟩ := ih hu
    refine ⟨rfl, fun d hd => ?_⟩
    rcases List.mem_cons.mp hd with rfl | hd
    · exact hnext
    · exact hrest d hd

theorem wantsOff_of_idle {name flagState : Slot String} {flag : String} (hn : name.text? = some flag)
    (h : meet g w (.start (.initial g)) (.flag name flagState) = .ok (.start (.initial g))) :
    wantsOn flagState = false := by
  simp only [meet, hn, bringFlag] at h
  split at h
  · rename_i hoff
    exact (beq_iff_eq.mp hoff).symm
  · exact absurd (Advances.firstSwitch h) (Nat.lt_irrefl _)

/-! ## What an accepted rule-set does not have -/

theorem loud_critical {code : Code} {message fix : String} {location : Location} :
    ¬ ∀ f ∈ [Finding.critical code message fix location], f.isCritical = false :=
  fun h => Bool.noConfusion (h _ (List.mem_singleton_self _))

/-- The check of automatic outcomes lets a rule win that waits for nothing the player does: the player
can lose, or changes something that the rule waits for. -/
def Excused (g : Game) (w : Rule) : Prop :=
  (∃ r ∈ g.rulesThatMay "failure", r.gatedByPlayer .any = true) ∨
    ∃ c ∈ w.conditions, g.fedByPlayer .any c = true

/-- No check of a rule-set has anything critical to say. -/
structure Quiet (v : Vocabulary) (g : Game) : Prop where
  fieldwise : ∀ f ∈ fieldwise v g, f.isCritical = false
  rulewise : ∀ f ∈ rulewiseFindings g, f.isCritical = false

namespace Quiet

variable {v : Vocabulary} {findings : List Finding}

theorem of_accepts (h : validate v g = .ok findings) (haccepts : accepts findings = true) :
    Quiet v g := by
  obtain ⟨_, _, rfl⟩ := validate_ok_iff.mp h
  obtain ⟨hfieldwise, hrulewise⟩ := List.forall_mem_append.mp (accepts_iff.mp haccepts)
  exact ⟨hfieldwise, hrulewise⟩

theorem condition (h : Quiet v g) (hw : w ∈ g.rules) (hc : c ∈ w.conditions) :
    ∃ path, ∀ f ∈ Check.condition ⟨v, w⟩ path c, f.isCritical = false := by
  have hrules := h.fieldwise
  rw [Check.fieldwise, List.forall_mem_append] at hrules
  obtain ⟨index, hrule⟩ := forall_of_indexed hrules.2 hw
  rw [rule, List.forall_mem_append, List.forall_mem_append] at hrule
  obtain ⟨i, hi⟩ := forall_of_indexed hrule.1.2 hc
  exact ⟨_, hi⟩

theorem reference (h : Quiet v g) (hw : w ∈ g.rules) (hc : c ∈ w.conditions) :
    ∃ path, ∀ f ∈ conditionReferences g w path c, f.isCritical = false := by
  have hrules : ∀ f ∈ indexed (ruleReferences g) 0 g.rules, f.isCritical = false := fun f hf =>
    h.rulewise f (by simp [rulewiseFindings, references, hf])
  obtain ⟨index, hrule⟩ := forall_of_indexed hrules hw
  rw [ruleReferences, List.forall_mem_append, List.forall_mem_append] at hrule
  obtain ⟨i, hi⟩ := forall_of_indexed hrule.1.2 hc
  exact ⟨_, hi⟩

theorem start (h : Quiet v g) (hw : w ∈ g.rules) : bringsAtStart g instantWin w = false := by
  have hrules : ∀ f ∈ instantOutcomes g, f.isCritical = false := fun f hf =>
    h.rulewise f (by simp [rulewiseFindings, hf])
  obtain ⟨index, hrule⟩ := forall_of_indexed hrules hw
  rw [List.forall_mem_append] at hrule
  have hverdicts := verdicts_instantOutcome (g := g) index w instantWin
  rw [Bool.eq_false_iff]
  intro hbrings
  rw [if_pos hbrings] at hverdicts
  obtain ⟨f, hf, hverdict⟩ := List.mem_map.mp (hverdicts ▸ List.mem_singleton_self _)
  have hcritical : f.severity = .critical := congrArg Prod.fst hverdict
  have hnot := hrule.1 f hf
  rw [Finding.isCritical, hcritical] at hnot
  cases hnot

/-- A rule that wins by automatic conditions alone is excused. -/
theorem excused (h : Quiet v g) (hw : w ∈ g.rulesThatMay "success") (hwaits : w.conditions ≠ [])
    (hautomatic : ∀ c ∈ w.conditions, isAutomatic c = true) : Excused g w := by
  by_contra hnot
  rw [Excused, not_or] at hnot
  obtain ⟨hgated, hfed⟩ := hnot
  have hlosing : (g.rulesThatMay "failure").any (·.gatedByPlayer .any) = false :=
    Bool.eq_false_iff.mpr fun hany => hgated (List.any_eq_true.mp hany)
  have hall : (w.conditions.all fun c => isAutomatic c && !g.fedByPlayer .any c) = true := by
    rw [List.all_eq_true]
    intro c hc
    rw [hautomatic c hc, Bool.true_and, Bool.not_eq_true']
    exact Bool.eq_false_iff.mpr fun hc' => hfed ⟨c, hc, hc'⟩
  have hquiet : ∀ f ∈ automaticSuccess g w, f.isCritical = false := by
    intro f hf
    have hmem : f ∈ automaticOutcomes g := by
      simp only [automaticOutcomes, hlosing, Bool.false_eq_true, if_false]
      refine List.mem_append_left _ (List.mem_flatMap.mpr ⟨w, ?_, hf⟩)
      exact List.mem_filter.mpr ⟨hw, by simpa using hwaits⟩
    exact h.rulewise f (by simp [rulewiseFindings, hmem])
  rw [automaticSuccess, if_pos hall] at hquiet
  exact loud_critical hquiet

theorem needs (h : Quiet v g) (hw : w ∈ g.rules) (hmay : w.mayFire "success" = true)
    (hc : c ∈ w.conditions) : ∃ path, ∀ f ∈ successNeeds g w path c, f.isCritical = false := by
  have hrules : ∀ f ∈ successReachability g, f.isCritical = false := fun f hf =>
    h.rulewise f (by simp [rulewiseFindings, hf])
  obtain ⟨index, hrule⟩ := forall_of_indexed hrules hw
  rw [if_pos hmay] at hrule
  obtain ⟨i, hi⟩ := forall_of_indexed hrule hc
  exact ⟨_, hi⟩

end Quiet

/-- A field of an accepted rule that has to name a counter names one that is declared. -/
theorem declared_of_counterField {name : Slot String} {path : Path} (hname : name.textOr "" ≠ "")
    (h : ∀ f ∈ counterField g w name path, f.isCritical = false) :
    ∃ id first, name.text? = some id ∧ g.counter? id = some first := by
  cases name with
  | empty => exact absurd rfl hname
  | number n => exact absurd h loud_critical
  | value id =>
    have hid : id.isEmpty = false := by
      rw [Bool.eq_false_iff]
      intro hempty
      exact hname (if_pos hempty)
    simp only [counterField, Slot.name?, hid, Bool.false_eq_true, if_false] at h
    have hknown : isAmong g.counterIds (.text id) = true := by
      by_contra hunknown
      rw [if_neg hunknown] at h
      exact loud_critical h
    obtain ⟨first, hfirst⟩ : ∃ first, g.counter? id = some first := by
      obtain ⟨_, hdeclared, hsame⟩ := isAmong_iff.mp hknown
      cases hsame
      obtain ⟨c, hc, rfl⟩ := List.mem_map.mp hdeclared
      exact Option.isSome_iff_exists.mp (List.find?_isSome.mpr ⟨c, hc, beq_self_eq_true _⟩)
    exact ⟨id, first, by simp [Slot.text?, hid], hfirst⟩

/-- A counter condition without a critical finding names a counter that is declared, and says what to
compare it with. -/
theorem counter_known {name comparison : Slot String} {value : Option Number} {path path' : Path}
    (hfields : ∀ f ∈ condition ⟨.editor, w⟩ path (.counter name comparison value), f.isCritical = false)
    (hrefers : ∀ f ∈ conditionReferences g w path' (.counter name comparison value),
      f.isCritical = false) :
    ∃ id n first, name.text? = some id ∧ value = some n ∧ g.counter? id = some first := by
  have hown : ∀ f ∈ conditionFields ⟨.editor, w⟩ path (.counter name comparison value),
      f.isCritical = false := fun f hf => hfields f (List.mem_append_right _ hf)
  simp only [conditionFields, plainConditionFields, List.forall_mem_append] at hown
  obtain ⟨hnamed, hvalued⟩ := hown
  have hname : name.textOr "" ≠ "" := by
    intro hempty
    rw [if_pos (beq_iff_eq.mpr hempty)] at hnamed
    exact loud_critical hnamed
  obtain ⟨n, rfl⟩ : ∃ n, value = some n := by
    cases value with
    | some n => exact ⟨n, rfl⟩
    | none => exact absurd hvalued loud_critical
  obtain ⟨id, first, hid, hfirst⟩ := declared_of_counterField hname hrefers
  exact ⟨id, n, first, hid, rfl, hfirst⟩

theorem flag_named {name flagState : Slot String} {path : Path}
    (h : ∀ f ∈ condition ⟨.editor, w⟩ path (.flag name flagState), f.isCritical = false) :
    ∃ flag, name.name? = some flag := by
  have hown : ∀ f ∈ conditionFields ⟨.editor, w⟩ path (.flag name flagState), f.isCritical = false :=
    fun f hf => h f (List.mem_append_right _ hf)
  simp only [conditionFields, plainConditionFields] at hown
  split at hown
  · exact absurd hown loud_critical
  · rename_i hname
    cases name with
    | empty => exact absurd rfl hname
    | number n => exact ⟨.number n, rfl⟩
    | value text =>
      cases hempty : text.isEmpty with
      | true => exact absurd (by simp [Slot.textOr, hempty]) hname
      | false => exact ⟨.text text, by simp [Slot.name?, hempty]⟩

theorem counter_written {name comparison : Slot String} {value : Option Number} {id : String}
    {path : Path} (h : ∀ f ∈ successNeeds g w path (.counter name comparison value), f.isCritical = false)
    (hid : name.text? = some id) : g.counterWriters (.text id) ≠ [] := by
  intro hnone
  simp only [successNeeds, Repair.name?_of_text? hid, hnone, List.isEmpty_nil, if_true] at h
  exact loud_critical h

theorem flag_written {name flagState : Slot String} {flag : Name} {path : Path}
    (h : ∀ f ∈ successNeeds g w path (.flag name flagState), f.isCritical = false)
    (hflag : name.name? = some flag) : g.flagWriters flag ≠ [] := by
  intro hnone
  simp only [successNeeds, hflag, hnone, List.isEmpty_nil, if_true] at h
  exact loud_critical h

/-! ## What is overlooked -/

/-- A condition that the checks of the start overlook: a flag that some rule changes and that is not
wanted on, or a counter that some rule changes and that meets its threshold by its last declaration
though not by its first. -/
inductive Overlooked (g : Game) : Condition → Prop
  | flag {name flagState : Slot String} {flag : Name} (named : name.name? = some flag)
      (written : g.flagWriters flag ≠ [])
      (off : ∀ text, name.text? = some text → wantsOn flagState = false) :
      Overlooked g (.flag name flagState)
  | counter {name comparison : Slot String} {id : String} {compare : Comparison} {threshold : Number}
      {first last : Counter} (named : name.text? = some id)
      (written : g.counterWriters (.text id) ≠ [])
      (compares : Comparison.ofName? (comparison.textOr Comparison.defaultName) = some compare)
      (checked : g.counter? id = some first) (misses : compare.holds first.initialValue threshold = false)
      (played : lastCounter? g id = some last) (meets : compare.holds last.initialValue threshold = true) :
      Overlooked g (.counter name comparison (some threshold))

/-- Whether a condition is about a counter or a flag. -/
def readsState : Condition → Bool
  | .counter .. | .flag .. => true
  | _ => false

theorem isAutomatic_of_readsState (h : readsState c = true) : isAutomatic c = true := by
  cases c with
  | counter | flag => rfl
  | _ => cases h

theorem lastCounter?_of_counter? {id : String} {first : Counter} (h : g.counter? id = some first) :
    ∃ last, lastCounter? g id = some last ∧ (State.initial g).counter id = last.initialValue := by
  have hfirst : first ∈ g.counters.reverse := List.mem_reverse.mpr (List.mem_of_find?_eq_some h)
  have hid : (first.id == id) = true := by simpa using List.find?_some h
  obtain ⟨last, hlast⟩ : ∃ last, lastCounter? g id = some last :=
    Option.isSome_iff_exists.mp (List.find?_isSome.mpr ⟨first, hfirst, hid⟩)
  refine ⟨last, hlast, ?_⟩
  rw [initial_counter, hlast]
  rfl

theorem overlooked_counter {name comparison : Slot String} {value : Option Number} {id : String}
    {n : Number} {first : Counter} (hid : name.text? = some id) (hvalue : value = some n)
    (hfirst : g.counter? id = some first) (hwritten : g.counterWriters (.text id) ≠ [])
    (hstart : holdsAtStart? g instantWin.covers (.counter name comparison value) = none)
    (hholds : counterHolds (State.initial g) id comparison value = true) :
    Overlooked g (.counter name comparison value) := by
  subst hvalue
  obtain ⟨last, hlast, hinitial⟩ := lastCounter?_of_counter? hfirst
  rw [counterHolds, hinitial] at hholds
  split at hholds
  · rename_i compare hcompare
    refine .counter hid hwritten hcompare hfirst ?_ hlast hholds
    by_contra hmisses
    rw [Bool.not_eq_false] at hmisses
    simp [holdsAtStart?, hid, hfirst, hcompare, hmisses, instantWin] at hstart
  · cases hholds

theorem trailFor_meetAll {driven : List Condition} (h : trailFor g w driven = .ok t) :
    meetAll g w driven (.start (.initial g)) = .ok t := by
  simp only [trailFor, bind_ok_iff] at h
  obtain ⟨u, hu, h⟩ := h
  split at h
  · simp at h
  · rw [← pure_ok_iff.mp h]
    exact hu

theorem Drives.subset {driven : List Condition} (h : Drives w driven) :
    ∀ c ∈ driven, c ∈ w.conditions := by
  rw [Drives] at h
  split at h
  · obtain ⟨c, hc, rfl⟩ := h
    simpa using hc
  · rw [h]
    exact fun _ hc => hc

theorem Drives.ne_nil {driven : List Condition} (h : Drives w driven) (hw : w.conditions ≠ []) :
    driven ≠ [] := by
  rw [Drives] at h
  split at h
  · obtain ⟨c, _, rfl⟩ := h
    exact List.cons_ne_nil c []
  · rwa [h]

theorem mayFire_of_fires {type : String} (h : r.fires type = true) : r.mayFire type = true := by
  obtain ⟨a, ha, hkind⟩ := List.any_eq_true.mp h
  exact List.any_eq_true.mpr ⟨a, List.mem_flatMap.mpr ⟨a, ha, List.mem_cons_self⟩, hkind⟩

/-- **What an accepted game that is won at the start waits for.** If the search finds that no move is
needed, the rules that win wait for counters and flags only, and the check of the rule-set has
nothing critical to say, then the rule that wins does wait for something, the player can lose or
changes something that it waits for, and all that is driven for it is overlooked. -/
theorem start_win_overlooked {report : Report} {walk : Walk} {findings : List Finding}
    (h : explore settings g = .ok report) (hr : report.prospect = .reachable walk)
    (hidle : walk.moves = [])
    (hplain : ∀ w ∈ g.rulesFiring "success", ∀ c ∈ w.conditions, readsState c = true)
    (hv : validate .editor g = .ok findings) (haccepts : accepts findings = true) :
    ∃ w ∈ g.rulesFiring "success", reach settings g w = .ok walk ∧ Excused g w ∧
      ∃ driven, Drives w driven ∧ driven ≠ [] ∧ ∀ c ∈ driven, Overlooked g c := by
  have hp := explore_prospect h
  rw [hr] at hp
  obtain ⟨before, w, after, hrules, _, hreach⟩ := prospect_reachable hp
  have hwins : w ∈ g.rulesFiring "success" := by simp [hrules]
  obtain ⟨hw, hfires⟩ := List.mem_filter.mp hwins
  obtain ⟨driven, hdrives, t, htrail, hwalk⟩ := reach_ok hreach
  -- no move was made, so the search is still where it started
  have hlatest : t.latest = [] := by
    rw [← List.reverse_eq_nil_iff, ← (walk_moves hwalk).1, hidle]
  obtain ⟨rfl, hmet⟩ := meetAll_idle Outcome.noConfusion (trailFor_meetAll htrail) (by rw [hlatest]; rfl)
  have hholds := (trailFor_retraced htrail).2
  -- the check of the start saw neither an empty list of conditions nor a counter that holds
  have hquiet := Quiet.of_accepts hv haccepts
  have hmay := mayFire_of_fires hfires
  have hstart := hquiet.start hw
  rw [bringsAtStart, show instantWin.type = "success" from rfl, hmay, Bool.true_and,
    Bool.or_eq_false_iff, List.any_eq_false] at hstart
  obtain ⟨hnonempty, hnone⟩ := hstart
  have hconditions : w.conditions ≠ [] := by simpa using hnonempty
  have hexcused : Excused g w := hquiet.excused (List.mem_filter.mpr ⟨hw, hmay⟩) hconditions
    fun c hc => isAutomatic_of_readsState (hplain w hwins c hc)
  refine ⟨w, hwins, hreach, hexcused, driven, hdrives, hdrives.ne_nil hconditions, fun c hc => ?_⟩
  have hwaits := hdrives.subset c hc
  obtain ⟨_, hfields⟩ := hquiet.condition hw hwaits
  obtain ⟨_, hneeds⟩ := hquiet.needs hw hmay hwaits
  cases c with
  | counter name comparison value =>
    obtain ⟨_, hrefers⟩ := hquiet.reference hw hwaits
    obtain ⟨id, n, first, hid, hvalue, hfirst⟩ := counter_known hfields hrefers
    exact overlooked_counter hid hvalue hfirst (counter_written hneeds hid)
      (by simpa using hnone _ hwaits) (hholds _ _ _ id hc hid)
  | flag name flagState =>
    obtain ⟨flag, hflag⟩ := flag_named hfields
    exact .flag hflag (flag_written hneeds hflag) fun text hn => wantsOff_of_idle hn (hmet _ hc)
  | _ => exact absurd (hplain w hwins _ hwaits) Bool.false_ne_true

/-- No move at all. -/
def noMoves : Walk := ⟨[], 0, .thousandths 0⟩

/-- A game about a vase that is won as long as the vase is whole, and lost by a touch. -/
def wholeVase : Game where
  layout := [⟨"vase", ⟨.thousandths 500, .thousandths 500⟩, .empty⟩]
  counters := []
  rules := [
    ⟨"drop", .empty, .value "vase", .value ⟨"AND", [.touch .empty (.value "down")]⟩,
      [.setFlag (.value "broken") (.value true), .failure none .empty]⟩,
    ⟨"win", .empty, .empty, .value ⟨"AND", [.flag (.value "broken") (.value "OFF")]⟩,
      [.success none .empty]⟩]
  objects := [⟨"vase", .empty, .empty, .empty, .empty, .empty⟩]
  sounds := []
  music := .empty

/-- A game whose score is declared twice: by its last declaration it is won already. -/
def doubleScore : Game where
  layout := [⟨"star", ⟨.thousandths 500, .thousandths 500⟩, .empty⟩]
  counters := [⟨"score", .empty, 0⟩, ⟨"score", .empty, 5⟩]
  rules := [
    ⟨"tap", .empty, .value "star", .value ⟨"AND", [.touch .empty (.value "down")]⟩,
      [.counter (.value "score") (.value "increment") none]⟩,
    ⟨"win", .empty, .empty,
      .value ⟨"AND", [.counter (.value "score") (.value "greaterOrEqual") (some 5)]⟩,
      [.success none .empty]⟩]
  objects := [⟨"star", .empty, .empty, .empty, .empty, .empty⟩]
  sounds := []
  music := .empty

/-- A game is accepted although it is won at the start. -/
def AcceptedWon (g : Game) : Prop :=
  (∃ report, explore .standard g = .ok report ∧ report.prospect = .reachable noMoves) ∧
    (∀ w ∈ g.rulesFiring "success", ∀ c ∈ w.conditions, readsState c = true) ∧
    ∃ findings, validate .editor g = .ok findings ∧ accepts findings = true

theorem acceptedWon_of_run
    (hplay : (explore .standard g).toOption.map (·.prospect) = some (.reachable noMoves))
    (hplain : ((g.rulesFiring "success").all fun w => w.conditions.all readsState) = true)
    (hcheck : (validate .editor g).toOption.map accepts = some true) : AcceptedWon g := by
  obtain ⟨report, h, hr⟩ := Option.map_eq_some_iff.mp hplay
  obtain ⟨findings, hv, haccepts⟩ := Option.map_eq_some_iff.mp hcheck
  simp only [List.all_eq_true] at hplain
  exact ⟨⟨report, toOption_some_iff.mp h, hr⟩, hplain, findings, toOption_some_iff.mp hv, haccepts⟩

theorem wholeVase_accepted : AcceptedWon wholeVase :=
  acceptedWon_of_run (by decide +kernel) rfl (by decide +kernel)

theorem start_win_overlooked_wholeVase :
    AcceptedWon wholeVase ∧ ∃ w ∈ wholeVase.rulesFiring "success",
      reach .standard wholeVase w = .ok noMoves ∧ Excused wholeVase w ∧
      ∃ driven, Drives w driven ∧ driven ≠ [] ∧ ∀ c ∈ driven, Overlooked wholeVase c := by
  obtain ⟨⟨report, h, hr⟩, hplain, findings, hv, haccepts⟩ := wholeVase_accepted
  exact ⟨wholeVase_accepted, start_win_overlooked h hr rfl hplain hv haccepts⟩

/-- A flag that is wanted off and a counter that is declared twice each let a game pass that is won at
the start. -/
theorem start_win_accepted : AcceptedWon wholeVase ∧ AcceptedWon doubleScore :=
  ⟨wholeVase_accepted, acceptedWon_of_run (by decide +kernel) rfl (by decide +kernel)⟩

end TouchGame.Play
