import Mathlib.Data.List.Nodup
import TouchGame.Proofs.Check.References
import TouchGame.Proofs.Play.Recheck
import TouchGame.Proofs.Repair.Semantics

/-!
# Stuck counters

A counter that no action changes keeps its initial value along every walk. If each rule that wins
waits for another value of it, the game cannot be won, and both the check between rules and the
search for a way through the game say so: the one reports a counter that is checked but never
changed, the other one names it among what stands in the way.

* `initial_counter` : what a counter holds at the start.
* `Replay.counter_kept` : a counter that no action changes is the same in every state of a replay.
* `not_reachable_of_stuck` : no walk meets what waits for another value.
* `stuck_reported` : both reports name the counter.
-/

namespace TouchGame.Play

variable {g : Game} {w r : Rule} {driven : List Condition} {settings : Settings} {s u : State}
  {a : Action} {id : String}

/-! ## The start -/

def lastCounter? (g : Game) (id : String) : Option Counter :=
  g.counters.reverse.find? (·.id == id)

theorem get?_counters (counters : List Counter) (table : Table Number) :
    (counters.foldl (fun table c => table.put c.id c.initialValue) table).get? id =
      ((counters.reverse.find? (·.id == id)).map (·.initialValue)).or (table.get? id) := by
  induction counters generalizing table with
  | nil => rfl
  | cons c rest ih =>
    rw [List.foldl_cons, ih, get?_put, List.reverse_cons, List.find?_append]
    cases rest.reverse.find? (·.id == id) with
    | some d => rfl
    | none =>
      by_cases hc : id = c.id
      · simp [hc]
      · simp [hc, Ne.symm hc]

theorem initial_counter (g : Game) (id : String) :
    (State.initial g).counter id = ((lastCounter? g id).map (·.initialValue)).getD 0 := by
  rw [State.counter, State.initial, get?_counters, Table.get?, List.lookup_nil, Option.or_none,
    lastCounter?]

theorem initial_counter_of_nodup {c : Counter} (hdistinct : (g.counters.map (·.id)).Nodup)
    (hc : c ∈ g.counters) : (State.initial g).counter c.id = c.initialValue := by
  rw [initial_counter]
  cases hfind : lastCounter? g c.id with
  | none =>
    rw [lastCounter?, List.find?_eq_none] at hfind
    exact absurd (beq_self_eq_true c.id) (hfind c (List.mem_reverse.mpr hc))
  | some d =>
    have hd : d ∈ g.counters := List.mem_reverse.mp (List.mem_of_find?_eq_some hfind)
    have hid : d.id = c.id := by simpa using List.find?_some hfind
    rw [List.inj_on_of_nodup_map hdistinct hd hc hid]
    rfl

/-! ## Counters that nothing changes -/

/-- No action of a rule-set, picks included, changes a counter. -/
def Unwritten (g : Game) (id : String) : Prop :=
  ∀ r ∈ g.rules, ∀ a ∈ r.allActions, a.counterName? ≠ some (.text id)

theorem changeOf?_eq_some {change : Number} (h : changeOf? id a = some change) :
    ∃ operation value, a = .counter (.value id) operation value ∧
      counterChange? operation value = some change := by
  unfold changeOf? at h
  split at h
  · rename_i name operation value
    split at h
    · rename_i hname
      exact ⟨operation, value, by rw [beq_iff_eq.mp hname], h⟩
    · cases h
  · cases h

theorem settingOf?_eq_some {setting : Number} (h : settingOf? id a = some setting) :
    ∃ value, a = .counter (.value id) (.value "set") value ∧ value.getD 0 = setting := by
  unfold settingOf? at h
  split at h
  · rename_i name value
    split at h
    · rename_i hname
      exact ⟨value, by rw [beq_iff_eq.mp hname], Option.some.inj h⟩
    · cases h
  · cases h

theorem counter_setCounter (s : State) (name id : String) (value : Number) :
    (s.setCounter name value).counter id = if id = name then value else s.counter id := by
  simp only [State.counter, State.setCounter, get?_put]
  split <;> rfl

theorem counter_operate {name : String} {operation : Slot String} {value : Option Number}
    (hid : id ≠ name) (h : s.operate name operation value = .ok u) : u.counter id = s.counter id := by
  simp only [State.operate] at h
  split at h
  · cases h
    rw [counter_setCounter, if_neg hid]
  · split at h
    · simp only [bind_ok_iff, pure_ok_iff] at h
      obtain ⟨_, _, rfl⟩ := h
      rw [counter_setCounter, if_neg hid]
    · cases h
      rfl

theorem counter_finish (s : State) (outcome : Outcome) :
    (s.finish outcome).counter id = s.counter id := by
  unfold State.finish
  split <;> rfl

/-- An action on anything else keeps a counter. -/
theorem counter_after (ha : a.counterName? ≠ some (.text id)) (h : State.after r s a = .ok u) :
    u.counter id = s.counter id := by
  cases a with
  | counter name operation value =>
    simp only [State.after] at h
    split at h
    · rename_i named hn
      refine counter_operate ?_ h
      rintro rfl
      exact ha (Repair.name?_of_text? hn)
    · cases h
      rfl
  | success =>
    cases h
    exact counter_finish ..
  | failure =>
    cases h
    exact counter_finish ..
  | unknown type extras =>
    simp only [State.after] at h
    split at h
    · cases h
    · cases h
      rfl
  | hide =>
    cases h
    split <;> rfl
  | reveal =>
    cases h
    split <;> rfl
  | setFlag =>
    cases h
    split <;> rfl
  | toggleFlag =>
    cases h
    split <;> rfl
  | _ =>
    cases h
    rfl

theorem counter_fire (hr : ∀ a ∈ r.actions, a.counterName? ≠ some (.text id))
    (h : s.fire r = .ok u) : u.counter id = s.counter id :=
  foldlM_keeps (fun a ha _ _ hnext => counter_after (hr a ha) hnext) h

theorem counter_of_fired (hid : Unwritten g id) {fired : List Rule} (hfired : ∀ r ∈ fired, r ∈ g.rules)
    (h : fired.foldlM State.fire s = .ok u) : u.counter id = s.counter id := by
  refine foldlM_keeps (fun r hr _ _ hnext => counter_fire (fun a ha => ?_) hnext) h
  exact hid r (hfired r hr) a (List.mem_flatMap.mpr ⟨a, ha, List.mem_cons_self⟩)

theorem mem_of_follows {m : Move} (h : Follows g w driven s m (some r) u) : r ∈ g.rules := by
  cases h with
  | fire member handle inSight fires => exact member

namespace Replay

variable {moves : List Move} {fired : List (Option Rule)} {states : List State}

theorem mem_of_fired (h : Replay g w driven moves fired states) (hr : some r ∈ fired) :
    r ∈ g.rules := by
  obtain ⟨i, hfired⟩ := List.getElem?_of_mem hr
  have hi : i < moves.length := h.paired ▸ (List.getElem?_eq_some_iff.mp hfired).1
  obtain ⟨s, m, r?, next, _, _, hr?, _, hfollows⟩ := h.at_move hi
  obtain rfl := Option.some.inj (hfired.symm.trans hr?)
  exact mem_of_follows hfollows

/-- **A counter that no action changes is the same in every state of a replay.** -/
theorem counter_kept (hid : Unwritten g id) (h : Replay g w driven moves fired states)
    (hs : s ∈ states) : s.counter id = (State.initial g).counter id := by
  obtain ⟨i, hi⟩ := List.getElem?_of_mem hs
  refine counter_of_fired hid ?_ (h.state hi)
  intro r hr
  exact h.mem_of_fired (List.mem_of_mem_take (List.reduceOption_mem_iff.mp hr))

end Replay

/-! ## Waiting in vain -/

/-- A rule waits in vain for a counter that holds a value: all of its conditions have to hold, and one
of them compares the counter in a way that is not supported or does not hold. -/
def WaitsInVain (w : Rule) (id : String) (value : Number) : Prop :=
  isChoice w = false ∧ ∃ comparison threshold, .counter (.value id) comparison threshold ∈ w.conditions ∧
    ∀ compare, Comparison.ofName? (comparison.textOr Comparison.defaultName) = some compare →
      compare.holds value (thresholdOf threshold) = false

theorem text?_value (hid : id ≠ "") : (Slot.value id).text? = some id := by
  simp [Slot.text?, hid]

theorem WaitsInVain.not_countersHold {value : Number} (h : WaitsInVain w id value) (hid : id ≠ "")
    (hs : s.counter id = value) : ¬ CountersHold w.conditions s := by
  obtain ⟨_, comparison, threshold, hc, hvain⟩ := h
  intro hall
  have hholds := hall _ _ _ id hc (text?_value hid)
  rw [counterHolds, hs] at hholds
  split at hholds
  · rename_i compare hname
    rw [hvain compare hname] at hholds
    cases hholds
  · cases hholds

theorem WaitsInVain.not_reach {walk : Walk} (hid : id ≠ "") (hunwritten : Unwritten g id)
    (h : WaitsInVain w id ((State.initial g).counter id)) : reach settings g w ≠ .ok walk := by
  intro hreach
  obtain ⟨driven, hdrives, t, htrail, _⟩ := reach_ok hreach
  rw [Drives, if_neg (by simp [h.1])] at hdrives
  subst hdrives
  obtain ⟨⟨fired, states, hreplay, hlast, _⟩, hcounters⟩ := trailFor_retraced htrail
  have hkept := hreplay.counter_kept hunwritten (List.mem_of_getLast? hlast)
  exact h.not_countersHold hid hkept hcounters

theorem not_reachable_of_stuck {found : Prospect} (hid : id ≠ "") (hunwritten : Unwritten g id)
    (hvain : ∀ w ∈ g.rulesFiring "success", WaitsInVain w id ((State.initial g).counter id))
    (h : prospect settings g = .ok found) : ∃ reasons, found = .blocked reasons := by
  cases found with
  | blocked reasons => exact ⟨reasons, rfl⟩
  | reachable walk =>
    obtain ⟨before, w, after, hrules, _, hreach⟩ := prospect_reachable h
    have hw : w ∈ g.rulesFiring "success" := by simp [hrules]
    exact absurd hreach ((hvain w hw).not_reach hid hunwritten)

/-! ## What stands in the way -/

theorem counterWriters_eq_nil_iff : g.counterWriters (.text id) = [] ↔ Unwritten g id := by
  simp [Game.counterWriters, Unwritten, List.filter_eq_nil_iff]

theorem lacking_unwritten {comparison : Slot String} {threshold : Option Number}
    {lacks : List Blocker} (hid : id ≠ "") (hunwritten : Unwritten g id)
    (h : lacking g w (.counter (.value id) comparison threshold) = .ok lacks) :
    .unwrittenCounter id ∈ lacks := by
  simp only [lacking, text?_value hid, bind_ok_iff, pure_ok_iff] at h
  obtain ⟨_, _, rfl⟩ := h
  simp [counterWriters_eq_nil_iff.mpr hunwritten]

theorem allLacking_mem {winning : List Rule} {lacks : List Blocker} {c : Condition} {b : Blocker}
    (h : allLacking g winning = .ok lacks) (hw : w ∈ winning) (hc : c ∈ w.conditions)
    (hb : ∀ own, lacking g w c = .ok own → b ∈ own) : b ∈ lacks := by
  simp only [allLacking, bind_ok_iff, pure_ok_iff] at h
  obtain ⟨perRule, hrules, rfl⟩ := h
  obtain ⟨ofRule, hofRule, hlacks⟩ := mem_of_mapM_ok hrules hw
  simp only [bind_ok_iff, pure_ok_iff] at hlacks
  obtain ⟨perCondition, hconditions, rfl⟩ := hlacks
  obtain ⟨ofCondition, hofCondition, hlacks⟩ := mem_of_mapM_ok hconditions hc
  refine List.mem_flatten.mpr ⟨_, hofRule, ?_⟩
  exact List.mem_flatten.mpr ⟨_, hofCondition, hb _ hlacks⟩

theorem lacks_of_blocked {reasons : List String} (h : prospect settings g = .ok (.blocked reasons))
    (hwinning : g.rulesFiring "success" ≠ []) :
    ∃ lacks, allLacking g (g.rulesFiring "success") = .ok lacks ∧
      ∀ b ∈ lacks, b.message ∈ reasons := by
  rw [prospect] at h
  split at h
  · contradiction
  · rw [bind_ok_iff] at h
    obtain ⟨found, _, h⟩ := h
    cases found with
    | ok walk => cases h
    | error why =>
      rw [bind_ok_iff] at h
      obtain ⟨lacks, hlacks, h⟩ := h
      cases h
      refine ⟨lacks, hlacks, fun b hb => ?_⟩
      rw [List.mem_eraseDups]
      exact List.mem_append_left _ (List.mem_map_of_mem hb)

theorem counterUses_critical {c : Counter} {q : Condition} (hc : c ∈ g.counters) (hr : r ∈ g.rules)
    (hq : q ∈ r.conditions) (hreads : q.counterName? = some (.text c.id))
    (hunwritten : Unwritten g c.id) :
    ∃ f ∈ Check.counterUses g, f.isCritical = true ∧ f.label = .listed .counterNeverModified ∧
      f.location.subject = some c.id := by
  have hreader : r ∈ g.counterReaders c.id := by
    refine List.mem_filter.mpr ⟨hr, List.any_eq_true.mpr ⟨q, hq, ?_⟩⟩
    rw [hreads]
    exact beq_self_eq_true _
  obtain ⟨index, hmem⟩ := Check.indexed_mem (Check.counterUsage g) 0 hc
  obtain ⟨reader, readers, hreaders⟩ := List.exists_cons_of_ne_nil (List.ne_nil_of_mem hreader)
  rw [Check.counterUsage, hreaders, counterWriters_eq_nil_iff.mpr hunwritten] at hmem
  exact ⟨_, hmem _ (List.mem_singleton_self _), rfl, rfl, rfl⟩

/-- **A stuck counter is reported twice.** If no action changes a counter and every rule that wins
waits in vain for it at its initial value, then the check between rules reports it as checked but
never changed, and the search reports that the game cannot be won and names the counter. -/
theorem stuck_reported {c : Counter} (hdistinct : (g.counters.map (·.id)).Nodup)
    (hwinning : g.rulesFiring "success" ≠ []) (hc : c ∈ g.counters) (hid : c.id ≠ "")
    (hunwritten : Unwritten g c.id)
    (hvain : ∀ w ∈ g.rulesFiring "success", WaitsInVain w c.id c.initialValue) :
    (∀ findings, Check.rulewise g = .ok findings →
      ∃ f ∈ findings, f.isCritical = true ∧ f.label = .listed .counterNeverModified ∧
        f.location.subject = some c.id) ∧
    ∀ settings report, explore settings g = .ok report →
      ∃ reasons, report.prospect = .blocked reasons ∧
        (Blocker.unwrittenCounter c.id).message ∈ reasons := by
  obtain ⟨w, hw⟩ := List.exists_mem_of_ne_nil _ hwinning
  obtain ⟨_, comparison, threshold, hwaits, _⟩ := hvain w hw
  constructor
  · intro findings h
    obtain ⟨_, rfl⟩ := Check.rulewise_ok_iff.mp h
    obtain ⟨f, hf, hfinding⟩ := counterUses_critical hc (List.mem_filter.mp hw).1 hwaits
      (Repair.name?_of_text? (text?_value hid)) hunwritten
    refine ⟨f, ?_, hfinding⟩
    simp only [Check.rulewiseFindings, List.mem_append]
    exact .inl (.inr hf)
  · intro settings report h
    have hp := explore_prospect h
    rw [← initial_counter_of_nodup hdistinct hc] at hvain
    obtain ⟨reasons, hblocked⟩ := not_reachable_of_stuck hid hunwritten hvain hp
    rw [hblocked] at hp
    obtain ⟨lacks, hlacks, htold⟩ := lacks_of_blocked hp hwinning
    refine ⟨reasons, hblocked, htold _ ?_⟩
    exact allLacking_mem hlacks hw hwaits fun _ => lacking_unwritten hid hunwritten

/-- A rule that wins behind a lock that opens at three keys. -/
def lockedWin : Rule :=
  ⟨"win", .empty, .empty,
    .value ⟨"AND", [.flag (.value "found") (.value "ON"),
      .counter (.value "keys") (.value "greaterOrEqual") (some 3)]⟩,
    [.success none .empty]⟩

/-- A game whose keys are never counted: a tap only notes that one was found. -/
def lostKeys : Game where
  layout := [⟨"chest", ⟨.thousandths 500, .thousandths 500⟩, .empty⟩]
  counters := [⟨"keys", .empty, 0⟩]
  rules := [
    ⟨"open", .empty, .value "chest", .value ⟨"AND", [.touch .empty (.value "down")]⟩,
      [.setFlag (.value "found") (.value true)]⟩,
    lockedWin]
  objects := [⟨"chest", .empty, .empty, .empty, .empty, .empty⟩]
  sounds := []
  music := .empty

theorem lockedWin_waits : ∀ w ∈ lostKeys.rulesFiring "success", WaitsInVain w "keys" 0 := by
  intro w hw
  rw [show lostKeys.rulesFiring "success" = [lockedWin] from rfl, List.mem_singleton] at hw
  subst hw
  refine ⟨rfl, .value "greaterOrEqual", some 3, by simp [lockedWin, Rule.conditions, Slot.get?], ?_⟩
  intro compare hname
  cases hname
  decide +kernel

theorem stuck_reported_lostKeys :
    (∃ findings, Check.rulewise lostKeys = .ok findings ∧
      ∃ f ∈ findings, f.isCritical = true ∧ f.label = .listed .counterNeverModified ∧
        f.location.subject = some "keys") ∧
    ∃ report, explore .standard lostKeys = .ok report ∧
      ∃ reasons, report.prospect = .blocked reasons ∧
        (Blocker.unwrittenCounter "keys").message ∈ reasons := by
  obtain ⟨hchecked, hplayed⟩ := stuck_reported (g := lostKeys) (c := ⟨"keys", .empty, 0⟩)
    (List.nodup_singleton "keys") (List.cons_ne_nil lockedWin []) List.mem_cons_self (by decide)
    (counterWriters_eq_nil_iff.mp rfl) lockedWin_waits
  have hfound : (explore .standard lostKeys).toOption.isSome := by decide +kernel
  obtain ⟨report, hreport⟩ := Option.isSome_iff_exists.mp hfound
  have h := toOption_some_iff.mp hreport
  have hfindings : Check.rulewise lostKeys = .ok (Check.rulewiseFindings lostKeys) :=
    Check.rulewise_ok_iff.mpr ⟨(Check.rulewiseFault?_of_texts (by decide +kernel)).trans rfl, rfl⟩
  exact ⟨⟨_, hfindings, hchecked _ hfindings⟩, report, h, hplayed _ report h⟩

end TouchGame.Play
