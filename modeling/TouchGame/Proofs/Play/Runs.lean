import Mathlib.Data.List.Lattice
import TouchGame.Proofs.Play.Stuck
import TouchGame.Proofs.Reordering.Conflicts

/-!
# Runs of rules

Whatever rules fire, in whatever order and however often, a state stays a state of the game. An object
is visible or hidden and never both, and one that has been either stays one of them. The first action
that ends the game decides how it ends. Counters and flags that no action is about are left alone.
Firing fails only where a number cannot be calculated.

* `State.Sided`, `State.Places` : the objects of a state, each on one side.
* `endOf` : how actions end a game.
* `Leads` : what one action, and so any run of actions, keeps; `run_leads` : all of it for fired rules.
* `run_invariants` : what holds at the end of a run from the start of a game, and at every moment of it.
-/

namespace TouchGame.Play

variable {g : Game} {r : Rule} {s u next : State} {a : Action} {xs ys : List Action}
  {object other : String}

/-! ## Sides -/

namespace State

/-- Every object is listed once, as visible or as hidden. -/
structure Sided (s : State) : Prop where
  visible : s.visible.Nodup
  hidden : s.hidden.Nodup
  apart : s.visible.Disjoint s.hidden

def Places (s : State) (object : String) : Prop :=
  object ∈ s.visible ∨ object ∈ s.hidden

theorem Sided.visible_iff (h : s.Sided) (hplaced : s.Places object) :
    object ∈ s.visible ↔ object ∉ s.hidden :=
  ⟨fun hvisible hhidden => h.apart hvisible hhidden, fun hhidden => hplaced.resolve_right hhidden⟩

theorem sided_initial (g : Game) : (initial g).Sided where
  visible := Check.nodup_eraseDups _
  hidden := List.nodup_nil
  apart := List.disjoint_nil_right _

theorem mem_visible_hide : other ∈ (s.hide object).visible ↔ other ∈ s.visible ∧ other ≠ object := by
  simp [hide]

theorem mem_hidden_hide : other ∈ (s.hide object).hidden ↔ other = object ∨ other ∈ s.hidden := by
  simp [hide]

theorem mem_visible_reveal : other ∈ (s.reveal object).visible ↔ other = object ∨ other ∈ s.visible := by
  simp [reveal]

theorem mem_hidden_reveal : other ∈ (s.reveal object).hidden ↔ other ∈ s.hidden ∧ other ≠ object := by
  simp [reveal]

theorem Sided.hide (h : s.Sided) (object : String) : (s.hide object).Sided where
  visible := h.visible.filter _
  hidden := h.hidden.insert
  apart := by
    intro other hvisible hhidden
    obtain ⟨hvisible, hother⟩ := mem_visible_hide.mp hvisible
    exact h.apart hvisible ((mem_hidden_hide.mp hhidden).resolve_left hother)

theorem Sided.reveal (h : s.Sided) (object : String) : (s.reveal object).Sided where
  visible := h.visible.insert
  hidden := h.hidden.filter _
  apart := by
    intro other hvisible hhidden
    obtain ⟨hhidden, hother⟩ := mem_hidden_reveal.mp hhidden
    exact h.apart ((mem_visible_reveal.mp hvisible).resolve_left hother) hhidden

theorem Places.hide (h : s.Places other) (object : String) : (s.hide object).Places other := by
  by_cases hother : other = object
  · exact .inr (mem_hidden_hide.mpr (.inl hother))
  · exact h.imp (fun hvisible => mem_visible_hide.mpr ⟨hvisible, hother⟩)
      fun hhidden => mem_hidden_hide.mpr (.inr hhidden)

theorem Places.reveal (h : s.Places other) (object : String) : (s.reveal object).Places other := by
  by_cases hother : other = object
  · exact .inl (mem_visible_reveal.mpr (.inl hother))
  · exact h.imp (fun hvisible => mem_visible_reveal.mpr (.inr hvisible))
      fun hhidden => mem_hidden_reveal.mpr ⟨hhidden, hother⟩

end State

/-! ## Ends -/

def Outcome.orLater : Outcome → Outcome → Outcome
  | .open, later => later
  | outcome, _ => outcome

theorem Outcome.orLater_assoc (first second third : Outcome) :
    (first.orLater second).orLater third = first.orLater (second.orLater third) := by
  cases first <;> rfl

theorem Outcome.orLater_open (outcome : Outcome) : outcome.orLater .open = outcome := by
  cases outcome <;> rfl

theorem State.outcome_finish (s : State) (outcome : Outcome) :
    (s.finish outcome).outcome = s.outcome.orLater outcome := by
  unfold State.finish State.isOver
  cases h : s.outcome <;> simp [h, Outcome.orLater]

/-- How an action ends a game, if it does. -/
def ending? : Action → Option Outcome
  | .success .. => some .success
  | .failure .. => some .failure
  | _ => none

/-- How the first of some actions that ends a game ends it; without one the game stays open. -/
def endOf (actions : List Action) : Outcome :=
  (actions.findSome? ending?).getD .open

theorem endOf_append (xs ys : List Action) : endOf (xs ++ ys) = (endOf xs).orLater (endOf ys) := by
  rw [endOf, List.findSome?_append]
  cases h : xs.findSome? ending? with
  | none => simp [endOf, h, Outcome.orLater]
  | some outcome =>
    obtain ⟨a, _, ha⟩ := List.exists_of_findSome?_eq_some h
    cases a <;> cases ha <;> simp [endOf, h, Outcome.orLater]

/-! ## Steps -/

/-- What some actions leave of a state: objects keep to one side, and the game is over as soon as one
of the actions ends it. -/
structure Leads (actions : List Action) (s u : State) : Prop where
  sided : s.Sided → u.Sided
  places : ∀ object, s.Places object → u.Places object
  outcome : u.outcome = s.outcome.orLater (endOf actions)

namespace Leads

theorem refl (s : State) : Leads [] s s where
  sided := id
  places _ := id
  outcome := (Outcome.orLater_open _).symm

theorem trans (h : Leads xs s next) (h' : Leads ys next u) : Leads (xs ++ ys) s u where
  sided hs := h'.sided (h.sided hs)
  places object hplaced := h'.places object (h.places object hplaced)
  outcome := by rw [h'.outcome, h.outcome, Outcome.orLater_assoc, endOf_append]

theorem of_sides (hend : ending? a = none) (hvisible : u.visible = s.visible)
    (hhidden : u.hidden = s.hidden) (houtcome : u.outcome = s.outcome) : Leads [a] s u where
  sided h := ⟨hvisible ▸ h.visible, hhidden ▸ h.hidden, hvisible ▸ hhidden ▸ h.apart⟩
  places object h := by rwa [State.Places, hvisible, hhidden]
  outcome := by
    rw [houtcome, endOf, List.findSome?_singleton, hend]
    exact (Outcome.orLater_open _).symm

theorem hide (s : State) (object : String) (hend : ending? a = none) : Leads [a] s (s.hide object) where
  sided h := h.hide object
  places _ h := h.hide object
  outcome := (of_sides hend rfl rfl rfl : Leads [a] s s).outcome

theorem reveal (s : State) (object : String) (hend : ending? a = none) :
    Leads [a] s (s.reveal object) where
  sided h := h.reveal object
  places _ h := h.reveal object
  outcome := (of_sides hend rfl rfl rfl : Leads [a] s s).outcome

theorem finish (s : State) {outcome : Outcome} (hend : ending? a = some outcome) :
    Leads [a] s (s.finish outcome) where
  sided h := by
    unfold State.finish
    split <;> exact ⟨h.visible, h.hidden, h.apart⟩
  places object h := by
    unfold State.finish
    split <;> exact h
  outcome := by rw [State.outcome_finish, endOf, List.findSome?_singleton, hend]; rfl

end Leads

/-- A number could not be calculated. -/
def IsArithmetic (fault : Fault) : Prop :=
  ∃ cause, fault = .arithmetic cause

theorem operate_leads (s : State) (id : String) (operation : Slot String) (value : Option Number)
    (hend : ending? a = none) :
    Settled IsArithmetic (Leads [a] s) (s.operate id operation value) := by
  unfold State.operate
  split
  · exact .of_sides hend rfl rfl rfl
  · split
    · rename_i change _
      cases hsum : (s.counter id).add change with
      | error cause => exact ⟨cause, rfl⟩
      | ok sum => exact .of_sides hend rfl rfl rfl
    · exact .of_sides hend rfl rfl rfl

/-- One action of a rule, of a type that can be looked up. -/
theorem after_leads (r : Rule) (s : State) (htype : a.kind.isContainer = false) :
    Settled IsArithmetic (Leads [a] s) (State.after r s a) := by
  cases a with
  | hide target =>
    rw [State.after]
    split
    · exact .hide s _ rfl
    · exact .of_sides rfl rfl rfl rfl
  | reveal target =>
    rw [State.after]
    split
    · exact .reveal s _ rfl
    · exact .of_sides rfl rfl rfl rfl
  | counter name operation value =>
    rw [State.after]
    split
    · exact operate_leads s _ operation value rfl
    · exact .of_sides rfl rfl rfl rfl
  | setFlag flag value =>
    rw [State.after]
    split <;> exact .of_sides rfl rfl rfl rfl
  | toggleFlag flag =>
    rw [State.after]
    split <;> exact .of_sides rfl rfl rfl rfl
  | success => exact .finish s rfl
  | failure => exact .finish s rfl
  | unknown type extras =>
    rw [after_unknown htype]
    exact .of_sides rfl rfl rfl rfl
  | _ => exact .of_sides rfl rfl rfl rfl

/-! ## Runs -/

theorem foldlM_leads {α : Type} {step : State → α → Except Fault State} (own : α → List Action)
    {list : List α}
    (hstep : ∀ b ∈ list, ∀ s, Settled IsArithmetic (Leads (own b) s) (step s b)) (s : State) :
    Settled IsArithmetic (Leads (list.flatMap own) s) (list.foldlM step s) := by
  induction list generalizing s with
  | nil => exact .refl s
  | cons b rest ih =>
    rw [List.foldlM_cons, List.flatMap_cons]
    refine (hstep b List.mem_cons_self s).bind fun next _ hnext => ?_
    exact (ih (fun c hc => hstep c (List.mem_cons_of_mem b hc)) next).mono fun u hu => hnext.trans hu

theorem run_leads {fired : List Rule}
    (htypes : ∀ r ∈ fired, ∀ a ∈ r.actions, a.kind.isContainer = false) (s : State) :
    Settled IsArithmetic (Leads (fired.flatMap (·.actions)) s) (fired.foldlM State.fire s) := by
  refine foldlM_leads Rule.actions (fun r hr s => ?_) s
  have hrule := foldlM_leads (fun a => [a]) (fun a ha s => after_leads r s (htypes r hr a ha)) s
  rwa [List.flatMap_singleton'] at hrule

theorem turnOf?_of_other {flag : String} (h : a.flagName? ≠ some (.text flag)) :
    turnOf? flag a = none := by
  cases a with
  | setFlag name value => exact if_neg fun hname => h (Repair.name?_of_text? hname)
  | toggleFlag name => exact if_neg fun hname => h (Repair.name?_of_text? hname)
  | _ => rfl

theorem flag_of_unturned {flag : String} {fired : List Rule}
    (hflag : ∀ r ∈ fired, ∀ a ∈ r.actions, a.flagName? ≠ some (.text flag))
    (h : fired.foldlM State.fire s = .ok u) : u.flag flag = s.flag flag := by
  have hnone : turnsBy fired flag = [] := by
    rw [turnsBy, List.reverse_eq_nil_iff, List.filterMap_eq_nil_iff]
    intro a ha
    obtain ⟨r, hr, ha⟩ := List.mem_flatMap.mp ha
    exact turnOf?_of_other (hflag r hr a ha)
  rw [flag_of_fired flag h, hnone, turned]

/-- What holds in the state behind a run of rules from the start of a game. -/
structure RunInvariant (g : Game) (fired : List Rule) (u : State) : Prop where
  /-- No object is both visible and hidden. -/
  sided : u.Sided
  /-- The first action that ends the game has ended it. -/
  outcome : u.outcome = endOf (fired.flatMap (·.actions))
  /-- At every moment of the run there was a state. Objects that had a side then have exactly one now,
  and an outcome that was reached by then is the outcome now. -/
  since : ∀ earlier later, fired = earlier ++ later →
    ∃ s, earlier.foldlM State.fire (.initial g) = .ok s ∧
      (∀ object, s.Places object → (object ∈ u.visible ↔ object ∉ u.hidden)) ∧
      (s.outcome ≠ .open → u.outcome = s.outcome)
  counters : ∀ id, (∀ r ∈ fired, ∀ a ∈ r.actions, a.counterName? ≠ some (.text id)) →
    u.counter id = (State.initial g).counter id
  flags : ∀ id, (∀ r ∈ fired, ∀ a ∈ r.actions, a.flagName? ≠ some (.text id)) →
    u.flag id = (State.initial g).flag id

/-- **What every run keeps.** Rules whose own actions have types that can be looked up, fired one after
the other from the start of a game, lead to a state with the invariants of a run, unless a number
cannot be calculated. -/
theorem run_invariants (g : Game) {fired : List Rule}
    (htypes : ∀ r ∈ fired, ∀ a ∈ r.actions, a.kind.isContainer = false) :
    Settled IsArithmetic (RunInvariant g fired) (fired.foldlM State.fire (.initial g)) := by
  have hrun := run_leads htypes (.initial g)
  cases h : fired.foldlM State.fire (.initial g) with
  | error fault =>
    rw [h] at hrun
    exact hrun
  | ok u =>
    rw [h] at hrun
    have hsided : u.Sided := hrun.sided (State.sided_initial g)
    refine ⟨hsided, hrun.outcome, fun earlier later hsplit => ?_, fun id hid => ?_, fun id hid => ?_⟩
    · rw [hsplit, List.foldlM_append, bind_ok_iff] at h
      obtain ⟨s, hs, hlater⟩ := h
      have hleads := run_leads (fun r hr => htypes r (hsplit ▸ List.mem_append_right _ hr)) s
      rw [hlater] at hleads
      refine ⟨s, hs, fun object hplaced => hsided.visible_iff (hleads.places object hplaced), ?_⟩
      intro hover
      rw [hleads.outcome]
      cases houtcome : s.outcome with
      | «open» => exact absurd houtcome hover
      | success => rfl
      | failure => rfl
    · exact foldlM_keeps (fun r hr _ _ hnext => counter_fire (hid r hr) hnext) h
    · exact flag_of_unturned hid h

/-- A lamp in the dark, with some oil and some matches. -/
def lamp : Game where
  layout := [⟨"lamp", ⟨.thousandths 500, .thousandths 500⟩, .empty⟩]
  counters := [⟨"oil", .empty, 3⟩, ⟨"matches", .empty, 2⟩]
  rules := []
  objects := [⟨"lamp", .empty, .empty, .empty, .empty, .empty⟩]
  sounds := []
  music := .empty

/-- The lamp goes out and comes back, a moth appears, and the game is won before it is lost. -/
def evening : List Rule := [
  ⟨"gust", .empty, .value "lamp", .empty,
    [.hide (.value "self") .empty none, .counter (.value "oil") (.value "decrement") none]⟩,
  ⟨"match", .empty, .value "lamp", .empty,
    [.reveal .empty .empty none, .reveal (.value "moth") .empty none, .toggleFlag (.value "lit")]⟩,
  ⟨"dawn", .empty, .empty, .empty, [.success none .empty, .failure none .empty]⟩,
  ⟨"rain", .empty, .value "lamp", .empty, [.failure none .empty, .hide .empty .empty none]⟩]

theorem run_invariants_evening :
    (∀ r ∈ evening, ∀ a ∈ r.actions, a.kind.isContainer = false) ∧
    ∃ u, evening.foldlM State.fire (.initial lamp) = .ok u ∧ RunInvariant lamp evening u ∧
      u.visible = ["moth"] ∧ u.hidden = ["lamp"] ∧ u.outcome = .success ∧ u.counter "matches" = 2 := by
  have htypes : ∀ r ∈ evening, ∀ a ∈ r.actions, a.kind.isContainer = false := by decide
  have hrun := run_invariants lamp htypes
  have hfound : (evening.foldlM State.fire (.initial lamp)).toOption.map
      (fun u => (u.visible, u.hidden, u.outcome, u.counter "matches")) =
        some (["moth"], ["lamp"], .success, 2) := by
    decide +kernel
  obtain ⟨u, hu, hstate⟩ := Option.map_eq_some_iff.mp hfound
  rw [toOption_some_iff] at hu
  rw [hu] at hrun
  simp only [Prod.mk.injEq] at hstate
  exact ⟨htypes, u, hu, hrun, hstate⟩

end TouchGame.Play
