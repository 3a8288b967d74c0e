import TouchGame.Number.Basic

/-!
# Results of operations

An operation that may fail gives a result exactly when each of its steps gives one. The lemmas take
such an operation apart, so that a proof about it goes through its steps in order.

* `bind_ok_iff`, `mapM_ok_of`, `foldlM_keeps`, .. : what is known of an operation that gives a result.
* `foldlM_error_iff` : where a run fails.
* `Settled` : what is known of an operation whether it gives a result or fails.
-/

namespace TouchGame

variable {ε ε' α β : Type} {x : Except ε α} {f : α → Except ε β}

theorem bind_ok_iff {b : β} : (x >>= f) = .ok b ↔ ∃ a, x = .ok a ∧ f a = .ok b := by
  cases x with
  | error e => simp [bind, Except.bind]
  | ok a => simp [bind, Except.bind]

theorem pure_ok_iff {a b : α} : (pure a : Except ε α) = .ok b ↔ a = b := by
  simp [pure, Except.pure]

theorem map_ok_iff {h : α → β} {b : β} : x.map h = .ok b ↔ ∃ a, x = .ok a ∧ h a = b := by
  cases x <;> simp [Except.map]

theorem map_error_iff {h : α → β} {cause : ε} : x.map h = .error cause ↔ x = .error cause := by
  cases x <;> simp [Except.map]

theorem mapError_ok_iff {h : ε → ε'} {a : α} : x.mapError h = .ok a ↔ x = .ok a := by
  cases x with
  | error e => exact ⟨fun heq => (by cases heq), fun heq => (by cases heq)⟩
  | ok b =>
    constructor
    · intro heq
      rw [Except.ok.inj heq]
    · intro heq
      rw [Except.ok.inj heq]
      rfl

theorem mapError_error_iff {h : ε → ε'} {cause : ε'} :
    x.mapError h = .error cause ↔ ∃ e, x = .error e ∧ h e = cause := by
  cases x with
  | error e =>
    constructor
    · intro heq
      exact ⟨e, rfl, Except.error.inj heq⟩
    · rintro ⟨_, heq, rfl⟩
      cases heq
      rfl
  | ok a => exact ⟨fun heq => (by cases heq), fun ⟨_, heq, _⟩ => (by cases heq)⟩

theorem toOption_some_iff {a : α} : x.toOption = some a ↔ x = .ok a := by
  cases x <;> simp [Except.toOption]

theorem mapM_ok_of {list : List α} {f : α → Except ε β} (h : ∀ a ∈ list, ∃ b, f a = .ok b) :
    ∃ bs, list.mapM f = .ok bs := by
  induction list with
  | nil => exact ⟨[], rfl⟩
  | cons a rest ih =>
    obtain ⟨b, hb⟩ := h a List.mem_cons_self
    obtain ⟨bs, hbs⟩ := ih fun c hc => h c (List.mem_cons_of_mem a hc)
    refine ⟨b :: bs, ?_⟩
    rw [List.mapM_cons, hb, hbs]
    rfl

theorem mem_of_mapM_ok {list : List α} {f : α → Except ε β} {results : List β} {a : α}
    (h : list.mapM f = .ok results) (ha : a ∈ list) : ∃ b ∈ results, f a = .ok b := by
  induction list generalizing results with
  | nil => cases ha
  | cons first rest ih =>
    simp only [List.mapM_cons, bind_ok_iff, pure_ok_iff] at h
    obtain ⟨b, hb, bs, hbs, rfl⟩ := h
    rcases List.mem_cons.mp ha with rfl | ha
    · exact ⟨b, List.mem_cons_self, hb⟩
    · obtain ⟨c, hc, hfc⟩ := ih hbs ha
      exact ⟨c, List.mem_cons_of_mem b hc, hfc⟩

theorem foldlM_keeps {γ : Type} {list : List α} {step : β → α → Except ε β} {observe : β → γ}
    (hstep : ∀ a ∈ list, ∀ b next, step b a = .ok next → observe next = observe b) {start last : β}
    (h : list.foldlM step start = .ok last) : observe last = observe start := by
  induction list generalizing start with
  | nil =>
    cases h
    rfl
  | cons a rest ih =>
    rw [List.foldlM_cons, bind_ok_iff] at h
    obtain ⟨next, hnext, h⟩ := h
    rw [ih (fun c hc => hstep c (List.mem_cons_of_mem a hc)) h,
      hstep a List.mem_cons_self start next hnext]

/-- A run fails where one of its steps does, behind steps that all give a result. -/
theorem foldlM_error_iff {list : List α} {step : β → α → Except ε β} {start : β} {cause : ε} :
    list.foldlM step start = .error cause ↔
      ∃ earlier a later b, list = earlier ++ a :: later ∧ earlier.foldlM step start = .ok b ∧
        step b a = .error cause := by
  constructor
  · intro h
    induction list generalizing start with
    | nil => cases h
    | cons first rest ih =>
      rw [List.foldlM_cons] at h
      cases hfirst : step start first with
      | error e =>
        rw [hfirst] at h
        exact ⟨[], first, rest, start, rfl, rfl, hfirst.trans h⟩
      | ok next =>
        rw [hfirst] at h
        obtain ⟨earlier, a, later, b, rfl, hearlier, hstep⟩ := ih h
        refine ⟨first :: earlier, a, later, b, rfl, ?_, hstep⟩
        rw [List.foldlM_cons, hfirst]
        exact hearlier
  · rintro ⟨earlier, a, later, b, rfl, hearlier, hstep⟩
    rw [List.foldlM_append, hearlier]
    change (do List.foldlM step (← step b a) later) = _
    rw [hstep]
    rfl

/-- The result of an operation has a property; a failure is one of those that are allowed. -/
def Settled (allowed : ε → Prop) (holds : α → Prop) : Except ε α → Prop
  | .ok a => holds a
  | .error cause => allowed cause

namespace Settled

variable {allowed : ε → Prop} {holds : α → Prop} {next : β → Prop}

theorem mono {also : α → Prop} (h : Settled allowed holds x) (himp : ∀ a, holds a → also a) :
    Settled allowed also x := by
  cases x with
  | error => exact h
  | ok a => exact himp a h

theorem weaken {allowed' : ε → Prop} (h : Settled allowed holds x)
    (himp : ∀ e, allowed e → allowed' e) : Settled allowed' holds x := by
  cases x with
  | error e => exact himp e h
  | ok => exact h

theorem bind (h : Settled allowed holds x) (hf : ∀ a, x = .ok a → holds a → Settled allowed next (f a)) :
    Settled allowed next (x >>= f) := by
  cases x with
  | error => exact h
  | ok a => exact hf a rfl h

theorem mapM {list : List α} {f : α → Except ε β}
    (h : ∀ a ∈ list, Settled allowed (fun _ => True) (f a)) :
    Settled allowed (fun _ => True) (list.mapM f) := by
  induction list with
  | nil => exact trivial
  | cons a rest ih =>
    rw [List.mapM_cons]
    refine (h a List.mem_cons_self).bind fun b _ _ => ?_
    refine (ih fun c hc => h c (List.mem_cons_of_mem a hc)).bind fun bs _ _ => ?_
    exact trivial

end Settled

end TouchGame
