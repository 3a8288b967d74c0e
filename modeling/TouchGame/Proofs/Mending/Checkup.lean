import TouchGame.Proofs.Mending.Place

/-!
# Checkups

A checkup is a check of one kind of value together with the way to mend it. It heals a value if every
finding that a repair can fix in place has a cure: the change that the finding's code makes, at the
place its path leads to, takes away this finding and no other, and brings the value no further away
from the mended one. Checkups of larger values are put together from those of their fields.

* `Checkup`, `Checkup.Heals`, `Checkup.Settles` : checkups and what they promise.
* `Cure` : the change that cures a finding; `Cure.lift` sees it from a larger value.
* `HealsIn` : the same for a part of the findings; one lemma for each kind of field.
-/

namespace TouchGame

/-- An optional field with its value changed. -/
def Slot.mapValue {α β : Type} (f : α → β) : Slot α → Slot β
  | .empty => .empty
  | .value a => .value (f a)
  | .number n => .number n

namespace Mending

open Repair

def fixable (findings : List Finding) : Bool :=
  findings.any (·.isOf .autoFixable)

@[simp] theorem fixable_nil : fixable [] = false := rfl

@[simp] theorem fixable_cons (f : Finding) (rest : List Finding) :
    fixable (f :: rest) = (f.isOf .autoFixable || fixable rest) := rfl

@[simp] theorem fixable_append (xs ys : List Finding) :
    fixable (xs ++ ys) = (fixable xs || fixable ys) :=
  List.any_append

theorem fixable_flatMap {α : Type} (list : List α) (check : α → List Finding) :
    fixable (list.flatMap check) = list.any fun a => fixable (check a) :=
  List.any_flatMap

@[simp] theorem isOf_critical (category : Category) (c : Code) (message fix : String)
    (location : Location) :
    (Finding.critical c message fix location).isOf category = (c.category == category) := rfl

@[simp] theorem isOf_warning (category : Category) (c : Code) (message fix : String)
    (location : Location) :
    (Finding.warning c message fix location).isOf category = (c.category == category) := rfl

theorem isOf_listed {f : Finding} {c : Code} (category : Category) (h : f.label = .listed c) :
    f.isOf category = (c.category == category) := by
  rw [Finding.isOf, Finding.category, h]

variable {σ τ : Type} {f : Finding} {c : Code}

/-! ## Cures -/

/-- A finding about a part of a larger value has a cure: the change that its code makes at its path,
counted from a base, leads to a good value. -/
def Cure (place? : Path → Option (Place σ)) (base : Path) (owns : Location → Prop) (f : Finding)
    (good : σ → Prop) : Prop :=
  ∃ c rel p y, f.label = .listed c ∧ f.location.path = base ++ rel ∧ owns f.location ∧
    place? rel = some p ∧ Remedied c p y ∧ good y

theorem Cure.lift {place? : Path → Option (Place σ)} {place?' : Path → Option (Place τ)}
    {base steps : Path} {owns owns' : Location → Prop} {good : σ → Prop} {good' : τ → Prop}
    (h : Cure place? (base ++ steps) owns f good) (set : σ → τ)
    (howns : ∀ l rel, l.path = base ++ steps ++ rel → owns l → owns' l)
    (hplace : ∀ rel p, place? rel = some p → place?' (steps ++ rel) = some (p.map set))
    (hgood : ∀ y, good y → good' (set y)) : Cure place?' base owns' f good' := by
  obtain ⟨c, rel, p, y, hlabel, hpath, hown, hp, hr, hy⟩ := h
  refine ⟨c, steps ++ rel, p.map set, set y, hlabel, ?_, howns _ rel hpath hown, hplace rel p hp,
    hr.map set, hgood y hy⟩
  rw [hpath, List.append_assoc]

/-! ## Checkups -/

/-- A check of a kind of value: where such a value is, which locations are its own, what paths find
in it, what is found about it, and how it is mended. -/
structure Checkup (σ : Type) where
  base : Path
  owns : Location → Prop
  place? : σ → Path → Option (Place σ)
  findings : σ → List Finding
  mend : σ → σ

namespace Checkup

variable (k : Checkup σ) (x : σ)

/-- Every finding of a part of the findings that can be fixed in place has a cure, which takes it
away and leaves the mended value as it is. -/
def HealsIn (ahead part behind : List Finding) : Prop :=
  ∀ before f after, part = before ++ f :: after → f.isOf .autoFixable = true →
    Cure (k.place? x) k.base k.owns f fun y =>
      k.findings y = ahead ++ (before ++ after) ++ behind ∧ k.mend y = k.mend x

def Heals : Prop :=
  k.HealsIn x [] (k.findings x) []

def Settles : Prop :=
  fixable (k.findings x) = false → k.mend x = x

end Checkup

/-! ## Parts of findings -/

namespace Checkup.HealsIn

variable {k : Checkup σ} {x : σ} {ahead behind xs ys : List Finding}

theorem of_unfixable (h : fixable xs = false) : k.HealsIn x ahead xs behind := by
  intro before f after hxs hf
  rw [hxs, fixable_append, fixable_cons, hf, Bool.true_or, Bool.or_true] at h
  exact absurd h (by decide)

theorem append (hxs : k.HealsIn x ahead xs (ys ++ behind))
    (hys : k.HealsIn x (ahead ++ xs) ys behind) : k.HealsIn x ahead (xs ++ ys) behind := by
  intro before f after h hf
  rcases List.append_eq_append_iff.mp h with ⟨more, rfl, hy⟩ | ⟨more, hx, hmore⟩
  · obtain hcure := hys more f after hy hf
    simpa only [List.append_assoc] using hcure
  · cases more with
    | nil =>
      rw [List.append_nil] at hx
      rw [List.nil_append] at hmore
      subst hx
      have hcure := hys [] f after hmore.symm hf
      simpa only [List.append_assoc, List.nil_append] using hcure
    | cons first more =>
      rw [List.cons_append, List.cons.injEq] at hmore
      obtain ⟨rfl, rfl⟩ := hmore
      have hcure := hxs before f more hx hf
      simpa only [List.append_assoc] using hcure

theorem heals (hx : k.findings x = xs) (h : k.HealsIn x [] xs []) : k.Heals x := by
  rw [Checkup.Heals, hx]
  exact h

end Checkup.HealsIn

/-! ## Numbers -/

/-- A check of a number finds what a gauge finds, at a path. -/
structure Speaks (gauge : Gauge) (path : Path) (owns : Location → Prop)
    (check : Number → List Finding) : Prop where
  silent : ∀ {n}, gauge.code? n = none → check n = []
  speaks : ∀ {n c}, gauge.code? n = some c →
    ∃ f, check n = [f] ∧ f.label = .listed c ∧ f.location.path = path ∧ owns f.location

namespace Speaks

variable {gauge : Gauge} {path : Path} {owns : Location → Prop} {check : Number → List Finding}
  {n : Number}

theorem of_one {p : Number → Bool} {say : Number → Finding}
    (hcode : ∀ n, gauge.code? n = if p n then some c else none)
    (hsay : ∀ n, (say n).label = .listed c ∧ (say n).location.path = path ∧ owns (say n).location) :
    Speaks gauge path owns fun n => if p n then [say n] else [] where
  silent {n} h := by
    rw [hcode] at h
    split at h
    · cases h
    · rename_i hp
      exact if_neg hp
  speaks {n d} h := by
    rw [hcode] at h
    split at h
    · rename_i hp
      cases h
      exact ⟨say n, if_pos hp, hsay n⟩
    · cases h

/-- A check that knows two defects. -/
theorem of_two {p q : Number → Bool} {d : Code} {say tell : Number → Finding}
    (hcode : ∀ n, gauge.code? n = if p n then some c else if q n then some d else none)
    (hsay : ∀ n, (say n).label = .listed c ∧ (say n).location.path = path ∧ owns (say n).location)
    (htell : ∀ n, (tell n).label = .listed d ∧ (tell n).location.path = path ∧
      owns (tell n).location) :
    Speaks gauge path owns fun n => if p n then [say n] else if q n then [tell n] else [] where
  silent {n} h := by
    rw [hcode] at h
    split at h
    · cases h
    · rename_i hp
      split at h
      · cases h
      · rename_i hq
        exact (if_neg hp).trans (if_neg hq)
  speaks {n e} h := by
    rw [hcode] at h
    split at h
    · rename_i hp
      cases h
      exact ⟨say n, if_pos hp, hsay n⟩
    · rename_i hp
      split at h
      · rename_i hq
        cases h
        exact ⟨tell n, (if_neg hp).trans (if_pos hq), htell n⟩
      · cases h

theorem settles (h : Speaks gauge path owns check) (hn : fixable (check n) = false) :
    gauge.mend n = n := by
  cases hc : gauge.code? n with
  | none => exact Gauge.mend_of_none hc
  | some c =>
    obtain ⟨f, hf, hlabel, _⟩ := h.speaks hc
    have hcategory := (gauge.corrects hc).1.category
    rw [hf, fixable_cons, isOf_listed _ hlabel, hcategory] at hn
    exact absurd hn (by decide)

theorem settles_option (h : Speaks gauge path owns check) {value : Option Number}
    (hn : fixable (Check.ifPresent value check) = false) : value.map gauge.mend = value := by
  cases value with
  | none => rfl
  | some n => rw [Option.map_some, h.settles hn]

end Speaks

namespace Checkup.HealsIn

variable {k : Checkup σ} {x : σ} {ahead behind : List Finding}

/-- The findings about a number that is always there. -/
theorem number {gauge : Gauge} (rel : Path) {check : Number → List Finding} {n : Number}
    (put : Number → σ) (hspeaks : Speaks gauge (k.base ++ rel) k.owns check)
    (hplace : k.place? x rel = some (.number n put))
    (hfindings : ∀ m, k.findings (put m) = ahead ++ check m ++ behind)
    (hmend : ∀ m, gauge.mend m = gauge.mend n → k.mend (put m) = k.mend x) :
    k.HealsIn x ahead (check n) behind := by
  intro before f after h hf
  cases hc : gauge.code? n with
  | none =>
    rw [hspeaks.silent hc] at h
    exact absurd h.symm (by simp)
  | some c =>
    obtain ⟨hcorrects, hright⟩ := gauge.corrects hc
    obtain ⟨only, honly, hlabel, hpath, hown⟩ := hspeaks.speaks hc
    rw [honly] at h
    obtain ⟨rfl, rfl, rfl⟩ : before = [] ∧ f = only ∧ after = [] := by
      cases before with
      | nil =>
        rw [List.nil_append, List.cons.injEq] at h
        exact ⟨rfl, h.1.symm, h.2.symm⟩
      | cons first rest => simp at h
    refine ⟨c, rel, _, _, hlabel, hpath, hown, hplace, .corrected hcorrects, ?_, ?_⟩
    · rw [hfindings, hspeaks.silent hright]
      rfl
    · exact hmend _ (Gauge.mend_correct hc)

theorem number? {gauge : Gauge} (rel : Path) {check : Number → List Finding}
    (value : Option Number) (put : Number → σ)
    (hspeaks : Speaks gauge (k.base ++ rel) k.owns check)
    (hplace : ∀ n, value = some n → k.place? x rel = some (.number n put))
    (hfindings : ∀ m, k.findings (put m) = ahead ++ check m ++ behind)
    (hmend : ∀ m, some (gauge.mend m) = value.map gauge.mend → k.mend (put m) = k.mend x) :
    k.HealsIn x ahead (Check.ifPresent value check) behind := by
  cases value with
  | none => exact of_unfixable rfl
  | some n =>
    refine number rel put hspeaks (hplace n rfl) hfindings fun m hm => hmend m ?_
    rw [hm, Option.map_some]

theorem vacant (rel : Path) {description : String} {value : Number} (put : Number → σ)
    (hlabel : f.label = .listed c) (hpath : f.location.path = k.base ++ rel)
    (hown : k.owns f.location) (category : c.category = .autoFixable)
    (hfilling : filling? c = some (description, value))
    (hplace : k.place? x rel = some (.vacant put))
    (hfindings : k.findings (put value) = ahead ++ behind) (hmend : k.mend (put value) = k.mend x) :
    k.HealsIn x ahead [f] behind := by
  intro before only after h _
  obtain ⟨rfl, rfl, rfl⟩ : before = [] ∧ only = f ∧ after = [] := by
    cases before with
    | nil =>
      rw [List.nil_append, List.cons.injEq] at h
      exact ⟨rfl, h.1.symm, h.2.symm⟩
    | cons first rest => simp at h
  refine ⟨c, rel, _, _, hlabel, hpath, hown, hplace, .filled category hfilling, ?_, hmend⟩
  rw [hfindings]
  simp

/-! ## Values with fields -/

theorem field {j : Checkup τ} {a : τ} (steps : Path) (set : τ → σ) (h : j.Heals a)
    (hbase : j.base = k.base ++ steps)
    (howns : ∀ l rel, l.path = k.base ++ steps ++ rel → j.owns l → k.owns l)
    (hplace : ∀ rel p, j.place? a rel = some p → k.place? x (steps ++ rel) = some (p.map set))
    (hfindings : ∀ b, j.mend b = j.mend a → k.findings (set b) = ahead ++ j.findings b ++ behind)
    (hmend : ∀ b, j.mend b = j.mend a → k.mend (set b) = k.mend x) :
    k.HealsIn x ahead (j.findings a) behind := by
  intro before f after hf hauto
  have hcure := h before f after hf hauto
  rw [hbase] at hcure
  refine hcure.lift set howns hplace ?_
  rintro b ⟨hb, hm⟩
  refine ⟨?_, hmend b hm⟩
  rw [hfindings b hm, hb]
  simp

end Checkup.HealsIn

/-! ## Lists -/

/-- A finding about a list is about one of its items, and goes away with it. -/
theorem indexed_split {α : Type} {check : Nat → α → List Finding} {start : Nat} {list : List α}
    {before after : List Finding} (h : Check.indexed check start list = before ++ f :: after) :
    ∃ i a b e, list[i]? = some a ∧ check (start + i) a = b ++ f :: e ∧
      ∀ y, check (start + i) y = b ++ e →
        Check.indexed check start (list.set i y) = before ++ after := by
  induction list generalizing start before with
  | nil => simp [Check.indexed] at h
  | cons first rest ih =>
    rw [Check.indexed] at h
    rcases List.append_eq_append_iff.mp h with ⟨more, hbefore, hrest⟩ | ⟨more, hfirst, hmore⟩
    · obtain ⟨i, a, b, e, ha, hf, hset⟩ := ih hrest
      refine ⟨i + 1, a, b, e, ha, by rw [← hf]; congr 1; omega, ?_⟩
      intro y hy
      rw [List.set_cons_succ, Check.indexed, hset y (by rw [← hy]; congr 1; omega), hbefore,
        List.append_assoc]
    · cases more with
      | nil =>
        rw [List.nil_append] at hmore
        obtain ⟨i, a, b, e, ha, hf, hset⟩ := @ih _ [] hmore.symm
        refine ⟨i + 1, a, b, e, ha, by rw [← hf]; congr 1; omega, ?_⟩
        intro y hy
        rw [List.set_cons_succ, Check.indexed, hset y (by rw [← hy]; congr 1; omega), hfirst]
        simp
      | cons g more =>
        rw [List.cons_append, List.cons.injEq] at hmore
        obtain ⟨rfl, rfl⟩ := hmore
        refine ⟨0, first, before, more, rfl, by rw [Nat.add_zero]; exact hfirst, ?_⟩
        intro y hy
        rw [Nat.add_zero] at hy
        rw [List.set_cons_zero, Check.indexed, hy, List.append_assoc]

theorem fixable_indexed {α : Type} {check : Nat → α → List Finding} {start : Nat} {list : List α}
    (h : fixable (Check.indexed check start list) = false) {i : Nat} {a : α}
    (ha : list[i]? = some a) : fixable (check (start + i) a) = false := by
  induction list generalizing start i with
  | nil => simp at ha
  | cons first rest ih =>
    rw [Check.indexed, fixable_append, Bool.or_eq_false_iff] at h
    cases i with
    | zero =>
      cases ha
      exact h.1
    | succ i =>
      have := ih h.2 ha
      rwa [show start + 1 + i = start + (i + 1) by omega] at this

theorem map_mend_of_settles {α : Type} {check : Nat → α → List Finding} {list : List α} {mend : α → α}
    (hsettles : ∀ i a, list[i]? = some a → fixable (check i a) = false → mend a = a)
    (h : fixable (Check.indexed check 0 list) = false) : list.map mend = list := by
  refine List.ext_getElem? fun i => ?_
  rw [List.getElem?_map]
  cases ha : list[i]? with
  | none => rfl
  | some a =>
    have hfix := fixable_indexed h ha
    rw [Nat.zero_add] at hfix
    rw [Option.map_some, hsettles i a ha hfix]

namespace Checkup.HealsIn

variable {k : Checkup σ} {x : σ} {ahead behind : List Finding}

/-- The findings about a list whose items have checkups of their own, mended all alike. -/
theorem items {j : Nat → Checkup τ} (mend : τ → τ) {list : List τ} (steps : Path)
    (set : List τ → σ) (hmends : ∀ i, (j i).mend = mend)
    (h : ∀ i a, list[i]? = some a → (j i).Heals a)
    (hbase : ∀ i, (j i).base = k.base ++ (steps ++ [.index i]))
    (howns : ∀ i a, list[i]? = some a → ∀ l rel,
      l.path = k.base ++ (steps ++ [.index i]) ++ rel → (j i).owns l → k.owns l)
    (hplace : ∀ i a, list[i]? = some a → ∀ rel p, (j i).place? a rel = some p →
      k.place? x (steps ++ .index i :: rel) = some (p.map fun b => set (list.set i b)))
    (hfindings : ∀ list', list'.map mend = list.map mend → k.findings (set list') =
      ahead ++ Check.indexed (fun i => (j i).findings) 0 list' ++ behind)
    (hmend : ∀ list', list'.map mend = list.map mend → k.mend (set list') = k.mend x) :
    k.HealsIn x ahead (Check.indexed (fun i => (j i).findings) 0 list) behind := by
  intro before f after hf hauto
  obtain ⟨i, a, b, e, ha, hsplit, hset⟩ := indexed_split hf
  rw [Nat.zero_add] at hsplit hset
  have hcure := h i a ha b f e hsplit hauto
  rw [hbase] at hcure
  refine hcure.lift (fun y => set (list.set i y)) (howns i a ha) ?_ ?_
  · intro rel p hp
    rw [List.append_assoc]
    exact hplace i a ha rel p hp
  · rintro y ⟨hy, hm⟩
    simp only [List.nil_append, List.append_nil] at hy
    have hmap : (list.set i y).map mend = list.map mend := by
      rw [hmends] at hm
      rw [List.map_set, hm]
      refine List.ext_getElem? fun n => ?_
      rw [List.getElem?_set]
      split
      · rename_i hn
        subst hn
        split
        · rw [List.getElem?_map, ha, Option.map_some]
        · rename_i hlt
          rw [List.length_map] at hlt
          rw [List.getElem?_eq_none (by rw [List.length_map]; omega)]
      · rfl
    refine ⟨?_, hmend _ hmap⟩
    rw [hfindings _ hmap, hset y hy]

end Checkup.HealsIn

end Mending

end TouchGame
