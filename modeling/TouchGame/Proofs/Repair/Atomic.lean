import TouchGame.Proofs.Places.Game
import TouchGame.Proofs.Repair.AnyOrder
import TouchGame.Proofs.Repair.Stumbling

/-!
# What one fix changes

A fix of a single value stumbles, or leaves its rule-set alone, or puts one number where its path leads.
Then its record tells the truth: the path found what was there before and finds what is there after, and
these are different. Nothing else is: all paths see what they saw, but for those that lead to the same
spot, lists keep their lengths, and rules their ids.

* `change?_cases` : the two ways to change a place.
* `Amends`, `autoFix_amends` : all that is to be said of a fix that changes something.
* `fixEach_atomic` : what the application of any finding to any rule-set comes to.
-/

namespace TouchGame

/-! ## Rules and their ids, as paths see them -/

namespace Game

variable {g next : Game}

theorem look?_rules (g : Game) :
    g.view.look? [.name "script", .name "rules"] = some ([0, 2], .list g.rules.length) := by
  rw [view_eq]
  exact congrArg (fun k => some ([0, 2], Content.list k)) (List.length_map ..)

theorem look?_ruleId {i : Nat} {r : Rule} (hr : g.rules[i]? = some r) :
    g.view.look? [.name "script", .name "rules", .index i, .name "id"] =
      some ([0, 2, i, 0], .leaf (.str r.id)) := by
  have hi : i < (g.rules.map Rule.view).length := by
    rw [List.length_map]
    exact (List.getElem?_eq_some_iff.mp hr).1
  have hrules : (seeList Rule.view g.rules).look? [.index i, .name "id"] =
      some ([i, 0], .leaf (.str r.id)) := by
    simp only [seeList, Tree.look?, position?_natCast hi, List.getElem?_map, hr, Option.map_some,
      Option.bind_some, Rule.view_eq]
    rfl
  rw [view_eq]
  exact congrArg (fun seen => (seen.map (Content.below 2)).map (Content.below 0)) hrules

/-- A number in the place of one leaf leaves the rules their ids, since ids are no numbers. -/
theorem ruleIds_of_rewrites {path : Path} {old : Json} {n : Number}
    (h : Rewrites path old n g.view next.view) : next.rules.map (·.id) = g.rules.map (·.id) := by
  obtain ⟨address, spot, -, hlook, hnext⟩ := h
  have hframe := Tree.look?_setLeaf (n := n) hlook
  rw [← hnext] at hframe
  have hlength : next.rules.length = g.rules.length := by
    have hkept := Tree.look?_setLeaf_kept (n := n) hlook (look?_rules g) fun _ => Content.noConfusion
    rw [← hnext, look?_rules, Option.some.injEq, Prod.mk.injEq] at hkept
    exact Content.list.inj hkept.2
  refine List.ext_getElem? fun i => ?_
  rw [List.getElem?_map, List.getElem?_map]
  cases hr : g.rules[i]? with
  | none =>
    rw [List.getElem?_eq_none_iff, ← hlength] at hr
    rw [List.getElem?_eq_none hr]
  | some r =>
    have hi : i < next.rules.length := by
      rw [hlength]
      exact (List.getElem?_eq_some_iff.mp hr).1
    have hr' := List.getElem?_eq_getElem hi
    have hid := hframe [.name "script", .name "rules", .index i, .name "id"]
    rw [look?_ruleId hr, look?_ruleId hr', Option.map_some, Option.some.injEq, Content.behind,
      Prod.mk.injEq] at hid
    rw [hr']
    split at hid
    · cases hid.2
    · injection hid.2 with hid
      injection hid with hid
      simp [hid]

end Game

namespace Repair

variable {g next : Game} {f : Finding} {a : Amendment}

/-! ## Changes of a place -/

/-- A change fills in a number where one is missing, or puts another one in the place of one. -/
theorem change?_cases {c : Code} {p : Place Game} {change : Change}
    (h : change? c p = .ok (some change)) :
    (∃ description value put, filling? c = some (description, value) ∧ p = .vacant put ∧
      change = ⟨description, .null, value, put value⟩) ∨
    ∃ description corrected n put, correction? c = some (description, corrected) ∧ p = .number n put ∧
      (corrected n).eq n = false ∧ change = ⟨description, .num n, corrected n, put (corrected n)⟩ := by
  unfold change? at h
  split at h
  · rename_i description value hfills
    unfold fill? at h
    split at h
    · rename_i put
      exact .inl ⟨description, value, put, hfills, rfl, (Option.some.inj (Except.ok.inj h)).symm⟩
    · cases h
    · cases h
  · rename_i description corrected _ hcorrects
    unfold correct? at h
    split at h
    · rename_i n put
      dsimp only at h
      split at h
      · cases h
      · rename_i hdiffers
        exact .inr ⟨description, corrected, n, put, hcorrects, rfl, Bool.eq_false_iff.mpr hdiffers,
          (Option.some.inj (Except.ok.inj h)).symm⟩
    · split at h <;> cases h
    · cases h
  · cases h

theorem change?_takes {holds : Json → Number → Game → Prop} {c : Code} {p : Place Game}
    {change : Change} (hp : p.Takes holds) (h : change? c p = .ok (some change)) :
    holds change.before change.after change.game := by
  rcases change?_cases h with ⟨_, value, put, _, rfl, rfl⟩ | ⟨_, corrected, n, put, _, rfl, _, rfl⟩
  · exact hp value
  · exact hp (corrected n)

theorem change?_before {c : Code} {p : Place Game} {change : Change}
    (h : change? c p = .ok (some change)) : p.value? = some change.before := by
  rcases change?_cases h with ⟨_, value, put, _, rfl, rfl⟩ | ⟨_, corrected, n, put, _, rfl, _, rfl⟩
  · rfl
  · rfl

theorem change?_differs {c : Code} {p : Place Game} {change : Change}
    (h : change? c p = .ok (some change)) :
    change.before = .null ∨ ∃ m, change.before = .num m ∧ change.after.eq m = false := by
  rcases change?_cases h with ⟨_, value, put, _, rfl, rfl⟩ | ⟨_, corrected, n, put, _, rfl, hne, rfl⟩
  · exact .inl rfl
  · exact .inr ⟨n, rfl, hne⟩

/-! ## Changes of a rule-set -/

theorem autoFix_change (h : autoFix g f = .ok (some (next, a))) : ∃ c place change,
    f.label = .listed c ∧ leadsToRule g f.location = .ok true ∧
      g.place? f.location.path = some place ∧ change? c place = .ok (some change) ∧
        next = change.game ∧ a = recordOf f c change := by
  rcases autoFix_cases g f with ⟨fault, hleads⟩ | ⟨c, place, hlabel, hleads, hplace⟩ | hnone
  · rw [autoFix_of_lost hleads] at h
    cases h
  · rw [autoFix_of_place hlabel hleads hplace, map_ok_iff] at h
    obtain ⟨change, hchange, h⟩ := h
    obtain ⟨change, rfl, h⟩ := Option.map_eq_some_iff.mp h
    cases h
    exact ⟨c, place, change, hlabel, hleads, hplace, hchange, rfl, rfl⟩
  · rw [hnone] at h
    cases h

theorem leadsToRule_named {l : Location} {id : String} {step : Step} {rest : Path}
    (h : leadsToRule g l = .ok true) (hid : l.rule = some id)
    (hpath : l.path = .name "script" :: .name "rules" :: step :: rest) :
    ∃ i k r, step = .index i ∧ position? g.rules.length i = some k ∧ g.rules[k]? = some r ∧
      r.id = id := by
  cases step with
  | name field =>
    simp [leadsToRule, hid, hpath] at h
  | index i =>
    simp only [leadsToRule, hid, hpath] at h
    split at h
    · cases h
    · split at h
      · rename_i k hk
        obtain ⟨r, hr, hsame⟩ := (Option.any_eq_true ..).mp (Except.ok.inj h)
        exact ⟨i, k, r, rfl, hk, hr, beq_iff_eq.mp hsame⟩
      · cases h

/-- What a fix that changes something does to a rule-set, and what its record says about it. -/
structure Amends (g : Game) (f : Finding) (next : Game) (a : Amendment) : Prop where
  code : f.label = .listed a.code
  target : a.target = f.location.path.text
  /-- The path found what the record has as the old value, and finds what it has as the new one. -/
  before : g.part.value? f.location.path = some a.before
  after : next.part.value? f.location.path = some a.after
  differs : ∃ n, a.after = .num n ∧
    (a.before = .null ∨ ∃ m, a.before = .num m ∧ n.eq m = false)
  /-- The old value stood at one spot, and only paths to that spot see something new. -/
  alone : ∃ address spot n, f.location.path.Unfolds address ∧ a.after = .num n ∧
    g.view.look? address = some (spot, .leaf a.before) ∧
      ∀ q, next.view.look? q = (g.view.look? q).map (Content.behind spot n)
  lengths : ∀ q spot length, g.view.look? q = some (spot, .list length) →
    next.view.look? q = some (spot, .list length)
  ids : next.rules.map (·.id) = g.rules.map (·.id)
  /-- A path into the rules led to the rule that the finding names. -/
  named : ∀ id step rest, f.location.rule = some id →
    f.location.path = .name "script" :: .name "rules" :: step :: rest →
      ∃ i k r, step = .index i ∧ position? g.rules.length i = some k ∧ g.rules[k]? = some r ∧
        r.id = id

theorem autoFix_fits (h : autoFix g f = .ok (some (next, a))) : ∃ n, a.after = .num n ∧
    Fits Game.part Game.view g f.location.path a.before n next := by
  obtain ⟨c, place, change, hlabel, hleads, hplace, hchange, rfl, rfl⟩ := autoFix_change h
  exact ⟨change.after, rfl, change?_takes (g.lawful _ _ hplace) hchange⟩

theorem autoFix_amends (h : autoFix g f = .ok (some (next, a))) : Amends g f next a := by
  obtain ⟨n, hafter, hrewrites, hvalue⟩ := autoFix_fits h
  obtain ⟨c, place, change, hlabel, hleads, hplace, hchange, hgame, rfl⟩ := autoFix_change h
  obtain ⟨address, spot, haddress, hlook, hnext⟩ := hrewrites
  exact {
    code := hlabel
    target := rfl
    before := Part.value?_of_place? hplace (change?_before hchange)
    after := by rw [hvalue, hafter]
    differs := ⟨change.after, rfl, change?_differs hchange⟩
    alone := ⟨address, spot, n, haddress, hafter, hlook, fun q => by
      rw [hnext, Tree.look?_setLeaf hlook]⟩
    lengths := fun q s length hq => by
      rw [hnext]
      exact Tree.look?_setLeaf_kept hlook hq fun _ => Content.noConfusion
    ids := Game.ruleIds_of_rewrites ⟨address, spot, haddress, hlook, hnext⟩
    named := fun _ _ _ hid hpath => leadsToRule_named hleads hid hpath }

/-! ## Applications of one finding -/

theorem fixEach_singleton (g : Game) (f : Finding) : fixEach g [f] =
    (autoFix g f).map fun fix => ((fix.map (·.1)).getD g, [fix.map (·.2)]) := by
  rw [fixEach]
  cases autoFix g f <;> rfl

/-- **Fixes are atomic.** Whatever a finding with a plain path says, and whatever rule-set it is applied to:
it stumbles, which is known beforehand, or nothing changes and there is no record, or one number does,
where the path of the finding leads. -/
theorem fixEach_atomic (g : Game) (f : Finding) (_hplain : f.location.path.isPlain) :
    (∀ fault, fixEach g [f] = .error fault ↔ Stumbles g f fault) ∧
      ((∃ fault, Stumbles g f fault) ∨ fixEach g [f] = .ok (g, [none]) ∨
        ∃ next a, fixEach g [f] = .ok (next, [some a]) ∧ Amends g f next a) := by
  rw [fixEach_singleton]
  refine ⟨fun fault => by rw [map_error_iff, autoFix_fails_iff], ?_⟩
  cases hfix : autoFix g f with
  | error fault => exact .inl ⟨fault, autoFix_fails_iff.mp hfix⟩
  | ok fix =>
    cases fix with
    | none => exact .inr (.inl rfl)
    | some made => exact .inr (.inr ⟨made.1, made.2, rfl, autoFix_amends hfix⟩)

/-- A finding about the coordinate of the star. -/
def farStar : Finding where
  severity := .warning
  label := .listed .invalidCoordinates
  message := "The star is outside the screen"
  fix := none
  location := ⟨[.name "script", .name "layout", .name "objects", .index 0, .name "position", .name "x"],
    none, none⟩

theorem fixEach_atomic_farStar : farStar.location.path.isPlain ∧ ∃ next a,
    fixEach unruly [farStar] = .ok (next, [some a]) ∧ Amends unruly farStar next a := by
  have hplain : farStar.location.path.isPlain := by decide +kernel
  have hrecords : (fixEach unruly [farStar]).toOption.map (·.2.map (·.isSome)) = some [true] := by
    decide +kernel
  obtain ⟨hfails, ⟨fault, hstumbles⟩ | hnothing | hamends⟩ := fixEach_atomic unruly farStar hplain
  · rw [(hfails fault).mpr hstumbles] at hrecords
    cases hrecords
  · rw [hnothing] at hrecords
    cases hrecords
  · exact ⟨hplain, hamends⟩

/-- A finding about the name of a rule that is no longer there, counted from the end of the rules. -/
def lostName : Finding where
  severity := .warning
  label := .listed .invalidTimeSeconds
  message := "The rule has gone"
  fix := none
  location := ⟨[.name "script", .name "rules", .index (-5), .name "name"], some "tap", none⟩

/-- A finding about a rule that has gone gives no result at all, if its index counts from the end. -/
theorem lostName_stumbles : ¬ ∃ last records, fixEach unruly [lostName] = .ok (last, records) := by
  rintro ⟨last, records, h⟩
  have hstumbles : Stumbles unruly lostName .indexOutOfRange := .beforeRules rfl rfl (by decide)
  rw [fixEach_singleton, autoFix_fails_iff.mpr hstumbles] at h
  cases h

end Repair

end TouchGame
