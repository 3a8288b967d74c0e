import TouchGame.Proofs.Signature.Key
import TouchGame.Proofs.Signature.Restated

/-!
# Signatures tell triggers apart

Rules with plain texts have one signature exactly if the keys of their conditions are the same up to their
order, and several conditions are joined by the same operator. So rules with one signature have triggers that
are told alike: their conditions can be matched, and what matched conditions ask for differs at most in the
fields that keys leave out.

* `signature_iff_keys` : signatures and keys.
* `signature_iff_told` : rules with one signature, for conditions of every type.
* `signature_unambiguous` : the same without a rest, for the types whose keys leave nothing out.
-/

namespace TouchGame

open Text

/-! ## Matching -/

section Matching

variable {α β κ : Type} {f : α → κ} {g : β → κ} {R S : α → β → Prop} {xs : List α} {ys zs : List β}

theorem map_perm_iff : (xs.map f).Perm (ys.map g) ↔
    ∃ zs, zs.Perm ys ∧ List.Forall₂ (fun x z => f x = g z) xs zs := by
  have hsame (zs : List β) : List.Forall₂ (fun x z => f x = g z) xs zs ↔ xs.map f = zs.map g := by
    rw [← List.forall₂_eq_eq_eq, List.forall₂_map_left_iff, List.forall₂_map_right_iff]
  simp only [hsame]
  constructor
  · intro h
    have hshown : List.Forall₂ (fun k y => k = g y) (ys.map g) ys :=
      List.forall₂_map_left_iff.mpr (List.forall₂_same.mpr fun _ _ => rfl)
    obtain ⟨zs, hzs, hperm⟩ := List.perm_comp_forall₂ h hshown
    exact ⟨zs, hperm, (hsame zs).mp (List.forall₂_map_left_iff.mp hzs)⟩
  · rintro ⟨zs, hperm, hmap⟩
    rw [hmap]
    exact hperm.map g

theorem forall₂_congr_of_mem (h : ∀ x ∈ xs, ∀ z ∈ zs, R x z ↔ S x z) :
    List.Forall₂ R xs zs ↔ List.Forall₂ S xs zs := by
  induction xs generalizing zs with
  | nil => cases zs <;> simp
  | cons x rest ih =>
    cases zs with
    | nil => simp
    | cons z others =>
      rw [List.forall₂_cons, List.forall₂_cons, h x List.mem_cons_self z List.mem_cons_self]
      refine and_congr_right fun _ => ih fun y hy w hw => ?_
      exact h y (List.mem_cons_of_mem _ hy) w (List.mem_cons_of_mem _ hw)

end Matching

/-! ## Signatures and keys -/

section Keys

variable {r r' : Rule}

/-- The keys of a rule, as its signature has them. -/
def Rule.keys (r : Rule) : List String :=
  r.conditions.map r.keyOf

theorem signature_single {c : Condition} (h : r.conditions = [c]) : r.signature = r.keyOf c := by
  rw [Rule.signature, h, List.map_singleton, Rule.joinedKeys, sortTexts, List.mergeSort_singleton]

theorem signature_several (h : 1 < r.conditions.length) : (r.signature).toList =
    (upperCase r.operator).toList ++ '[' :: ((joined "|" (sortTexts r.keys)).toList ++ [']']) := by
  have hlength : 1 < (sortTexts (r.conditions.map r.keyOf)).length := by
    rwa [sortTexts, List.length_mergeSort, List.length_map]
  rw [Rule.signature, Rule.joinedKeys, Rule.keys]
  split
  · rename_i heq
    rw [heq] at hlength
    exact absurd hlength (by decide)
  · rename_i heq
    rw [heq] at hlength
    exact absurd hlength (by simp)
  · simp

theorem operator_free (hr : r.IsPlain) : FreeOf ['[', ':'] (upperCase r.operator).toList ∧
    ∃ a rest, (upperCase r.operator).toList = a :: rest ∧ Json.leadKind a = 6 := by
  rcases hr.operator with hop | hop
  · rw [hop]
    exact ⟨by decide, 'A', _, rfl, by decide⟩
  · rw [hop]
    exact ⟨by decide, 'O', _, rfl, by decide⟩

/-- The signature of several conditions is no key. -/
theorem several_ne_key (hr : r.IsPlain) {c : Condition} (hc : c.IsPlainIn r')
    (h : 1 < r.conditions.length) : r.signature ≠ r'.keyOf c := by
  intro heq
  have hchars := congrArg String.toList heq
  rw [signature_several h] at hchars
  obtain ⟨hfree, a, rest, hcons, hlead⟩ := operator_free hr
  by_cases hknown : c.word? = none
  · obtain ⟨type, extras, rfl⟩ := eq_unknown hknown
    rw [unknown_toList] at hchars
    rcases type.shown_cases with ⟨s, rfl⟩ | hshown
    · -- The first opening bracket of the key stands behind a colon, that of the signature does not.
      have hs : FreeOf ['['] s.toList := (hc.1 s (by simp [Extra.texts, Json.texts])).marks.mono (by decide)
      have hfront : FreeOf ['['] (s.toList ++ [':']) := freeOf_append.mpr ⟨hs, by decide⟩
      have hcut := (cut_marks (hfree.mono (by decide)) hfront (by simp) (by simp)
        (hchars.trans (List.append_assoc _ [':'] _).symm)).1
      rw [hcut, freeOf_append] at hfree
      exact absurd hfree.2 (by decide)
    · -- A type that is no text begins with no letter of an operator.
      obtain ⟨b, rest', hliteral, hne⟩ := Json.literal_ne_stop hlead type
      rw [hcons, hshown, hliteral, List.cons_append, List.cons_append, List.cons.injEq] at hchars
      exact hne hchars.1.symm
  · have hkey := known_free hc hknown
    rw [← hchars, freeOf_append, freeOf_cons] at hkey
    exact absurd hkey.2.1 (by decide)

theorem sortTexts_self_perm (texts : List String) : (sortTexts texts).Perm texts :=
  List.mergeSort_perm _ _

/-- The signatures of several conditions tell the operator and the keys. -/
theorem several_cut (hr : r.IsPlain) (hr' : r'.IsPlain) (h : 1 < r.conditions.length)
    (h' : 1 < r'.conditions.length) (heq : r.signature = r'.signature) :
    upperCase r.operator = upperCase r'.operator ∧ r.keys.Perm r'.keys := by
  have hoperator {r : Rule} (hr : r.IsPlain) : FreeOf ['['] (upperCase r.operator).toList :=
    (operator_free hr).1.mono (by decide)
  have hbars {r : Rule} (hr : r.IsPlain) : ∀ s ∈ sortTexts r.keys, '|' ∉ s.toList := by
    intro s hs
    obtain ⟨c, hc, rfl⟩ := List.mem_map.mp ((sortTexts_self_perm _).subset hs)
    exact keyOf_free (hr.conditions c hc)
  have hnonempty {r : Rule} (h : 1 < r.conditions.length) : sortTexts r.keys ≠ [] := by
    intro hnil
    have hlength := (sortTexts_self_perm r.keys).length_eq
    rw [hnil, Rule.keys, List.length_map, List.length_nil] at hlength
    omega
  have hchars := congrArg String.toList heq
  rw [signature_several h, signature_several h'] at hchars
  obtain ⟨hop, hrest⟩ := cut_marks (hoperator hr) (hoperator hr') (by simp) (by simp) hchars
  have hjoined := String.toList_injective (List.append_cancel_right (List.cons.inj hrest).2)
  have hsorted := joined_inj rfl (hbars hr) (hbars hr') (hnonempty h) (hnonempty h') hjoined
  refine ⟨String.toList_injective hop, (sortTexts_self_perm r.keys).symm.trans ?_⟩
  rw [hsorted]
  exact sortTexts_self_perm r'.keys

/-- Rules have one signature exactly if they have the same keys, and the same operator if there is more
than one of them. -/
theorem signature_iff_keys (hr : r.IsPlain) (hr' : r'.IsPlain) (hne : r.signature ≠ "") :
    r.signature = r'.signature ↔ r.keys.Perm r'.keys ∧
      (1 < r.conditions.length → upperCase r.operator = upperCase r'.operator) := by
  have hcases {r : Rule} (h : r.conditions ≠ []) : (∃ c, r.conditions = [c]) ∨ 1 < r.conditions.length := by
    rw [← List.length_eq_one_iff]
    have := List.length_pos_of_ne_nil h
    omega
  have hconditions : r.conditions ≠ [] := (Check.signature_eq_empty_iff r).not.mp hne
  constructor
  · intro h
    have hconditions' : r'.conditions ≠ [] := (Check.signature_eq_empty_iff r').not.mp (h ▸ hne)
    rcases hcases hconditions with ⟨c, hone⟩ | hmany
    · have hc : c.IsPlainIn r := hr.conditions c (by simp [hone])
      rcases hcases hconditions' with ⟨c', hone'⟩ | hmany'
      · rw [signature_single hone, signature_single hone'] at h
        simp [Rule.keys, hone, hone', h]
      · rw [signature_single hone] at h
        exact absurd h.symm (several_ne_key hr' hc hmany')
    · rcases hcases hconditions' with ⟨c', hone'⟩ | hmany'
      · rw [signature_single hone'] at h
        exact absurd h (several_ne_key hr (hr'.conditions c' (by simp [hone'])) hmany)
      · obtain ⟨hoperator, hkeys⟩ := several_cut hr hr' hmany hmany' h
        exact ⟨hkeys, fun _ => hoperator⟩
  · rintro ⟨hkeys, hoperator⟩
    have hlength := hkeys.length_eq
    rw [Rule.keys, Rule.keys, List.length_map, List.length_map] at hlength
    rcases hcases hconditions with ⟨c, hone⟩ | hmany
    · obtain ⟨c', hone'⟩ := List.length_eq_one_iff.mp (hlength.symm.trans (by rw [hone]; rfl))
      rw [signature_single hone, signature_single hone']
      simpa [Rule.keys, hone, hone'] using hkeys
    · refine String.toList_injective ?_
      rw [signature_several hmany, signature_several (hlength ▸ hmany), hoperator hmany,
        sortTexts_perm hkeys]

end Keys

/-! ## Signatures and descriptors -/

section Told

variable {r r' : Rule}

/-- **Rules with one signature have triggers that are told alike.** Two rules have one signature exactly if
their conditions can be matched one to one, such that what a key tells of matched conditions is the same,
and several of them are joined by the same operator. -/
theorem signature_iff_told (hr : r.IsPlain) (hr' : r'.IsPlain) (hne : r.signature ≠ "") :
    r.signature = r'.signature ↔
      (∃ cs, cs.Perm r'.conditions ∧
        List.Forall₂ (fun c c' => r.told c = r'.told c') r.conditions cs) ∧
      (1 < r.conditions.length → upperCase r.operator = upperCase r'.operator) := by
  rw [signature_iff_keys hr hr' hne, Rule.keys, Rule.keys, map_perm_iff]
  refine and_congr_left fun _ => exists_congr fun cs => and_congr_right fun hperm => ?_
  refine forall₂_congr_of_mem fun c hc c' hc' => ?_
  exact keyOf_iff (hr.conditions c hc) (hr'.conditions c' (hperm.subset hc'))

/-- A fish that is caught, or gets away, when it is tapped while some of its frames are played. -/
def fishing (id : String) (first last : Int) (outcome : Action) : Rule :=
  ⟨id, .empty, .empty, .value ⟨"AND", [tap, swim]⟩, [outcome]⟩
where
  tap : Condition := .touch (.value "fish") (.value "down")
  swim : Condition :=
    .animation (.value "fish") (.value "playing") none (.value [.int first, .int last]) none

theorem fishing_isPlain (id : String) (first last : Int) (outcome : Action) :
    (fishing id first last outcome).IsPlain where
  conditions := by
    have hfish : (Slot.value "fish").IsPlain := by decide
    have hdown : (Slot.value "down").IsPlain := by decide
    have hplaying : (Slot.value "playing").IsPlain := by decide
    exact List.forall_mem_cons.mpr
      ⟨⟨hfish, hdown⟩, List.forall_mem_cons.mpr ⟨⟨hfish, hplaying⟩, List.forall_mem_nil _⟩⟩
  operator := by
    have hand : upperCase "AND" = "AND" := by decide +kernel
    exact .inl hand

theorem fishing_signature_ne (id : String) (first last : Int) (outcome : Action) :
    (fishing id first last outcome).signature ≠ "" :=
  (Check.signature_eq_empty_iff _).not.mpr (List.cons_ne_nil _ _)

theorem signature_iff_told_fishing :
    let catches := fishing "catch" 1 5 (.success none .empty)
    let misses := fishing "miss" 6 12 (.failure none .empty)
    catches.IsPlain ∧ misses.IsPlain ∧ catches.signature ≠ "" ∧
      (catches.signature = misses.signature ↔
        (∃ cs, cs.Perm misses.conditions ∧
          List.Forall₂ (fun c c' => catches.told c = misses.told c') catches.conditions cs) ∧
        (1 < catches.conditions.length → upperCase catches.operator = upperCase misses.operator)) :=
  ⟨fishing_isPlain .., fishing_isPlain .., fishing_signature_ne _ _ _ _,
    signature_iff_told (fishing_isPlain ..) (fishing_isPlain ..) (fishing_signature_ne _ _ _ _)⟩

/-- Two rules with one signature whose conditions cannot be matched: they ask for other frames. -/
theorem fishing_confused :
    let catches := fishing "catch" 1 5 (.success none .empty)
    let misses := fishing "miss" 6 12 (.failure none .empty)
    catches.IsPlain ∧ misses.IsPlain ∧ catches.signature ≠ "" ∧ catches.signature = misses.signature ∧
      ¬∃ cs, cs.Perm misses.conditions ∧
        List.Forall₂ (fun c c' => catches.settled c = misses.settled c') catches.conditions cs := by
  intro catches misses
  refine ⟨fishing_isPlain .., fishing_isPlain .., fishing_signature_ne _ _ _ _,
    (signature_congr rfl (List.Perm.refl _)).symm, ?_⟩
  rintro ⟨cs, hperm, hmatched⟩
  -- What the second condition asks for is asked for by none of the other rule.
  have hframes : ∀ c ∈ misses.conditions, catches.settled (fishing.swim 1 5) ≠ misses.settled c := by
    refine List.forall_mem_cons.mpr ⟨?_, List.forall_mem_cons.mpr ⟨?_, List.forall_mem_nil _⟩⟩
    · simp [fishing.swim, fishing.tap, Rule.settled]
    · simp [fishing.swim, Rule.settled, Slot.mapValue, Number.leveled]
  cases hmatched with
  | cons _ hrest =>
    cases hrest with
    | @cons _ c _ _ hc _ => exact hframes c (hperm.subset (by simp)) hc

end Told

/-! ## Types whose keys leave nothing out -/

/-- A condition of one of the types whose keys leave nothing out and round nothing: a touch, a counter and a
whole number, a flag, a state of the game or of an object. -/
inductive Condition.IsDiscrete : Condition → Prop
  | touch (target touchType : Slot String) : IsDiscrete (.touch target touchType)
  | counter (name comparison : Slot String) (value : Int) :
      IsDiscrete (.counter name comparison (some (.int value)))
  | flag (name flagState : Slot String) : IsDiscrete (.flag name flagState)
  | gameState (state : Slot String) : IsDiscrete (.gameState state)
  | objectState (target state : Slot String) : IsDiscrete (.objectState target state)

theorem told_of_discrete (r : Rule) {c : Condition} (h : c.IsDiscrete) : r.told c = r.settled c := by
  cases h <;> rfl

/-- **Signatures are unambiguous.** Rules of discrete conditions with one signature have the same
descriptors, each as often as in the other, and several of them are joined by the same operator. -/
theorem signature_unambiguous {r r' : Rule} (hr : r.IsPlain) (hr' : r'.IsPlain)
    (hdiscrete : ∀ c ∈ r.conditions, c.IsDiscrete) (hdiscrete' : ∀ c ∈ r'.conditions, c.IsDiscrete)
    (hne : r.signature ≠ "") (h : r.signature = r'.signature) :
    (r.conditions.map r.settled).Perm (r'.conditions.map r'.settled) ∧
      (1 < r.conditions.length → upperCase r.operator = upperCase r'.operator) := by
  obtain ⟨hkeys, hoperator⟩ := (signature_iff_keys hr hr' hne).mp h
  refine ⟨?_, hoperator⟩
  obtain ⟨cs, hperm, hmatched⟩ := map_perm_iff.mp hkeys
  refine map_perm_iff.mpr ⟨cs, hperm, (forall₂_congr_of_mem fun c hc c' hc' => ?_).mp hmatched⟩
  have hc' := hperm.subset hc'
  rw [keyOf_iff (hr.conditions c hc) (hr'.conditions c' hc'), told_of_discrete r (hdiscrete c hc),
    told_of_discrete r' (hdiscrete' c' hc')]

/-- An apple that is tapped when it is ripe, with little or much said about it. -/
def ripening (comparison target touchType : Slot String) : Rule :=
  ⟨"ripe", .empty, .value "apple", .value ⟨"AND", [.counter (.value "days") comparison (some (.int 3)),
    .touch target touchType]⟩, []⟩

theorem ripening_isPlain {comparison target touchType : Slot String} (hcomparison : comparison.IsPlain)
    (htarget : ((ripening comparison target touchType).resolve target).IsPlain)
    (htouch : touchType.IsPlain) : (ripening comparison target touchType).IsPlain where
  conditions := by
    have hdays : (Slot.value "days").IsPlain := by decide
    exact List.forall_mem_cons.mpr ⟨⟨hdays, hcomparison⟩,
      List.forall_mem_cons.mpr ⟨⟨htarget, htouch⟩, List.forall_mem_nil _⟩⟩
  operator := by
    have hand : upperCase "AND" = "AND" := by decide +kernel
    exact .inl hand

theorem ripening_isDiscrete (comparison target touchType : Slot String) :
    ∀ c ∈ (ripening comparison target touchType).conditions, c.IsDiscrete :=
  List.forall_mem_cons.mpr ⟨.counter .., List.forall_mem_cons.mpr ⟨.touch .., List.forall_mem_nil _⟩⟩

theorem signature_unambiguous_ripening :
    let terse := ripening .empty .empty .empty
    let wordy := ripening (.value "greaterOrEqual") (.value "apple") (.value "down")
    terse.signature ≠ "" ∧ terse.signature = wordy.signature ∧
      (terse.conditions.map terse.settled).Perm (wordy.conditions.map wordy.settled) ∧
      (1 < terse.conditions.length → upperCase terse.operator = upperCase wordy.operator) := by
  intro terse wordy
  have hne : terse.signature ≠ "" := (Check.signature_eq_empty_iff _).not.mpr (List.cons_ne_nil _ _)
  have hsignature : terse.signature = wordy.signature :=
    (signature_congr rfl (List.Perm.refl _)).symm
  have hplain : terse.IsPlain := ripening_isPlain (by decide) (by decide) (by decide)
  have hplain' : wordy.IsPlain := ripening_isPlain (by decide) (by decide) (by decide)
  exact ⟨hne, hsignature, signature_unambiguous hplain hplain'
    (ripening_isDiscrete _ _ _) (ripening_isDiscrete _ _ _) hne hsignature⟩

end TouchGame
