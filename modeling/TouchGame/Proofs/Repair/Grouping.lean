import Mathlib.Data.List.Perm.Basic
import TouchGame.Proofs.Results
import TouchGame.Repair.Brief

/-!
# Messages by code

A brief goes through the findings once and puts each message behind those of its code, or begins a new
group with it. What comes out is a stable grouping: one group for each code, in the order in which the codes
first occur, each with the messages of its code in their order, and no message is lost or said twice. So a
brief depends on nothing else of the order of the findings.

* `firstPlace`, `InFirstOrder` : where a label first occurs, and labels in the order of these places.
* `messagesOf` : the messages of a label, in their order.
* `Collects` : what groups hold of the findings that were looked at; `Collects.step` is a look at one more
  finding, and `Collects.run` at a whole list.
* `Rearranged` : the same findings in another order that a brief does not tell apart.
* `brief_grouped` : the brief about findings with codes.
-/

namespace TouchGame.Repair

variable {findings later seen : List Finding} {groups : Groups} {labels : List Label}
  {label other : Label} {f : Finding}

/-! ## Labels in order -/

/-- The place of the first finding with a label, or the number of findings where there is none. -/
def firstPlace (label : Label) (findings : List Finding) : Nat :=
  findings.findIdx (·.label == label)

/-- The labels of findings, each once, in the order in which they first occur. -/
structure InFirstOrder (findings : List Finding) (labels : List Label) : Prop where
  distinct : labels.Nodup
  occurs : ∀ label, label ∈ labels ↔ ∃ f ∈ findings, f.label = label
  ordered : labels.Pairwise fun label other => firstPlace label findings < firstPlace other findings

theorem firstPlace_lt_length : firstPlace label findings < findings.length ↔
    ∃ f ∈ findings, f.label = label := by
  simp [firstPlace, List.findIdx_lt_length]

theorem firstPlace_append (label : Label) (seen later : List Finding) :
    firstPlace label (seen ++ later) = if firstPlace label seen < seen.length then firstPlace label seen
      else seen.length + firstPlace label later := by
  rw [firstPlace, List.findIdx_append, Nat.add_comm]
  rfl

theorem labeled_snoc : (∃ e ∈ seen ++ [f], e.label = label) ↔
    (∃ e ∈ seen, e.label = label) ∨ f.label = label := by
  simp [or_and_right, exists_or]

def withLabel (label : Label) (labels : List Label) : List Label :=
  if label ∈ labels then labels else labels ++ [label]

theorem withLabel_cons (hother : other ≠ label) (rest : List Label) :
    withLabel label (other :: rest) = other :: withLabel label rest := by
  have hmem : label ∈ other :: rest ↔ label ∈ rest := by
    rw [List.mem_cons, or_iff_right (Ne.symm hother)]
  unfold withLabel
  by_cases hlabel : label ∈ rest
  · rw [if_pos hlabel, if_pos (hmem.mpr hlabel)]
  · rw [if_neg hlabel, if_neg (mt hmem.mp hlabel), List.cons_append]

namespace InFirstOrder

theorem firstPlace_snoc (h : InFirstOrder seen labels) (f : Finding) (hlabel : label ∈ labels) :
    firstPlace label (seen ++ [f]) = firstPlace label seen := by
  rw [firstPlace_append, if_pos (firstPlace_lt_length.mpr ((h.occurs label).mp hlabel))]

theorem ordered_snoc (h : InFirstOrder seen labels) (f : Finding) :
    labels.Pairwise fun label other =>
      firstPlace label (seen ++ [f]) < firstPlace other (seen ++ [f]) := by
  refine h.ordered.imp_of_mem ?_
  intro label other hlabel hother hlt
  rwa [h.firstPlace_snoc f hlabel, h.firstPlace_snoc f hother]

theorem keep (h : InFirstOrder seen labels) (hlabel : f.label ∈ labels) :
    InFirstOrder (seen ++ [f]) labels where
  distinct := h.distinct
  occurs label := by
    rw [labeled_snoc, ← h.occurs label, or_iff_left_of_imp]
    rintro rfl
    exact hlabel
  ordered := h.ordered_snoc f

/-- A new label comes behind all others. -/
theorem add (h : InFirstOrder seen labels) (hnew : f.label ∉ labels) :
    InFirstOrder (seen ++ [f]) (labels ++ [f.label]) where
  distinct := by
    refine List.nodup_append.mpr ⟨h.distinct, List.pairwise_singleton _ _, ?_⟩
    intro label hlabel other hother heq
    rw [heq, List.mem_singleton.mp hother] at hlabel
    exact hnew hlabel
  occurs label := by
    rw [labeled_snoc, ← h.occurs label, List.mem_append, List.mem_singleton, eq_comm (a := label)]
  ordered := by
    refine List.pairwise_append.mpr ⟨h.ordered_snoc f, List.pairwise_singleton _ _, ?_⟩
    intro label hlabel other hother
    obtain rfl := List.mem_singleton.mp hother
    have hnone : ¬ firstPlace f.label seen < seen.length := by
      intro hlt
      exact hnew ((h.occurs f.label).mpr (firstPlace_lt_length.mp hlt))
    have hplace : firstPlace label seen < seen.length :=
      firstPlace_lt_length.mpr ((h.occurs label).mp hlabel)
    rw [h.firstPlace_snoc f hlabel, firstPlace_append f.label, if_neg hnone]
    omega

theorem step (h : InFirstOrder seen labels) (f : Finding) :
    InFirstOrder (seen ++ [f]) (withLabel f.label labels) := by
  unfold withLabel
  by_cases hlabel : f.label ∈ labels
  · rw [if_pos hlabel]
    exact h.keep hlabel
  · rw [if_neg hlabel]
    exact h.add hlabel

theorem unique {labels' : List Label} (h : InFirstOrder findings labels)
    (h' : InFirstOrder findings labels') : labels = labels' := by
  have hperm : labels.Perm labels' := by
    rw [List.perm_ext_iff_of_nodup h.distinct h'.distinct]
    intro label
    rw [h.occurs, h'.occurs]
  refine hperm.eq_of_pairwise ?_ h.ordered h'.ordered
  intro label other _ _ hlt hgt
  omega

end InFirstOrder

/-! ## Groups -/

/-- The messages of the findings with a label, in their order. -/
def messagesOf (label : Label) (findings : List Finding) : List String :=
  (findings.filter (·.label == label)).map (·.message)

theorem messagesOf_snoc (label : Label) (seen : List Finding) (f : Finding) :
    messagesOf label (seen ++ [f]) =
      messagesOf label seen ++ if f.label = label then [f.message] else [] := by
  rw [messagesOf, messagesOf, List.filter_append, List.map_append]
  by_cases hlabel : f.label = label <;> simp [hlabel]

theorem messagesOf_eq_nil (h : ∀ f ∈ findings, f.label ≠ label) : messagesOf label findings = [] := by
  rw [messagesOf, List.map_eq_nil_iff, List.filter_eq_nil_iff]
  intro f hf
  simpa using h f hf

/-- A message that is added stands behind those of its label. -/
theorem Groups.add_map {message : String} {messages : Label → List String} (hdistinct : labels.Nodup)
    (hnew : label ∉ labels → messages label = []) :
    Groups.add label message (labels.map fun l => (l, messages l)) =
      (withLabel label labels).map fun l => (l, messages l ++ if label = l then [message] else []) := by
  induction labels with
  | nil => simp [withLabel, Groups.add, hnew List.not_mem_nil]
  | cons first rest ih =>
    obtain ⟨hfirst, hrest⟩ := List.nodup_cons.mp hdistinct
    rw [List.map_cons, Groups.add]
    by_cases heq : first = label
    · subst heq
      have hothers : ∀ l ∈ rest,
          (l, messages l ++ if first = l then [message] else []) = (l, messages l) := by
        intro l hl
        have hother : first ≠ l := by
          rintro rfl
          exact hfirst hl
        rw [if_neg hother, List.append_nil]
      rw [if_pos (beq_self_eq_true first), withLabel, if_pos List.mem_cons_self, List.map_cons, if_pos rfl,
        List.map_congr_left hothers]
    · have hnew' : label ∉ rest → messages label = [] := fun hnot =>
        hnew (List.not_mem_cons_of_ne_of_not_mem (Ne.symm heq) hnot)
      rw [if_neg (by simpa using heq), ih hrest hnew', withLabel_cons heq, List.map_cons,
        if_neg (Ne.symm heq), List.append_nil]

theorem Groups.add_messages (label : Label) (message : String) (groups : Groups) :
    ((groups.add label message).flatMap (·.2)).Perm (groups.flatMap (·.2) ++ [message]) := by
  induction groups with
  | nil => exact List.Perm.refl _
  | cons group rest ih =>
    obtain ⟨other, messages⟩ := group
    rw [Groups.add, List.flatMap_cons, List.append_assoc]
    by_cases heq : other = label
    · rw [if_pos (by simpa using heq), List.flatMap_cons, List.append_assoc]
      exact List.perm_append_comm.append_left messages
    · rw [if_neg (by simpa using heq), List.flatMap_cons]
      exact ih.append_left messages

/-- Groups hold the messages of the findings that were looked at: each label has its own group, the groups
are in the order in which the labels first occur, each has the messages of its label in their order, and
together they have as many of each message as the findings. -/
structure Collects (seen : List Finding) (groups : Groups) : Prop where
  labels : InFirstOrder seen (groups.map (·.1))
  messages : groups = (groups.map (·.1)).map fun label => (label, messagesOf label seen)
  whole : (groups.flatMap (·.2)).Perm (seen.map (·.message))

namespace Collects

theorem step (h : Collects seen groups) (f : Finding) :
    Collects (seen ++ [f]) (groups.add f.label f.message) := by
  have hadd : groups.add f.label f.message =
      (withLabel f.label (groups.map (·.1))).map fun label => (label, messagesOf label (seen ++ [f])) := by
    have hnew : f.label ∉ groups.map (·.1) → messagesOf f.label seen = [] := by
      intro hnot
      refine messagesOf_eq_nil fun e he hlabel => hnot ?_
      exact (h.labels.occurs f.label).mpr ⟨e, he, hlabel⟩
    simp only [messagesOf_snoc]
    rw [← Groups.add_map h.labels.distinct hnew, ← h.messages]
  have hlabels : (groups.add f.label f.message).map (·.1) = withLabel f.label (groups.map (·.1)) := by
    rw [hadd, List.map_map]
    exact List.map_id _
  refine ⟨?_, ?_, ?_⟩
  · rw [hlabels]
    exact h.labels.step f
  · rw [hlabels]
    exact hadd
  · rw [List.map_append]
    exact (Groups.add_messages f.label f.message groups).trans (h.whole.append_right _)

theorem run (h : Collects seen groups) (later : List Finding) :
    Collects (seen ++ later) (later.foldl (fun groups f => Groups.add f.label f.message groups) groups) := by
  induction later generalizing seen groups with
  | nil => rwa [List.append_nil]
  | cons f rest ih =>
    rw [List.foldl_cons, List.append_cons]
    exact ih (h.step f)

end Collects

theorem collects_grouped (findings : List Finding) : Collects findings (grouped findings) := by
  have hnothing : Collects [] [] := ⟨⟨List.nodup_nil, by simp, List.Pairwise.nil⟩, rfl, List.Perm.nil⟩
  exact hnothing.run findings

/-! ## Briefs -/

theorem exists_codes (h : ∀ label ∈ labels, ∃ c, label = .listed c) :
    ∃ codes : List Code, codes.map .listed = labels := by
  induction labels with
  | nil => exact ⟨[], rfl⟩
  | cons label rest ih =>
    obtain ⟨c, rfl⟩ := h label List.mem_cons_self
    obtain ⟨codes, rfl⟩ := ih fun label hlabel => h label (List.mem_cons_of_mem _ hlabel)
    exact ⟨c :: codes, rfl⟩

theorem brief_of_codes {codes : List Code} (hcodes : (grouped findings).map (·.1) = codes.map .listed) :
    brief findings = .ok (Text.joined "\n" (briefTitle ::
      codes.flatMap fun c => block c (messagesOf (.listed c) findings))) := by
  have hblocks : (grouped findings).mapM groupBlock =
      .ok (codes.map fun c => block c (messagesOf (.listed c) findings)) := by
    rw [(collects_grouped findings).messages, hcodes, List.map_map, List.mapM_map]
    exact List.mapM_pure
  rw [brief, hblocks, List.flatMap_def]
  rfl

theorem grouped_codes (h : ∀ f ∈ findings, ∃ c, f.label = .listed c) :
    ∃ codes : List Code, (grouped findings).map (·.1) = codes.map .listed := by
  obtain ⟨codes, hcodes⟩ : ∃ codes : List Code, codes.map .listed = (grouped findings).map (·.1) := by
    apply exists_codes
    intro label hlabel
    obtain ⟨f, hf, rfl⟩ := ((collects_grouped findings).labels.occurs label).mp hlabel
    exact h f hf
  exact ⟨codes, hcodes.symm⟩

theorem brief_ok (h : ∀ f ∈ findings, ∃ c, f.label = .listed c) :
    ∃ text, brief findings = .ok text := by
  obtain ⟨codes, hcodes⟩ := grouped_codes h
  exact ⟨_, brief_of_codes hcodes⟩

/-- Findings in another order, in which the labels first occur in the same order and the findings of each
label follow each other in the same order. -/
structure Rearranged (findings rearranged : List Finding) : Prop where
  perm : rearranged.Perm findings
  firsts : ∀ e ∈ findings, ∀ f ∈ findings, firstPlace e.label findings < firstPlace f.label findings →
    firstPlace e.label rearranged < firstPlace f.label rearranged
  within : ∀ f ∈ findings, rearranged.filter (·.label == f.label) = findings.filter (·.label == f.label)

theorem InFirstOrder.rearranged (h : InFirstOrder findings labels) (hr : Rearranged findings later) :
    InFirstOrder later labels where
  distinct := h.distinct
  occurs label := by
    rw [h.occurs label]
    simp only [hr.perm.mem_iff]
  ordered := by
    refine h.ordered.imp_of_mem ?_
    intro label other hlabel hother hlt
    obtain ⟨e, he, rfl⟩ := (h.occurs label).mp hlabel
    obtain ⟨f, hf, rfl⟩ := (h.occurs other).mp hother
    exact hr.firsts e he f hf hlt

theorem grouped_rearranged (hr : Rearranged findings later) :
    grouped later = grouped findings := by
  have hcollects := collects_grouped findings
  have hcollects' := collects_grouped later
  have hlabels : (grouped later).map (·.1) = (grouped findings).map (·.1) :=
    hcollects'.labels.unique (hcollects.labels.rearranged hr)
  rw [hcollects.messages, hcollects'.messages, hlabels]
  apply List.map_congr_left
  intro label hlabel
  obtain ⟨f, hf, rfl⟩ := (hcollects.labels.occurs label).mp hlabel
  rw [messagesOf, hr.within f hf, messagesOf]

/-- **A brief is a stable grouping.** It gives the codes of the findings, each once, in the order in which
they first occur, and under each code the messages of the findings with that code in their order. Together
these are the messages of all findings, each as often as it was given; and findings that are rearranged
without a change of these orders have the same brief. -/
theorem brief_grouped (h : ∀ f ∈ findings, ∃ c, f.label = .listed c) :
    (∃ codes : List Code, InFirstOrder findings (codes.map .listed) ∧
      brief findings = .ok (Text.joined "\n" (briefTitle ::
        codes.flatMap fun c => block c (messagesOf (.listed c) findings))) ∧
      (codes.flatMap fun c => messagesOf (.listed c) findings).Perm (findings.map (·.message))) ∧
    ∀ later, Rearranged findings later → brief later = brief findings := by
  have hcollects := collects_grouped findings
  obtain ⟨codes, hcodes⟩ := grouped_codes h
  constructor
  · refine ⟨codes, hcodes ▸ hcollects.labels, brief_of_codes hcodes, ?_⟩
    have hwhole := hcollects.whole
    rwa [hcollects.messages, hcodes, List.map_map, List.flatMap_map] at hwhole
  · intro later hr
    rw [brief, grouped_rearranged hr, brief]

/-- A rule-set that cannot be won, with a counter that is lost at once; the messages come in turns. -/
def hopeless : List Finding := [
  .critical .noSuccess "no rule wins" "" .none, .critical .instantLose "lives starts at 0" "" .none,
  .critical .noSuccess "no rule of the script wins" "" .none,
  .critical .instantLose "shield starts at 0" "" .none, .critical .noSuccess "no rule wins" "" .none]

/-- The same findings, those about counters together. -/
def hopelessSorted : List Finding := [
  .critical .noSuccess "no rule wins" "" .none, .critical .instantLose "lives starts at 0" "" .none,
  .critical .instantLose "shield starts at 0" "" .none,
  .critical .noSuccess "no rule of the script wins" "" .none,
  .critical .noSuccess "no rule wins" "" .none]

theorem hopeless_rearranged : Rearranged hopeless hopelessSorted where
  perm := by decide
  firsts := by decide
  within := by decide

theorem brief_grouped_hopeless :
    (∀ f ∈ hopeless, ∃ c, f.label = .listed c) ∧ Rearranged hopeless hopelessSorted ∧
      (brief hopeless = .ok ("Fix the following structural problems:\n\n" ++
        "## NO_SUCCESS\n- no rule wins\n- no rule of the script wins\n- no rule wins\n" ++
        "-> Add a rule whose actions include success\n\n" ++
        "## INSTANT_LOSE\n- lives starts at 0\n- shield starts at 0\n" ++
        "-> Set the counter's initial value below the failure threshold")) ∧
      brief hopelessSorted = brief hopeless := by
  have hcoded : ∀ f ∈ hopeless, ∃ c, f.label = .listed c := by
    simp [hopeless, Finding.critical]
  obtain ⟨_, hsame⟩ := brief_grouped hcoded
  exact ⟨hcoded, hopeless_rearranged, by decide +kernel, hsame _ hopeless_rearranged⟩

end TouchGame.Repair
