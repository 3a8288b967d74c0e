import Mathlib.Data.List.Basic
import TouchGame.Text.Quoted

/-!
# Where a text ends

Texts that are written one behind the other can be told apart if something marks where each one ends:
a character that does not occur in them, or a separator made of such a character.

* `cut_at`, `span_append` : the front of a list, up to the first item of a kind.
* `BeginsWith` : what stands behind a text begins with one of some characters, if there is any.
* `joined_cons` : the first of some joined texts, and the others.
* `joined_inj` : texts joined by a character that is in none of them.
-/

namespace TouchGame.Text

/-- Two fronts without an item of a kind, each followed by such an item or by nothing. -/
theorem cut_at {α : Type} {p : α → Prop} {front front' back back' : List α}
    (hfront : ∀ a ∈ front, ¬p a) (hfront' : ∀ a ∈ front', ¬p a)
    (hback : ∀ a ∈ back.head?, p a) (hback' : ∀ a ∈ back'.head?, p a)
    (h : front ++ back = front' ++ back') : front = front' ∧ back = back' := by
  induction front generalizing front' with
  | nil =>
    cases front' with
    | nil => exact ⟨rfl, h⟩
    | cons b rest =>
      rw [List.nil_append] at h
      exact absurd (hback b (by simp [h])) (hfront' b List.mem_cons_self)
  | cons a rest ih =>
    cases front' with
    | nil =>
      rw [List.nil_append] at h
      exact absurd (hback' a (by simp [← h])) (hfront a List.mem_cons_self)
    | cons b rest' =>
      rw [List.cons_append, List.cons_append, List.cons.injEq] at h
      obtain ⟨rfl, hrest⟩ := h
      obtain ⟨rfl, hback⟩ := ih (fun c hc => hfront c (List.mem_cons_of_mem _ hc))
        (fun c hc => hfront' c (List.mem_cons_of_mem _ hc)) hrest
      exact ⟨rfl, hback⟩

theorem span_append {α : Type} {p : α → Bool} {front back : List α} (hfront : ∀ a ∈ front, p a = true)
    (hback : ∀ a ∈ back.head?, p a = false) :
    (front ++ back).takeWhile p = front ∧ (front ++ back).dropWhile p = back := by
  rw [List.takeWhile_append_of_pos hfront, List.dropWhile_append_of_pos hfront]
  cases back with
  | nil => simp
  | cons a rest => simp [hback a rfl]

def FreeOf (marks cs : List Char) : Prop :=
  ∀ c ∈ cs, c ∉ marks

/-- Whether marks stand among characters is decided by looking at these, not at every character there is. -/
instance (marks cs : List Char) : Decidable (FreeOf marks cs) :=
  List.decidableBAll (fun c => c ∉ marks) cs

section FreeOf

variable {marks more cs ds : List Char}

@[simp] theorem freeOf_nil : FreeOf marks [] := by
  simp [FreeOf]

@[simp] theorem freeOf_cons {c : Char} : FreeOf marks (c :: cs) ↔ c ∉ marks ∧ FreeOf marks cs := by
  simp [FreeOf]

@[simp] theorem freeOf_append : FreeOf marks (cs ++ ds) ↔ FreeOf marks cs ∧ FreeOf marks ds := by
  simp [FreeOf, or_imp, forall_and]

theorem FreeOf.mono (h : FreeOf more cs) (hsub : marks ⊆ more) : FreeOf marks cs :=
  fun c hc hmark => h c hc (hsub hmark)

theorem freeOf_singleton {mark : Char} : FreeOf [mark] cs ↔ mark ∉ cs := by
  simp only [FreeOf, List.mem_singleton]
  exact ⟨fun h hmark => h mark hmark rfl, fun h c hc heq => h (heq ▸ hc)⟩

end FreeOf

def BeginsWith (marks cs : List Char) : Prop :=
  ∀ c ∈ cs.head?, c ∈ marks

@[simp] theorem beginsWith_nil (marks : List Char) : BeginsWith marks [] := by
  simp [BeginsWith]

@[simp] theorem beginsWith_cons {marks cs : List Char} {c : Char} :
    BeginsWith marks (c :: cs) ↔ c ∈ marks := by
  simp [BeginsWith]

theorem cut_marks {marks front front' back back' : List Char} (hfront : FreeOf marks front)
    (hfront' : FreeOf marks front') (hback : BeginsWith marks back) (hback' : BeginsWith marks back')
    (h : front ++ back = front' ++ back') : front = front' ∧ back = back' :=
  cut_at hfront hfront' hback hback' h

/-! ## Joined texts -/

theorem joined_cons (separator s : String) (rest : List String) :
    (joined separator (s :: rest)).toList =
      s.toList ++ rest.flatMap fun t => separator.toList ++ t.toList := by
  induction rest generalizing s with
  | nil => simp [joined]
  | cons t rest ih =>
    rw [joined, String.toList_append, String.toList_append, ih, List.flatMap_cons]
    · simp only [List.append_assoc]
    · simp

section Separated

variable {separator : String} {mark : Char} {texts texts' : List String}

/-- Texts behind separators that are a character of their own. -/
theorem separated_inj (h : ∀ s ∈ texts, mark ∉ s.toList) (h' : ∀ s ∈ texts', mark ∉ s.toList)
    (heq : texts.flatMap (fun t => mark :: t.toList) = texts'.flatMap fun t => mark :: t.toList) :
    texts = texts' := by
  induction texts generalizing texts' with
  | nil =>
    cases texts' with
    | nil => rfl
    | cons s rest => simp at heq
  | cons s rest ih =>
    cases texts' with
    | nil => simp at heq
    | cons t rest' =>
      rw [List.flatMap_cons, List.flatMap_cons, List.cons_append, List.cons_append,
        List.cons.injEq] at heq
      have hrest (list : List String) : BeginsWith [mark] (list.flatMap fun t => mark :: t.toList) := by
        cases list <;> simp
      have hs : FreeOf [mark] s.toList := freeOf_singleton.mpr (h s List.mem_cons_self)
      have ht : FreeOf [mark] t.toList := freeOf_singleton.mpr (h' t List.mem_cons_self)
      obtain ⟨hst, hlater⟩ := cut_marks hs ht (hrest rest) (hrest rest') heq.2
      rw [String.toList_injective hst, ih (fun u hu => h u (List.mem_cons_of_mem _ hu))
        (fun u hu => h' u (List.mem_cons_of_mem _ hu)) hlater]

theorem joined_inj (hseparator : separator.toList = [mark]) (h : ∀ s ∈ texts, mark ∉ s.toList)
    (h' : ∀ s ∈ texts', mark ∉ s.toList) (hne : texts ≠ []) (hne' : texts' ≠ [])
    (heq : joined separator texts = joined separator texts') : texts = texts' := by
  obtain ⟨s, rest, rfl⟩ := List.exists_cons_of_ne_nil hne
  obtain ⟨t, rest', rfl⟩ := List.exists_cons_of_ne_nil hne'
  have hchars := congrArg String.toList heq
  rw [joined_cons, joined_cons, hseparator] at hchars
  -- A separator in front of both makes the first text one like the others.
  refine separated_inj h h' ?_
  rw [List.flatMap_cons, List.flatMap_cons, List.cons_append, List.cons_append]
  exact congrArg (mark :: ·) hchars

end Separated

end TouchGame.Text
