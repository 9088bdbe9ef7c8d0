import Mathlib

/-!
Looking for a pattern in a text, and replacing it.

* `after_segment`: a pattern with a delimiter is looked for from one delimiter
  of the text to the next;
* `infix_append_overlap`: a text that grows can be looked through piece by piece;
* `replace_append`: what no occurrence can start in stays as it is.
-/

namespace Foundation.Search

variable {α : Type}

/-- A pattern that starts a text has its first delimiter where the text has. -/
theorem prefix_delimiter {q : α} {m n s r : List α} (hm : q ∉ m) (hs : q ∉ s) :
    m ++ q :: n <+: s ++ q :: r ↔ m = s ∧ n <+: r := by
  induction m generalizing s with
  | nil =>
    cases s with
    | nil => simp
    | cons c s =>
      have hc : q ≠ c := fun h => hs (h ▸ List.mem_cons_self)
      simp [hc]
  | cons a m ih =>
    have ha : a ≠ q := fun h => hm (h ▸ List.mem_cons_self)
    cases s with
    | nil => simp [ha]
    | cons c s =>
      have hrest := ih (s := s) (fun h => hm (List.mem_cons_of_mem _ h))
        fun h => hs (List.mem_cons_of_mem _ h)
      simp only [List.cons_append, List.cons_prefix_cons, hrest, List.cons.injEq, and_assoc]

/-- A pattern in a text that grew is in the old text, or in what is left when the
last characters of it, one less than the pattern has, are looked through again. -/
theorem infix_append_overlap {pattern : List α} (s t : List α) :
    pattern <:+: s ++ t ↔
      pattern <:+: s ∨ pattern <:+: (s ++ t).drop (s.length - (pattern.length - 1)) := by
  have hdrop : (s ++ t).drop (s.length - (pattern.length - 1)) =
      s.drop (s.length - (pattern.length - 1)) ++ t :=
    List.drop_append_of_le_length (Nat.sub_le _ _)
  constructor
  · intro h
    rcases List.infix_append_iff_ne_nil.mp h with hs | ht | ⟨l₁, l₂, hne₁, hne₂, heq, hsuffix, hprefix⟩
    · exact .inl hs
    · rw [hdrop]
      exact .inr (List.infix_append_of_infix_right ht)
    · obtain ⟨s', rfl⟩ := hsuffix
      obtain ⟨t', rfl⟩ := hprefix
      have hlength := List.length_pos_iff.mpr hne₂
      have hle : (s' ++ l₁).length - (pattern.length - 1) ≤ s'.length := by
        rw [heq, List.length_append, List.length_append]
        omega
      rw [hdrop, List.drop_append_of_le_length hle]
      exact .inr ⟨s'.drop ((s' ++ l₁).length - (pattern.length - 1)), t', by simp [heq]⟩
  · rintro (hs | ht)
    · exact List.infix_append_of_infix_left hs
    · exact ht.trans (List.drop_suffix _ _).isInfix

variable [DecidableEq α]

/-- The text after the first occurrence of the pattern. -/
def after (pattern : List α) : List α → Option (List α)
  | [] => if pattern = [] then some [] else none
  | c :: text =>
    if pattern <+: c :: text then some ((c :: text).drop pattern.length)
    else after pattern text

/-- The text with each occurrence of the pattern replaced; `skip` of its first
characters belong to the last occurrence. -/
def replaceFrom (pattern new : List α) : Nat → List α → List α
  | _, [] => []
  | skip + 1, _ :: text => replaceFrom pattern new skip text
  | 0, c :: text =>
    if pattern <+: c :: text then new ++ replaceFrom pattern new (pattern.length - 1) text
    else c :: replaceFrom pattern new 0 text

def replace (pattern new text : List α) : List α := replaceFrom pattern new 0 text

/-! ## Segments -/

/-- **Segments.**  The first occurrence of a pattern has its first delimiter at a
delimiter of the text: at the first one, or further on. -/
theorem after_segment {q : α} {m n seg rest : List α} (hm : q ∉ m) (hseg : q ∉ seg) :
    after (m ++ q :: n) (seg ++ q :: rest) =
      if m <:+ seg ∧ n <+: rest then some (rest.drop n.length)
      else after (m ++ q :: n) rest := by
  induction seg with
  | nil =>
    have hiff := prefix_delimiter (n := n) (r := rest) hm hseg
    rw [List.nil_append] at hiff ⊢
    rw [after]
    by_cases h : m = [] ∧ n <+: rest
    · rw [if_pos (hiff.mpr h), if_pos ⟨by simp [h.1], h.2⟩]
      simp [h.1]
    · rw [if_neg (fun hp => h (hiff.mp hp)), if_neg]
      rintro ⟨hsuffix, hn⟩
      exact h ⟨List.suffix_nil.mp hsuffix, hn⟩
  | cons c seg ih =>
    have hiff := prefix_delimiter (n := n) (r := rest) hm hseg
    rw [List.cons_append] at hiff ⊢
    rw [after, ih fun h => hseg (List.mem_cons_of_mem _ h)]
    by_cases h : m = c :: seg ∧ n <+: rest
    · rw [if_pos (hiff.mpr h), if_pos ⟨h.1 ▸ List.suffix_refl _, h.2⟩, h.1]
      have hlength : (c :: seg ++ q :: n).length = (c :: seg ++ [q]).length + n.length := by
        simp
        omega
      rw [hlength, ← List.drop_drop, show c :: (seg ++ q :: rest) = c :: seg ++ [q] ++ rest by simp,
        List.drop_left]
    · rw [if_neg (fun hp => h (hiff.mp hp))]
      refine if_congr ?_ rfl rfl
      rw [List.suffix_cons_iff]
      constructor
      · rintro ⟨hsuffix, hn⟩
        exact ⟨.inr hsuffix, hn⟩
      · rintro ⟨heq | hsuffix, hn⟩
        · exact absurd ⟨heq, hn⟩ h
        · exact ⟨hsuffix, hn⟩

/-- A pattern is not in a text that lacks one of its characters. -/
theorem after_eq_none {q : α} {pattern text : List α} (hq : q ∈ pattern) (htext : q ∉ text) :
    after pattern text = none := by
  induction text with
  | nil => rw [after, if_neg (List.ne_nil_of_mem hq)]
  | cons c text ih =>
    rw [after, if_neg (fun h => htext (h.subset hq)), ih fun h => htext (List.mem_cons_of_mem _ h)]

/-! ## Replacing -/

theorem replace_append {q : α} {pattern new seg : List α} (hseg : q ∉ seg) (rest : List α) :
    replace (q :: pattern) new (seg ++ rest) = seg ++ replace (q :: pattern) new rest := by
  unfold replace
  induction seg with
  | nil => rfl
  | cons c seg ih =>
    have hc : q ≠ c := fun h => hseg (h ▸ List.mem_cons_self)
    rw [List.cons_append, replaceFrom, if_neg (fun h => hc (List.cons_prefix_cons.mp h).1),
      ih fun h => hseg (List.mem_cons_of_mem _ h), List.cons_append]

/-- No two characters of the segment, and none at its end, begin like this pattern. -/
def skips (q q' : α) : List α → Bool
  | [] => true
  | [c] => c ≠ q
  | c :: d :: seg => !(c = q && d = q') && skips q q' (d :: seg)

theorem skips_append {q q' : α} {s t : List α} (hs : skips q q' s = true)
    (ht : skips q q' t = true) : skips q q' (s ++ t) = true := by
  induction s with
  | nil => exact ht
  | cons c s ih =>
    cases s with
    | nil =>
      cases t with
      | nil => exact hs
      | cons d t =>
        have hc : c ≠ q := of_decide_eq_true hs
        simp [skips, hc, ht]
    | cons d s =>
      simp only [skips, Bool.and_eq_true] at hs
      simp only [List.cons_append, skips, Bool.and_eq_true]
      exact ⟨hs.1, ih hs.2⟩

theorem replace_skips {q q' : α} {pattern new seg : List α} (h : skips q q' seg = true)
    (rest : List α) :
    replace (q :: q' :: pattern) new (seg ++ rest) =
      seg ++ replace (q :: q' :: pattern) new rest := by
  unfold replace
  induction seg with
  | nil => rfl
  | cons c seg ih =>
    have hseg : skips q q' seg = true := by
      cases seg with
      | nil => rfl
      | cons d seg =>
        rw [skips, Bool.and_eq_true] at h
        exact h.2
    have hnot : ¬ q :: q' :: pattern <+: c :: (seg ++ rest) := by
      intro hprefix
      obtain ⟨hc, hprefix⟩ := List.cons_prefix_cons.mp hprefix
      cases seg with
      | nil => simp [skips, hc] at h
      | cons d seg =>
        obtain ⟨hd, -⟩ := List.cons_prefix_cons.mp hprefix
        simp [skips, hc, hd] at h
    rw [List.cons_append, replaceFrom, if_neg hnot, ih hseg, List.cons_append]

theorem replaceFrom_skip (pattern new s rest : List α) :
    replaceFrom pattern new s.length (s ++ rest) = replaceFrom pattern new 0 rest := by
  induction s with
  | nil => rfl
  | cons c s ih => exact ih

/-- The pattern itself is replaced. -/
theorem replace_pattern (q : α) (pattern new rest : List α) :
    replace (q :: pattern) new (q :: pattern ++ rest) = new ++ replace (q :: pattern) new rest := by
  have hprefix : q :: pattern <+: q :: (pattern ++ rest) := List.prefix_append (q :: pattern) rest
  rw [replace, List.cons_append, replaceFrom, if_pos hprefix, List.length_cons,
    Nat.add_sub_cancel, replaceFrom_skip]
  rfl

end Foundation.Search
