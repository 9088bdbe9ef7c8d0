import Mathlib

/-!
Maps in the order of their keys, as lists.

* `ofList_sorted`: a list that is in order already is its own map.
* `ofList_map`: a change of keys that keeps their order, and a change of
  values, can be made before or after.
-/

namespace Foundation.SortedMap

section Insert

variable {κ α : Type} [LT κ] [DecidableLT κ] [DecidableEq κ]

/-- The entry of a key, replaced if it is there. -/
def insert : List (κ × α) → κ → α → List (κ × α)
  | [], k, v => [(k, v)]
  | (key, w) :: entries, k, v =>
    if k = key then (k, v) :: entries
    else if k < key then (k, v) :: (key, w) :: entries
    else (key, w) :: insert entries k v

/-- The entries one after another, the last of a key staying. -/
def insertAll (start entries : List (κ × α)) : List (κ × α) :=
  entries.foldl (fun m e => insert m e.1 e.2) start

def ofList (entries : List (κ × α)) : List (κ × α) := insertAll [] entries

def Sorted (entries : List (κ × α)) : Prop := entries.Pairwise fun e f => e.1 < f.1

@[simp] theorem insertAll_nil (start : List (κ × α)) : insertAll start [] = start := rfl

@[simp] theorem insertAll_cons (start : List (κ × α)) (e : κ × α) (entries : List (κ × α)) :
    insertAll start (e :: entries) = insertAll (insert start e.1 e.2) entries := rfl

/-! ## Entries -/

/-- The entry of a key. -/
def get (m : List (κ × α)) (k : κ) : Option α := (m.find? fun e => e.1 = k).map (·.2)

theorem get_insert (m : List (κ × α)) (k k' : κ) (v : α) :
    get (insert m k v) k' = if k' = k then some v else get m k' := by
  induction m with
  | nil =>
    by_cases h : k' = k
    · simp [insert, get, h]
    · simp [insert, get, h, Ne.symm h]
  | cons e m ih =>
    rw [insert]
    split
    next heq =>
      subst heq
      by_cases h : k' = e.1
      · simp [get, h]
      · simp [get, h, Ne.symm h]
    next hne =>
      split
      next =>
        by_cases h : k' = k
        · simp [get, h]
        · simp [get, h, Ne.symm h]
      next =>
        by_cases h : e.1 = k'
        · subst h
          simp [get, Ne.symm hne]
        · unfold get at ih ⊢
          simp [h, ih]

theorem length_insert_of_get_none {m : List (κ × α)} {k : κ} (v : α) (h : get m k = none) :
    (insert m k v).length = m.length + 1 := by
  induction m with
  | nil => rfl
  | cons e m ih =>
    have hne : e.1 ≠ k := by
      rintro rfl
      simp [get] at h
    have htail : get m k = none := by simpa [get, hne] using h
    rw [insert, if_neg hne.symm]
    split
    · rfl
    · rw [List.length_cons, ih htail, List.length_cons]

/-- The last entry of a key is the one that stays. -/
theorem get_insertAll (m entries : List (κ × α)) (k : κ) :
    get (insertAll m entries) k =
      ((entries.reverse.find? fun e => e.1 = k).map (·.2)).or (get m k) := by
  induction entries generalizing m with
  | nil => simp
  | cons e entries ih =>
    rw [insertAll_cons, ih, get_insert, List.reverse_cons, List.find?_append]
    cases entries.reverse.find? fun e => e.1 = k with
    | some f => simp
    | none =>
      by_cases h : e.1 = k
      · simp [h]
      · simp [h, Ne.symm h]

/-! ## Keys -/

def keys (m : List (κ × α)) : List κ := m.map (·.1)

theorem mem_keys_insert {m : List (κ × α)} {k k' : κ} {v : α} :
    k' ∈ keys (insert m k v) ↔ k' ∈ keys m ∨ k' = k := by
  unfold keys
  induction m with
  | nil => simp [insert]
  | cons e m ih =>
    rw [insert]
    split
    next h => simp [h, or_comm]
    next =>
      split
      next => simp [or_comm]
      next => simp [ih, or_assoc]

omit [LT κ] [DecidableLT κ] [DecidableEq κ] in
/-- What a fold puts in is put in by one of its steps. -/
theorem mem_keys_foldl {β : Type} {g : List (κ × α) → β → List (κ × α)} {P : β → κ → Prop}
    (hg : ∀ m b k, k ∈ keys (g m b) ↔ k ∈ keys m ∨ P b k) (l : List β) (m : List (κ × α)) (k : κ) :
    k ∈ keys (l.foldl g m) ↔ k ∈ keys m ∨ ∃ b ∈ l, P b k := by
  induction l generalizing m with
  | nil => simp
  | cons b l ih => simp [ih, hg, or_assoc]

/-! ## Order -/

section Order

variable [Std.Irrefl (α := κ) (· < ·)] [Std.Asymm (α := κ) (· < ·)]

theorem insert_last {m : List (κ × α)} {k : κ} (v : α) (h : ∀ e ∈ m, e.1 < k) :
    insert m k v = m ++ [(k, v)] := by
  induction m with
  | nil => rfl
  | cons e m ih =>
    obtain ⟨he, hm⟩ := List.forall_mem_cons.mp h
    have hne : k ≠ e.1 := fun heq => Std.Irrefl.irrefl (r := (· < ·)) k (heq ▸ he)
    have hlt : ¬ k < e.1 := Std.Asymm.asymm _ _ he
    rw [insert, if_neg hne, if_neg hlt, ih hm, List.cons_append]

theorem insertAll_sorted {start entries : List (κ × α)} (h : Sorted (start ++ entries)) :
    insertAll start entries = start ++ entries := by
  induction entries generalizing start with
  | nil => rw [insertAll_nil, List.append_nil]
  | cons e entries ih =>
    have hstart : ∀ f ∈ start, f.1 < e.1 := fun f hf =>
      (List.pairwise_append.mp h).2.2 f hf e (List.mem_cons_self ..)
    have happend : start ++ [(e.1, e.2)] ++ entries = start ++ e :: entries := by
      rw [List.append_assoc, List.singleton_append]
    rw [insertAll_cons, insert_last e.2 hstart, ih (by rwa [happend]), happend]

theorem ofList_sorted {entries : List (κ × α)} (h : Sorted entries) :
    ofList entries = entries := insertAll_sorted h

end Order

section Sorted

variable [Trans (α := κ) (· < ·) (· < ·) (· < ·)] [Std.Trichotomous (α := κ) (· < ·)]

theorem Sorted.insert {m : List (κ × α)} (h : Sorted m) (k : κ) (v : α) :
    Sorted (SortedMap.insert m k v) := by
  induction m with
  | nil => simp [SortedMap.insert, Sorted]
  | cons e m ih =>
    obtain ⟨he, hm⟩ := List.pairwise_cons.mp h
    rw [SortedMap.insert]
    split
    next heq =>
      subst heq
      exact List.pairwise_cons.mpr ⟨he, hm⟩
    next hne =>
      split
      next hlt =>
        refine List.pairwise_cons.mpr ⟨fun f hf => ?_, h⟩
        rcases List.mem_cons.mp hf with rfl | hf
        · exact hlt
        · exact Trans.trans hlt (he f hf)
      next hnlt =>
        have hgt : e.1 < k := by
          by_contra hngt
          exact hne (Std.Trichotomous.trichotomous (r := (· < ·)) _ _ hnlt hngt)
        refine List.pairwise_cons.mpr ⟨fun f hf => ?_, ih hm⟩
        have hkey : f.1 ∈ keys (SortedMap.insert m k v) := List.mem_map_of_mem hf
        rcases mem_keys_insert.mp hkey with hf | hf
        · obtain ⟨g, hg, heq⟩ := List.mem_map.mp hf
          exact heq ▸ he g hg
        · exact hf ▸ hgt

theorem Sorted.insertAll {m : List (κ × α)} (h : Sorted m) (entries : List (κ × α)) :
    Sorted (SortedMap.insertAll m entries) := by
  induction entries generalizing m with
  | nil => exact h
  | cons e entries ih => exact ih (h.insert e.1 e.2)

omit [DecidableLT κ] [Trans (α := κ) (· < ·) (· < ·) (· < ·)]
  [Std.Trichotomous (α := κ) (· < ·)] in
/-- The value of an entry, by its key. -/
theorem Sorted.get_of_mem [Std.Irrefl (α := κ) (· < ·)] {m : List (κ × α)} (h : Sorted m)
    {e : κ × α} (he : e ∈ m) : get m e.1 = some e.2 := by
  induction m with
  | nil => cases he
  | cons f m ih =>
    obtain ⟨hf, hm⟩ := List.pairwise_cons.mp h
    rcases List.mem_cons.mp he with rfl | he
    · simp [get]
    · have hne : f.1 ≠ e.1 := fun heq => by
        have hlt := hf e he
        rw [heq] at hlt
        exact Std.Irrefl.irrefl (r := (· < ·)) e.1 hlt
      have := ih hm he
      simpa [get, hne] using this

omit [DecidableLT κ] [DecidableEq κ] [Trans (α := κ) (· < ·) (· < ·) (· < ·)]
  [Std.Trichotomous (α := κ) (· < ·)] in
theorem Sorted.nodup_keys [Std.Irrefl (α := κ) (· < ·)] {m : List (κ × α)} (h : Sorted m) :
    (keys m).Nodup :=
  List.pairwise_map.mpr (h.imp fun hlt heq => by
    rw [heq] at hlt
    exact Std.Irrefl.irrefl (r := (· < ·)) _ hlt)

end Sorted

end Insert

/-! ## Changes of keys and values -/

section Map

variable {κ κ' α β : Type} [LT κ] [DecidableLT κ] [DecidableEq κ] [LT κ'] [DecidableLT κ']
  [DecidableEq κ']

theorem insert_map {f : κ → κ'} (hf : Function.Injective f) (hlt : ∀ j k, f j < f k ↔ j < k)
    (g : α → β) (m : List (κ × α)) (k : κ) (v : α) :
    insert (m.map (Prod.map f g)) (f k) (g v) = (insert m k v).map (Prod.map f g) := by
  induction m with
  | nil => rfl
  | cons e m ih =>
    rw [List.map_cons, insert]
    simp only [Prod.map_fst, Prod.map_snd, hf.eq_iff, hlt, ih]
    conv => rhs; rw [insert]
    split
    next => rfl
    next =>
      split
      next => rfl
      next => rfl

theorem ofList_map {f : κ → κ'} (hf : Function.Injective f) (hlt : ∀ j k, f j < f k ↔ j < k)
    (g : α → β) (entries : List (κ × α)) :
    ofList (entries.map (Prod.map f g)) = (ofList entries).map (Prod.map f g) := by
  suffices h : ∀ start, insertAll (start.map (Prod.map f g)) (entries.map (Prod.map f g)) =
      (insertAll start entries).map (Prod.map f g) from h []
  induction entries with
  | nil => exact fun start => rfl
  | cons e entries ih =>
    intro start
    rw [List.map_cons, insertAll_cons, insertAll_cons, ← ih]
    exact congrArg (insertAll · _) (insert_map hf hlt g start e.1 e.2)

end Map

end Foundation.SortedMap
