import Mathlib

/-!
Byte strings: little-endian numbers, and reads and writes of ranges of a byte
list of fixed length.

* `fromLe_toLe`, `toLe_fromLe`: a number and its little-endian bytes determine
  each other;
* `slice_patch_same`, `slice_patch_disjoint`: what a range reads after a write
  to the same range, or to one that does not meet it.

Nothing here depends on what the bytes mean.
-/

namespace Foundation.Bytes

/-! ## Little-endian numbers -/

/-- The number whose little-endian bytes are given. -/
def fromLe : List UInt8 → Nat
  | [] => 0
  | b :: bs => b.toNat + 256 * fromLe bs

/-- The `width` low bytes of a number, least significant first. -/
def toLe : Nat → Nat → List UInt8
  | 0, _ => []
  | width + 1, n => UInt8.ofNat n :: toLe width (n / 256)

@[simp] theorem length_toLe (width n : Nat) : (toLe width n).length = width := by
  induction width generalizing n with
  | zero => rfl
  | succ width ih => simp [toLe, ih]

theorem fromLe_lt (bs : List UInt8) : fromLe bs < 256 ^ bs.length := by
  induction bs with
  | nil => simp [fromLe]
  | cons b bs ih =>
    have hb := b.toNat_lt
    rw [fromLe, List.length_cons, pow_succ]
    omega

theorem fromLe_toLe {width n : Nat} (h : n < 256 ^ width) : fromLe (toLe width n) = n := by
  induction width generalizing n with
  | zero =>
    have : n = 0 := by simpa using h
    simp [toLe, fromLe, this]
  | succ width ih =>
    rw [pow_succ] at h
    have hdiv : n / 256 < 256 ^ width := by omega
    have hmod : (UInt8.ofNat n).toNat = n % 256 := by simp
    rw [toLe, fromLe, ih hdiv, hmod]
    omega

theorem toLe_fromLe (bs : List UInt8) : toLe bs.length (fromLe bs) = bs := by
  induction bs with
  | nil => rfl
  | cons b bs ih =>
    have hb := b.toNat_lt
    have hlow : UInt8.ofNat (b.toNat + 256 * fromLe bs) = b := by
      apply UInt8.toNat_inj.mp
      simp only [UInt8.toNat_ofNat']
      omega
    have hhigh : (b.toNat + 256 * fromLe bs) / 256 = fromLe bs := by omega
    rw [fromLe, List.length_cons, toLe, hlow, hhigh, ih]

/-! ## Ranges -/

/-- The `count` bytes from `offset` on. -/
def slice (m : List UInt8) (offset count : Nat) : List UInt8 := (m.drop offset).take count

/-- `m` with `bytes` written at `offset`. -/
def patch (m : List UInt8) (offset : Nat) (bytes : List UInt8) : List UInt8 :=
  m.take offset ++ bytes ++ m.drop (offset + bytes.length)

theorem getElem?_slice (m : List UInt8) (offset count i : Nat) :
    (slice m offset count)[i]? = if i < count then m[offset + i]? else none := by
  simp [slice, List.getElem?_take, List.getElem?_drop]

theorem length_slice {m : List UInt8} {offset count : Nat} (h : offset + count ≤ m.length) :
    (slice m offset count).length = count := by
  simp only [slice, List.length_take, List.length_drop]
  omega

theorem slice_replicate {n offset count : Nat} (h : offset + count ≤ n) (b : UInt8) :
    slice (List.replicate n b) offset count = List.replicate count b := by
  rw [slice, List.drop_replicate, List.take_replicate, Nat.min_eq_left (by omega)]

theorem length_patch {m : List UInt8} {offset : Nat} {bytes : List UInt8}
    (h : offset + bytes.length ≤ m.length) : (patch m offset bytes).length = m.length := by
  simp only [patch, List.length_append, List.length_take, List.length_drop]
  omega

theorem getElem?_patch {m : List UInt8} {offset : Nat} {bytes : List UInt8}
    (h : offset + bytes.length ≤ m.length) (i : Nat) :
    (patch m offset bytes)[i]? =
      if offset ≤ i ∧ i < offset + bytes.length then bytes[i - offset]? else m[i]? := by
  have htake : (m.take offset).length = offset := by
    rw [List.length_take]
    omega
  unfold patch
  by_cases hlow : i < offset
  · rw [if_neg (by omega), List.append_assoc, List.getElem?_append_left (by omega),
      List.getElem?_take, if_pos hlow]
  · by_cases hhigh : i < offset + bytes.length
    · rw [if_pos (by omega), List.append_assoc, List.getElem?_append_right (by omega), htake,
        List.getElem?_append_left (by omega)]
    · rw [if_neg (by omega), List.getElem?_append_right (by simp only [List.length_append]; omega),
        List.getElem?_drop]
      congr 1
      simp only [List.length_append]
      omega

theorem slice_patch_same {m : List UInt8} {offset : Nat} {bytes : List UInt8}
    (h : offset + bytes.length ≤ m.length) :
    slice (patch m offset bytes) offset bytes.length = bytes := by
  apply List.ext_getElem?
  intro i
  rw [getElem?_slice, getElem?_patch h]
  split
  next hi => rw [if_pos (by omega), Nat.add_sub_cancel_left]
  next hi => rw [List.getElem?_eq_none (by omega)]

theorem slice_patch_disjoint {m : List UInt8} {offset offset' count : Nat} {bytes : List UInt8}
    (h : offset + bytes.length ≤ m.length)
    (hd : offset' + count ≤ offset ∨ offset + bytes.length ≤ offset') :
    slice (patch m offset bytes) offset' count = slice m offset' count := by
  apply List.ext_getElem?
  intro i
  rw [getElem?_slice, getElem?_slice]
  split
  next hi => rw [getElem?_patch h, if_neg (by omega)]
  next => rfl

/-! ## Records of fields -/

/-- `m` with every field `(offset, bytes)` written, in order. -/
def patchAll (m : List UInt8) (fields : List (Nat × List UInt8)) : List UInt8 :=
  fields.foldl (fun m field => patch m field.1 field.2) m

/-- Two fields share no byte. -/
def Apart (f g : Nat × List UInt8) : Prop :=
  f.1 + f.2.length ≤ g.1 ∨ g.1 + g.2.length ≤ f.1

instance (f g : Nat × List UInt8) : Decidable (Apart f g) :=
  inferInstanceAs (Decidable (_ ∨ _))

theorem length_patchAll {m : List UInt8} {fields : List (Nat × List UInt8)}
    (h : ∀ f ∈ fields, f.1 + f.2.length ≤ m.length) : (patchAll m fields).length = m.length := by
  induction fields generalizing m with
  | nil => rfl
  | cons f fields ih =>
    have hf := length_patch (h f List.mem_cons_self)
    rw [patchAll, List.foldl_cons, ← patchAll, ih, hf]
    intro g hg
    rw [hf]
    exact h g (List.mem_cons_of_mem _ hg)

theorem slice_patchAll_apart {m : List UInt8} {fields : List (Nat × List UInt8)}
    {offset count : Nat} (h : ∀ f ∈ fields, f.1 + f.2.length ≤ m.length)
    (hd : ∀ f ∈ fields, offset + count ≤ f.1 ∨ f.1 + f.2.length ≤ offset) :
    slice (patchAll m fields) offset count = slice m offset count := by
  induction fields generalizing m with
  | nil => rfl
  | cons f fields ih =>
    have hf := h f List.mem_cons_self
    rw [patchAll, List.foldl_cons, ← patchAll, ih,
      slice_patch_disjoint hf (hd f List.mem_cons_self)]
    · intro g hg
      rw [length_patch hf]
      exact h g (List.mem_cons_of_mem _ hg)
    · exact fun g hg => hd g (List.mem_cons_of_mem _ hg)

/-- **A record reads back.**  Where the fields share no byte, each holds what
was written to it. -/
theorem slice_patchAll {m : List UInt8} {fields : List (Nat × List UInt8)}
    (h : ∀ f ∈ fields, f.1 + f.2.length ≤ m.length) (hd : fields.Pairwise Apart)
    {offset : Nat} {bytes : List UInt8} (hf : (offset, bytes) ∈ fields) :
    slice (patchAll m fields) offset bytes.length = bytes := by
  induction fields generalizing m with
  | nil => simp at hf
  | cons f fields ih =>
    have hhead := h f List.mem_cons_self
    have htail : ∀ g ∈ fields, g.1 + g.2.length ≤ (patch m f.1 f.2).length := by
      intro g hg
      rw [length_patch hhead]
      exact h g (List.mem_cons_of_mem _ hg)
    rw [patchAll, List.foldl_cons, ← patchAll]
    rw [List.pairwise_cons] at hd
    rcases List.mem_cons.mp hf with rfl | hf
    · rw [slice_patchAll_apart htail hd.1, slice_patch_same hhead]
    · exact ih htail hd.2 hf

end Foundation.Bytes
