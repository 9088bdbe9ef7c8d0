import Mathlib

/-!
Texts of groups of four symbols, which stand for up to three bytes each.

* `text_injective`: a text has at most one reading as groups;
* `grouped_bytes_iff`: a reading is that of its bytes just when only its last group is
  padded and the unused bits of that group are zero.

Nothing here depends on what the symbols are.
-/

namespace Foundation.Base64

/-- The values of a group: all four, or two or three with padding. -/
inductive Group
  | one (v₀ v₁ : Fin 64)
  | two (v₀ v₁ v₂ : Fin 64)
  | three (v₀ v₁ v₂ v₃ : Fin 64)
  deriving DecidableEq, Repr

/-- The bytes between adjacent values. -/
def upper (v₀ v₁ : Fin 64) : UInt8 := .ofNat (v₀ * 4 + v₁ / 16)

def inner (v₁ v₂ : Fin 64) : UInt8 := .ofNat (v₁ % 16 * 16 + v₂ / 4)

def lower (v₂ v₃ : Fin 64) : UInt8 := .ofNat (v₂ % 4 * 64 + v₃)

namespace Group

def padded : Group → Bool
  | one _ _ | two _ _ _ => true
  | three _ _ _ _ => false

/-- The bits of the last value that no byte takes. -/
def unused : Group → Nat
  | one _ v₁ => v₁ % 16
  | two _ _ v₂ => v₂ % 4
  | three _ _ _ _ => 0

def bytes : Group → List UInt8
  | one v₀ v₁ => [upper v₀ v₁]
  | two v₀ v₁ v₂ => [upper v₀ v₁, inner v₁ v₂]
  | three v₀ v₁ v₂ v₃ => [upper v₀ v₁, inner v₁ v₂, lower v₂ v₃]

end Group

/-- The first value of a byte and the bits that are left. -/
def high (a : UInt8) : Fin 64 := ⟨a.toNat / 4, by have := a.toNat_lt; omega⟩

def middle (a b : UInt8) : Fin 64 :=
  ⟨a.toNat % 4 * 16 + b.toNat / 16, by have := b.toNat_lt; omega⟩

def low (b c : UInt8) : Fin 64 :=
  ⟨b.toNat % 16 * 4 + c.toNat / 64, by have := c.toNat_lt; omega⟩

def last (c : UInt8) : Fin 64 := ⟨c.toNat % 64, by omega⟩

/-- Three bytes a group; what is left is padded. -/
def grouped : List UInt8 → List Group
  | [] => []
  | [a] => [.one (high a) (middle a 0)]
  | [a, b] => [.two (high a) (middle a b) (low b 0)]
  | a :: b :: c :: bytes =>
    .three (high a) (middle a b) (low b c) (last c) :: grouped bytes

example : grouped [0, 0, 1, 255] = [.three 0 0 0 1, .one 63 48] := by
  simp [grouped, high, middle, low, last]

/-- Only the last group is padded, and its unused bits are zero. -/
def Canonical (groups : List Group) : Prop :=
  (∀ g ∈ groups.dropLast, g.padded = false) ∧ ∀ g ∈ groups, g.unused = 0

/-! ## Bytes and groups -/

@[simp] theorem toNat_upper (v₀ v₁ : Fin 64) : (upper v₀ v₁).toNat = v₀ * 4 + v₁ / 16 := by
  rw [upper, UInt8.toNat_ofNat']
  omega

@[simp] theorem toNat_inner (v₁ v₂ : Fin 64) :
    (inner v₁ v₂).toNat = v₁ % 16 * 16 + v₂ / 4 := by
  rw [inner, UInt8.toNat_ofNat']
  omega

@[simp] theorem toNat_lower (v₂ v₃ : Fin 64) : (lower v₂ v₃).toNat = v₂ % 4 * 64 + v₃ := by
  rw [lower, UInt8.toNat_ofNat']
  omega

@[simp] theorem upper_high (a b : UInt8) : upper (high a) (middle a b) = a := by
  apply UInt8.toNat_inj.mp
  have hb := b.toNat_lt
  simp only [toNat_upper, high, middle]
  omega

@[simp] theorem inner_middle (a b c : UInt8) : inner (middle a b) (low b c) = b := by
  apply UInt8.toNat_inj.mp
  have hb := b.toNat_lt
  have hc := c.toNat_lt
  simp only [toNat_inner, middle, low]
  omega

@[simp] theorem lower_low (b c : UInt8) : lower (low b c) (last c) = c := by
  apply UInt8.toNat_inj.mp
  have hc := c.toNat_lt
  simp only [toNat_lower, low, last]
  omega

theorem bytes_grouped (s : List UInt8) : (grouped s).flatMap Group.bytes = s := by
  fun_induction grouped s with
  | case1 => rfl
  | case2 a => simp [Group.bytes]
  | case3 a b => simp [Group.bytes]
  | case4 a b c bytes ih => simp [Group.bytes, ih]

theorem grouped_eq_nil_iff {s : List UInt8} : grouped s = [] ↔ s = [] := by
  fun_cases grouped s <;> simp

theorem canonical_grouped (s : List UInt8) : Canonical (grouped s) := by
  fun_induction grouped s with
  | case1 => exact ⟨nofun, nofun⟩
  | case2 a =>
    refine ⟨nofun, ?_⟩
    simp [Group.unused, middle]
  | case3 a b =>
    refine ⟨nofun, ?_⟩
    simp [Group.unused, low]
  | case4 a b c bytes ih =>
    constructor
    · intro g hg
      cases hrest : grouped bytes with
      | nil => simp [hrest] at hg
      | cons first rest =>
        rw [hrest, List.dropLast_cons_of_ne_nil (List.cons_ne_nil _ _), List.mem_cons,
          ← hrest] at hg
        obtain rfl | hg := hg
        · rfl
        · exact ih.1 g hg
    · intro g hg
      obtain rfl | hg := List.mem_cons.mp hg
      · rfl
      · exact ih.2 g hg

theorem Canonical.tail {g : Group} {groups : List Group} (h : Canonical (g :: groups)) :
    Canonical groups := by
  refine ⟨fun g' hg' => h.1 g' ?_, fun g' hg' => h.2 g' (List.mem_cons_of_mem _ hg')⟩
  cases groups with
  | nil => exact nomatch hg'
  | cons first rest => exact List.mem_cons_of_mem _ hg'

theorem Canonical.alone {g : Group} {groups : List Group} (h : Canonical (g :: groups))
    (hpadded : g.padded = true) : groups = [] := by
  cases groups with
  | nil => rfl
  | cons first rest =>
    have hfull := h.1 g (by simp)
    exact absurd (hpadded.symm.trans hfull) (by decide)

theorem grouped_bytes {groups : List Group} (h : Canonical groups) :
    grouped (groups.flatMap Group.bytes) = groups := by
  induction groups with
  | nil => rfl
  | cons g groups ih =>
    have hunused := h.2 g List.mem_cons_self
    cases g with
    | one v₀ v₁ =>
      obtain rfl := h.alone rfl
      simp only [Group.unused] at hunused
      simp only [List.flatMap_cons, List.flatMap_nil, Group.bytes, List.append_nil, grouped,
        List.cons.injEq, Group.one.injEq, Fin.ext_iff, high, middle, toNat_upper,
        UInt8.toNat_zero, and_true]
      omega
    | two v₀ v₁ v₂ =>
      obtain rfl := h.alone rfl
      simp only [Group.unused] at hunused
      simp only [List.flatMap_cons, List.flatMap_nil, Group.bytes, List.append_nil, grouped,
        List.cons.injEq, Group.two.injEq, Fin.ext_iff, high, middle, low, toNat_upper,
        toNat_inner, UInt8.toNat_zero, and_true]
      omega
    | three v₀ v₁ v₂ v₃ =>
      simp only [List.flatMap_cons, Group.bytes, List.cons_append, List.nil_append, grouped,
        ih h.tail, List.cons.injEq, Group.three.injEq, Fin.ext_iff, high, middle, low, last,
        toNat_upper, toNat_inner, toNat_lower, and_true]
      omega

theorem grouped_bytes_iff {groups : List Group} :
    grouped (groups.flatMap Group.bytes) = groups ↔ Canonical groups :=
  ⟨fun h => h ▸ canonical_grouped _, grouped_bytes⟩

/-! ## Texts -/

/-- The symbols of the values, and one that pads. -/
structure Alphabet (α : Type*) where
  symbol : Fin 64 → α
  pad : α
  symbol_injective : Function.Injective symbol
  symbol_ne_pad : ∀ v, symbol v ≠ pad

variable {α : Type*} (A : Alphabet α)

def Group.text : Group → List α
  | one v₀ v₁ => [A.symbol v₀, A.symbol v₁, A.pad, A.pad]
  | two v₀ v₁ v₂ => [A.symbol v₀, A.symbol v₁, A.symbol v₂, A.pad]
  | three v₀ v₁ v₂ v₃ => [A.symbol v₀, A.symbol v₁, A.symbol v₂, A.symbol v₃]

def text (groups : List Group) : List α := groups.flatMap (Group.text A)

/-- The padded encoding. -/
def encode (s : List UInt8) : List α := text A (grouped s)

theorem Group.length_text (g : Group) : (g.text A).length = 4 := by
  cases g <;> rfl

theorem Group.text_injective : Function.Injective (Group.text A) := by
  intro g g' h
  have hpad := A.symbol_ne_pad
  cases g <;> cases g' <;>
    simp_all [Group.text, A.symbol_injective.eq_iff, Ne.symm (hpad _)]

theorem length_text (groups : List Group) : (text A groups).length = 4 * groups.length := by
  induction groups with
  | nil => rfl
  | cons g groups ih =>
    rw [text, List.flatMap_cons, List.length_append, ← text, ih, g.length_text,
      List.length_cons]
    omega

theorem text_injective : Function.Injective (text A) := by
  intro groups
  induction groups with
  | nil =>
    intro groups' h
    cases groups' with
    | nil => rfl
    | cons g' groups' =>
      have hlength := congrArg List.length h
      simp only [length_text, List.length_nil, List.length_cons] at hlength
      omega
  | cons g groups ih =>
    intro groups' h
    cases groups' with
    | nil =>
      have hlength := congrArg List.length h
      simp only [length_text, List.length_nil, List.length_cons] at hlength
      omega
    | cons g' groups' =>
      simp only [text, List.flatMap_cons] at h
      obtain ⟨hg, hgroups⟩ := List.append_inj h (by rw [g.length_text, g'.length_text])
      rw [Group.text_injective A hg, ih hgroups]

/-- A text is the encoding of its bytes just when its groups are canonical. -/
theorem text_eq_encode_iff {groups : List Group} :
    text A groups = encode A (groups.flatMap Group.bytes) ↔ Canonical groups := by
  rw [encode, (text_injective A).eq_iff, eq_comm]
  exact grouped_bytes_iff

end Foundation.Base64
