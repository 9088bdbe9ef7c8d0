import Kwe.Shader.Lexemes

/-!
The locations and bindings that `fold_declarations` hands out.

What a declaration declares is read from its words, in order to compare the
places it needs with the one that it is given.
-/

namespace Kwe.Shader

open Foundation Foundation.Runs Foundation.Simulation

/-! ## Declared names -/

inductive Item
  | word (text : Text)
  | size (expr : List Lexeme)
  deriving DecidableEq, Repr

def Item.isSize : Item → Bool
  | .size _ => true
  | .word _ => false

def Item.word? : Item → Option Text
  | .word text => some text
  | .size _ => none

/-- The words and the bracketed sizes between the commas of a declaration: what is
left of the size that is being read, the items up to the next comma, and those
after it. -/
def pieces : Nat → List Lexeme → List Lexeme × List Item × List (List Item)
  | _, [] => ([], [], [])
  | depth, x :: xs =>
    if x = .symbol '[' then
      let (expr, piece, more) := pieces (depth + 1) xs
      if depth = 0 then ([], .size expr :: piece, more) else (x :: expr, piece, more)
    else if x = .symbol ']' then
      let (expr, piece, more) := pieces (depth - 1) xs
      if depth ≤ 1 then (expr, piece, more) else (x :: expr, piece, more)
    else
      let (expr, piece, more) := pieces depth xs
      if 0 < depth then (x :: expr, piece, more)
      else
        match x with
        | .word text => (expr, .word text :: piece, more)
        | .symbol c => if c = ',' then (expr, [], piece :: more) else (expr, piece, more)

/-- The columns of a matrix; other types take one location. -/
def columns (word : Text) : Option Nat :=
  ([("mat2", 2), ("mat2x2", 2), ("mat2x3", 2), ("mat2x4", 2), ("mat3", 3), ("mat3x2", 3),
    ("mat3x3", 3), ("mat3x4", 3), ("mat4", 4), ("mat4x2", 4), ("mat4x3", 4),
    ("mat4x4", 4)].find? fun matrix => matrix.1.toList = word).map (·.2)

section Lengths

-- The value of a length that stands in brackets.
variable (length : List Lexeme → Nat)

def elements (sizes : List Item) : Nat :=
  (sizes.map fun
    | .size expr => length expr
    | .word _ => 1).prod

/-- The name that a piece declares, and its elements. -/
def declarator (piece : List Item) : Option (Text × Nat) :=
  (piece.reverse.findSome? Item.word?).map fun name =>
    (name, elements length (piece.reverse.takeWhile Item.isSize))

/-- The declared names with the locations that each of them takes. -/
def declared (glslType name : Text) : List (Text × Nat) :=
  let (_, first, more) := pieces 0 (lexemes (glslType ++ ' ' :: name))
  let itsType := (first.reverse.dropWhile Item.isSize).tail
  let each := ((itsType.filterMap Item.word?).findSome? columns).getD 1 * elements length itsType
  ((first :: more).filterMap (declarator length)).map fun d => (d.1, each * d.2)

/-! ## Declarations -/

/-- A declaration by the text of its name, and the names that it declares; in a
comment it declares none. -/
structure Declaration where
  name : Text
  declares : List (Text × Nat)
  deriving DecidableEq, Repr

inductive Kind
  | attribute
  | varying
  | sampler
  deriving DecidableEq, Repr

def declaration (commented : Bool) (glslType name : Text) : Declaration :=
  ⟨name, if commented then [] else declared length glslType name⟩

/-- A sampler takes one binding. -/
def samplerDeclaration (commented : Bool) (name : Text) : Declaration :=
  ⟨name, (declaration length commented "sampler2D".toList name).declares.map fun d => (d.1, 1)⟩

@[simp] theorem samplerDeclaration_name (commented : Bool) (name : Text) :
    (samplerDeclaration length commented name).name = name := rfl

/-- What a live line declares. -/
def declarationOf (kind : Kind) (commented : Bool) (trimmed : Text) : Option Declaration :=
  match kind with
  | .attribute =>
    ((stripStart "attribute ".toList trimmed).bind parseDecl).map fun d =>
      declaration length commented d.1 d.2
  | .varying =>
    ((stripStart "varying ".toList trimmed).bind parseDecl).map fun d =>
      declaration length commented d.1 d.2
  | .sampler =>
    ((stripStart "uniform ".toList trimmed).bind parseDecl).bind fun d =>
      if d.1 = "sampler2D".toList then some (samplerDeclaration length commented d.2) else none

/-- The live lines, and whether they begin in a comment. -/
def liveLines (combosUpper : Combos) : List CondFrame → Scan → List Text → List (Bool × Text)
  | _, _, [] => []
  | stack, s, line :: lines =>
    match directive combosUpper stack (trim line) with
    | some (.error _) => []
    | some (.ok stack) => liveLines combosUpper stack (s.after line) lines
    | none =>
      let rest := liveLines combosUpper stack (s.after line) lines
      if isLive stack then (s.inBlock, trim line) :: rest else rest

/-- The declarations of a kind in the live lines of a shader. -/
def declarations (combos : Combos) (source : Text) (kind : Kind) : List Declaration :=
  (liveLines (upperCombos combos) [] .start (splitInclusive source)).filterMap fun line =>
    declarationOf length kind line.1 line.2

/-- The declaration that stands in the output, with its location or binding. -/
def Rewritten.placed (kind : Kind) (commented : Bool) : Rewritten → Option (Declaration × Nat)
  | .attribute glslType name location =>
    if kind = .attribute then some (declaration length commented glslType name, location) else none
  | .varying glslType name location =>
    if kind = .varying then some (declaration length commented glslType name, location) else none
  | .sampler name index =>
    if kind = .sampler then some (samplerDeclaration length commented name, index) else none
  | _ => none

/-- The rewritten lines, and whether they begin in a comment. -/
def marked : Scan → List (Text × Rewritten) → List (Bool × Rewritten)
  | _, [] => []
  | s, (line, rewritten) :: lines => (s.inBlock, rewritten) :: marked (s.after line) lines

/-- The declarations of a kind with their locations or bindings. -/
def FoldState.placed (st : FoldState) (kind : Kind) : List (Declaration × Nat) :=
  (marked .start st.lines).filterMap fun line => line.2.placed length kind line.1

end Lengths

/-! ## The law of locations -/

/-- `s` places from `a` on and `t` places from `b` on are apart. -/
def Apart (a s b t : Nat) : Prop := s = 0 ∨ t = 0 ∨ a + s ≤ b ∨ b + t ≤ a

/-- Different names lie apart. -/
def Distinct (placed : List (Declaration × Nat)) : Prop :=
  ∀ p ∈ placed, ∀ q ∈ placed, ∀ n ∈ p.1.declares, ∀ m ∈ q.1.declares,
    n.1 ≠ m.1 → Apart p.2 n.2 q.2 m.2

/-- A name that is declared in both has one location. -/
def Linked (vertex fragment : List (Declaration × Nat)) : Prop :=
  ∀ p ∈ vertex, ∀ q ∈ fragment, ∀ n ∈ p.1.declares, ∀ m ∈ q.1.declares, n.1 = m.1 → p.2 = q.2

/-- What the two stages of a material need of their locations and bindings. -/
structure Lawful (vertex fragment : Kind → List (Declaration × Nat)) : Prop where
  vertex_distinct : ∀ kind, Distinct (vertex kind)
  fragment_distinct : ∀ kind, Distinct (fragment kind)
  vertex_bindings : ∀ p ∈ vertex .sampler, p.2 < maxMaterialTextures
  fragment_bindings : ∀ p ∈ fragment .sampler, p.2 < maxMaterialTextures
  linked : Linked (vertex .varying) (fragment .varying)

/-! ## What the counters allow -/

local instance lawful_text : LawfulBEq Text := inferInstance

def addName (seen : List Text) (name : Text) : List Text :=
  if name ∈ seen then seen else seen ++ [name]

/-- The names in the order in which they come first. -/
def firstNames (names : List Text) : List Text := names.foldl addName []

/-- The lowest slot that is not taken. -/
def firstFree (taken : List Nat) : Option Nat :=
  (List.range maxMaterialTextures).find? (· ∉ taken)

/-- The number in `g_Texture<N>`, or the first free slot. -/
def slotOf (taken : List Nat) (name : Text) : Option Nat := (explicitSlot name).or (firstFree taken)

def takeSlot (taken : List Nat) (name : Text) : List Nat := taken ++ (slotOf taken name).toList

/-- The slots that are taken after the samplers `names`. -/
def slotsTaken (names : List Text) : List Nat := names.foldl takeSlot []

/-- Declarations that are numbered, and leave enough numbers to each other. -/
def Spaced (number : Nat → Declaration → Nat) (decls : List Declaration) : Prop :=
  ∀ i j a b, decls[i]? = some a → decls[j]? = some b → number i a ≤ number j b →
    ∀ n ∈ a.declares, ∀ m ∈ b.declares, n.1 ≠ m.1 →
      n.2 = 0 ∨ m.2 = 0 ∨ number i a + n.2 ≤ number j b

/-- No sampler `g_Texture<N>` comes after one of another name that took slot `N`. -/
def NumbersFirst (samplers : List Declaration) : Prop :=
  ∀ i j a b N, i < j → samplers[i]? = some a → samplers[j]? = some b →
    explicitSlot b.name = some N →
    slotOf (slotsTaken ((samplers.take i).map (·.name))) a.name = some N →
    ∀ n ∈ a.declares, ∀ m ∈ b.declares, n.1 = m.1

structure StageFits (varyings : List Text) (stage : Kind → List Declaration) : Prop where
  attributes : Spaced (fun i _ => i) (stage .attribute)
  varyings : Spaced (fun _ d => varyings.idxOf d.name) (stage .varying)
  samplers : NumbersFirst (stage .sampler)
  single : ∀ d ∈ stage .sampler, ∀ n ∈ d.declares, ∀ m ∈ d.declares, n.1 = m.1

/-- An attribute is numbered by its position, a varying by that of its name among
the names that come first. -/
structure Fits (vertex fragment : Kind → List Declaration) : Prop where
  vertex_fits : StageFits (firstNames ((vertex .varying).map (·.name))) vertex
  fragment_fits :
    StageFits (firstNames ((vertex .varying ++ fragment .varying).map (·.name))) fragment
  spelled : ∀ d ∈ vertex .varying, ∀ e ∈ fragment .varying, ∀ n ∈ d.declares, ∀ m ∈ e.declares,
    n.1 = m.1 → d.name = e.name

/-! ## Lines -/

section Lines

variable {combosUpper : Combos} {materialConstants : List Text}
  {uniformMaterialKeys : List (Text × Text)}

theorem foldLine_cases {st st' : FoldState} {line : Text}
    (h : foldLine combosUpper materialConstants uniformMaterialKeys st line = .ok st') :
    (∃ stack, directive combosUpper st.condStack (trim line) = some (.ok stack) ∧
      st' = { st with condStack := stack, lines := st.lines ++ [(line, .kept)] }) ∨
    (directive combosUpper st.condStack (trim line) = none ∧ isLive st.condStack = false ∧
      st' = { st with lines := st.lines ++ [(line, .kept)] }) ∨
    (directive combosUpper st.condStack (trim line) = none ∧ isLive st.condStack = true ∧
      ∃ slots r,
        rewriteLine materialConstants uniformMaterialKeys st.slots (trim line) = .ok (slots, r) ∧
        st' = { st with slots := slots, lines := st.lines ++ [(line, r)] }) := by
  rw [foldLine] at h
  split at h
  · cases h
  · next stack hdir =>
    cases h
    exact .inl ⟨stack, hdir, rfl⟩
  · next hdir =>
    right
    split at h
    · next hlive =>
      cases h
      exact .inl ⟨hdir, by simpa using hlive, rfl⟩
    · next hlive =>
      split at h
      · cases h
      · next slots r hr =>
        cases h
        exact .inr ⟨hdir, by simpa using hlive, slots, r, hr, rfl⟩

theorem starts_unique {c d : Char} {start start' text rest : Text}
    (h : stripStart (c :: start) text = some rest) (hne : d ≠ c) :
    stripStart (d :: start') text = none := by
  cases text with
  | nil => simp [stripStart, Format.expect] at h
  | cons e text =>
    have he : c = e := by
      by_contra hce
      simp [stripStart, Format.expect, hce] at h
    subst he
    simp [stripStart, Format.expect, hne]

theorem rewriteUniform_cases {slots slots' : Slots} {glslType name : Text} {r : Rewritten}
    (h : rewriteUniform materialConstants uniformMaterialKeys slots glslType name =
      .ok (slots', r)) :
    (glslType = "sampler2D".toList ∧ rewriteSampler slots name = .ok (slots', r)) ∨
    (glslType ≠ "sampler2D".toList ∧ slots' = slots ∧
      ∀ length kind commented, r.placed length kind commented = none) := by
  rw [rewriteUniform] at h
  split at h
  · next hs => exact .inl ⟨hs, h⟩
  · next hs =>
    refine .inr ⟨hs, ?_⟩
    split at h
    · split at h
      · cases h
        exact ⟨rfl, fun _ _ _ => rfl⟩
      · split at h
        · cases h
          exact ⟨rfl, fun _ _ _ => rfl⟩
        · split at h <;> cases h <;> exact ⟨rfl, fun _ _ _ => rfl⟩
    · split at h
      · split at h <;> cases h <;> exact ⟨rfl, fun _ _ _ => rfl⟩
      · cases h
        exact ⟨rfl, fun _ _ _ => rfl⟩

/-- A numbered sampler gets its number, another the next slot that is not used. -/
def putSampler (slots : Nat × List Bool) (name : Text) : Nat × (Nat × List Bool) :=
  match explicitSlot name with
  | some n => (n, (slots.1, slots.2.set n true))
  | none =>
    let next := skipUsed slots.2 maxMaterialTextures slots.1
    (next, (next, slots.2.set next true))

def Slots.samplers (slots : Slots) : Nat × List Bool :=
  (slots.nextSamplerSlot, slots.usedSamplerSlots)

theorem rewriteSampler_ok {slots slots' : Slots} {name : Text} {r : Rewritten}
    (h : rewriteSampler slots name = .ok (slots', r)) :
    (putSampler slots.samplers name).1 < maxMaterialTextures ∧
      r = .sampler name (putSampler slots.samplers name).1 ∧
      slots' = { slots with
        nextSamplerSlot := (putSampler slots.samplers name).2.1
        usedSamplerSlots := (putSampler slots.samplers name).2.2 } := by
  cases hn : explicitSlot name with
  | some n =>
    have hput : putSampler slots.samplers name =
        (n, (slots.nextSamplerSlot, slots.usedSamplerSlots.set n true)) := by
      simp [putSampler, hn, Slots.samplers]
    simp only [rewriteSampler, hn] at h
    split at h
    · cases h
    · next hle =>
      cases h
      rw [hput]
      exact ⟨Nat.lt_of_not_le hle, rfl, rfl⟩
  | none =>
    have hput : putSampler slots.samplers name =
        (skipUsed slots.usedSamplerSlots maxMaterialTextures slots.nextSamplerSlot,
          (skipUsed slots.usedSamplerSlots maxMaterialTextures slots.nextSamplerSlot,
            slots.usedSamplerSlots.set
              (skipUsed slots.usedSamplerSlots maxMaterialTextures slots.nextSamplerSlot)
              true)) := by
      simp [putSampler, hn, Slots.samplers]
    simp only [rewriteSampler, hn] at h
    split at h
    · cases h
    · next hle =>
      cases h
      rw [hput]
      exact ⟨Nat.lt_of_not_le hle, rfl, rfl⟩

/-- A varying gets the location of its name, the first time a new one. -/
def putVarying (locations : List (Text × Nat)) (name : Text) : Nat × List (Text × Nat) :=
  match SortedMap.get locations name with
  | some location => (location, locations)
  | none => (locations.length, SortedMap.insert locations name locations.length)

theorem rewriteLine_cases {slots slots' : Slots} {trimmed : Text} {r : Rewritten}
    (h : rewriteLine materialConstants uniformMaterialKeys slots trimmed = .ok (slots', r)) :
    (∃ rest d, stripStart "attribute ".toList trimmed = some rest ∧ parseDecl rest = some d ∧
      slots' = { slots with nextAttributeLocation := slots.nextAttributeLocation + 1 } ∧
      r = .attribute d.1 d.2 slots.nextAttributeLocation) ∨
    (∃ rest d, stripStart "varying ".toList trimmed = some rest ∧ parseDecl rest = some d ∧
      slots' = { slots with varyingLocations := (putVarying slots.varyingLocations d.2).2 } ∧
      r = .varying d.1 d.2 (putVarying slots.varyingLocations d.2).1) ∨
    (∃ rest name, stripStart "uniform ".toList trimmed = some rest ∧
      parseDecl rest = some ("sampler2D".toList, name) ∧
      rewriteSampler slots name = .ok (slots', r)) ∨
    (slots' = slots ∧ (∀ length kind commented, r.placed length kind commented = none) ∧
      ∀ length kind commented, declarationOf length kind commented trimmed = none) := by
  rw [rewriteLine] at h
  split at h
  · next rest hrest =>
    have hv : stripStart "varying ".toList trimmed = none := starts_unique hrest (by decide)
    have hu : stripStart "uniform ".toList trimmed = none := starts_unique hrest (by decide)
    split at h
    · next hd =>
      cases h
      refine .inr (.inr (.inr ⟨rfl, fun _ _ _ => rfl, fun length kind commented => ?_⟩))
      cases kind <;> simp only [declarationOf, hrest, hv, hu, hd, Option.bind_some,
        Option.bind_none, Option.map_none]
    · next glslType name hd =>
      cases h
      exact .inl ⟨rest, (glslType, name), hrest, hd, rfl, rfl⟩
  · next ha =>
    have ha := Option.eq_none_iff_forall_ne_some.mpr ha
    split at h
    · next rest hrest =>
      have hu : stripStart "uniform ".toList trimmed = none := starts_unique hrest (by decide)
      split at h
      · next hd =>
        cases h
        refine .inr (.inr (.inr ⟨rfl, fun _ _ _ => rfl, fun length kind commented => ?_⟩))
        cases kind <;> simp only [declarationOf, hrest, ha, hu, hd, Option.bind_some,
          Option.bind_none, Option.map_none]
      · next glslType name hd =>
        refine .inr (.inl ⟨rest, (glslType, name), hrest, hd, ?_⟩)
        rw [putVarying]
        split at h
        · next location hget =>
          cases h
          rw [hget]
          exact ⟨rfl, rfl⟩
        · next hget =>
          cases h
          rw [hget]
          exact ⟨rfl, rfl⟩
    · next hv =>
      have hv := Option.eq_none_iff_forall_ne_some.mpr hv
      split at h
      · next hu =>
        cases h
        refine .inr (.inr (.inr ⟨rfl, fun _ _ _ => rfl, fun length kind commented => ?_⟩))
        cases kind <;> simp only [declarationOf, ha, hv, hu, Option.bind_none, Option.map_none]
      · next glslType name hu =>
        obtain ⟨rest, hrest, hd⟩ := Option.bind_eq_some_iff.mp hu
        rcases rewriteUniform_cases h with ⟨rfl, hs⟩ | ⟨hne, rfl, hr⟩
        · exact .inr (.inr (.inl ⟨rest, name, hrest, hd, hs⟩))
        · refine .inr (.inr (.inr ⟨rfl, hr, fun length kind commented => ?_⟩))
          cases kind <;> simp only [declarationOf, ha, hv, hu, Option.bind_none, Option.map_none,
            Option.bind_some, if_neg hne]

/-! ## Runs of lines -/

section Placing

variable {length : List Lexeme → Nat} {kind : Kind} {σ : Type}

/-- Along the lines the part `proj` of the slots is a machine that numbers the
declarations of a kind. -/
def Numbers (combos : List Text) (keys : List (Text × Text)) (length : List Lexeme → Nat)
    (kind : Kind) (proj : Slots → σ) (put : σ → Text → Nat × σ) : Prop :=
  ∀ slots slots' trimmed r commented, rewriteLine combos keys slots trimmed = .ok (slots', r) →
    (r.placed length kind commented = none ∧
      declarationOf length kind commented trimmed = none ∧ proj slots' = proj slots) ∨
    ∃ d, declarationOf length kind commented trimmed = some d ∧
      r.placed length kind commented = some (d, (put (proj slots) d.name).1) ∧
      proj slots' = (put (proj slots) d.name).2

theorem numbers_attribute : Numbers materialConstants uniformMaterialKeys length .attribute
    Slots.nextAttributeLocation (fun n _ => (n, n + 1)) := by
  intro slots slots' trimmed r commented h
  rcases rewriteLine_cases h with ⟨rest, d, hrest, hd, rfl, rfl⟩ | ⟨rest, d, hrest, hd, rfl, rfl⟩ |
    ⟨rest, name, hrest, hd, hs⟩ | ⟨rfl, hr, hdecl⟩
  · right
    exact ⟨declaration length commented d.1 d.2,
      by simp only [declarationOf, hrest, hd, Option.bind_some, Option.map_some],
      by simp [Rewritten.placed, declaration], rfl⟩
  · left
    have hnone : stripStart "attribute ".toList trimmed = none := starts_unique hrest (by decide)
    exact ⟨rfl, by simp only [declarationOf, hnone, Option.bind_none, Option.map_none], rfl⟩
  · left
    have hnone : stripStart "attribute ".toList trimmed = none := starts_unique hrest (by decide)
    obtain ⟨-, rfl, rfl⟩ := rewriteSampler_ok hs
    exact ⟨rfl, by simp only [declarationOf, hnone, Option.bind_none, Option.map_none], rfl⟩
  · exact .inl ⟨hr _ _ _, hdecl _ _ _, rfl⟩

theorem numbers_varying : Numbers materialConstants uniformMaterialKeys length .varying
    Slots.varyingLocations putVarying := by
  intro slots slots' trimmed r commented h
  rcases rewriteLine_cases h with ⟨rest, d, hrest, hd, rfl, rfl⟩ | ⟨rest, d, hrest, hd, rfl, rfl⟩ |
    ⟨rest, name, hrest, hd, hs⟩ | ⟨rfl, hr, hdecl⟩
  · left
    have hnone : stripStart "varying ".toList trimmed = none := starts_unique hrest (by decide)
    exact ⟨rfl, by simp only [declarationOf, hnone, Option.bind_none, Option.map_none], rfl⟩
  · right
    exact ⟨declaration length commented d.1 d.2,
      by simp only [declarationOf, hrest, hd, Option.bind_some, Option.map_some],
      by simp [Rewritten.placed, declaration], rfl⟩
  · left
    have hnone : stripStart "varying ".toList trimmed = none := starts_unique hrest (by decide)
    obtain ⟨-, rfl, rfl⟩ := rewriteSampler_ok hs
    exact ⟨rfl, by simp only [declarationOf, hnone, Option.bind_none, Option.map_none], rfl⟩
  · exact .inl ⟨hr _ _ _, hdecl _ _ _, rfl⟩

theorem numbers_sampler : Numbers materialConstants uniformMaterialKeys length .sampler
    Slots.samplers putSampler := by
  intro slots slots' trimmed r commented h
  rcases rewriteLine_cases h with ⟨rest, d, hrest, hd, rfl, rfl⟩ | ⟨rest, d, hrest, hd, rfl, rfl⟩ |
    ⟨rest, name, hrest, hd, hs⟩ | ⟨rfl, hr, hdecl⟩
  · left
    have hnone : stripStart "uniform ".toList trimmed = none := starts_unique hrest (by decide)
    exact ⟨rfl, by simp only [declarationOf, hnone, Option.bind_none], rfl⟩
  · left
    have hnone : stripStart "uniform ".toList trimmed = none := starts_unique hrest (by decide)
    exact ⟨rfl, by simp only [declarationOf, hnone, Option.bind_none], rfl⟩
  · right
    obtain ⟨-, rfl, rfl⟩ := rewriteSampler_ok hs
    have hdecl : declarationOf length .sampler commented trimmed =
        some (samplerDeclaration length commented name) := by
      rw [declarationOf, hrest, Option.bind_some, hd, Option.bind_some]
      generalize "sampler2D".toList = glslType
      exact if_pos rfl
    refine ⟨_, hdecl, ?_, ?_⟩
    · rw [samplerDeclaration_name, Rewritten.placed, if_pos rfl]
    · rw [samplerDeclaration_name]
      rfl
  · exact .inl ⟨hr _ _ _, hdecl _ _ _, rfl⟩

/-- The machine, with the declarations in its answers. -/
def placing (put : σ → Text → Nat × σ) (s : σ) (d : Declaration) : (Declaration × Nat) × σ :=
  ((d, (put s d.name).1), (put s d.name).2)

theorem marked_placed_of_fold {proj : Slots → σ} {put : σ → Text → Nat × σ}
    (hput : Numbers materialConstants uniformMaterialKeys length kind proj put)
    {lines : List Text} {st st' : FoldState} {s : Scan}
    (h : lines.foldlM (foldLine combosUpper materialConstants uniformMaterialKeys) st = .ok st') :
    ∃ new, st'.lines = st.lines ++ new ∧
      ((marked s new).filterMap fun line => line.2.placed length kind line.1) =
        outputs (placing put) (proj st.slots)
          ((liveLines combosUpper st.condStack s lines).filterMap fun line =>
            declarationOf length kind line.1 line.2) ∧
      proj st'.slots = run (fun s d => (placing put s d).2) (proj st.slots)
        ((liveLines combosUpper st.condStack s lines).filterMap fun line =>
          declarationOf length kind line.1 line.2) := by
  induction lines generalizing st s with
  | nil =>
    cases h
    exact ⟨[], by simp, rfl, rfl⟩
  | cons line lines ih =>
    obtain ⟨st₁, h₁, h⟩ := foldlM_cons_ok h
    obtain ⟨new, hnew, hplaced, hproj⟩ := ih (s := s.after line) h
    rcases foldLine_cases h₁ with ⟨stack, hdir, rfl⟩ | ⟨hdir, hlive, rfl⟩ |
      ⟨hdir, hlive, slots, r, hr, rfl⟩
    · refine ⟨(line, .kept) :: new, by simp [hnew], ?_, ?_⟩
      · simpa [marked, liveLines, hdir, Rewritten.placed] using hplaced
      · simpa [liveLines, hdir] using hproj
    · refine ⟨(line, .kept) :: new, by simp [hnew], ?_, ?_⟩
      · simpa [marked, liveLines, hdir, hlive, Rewritten.placed] using hplaced
      · simpa [liveLines, hdir, hlive] using hproj
    · refine ⟨(line, r) :: new, by simp [hnew], ?_, ?_⟩
      · rcases hput _ _ _ _ s.inBlock hr with ⟨hn, hd, hs⟩ | ⟨d, hd, hp, hs⟩
        · rw [hs] at hplaced
          simpa [marked, liveLines, hdir, hlive, hn, hd] using hplaced
        · rw [hs] at hplaced
          simpa [marked, liveLines, hdir, hlive, hd, hp, outputs, placing] using hplaced
      · rcases hput _ _ _ _ s.inBlock hr with ⟨hn, hd, hs⟩ | ⟨d, hd, hp, hs⟩
        · rw [hs] at hproj
          simpa [liveLines, hdir, hlive, hd] using hproj
        · rw [hs] at hproj
          simpa [liveLines, hdir, hlive, hd, placing] using hproj

variable (length) in
/-- The declarations of a shader are numbered in their order. -/
theorem placed_of_foldDeclarations {proj : Slots → σ} {put : σ → Text → Nat × σ}
    (hput : Numbers materialConstants uniformMaterialKeys length kind proj put)
    {source : Text} {known : List (Text × Nat)} {combos : Combos} {st : FoldState}
    (h : foldDeclarations source materialConstants known combos uniformMaterialKeys = .ok st) :
    st.placed length kind = outputs (placing put)
        (proj ⟨0, 0, List.replicate maxMaterialTextures false, known⟩)
        (declarations length combos source kind) ∧
      proj st.slots = run (fun s d => (placing put s d).2)
        (proj ⟨0, 0, List.replicate maxMaterialTextures false, known⟩)
        (declarations length combos source kind) := by
  obtain ⟨new, hnew, hplaced, hproj⟩ := marked_placed_of_fold hput (s := .start) h
  rw [List.nil_append] at hnew
  rw [FoldState.placed, hnew]
  exact ⟨hplaced, hproj⟩

theorem sampler_bound {source : Text} {known : List (Text × Nat)} {combos : Combos}
    {st : FoldState}
    (h : foldDeclarations source materialConstants known combos uniformMaterialKeys = .ok st) :
    ∀ l ∈ st.lines, ∀ name index, l.2 = .sampler name index → index < maxMaterialTextures := by
  refine invariant_foldlM (I := fun st : FoldState => ∀ l ∈ st.lines, ∀ name index,
    l.2 = .sampler name index → index < maxMaterialTextures) (fun st line st' hst hline => ?_)
    (by simp) h
  rcases foldLine_cases hline with ⟨stack, -, rfl⟩ | ⟨-, -, rfl⟩ | ⟨-, -, slots, r, hr, rfl⟩
  · simpa [or_imp, forall_and] using hst
  · simpa [or_imp, forall_and] using hst
  · intro l hl name index heq
    rcases List.mem_append.mp hl with hl | hl
    · exact hst l hl name index heq
    · obtain rfl := List.mem_singleton.mp hl
      rcases rewriteLine_cases hr with ⟨_, d, -, -, -, rfl⟩ | ⟨_, d, -, -, -, rfl⟩ |
        ⟨_, sampler, -, -, hs⟩ | ⟨-, hr, -⟩
      · cases heq
      · cases heq
      · obtain ⟨hlt, rfl, -⟩ := rewriteSampler_ok hs
        cases heq
        exact hlt
      · have hnone := hr (fun _ => 0) .sampler true
        rw [show r = _ from heq, Rewritten.placed, if_pos rfl] at hnone
        cases hnone

theorem marked_snd {lines : List (Text × Rewritten)} {s : Scan} {line : Bool × Rewritten}
    (h : line ∈ marked s lines) : ∃ l ∈ lines, l.2 = line.2 := by
  induction lines generalizing s with
  | nil => cases h
  | cons l lines ih =>
    rcases List.mem_cons.mp h with rfl | h
    · exact ⟨l, List.mem_cons_self, rfl⟩
    · obtain ⟨l', hl', heq⟩ := ih h
      exact ⟨l', List.mem_cons_of_mem _ hl', heq⟩

variable (length) in
theorem placed_sampler_bound {source : Text} {known : List (Text × Nat)} {combos : Combos}
    {st : FoldState}
    (h : foldDeclarations source materialConstants known combos uniformMaterialKeys = .ok st) :
    ∀ p ∈ st.placed length .sampler, p.2 < maxMaterialTextures := by
  intro p hp
  obtain ⟨line, hline, hplaced⟩ := List.mem_filterMap.mp hp
  obtain ⟨l, hl, heq⟩ := marked_snd hline
  have hbound := sampler_bound h l hl
  rw [heq] at hbound
  cases hr : line.2 with
  | sampler name index =>
    rw [hr, Rewritten.placed, if_pos rfl] at hplaced
    cases hplaced
    exact hbound name index hr
  | _ =>
    rw [hr] at hplaced
    simp [Rewritten.placed] at hplaced

end Placing

end Lines

/-! ## Positions -/

section Positions

variable {length : List Lexeme → Nat}

theorem run_attributes (n : Nat) (decls : List Declaration) :
    run (fun s d => (placing (fun n _ => (n, n + 1)) s d).2) n decls = n + decls.length := by
  induction decls generalizing n with
  | nil => rfl
  | cons d decls ih =>
    rw [run_cons, ih]
    simp only [placing, List.length_cons]
    omega

theorem getElem?_attributes (decls : List Declaration) (i : Nat) :
    (outputs (placing (fun n _ => (n, n + 1))) 0 decls)[i]? = decls[i]?.map (·, i) := by
  rw [getElem?_outputs]
  cases h : decls[i]? with
  | none => rfl
  | some d =>
    have hi : i < decls.length := (List.getElem?_eq_some_iff.mp h).1
    rw [run_attributes, List.length_take, Nat.zero_add, Nat.min_eq_left hi.le]
    rfl

/-- The locations are the positions of the names. -/
structure Ranked (locations : List (Text × Nat)) (seen : List Text) : Prop where
  length : locations.length = seen.length
  get : ∀ name, SortedMap.get locations name =
    if name ∈ seen then some (seen.idxOf name) else none

theorem mem_addName (seen : List Text) (name : Text) : name ∈ addName seen name := by
  rw [addName]
  split
  · assumption
  · simp

theorem addNames_append (seen names : List Text) :
    ∃ more, names.foldl addName seen = seen ++ more := by
  induction names generalizing seen with
  | nil => exact ⟨[], by simp⟩
  | cons name names ih =>
    obtain ⟨more, h⟩ := ih (addName seen name)
    rw [List.foldl_cons, h, addName]
    split
    · exact ⟨more, rfl⟩
    · exact ⟨name :: more, by simp⟩

theorem idxOf_addNames {seen : List Text} {name : Text} (h : name ∈ seen) (names : List Text) :
    (names.foldl addName seen).idxOf name = seen.idxOf name := by
  obtain ⟨more, hmore⟩ := addNames_append seen names
  rw [hmore, List.idxOf_append, if_pos h]

theorem ranked_nil : Ranked [] [] := ⟨rfl, fun _ => rfl⟩

theorem Ranked.putVarying {locations : List (Text × Nat)} {seen : List Text}
    (h : Ranked locations seen) (name : Text) :
    (putVarying locations name).1 = (addName seen name).idxOf name ∧
      Ranked (putVarying locations name).2 (addName seen name) := by
  by_cases hmem : name ∈ seen
  · have hget : SortedMap.get locations name = some (seen.idxOf name) := by rw [h.get, if_pos hmem]
    simp only [Shader.putVarying, hget, addName, if_pos hmem]
    exact ⟨trivial, h⟩
  · have hget : SortedMap.get locations name = none := by rw [h.get, if_neg hmem]
    simp only [Shader.putVarying, hget, addName, if_neg hmem]
    refine ⟨by simp [List.idxOf_append, hmem, h.length], ?_, fun other => ?_⟩
    · rw [SortedMap.length_insert_of_get_none _ hget, h.length, List.length_append]
      rfl
    · rw [SortedMap.get_insert, h.get]
      by_cases heq : other = name
      · subst heq
        simp [List.idxOf_append, hmem, h.length]
      · by_cases hother : other ∈ seen
        · simp [heq, hother, List.idxOf_append]
        · simp [heq, hother]

theorem placed_varyings {locations : List (Text × Nat)} {seen : List Text}
    (h : Ranked locations seen) (decls : List Declaration) :
    outputs (placing putVarying) locations decls =
        decls.map (fun d => (d, ((decls.map (·.name)).foldl addName seen).idxOf d.name)) ∧
      Ranked (run (fun s d => (placing putVarying s d).2) locations decls)
        ((decls.map (·.name)).foldl addName seen) := by
  induction decls generalizing locations seen with
  | nil => exact ⟨rfl, h⟩
  | cons d decls ih =>
    obtain ⟨hlocation, hranked⟩ := h.putVarying d.name
    obtain ⟨houtputs, hrun⟩ := ih hranked
    refine ⟨?_, hrun⟩
    rw [outputs, List.map_cons, List.map_cons, List.foldl_cons,
      idxOf_addNames (mem_addName seen d.name), ← hlocation]
    exact congrArg _ houtputs

/-! ## Slots -/

theorem firstFree_eq_some {taken : List Nat} {slot : Nat} :
    firstFree taken = some slot ↔
      slot < maxMaterialTextures ∧ slot ∉ taken ∧ ∀ k < slot, k ∈ taken := by
  rw [firstFree, List.find?_range_eq_some]
  simp [and_left_comm]

/-- The used slots are those that are taken, and no slot below the next is free. -/
structure Used (slots : Nat × List Bool) (taken : List Nat) : Prop where
  length : slots.2.length = maxMaterialTextures
  used : ∀ k < maxMaterialTextures, slots.2.getD k false = true ↔ k ∈ taken
  below : ∀ k < slots.1, k ∈ taken

theorem skipUsed_spec (used : List Bool) (fuel slot : Nat) :
    slot ≤ skipUsed used fuel slot ∧
      (∀ k, slot ≤ k → k < skipUsed used fuel slot → k < maxMaterialTextures ∧
        used.getD k false = true) ∧
      (maxMaterialTextures ≤ slot + fuel → skipUsed used fuel slot < maxMaterialTextures →
        used.getD (skipUsed used fuel slot) false = false) := by
  induction fuel generalizing slot with
  | zero =>
    rw [skipUsed]
    exact ⟨Nat.le_refl _, fun k h h' => by omega, fun h h' => by omega⟩
  | succ fuel ih =>
    rw [skipUsed]
    split
    · next hused =>
      obtain ⟨hle, hbetween, hfree⟩ := ih (slot + 1)
      have hused : slot < maxMaterialTextures ∧ used.getD slot false = true := by
        simpa using hused
      refine ⟨by omega, fun k hk hlt => ?_, fun hfuel hlt => hfree (by omega) hlt⟩
      by_cases heq : k = slot
      · exact heq ▸ hused
      · exact hbetween k (by omega) hlt
    · next hfree =>
      refine ⟨Nat.le_refl _, fun k h h' => by omega, fun _ hlt => ?_⟩
      simpa [hlt] using hfree

theorem Used.set {slots : Nat × List Bool} {taken : List Nat} (h : Used slots taken) {slot : Nat}
    (next : Nat) (hnext : ∀ k < next, k ∈ taken) (hslot : slot < maxMaterialTextures) :
    Used (next, slots.2.set slot true) (taken ++ [slot]) := by
  refine ⟨by rw [List.length_set, h.length], fun k hk => ?_, fun k hk => ?_⟩
  · have hlen := h.length
    by_cases heq : k = slot
    · subst heq
      simp [List.getD_eq_getElem?_getD, hlen, hk]
    · have := h.used k hk
      rw [List.getD_eq_getElem?_getD] at this
      simp [List.getD_eq_getElem?_getD, Ne.symm heq, heq, this]
  · exact List.mem_append_left _ (hnext k hk)

/-- A sampler takes its own number, or the first slot that is free. -/
theorem Used.putSampler {slots : Nat × List Bool} {taken : List Nat} (h : Used slots taken)
    {name : Text} (hslot : (putSampler slots name).1 < maxMaterialTextures) :
    slotOf taken name = some (putSampler slots name).1 ∧
      Used (putSampler slots name).2 (takeSlot taken name) := by
  cases hn : explicitSlot name with
  | some n =>
    have hput : Shader.putSampler slots name = (n, (slots.1, slots.2.set n true)) := by
      simp [Shader.putSampler, hn]
    rw [hput] at hslot ⊢
    have htake : slotOf taken name = some n := by rw [slotOf, hn, Option.some_or]
    rw [takeSlot, htake]
    exact ⟨rfl, h.set slots.1 h.below hslot⟩
  | none =>
    have hput : Shader.putSampler slots name =
        (skipUsed slots.2 maxMaterialTextures slots.1,
          (skipUsed slots.2 maxMaterialTextures slots.1,
            slots.2.set (skipUsed slots.2 maxMaterialTextures slots.1) true)) := by
      simp [Shader.putSampler, hn]
    rw [hput] at hslot ⊢
    obtain ⟨-, hbetween, hfree⟩ := skipUsed_spec slots.2 maxMaterialTextures slots.1
    generalize skipUsed slots.2 maxMaterialTextures slots.1 = slot at hslot hbetween hfree ⊢
    have hbelow : ∀ k < slot, k ∈ taken := fun k hk => by
      by_cases hnext : k < slots.1
      · exact h.below k hnext
      · obtain ⟨hmax, hused⟩ := hbetween k (by omega) hk
        exact (h.used k hmax).mp hused
    have hnot : slot ∉ taken := fun hmem => by
      have hused := (h.used slot hslot).mpr hmem
      rw [hfree (by omega) hslot] at hused
      cases hused
    have htake : slotOf taken name = some slot := by
      rw [slotOf, hn, Option.none_or]
      exact firstFree_eq_some.mpr ⟨hslot, hnot, hbelow⟩
    rw [takeSlot, htake]
    exact ⟨rfl, h.set slot hbelow hslot⟩

theorem slotOf_placed {slots : Nat × List Bool} {taken : List Nat} (h : Used slots taken)
    {decls : List Declaration}
    (hbound : ∀ p ∈ outputs (placing putSampler) slots decls, p.2 < maxMaterialTextures)
    {i : Nat} {d : Declaration} {slot : Nat}
    (hi : (outputs (placing putSampler) slots decls)[i]? = some (d, slot)) :
    decls[i]? = some d ∧
      slotOf (((decls.take i).map (·.name)).foldl takeSlot taken) d.name = some slot := by
  induction decls generalizing slots taken i with
  | nil => simp [outputs] at hi
  | cons e decls ih =>
    rw [outputs] at hi hbound
    obtain ⟨hhead, htail⟩ := List.forall_mem_cons.mp hbound
    obtain ⟨hslot, hused⟩ := h.putSampler hhead
    cases i with
    | zero =>
      cases hi
      exact ⟨rfl, hslot⟩
    | succ i =>
      obtain ⟨hd, htaken⟩ := ih hused htail hi
      exact ⟨hd, htaken⟩

/-- **Distinct.**  What is numbered lies apart just where it leaves enough
numbers. -/
theorem distinct_iff_spaced {placed : List (Declaration × Nat)} {decls : List Declaration}
    {number : Nat → Declaration → Nat}
    (h : ∀ i, placed[i]? = decls[i]?.map fun d => (d, number i d)) :
    Distinct placed ↔ Spaced number decls := by
  constructor
  · intro hdistinct i j a b ha hb hle n hn m hm hne
    have hp : (a, number i a) ∈ placed := List.mem_iff_getElem?.mpr ⟨i, by rw [h, ha]; rfl⟩
    have hq : (b, number j b) ∈ placed := List.mem_iff_getElem?.mpr ⟨j, by rw [h, hb]; rfl⟩
    have hapart := hdistinct _ hp _ hq n hn m hm hne
    simp only [Apart] at hapart
    omega
  · intro hspaced p hp q hq n hn m hm hne
    obtain ⟨i, hi⟩ := List.mem_iff_getElem?.mp hp
    obtain ⟨j, hj⟩ := List.mem_iff_getElem?.mp hq
    rw [h] at hi hj
    obtain ⟨a, ha, rfl⟩ := Option.map_eq_some_iff.mp hi
    obtain ⟨b, hb, rfl⟩ := Option.map_eq_some_iff.mp hj
    simp only [Apart]
    rcases Nat.le_total (number i a) (number j b) with hle | hle
    · have := hspaced i j a b ha hb hle n hn m hm hne
      omega
    · have := hspaced j i b a hb ha hle m hm n hn hne.symm
      omega

theorem mem_foldl_takeSlot {taken : List Nat} {slot : Nat} (h : slot ∈ taken) (names : List Text) :
    slot ∈ names.foldl takeSlot taken := by
  induction names generalizing taken with
  | nil => exact h
  | cons name names ih => exact ih (List.mem_append_left _ h)

theorem mem_taken {decls : List Declaration} {i j : Nat} {a : Declaration} {slot : Nat}
    (hlt : i < j) (ha : decls[i]? = some a)
    (hslot : slotOf (((decls.take i).map (·.name)).foldl takeSlot []) a.name = some slot) :
    slot ∈ ((decls.take j).map (·.name)).foldl takeSlot [] := by
  have hsplit : decls.take j = decls.take i ++ a :: (decls.take j).drop (i + 1) := by
    have hi : i < (decls.take j).length := by
      have := (List.getElem?_eq_some_iff.mp ha).1
      rw [List.length_take]
      omega
    have hget : (decls.take j)[i] = a := by
      rw [List.getElem_take]
      exact (List.getElem?_eq_some_iff.mp ha).2
    have htake : (decls.take j).take i = decls.take i := by
      rw [List.take_take, Nat.min_eq_left hlt.le]
    conv_lhs => rw [← List.take_append_drop i (decls.take j), List.drop_eq_getElem_cons hi]
    rw [hget, htake]
  rw [hsplit, List.map_append, List.foldl_append, List.map_cons, List.foldl_cons]
  refine mem_foldl_takeSlot ?_ _
  rw [takeSlot, hslot]
  simp

/-- A later sampler takes the slot of an earlier one only by its number. -/
theorem same_name {decls : List Declaration} (hfirst : NumbersFirst decls) {i j : Nat}
    {a b : Declaration} {slot : Nat} (hlt : i < j) (ha : decls[i]? = some a)
    (hb : decls[j]? = some b)
    (hslota : slotOf (((decls.take i).map (·.name)).foldl takeSlot []) a.name = some slot)
    (hslotb : slotOf (((decls.take j).map (·.name)).foldl takeSlot []) b.name = some slot) :
    ∀ n ∈ a.declares, ∀ m ∈ b.declares, n.1 = m.1 := by
  cases hN : explicitSlot b.name with
  | some N =>
    rw [slotOf, hN, Option.some_or] at hslotb
    exact hfirst i j a b N hlt ha hb hN (hslota.trans hslotb.symm)
  | none =>
    -- a free slot is not one that an earlier sampler took
    rw [slotOf, hN, Option.none_or] at hslotb
    have hmem : slot ∈ ((decls.take j).map (·.name)).foldl takeSlot [] :=
      mem_taken hlt ha hslota
    exact absurd hmem (firstFree_eq_some.mp hslotb).2.1

/-- Bindings differ just where no number comes after its slot is taken. -/
theorem distinct_iff_numbersFirst {decls : List Declaration}
    (hone : ∀ d ∈ decls, ∀ n ∈ d.declares, n.2 = 1)
    (hbound : ∀ p ∈ outputs (placing putSampler) (0, List.replicate maxMaterialTextures false) decls,
      p.2 < maxMaterialTextures) :
    Distinct (outputs (placing putSampler) (0, List.replicate maxMaterialTextures false) decls) ↔
      NumbersFirst decls ∧ ∀ d ∈ decls, ∀ n ∈ d.declares, ∀ m ∈ d.declares, n.1 = m.1 := by
  have hused : Used (0, List.replicate maxMaterialTextures false) [] :=
    ⟨List.length_replicate, fun k hk => by simp [List.getD_eq_getElem?_getD, hk],
      fun k hk => absurd hk (Nat.not_lt_zero k)⟩
  have hspec := @slotOf_placed _ _ hused decls hbound
  generalize hplaced : outputs (placing putSampler) _ decls = placed at hspec hbound ⊢
  have hof : ∀ (i : Nat) (d : Declaration), decls[i]? = some d → ∃ slot, placed[i]? = some (d, slot) := by
    intro i d hd
    rw [← hplaced, getElem?_outputs, hd]
    exact ⟨_, rfl⟩
  have hmem : ∀ p ∈ placed, p.1 ∈ decls := fun p hp => by
    obtain ⟨i, hi⟩ := List.mem_iff_getElem?.mp hp
    exact List.mem_iff_getElem?.mpr ⟨i, (hspec hi).1⟩
  constructor
  · intro hdistinct
    refine ⟨fun i j a b N hlt ha hb hN hslot n hn m hm => ?_, fun d hd n hn m hm => ?_⟩
    · by_contra hne
      obtain ⟨s, hs⟩ := hof i a ha
      obtain ⟨t, ht⟩ := hof j b hb
      have hsN : N = s := Option.some.inj (hslot.symm.trans (hspec hs).2)
      have htN : slotOf _ b.name = some t := (hspec ht).2
      rw [slotOf, hN, Option.some_or] at htN
      have hapart := hdistinct _ (List.mem_iff_getElem?.mpr ⟨i, hs⟩) _
        (List.mem_iff_getElem?.mpr ⟨j, ht⟩) n hn m hm hne
      have hn1 := hone a (List.mem_iff_getElem?.mpr ⟨i, ha⟩) n hn
      have hm1 := hone b (List.mem_iff_getElem?.mpr ⟨j, hb⟩) m hm
      have := Option.some.inj htN
      simp only [Apart] at hapart
      omega
    · by_contra hne
      obtain ⟨i, hi⟩ := List.mem_iff_getElem?.mp hd
      obtain ⟨s, hs⟩ := hof i d hi
      have hp := List.mem_iff_getElem?.mpr ⟨i, hs⟩
      have hapart := hdistinct _ hp _ hp n hn m hm hne
      have hn1 := hone d hd n hn
      have hm1 := hone d hd m hm
      simp only [Apart] at hapart
      omega
  · rintro ⟨hfirst, hsingle⟩ p hp q hq n hn m hm hne
    obtain ⟨i, hi⟩ := List.mem_iff_getElem?.mp hp
    obtain ⟨j, hj⟩ := List.mem_iff_getElem?.mp hq
    obtain ⟨hpi, hpslot⟩ := hspec hi
    obtain ⟨hqj, hqslot⟩ := hspec hj
    have hslots : p.2 ≠ q.2 := by
      intro heq
      rcases Nat.lt_trichotomy i j with hlt | rfl | hlt
      · exact hne (same_name hfirst hlt hpi hqj hpslot (heq ▸ hqslot) n hn m hm)
      · rw [hi] at hj
        obtain rfl := Option.some.inj hj
        exact hne (hsingle _ (hmem p hp) n hn m hm)
      · exact hne (same_name hfirst hlt hqj hpi hqslot (heq ▸ hpslot) m hm n hn).symm
    have hn1 := hone _ (hmem p hp) n hn
    have hm1 := hone _ (hmem q hq) m hm
    simp only [Apart]
    omega

end Positions

/-! ## Both stages -/

section Stages

variable {length : List Lexeme → Nat} {materialConstants : List Text}
  {uniformMaterialKeys : List (Text × Text)} {source : Text} {combos : Combos} {st : FoldState}

theorem sampler_declares_one :
    ∀ d ∈ declarations length combos source .sampler, ∀ n ∈ d.declares, n.2 = 1 := by
  intro d hd n hn
  obtain ⟨line, -, hline⟩ := List.mem_filterMap.mp hd
  rw [declarationOf] at hline
  obtain ⟨parsed, -, hparsed⟩ := Option.bind_eq_some_iff.mp hline
  obtain ⟨-, hd⟩ := Option.ite_none_right_eq_some.mp hparsed
  cases hd
  obtain ⟨m, -, rfl⟩ := List.mem_map.mp hn
  rfl

theorem mem_addNames {names : List Text} {name : Text} (h : name ∈ names) (seen : List Text) :
    name ∈ names.foldl addName seen := by
  induction names generalizing seen with
  | nil => cases h
  | cons first names ih =>
    rcases List.mem_cons.mp h with rfl | h
    · obtain ⟨more, hmore⟩ := addNames_append (addName seen name) names
      rw [List.foldl_cons, hmore]
      exact List.mem_append_left _ (mem_addName seen name)
    · exact ih h _

/-- Two names have one position just if they are the same. -/
theorem linked_iff (vertex fragment : List Declaration) :
    Linked (vertex.map fun d => (d, ((vertex.map (·.name)).foldl addName []).idxOf d.name))
        (fragment.map fun d => (d, ((fragment.map (·.name)).foldl addName
          ((vertex.map (·.name)).foldl addName [])).idxOf d.name)) ↔
      ∀ d ∈ vertex, ∀ e ∈ fragment, ∀ n ∈ d.declares, ∀ m ∈ e.declares, n.1 = m.1 →
        d.name = e.name := by
  generalize hseen : (vertex.map (·.name)).foldl addName [] = seen
  have hmem : ∀ d ∈ vertex, d.name ∈ seen := fun d hd =>
    hseen ▸ mem_addNames (List.mem_map_of_mem hd) []
  have hposition : ∀ d ∈ vertex, ∀ e ∈ fragment,
      seen.idxOf d.name = ((fragment.map (·.name)).foldl addName seen).idxOf e.name ↔
        d.name = e.name := by
    intro d hd e he
    rw [← idxOf_addNames (hmem d hd) (fragment.map (·.name))]
    obtain ⟨more, hmore⟩ := addNames_append seen (fragment.map (·.name))
    exact List.idxOf_inj (hmore ▸ List.mem_append_left more (hmem d hd))
  constructor
  · intro h d hd e he n hn m hm heq
    exact (hposition d hd e he).mp
      (h _ (List.mem_map_of_mem hd) _ (List.mem_map_of_mem he) n hn m hm heq)
  · intro h p hp q hq n hn m hm heq
    obtain ⟨d, hd, rfl⟩ := List.mem_map.mp hp
    obtain ⟨e, he, rfl⟩ := List.mem_map.mp hq
    exact (hposition d hd e he).mpr (h d hd e he n hn m hm heq)

variable (length) in
/-- **One stage.** -/
theorem stage_distinct {known : List (Text × Nat)} {seen : List Text} (hknown : Ranked known seen)
    (h : foldDeclarations source materialConstants known combos uniformMaterialKeys = .ok st) :
    (∀ kind, Distinct (st.placed length kind)) ↔
      StageFits (((declarations length combos source .varying).map (·.name)).foldl addName seen)
        (declarations length combos source) := by
  have hattributes := (placed_of_foldDeclarations length numbers_attribute h).1
  have hvaryings := (placed_of_foldDeclarations length numbers_varying h).1
  have hsamplers := (placed_of_foldDeclarations length numbers_sampler h).1
  have hbound := placed_sampler_bound length h
  rw [(placed_varyings hknown _).1] at hvaryings
  rw [hsamplers] at hbound
  have hattribute : Distinct (st.placed length .attribute) ↔
      Spaced (fun i _ => i) (declarations length combos source .attribute) := by
    rw [hattributes]
    exact distinct_iff_spaced fun i => getElem?_attributes _ i
  have hvarying : Distinct (st.placed length .varying) ↔
      Spaced (fun _ d => (((declarations length combos source .varying).map (·.name)).foldl
        addName seen).idxOf d.name) (declarations length combos source .varying) := by
    rw [hvaryings]
    exact distinct_iff_spaced fun i => List.getElem?_map
  have hsampler : Distinct (st.placed length .sampler) ↔
      NumbersFirst (declarations length combos source .sampler) ∧
        ∀ d ∈ declarations length combos source .sampler,
          ∀ n ∈ d.declares, ∀ m ∈ d.declares, n.1 = m.1 := by
    rw [hsamplers]
    exact distinct_iff_numbersFirst sampler_declares_one hbound
  constructor
  · intro hdistinct
    exact ⟨hattribute.mp (hdistinct _), hvarying.mp (hdistinct _), (hsampler.mp (hdistinct _)).1,
      (hsampler.mp (hdistinct _)).2⟩
  · rintro ⟨ha, hv, hs, hsingle⟩ kind
    match kind with
    | .attribute => exact hattribute.mpr ha
    | .varying => exact hvarying.mpr hv
    | .sampler => exact hsampler.mpr ⟨hs, hsingle⟩

end Stages

/-- **Locations.**  The second stage is read with the varyings of the first: all
names are apart and linked just where the counters leave them enough room. -/
theorem foldDeclarations_lawful (length : List Lexeme → Nat) {vertex fragment : Text}
    {constants constants' : List Text} {combos combos' : Combos}
    {keys keys' : List (Text × Text)} {V F : FoldState}
    (hV : foldDeclarations vertex constants [] combos keys = .ok V)
    (hF : foldDeclarations fragment constants' V.slots.varyingLocations combos' keys' = .ok F) :
    Lawful (V.placed length) (F.placed length) ↔
      Fits (declarations length combos vertex) (declarations length combos' fragment) := by
  obtain ⟨hvplaced, hvslots⟩ := placed_of_foldDeclarations length numbers_varying hV
  obtain ⟨hfplaced, -⟩ := placed_of_foldDeclarations length numbers_varying hF
  obtain ⟨hvertex, hranked⟩ := placed_varyings ranked_nil
    (declarations length combos vertex .varying)
  rw [← hvslots] at hranked
  obtain ⟨hfragment, -⟩ := placed_varyings hranked (declarations length combos' fragment .varying)
  have hlinked := linked_iff (declarations length combos vertex .varying)
    (declarations length combos' fragment .varying)
  rw [← hvertex, ← hfragment, ← hvplaced, ← hfplaced] at hlinked
  have hfirst := stage_distinct length ranked_nil hV
  have hsecond := stage_distinct length hranked hF
  rw [← List.foldl_append, ← List.map_append] at hsecond
  constructor
  · intro h
    exact ⟨hfirst.mp h.vertex_distinct, hsecond.mp h.fragment_distinct, hlinked.mp h.linked⟩
  · intro h
    exact ⟨hfirst.mpr h.vertex_fits, hsecond.mpr h.fragment_fits, placed_sampler_bound length hV,
      placed_sampler_bound length hF, hlinked.mpr h.spelled⟩

theorem foldDeclarations_lawful_texture : ∃ V F,
    foldDeclarations "attribute vec3 a_Position;\nvarying vec2 v_TexCoord;\n".toList [] [] [] [] =
      .ok V ∧
    foldDeclarations "varying vec2 v_TexCoord;\nuniform sampler2D g_Texture0;\n".toList []
      V.slots.varyingLocations [] [] = .ok F ∧
    (Lawful (V.placed fun _ => 1) (F.placed fun _ => 1) ↔
      Fits (declarations (fun _ => 1) []
          "attribute vec3 a_Position;\nvarying vec2 v_TexCoord;\n".toList)
        (declarations (fun _ => 1) []
          "varying vec2 v_TexCoord;\nuniform sampler2D g_Texture0;\n".toList)) := by
  obtain ⟨V, hV, hlocations⟩ := Checks.exists_ok
    (x := foldDeclarations "attribute vec3 a_Position;\nvarying vec2 v_TexCoord;\n".toList
      [] [] [] [])
    (p := fun V => V.slots.varyingLocations = [("v_TexCoord".toList, 0)]) (by decide +kernel)
  obtain ⟨F, hF, -⟩ := Checks.exists_ok
    (x := foldDeclarations "varying vec2 v_TexCoord;\nuniform sampler2D g_Texture0;\n".toList []
      [("v_TexCoord".toList, 0)] [] [])
    (p := fun _ => true) (by decide +kernel)
  rw [← of_decide_eq_true hlocations] at hF
  exact ⟨V, F, hV, hF, foldDeclarations_lawful (fun _ => 1) hV hF⟩

/-- `g_Texture0` comes after a sampler that has taken slot 0. -/
theorem samplers_share_binding : ∃ V F,
    foldDeclarations "attribute vec3 a_Position;\n".toList [] [] [] [] = .ok V ∧
    foldDeclarations "uniform sampler2D mask;\nuniform sampler2D g_Texture0;\n".toList []
      V.slots.varyingLocations [] [] = .ok F ∧
    ¬ Lawful (V.placed fun _ => 1) (F.placed fun _ => 1) := by
  obtain ⟨V, hV, hlocations⟩ := Checks.exists_ok
    (x := foldDeclarations "attribute vec3 a_Position;\n".toList [] [] [] [])
    (p := fun V => V.slots.varyingLocations = []) (by decide +kernel)
  obtain ⟨F, hF, hplaced⟩ := Checks.exists_ok
    (x := foldDeclarations "uniform sampler2D mask;\nuniform sampler2D g_Texture0;\n".toList []
      [] [] [])
    (p := fun F => F.placed (fun _ => 1) .sampler =
      [(⟨"mask".toList, [("mask".toList, 1)]⟩, 0),
        (⟨"g_Texture0".toList, [("g_Texture0".toList, 1)]⟩, 0)]) (by decide +kernel)
  rw [← of_decide_eq_true hlocations] at hF
  refine ⟨V, F, hV, hF, fun h => ?_⟩
  have hdistinct := h.fragment_distinct .sampler
  rw [of_decide_eq_true hplaced] at hdistinct
  have hapart := hdistinct _ List.mem_cons_self _ (List.mem_cons_of_mem _ List.mem_cons_self)
    _ List.mem_cons_self _ List.mem_cons_self (by decide)
  simp [Apart] at hapart

end Kwe.Shader
