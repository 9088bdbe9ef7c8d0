import Kwe.Supervisor.Refinement

/-!
The display generation: while it does not wrap, it names the frame source.

* `generation_step`: a step that does not advance it shows no new source;
* `source_unique`: two moments of a run at one generation show one source;
* `accepted_generation`: acknowledgements and messages are accepted at the
  current generation only;
* `reached_generations`: what follows for every run.
-/

namespace Kwe.Supervisor

open Foundation

/-- The process whose frames are published. -/
def Slots.source (s : Slots) : Option Nat := s.active.map Worker.child

/-- The event does not wrap the generation around. -/
def Event.NoWrap : Event → Prop
  | .advanced previous => previous + 1 < 2 ^ 64
  | _ => True

instance : (e : Event) → Decidable e.NoWrap
  | .advanced previous => inferInstanceAs (Decidable (previous + 1 < 2 ^ 64))
  | .spawned _ | .refused _ | .evicted _ | .cleared _ => isTrue trivial

def NoWrap (cfg : Config) (s : State) (i : Input) : Prop :=
  ∀ e ∈ (step cfg s i).events, e.NoWrap

instance (cfg : Config) (s : State) (i : Input) : Decidable (NoWrap cfg s i) :=
  inferInstanceAs (Decidable (∀ e ∈ _, _))

/-! ## One step -/

theorem nextGeneration_ne (generation : Nat) : nextGeneration generation ≠ generation := by
  unfold nextGeneration
  omega

theorem nextGeneration_eq {generation : Nat} (h : generation + 1 < 2 ^ 64) :
    nextGeneration generation = generation + 1 := by
  unfold nextGeneration
  omega

/-- The generation and source of `s'` continue those of `s`. -/
def Slots.Continues (s s' : Slots) : Prop :=
  s'.displayGeneration = s.displayGeneration ∧ (s'.source = s.source ∨ s'.source = none)

theorem Slots.Continues.of_eq {s s' : Slots} (hg : s'.displayGeneration = s.displayGeneration)
    (ha : s'.active = s.active) : s.Continues s' :=
  ⟨hg, Or.inl (by rw [Slots.source, Slots.source, ha])⟩

/-- A step either advances the generation or shows no new source. -/
theorem Slots.apply_generation {s : Slots} {a : Action} (h : s.Inv) (he : s.Enabled a) :
    (s.apply a).displayGeneration = nextGeneration s.displayGeneration ∨
      s.Continues (s.apply a) := by
  cases a with
  | touchActive w =>
    obtain ⟨w₀, hw₀, hsame⟩ := he
    exact Or.inr ⟨rfl, Or.inl (by simp [Slots.apply, Slots.source, hw₀, hsame.1])⟩
  | launchFailed spec v => exact Or.inr (.of_eq (by simp [Slots.apply]) (by simp [Slots.apply]))
  | failCandidate spec v => exact Or.inr (.of_eq (by simp [Slots.apply]) (by simp [Slots.apply]))
  | loseActive v =>
    obtain ⟨w, hw⟩ := Option.isSome_iff_exists.mp he.1
    simp only [Slots.apply, hw]
    unfold Slots.lose
    cases hr : s.retired with
    | some r => exact Or.inl (by simp)
    | none =>
      refine Or.inr ⟨?_, Or.inr ?_⟩
      · simp only
        repeat' split
        all_goals simp
      · simp only [Slots.source]
        repeat' split
        all_goals simp
  | promote w deadline snapshot =>
    refine Or.inl ?_
    unfold Slots.apply Slots.promoted
    cases s.active <;> rfl
  | settle => exact Or.inr (.of_eq (by simp [Slots.apply]) (Slots.settled_slots s).2.2)
  | acknowledge =>
    exact Or.inr (.of_eq (by simp [Slots.apply]) (Slots.settled_slots { s with retired := none }).2.2)
  | revert v =>
    obtain ⟨r, hr⟩ := Option.isSome_iff_exists.mp he.1
    obtain ⟨w, hw⟩ := Option.isSome_iff_exists.mp he.2.1
    exact Or.inl (by simp [Slots.apply, hr, hw])
  | restore =>
    have hactive := (h.handoff he.1).1
    simp [he.2] at hactive
  | stop => exact Or.inr ⟨rfl, Or.inr rfl⟩
  | _ => exact Or.inr (.of_eq rfl rfl)

theorem generation_step {cfg : Config} {s : State} {i : Input} (h : s.toSlots.Inv)
    (hnowrap : NoWrap cfg s i) :
    (step cfg s i).displayGeneration = s.displayGeneration + 1 ∨
      s.toSlots.Continues (step cfg s i).toSlots := by
  obtain ⟨a, henabled, hslots, -, hadvanced, -⟩ := step_refines cfg s i
  rw [hslots] at hadvanced ⊢
  refine (Slots.apply_generation h henabled).imp_left fun hnext => ?_
  rcases hadvanced with hsame | hmem
  · exact absurd (hnext.symm.trans hsame) (nextGeneration_ne _)
  · have hlt : s.displayGeneration + 1 < 2 ^ 64 := hnowrap _ hmem
    rw [hnext, nextGeneration_eq hlt]

/-! ## One source for each generation -/

/-- `s` is past `generation`, or at it with no source but `source`. -/
def Slots.Since (generation : Nat) (source : Option Nat) (s : Slots) : Prop :=
  generation < s.displayGeneration ∨
    (s.displayGeneration = generation ∧ (s.source = source ∨ s.source = none))

theorem since_step {cfg : Config} {s : State} {i : Input} {generation : Nat}
    {source : Option Nat} (h : s.toSlots.Inv) (hnowrap : NoWrap cfg s i)
    (hsince : s.toSlots.Since generation source) :
    (step cfg s i).toSlots.Since generation source := by
  rcases generation_step h hnowrap with hnext | ⟨hgeneration, hsource⟩
  · refine Or.inl ?_
    rcases hsince with hlt | ⟨heq, -⟩ <;> omega
  · rcases hsince with hlt | ⟨heq, hkept⟩
    · exact Or.inl (by omega)
    · refine Or.inr ⟨by omega, ?_⟩
      rcases hsource with hsame | hnone
      · rwa [hsame]
      · exact Or.inr hnone

/-- Two moments of a run at one generation show one source. -/
theorem source_unique {cfg : Config} {s : State} {is : List Input} {w w' : Worker}
    (h : s.toSlots.Inv) (hnowrap : Runs.Along (step cfg) (NoWrap cfg) s is)
    (hw : s.active = some w) (hw' : (Runs.run (step cfg) s is).active = some w')
    (hgeneration : (Runs.run (step cfg) s is).displayGeneration = s.displayGeneration) :
    w'.child = w.child := by
  have hsince : (Runs.run (step cfg) s is).toSlots.Since s.displayGeneration s.toSlots.source :=
    (Runs.invariant_run
    (I := fun t : State => t.toSlots.Inv ∧ t.toSlots.Since s.displayGeneration s.toSlots.source)
    (fun t i ht hn => ⟨inv_step i ht.1, since_step ht.1 hn ht.2⟩)
    ⟨h, Or.inr ⟨rfl, Or.inl rfl⟩⟩ hnowrap).2
  rcases hsince with hlt | ⟨-, hsource | hnone⟩
  · omega
  · simpa [Slots.source, hw, hw'] using hsource
  · simp [Slots.source, hw'] at hnone

/-! ## What is accepted -/

/-- The generation a command is tagged with. -/
def Input.generation : Input → Option Nat
  | .acknowledge generation _ | .pointerInput generation _ _ _ _ | .audioFrame generation _ _ _
  | .mediaState generation _ _ => some generation
  | _ => none

/-- The reply to the command is no error. -/
def IsAccepted (cfg : Config) (s : State) (i : Input) : Prop :=
  ∃ status, reply cfg s i = some (.ok status)

/-- `persist_last_good` succeeds. -/
def Io.Persists (io : Io) : Prop := io.saveLastGood.isOk = true ∧ (io.save 0).isOk = true

theorem persistLastGood_isOk (io : Io) (spec : StartSpec) (snapshot : FrameSnapshot) (s : State) :
    (persistLastGood io spec snapshot s).isOk = true ↔ io.Persists := by
  unfold persistLastGood Io.Persists saveState
  cases io.saveLastGood <;> cases io.save 0 <;> simp [Except.isOk, Except.toBool]

theorem expectedGeneration_eq {s : Slots} (h : s.Inv) :
    s.expectedGeneration = s.displayGeneration := by
  unfold Slots.expectedGeneration
  cases hr : s.retired with
  | none => rfl
  | some r => exact h.generation r hr

/-- An acknowledgement is accepted exactly when it names the current generation
and the fallback of an open handoff could be persisted. -/
theorem acknowledge_accepted {cfg : Config} {s : State} {generation : Nat} {io : Io}
    (h : s.toSlots.Inv) :
    IsAccepted cfg s (.acknowledge generation io) ↔
      generation = s.displayGeneration ∧ (s.retired.isSome → io.Persists) := by
  have hreply : reply cfg s (.acknowledge generation io) =
      some (acknowledgeDisplay io generation { s with events := [] }).1 := rfl
  have hexpected : ({ s with events := [] } : State).expectedGeneration = s.displayGeneration :=
    expectedGeneration_eq h
  unfold IsAccepted
  rw [hreply]
  unfold acknowledgeDisplay
  by_cases hg : generation = s.displayGeneration
  · simp only [hexpected, ne_eq, hg, true_and]
    cases hr : s.retired with
    | none => simp
    | some r =>
      obtain ⟨w, hw⟩ := Option.isSome_iff_exists.mp (h.handoff (by simp [hr])).1
      simp only [hw, Option.isSome_some, forall_const]
      rw [← persistLastGood_isOk io w.spec r.promotionSnapshot
        { s with events := [], retired := none }]
      simp only [hw]
      cases persistLastGood io w.spec r.promotionSnapshot
        { s with events := [], retired := none, active := some w } <;>
        simp [Except.isOk, Except.toBool]
  · simp [hexpected, hg]

theorem forwardPointerInput_stale {generation : Nat} {s : State}
    (h : generation ≠ s.displayGeneration) (phase : PointerPhase) (button : Option PointerButton)
    (quantized : Option (Nat × Nat)) (pipe : PipeWrite) :
    (forwardPointerInput generation phase button quantized pipe s).1 =
      .error "pointer input display generation is stale or invalid" := by
  unfold forwardPointerInput
  rw [if_pos (Or.inr h)]

theorem forwardAudioFrame_stale {generation : Nat} {s : State}
    (h : generation ≠ s.displayGeneration) (granted : Bool) (line : Except String (List UInt8))
    (pipe : PipeWrite) :
    (forwardAudioFrame generation granted line pipe s).1 =
      .error "audio frame display generation is stale or invalid" := by
  unfold forwardAudioFrame
  rw [if_pos (Or.inr h)]

theorem forwardMediaState_stale {generation : Nat} {s : State}
    (h : generation ≠ s.displayGeneration) (line : Except String (List UInt8))
    (pipe : PipeWrite) :
    (forwardMediaState generation line pipe s).1 =
      .error "media state display generation is stale or invalid" := by
  unfold forwardMediaState
  rw [if_pos (Or.inr h)]

/-- Whatever is tagged with a generation is accepted at the current one
only. -/
theorem accepted_generation {cfg : Config} {s : State} {i : Input} {generation : Nat}
    (h : s.toSlots.Inv) (hi : i.generation = some generation) (haccepted : IsAccepted cfg s i) :
    generation = s.displayGeneration := by
  by_contra hne
  obtain ⟨status, hreply⟩ := haccepted
  have rejected : ∀ {r : Reply} {detail : String}, r = .error detail →
      some r ≠ some (.ok status) := by
    rintro _ detail rfl hok
    cases hok
  cases i with
  | acknowledge g io =>
    obtain rfl := Option.some.inj hi
    exact hne ((acknowledge_accepted h).mp ⟨status, hreply⟩).1
  | pointerInput g phase button quantized pipe =>
    obtain rfl := Option.some.inj hi
    exact rejected (forwardPointerInput_stale (s := { s with events := [] }) hne phase button
      quantized pipe) hreply
  | audioFrame g granted line pipe =>
    obtain rfl := Option.some.inj hi
    exact rejected (forwardAudioFrame_stale (s := { s with events := [] }) hne granted line pipe) hreply
  | mediaState g line pipe =>
    obtain rfl := Option.some.inj hi
    exact rejected (forwardMediaState_stale (s := { s with events := [] }) hne line pipe) hreply
  | _ => simp [Input.generation] at hi

/-! ## Every run -/

/-- What a step from `s` to `s'` may do to the generation. -/
structure Slots.Advances (s s' : Slots) : Prop where
  mono : s.displayGeneration ≤ s'.displayGeneration
  replaced : ∀ w w', s.active = some w → s'.active = some w' → w'.child ≠ w.child →
    s.displayGeneration < s'.displayGeneration
  restored : ∀ r w', s.retired = some r → s'.active = some w' → w'.child = r.worker.child →
    s.displayGeneration < s'.displayGeneration

theorem advances_step {cfg : Config} {s : State} {i : Input} (h : s.toSlots.Inv)
    (hnowrap : NoWrap cfg s i) : s.toSlots.Advances (step cfg s i).toSlots := by
  rcases generation_step h hnowrap with hnext | ⟨hgeneration, hsource⟩
  · exact ⟨by omega, fun _ _ _ _ _ => by omega, fun _ _ _ _ _ => by omega⟩
  · have hkept : ∀ w w', s.active = some w → (step cfg s i).active = some w' →
        w'.child = w.child := by
      intro w w' hw hw'
      simpa [Slots.source, hw, hw'] using hsource
    refine ⟨by omega, fun w w' hw hw' hne => absurd (hkept w w' hw hw') hne, ?_⟩
    intro r w' hr hw' hchild
    obtain ⟨w, hw⟩ := Option.isSome_iff_exists.mp (h.handoff (by simp [hr])).1
    refine absurd ((hkept w w' hw hw').symm.trans hchild) ?_
    exact (h.retiredChild r hr).2 w hw

/-- Two states of one run, at one generation, show one source. -/
theorem reached_source_unique {cfg : Config} {persisted : PersistedState}
    {is pre pre' : List Input} {w w' : Worker}
    (h : Runs.Along (step cfg) (NoWrap cfg) (State.new persisted) is)
    (hpre : pre <+: is) (hpre' : pre' <+: is)
    (hw : (reached cfg persisted pre).active = some w)
    (hw' : (reached cfg persisted pre').active = some w')
    (hgeneration : (reached cfg persisted pre').displayGeneration =
      (reached cfg persisted pre).displayGeneration) : w'.child = w.child := by
  have later : ∀ {early more : List Input} {v v' : Worker}, early ++ more <+: is →
      (reached cfg persisted early).active = some v →
      (reached cfg persisted (early ++ more)).active = some v' →
      (reached cfg persisted (early ++ more)).displayGeneration =
        (reached cfg persisted early).displayGeneration → v'.child = v.child := by
    rintro early more v v' ⟨post, rfl⟩ hv hv' hsame
    rw [List.append_assoc, Runs.along_append, Runs.along_append] at h
    rw [reached, Runs.run_append] at hv' hsame
    exact source_unique (reached_inv cfg persisted early) h.2.1 hv hv' hsame
  rcases List.prefix_or_prefix_of_prefix hpre hpre' with ⟨more, rfl⟩ | ⟨more, rfl⟩
  · exact later hpre' hw hw' hgeneration
  · exact (later hpre hw' hw hgeneration.symm).symm

/-- `b` takes over from the live `a`, and the handoff is open. -/
def openHandoff : List Turn :=
  liveA ++
  [.sample (some (.start specB (.quiet 2000))) 2000 (.frame 2000 9) (.frame 2000 1),
   .sample none 3000 (.frame 3000 20) (.frame 3000 5)]

end Kwe.Supervisor
