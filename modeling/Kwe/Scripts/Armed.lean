import Kwe.Scripts.Engine

/-!
Where script code runs, and which steps tell that the hard budget fired.

* `runChecks_spec`: what the interrupt handler does in an open window;
* `Call.Keeps`: work of the host stays in its window;
* `Call.EndsAs`: how the entries into the interpreter end one after the other;
* `armed_iff`: whole sessions.
-/

namespace Kwe.Scripts

open Foundation Windows

variable {α β : Type} {now : Time}

/-! ## What the script does -/

/-- An entry into the interpreter: its checks, whether script code runs, and its error. -/
structure Turn where
  checks : List Time
  ran : Bool
  error : Option JsError
  deriving DecidableEq, Repr

def errorOf : Except JsError α → Option JsError
  | .ok _ => none
  | .error e => some e

def Answer.turn : Answer α → Turn
  | .host result => ⟨[], false, errorOf result⟩
  | .script checks result => ⟨checks, true, errorOf result⟩

/-- In a window opened at `now`, a check of the turn is past the hard budget. -/
def Turn.fires (now : Time) (t : Turn) : Bool := t.checks.any fun check => hardBudget ≤ check - now

def Turn.slow (now : Time) (t : Turn) : Bool := t.checks.any fun check => softBudget ≤ check - now

inductive Ending
  | interrupted
  | thrown (e : JsError)
  | returned
  deriving DecidableEq, Repr

/-- How turns end, each after the ones before it returned. -/
def ending (now : Time) : List Turn → Ending
  | [] => .returned
  | t :: ts =>
    if t.fires now then .interrupted
    else
      match t.error with
      | some e => .thrown e
      | none => ending now ts

/-- Script code runs in one of the turns, without a budget. -/
def runsCode : List Turn → Bool
  | [] => false
  | t :: ts => t.ran || (t.error.isNone && runsCode ts)

/-- What an entry gives in a window opened at `now`. -/
def Answer.value (now : Time) : Answer α → Except JsError α
  | .host result => result
  | .script checks result =>
    if checks.any fun check => hardBudget ≤ check - now then .error (.exception true) else result

def ColorReads.turns (reads : ColorReads) : List Turn :=
  [reads.engine.turn, reads.clearcolor.turn, reads.r.turn, reads.g.turn, reads.b.turn,
    reads.a.turn]

/-- A hook that is called returns. -/
def HookReturns (now : Time) (hook : Answer Bool) (call : Answer Unit) : Prop :=
  hook.value now = .ok true → call.value now = .ok ()

/-- The script is loaded without an error, and reading its color back runs script code. -/
def LoadInput.ColorRunsCode (i : LoadInput) : Prop :=
  i.script = some (.ok ()) ∧ i.eval.value i.now = .ok () ∧ HookReturns i.now i.init i.initCall ∧
    HookReturns i.now i.resized i.resizedCall ∧ runsCode i.color.turns = true

/-- The turns up to the end of the update. -/
def StepInput.turns (i : StepInput) : List Turn :=
  [i.engine.turn, i.frametime.turn, i.update.turn] ++
    if i.update.value i.now = .ok true then [i.call.turn] else []

/-- The hard budget fires where it is not told: while the color is read after an update that
returned in time, or while the message of an error is read. -/
def StepInput.HidesTimeout (i : StepInput) : Prop :=
  (i.update.value i.now = .ok true ∧ ending i.now i.turns = .returned ∧
    i.turns.any (·.slow i.now) = false ∧ ending i.now i.color.turns = .interrupted) ∨
  (ending i.now i.turns = .thrown (.exception true) ∧ i.message.turn.fires i.now = true)

/-- The interrupt fired in this trace. -/
def fired (es : List Windows.Event) : Bool :=
  es.any fun
    | .work _ interrupted => interrupted
    | _ => false

/-! ## Sessions -/

/-- A step whose hard budget fired tells so, and counts it once. -/
def Engine.Reports (e : Engine) (i : StepInput) : Prop :=
  fired (e.step i).trace = true →
    (e.step i).result = .hardTimeout ∧
      (e.step i).engine.stats.hardTimeouts = e.stats.hardTimeouts + 1

/-- Whether a step gets as far as the script. -/
def Engine.enters (e : Engine) : Bool := e.scriptOk || !e.hasScript

def Engine.steps (e : Engine) (inputs : List StepInput) : Engine :=
  inputs.foldl (fun e i => (e.step i).engine) e

def Engine.stepsTrace (e : Engine) : List StepInput → List Windows.Event
  | [] => []
  | i :: inputs => (e.step i).trace ++ (e.step i).engine.stepsTrace inputs

/-- Loading the script and, unless the engine does not start, stepping it. -/
def Engine.sessionTrace (e : Engine) (l : LoadInput) (inputs : List StepInput) :
    List Windows.Event :=
  (e.loadScript l).trace ++
    match (e.loadScript l).result with
    | .ok () => (e.loadScript l).engine.stepsTrace inputs
    | .error _ => []

/-! ## The interrupt handler -/

/-- The budget is armed since `now`. -/
def BudgetState.Open (now : Time) (b : BudgetState) : Prop := b.armed = true ∧ b.start = some now

theorem BudgetState.check_open {b : BudgetState} (h : b.Open now) (time : Time) :
    b.check time =
      if hardBudget ≤ time - now then (.hard, { b with hardHit := true })
      else if softBudget ≤ time - now then (.soft, { b with softHit := true })
      else (.ok, b) := by
  obtain ⟨harmed, hstart⟩ := h
  by_cases hhard : hardBudget ≤ time - now
  · simp [check, hstart, budgetVerdict, harmed, hhard]
  · by_cases hsoft : softBudget ≤ time - now
    · simp [check, hstart, budgetVerdict, harmed, hhard, hsoft]
    · simp [check, hstart, budgetVerdict, harmed, hhard, hsoft]

/-- A check in time only tells whether it is slow. -/
theorem BudgetState.runChecks_cons {b : BudgetState} (h : b.Open now) {check : Time}
    (hcheck : check - now < hardBudget) (checks : List Time) :
    ∃ b₁ : BudgetState, b₁.Open now ∧ b₁.hardHit = b.hardHit ∧
      b₁.softHit = (b.softHit || decide (softBudget ≤ check - now)) ∧
      b.runChecks (check :: checks) =
        ((b₁.runChecks checks).1, check :: (b₁.runChecks checks).2.1,
          (b₁.runChecks checks).2.2) := by
  have hopen := BudgetState.check_open h check
  rw [if_neg (Nat.not_le.mpr hcheck)] at hopen
  by_cases hsoft : softBudget ≤ check - now
  · rw [if_pos hsoft] at hopen
    refine ⟨{ b with softHit := true }, h, rfl, by simp [hsoft], ?_⟩
    simp [runChecks, hopen]
  · rw [if_neg hsoft] at hopen
    refine ⟨b, h, rfl, by simp [hsoft], ?_⟩
    simp [runChecks, hopen]

theorem mem_dropLast_cons {x y : α} {l : List α} (h : x ∈ (y :: l).dropLast) :
    x = y ∨ x ∈ l.dropLast := by
  cases l with
  | nil => exact absurd h List.not_mem_nil
  | cons z l => simpa using h

/-- **The handler.**  Checks go on until one is past the hard budget. -/
theorem runChecks_spec {b : BudgetState} (h : b.Open now) (checks : List Time) :
    (b.runChecks checks).1 = checks.any (fun check => hardBudget ≤ check - now) ∧
      (∀ check ∈ (b.runChecks checks).2.1.dropLast, check - now < hardBudget) ∧
      (b.runChecks checks).2.2.Open now ∧
      (b.runChecks checks).2.2.hardHit = (b.hardHit || (b.runChecks checks).1) ∧
      ((b.runChecks checks).1 = false → (b.runChecks checks).2.2.softHit =
        (b.softHit || checks.any fun check => softBudget ≤ check - now)) := by
  induction checks generalizing b with
  | nil => simp [BudgetState.runChecks, h]
  | cons check checks ih =>
    by_cases hhard : hardBudget ≤ check - now
    · have hcheck := BudgetState.check_open h check
      rw [if_pos hhard] at hcheck
      simp [BudgetState.runChecks, hcheck, hhard, h.1, h.2, BudgetState.Open]
    · obtain ⟨b₁, hopen, hhit, hslow, hrun⟩ := BudgetState.runChecks_cons h (Nat.not_le.mp hhard) checks
      obtain ⟨hfires, hmade, hopen', hhit', hslow'⟩ := ih hopen
      rw [hrun]
      refine ⟨?_, fun time htime => ?_, hopen', ?_, fun hnot => ?_⟩
      · simp [hfires, hhard]
      · rcases mem_dropLast_cons htime with rfl | htime
        · exact Nat.not_le.mp hhard
        · exact hmade time htime
      · rw [hhit', hhit]
      · rw [hslow' hnot, hslow, List.any_cons, Bool.or_assoc]

/-! ## Windows -/

/-- From one state of the interpreter to a later one, within the window that was opened at
`now`. -/
structure Extends (now : Time) (m m' : Machine) : Prop where
  opened : m'.budget.Open now
  trace : ∃ es, m'.trace = m.trace ++ es ∧ Inside hardBudget now es ∧
    m'.budget.hardHit = (m.budget.hardHit || fired es)

theorem Extends.refl {m : Machine} (h : m.budget.Open now) : Extends now m m :=
  ⟨h, [], by simp, .nil, by simp [fired]⟩

theorem Extends.trans {m m' m'' : Machine} (h : Extends now m m') (h' : Extends now m' m'') :
    Extends now m m'' := by
  obtain ⟨-, es, htrace, hinside, hhit⟩ := h
  obtain ⟨hopen, es', htrace', hinside', hhit'⟩ := h'
  refine ⟨hopen, es ++ es', by rw [htrace', htrace, List.append_assoc], hinside.append hinside', ?_⟩
  rw [hhit', hhit, fired, fired, fired, List.any_append, Bool.or_assoc]

/-- Work of the host that stays in an open window. -/
def Call.Keeps (now : Time) (x : Call α) : Prop :=
  ∀ m, m.budget.Open now → Extends now m (x m).2

theorem Call.Keeps.pure (a : α) : Call.Keeps now (Pure.pure a) := fun _ h => .refl h

theorem Call.bind_returned {x : Call α} {m m' : Machine} {a : α} (h : x m = (.ok a, m'))
    (f : α → Call β) : (x >>= f) m = f a m' := by
  simp only [Bind.bind, h]

theorem Call.bind_thrown {x : Call α} {m m' : Machine} {e : JsError} (h : x m = (.error e, m'))
    (f : α → Call β) : (x >>= f) m = (.error e, m') := by
  simp only [Bind.bind, h]

theorem Call.Keeps.bind {x : Call α} {f : α → Call β} (hx : x.Keeps now)
    (hf : ∀ a, (f a).Keeps now) : (x >>= f).Keeps now := by
  intro m hm
  have hkeeps := hx m hm
  rcases hrun : x m with ⟨result, m'⟩
  rw [hrun] at hkeeps
  cases result with
  | ok a =>
    rw [Call.bind_returned hrun]
    exact hkeeps.trans (hf a m' hkeeps.opened)
  | error e =>
    rw [Call.bind_thrown hrun]
    exact hkeeps

theorem interpret_keeps (a : Answer α) : (interpret a).Keeps now := by
  intro m hm
  cases a with
  | host result => exact .refl hm
  | script checks result =>
    obtain ⟨-, hmade, hopen, hhit, -⟩ := runChecks_spec hm checks
    refine ⟨hopen, _, rfl, ?_, ?_⟩
    · intro e he
      obtain rfl := List.mem_singleton.mp he
      exact ⟨_, _, rfl, hmade⟩
    · rw [fired, List.any_cons, List.any_nil, Bool.or_false]
      exact hhit

/-- What an entry gives in an open window. -/
theorem interpret_value (a : Answer α) {m : Machine} (hm : m.budget.Open now) :
    (interpret a m).1 = a.value now := by
  cases a with
  | host result => rfl
  | script checks result =>
    obtain ⟨hfires, -⟩ := runChecks_spec hm checks
    simp [interpret, Answer.value, hfires]

/-! ## How entries end -/

theorem ending_append (ts ts' : List Turn) :
    ending now (ts ++ ts') =
      match ending now ts with
      | .returned => ending now ts'
      | stopped => stopped := by
  induction ts with
  | nil => rfl
  | cons t ts ih =>
    rw [List.cons_append, ending, ending]
    split
    · rfl
    · cases t.error with
      | none => exact ih
      | some e => rfl

/-- What a state of the interpreter and a result say about the end of some turns. -/
def EndsWith (now : Time) (ts : List Turn) (m : Machine) (result : Except JsError α)
    (m' : Machine) : Prop :=
  match ending now ts with
  | .interrupted => result = .error (.exception true) ∧ m'.budget.hardHit = true
  | .thrown e => result = .error e ∧ m'.budget.hardHit = false
  | .returned => (∃ a, result = .ok a) ∧ m'.budget.hardHit = false ∧
      m'.budget.softHit = (m.budget.softHit || ts.any (·.slow now))

theorem EndsWith.ne_returned {ts : List Turn} {m m' : Machine} {e : JsError}
    (h : EndsWith now ts m (Except.error e : Except JsError α) m') : ending now ts ≠ .returned := by
  intro hts
  unfold EndsWith at h
  rw [hts] at h
  obtain ⟨⟨a, ha⟩, -⟩ := h
  exact nomatch ha

theorem EndsWith.returned {ts : List Turn} {m m' : Machine} {a : α}
    (h : EndsWith now ts m (.ok a) m') : ending now ts = .returned ∧ m'.budget.hardHit = false ∧
      m'.budget.softHit = (m.budget.softHit || ts.any (·.slow now)) := by
  unfold EndsWith at h
  cases hts : ending now ts with
  | interrupted =>
    rw [hts] at h
    exact nomatch h.1
  | thrown e =>
    rw [hts] at h
    exact nomatch h.1
  | returned =>
    rw [hts] at h
    exact ⟨rfl, h.2⟩

theorem EndsWith.hardHit_iff {ts : List Turn} {m m' : Machine} {result : Except JsError α}
    (h : EndsWith now ts m result m') :
    m'.budget.hardHit = true ↔ ending now ts = .interrupted := by
  unfold EndsWith at h
  cases hts : ending now ts with
  | interrupted =>
    rw [hts] at h
    simp [h.2]
  | thrown e =>
    rw [hts] at h
    simp [h.2]
  | returned =>
    rw [hts] at h
    simp [h.2.1]

/-- In an open window where the hard budget did not fire yet, the work ends as its turns do. -/
def Call.EndsAs (now : Time) (x : Call α) (ts : List Turn) : Prop :=
  ∀ m, m.budget.Open now → m.budget.hardHit = false → EndsWith now ts m (x m).1 (x m).2

theorem Call.EndsAs.pure (a : α) : Call.EndsAs now (Pure.pure a) [] :=
  fun _ _ hhit => ⟨⟨a, rfl⟩, hhit, (Bool.or_false _).symm⟩

theorem Call.EndsAs.bind {x : Call α} {f : α → Call β} {ts ts' : List Turn} (hx : x.EndsAs now ts)
    (hkeeps : x.Keeps now) (hf : ∀ a, (f a).EndsAs now ts') :
    (x >>= f).EndsAs now (ts ++ ts') := by
  intro m hm hhit
  have hends := hx m hm hhit
  have hopen := (hkeeps m hm).opened
  rcases hrun : x m with ⟨result, m'⟩
  rw [hrun] at hends hopen
  unfold EndsWith at hends ⊢
  rw [ending_append]
  cases hts : ending now ts with
  | interrupted =>
    rw [hts] at hends
    obtain ⟨rfl, hhit'⟩ := hends
    rw [Call.bind_thrown hrun]
    exact ⟨rfl, hhit'⟩
  | thrown e =>
    rw [hts] at hends
    obtain ⟨rfl, hhit'⟩ := hends
    rw [Call.bind_thrown hrun]
    exact ⟨rfl, hhit'⟩
  | returned =>
    rw [hts] at hends
    obtain ⟨⟨a, rfl⟩, hhit', hslow⟩ := hends
    have hrest := hf a m' hopen hhit'
    unfold EndsWith at hrest
    rw [Call.bind_returned hrun]
    dsimp only
    cases hts' : ending now ts' with
    | interrupted =>
      rw [hts'] at hrest
      exact hrest
    | thrown e =>
      rw [hts'] at hrest
      exact hrest
    | returned =>
      rw [hts'] at hrest
      obtain ⟨hvalue, hhit'', hslow'⟩ := hrest
      refine ⟨hvalue, hhit'', ?_⟩
      rw [hslow', hslow, List.any_append, Bool.or_assoc]

theorem interpret_endsAs (a : Answer α) : (interpret a).EndsAs now [a.turn] := by
  intro m hm hhit
  have hvalue := interpret_value a hm
  unfold EndsWith
  cases a with
  | host result =>
    cases result with
    | ok a => exact ⟨⟨a, rfl⟩, hhit, (Bool.or_false _).symm⟩
    | error e => exact ⟨rfl, hhit⟩
  | script checks result =>
    obtain ⟨hfires, -, -, hhit', hslow⟩ := runChecks_spec hm checks
    by_cases h : checks.any (fun check => hardBudget ≤ check - now) = true
    · have hending : ending now [(Answer.script checks result).turn] = .interrupted := by
        rw [ending, if_pos (show Turn.fires now (Answer.script checks result).turn = true from h)]
      rw [hending, hvalue]
      refine ⟨if_pos h, ?_⟩
      rw [interpret, hhit', hfires, h, Bool.or_true]
    · have hnot : Turn.fires now (Answer.script checks result).turn = false :=
        Bool.eq_false_iff.mpr h
      have hinterrupted : (m.budget.runChecks checks).1 = false := by
        rw [hfires]
        exact hnot
      have hstill : (interpret (.script checks result) m).2.budget.hardHit = false := by
        rw [interpret, hhit', hinterrupted, hhit, Bool.or_false]
      have hsame : (interpret (.script checks result) m).1 = result := by
        rw [hvalue]
        exact if_neg h
      rw [hsame, ending, if_neg (by simp [hnot])]
      cases result with
      | ok a =>
        refine ⟨⟨a, rfl⟩, hstill, ?_⟩
        rw [List.any_cons, List.any_nil, Bool.or_false]
        exact hslow hinterrupted
      | error e => exact ⟨rfl, hstill⟩

theorem tryReadClearColor_keeps (reads : ColorReads) : (tryReadClearColor reads).Keeps now :=
  .bind (interpret_keeps _) fun _ => .bind (interpret_keeps _) fun _ =>
    .bind (interpret_keeps _) fun _ => .bind (interpret_keeps _) fun _ =>
    .bind (interpret_keeps _) fun _ => .bind (interpret_keeps _) fun _ => .pure _

theorem tryReadClearColor_endsAs (reads : ColorReads) :
    (tryReadClearColor reads).EndsAs now reads.turns :=
  .bind (interpret_endsAs _) (interpret_keeps _) fun _ =>
    .bind (interpret_endsAs _) (interpret_keeps _) fun _ =>
    .bind (interpret_endsAs _) (interpret_keeps _) fun _ =>
    .bind (interpret_endsAs _) (interpret_keeps _) fun _ =>
    .bind (interpret_endsAs _) (interpret_keeps _) fun _ =>
    .bind (interpret_endsAs _) (interpret_keeps _) fun _ => .pure _

theorem readClearColor_snd (reads : ColorReads) (current : Color) (m : Machine) :
    (readClearColor reads current m).2 = (tryReadClearColor reads m).2 := by
  unfold readClearColor
  split
  next h => rw [h]
  next h => rw [h]

theorem prepare_keeps (i : StepInput) : i.prepare.Keeps now :=
  .bind (interpret_keeps _) fun _ => .bind (interpret_keeps _) fun _ => interpret_keeps _

theorem prepare_endsAs (i : StepInput) :
    i.prepare.EndsAs now [i.engine.turn, i.frametime.turn, i.update.turn] :=
  .bind (interpret_endsAs _) (interpret_keeps _) fun _ =>
    .bind (interpret_endsAs _) (interpret_keeps _) fun _ => interpret_endsAs _

theorem Call.bind_ok {x : Call α} {f : α → Call β} {m m'' : Machine} {b : β}
    (h : (x >>= f) m = (.ok b, m'')) :
    ∃ a m', x m = (.ok a, m') ∧ f a m' = (.ok b, m'') := by
  rcases hrun : x m with ⟨result, m'⟩
  cases result with
  | ok a =>
    rw [Call.bind_returned hrun] at h
    exact ⟨a, m', rfl, h⟩
  | error e =>
    rw [Call.bind_thrown hrun] at h
    cases (Prod.mk.inj h).1

/-- When everything before the call returns, it tells whether there is an update function. -/
theorem prepare_value (i : StepInput) {m m' : Machine} {update : Bool} (hm : m.budget.Open now)
    (h : i.prepare m = (.ok update, m')) : i.update.value now = .ok update := by
  obtain ⟨_, m₁, hengine, h⟩ := Call.bind_ok h
  obtain ⟨_, m₂, hframetime, h⟩ := Call.bind_ok h
  have hopen₁ := (interpret_keeps i.engine m hm).opened
  rw [hengine] at hopen₁
  have hopen₂ := (interpret_keeps i.frametime m₁ hopen₁).opened
  rw [hframetime] at hopen₂
  have hvalue := interpret_value i.update hopen₂
  rw [h] at hvalue
  exact hvalue.symm

/-! ## Errors -/

section Errors

variable (phase : String) (message : Answer (Option String)) (e : JsError) {m : Machine}

theorem exceptionMessage_snd (isError : Bool) :
    (exceptionMessage isError message m).2 = if isError then (interpret message m).2 else m := by
  unfold exceptionMessage
  cases isError with
  | false => rfl
  | true =>
    rw [if_pos rfl, if_pos rfl]
    split
    next h => rw [h]
    next h => rw [h]

theorem callError_snd : (callError phase message e m).2 =
    if e = .exception true ∧ m.budget.hardHit = false then (interpret message m).2 else m := by
  unfold callError
  cases e with
  | allocation => simp
  | other text => cases h : m.budget.hardHit <;> simp
  | exception isError =>
    have hsnd := exceptionMessage_snd message (m := m) isError
    cases hhit : m.budget.hardHit with
    | true => simp
    | false =>
      simp only [reduceCtorEq, if_false, Bool.false_eq_true]
      split
      all_goals
        rw [hsnd]
        cases isError <;> simp

theorem loadCallError_snd : (loadCallError phase message e m).2 =
    if e = .exception true ∧ m.budget.hardHit = false then (interpret message m).2 else m := by
  unfold loadCallError
  cases e with
  | allocation => simp
  | other text => cases h : m.budget.hardHit <;> simp
  | exception isError =>
    have hsnd := exceptionMessage_snd message (m := m) isError
    cases hhit : m.budget.hardHit with
    | true => simp
    | false =>
      simp only [reduceCtorEq, if_false, Bool.false_eq_true]
      split
      all_goals
        rw [hsnd]
        cases isError <;> simp

/-- An error that comes with the hard budget is a timeout. -/
theorem callError_timeout (hhit : m.budget.hardHit = true) :
    callError phase message (.exception true) m = (.hardTimeout, m) := by
  simp [callError, hhit]

/-- Any other error is none. -/
theorem callError_ne (hhit : m.budget.hardHit = false) :
    (callError phase message e m).1 ≠ .hardTimeout := by
  unfold callError
  cases e with
  | allocation => simp
  | other text => simp [hhit]
  | exception isError =>
    simp only [reduceCtorEq, hhit, if_false, Bool.false_eq_true]
    split <;> simp

theorem loadCallError_ne : (loadCallError phase message e m).1 ≠ .ok := by
  unfold loadCallError
  cases e with
  | allocation => simp
  | other text => cases m.budget.hardHit <;> simp
  | exception isError =>
    cases m.budget.hardHit with
    | true => simp
    | false =>
      simp only [reduceCtorEq, if_false, Bool.false_eq_true]
      split <;> simp

end Errors

/-! ## Steps -/

theorem callError_keeps (phase : String) (message : Answer (Option String)) (e : JsError)
    {m : Machine} (hm : m.budget.Open now) : Extends now m (callError phase message e m).2 := by
  rw [callError_snd]
  split
  · exact interpret_keeps message m hm
  · exact .refl hm

theorem runUpdate_keeps (i : StepInput) (current : Color) {m : Machine} (hm : m.budget.Open now) :
    Extends now m (i.runUpdate current m).2 := by
  have hprepare := prepare_keeps i m hm
  unfold StepInput.runUpdate
  rcases hrun : i.prepare m with ⟨result, m₁⟩
  rw [hrun] at hprepare
  cases result with
  | error e => exact hprepare.trans (callError_keeps _ _ _ hprepare.opened)
  | ok update =>
    cases update with
    | false => exact hprepare
    | true =>
      have hcall := hprepare.trans (interpret_keeps i.call m₁ hprepare.opened)
      dsimp only
      rcases hrun' : interpret i.call m₁ with ⟨result, m₂⟩
      rw [hrun'] at hcall
      cases result with
      | error e => exact hcall.trans (callError_keeps _ _ _ hcall.opened)
      | ok _ =>
        dsimp only
        split
        · exact hcall
        · have hread := hcall.trans (tryReadClearColor_keeps i.color m₂ hcall.opened)
          rw [← readClearColor_snd i.color current] at hread
          exact hread

theorem Machine.arm_open (now : Time) : (Machine.arm now).budget.Open now := ⟨rfl, rfl⟩

/-- An outcome that tells of a hard budget, and only when it fired. -/
def Told (outcome : CallOutcome) (m : Machine) : Prop :=
  m.budget.hardHit = true → outcome = .hardTimeout

/-- Errors tell of the hard budget, but for one that fires while the message is read. -/
theorem callError_told_iff {phase : String} {message : Answer (Option String)} {e : JsError}
    {m : Machine} (hm : m.budget.Open now) (hhit : m.budget.hardHit = false) :
    Told (callError phase message e m).1 (callError phase message e m).2 ↔
      ¬ (e = .exception true ∧ message.turn.fires now = true) := by
  have hne := callError_ne phase message e hhit
  have hfires : (interpret message m).2.budget.hardHit = message.turn.fires now := by
    cases message with
    | host result => exact hhit
    | script checks result =>
      obtain ⟨hfires, -, -, hhit', -⟩ := runChecks_spec hm checks
      rw [interpret, hhit', hhit, hfires]
      rfl
  rw [Told, callError_snd]
  simp only [hne, imp_false, Bool.not_eq_true, hhit, and_true]
  by_cases he : e = .exception true
  · rw [if_pos he, hfires]
    simp [he]
  · rw [if_neg he]
    simp [he, hhit]

/-- The same, of an error that ends some turns. -/
theorem error_told_iff {ts : List Turn} {m m' : Machine} {e : JsError} (hm' : m'.budget.Open now)
    (hends : EndsWith now ts m (Except.error e : Except JsError α) m')
    (message : Answer (Option String)) :
    Told (callError "update" message e m').1 (callError "update" message e m').2 ↔
      ¬ (ending now ts = .thrown (.exception true) ∧ message.turn.fires now = true) := by
  have hne := hends.ne_returned
  unfold EndsWith at hends
  cases hts : ending now ts with
  | interrupted =>
    rw [hts] at hends
    obtain ⟨he, hhit⟩ := hends
    obtain rfl := Except.error.inj he
    rw [callError_timeout _ _ hhit]
    exact iff_of_true (fun _ => rfl) nofun
  | thrown e' =>
    rw [hts] at hends
    obtain ⟨he, hhit⟩ := hends
    obtain rfl := Except.error.inj he
    rw [callError_told_iff hm' hhit]
    simp
  | returned => exact absurd hts hne

/-- The turns end before the call. -/
theorem StepInput.ending_turns (i : StepInput)
    (h : ending i.now [i.engine.turn, i.frametime.turn, i.update.turn] ≠ .returned) :
    ending i.now i.turns = ending i.now [i.engine.turn, i.frametime.turn, i.update.turn] := by
  rw [turns, ending_append]
  cases hts : ending i.now [i.engine.turn, i.frametime.turn, i.update.turn] with
  | interrupted => rfl
  | thrown e => rfl
  | returned => exact absurd hts h

/-- The turns go on to the call. -/
theorem StepInput.ending_call (i : StepInput)
    (h : ending i.now [i.engine.turn, i.frametime.turn, i.update.turn] = .returned)
    (hupdate : i.update.value i.now = .ok true) :
    ending i.now i.turns = ending i.now [i.call.turn] := by
  rw [turns, if_pos hupdate, ending_append, h]

/-- **One update.**  Its outcome tells of the hard budget unless this fires where it is hidden. -/
theorem runUpdate_told_iff (i : StepInput) (current : Color) :
    Told (i.runUpdate current (.arm i.now)).1 (i.runUpdate current (.arm i.now)).2 ↔
      ¬ i.HidesTimeout := by
  have hopen := Machine.arm_open i.now
  have hkeeps := prepare_keeps i _ hopen
  have hends := prepare_endsAs i _ hopen rfl
  unfold StepInput.runUpdate StepInput.HidesTimeout
  rcases hrun : i.prepare (.arm i.now) with ⟨result, m₁⟩
  rw [hrun] at hkeeps hends
  have hopen₁ := hkeeps.opened
  cases result with
  | error e =>
    have hne := hends.ne_returned
    dsimp only
    rw [error_told_iff hopen₁ hends, i.ending_turns hne]
    simp [hne]
  | ok update =>
    obtain ⟨hreturned, hhit₁, hslow₁⟩ := hends.returned
    have hvalue := prepare_value i hopen hrun
    cases update with
    | false =>
      have hturns : ending i.now i.turns = .returned := by
        rw [StepInput.turns, if_neg (by simp [hvalue]), List.append_nil, hreturned]
      refine iff_of_true (fun hhit => ?_) ?_
      · rw [hhit₁] at hhit
        exact nomatch hhit
      · simp [hvalue, hturns]
    | true =>
      have hcall := interpret_endsAs i.call m₁ hopen₁ hhit₁
      have hkeeps₂ := interpret_keeps i.call m₁ hopen₁
      rw [i.ending_call hreturned hvalue]
      dsimp only
      rcases hrun₂ : interpret i.call m₁ with ⟨result, m₂⟩
      rw [hrun₂] at hcall hkeeps₂
      have hopen₂ := hkeeps₂.opened
      cases result with
      | error e =>
        have hne := hcall.ne_returned
        dsimp only
        rw [error_told_iff hopen₂ hcall]
        simp [hne]
      | ok _ =>
        obtain ⟨hreturned₂, hhit₂, hslow₂⟩ := hcall.returned
        have hsoft : m₂.budget.softHit = i.turns.any (·.slow i.now) := by
          rw [hslow₂, hslow₁, StepInput.turns, if_pos hvalue, List.any_append]
          rfl
        dsimp only
        rw [← hsoft]
        cases hsoft₂ : m₂.budget.softHit with
        | true =>
          refine iff_of_true (fun hhit => ?_) ?_
          · rw [if_pos rfl, hhit₂] at hhit
            exact nomatch hhit
          · simp [hreturned₂]
        | false =>
          have hread := tryReadClearColor_endsAs i.color m₂ hopen₂ hhit₂
          have hhit := hread.hardHit_iff
          rw [← readClearColor_snd i.color current m₂] at hhit
          have htold : Told (.newColor (readClearColor i.color current m₂).1)
              (readClearColor i.color current m₂).2 ↔
              ¬ ending i.now i.color.turns = .interrupted := by
            rw [Told, hhit]
            simp
          rw [if_neg (by simp)]
          refine htold.trans ?_
          simp [hvalue, hreturned₂]

theorem Engine.enters_eq (e : Engine) : (!e.scriptOk && e.hasScript) = !e.enters := by
  rw [enters, Bool.not_or, Bool.not_not]

/-- A step that enters the interpreter is a window with its work. -/
theorem step_trace {e : Engine} (i : StepInput) (henters : e.enters = true) :
    ∃ es, Inside hardBudget i.now es ∧ (e.step i).trace = .arm i.now :: (es ++ [.disarm]) ∧
      (i.runUpdate e.clearColor (.arm i.now)).2.budget.hardHit = fired es := by
  obtain ⟨-, es, htrace, hinside, hhit⟩ :=
    runUpdate_keeps i e.clearColor (Machine.arm_open i.now)
  refine ⟨es, hinside, ?_, ?_⟩
  · rw [Engine.step, if_neg (by simp [e.enters_eq, henters])]
    change (i.runUpdate e.clearColor (.arm i.now)).2.trace ++ [.disarm] = _
    rw [htrace]
    rfl
  · rw [hhit]
    rfl

theorem step_idle {e : Engine} (i : StepInput) (henters : e.enters = false) :
    e.step i = ⟨e, .scriptError, []⟩ := by
  rw [Engine.step, if_pos (by simp [e.enters_eq, henters])]

/-- A step that enters the interpreter ends as its update does. -/
theorem step_outcome {e : Engine} (i : StepInput) (henters : e.enters = true) :
    (e.step i).result = .hardTimeout ∧
        (e.step i).engine.stats.hardTimeouts = e.stats.hardTimeouts + 1 ↔
      (i.runUpdate e.clearColor (.arm i.now)).1 = .hardTimeout := by
  rw [Engine.step, if_neg (by simp [e.enters_eq, henters])]
  rcases i.runUpdate e.clearColor (.arm i.now) with ⟨outcome, m⟩
  cases outcome with
  | newColor color => simp [Engine.applyOutcome]
  | noUpdate => simp [Engine.applyOutcome]
  | softTimeout => simp [Engine.applyOutcome]
  | hardTimeout => simp [Engine.applyOutcome]
  | memoryLimit => simp [Engine.applyOutcome]
  | error text soft =>
    simp only [Engine.applyOutcome]
    split <;> simp

theorem fired_window {es : List Windows.Event} :
    fired (.arm now :: (es ++ [.disarm])) = fired es := by
  simp [fired]

/-- **One step.**  It tells of the hard budget exactly when this does not fire where it is
hidden. -/
theorem step_reports_iff (e : Engine) (i : StepInput) :
    e.Reports i ↔ ¬ (e.enters = true ∧ i.HidesTimeout) := by
  cases henters : e.enters with
  | false =>
    refine iff_of_true (fun hfired => ?_) nofun
    rw [step_idle i henters] at hfired
    exact nomatch hfired
  | true =>
    obtain ⟨es, -, htrace, hhit⟩ := step_trace i henters
    rw [Engine.Reports, htrace, fired_window, ← hhit, step_outcome i henters]
    have htold := runUpdate_told_iff i e.clearColor
    rw [Told] at htold
    simpa using htold

/-- All work of a step lies in its window. -/
theorem step_contained (e : Engine) (i : StepInput) :
    Contained hardBudget none (e.step i).trace := by
  cases henters : e.enters with
  | false =>
    rw [step_idle i henters]
    trivial
  | true =>
    obtain ⟨es, hinside, htrace, -⟩ := step_trace i henters
    rw [htrace]
    exact (contained_window i.now hinside).mpr trivial

theorem stepsTrace_contained (e : Engine) (inputs : List StepInput) :
    Contained hardBudget none (e.stepsTrace inputs) := by
  induction inputs generalizing e with
  | nil => trivial
  | cons i inputs ih => exact (contained_append (step_contained e i)).mpr (ih _)

/-! ## Loading -/

theorem callHook_keeps (hook : Answer Bool) (call : Answer Unit) :
    (callHook hook call).Keeps now := by
  intro m hm
  have hhook := interpret_keeps hook m hm
  unfold callHook
  split
  next m' h =>
    rw [h] at hhook
    exact hhook.trans (interpret_keeps call m' hhook.opened)
  next result m' hnot h =>
    rw [h] at hhook
    exact hhook

theorem callHook_ok_iff (hook : Answer Bool) (call : Answer Unit) {m : Machine}
    (hm : m.budget.Open now) :
    (callHook hook call m).1 = .ok () ↔ HookReturns now hook call := by
  have hvalue := interpret_value hook hm
  have hopen := (interpret_keeps hook m hm).opened
  unfold callHook HookReturns
  split
  next m' h =>
    rw [h] at hvalue hopen
    rw [← hvalue, interpret_value call hopen]
    simp
  next result m' hnot h =>
    rw [h] at hvalue
    exact iff_of_true rfl fun hcall => absurd (hvalue.trans hcall) hnot

theorem loadCallError_keeps (phase : String) (message : Answer (Option String)) (e : JsError)
    {m : Machine} (hm : m.budget.Open now) : Extends now m (loadCallError phase message e m).2 := by
  rw [loadCallError_snd]
  split
  · exact interpret_keeps message m hm
  · exact .refl hm

/-- The work before the budget is disarmed. -/
theorem LoadInput.run_keeps (i : LoadInput) {m : Machine} (hm : m.budget.Open now) :
    Extends now m (i.run m).2 := by
  have heval := interpret_keeps i.eval m hm
  unfold run
  rcases hrun : interpret i.eval m with ⟨result, m₁⟩
  rw [hrun] at heval
  cases result with
  | error e => exact heval.trans (loadCallError_keeps _ _ _ heval.opened)
  | ok _ =>
    have hinit := heval.trans (callHook_keeps i.init i.initCall m₁ heval.opened)
    dsimp only
    rcases hrun : callHook i.init i.initCall m₁ with ⟨result, m₂⟩
    rw [hrun] at hinit
    cases result with
    | error e => exact hinit.trans (loadCallError_keeps _ _ _ hinit.opened)
    | ok _ =>
      have hresized := hinit.trans (callHook_keeps i.resized i.resizedCall m₂ hinit.opened)
      dsimp only
      rcases hrun : callHook i.resized i.resizedCall m₂ with ⟨result, m₃⟩
      rw [hrun] at hresized
      cases result with
      | error e => exact hresized.trans (loadCallError_keeps _ _ _ hresized.opened)
      | ok _ => exact hresized

theorem LoadInput.run_ok_iff (i : LoadInput) {m : Machine} (hm : m.budget.Open now) :
    (i.run m).1 = .ok ↔ i.eval.value now = .ok () ∧ HookReturns now i.init i.initCall ∧
      HookReturns now i.resized i.resizedCall := by
  have hvalue := interpret_value i.eval hm
  have hopen₁ := (interpret_keeps i.eval m hm).opened
  unfold run
  rcases hrun : interpret i.eval m with ⟨result, m₁⟩
  rw [hrun] at hvalue hopen₁
  rw [← hvalue]
  cases result with
  | error e => exact iff_of_false (loadCallError_ne _ _ _) nofun
  | ok _ =>
    have hinit := callHook_ok_iff i.init i.initCall hopen₁
    have hopen₂ := (callHook_keeps i.init i.initCall m₁ hopen₁).opened
    dsimp only
    rcases hrun : callHook i.init i.initCall m₁ with ⟨result, m₂⟩
    rw [hrun] at hinit hopen₂
    rw [← hinit]
    cases result with
    | error e => exact iff_of_false (loadCallError_ne _ _ _) nofun
    | ok _ =>
      have hresized := callHook_ok_iff i.resized i.resizedCall hopen₂
      dsimp only
      rcases hrun : callHook i.resized i.resizedCall m₂ with ⟨result, m₃⟩
      rw [hrun] at hresized
      rw [← hresized]
      cases result with
      | error e => exact iff_of_false (loadCallError_ne _ _ _) nofun
      | ok _ => simp

/-! ## Without a budget -/

/-- Work of the host outside a window: it is never interrupted. -/
def Call.Idles (x : Call α) (ts : List Turn) : Prop :=
  ∀ m, m.budget.start = none → (x m).2.budget.start = none ∧
    ((∃ a, (x m).1 = .ok a) ↔ ∀ t ∈ ts, t.error = none) ∧
    ∃ es, (x m).2.trace = m.trace ++ es ∧ (es = [] ↔ runsCode ts = false) ∧
      ∀ e ∈ es, ∃ checks interrupted, e = .work checks interrupted

theorem runsCode_append (ts ts' : List Turn) :
    runsCode (ts ++ ts') = (runsCode ts || (ts.all (·.error.isNone) && runsCode ts')) := by
  induction ts with
  | nil => simp [runsCode]
  | cons t ts ih =>
    rw [List.cons_append, runsCode, ih, runsCode, List.all_cons]
    cases t.error.isNone <;> simp [Bool.or_assoc]

theorem Call.Idles.pure (a : α) : Call.Idles (Pure.pure a) [] := by
  intro m hm
  refine ⟨hm, iff_of_true ⟨a, rfl⟩ (List.forall_mem_nil _), [], ?_, ?_, List.forall_mem_nil _⟩
  · exact (List.append_nil _).symm
  · exact iff_of_true rfl rfl

theorem Call.Idles.bind {x : Call α} {f : α → Call β} {ts ts' : List Turn} (hx : x.Idles ts)
    (hf : ∀ a, (f a).Idles ts') : (x >>= f).Idles (ts ++ ts') := by
  intro m hm
  obtain ⟨hstart, hok, es, htrace, hes, hwork⟩ := hx m hm
  rcases hrun : x m with ⟨result, m'⟩
  rw [hrun] at hstart hok htrace
  cases result with
  | error e =>
    rw [Call.bind_thrown hrun]
    have hnot : ¬ ∀ t ∈ ts, t.error = none := fun hall => by
      obtain ⟨a, ha⟩ := hok.mpr hall
      cases ha
    refine ⟨hstart, iff_of_false (by rintro ⟨a, ⟨⟩⟩) fun hall => ?_, es, htrace, ?_, hwork⟩
    · exact hnot fun t ht => hall t (List.mem_append_left _ ht)
    · have hall : ts.all (·.error.isNone) = false := by
        rw [Bool.eq_false_iff]
        intro hall
        exact hnot fun t ht => Option.isNone_iff_eq_none.mp (List.all_eq_true.mp hall t ht)
      rw [hes, runsCode_append, hall, Bool.false_and, Bool.or_false]
  | ok a =>
    have hall : ∀ t ∈ ts, t.error = none := hok.mp ⟨a, rfl⟩
    obtain ⟨hstart', hok', es', htrace', hes', hwork'⟩ := hf a m' hstart
    rw [Call.bind_returned hrun]
    refine ⟨hstart', ?_, es ++ es', ?_, ?_, ?_⟩
    · rw [hok', List.forall_mem_append]
      exact ⟨fun h => ⟨hall, h⟩, fun h => h.2⟩
    · rw [htrace', htrace, List.append_assoc]
    · have htrue : ts.all (·.error.isNone) = true :=
        List.all_eq_true.mpr fun t ht => Option.isNone_iff_eq_none.mpr (hall t ht)
      rw [List.append_eq_nil_iff, hes, hes', runsCode_append, htrue, Bool.true_and,
        Bool.or_eq_false_iff]
    · exact List.forall_mem_append.mpr ⟨hwork, hwork'⟩

theorem runChecks_idle {b : BudgetState} (h : b.start = none) (checks : List Time) :
    b.runChecks checks = (false, checks, b) := by
  induction checks with
  | nil => rfl
  | cons check checks ih => simp [BudgetState.runChecks, BudgetState.check, h, ih]

theorem interpret_idles (a : Answer α) : (interpret a).Idles [a.turn] := by
  intro m hm
  cases a with
  | host result =>
    refine ⟨hm, ?_, [], (List.append_nil _).symm, ?_, List.forall_mem_nil _⟩
    · cases result <;> simp [interpret, Answer.turn, errorOf]
    · simp [runsCode, Answer.turn]
  | script checks result =>
    have hrun := runChecks_idle hm checks
    refine ⟨?_, ?_, [.work checks false], ?_, ?_, ?_⟩
    · rw [interpret, hrun]
      exact hm
    · cases result <;> simp [interpret, hrun, Answer.turn, errorOf]
    · rw [interpret, hrun]
    · simp [runsCode, Answer.turn]
    · intro e he
      exact ⟨checks, false, List.mem_singleton.mp he⟩

theorem tryReadClearColor_idles (reads : ColorReads) :
    (tryReadClearColor reads).Idles reads.turns :=
  .bind (interpret_idles _) fun _ => .bind (interpret_idles _) fun _ =>
    .bind (interpret_idles _) fun _ => .bind (interpret_idles _) fun _ =>
    .bind (interpret_idles _) fun _ => .bind (interpret_idles _) fun _ => .pure _

theorem loadScript_trace (e : Engine) {l : LoadInput} (h : l.script = some (.ok ())) :
    (e.loadScript l).trace =
      if (l.run (.arm l.now)).1 = .ok then
        (tryReadClearColor l.color (l.run (.arm l.now)).2.disarm).2.trace
      else (l.run (.arm l.now)).2.disarm.trace := by
  unfold Engine.loadScript
  rw [h]
  dsimp only
  rcases l.run (.arm l.now) with ⟨outcome, m⟩
  cases outcome with
  | ok =>
    rw [if_pos rfl, ← readClearColor_snd l.color e.clearColor]
  | allocation => rw [if_neg (by simp)]
  | timeout => rw [if_neg (by simp)]
  | error text => rw [if_neg (by simp)]

/-- **Loading.**  All work of a load lies in its window, exactly when the color that is read back
runs no script code. -/
theorem load_contained_iff (e : Engine) (l : LoadInput) (more : List Windows.Event) :
    Contained hardBudget none ((e.loadScript l).trace ++ more) ↔
      ¬ l.ColorRunsCode ∧ Contained hardBudget none more := by
  have hskipped : l.script ≠ some (.ok ()) → (e.loadScript l).trace = [] →
      (Contained hardBudget none ((e.loadScript l).trace ++ more) ↔
        ¬ l.ColorRunsCode ∧ Contained hardBudget none more) := by
    intro hscript hload
    rw [hload, List.nil_append]
    exact (and_iff_right fun h : l.ColorRunsCode => hscript h.1).symm
  cases hscript : l.script with
  | none =>
    refine hskipped ?_ ?_
    · rw [hscript]
      exact nofun
    · rw [Engine.loadScript, hscript]
  | some read =>
    cases read with
    | error message =>
      refine hskipped ?_ ?_
      · rw [hscript]
        exact nofun
      · rw [Engine.loadScript, hscript]
    | ok _ =>
      have hopen := Machine.arm_open l.now
      obtain ⟨-, es, htrace, hinside, -⟩ := l.run_keeps hopen
      have hok := l.run_ok_iff hopen
      have hclosed : (l.run (.arm l.now)).2.disarm.trace = .arm l.now :: (es ++ [.disarm]) := by
        rw [Machine.disarm, htrace]
        rfl
      have hwindow : Contained hardBudget none (.arm l.now :: (es ++ [.disarm])) :=
        (contained_window l.now hinside).mpr trivial
      rw [loadScript_trace e hscript]
      by_cases houtcome : (l.run (.arm l.now)).1 = .ok
      · obtain ⟨-, -, es', htrace', hes', hwork⟩ :=
          tryReadClearColor_idles l.color (l.run (.arm l.now)).2.disarm rfl
        rw [if_pos houtcome, htrace', hclosed, List.append_assoc, contained_append hwindow]
        have hcontained : Contained hardBudget none (es' ++ more) ↔
            runsCode l.color.turns = false ∧ Contained hardBudget none more := by
          rw [← hes']
          cases es' with
          | nil => exact (and_iff_right rfl).symm
          | cons event es' =>
            obtain ⟨checks, interrupted, rfl⟩ := hwork event List.mem_cons_self
            exact iff_of_false not_contained_work fun h => nomatch h.1
        obtain ⟨heval, hinit, hresized⟩ := hok.mp houtcome
        rw [hcontained, LoadInput.ColorRunsCode]
        simp [hscript, heval, hinit, hresized]
      · rw [if_neg houtcome, hclosed, contained_append hwindow]
        exact (and_iff_right fun h : l.ColorRunsCode =>
          houtcome (hok.mpr ⟨h.2.1, h.2.2.1, h.2.2.2.1⟩)).symm

/-- **Sessions.**  All script code of a session runs in armed windows, which it outlives by one
check at most, and every step in which the hard budget fired tells so and counts it once, exactly
when the color that is read back after the load runs no script code and no step hides the hard
budget. -/
theorem armed_iff (e : Engine) (l : LoadInput) (inputs : List StepInput) :
    (Contained hardBudget none (e.sessionTrace l inputs) ∧
      ∀ done i rest, inputs = done ++ i :: rest → (e.loadScript l).result = .ok () →
        ((e.loadScript l).engine.steps done).Reports i) ↔
    ¬ l.ColorRunsCode ∧
      ∀ done i rest, inputs = done ++ i :: rest → (e.loadScript l).result = .ok () →
        ¬ (((e.loadScript l).engine.steps done).enters = true ∧ i.HidesTimeout) := by
  have hsession : Contained hardBudget none (e.sessionTrace l inputs) ↔ ¬ l.ColorRunsCode := by
    rw [Engine.sessionTrace, load_contained_iff]
    refine and_iff_left ?_
    cases (e.loadScript l).result with
    | error start => trivial
    | ok _ => exact stepsTrace_contained _ inputs
  rw [hsession]
  simp only [step_reports_iff]

/-! ### A color with an accessor -/

/-- A script whose color has a getter that takes forty milliseconds: it runs while the color is
read back, after the load without a budget and after each update. -/
def slowColor : ColorReads :=
  ⟨.host (.ok ()), .script [40000000] (.ok ()), .host (.ok (some 1)), .host (.ok (some 1)),
    .host (.ok (some 1)), .host (.ok (some 1))⟩

def slowLoad : LoadInput :=
  ⟨some (.ok ()), 0, .script [] (.ok ()), .host (.ok false), .host (.ok ()), .host (.ok false),
    .host (.ok ()), .host (.ok none), slowColor, 50000000⟩

def slowStep : StepInput :=
  ⟨0, .host (.ok ()), .host (.ok ()), .host (.ok true), .script [] (.ok ()), slowColor,
    .host (.ok none), 50000000⟩

def startColor : Color := (0, 0, 0, 1)

/-- The getter runs outside a window after the load; in the step it is interrupted, and the step
is a new frame. -/
theorem color_unarmed :
    ¬ Contained hardBudget none ((Engine.new startColor true 0).sessionTrace slowLoad []) ∧
      ∃ e : Engine, e = ((Engine.new startColor true 0).loadScript slowLoad).engine ∧
        fired (e.step slowStep).trace = true ∧
        (e.step slowStep).engine.stats.hardTimeouts = 0 ∧
        ∃ color, (e.step slowStep).result = .newFrame color := by
  refine ⟨fun h => ?_, _, rfl, rfl, rfl, _, rfl⟩
  rw [Engine.sessionTrace, load_contained_iff] at h
  refine h.1 ⟨rfl, rfl, nofun, nofun, rfl⟩

end Kwe.Scripts
