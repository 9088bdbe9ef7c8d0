import Kwe.Foundation.Utf8
import Kwe.Foundation.Windows

/-!
The script engine of a scene: loading the script and stepping it, with the budget that an
interrupt handler enforces inside the interpreter.

Times are nanoseconds.  The script is arbitrary code: of each entry into the interpreter it is
told whether script code runs in it, when the interpreter would ask the interrupt handler, and
what the entry gives unless it is interrupted.
-/

namespace Kwe.Scripts

open Foundation

abbrev Time := Nat

/-- Eight milliseconds. -/
def softBudget : Time := 8000000

/-- Thirty-three milliseconds. -/
def hardBudget : Time := 33000000

def errorRereportWindow : Time := 30000000000

def errorClassCap : Nat := 16

/-! ## The budget -/

inductive BudgetVerdict
  | ok
  | soft
  | hard
  deriving DecidableEq, Repr

def budgetVerdict (elapsed : Time) (armed : Bool) (soft hard : Time) : BudgetVerdict :=
  if !armed then .ok
  else if hard ≤ elapsed then .hard
  else if soft ≤ elapsed then .soft
  else .ok

structure BudgetState where
  armed : Bool
  start : Option Time
  softHit : Bool
  hardHit : Bool
  deriving DecidableEq, Repr

namespace BudgetState

def new : BudgetState := ⟨false, none, false, false⟩

def arm (now : Time) : BudgetState := ⟨true, some now, false, false⟩

def disarm (b : BudgetState) : BudgetState := { b with armed := false, start := none }

/-- What the interrupt handler asks; the script is interrupted when this is `hard`. -/
def check (b : BudgetState) (now : Time) : BudgetVerdict × BudgetState :=
  match b.start with
  | none => (.ok, b)
  | some start =>
    match budgetVerdict (now - start) b.armed softBudget hardBudget with
    | .ok => (.ok, b)
    | .soft => (.soft, { b with softHit := true })
    | .hard => (.hard, { b with hardHit := true })

/-- The checks of an execution up to an interrupt: whether there was one, and the checks that
were made. -/
def runChecks (b : BudgetState) : List Time → Bool × List Time × BudgetState
  | [] => (false, [], b)
  | now :: checks =>
    match b.check now with
    | (.hard, b) => (true, [now], b)
    | (_, b) =>
      let (interrupted, made, b) := b.runChecks checks
      (interrupted, now :: made, b)

end BudgetState

/-! ## Entries into the interpreter -/

inductive JsError
  | allocation
  /-- The pending exception, and whether the thrown value is an `Error`. -/
  | exception (isError : Bool)
  | other (text : String)
  deriving DecidableEq, Repr

/-- What an entry does. -/
inductive Answer (α : Type)
  | host (result : Except JsError α)
  /-- Script code runs: a call, an accessor, a conversion. -/
  | script (checks : List Time) (result : Except JsError α)

structure Machine where
  budget : BudgetState
  trace : List Windows.Event

/-- Work of the host inside the interpreter. -/
def Call (α : Type) := Machine → Except JsError α × Machine

instance : Monad Call where
  pure a m := (.ok a, m)
  bind x f m :=
    match x m with
    | (.ok a, m) => f a m
    | (.error e, m) => (.error e, m)

variable {α : Type}

/-- An interrupt raises an exception that the script cannot catch. -/
def interpret : Answer α → Call α
  | .host result, m => (result, m)
  | .script checks result, m =>
    let (interrupted, made, budget) := m.budget.runChecks checks
    (if interrupted then .error (.exception true) else result,
      ⟨budget, m.trace ++ [.work made interrupted]⟩)

/-! ## The clear color -/

abbrev Color := ℚ × ℚ × ℚ × ℚ

/-- The reads of `Engine.clearcolor`: a number is given when it is finite. -/
structure ColorReads where
  engine : Answer Unit
  clearcolor : Answer Unit
  r : Answer (Option ℚ)
  g : Answer (Option ℚ)
  b : Answer (Option ℚ)
  a : Answer (Option ℚ)

def clampChannel : Option ℚ → ℚ
  | some value => max 0 (min value 1)
  | none => 0

def tryReadClearColor (reads : ColorReads) : Call Color := do
  interpret reads.engine
  interpret reads.clearcolor
  let r ← interpret reads.r
  let g ← interpret reads.g
  let b ← interpret reads.b
  let a ← interpret reads.a
  pure (clampChannel r, clampChannel g, clampChannel b, clampChannel a)

/-- An error is the current color. -/
def readClearColor (reads : ColorReads) (current : Color) (m : Machine) : Color × Machine :=
  match tryReadClearColor reads m with
  | (.ok color, m) => (color, m)
  | (.error _, m) => (current, m)

/-! ## Errors -/

inductive StartError
  | allocation
  | bootstrap (message : String)
  deriving DecidableEq, Repr

/-- The message of the pending exception; reading it may run script code. -/
def exceptionMessage (isError : Bool) (message : Answer (Option String)) (m : Machine) :
    String × Machine :=
  if isError then
    match interpret message m with
    | (.ok (some text), m) => (text, m)
    | (_, m) => ("", m)
  else ("", m)

def outOfMemory (message : String) : Bool :=
  decide ("out of memory".toList <:+: message.toList.map Char.toLower)

def truncateUtf8 (text : String) (maxBytes : Nat) : String :=
  if text.utf8ByteSize ≤ maxBytes then text
  else
    match Utf8.truncate (maxBytes - 3) text.toList with
    | [] => ""
    | kept => String.ofList kept ++ "…"

def firstLine : List Char → List Char
  | [] => []
  | '\n' :: _ => []
  | '\r' :: '\n' :: _ => []
  | c :: text => c :: firstLine text

/-- The phase and the first line of the message. -/
def exceptionClass (phase message : String) : String :=
  truncateUtf8 (phase ++ ": " ++ String.ofList (firstLine message.toList)) 160

inductive CallOutcome
  | newColor (color : Color)
  | noUpdate
  | softTimeout
  | hardTimeout
  | memoryLimit
  | error (text : String) (soft : Bool)

def callError (phase : String) (message : Answer (Option String)) (e : JsError) (m : Machine) :
    CallOutcome × Machine :=
  if e = .allocation then (.memoryLimit, m)
  else if m.budget.hardHit then (.hardTimeout, m)
  else
    match e with
    | .exception isError =>
      let (text, m) := exceptionMessage isError message m
      if outOfMemory text then (.memoryLimit, m)
      else (.error (exceptionClass phase text) m.budget.softHit, m)
    | .other text => (.error text m.budget.softHit, m)
    | .allocation => (.memoryLimit, m)

inductive LoadOutcome
  | ok
  | allocation
  | timeout
  | error (text : String)
  deriving DecidableEq

def loadCallError (phase : String) (message : Answer (Option String)) (e : JsError) (m : Machine) :
    LoadOutcome × Machine :=
  if e = .allocation then (.allocation, m)
  else if m.budget.hardHit then (.timeout, m)
  else
    match e with
    | .exception isError =>
      let (text, m) := exceptionMessage isError message m
      if outOfMemory text then (.allocation, m) else (.error (exceptionClass phase text), m)
    | .other text => (.error text, m)
    | .allocation => (.allocation, m)

/-! ## The engine -/

/-- The error classes that were logged, and when. -/
abbrev ErrorLog := List (String × Time)

/-- Whether the class is logged now; the oldest class makes room. -/
def ErrorLog.admit (log : ErrorLog) (text : String) (now : Time) : Bool × ErrorLog :=
  match log.find? (·.1 = text) with
  | some (_, time) =>
    if errorRereportWindow ≤ now - time then
      (true, log.map fun entry => if entry.1 = text then (text, now) else entry)
    else (false, log)
  | none =>
    (true, (if errorClassCap ≤ log.length then log.tail else log) ++ [(text, now)])

structure ScriptStats where
  softTimeouts : Nat
  hardTimeouts : Nat
  scriptErrors : Nat
  deriving DecidableEq, Repr

structure Engine where
  budget : BudgetState
  errorLog : ErrorLog
  clearColor : Color
  scriptOk : Bool
  hasScript : Bool
  stats : ScriptStats
  lastErrorDiag : Time

def Engine.new (clearColor : Color) (hasScript : Bool) (lastErrorDiag : Time) : Engine where
  budget := .new
  errorLog := []
  clearColor := clearColor
  scriptOk := false
  hasScript := hasScript
  stats := ⟨0, 0, 0⟩
  lastErrorDiag := lastErrorDiag

/-! ## Loading -/

/-- What happens while a script is loaded. -/
structure LoadInput where
  /-- Reading the file, when the scene has a script. -/
  script : Option (Except String Unit)
  now : Time
  eval : Answer Unit
  /-- Whether the global is a function. -/
  init : Answer Bool
  initCall : Answer Unit
  resized : Answer Bool
  resizedCall : Answer Unit
  message : Answer (Option String)
  color : ColorReads
  later : Time

/-- A hook is called when it can be read and is a function. -/
def callHook (hook : Answer Bool) (call : Answer Unit) : Call Unit := fun m =>
  match interpret hook m with
  | (.ok true, m) => interpret call m
  | (_, m) => (.ok (), m)

def LoadInput.run (i : LoadInput) (m : Machine) : LoadOutcome × Machine :=
  match interpret i.eval m with
  | (.error e, m) => loadCallError "eval" i.message e m
  | (.ok (), m) =>
    match callHook i.init i.initCall m with
    | (.error e, m) => loadCallError "init" i.message e m
    | (.ok (), m) =>
      match callHook i.resized i.resizedCall m with
      | (.error e, m) => loadCallError "resized" i.message e m
      | (.ok (), m) => (.ok, m)

def Machine.arm (now : Time) : Machine := ⟨.arm now, [.arm now]⟩

def Machine.disarm (m : Machine) : Machine := ⟨m.budget.disarm, m.trace ++ [.disarm]⟩

structure Load where
  engine : Engine
  result : Except StartError Unit
  trace : List Windows.Event

def Engine.loadScript (e : Engine) (i : LoadInput) : Load :=
  match i.script with
  | none => ⟨e, .ok (), []⟩
  | some (.error message) => ⟨e, .error (.bootstrap message), []⟩
  | some (.ok ()) =>
    let (outcome, m) := i.run (.arm i.now)
    let m := m.disarm
    let e := { e with budget := m.budget }
    match outcome with
    | .ok =>
      let (color, m) := readClearColor i.color e.clearColor m
      ⟨{ e with scriptOk := true, clearColor := color, budget := m.budget }, .ok (), m.trace⟩
    | .allocation => ⟨e, .error .allocation, m.trace⟩
    | .timeout =>
      ⟨{ e with stats := { e.stats with hardTimeouts := e.stats.hardTimeouts + 1 } }, .ok (),
        m.trace⟩
    | .error text =>
      let (admitted, log) := e.errorLog.admit text i.later
      let scriptErrors := if admitted then e.stats.scriptErrors + 1 else e.stats.scriptErrors
      ⟨{ e with errorLog := log, stats := { e.stats with scriptErrors } }, .ok (), m.trace⟩

/-! ## Stepping -/

/-- What happens in a step. -/
structure StepInput where
  now : Time
  engine : Answer Unit
  frametime : Answer Unit
  /-- Whether there is an update function. -/
  update : Answer Bool
  call : Answer Unit
  color : ColorReads
  message : Answer (Option String)
  later : Time

/-- What comes before the call: the engine object, its frame time, the update function. -/
def StepInput.prepare (i : StepInput) : Call Bool := do
  interpret i.engine
  interpret i.frametime
  interpret i.update

def StepInput.runUpdate (i : StepInput) (current : Color) (m : Machine) : CallOutcome × Machine :=
  match i.prepare m with
  | (.error e, m) => callError "update" i.message e m
  | (.ok false, m) => (.noUpdate, m)
  | (.ok true, m) =>
    match interpret i.call m with
    | (.error e, m) => callError "update" i.message e m
    | (.ok (), m) =>
      if m.budget.softHit then (.softTimeout, m)
      else
        let (color, m) := readClearColor i.color current m
        (.newColor color, m)

inductive StepResult
  | newFrame (color : Color)
  | softTimeout
  | hardTimeout
  | scriptError
  | allocation
  deriving DecidableEq

def Engine.applyOutcome (e : Engine) (now : Time) : CallOutcome → Engine × StepResult
  | .newColor color => ({ e with clearColor := color }, .newFrame color)
  | .noUpdate => (e, .newFrame e.clearColor)
  | .softTimeout =>
    ({ e with stats := { e.stats with softTimeouts := e.stats.softTimeouts + 1 } }, .softTimeout)
  | .hardTimeout =>
    ({ e with stats := { e.stats with hardTimeouts := e.stats.hardTimeouts + 1 } }, .hardTimeout)
  | .memoryLimit => (e, .allocation)
  | .error text soft =>
    let softTimeouts := if soft then e.stats.softTimeouts + 1 else e.stats.softTimeouts
    let (admitted, log) := e.errorLog.admit text now
    let e := { e with errorLog := log, stats := { e.stats with softTimeouts } }
    if admitted || errorRereportWindow ≤ now - e.lastErrorDiag then
      ({ e with
          lastErrorDiag := now
          stats := { e.stats with scriptErrors := e.stats.scriptErrors + 1 } }, .scriptError)
    else (e, .scriptError)

structure Step where
  engine : Engine
  result : StepResult
  trace : List Windows.Event

def Engine.step (e : Engine) (i : StepInput) : Step :=
  if !e.scriptOk && e.hasScript then ⟨e, .scriptError, []⟩
  else
    let (outcome, m) := i.runUpdate e.clearColor (.arm i.now)
    let m := m.disarm
    let (e, result) := { e with budget := m.budget }.applyOutcome i.later outcome
    ⟨e, result, m.trace⟩

end Kwe.Scripts
