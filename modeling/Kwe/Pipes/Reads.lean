import Kwe.Audio.Capture
import Kwe.Foundation.Budget

/-!
The reading loops of two pipes: `read_available` of the browser's and `poll` of the
capture's.  They take the results of `read(2)` one after another.

* `reads_bounded_iff`: when a loop keeps to its budget.
-/

namespace Kwe.Pipes

open Foundation.Runs Foundation.Budget Kwe.Audio

/-- Chunk size for each `read(2)`, of both loops. -/
def readChunkBytes : Nat := 4096

/-- What a successful read fills of its chunk. -/
abbrev Chunk := { bytes : List UInt8 // 0 < bytes.length ∧ bytes.length ≤ readChunkBytes }

inductive ReadResult
  | data (chunk : Chunk)
  | eof
  | interrupted
  | wouldBlock
  | failed

inductive PipeError
  | oversizedMessage (maxMessageBytes : Nat)
  | io
  deriving DecidableEq, Repr

/-! ## The browser's pipe -/

def defaultReadBudgetBytes : Nat := 64 * 1024

/-- `buffer` is the tail without a NUL. -/
structure Decoder where
  maxMessageBytes : Nat
  buffer : List UInt8
  messages : List (List UInt8)
  deriving DecidableEq, Repr

namespace Decoder

/-- The bytes one after another: a NUL ends a message. -/
def pushFrom (d : Decoder) : List UInt8 → Except PipeError Decoder
  | [] =>
    if d.maxMessageBytes < d.buffer.length then .error (.oversizedMessage d.maxMessageBytes)
    else .ok d
  | b :: bytes =>
    if b = 0 then
      if d.maxMessageBytes < d.buffer.length then .error (.oversizedMessage d.maxMessageBytes)
      else pushFrom { d with buffer := [], messages := d.messages ++ [d.buffer] } bytes
    else pushFrom { d with buffer := d.buffer ++ [b] } bytes

def push (d : Decoder) (bytes : List UInt8) : Except PipeError Decoder :=
  if bytes = [] then .ok d else d.pushFrom bytes

end Decoder

/-- The reading side. -/
structure PipeTransport where
  decoder : Decoder
  readBytes : Nat
  eofSeen : Bool
  deriving DecidableEq, Repr

/-- A transport or a capture, and how the call ends if it ends now. -/
structure Call (σ : Type) where
  target : σ
  result : Except PipeError Unit

/-- A turn of the loop of `read_available`; after a failure of the decoder the
connection is dropped. -/
def transportTurn (call : Call PipeTransport) : ReadResult → Turn (Call PipeTransport)
  | .data chunk =>
    let n := chunk.1.length
    let t := { call.target with readBytes := call.target.readBytes + n }
    match t.decoder.push chunk.1 with
    | .error e => .halt n ⟨t, .error e⟩
    | .ok decoder => .spend n ⟨{ t with decoder := decoder }, .ok ()⟩
  | .eof => .halt 0 ⟨{ call.target with eofSeen := true }, .ok ()⟩
  | .interrupted => .again call
  | .wouldBlock => .halt 0 call
  | .failed => .halt 0 ⟨call.target, .error .io⟩

/-- `read_available`, once the pipe is ready. -/
def PipeTransport.readAvailable (t : PipeTransport) (results : List ReadResult) :
    Meter (Call PipeTransport) :=
  run (step transportTurn) (.start defaultReadBudgetBytes ⟨t, .ok ()⟩) results

/-! ## The capture's pipe -/

def maxReadBudgetBytes : Nat := 64 * 1024

/-- A turn of the loop of `poll`; an interrupted read is an error here. -/
def captureTurn (call : Call Capture) : ReadResult → Turn (Call Capture)
  | .data chunk => .spend chunk.1.length ⟨call.target.pushBytes chunk.1, .ok ()⟩
  | .eof | .wouldBlock => .halt 0 call
  | .interrupted | .failed => .halt 0 ⟨call.target, .error .io⟩

def pollCapture (c : Capture) (results : List ReadResult) : Meter (Call Capture) :=
  run (step captureTurn) (.start maxReadBudgetBytes ⟨c, .ok ()⟩) results

/-! ## Budgets -/

theorem transportTurn_pos {call : Call PipeTransport} {r : ReadResult} {cost : Nat}
    {s : Call PipeTransport} (h : transportTurn call r = .spend cost s) : 0 < cost := by
  cases r with
  | data chunk =>
    rw [transportTurn] at h
    dsimp only at h
    split at h
    · exact nomatch h
    · obtain ⟨rfl, -⟩ := Turn.spend.inj h
      exact chunk.2.1
  | eof | interrupted | wouldBlock | failed => exact nomatch h

theorem captureTurn_pos {call : Call Capture} {r : ReadResult} {cost : Nat} {s : Call Capture}
    (h : captureTurn call r = .spend cost s) : 0 < cost := by
  cases r with
  | data chunk =>
    obtain ⟨rfl, -⟩ := Turn.spend.inj h
    exact chunk.2.1
  | eof | interrupted | wouldBlock | failed => exact nomatch h

theorem readAvailable_bounded_iff (t : PipeTransport) (results : List ReadResult) :
    Bounded defaultReadBudgetBytes (t.readAvailable results) ↔
      Fits defaultReadBudgetBytes (costs transportTurn ⟨t, .ok ()⟩ results) :=
  bounded_iff (by decide) (fun _ _ _ _ => transportTurn_pos) (Exact.start _ _) rfl results

theorem pollCapture_bounded_iff (c : Capture) (results : List ReadResult) :
    Bounded maxReadBudgetBytes (pollCapture c results) ↔
      Fits maxReadBudgetBytes (costs captureTurn ⟨c, .ok ()⟩ results) :=
  bounded_iff (by decide) (fun _ _ _ _ => captureTurn_pos) (Exact.start _ _) rfl results

/-- **Reads.**  The loops keep to their budgets just when no read returns more than is
left of the budget. -/
theorem reads_bounded_iff (t : PipeTransport) (c : Capture) (results : List ReadResult) :
    (Bounded defaultReadBudgetBytes (t.readAvailable results) ↔
      Fits defaultReadBudgetBytes (costs transportTurn ⟨t, .ok ()⟩ results)) ∧
    (Bounded maxReadBudgetBytes (pollCapture c results) ↔
      Fits maxReadBudgetBytes (costs captureTurn ⟨c, .ok ()⟩ results)) :=
  ⟨readAvailable_bounded_iff t results, pollCapture_bounded_iff c results⟩

/-! ## A peer that leaves a remainder -/

/-- A read of so many NUL bytes. -/
def zeros (n : { n : Nat // 0 < n ∧ n ≤ readChunkBytes }) : ReadResult :=
  .data ⟨List.replicate n.1 0, by simpa using n.2⟩

theorem pushFrom_zeros {d : Decoder} (h : d.buffer.length ≤ d.maxMessageBytes) (n : Nat) :
    ∃ d', d.pushFrom (List.replicate n 0) = .ok d' ∧ d'.buffer.length ≤ d'.maxMessageBytes := by
  induction n generalizing d with
  | zero => exact ⟨d, by simp [Decoder.pushFrom, Nat.not_lt.mpr h], h⟩
  | succ n ih =>
    simp only [List.replicate_succ, Decoder.pushFrom, if_true, Nat.not_lt.mpr h, if_false]
    exact ih (Nat.zero_le _)

theorem push_zeros {d : Decoder} (h : d.buffer.length ≤ d.maxMessageBytes) (n : Nat) :
    ∃ d', d.push (List.replicate n 0) = .ok d' ∧ d'.buffer.length ≤ d'.maxMessageBytes := by
  rw [Decoder.push]
  split
  · exact ⟨d, rfl, h⟩
  · exact pushFrom_zeros h n

theorem transport_costs_zeros (sizes : List { n : Nat // 0 < n ∧ n ≤ readChunkBytes })
    {t : PipeTransport} (h : t.decoder.buffer.length ≤ t.decoder.maxMessageBytes) :
    costs transportTurn ⟨t, .ok ()⟩ (sizes.map zeros) = sizes.map (·.1) := by
  induction sizes generalizing t with
  | nil => rfl
  | cons n sizes ih =>
    obtain ⟨d', hpush, hd'⟩ := push_zeros h n.1
    have hturn : transportTurn ⟨t, .ok ()⟩ (zeros n) =
        .spend n.1 ⟨{ t with readBytes := t.readBytes + n.1, decoder := d' }, .ok ()⟩ := by
      simp [transportTurn, zeros, hpush]
    have hrest := ih (t := { t with readBytes := t.readBytes + n.1, decoder := d' }) hd'
    simp only [List.map_cons, costs, hturn, Turn.cost, Turn.halts, Turn.state]
    rw [hrest]
    simp

theorem capture_costs_zeros (sizes : List { n : Nat // 0 < n ∧ n ≤ readChunkBytes })
    (call : Call Capture) : costs captureTurn call (sizes.map zeros) = sizes.map (·.1) := by
  induction sizes generalizing call with
  | nil => rfl
  | cons n sizes ih =>
    have hturn : captureTurn call (zeros n) =
        .spend n.1 ⟨call.target.pushBytes (List.replicate n.1 0), .ok ()⟩ := by
      simp [captureTurn, zeros]
    simp only [List.map_cons, costs, hturn, Turn.cost, Turn.halts, Turn.state]
    simp [ih]

/-- Sixteen reads leave sixteen bytes of the budget; the next read fills its chunk. -/
def overrun : List { n : Nat // 0 < n ∧ n ≤ readChunkBytes } :=
  List.replicate 16 ⟨4095, by decide⟩ ++ [⟨4096, by decide⟩]

theorem overrun_unfit : ¬ Fits (64 * 1024) (overrun.map (·.1)) := by
  simp [overrun, Fits, List.replicate]

theorem reads_overrun :
    ¬ Bounded defaultReadBudgetBytes
      (PipeTransport.readAvailable ⟨⟨65536, [], []⟩, 0, false⟩ (overrun.map zeros)) ∧
    ¬ Bounded maxReadBudgetBytes (pollCapture (.new 1024) (overrun.map zeros)) := by
  constructor
  · rw [readAvailable_bounded_iff, transport_costs_zeros overrun (Nat.zero_le _)]
    exact overrun_unfit
  · rw [pollCapture_bounded_iff, capture_costs_zeros overrun]
    exact overrun_unfit

end Kwe.Pipes
