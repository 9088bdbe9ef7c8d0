import Kwe.Cdp.Codec
import Kwe.Foundation.Backlog
import Kwe.Pipes.Reads

/-!
The writing side of the browser's pipe: `send`, `poll` and `flush_writes`.  They take the
results of `write(2)` one after another; when there are no more, the pipe is full.

* `flush_spec`: what one flush does to the backlog;
* `Inv.step`: what every call keeps;
* `backlog_iff`: when the memory of the backlog is bounded.
-/

namespace Kwe.Pipes

open Foundation Foundation.Runs

open Kwe.Cdp (encodeMessage)

def maxWriteBacklogBytes : Nat := 4 * 1024 * 1024

/-- How the wait for a full pipe ends. -/
inductive Wait
  | ready
  /-- The deadline has passed. -/
  | expired
  | failed

inductive WriteResult
  /-- So many bytes of those offered, at most all. -/
  | written (n : Nat)
  | interrupted
  | wouldBlock (wait : Wait)
  | failed

/-- The backlog after a flush, the bytes that the pipe took, and how the flush ends. -/
structure Flushed where
  backlog : Backlog UInt8
  written : List UInt8
  result : Except PipeError Unit

/-- The loop of `flush_writes`; `written` is what the pipe took so far. -/
def flushFrom (blocking : Bool) (b : Backlog UInt8) (written : List UInt8)
    (results : List WriteResult) : Flushed :=
  if b.pending = [] then ⟨.empty, written, .ok ()⟩
  else
    match results with
    | [] => ⟨b, written, if blocking then .error .io else .ok ()⟩
    | .written n :: results =>
      if n = 0 then ⟨b, written, .error .io⟩
      else flushFrom blocking (b.advance n) (written ++ b.front n) results
    | .interrupted :: results => flushFrom blocking b written results
    | .wouldBlock wait :: results =>
      if blocking then
        match wait with
        | .ready => flushFrom blocking b written results
        | .expired | .failed => ⟨b, written, .error .io⟩
      else ⟨b, written, .ok ()⟩
    | .failed :: _ => ⟨b, written, .error .io⟩

def flushWrites (blocking : Bool) (b : Backlog UInt8) (results : List WriteResult) : Flushed :=
  flushFrom blocking b [] results

/-- How the wait for something to read ends. -/
inductive Arrival
  | ready (results : List ReadResult)
  | nothing
  | failed

structure Transport where
  maxMessageBytes : Nat
  reading : PipeTransport
  backlog : Backlog UInt8
  writtenBytes : Nat

namespace Transport

def new (maxMessageBytes : Nat) : Transport :=
  ⟨maxMessageBytes, ⟨⟨maxMessageBytes, [], []⟩, 0, false⟩, .empty, 0⟩

def pendingWriteBytes (t : Transport) : Nat := t.backlog.cells.length - t.backlog.offset

/-- The bytes of memory, those that were written included. -/
def heldBytes (t : Transport) : Nat := t.backlog.cells.length

/-- The checks of `send`. -/
def check (t : Transport) (body : List UInt8) : Except PipeError Unit :=
  if t.maxMessageBytes < body.length + 1 then
    .error (.oversizedMessage t.maxMessageBytes)
  else if maxWriteBacklogBytes < t.pendingWriteBytes + body.length + 1 then .error .io
  else .ok ()

def enqueue (t : Transport) (body : List UInt8) : Transport :=
  { t with backlog := t.backlog.append (encodeMessage body) }

/-- The transport after a flush. -/
def flushed (t : Transport) (f : Flushed) : Transport :=
  { t with backlog := f.backlog, writtenBytes := t.writtenBytes + f.written.length }

/-- The transport after a call, the bytes that the pipe took, and the result. -/
structure Did (α : Type) where
  transport : Transport
  written : List UInt8
  result : Except PipeError α

/-- The flush of a send is one nonblocking attempt, and its result is ignored. -/
def send (t : Transport) (body : List UInt8) (results : List WriteResult) : Did Unit :=
  match t.check body with
  | .error e => ⟨t, [], .error e⟩
  | .ok () =>
    let f := flushWrites false (t.enqueue body).backlog results
    ⟨(t.enqueue body).flushed f, f.written, .ok ()⟩

def readAvailable (t : Transport) : Arrival → Transport × Except PipeError Unit
  | .failed => (t, .error .io)
  | .nothing => (t, .ok ())
  | .ready results =>
    let call := (t.reading.readAvailable results).state
    ({ t with reading := call.target }, call.result)

def takeMessages (t : Transport) : Transport × List (List UInt8) :=
  ({ t with reading.decoder.messages := [] }, t.reading.decoder.messages)

def poll (t : Transport) (blocking : Bool) (results : List WriteResult) (arrival : Arrival) :
    Did (List (List UInt8)) :=
  if t.reading.eofSeen then ⟨t, [], .error .io⟩
  else
    let f := flushWrites blocking t.backlog results
    match f.result with
    | .error e => ⟨t.flushed f, f.written, .error e⟩
    | .ok () =>
      let read := (t.flushed f).readAvailable arrival
      match read.2 with
      | .error e => ⟨read.1, f.written, .error e⟩
      | .ok () => ⟨read.1.takeMessages.1, f.written, .ok read.1.takeMessages.2⟩

end Transport

/-! ## Runs -/

inductive TransportCall
  | send (body : List UInt8) (results : List WriteResult)
  | poll (blocking : Bool) (results : List WriteResult) (arrival : Arrival)

/-- A transport, what its pipe took and the bodies it accepted so far; how many framed
bytes it accepted since the pipe last had all of them; and the most it ever held. -/
structure World where
  transport : Transport
  pipe : List UInt8
  accepted : List (List UInt8)
  sinceCaughtUp : Nat
  peak : Nat

namespace World

def start (maxMessageBytes : Nat) : World := ⟨.new maxMessageBytes, [], [], 0, 0⟩

/-- The pipe has everything that was accepted. -/
def caughtUp (w : World) : Bool := w.pipe.length = (w.accepted.flatMap encodeMessage).length

def recount (w : World) : World :=
  { w with sinceCaughtUp := if w.caughtUp then 0 else w.sinceCaughtUp }

def step (w : World) : TransportCall → World
  | .send body results =>
    let did := w.transport.send body results
    match did.result with
    | .error _ => { w with transport := did.transport, pipe := w.pipe ++ did.written }
    | .ok () =>
      recount {
        transport := did.transport
        pipe := w.pipe ++ did.written
        accepted := w.accepted ++ [body]
        sinceCaughtUp := w.sinceCaughtUp + (body.length + 1)
        peak := max w.peak (w.transport.enqueue body).heldBytes }
  | .poll blocking results arrival =>
    let did := w.transport.poll blocking results arrival
    recount { w with transport := did.transport, pipe := w.pipe ++ did.written }

/-- What is written and what is pending is what was accepted; what is pending and what
was ever held is bounded. -/
structure Bounded (w : World) : Prop where
  bytes : w.pipe ++ w.transport.backlog.pending = w.accepted.flatMap encodeMessage
  pending : w.transport.pendingWriteBytes ≤ maxWriteBacklogBytes
  held : w.transport.heldBytes ≤ w.peak
  peak : w.peak ≤ 2 * maxWriteBacklogBytes

/-- A send that is accepted finds the pipe not too far behind: with its body, at most
twice the bound was accepted since the pipe last had everything. -/
def NotBehind (w : World) : TransportCall → Prop
  | .send body _ => w.transport.check body = .ok () →
    w.sinceCaughtUp + (body.length + 1) ≤ 2 * maxWriteBacklogBytes
  | .poll _ _ _ => True

end World

/-! ## A flush -/

/-- The pipe took the front of what was pending.  The backlog is dropped when nothing is
pending any more, and kept as it is otherwise. -/
structure Drained (b : Backlog UInt8) (written : List UInt8) (b' : Backlog UInt8) : Prop where
  pending : written ++ b'.pending = b.pending
  cells : b'.cells = if b'.pending = [] then [] else b.cells

theorem flushFrom_spec (blocking : Bool) (b : Backlog UInt8) (before : List UInt8)
    (results : List WriteResult) :
    ∃ written, (flushFrom blocking b before results).written = before ++ written ∧
      Drained b written (flushFrom blocking b before results).backlog := by
  fun_induction flushFrom blocking b before results with
  | case1 b before results hnone => exact ⟨[], (List.append_nil _).symm, hnone.symm, rfl⟩
  | case4 b before hsome n results hn ih =>
    obtain ⟨written, hwritten, hdrained⟩ := ih
    refine ⟨b.front n ++ written, by rw [hwritten, List.append_assoc], ?_, hdrained.cells⟩
    rw [List.append_assoc, hdrained.pending, b.front_append_pending]
  | case5 b before hsome results ih => exact ih
  | case6 b before hsome results hblocking ih => exact ih
  | _ => exact ⟨[], (List.append_nil _).symm, rfl, by simp [*]⟩

theorem flush_spec (blocking : Bool) (b : Backlog UInt8) (results : List WriteResult) :
    Drained b (flushWrites blocking b results).written
      (flushWrites blocking b results).backlog := by
  obtain ⟨written, hwritten, hdrained⟩ := flushFrom_spec blocking b [] results
  rw [flushWrites, hwritten]
  exact hdrained

/-- What is pending is what was accepted and is not yet written. -/
structure Inv (w : World) : Prop where
  bytes : w.pipe ++ w.transport.backlog.pending = w.accepted.flatMap encodeMessage
  settled : w.transport.backlog.pending = [] → w.transport.backlog.cells = []
  pending : w.transport.pendingWriteBytes ≤ maxWriteBacklogBytes
  since : w.sinceCaughtUp = w.transport.heldBytes
  held : w.transport.heldBytes ≤ w.peak

theorem pendingWriteBytes_eq (t : Transport) :
    t.pendingWriteBytes = t.backlog.pending.length := by
  rw [Transport.pendingWriteBytes, t.backlog.length_cells]
  omega

theorem Inv.start (maxMessageBytes : Nat) : Inv (.start maxMessageBytes) where
  bytes := rfl
  settled _ := rfl
  pending := Nat.zero_le _
  since := rfl
  held := Nat.le_refl _

/-! ## Calls -/

theorem check_ok_iff {t : Transport} {body : List UInt8} :
    t.check body = .ok () ↔ body.length + 1 ≤ t.maxMessageBytes ∧
      t.pendingWriteBytes + (body.length + 1) ≤ maxWriteBacklogBytes := by
  rw [Transport.check]
  split
  next h => simp [Nat.not_le.mpr h]
  next h =>
    split
    next h' => exact iff_of_false nofun (by omega)
    next h' => simp [Nat.not_lt.mp h, Nat.not_lt.mp h', ← Nat.add_assoc]

/-- After a flush, whatever was accepted before it. -/
theorem inv_recount {w : World} {b : Backlog UInt8} {written : List UInt8}
    (hdrained : Drained b written w.transport.backlog)
    (hbytes : w.pipe ++ w.transport.backlog.pending = w.accepted.flatMap encodeMessage)
    (hpending : b.pending.length ≤ maxWriteBacklogBytes)
    (hsince : w.sinceCaughtUp = b.cells.length) (hheld : b.cells.length ≤ w.peak) :
    Inv w.recount where
  bytes := hbytes
  settled hnone := by
    have hcells := hdrained.cells
    rw [if_pos (show w.transport.backlog.pending = [] from hnone)] at hcells
    exact hcells
  pending := by
    have hlength := congrArg List.length hdrained.pending
    rw [List.length_append] at hlength
    rw [pendingWriteBytes_eq]
    exact Nat.le_trans (by simp only [World.recount]; omega) hpending
  since := by
    have hcaught : w.caughtUp = true ↔ w.transport.backlog.pending = [] := by
      rw [World.caughtUp, ← hbytes, List.length_append, decide_eq_true_iff,
        ← List.length_eq_zero_iff]
      omega
    simp only [World.recount, Transport.heldBytes, hdrained.cells, hcaught]
    split
    · rfl
    · exact hsince
  held := by
    refine Nat.le_trans ?_ hheld
    simp only [World.recount, Transport.heldBytes, hdrained.cells]
    split
    · exact Nat.zero_le _
    · exact Nat.le_refl _

theorem readAvailable_backlog (t : Transport) (arrival : Arrival) :
    (t.readAvailable arrival).1.backlog = t.backlog := by
  cases arrival <;> rfl

theorem poll_drained {t : Transport} (hsettled : t.backlog.pending = [] → t.backlog.cells = [])
    (blocking : Bool) (results : List WriteResult) (arrival : Arrival) :
    Drained t.backlog (t.poll blocking results arrival).written
      (t.poll blocking results arrival).transport.backlog := by
  have hflush := flush_spec blocking t.backlog results
  rw [Transport.poll]
  split
  · refine ⟨rfl, ?_⟩
    split
    next hnone => exact hsettled hnone
    next => rfl
  · dsimp only
    split
    · exact hflush
    · split
      all_goals
        simp only [Transport.takeMessages, readAvailable_backlog]
        exact hflush

theorem Inv.poll {w : World} (h : Inv w) (blocking : Bool) (results : List WriteResult)
    (arrival : Arrival) : Inv (w.step (.poll blocking results arrival)) := by
  have hdrained := poll_drained h.settled blocking results arrival
  refine inv_recount hdrained ?_ (pendingWriteBytes_eq _ ▸ h.pending) h.since ?_
  · simp only
    rw [List.append_assoc, hdrained.pending, h.bytes]
  · exact h.held

theorem Inv.send {w : World} (h : Inv w) (body : List UInt8) (results : List WriteResult) :
    Inv (w.step (.send body results)) := by
  cases hcheck : w.transport.check body with
  | error e => simpa [World.step, Transport.send, hcheck] using h
  | ok =>
    have hdrained := flush_spec false (w.transport.enqueue body).backlog results
    have hroom := (check_ok_iff.mp hcheck).2
    rw [pendingWriteBytes_eq] at hroom
    simp only [World.step, Transport.send, hcheck]
    refine inv_recount hdrained ?_ ?_ ?_ (Nat.le_max_right _ _)
    · simp only [Transport.flushed]
      rw [List.append_assoc, hdrained.pending, Transport.enqueue, Backlog.pending_append,
        ← List.append_assoc, h.bytes, List.flatMap_append, List.flatMap_singleton]
    · simp only [Transport.enqueue, Backlog.pending_append, encodeMessage, List.length_append,
        List.length_singleton]
      omega
    · simp only [Transport.enqueue, Backlog.cells_append, encodeMessage, List.length_append,
        List.length_singleton, h.since, Transport.heldBytes]

theorem Inv.step (w : World) (call : TransportCall) (h : Inv w) : Inv (w.step call) := by
  cases call with
  | send body results => exact h.send body results
  | poll blocking results arrival => exact h.poll blocking results arrival

/-! ## The bound -/

theorem peak_step (w : World) (call : TransportCall) (h : Inv w) :
    (w.step call).peak ≤ 2 * maxWriteBacklogBytes ↔
      w.peak ≤ 2 * maxWriteBacklogBytes ∧ w.NotBehind call := by
  cases call with
  | poll blocking results arrival => exact (and_iff_left trivial).symm
  | send body results =>
    cases hcheck : w.transport.check body with
    | error e => simp [World.step, Transport.send, World.NotBehind, hcheck]
    | ok =>
      have hheld : (w.transport.enqueue body).heldBytes =
          w.sinceCaughtUp + (body.length + 1) := by
        simp [Transport.enqueue, Transport.heldBytes, encodeMessage, h.since]
      simp [World.step, Transport.send, World.NotBehind, World.recount, hcheck, hheld]

/-- **Backlog.**  What is written and what is pending is what was accepted, and what is
pending is bounded; what was ever held is bounded just when every send that was accepted
found the pipe not too far behind. -/
theorem backlog_iff (maxMessageBytes : Nat) (calls : List TransportCall) :
    (run World.step (.start maxMessageBytes) calls).Bounded ↔
      Along World.step World.NotBehind (.start maxMessageBytes) calls := by
  have h := invariant_run_all Inv.step (Inv.start maxMessageBytes) calls
  have hpeak := kept_iff_along (P := fun w => w.peak ≤ 2 * maxWriteBacklogBytes) Inv.step
    peak_step (Inv.start maxMessageBytes) calls
  rw [and_iff_right (show (World.start maxMessageBytes).peak ≤ _ from Nat.zero_le _)] at hpeak
  exact ⟨fun hbounded => hpeak.mp hbounded.peak,
    fun halong => ⟨h.bytes, h.pending, h.held, hpeak.mpr halong⟩⟩

/-! ## A pipe that never takes the last byte -/

/-- A send of one byte and its NUL. -/
def drip (taken : Nat) : TransportCall := .send [97] [.written taken]

/-- One byte of a framed body is pending. -/
structure Dripping (held : Nat) (w : World) : Prop where
  maxMessageBytes : w.transport.maxMessageBytes = Cdp.defaultMaxMessageBytes
  pending : w.transport.backlog.pending.length = 1
  held : w.transport.heldBytes = held

theorem flush_leaving_one {b : Backlog UInt8} {n : Nat} (hn : n ≠ 0)
    (hpending : b.pending.length = n + 1) :
    (flushWrites false b [.written n]).backlog = b.advance n := by
  have hfront := congrArg List.length (b.front_append_pending n)
  rw [List.length_append, Backlog.front, List.length_take, hpending] at hfront
  have hsome : b.pending ≠ [] := by
    intro hnone
    rw [hnone] at hpending
    exact nomatch hpending
  have hleft : (b.advance n).pending ≠ [] := by
    intro hnone
    rw [hnone, List.length_nil] at hfront
    omega
  rw [flushWrites, flushFrom, if_neg hsome, if_neg hn, flushFrom, if_neg hleft]

theorem drip_step {w : World} {taken : Nat} (hn : taken ≠ 0)
    (hmax : w.transport.maxMessageBytes = Cdp.defaultMaxMessageBytes)
    (hpending : w.transport.backlog.pending.length + 2 = taken + 1) (hsmall : taken ≤ 2) :
    Dripping (w.transport.heldBytes + 2) (w.step (drip taken)) := by
  have hcheck : w.transport.check [97] = .ok () := by
    rw [check_ok_iff, hmax, pendingWriteBytes_eq]
    simp only [List.length_singleton, Cdp.defaultMaxMessageBytes, maxWriteBacklogBytes]
    omega
  have hlength : (w.transport.enqueue [97]).backlog.pending.length = taken + 1 := by
    simp only [Transport.enqueue, Backlog.pending_append, encodeMessage, List.length_append,
      List.length_cons, List.length_nil]
    omega
  have hflush := flush_leaving_one hn hlength
  have hfront := congrArg List.length
    ((w.transport.enqueue [97]).backlog.front_append_pending taken)
  rw [List.length_append, Backlog.front, List.length_take, hlength] at hfront
  simp only [World.step, drip, Transport.send, hcheck]
  refine ⟨hmax, ?_, ?_⟩
  · simp only [World.recount, Transport.flushed, hflush]
    omega
  · simp only [World.recount, Transport.flushed, Transport.heldBytes, hflush,
      Backlog.cells_advance]
    simp [Transport.enqueue, encodeMessage]

theorem drip_run {held : Nat} {w : World} (h : Dripping held w) (n : Nat) :
    Dripping (held + 2 * n) (run World.step w (List.replicate n (drip 2))) := by
  induction n generalizing held w with
  | zero => exact h
  | succ n ih =>
    have hstep := drip_step (w := w) (by decide) h.maxMessageBytes (by rw [h.pending])
      (Nat.le_refl 2)
    rw [h.held] at hstep
    have hrun := ih hstep
    rw [List.replicate_succ, run_cons, show held + 2 * (n + 1) = held + 2 + 2 * n by omega]
    exact hrun

/-- A peer that always leaves one byte of what it is sent. -/
theorem held_by_a_slow_peer :
    2 * maxWriteBacklogBytes <
      (run World.step (.start Cdp.defaultMaxMessageBytes)
        (drip 1 :: List.replicate (4 * 1024 * 1024) (drip 2))).transport.heldBytes := by
  have hfirst : Dripping (0 + 2) ((World.start Cdp.defaultMaxMessageBytes).step (drip 1)) :=
    drip_step (w := .start _) (by decide) rfl (show 0 + 2 = 1 + 1 from rfl) (by decide)
  rw [run_cons, (drip_run hfirst _).held]
  decide

end Kwe.Pipes
