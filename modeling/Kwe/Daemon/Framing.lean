import Kwe.Foundation.Json
import Kwe.Foundation.Lines
import Kwe.Foundation.Search

/-!
Request lines of the daemon: `read_request_line` and the size check of `handle_client`.

* `readRequestLine_take`: the limit on the reader never shows;
* `readFrom_eq_ok`: which bytes are collected, and when;
* `framed_iff`: when the bytes up to the first newline decide.

The JSON reader is a parameter.
-/

namespace Kwe.Daemon

open Foundation

def maxRequestBytes : Nat := 64 * 1024

def maxImportRequestBytes : Nat := 4 * 1024 * 1024 + 1024

/-- The bytes of `playlist.import`. -/
def importMarker : List UInt8 :=
  [112, 108, 97, 121, 108, 105, 115, 116, 46, 105, 109, 112, 111, 114, 116]

def importMethod : String := "playlist.import"

def newline : UInt8 := 10

/-- What a successful read fills of its chunk of 8192 bytes. -/
abbrev Chunk := { bytes : List UInt8 // 0 < bytes.length ∧ bytes.length ≤ 8192 }

inductive ReadResult
  | data (chunk : Chunk)
  | eof
  /-- `WouldBlock` or `TimedOut`. -/
  | wouldBlock
  | failed

inductive RequestError
  | deadlineExceeded
  | exceeded (bytes : Nat)
  | withoutNewline
  | io
  | invalidJson
  deriving DecidableEq, Repr

structure Request where
  version : Nat
  id : Json
  method : String
  params : Json

/-! ## Reading -/

/-- The loop of `read_request_line`.  The results are those before the deadline. -/
def readFrom (line : List UInt8) (sawImportMarker : Bool) :
    List ReadResult → Except RequestError (List UInt8)
  | [] => if newline ∈ line then .ok line else .error .deadlineExceeded
  | result :: results =>
    if newline ∈ line then .ok line
    else
      match result with
      | .eof => .error .withoutNewline
      | .data chunk =>
        let scanStart := line.length - (importMarker.length - 1)
        let line := line ++ chunk.1
        if maxImportRequestBytes < line.length then .error (.exceeded maxImportRequestBytes)
        else
          let sawImportMarker :=
            sawImportMarker || decide (importMarker <:+: line.drop scanStart)
          if maxRequestBytes < line.length ∧ sawImportMarker = false then
            .error (.exceeded maxRequestBytes)
          else readFrom line sawImportMarker results
      | .wouldBlock => readFrom line sawImportMarker results
      | .failed => .error .io

def readRequestLine (results : List ReadResult) : Except RequestError (List UInt8) :=
  readFrom [] false results

def Chunk.take (chunk : Chunk) (limit : Nat) (h : 0 < limit) : Chunk :=
  ⟨chunk.1.take limit, by
    have hchunk := chunk.2
    simp only [List.length_take]
    omega⟩

/-- A reader that ends after so many bytes. -/
def take : Nat → List ReadResult → List ReadResult
  | _, [] => []
  | 0, _ :: _ => [.eof]
  | limit + 1, .data chunk :: results =>
    .data (chunk.take (limit + 1) limit.succ_pos) ::
      take (limit + 1 - chunk.1.length) results
  | limit + 1, result :: results => result :: take (limit + 1) results

/-- `handle_client` up to the request it handles; `from_slice` reads JSON. -/
def handleClient (fromSlice : List UInt8 → Option Request) (results : List ReadResult) :
    Except RequestError Request := do
  let line ← readRequestLine (take (maxImportRequestBytes + 1) results)
  match fromSlice line with
  | none => .error .invalidJson
  | some request =>
    if maxRequestBytes < line.length ∧ request.method ≠ importMethod then
      .error (.exceeded maxRequestBytes)
    else .ok request

/-! ## The limit on the reader -/

theorem readFrom_newline {line : List UInt8} (h : newline ∈ line) (saw : Bool)
    (results : List ReadResult) : readFrom line saw results = .ok line := by
  cases results with
  | nil => rw [readFrom, if_pos h]
  | cons result results => cases result <;> rw [readFrom, if_pos h]

theorem readFrom_data {line : List UInt8} (h : newline ∉ line) (saw : Bool) (chunk : Chunk)
    (results : List ReadResult) :
    readFrom line saw (.data chunk :: results) =
      if maxImportRequestBytes < (line ++ chunk.1).length then
        .error (.exceeded maxImportRequestBytes)
      else
        if maxRequestBytes < (line ++ chunk.1).length ∧
            (saw || decide (importMarker <:+:
              (line ++ chunk.1).drop (line.length - (importMarker.length - 1)))) = false then
          .error (.exceeded maxRequestBytes)
        else
          readFrom (line ++ chunk.1)
            (saw || decide (importMarker <:+:
              (line ++ chunk.1).drop (line.length - (importMarker.length - 1)))) results := by
  rw [readFrom, if_neg h]

theorem readFrom_take {line : List UInt8} (hline : line.length ≤ maxImportRequestBytes)
    (saw : Bool) (results : List ReadResult) :
    readFrom line saw (take (maxImportRequestBytes + 1 - line.length) results) =
      readFrom line saw results := by
  induction results generalizing line saw with
  | nil => simp [take]
  | cons result results ih =>
    by_cases hnewline : newline ∈ line
    · rw [readFrom_newline hnewline, readFrom_newline hnewline]
    obtain ⟨limit, hlimit⟩ : ∃ limit, maxImportRequestBytes + 1 - line.length = limit + 1 :=
      ⟨maxImportRequestBytes - line.length, by omega⟩
    rw [hlimit]
    cases result with
    | eof => simp [take, readFrom]
    | failed => simp [take, readFrom]
    | wouldBlock =>
      simp only [take, readFrom, if_neg hnewline]
      rw [← hlimit]
      exact ih hline saw
    | data chunk =>
      rw [take, readFrom_data hnewline, readFrom_data hnewline]
      by_cases hchunk : chunk.1.length ≤ limit + 1
      · have htake : chunk.take (limit + 1) limit.succ_pos = chunk :=
          Subtype.ext (List.take_of_length_le hchunk)
        rw [htake]
        split
        · rfl
        · rename_i hle
          rw [Nat.not_lt] at hle
          have hrest : limit + 1 - chunk.1.length =
              maxImportRequestBytes + 1 - (line ++ chunk.1).length := by
            rw [List.length_append]
            omega
          rw [hrest, ih hle]
      · -- what is cut off comes after the byte that is one too many
        have hcut : maxImportRequestBytes <
            (line ++ (chunk.take (limit + 1) limit.succ_pos).1).length := by
          rw [List.length_append, Chunk.take, List.length_take]
          omega
        have hwhole : maxImportRequestBytes < (line ++ chunk.1).length := by
          rw [List.length_append]
          omega
        rw [if_pos hcut, if_pos hwhole]

theorem readRequestLine_take (results : List ReadResult) :
    readRequestLine (take (maxImportRequestBytes + 1) results) = readRequestLine results :=
  readFrom_take (Nat.zero_le _) false results

/-! ## Deliveries -/

/-- The reads that deliver a stream, some of which find nothing yet. -/
abbrev Delivery := List (Option Chunk)

namespace Delivery

def reads : Delivery → List ReadResult
  | [] => [.eof]
  | none :: d => .wouldBlock :: reads d
  | some chunk :: d => .data chunk :: reads d

/-- What the client sends. -/
def stream : Delivery → List UInt8
  | [] => []
  | none :: d => stream d
  | some chunk :: d => chunk.1 ++ stream d

/-- The bytes buffered when the first newline is there. -/
def buffered (line : List UInt8) : Delivery → List UInt8
  | [] => line
  | none :: d => buffered line d
  | some chunk :: d =>
    if newline ∈ chunk.1 then line ++ chunk.1 else buffered (line ++ chunk.1) d

/-- Until the first newline is there, what is buffered has the marker once it is longer
than other requests may be. -/
def MarkedInTime (line : List UInt8) : Delivery → Prop
  | [] => True
  | none :: d => MarkedInTime line d
  | some chunk :: d =>
    (maxRequestBytes < (line ++ chunk.1).length → importMarker <:+: line ++ chunk.1) ∧
      (newline ∉ chunk.1 → MarkedInTime (line ++ chunk.1) d)

theorem prefix_buffered (line : List UInt8) (d : Delivery) : line <+: buffered line d := by
  induction d generalizing line with
  | nil => exact ⟨[], List.append_nil line⟩
  | cons result d ih =>
    cases result with
    | none => exact ih line
    | some chunk =>
      rw [buffered]
      split
      · exact List.prefix_append _ _
      · exact (List.prefix_append _ _).trans (ih _)

theorem buffered_isPrefix (line : List UInt8) (d : Delivery) :
    buffered line d <+: line ++ d.stream := by
  induction d generalizing line with
  | nil => exact List.prefix_append _ _
  | cons result d ih =>
    cases result with
    | none => exact ih line
    | some chunk =>
      rw [buffered, stream, ← List.append_assoc]
      split
      · exact List.prefix_append _ _
      · exact ih _

/-- A newline that is sent is buffered. -/
theorem newline_mem_buffered {line : List UInt8} {d : Delivery}
    (h : newline ∈ line ++ d.stream) : newline ∈ buffered line d := by
  induction d generalizing line with
  | nil => simpa [stream, buffered] using h
  | cons result d ih =>
    cases result with
    | none => exact ih h
    | some chunk =>
      rw [stream, ← List.append_assoc] at h
      rw [buffered]
      split
      next hchunk => exact List.mem_append_right _ hchunk
      next => exact ih h

end Delivery

open Delivery

/-- **Collecting.**  What is collected: the bytes buffered with the first newline, if they
are not too many and the marker was there in time. -/
theorem readFrom_eq_ok {line : List UInt8} {saw : Bool} (hline : newline ∉ line)
    (hsaw : saw = decide (importMarker <:+: line)) (d : Delivery) (bytes : List UInt8) :
    readFrom line saw d.reads = .ok bytes ↔
      bytes = d.buffered line ∧ newline ∈ bytes ∧ bytes.length ≤ maxImportRequestBytes ∧
        d.MarkedInTime line := by
  induction d generalizing line saw with
  | nil =>
    simp only [reads, readFrom, if_neg hline, reduceCtorEq, false_iff]
    rintro ⟨rfl, hbytes, -⟩
    exact hline hbytes
  | cons result d ih =>
    cases result with
    | none =>
      simp only [reads, readFrom, if_neg hline]
      exact ih hline hsaw
    | some chunk =>
      rw [reads, readFrom_data hline, buffered, MarkedInTime]
      have hoverlap : importMarker <:+: line ++ chunk.1 ↔ _ :=
        Search.infix_append_overlap line chunk.1
      have hscan : (saw || decide (importMarker <:+:
          (line ++ chunk.1).drop (line.length - (importMarker.length - 1)))) =
            decide (importMarker <:+: line ++ chunk.1) := by
        simp only [hsaw, hoverlap, Bool.decide_or]
      simp only [hscan, decide_eq_false_iff_not]
      have hprefix : ∀ bytes, bytes = (if newline ∈ chunk.1 then line ++ chunk.1
          else buffered (line ++ chunk.1) d) → (line ++ chunk.1).length ≤ bytes.length := by
        rintro bytes rfl
        split
        · exact Nat.le_refl _
        · exact (prefix_buffered _ d).length_le
      split
      next hlong =>
        simp only [reduceCtorEq, false_iff]
        rintro ⟨hbytes, -, hle, -⟩
        have hlength := hprefix bytes hbytes
        omega
      split
      next hunmarked =>
        simp only [reduceCtorEq, false_iff]
        rintro ⟨-, -, -, hmarked, -⟩
        exact hunmarked.2 (hmarked hunmarked.1)
      next hlong hmarked =>
        have hmarked' : maxRequestBytes < (line ++ chunk.1).length →
            importMarker <:+: line ++ chunk.1 :=
          fun hlt => Classical.not_not.mp fun h => hmarked ⟨hlt, h⟩
        by_cases hchunk : newline ∈ chunk.1
        · have hnewline : newline ∈ line ++ chunk.1 := List.mem_append_right _ hchunk
          rw [readFrom_newline hnewline, if_pos hchunk, Except.ok.injEq]
          constructor
          · rintro rfl
            exact ⟨rfl, hnewline, Nat.not_lt.mp hlong, hmarked', fun h => absurd hchunk h⟩
          · exact fun h => h.1.symm
        · have hnewline : newline ∉ line ++ chunk.1 := by
            rw [List.mem_append, not_or]
            exact ⟨hline, hchunk⟩
          rw [if_neg hchunk, ih hnewline rfl]
          simp only [and_iff_right hmarked', hchunk, not_false_eq_true, true_imp_iff]

theorem readRequestLine_eq_ok (d : Delivery) (bytes : List UInt8) :
    readRequestLine d.reads = .ok bytes ↔
      bytes = d.buffered [] ∧ newline ∈ bytes ∧ bytes.length ≤ maxImportRequestBytes ∧
        d.MarkedInTime [] :=
  readFrom_eq_ok List.not_mem_nil (by decide) d bytes

/-! ## Requests -/

/-- A request may have so many bytes. -/
def Request.Allowed (request : Request) (bytes : Nat) : Prop :=
  bytes ≤ maxImportRequestBytes ∧ (maxRequestBytes < bytes → request.method = importMethod)

section

variable (fromSlice : List UInt8 → Option Request)

/-- The request is accepted. -/
def Accepted (d : Delivery) : Prop := ∃ request, handleClient fromSlice d.reads = .ok request

/-- The bytes up to the first newline are a request and may be so many. -/
def Acceptable (stream : List UInt8) : Prop :=
  newline ∈ stream ∧ ∃ request, fromSlice (Lines.through newline stream) = some request ∧
    request.Allowed (Lines.through newline stream).length

/-- The bytes up to the first newline decide. -/
def Framed (d : Delivery) : Prop := Accepted fromSlice d ↔ Acceptable fromSlice d.stream

variable {fromSlice}

theorem handleClient_eq_ok (d : Delivery) (request : Request) :
    handleClient fromSlice d.reads = .ok request ↔
      newline ∈ d.buffered [] ∧ fromSlice (d.buffered []) = some request ∧
        request.Allowed (d.buffered []).length ∧ d.MarkedInTime [] := by
  rw [handleClient, readRequestLine_take]
  cases hread : readRequestLine d.reads with
  | error e =>
    have hnone : ¬ readRequestLine d.reads = .ok (d.buffered []) := by simp [hread]
    rw [readRequestLine_eq_ok] at hnone
    simp only [bind, Except.bind, reduceCtorEq, false_iff]
    rintro ⟨hnewline, -, hallowed, hmarked⟩
    exact hnone ⟨rfl, hnewline, hallowed.1, hmarked⟩
  | ok bytes =>
    obtain ⟨rfl, hnewline, hle, hmarked⟩ := (readRequestLine_eq_ok d bytes).mp hread
    simp only [bind, Except.bind]
    cases hjson : fromSlice (d.buffered []) with
    | none => simp
    | some request' =>
      simp only [hnewline, hmarked, and_true, true_and, Option.some.injEq]
      constructor
      · intro h
        split at h
        · exact nomatch h
        · rename_i hmethod
          obtain rfl := Except.ok.inj h
          exact ⟨rfl, hle, fun hlt => Classical.not_not.mp fun hne => hmethod ⟨hlt, hne⟩⟩
      · rintro ⟨rfl, -, hmethod⟩
        rw [if_neg fun h => h.2 (hmethod h.1)]

theorem Request.Allowed.mono {request : Request} {m n : Nat} (h : request.Allowed n)
    (hle : m ≤ n) : request.Allowed m :=
  ⟨hle.trans h.1, fun hlt => h.2 (hlt.trans_le hle)⟩

namespace Delivery

/-- The bytes through the first newline that is sent. -/
def line (d : Delivery) : List UInt8 := Lines.through newline d.stream

/-- The bytes that are read along with the first newline. -/
def along (d : Delivery) : List UInt8 := Lines.past newline (d.buffered [])

theorem buffered_eq {d : Delivery} (h : newline ∈ d.stream) :
    d.buffered [] = d.line ++ d.along := by
  obtain ⟨more, hmore⟩ : d.buffered [] <+: d.stream := buffered_isPrefix [] d
  have hbuffered : newline ∈ d.buffered [] := newline_mem_buffered h
  rw [line, ← hmore, Lines.through_append hbuffered, along, Lines.through_append_past]

theorem newline_mem_stream {d : Delivery} (h : newline ∈ d.buffered []) : newline ∈ d.stream :=
  (buffered_isPrefix [] d).subset h

end Delivery

/-- The white space of JSON. -/
def isSpace (b : UInt8) : Bool := b = 32 || b = 9 || b = 10 || b = 13

/-- Only white space may follow a JSON text. -/
def Trailing (fromSlice : List UInt8 → Option Request) : Prop :=
  ∀ text more request, fromSlice text = some request →
    fromSlice (text ++ more) = if more.all isSpace then some request else none

variable (fromSlice) in
/-- When the bytes up to the first newline decide. -/
structure FramedWhen (d : Delivery) : Prop where
  /-- With a request that may be so many bytes only white space is read, and not too much
  of it, and the marker is there in time. -/
  request : ∀ request, fromSlice d.line = some request → request.Allowed d.line.length →
    d.along.all isSpace = true ∧ request.Allowed (d.line ++ d.along).length ∧ d.MarkedInTime []
  /-- What is read with a line that is no request does not complete it. -/
  noRequest : fromSlice d.line = none → ∀ request,
    fromSlice (d.line ++ d.along) = some request →
      request.Allowed (d.line ++ d.along).length → ¬ d.MarkedInTime []

theorem accepted_iff {d : Delivery} (h : newline ∈ d.stream) :
    Accepted fromSlice d ↔ ∃ request, fromSlice (d.line ++ d.along) = some request ∧
      request.Allowed (d.line ++ d.along).length ∧ d.MarkedInTime [] := by
  have hbuffered : newline ∈ d.buffered [] := newline_mem_buffered h
  rw [buffered_eq h] at hbuffered
  simp only [Accepted, handleClient_eq_ok, buffered_eq h, hbuffered, true_and]

theorem framed_of_no_newline {d : Delivery} (h : newline ∉ d.stream) : Framed fromSlice d := by
  constructor
  · rintro ⟨request, hrequest⟩
    exact absurd (newline_mem_stream ((handleClient_eq_ok d request).mp hrequest).1) h
  · exact fun haccept => absurd haccept.1 h

/-- **Framing.**  The bytes up to the first newline decide just when what is read with
them changes nothing and the marker is there in time. -/
theorem framed_iff (htrailing : Trailing fromSlice) (d : Delivery) :
    Framed fromSlice d ↔ (newline ∈ d.stream → FramedWhen fromSlice d) := by
  by_cases h : newline ∈ d.stream
  swap
  · exact ⟨fun _ hnewline => absurd hnewline h, fun _ => framed_of_no_newline h⟩
  simp only [h, true_imp_iff]
  rw [Framed, accepted_iff h]
  cases hline : fromSlice d.line with
  | none =>
    have hnot : ¬ Acceptable fromSlice d.stream := by
      rintro ⟨-, request, hrequest, -⟩
      exact nomatch hline.symm.trans hrequest
    rw [iff_false_intro hnot, iff_false]
    constructor
    · intro hnone
      exact ⟨fun _ hrequest => absurd (hline.symm.trans hrequest) nofun,
        fun _ request hrequest hallowed hmarked => hnone ⟨request, hrequest, hallowed, hmarked⟩⟩
    · rintro hwhen ⟨request, hrequest, hallowed, hmarked⟩
      exact hwhen.noRequest hline request hrequest hallowed hmarked
  | some request =>
    have hiff : Acceptable fromSlice d.stream ↔ request.Allowed d.line.length := by
      constructor
      · rintro ⟨-, request', hrequest, hallowed⟩
        obtain rfl := Option.some.inj (hline.symm.trans hrequest)
        exact hallowed
      · exact fun hallowed => ⟨h, request, hline, hallowed⟩
    rw [hiff, htrailing _ _ _ hline]
    constructor
    · intro hframed
      refine ⟨fun request' hrequest hallowed => ?_, fun hnone => absurd (hline.symm.trans hnone) nofun⟩
      obtain rfl := Option.some.inj (hline.symm.trans hrequest)
      obtain ⟨request', hread, hmore, hmarked⟩ := hframed.mpr hallowed
      split at hread
      · rename_i hblank
        obtain rfl := Option.some.inj hread
        exact ⟨hblank, hmore, hmarked⟩
      · exact nomatch hread
    · intro hwhen
      constructor
      · rintro ⟨request', hread, hmore, -⟩
        split at hread
        · obtain rfl := Option.some.inj hread
          exact hmore.mono (by simp)
        · exact nomatch hread
      · intro hallowed
        obtain ⟨hblank, hmore, hmarked⟩ := hwhen.request request hline hallowed
        exact ⟨request, if_pos hblank, hmore, hmarked⟩

end

/-! ## An import whose parameters come first -/

/-- A reader that knows the text of one request. -/
def readsOnly (text : List UInt8) (request : Request) (bytes : List UInt8) : Option Request :=
  if bytes.rdropWhile isSpace = text then some request else none

theorem rdropWhile_append (s t : List UInt8) :
    (s ++ t).rdropWhile isSpace =
      if t.all isSpace then s.rdropWhile isSpace else s ++ t.rdropWhile isSpace := by
  induction t using List.reverseRecOn with
  | nil => simp
  | append_singleton t b ih =>
    rw [← List.append_assoc, List.rdropWhile_concat, List.rdropWhile_concat, ih]
    by_cases hb : isSpace b = true <;> simp [hb]

theorem readsOnly_trailing (text : List UInt8) (request : Request) :
    Trailing (readsOnly text request) := by
  intro bytes more request' h
  rw [readsOnly] at h ⊢
  split at h
  · obtain rfl := Option.some.inj h
    rename_i hbytes
    rw [rdropWhile_append]
    by_cases hmore : more.all isSpace = true
    · simp [hmore, hbytes]
    · -- the text would be longer than itself
      have hle : text.length ≤ bytes.length := hbytes ▸ (List.rdropWhile_prefix isSpace bytes).length_le
      have hne : more.rdropWhile isSpace ≠ [] := fun hnil =>
        hmore (List.all_eq_true.mpr (List.rdropWhile_eq_nil_iff.mp hnil))
      have hpos := List.length_pos_iff.mpr hne
      rw [if_neg hmore, if_neg hmore, if_neg]
      intro heq
      have hlength := congrArg List.length heq
      rw [List.length_append] at hlength
      omega
  · exact nomatch h

/-- A beginning that is longer than other requests may be has the marker. -/
theorem MarkedInTime.marked {line : List UInt8} {d₁ d₂ : Delivery}
    (h : MarkedInTime line (d₁ ++ d₂)) (hnewline : newline ∉ d₁.stream)
    (hline : maxRequestBytes < line.length → importMarker <:+: line) :
    maxRequestBytes < (line ++ d₁.stream).length → importMarker <:+: line ++ d₁.stream := by
  induction d₁ generalizing line with
  | nil => simpa [stream] using hline
  | cons result d₁ ih =>
    cases result with
    | none => exact ih h hnewline hline
    | some chunk =>
      rw [stream, List.mem_append, not_or] at hnewline
      obtain ⟨hmarked, hrest⟩ := h
      rw [stream, ← List.append_assoc]
      exact ih (hrest hnewline.1) hnewline.2 hmarked

def letters (count : Nat) : List UInt8 := List.replicate count 97

@[simp] theorem length_letters (count : Nat) : (letters count).length = count :=
  List.length_replicate

theorem eq_of_mem_letters {b : UInt8} {count : Nat} (h : b ∈ letters count) : b = 97 :=
  List.eq_of_mem_replicate h

def lettersChunk : Chunk := ⟨letters 8192, by simp⟩

theorem stream_letters (count : Nat) (d : Delivery) :
    Delivery.stream (List.replicate count (some lettersChunk) ++ d) =
      letters (count * 8192) ++ d.stream := by
  induction count with
  | zero => rw [Nat.zero_mul]; rfl
  | succ count ih =>
    have hadd : letters 8192 ++ letters (count * 8192) = letters ((count + 1) * 8192) := by
      rw [letters, letters, letters, ← List.replicate_add, Nat.succ_mul, Nat.add_comm]
    rw [List.replicate_succ, List.cons_append, stream, ih, ← List.append_assoc, lettersChunk, hadd]

/-- `\x7b"params":"`. -/
def paramsFirst : Chunk := ⟨[123, 34, 112, 97, 114, 97, 109, 115, 34, 58, 34], by decide⟩

/-- `","method":"playlist.import","version":1\x7d`. -/
def methodLast : List UInt8 :=
  [34, 44, 34, 109, 101, 116, 104, 111, 100, 34, 58, 34] ++ importMarker ++
    [34, 44, 34, 118, 101, 114, 115, 105, 111, 110, 34, 58, 49, 125]

def importRequest : Request :=
  ⟨1, .null, importMethod, .string (String.ofList (List.replicate 73728 'a'))⟩

def importText : List UInt8 := paramsFirst.1 ++ letters 73728 ++ methodLast

def importStart : Delivery := some paramsFirst :: List.replicate 9 (some lettersChunk)

/-- The request in reads of 8192 bytes but for its ends. -/
def importDelivery : Delivery := importStart ++ [some ⟨methodLast ++ [newline], by decide⟩]

theorem importStart_stream (d : Delivery) :
    Delivery.stream (importStart ++ d) = paramsFirst.1 ++ letters 73728 ++ d.stream := by
  rw [importStart, List.cons_append, stream, stream_letters, List.append_assoc]

theorem importDelivery_stream : importDelivery.stream = importText ++ [newline] := by
  rw [importDelivery, importStart_stream, importText, stream, stream, List.append_nil,
    List.append_assoc _ methodLast]

theorem newline_not_mem_importText : newline ∉ importText := by
  intro h
  simp only [importText, List.mem_append] at h
  rcases h with (h | h) | h
  · exact absurd h (by decide)
  · exact absurd (eq_of_mem_letters h) (by decide)
  · exact absurd h (by decide)

theorem importDelivery_line : importDelivery.line = importText ++ [newline] := by
  rw [line, importDelivery_stream, Lines.through_concat newline_not_mem_importText]

theorem importText_read :
    readsOnly importText importRequest (importText ++ [newline]) = some importRequest := by
  have hlast : ∀ s : List UInt8, (s ++ methodLast).rdropWhile isSpace = s ++ methodLast := by
    intro s
    rw [rdropWhile_append, if_neg (by decide), show methodLast.rdropWhile isSpace = methodLast from rfl]
  have htext : (importText ++ [newline]).rdropWhile isSpace = importText := by
    rw [List.rdropWhile_concat_pos _ _ _ (by decide), importText, hlast]
  rw [readsOnly, if_pos htext]

theorem framed_iff_import :
    Framed (readsOnly importText importRequest) importDelivery ↔
      (newline ∈ importDelivery.stream →
        FramedWhen (readsOnly importText importRequest) importDelivery) :=
  framed_iff (readsOnly_trailing importText importRequest) importDelivery

/-- An import that fits is refused, since its method comes late. -/
theorem import_refused : ¬ Framed (readsOnly importText importRequest) importDelivery := by
  have hlength : (importText ++ [newline]).length = 73781 := by
    rw [importText, List.length_append, List.length_append, List.length_append, length_letters]
    rfl
  have hmem : newline ∈ importDelivery.stream := by simp [importDelivery_stream]
  have hacceptable : Acceptable (readsOnly importText importRequest) importDelivery.stream := by
    refine ⟨hmem, importRequest, ?_, ?_⟩
    · rw [← line, importDelivery_line, importText_read]
    · rw [← line, importDelivery_line, hlength]
      exact ⟨by decide, fun _ => rfl⟩
  intro hframed
  obtain ⟨request, -, -, hmarked⟩ := (accepted_iff hmem).mp (hframed.mpr hacceptable)
  have hbegin : importStart.stream = paramsFirst.1 ++ letters 73728 := by
    have hstream := importStart_stream []
    rwa [List.append_nil, stream, List.append_nil] at hstream
  have hnewline : newline ∉ importStart.stream := by
    rw [hbegin, List.mem_append, not_or]
    exact ⟨by decide, fun h => absurd (eq_of_mem_letters h) (by decide)⟩
  have hmarker := MarkedInTime.marked hmarked hnewline nofun
  rw [List.nil_append, hbegin, List.length_append, length_letters] at hmarker
  -- no `l` has been read yet
  have hl : (108 : UInt8) ∈ paramsFirst.1 ++ letters 73728 :=
    (hmarker (by decide)).subset (by decide)
  rcases List.mem_append.mp hl with h | h
  · exact absurd h (by decide)
  · exact absurd (eq_of_mem_letters h) (by decide)

end Kwe.Daemon
