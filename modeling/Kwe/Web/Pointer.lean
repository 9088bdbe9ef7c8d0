import Kwe.Foundation.Checks
import Kwe.Foundation.Lines
import Kwe.Foundation.Runs
import Kwe.Input.Control

/-!
Pointer input of the web worker: the lines of its control stream, the slot of the newest
pointer message, and its dispatch to the page.

* `Inv.step`: what every step keeps of the slot and of what was dispatched;
* `accepted_of_stream`: valid lines are all accepted, however the stream is cut;
* `pointer_dispatched`: which messages the page is sent, and the buttons that are held.

The audio that is taken with the pointer is not followed to the page; the positions of
events are kept as fractions of the viewport.
-/

namespace Kwe.Web.Pointer

open Foundation Foundation.Runs Kwe.Input

/-- `MAX_INPUT_MESSAGE_BYTES`. -/
def maxInputMessageBytes : Nat := 4096

/-- `accepted` are the pointer messages that were put into the slot so far. -/
structure InputChannel (F32 : Type) where
  pending : List UInt8
  written : List (List UInt8)
  pointer : Option PointerMessage
  audio : Option (AudioFrame F32)
  accepted : List PointerMessage

/-- What becomes of a request to the page. -/
inductive Outcome
  | answered
  | protocolError
  | timedOut
  /-- It cannot be sent. -/
  | refused
  deriving DecidableEq, Repr

inductive Position
  /-- Outside the viewport. -/
  | outside
  | scaled (x y : UInt16) (viewport : Nat × Nat)
  deriving DecidableEq, Repr

/-- The parameters of `Input.dispatchMouseEvent`. -/
structure MouseEvent where
  type : String
  position : Position
  buttons : UInt8
  clickCount : Option Nat
  button : Option String
  deriving DecidableEq, Repr

/-- What the dispatch uses of the browser's session; `page` are the events sent to it. -/
structure BrowserSession where
  viewport : Nat × Nat
  heldButtons : UInt8
  page : List MouseEvent
  deriving DecidableEq, Repr

/-- `dispatched` are the pointer messages taken so far, with what became of them. -/
structure Worker (F32 : Type) where
  input : InputChannel F32
  browser : BrowserSession
  inputErrors : Nat
  dispatched : List (PointerMessage × Outcome)

/-! ## The control stream -/

namespace InputChannel

variable {F32 F64 : Type}

def new : InputChannel F32 := ⟨[], [], none, none, []⟩

/-- The acknowledgement of a value's sequence. -/
def ackOf (value : Json) : Option (List UInt8) :=
  let sequence := (Json.field value "sequence").bind asU64
  (sequence.filter (· ≠ 0)).bind fun sequence =>
    ((InputAck.new sequence).bind encodeAckLine).toOption

def ack (c : InputChannel F32) (line : Option (List UInt8)) : InputChannel F32 :=
  { c with written := c.written ++ line.toList }

/-- A pointer message replaces one that waits. -/
def accept (c : InputChannel F32) (message : PointerMessage) : InputChannel F32 :=
  { c with pointer := some message, accepted := c.accepted ++ [message] }

/-- `dispatch`; what is not a valid message is ignored. -/
def dispatch (serde : Serde F32 F64) (c : InputChannel F32) (line : List UInt8) :
    InputChannel F32 :=
  if (Utf8.decode line).isNone then c
  else
    match serde.fromSlice line with
    | none => c
    | some value =>
      match (Json.field value "type").bind Json.asStr with
      | some "pointer_position" =>
        match decodePointerLine serde line with
        | .ok message => (c.ack (ackOf value)).accept message
        | .error _ => c
      | some "media_state" =>
        match decodeMediaState serde line with
        | .ok _ => c.ack (ackOf value)
        | .error _ => c
      | some "audio_bands" =>
        match decodeAudioFrame serde line with
        | .ok frame => { c.ack (ackOf value) with audio := some frame }
        | .error _ => c
      | _ => c

/-- One read: its complete lines are dispatched, and a rest that is too long is dropped. -/
def read (serde : Serde F32 F64) (c : InputChannel F32) (chunk : List UInt8) : InputChannel F32 :=
  let pending := c.pending ++ chunk
  let c := (Lines.lines newline [] pending).foldl (dispatch serde)
    { c with pending := Lines.rest newline [] pending }
  if maxInputMessageBytes < c.pending.length then { c with pending := [] } else c

/-- The reads that are ready, at most `MAX_INPUT_READS_PER_POLL`. -/
def poll (serde : Serde F32 F64) (c : InputChannel F32) (reads : List (List UInt8)) :
    InputChannel F32 :=
  reads.foldl (read serde) c

end InputChannel

/-! ## The dispatch -/

def cdpButtonName : PointerButton → String
  | .primary => "left"
  | .secondary => "right"
  | .middle => "middle"

def cdpButtonBit : PointerButton → UInt8
  | .primary => 1
  | .secondary => 2
  | .middle => 4

namespace BrowserSession

def hasViewport (b : BrowserSession) : Bool := b.viewport ≠ (0, 0)

/-- The request is sent, unless it is refused. -/
def send (b : BrowserSession) (event : MouseEvent) (outcome : Outcome) : BrowserSession :=
  if outcome = .refused then b else { b with page := b.page ++ [event] }

def position (b : BrowserSession) (message : PointerMessage) : Position :=
  .scaled message.x message.y b.viewport

/-- `dispatch_pointer`: a leave releases the buttons once it is answered, a button is
pressed or released before the request.  Whether the request failed is told as well. -/
def dispatchPointer (b : BrowserSession) (message : PointerMessage) (outcome : Outcome) :
    BrowserSession × Bool :=
  match message.phase with
  | .enter | .move =>
    (b.send ⟨"mouseMoved", b.position message, b.heldButtons, some 0, none⟩ outcome,
      outcome ≠ .answered)
  | .leave =>
    let sent := b.send ⟨"mouseMoved", .outside, b.heldButtons, none, none⟩ outcome
    if outcome = .answered then ({ sent with heldButtons := 0 }, false) else (sent, true)
  | .down =>
    match message.button with
    | none => (b, false)
    | some button =>
      let b := { b with heldButtons := b.heldButtons ||| cdpButtonBit button }
      (b.send ⟨"mousePressed", b.position message, b.heldButtons, some 1,
        some (cdpButtonName button)⟩ outcome, outcome ≠ .answered)
  | .up =>
    match message.button with
    | none => (b, false)
    | some button =>
      let b := { b with heldButtons := b.heldButtons &&& ~~~ cdpButtonBit button }
      (b.send ⟨"mouseReleased", b.position message, b.heldButtons, some 1,
        some (cdpButtonName button)⟩ outcome, outcome ≠ .answered)

end BrowserSession

inductive Step
  | poll (reads : List (List UInt8))
  /-- A frame tells the viewport. -/
  | frame (viewport : Nat × Nat)
  /-- `dispatch_input`, with what becomes of a request. -/
  | tick (outcome : Outcome)
  deriving DecidableEq, Repr

namespace Worker

variable {F32 F64 : Type}

def new : Worker F32 := ⟨.new, ⟨(0, 0), 0, []⟩, 0, []⟩

def saturatingSucc64 (n : Nat) : Nat := min (n + 1) (2 ^ 64 - 1)

/-- The pointer message waits for the first viewport. -/
def dispatchPointer (w : Worker F32) (outcome : Outcome) : Worker F32 :=
  if w.browser.hasViewport then
    match w.input.pointer with
    | none => w
    | some message =>
      let (browser, failed) := w.browser.dispatchPointer message outcome
      { w with
        input.pointer := none
        browser := browser
        inputErrors := if failed then saturatingSucc64 w.inputErrors else w.inputErrors
        dispatched := w.dispatched ++ [(message, outcome)] }
  else w

def dispatchInput (w : Worker F32) (outcome : Outcome) : Worker F32 :=
  { w.dispatchPointer outcome with input.audio := none }

def step (serde : Serde F32 F64) (w : Worker F32) : Step → Worker F32
  | .poll reads => { w with input := w.input.poll serde reads }
  | .frame viewport => { w with browser.viewport := viewport }
  | .tick outcome => w.dispatchInput outcome

end Worker

/-! ## The newest messages -/

/-- The messages dispatched, and the one that waits, are the newest of each of the groups that
the accepted messages come in. -/
def Newest (accepted dispatched : List PointerMessage) (waiting : Option PointerMessage) : Prop :=
  ∃ (groups : List (List PointerMessage)) (tail : List PointerMessage),
    accepted = groups.flatten ++ tail ∧ groups.map List.getLast? = dispatched.map some ∧
      tail.getLast? = waiting

namespace Newest

variable {accepted dispatched : List PointerMessage} {waiting : Option PointerMessage}

theorem start : Newest [] [] none := ⟨[], [], rfl, rfl, rfl⟩

theorem accept (h : Newest accepted dispatched waiting) (message : PointerMessage) :
    Newest (accepted ++ [message]) dispatched (some message) := by
  obtain ⟨groups, tail, rfl, hgroups, rfl⟩ := h
  exact ⟨groups, tail ++ [message], List.append_assoc _ _ _, hgroups, by simp⟩

theorem take {message : PointerMessage} (h : Newest accepted dispatched (some message)) :
    Newest accepted (dispatched ++ [message]) none := by
  obtain ⟨groups, tail, rfl, hgroups, htail⟩ := h
  exact ⟨groups ++ [tail], [], by simp, by simp [hgroups, htail], rfl⟩

/-- Every message dispatched is one that was accepted, in the same order. -/
theorem sublist (h : Newest accepted dispatched waiting) : dispatched.Sublist accepted := by
  obtain ⟨groups, tail, rfl, hgroups, -⟩ := h
  refine List.Sublist.trans ?_ (List.sublist_append_left _ _)
  induction groups generalizing dispatched with
  | nil =>
    cases dispatched with
    | nil => exact List.Sublist.refl _
    | cons message dispatched => simp at hgroups
  | cons group groups ih =>
    cases dispatched with
    | nil => simp at hgroups
    | cons message dispatched =>
      simp only [List.map_cons, List.cons.injEq] at hgroups
      obtain ⟨pre, rfl⟩ := List.getLast?_eq_some_iff.mp hgroups.1
      rw [List.flatten_cons, List.append_assoc, List.singleton_append]
      exact (ih hgroups.2).cons_cons message |>.trans (List.sublist_append_right _ _)

/-- When nothing waits, the last message accepted is the last one dispatched. -/
theorem last (h : Newest accepted dispatched none) :
    dispatched.getLast? = accepted.getLast? := by
  obtain ⟨groups, tail, rfl, hgroups, htail⟩ := h
  obtain rfl : tail = [] := by simpa using htail
  rw [List.append_nil]
  induction groups using List.reverseRecOn with
  | nil =>
    cases dispatched with
    | nil => rfl
    | cons message dispatched => simp at hgroups
  | append_singleton groups group _ =>
    cases dispatched using List.reverseRecOn with
    | nil => simp at hgroups
    | append_singleton dispatched message _ =>
      simp only [List.map_append, List.map_cons, List.map_nil] at hgroups
      obtain ⟨-, hlast⟩ := List.append_inj' hgroups rfl
      have hgroup : group.getLast? = some message := by simpa using hlast
      obtain ⟨pre, rfl⟩ := List.getLast?_eq_some_iff.mp hgroup
      simp

end Newest

/-! ## The buttons that are held -/

/-- The messages since the last leave, the newest first. -/
def sinceLeave (messages : List PointerMessage) : List PointerMessage :=
  messages.reverse.takeWhile (·.phase ≠ .leave)

/-- The last press or release of the button, since the last leave, is a press. -/
def holds (messages : List PointerMessage) (button : PointerButton) : Bool :=
  ((sinceLeave messages).find? fun m => m.phase.isButton ∧ m.button = some button).any
    (·.phase = .down)

/-- The bits of a set of buttons. -/
def mask (held : PointerButton → Bool) : UInt8 :=
  (if held .primary then 1 else 0) ||| (if held .secondary then 2 else 0) |||
    (if held .middle then 4 else 0)

theorem holds_concat (messages : List PointerMessage) (message : PointerMessage) :
    holds (messages ++ [message]) = Control.press (holds messages) message := by
  funext button
  unfold holds sinceLeave Control.press
  rw [List.reverse_append, List.reverse_singleton, List.singleton_append]
  cases hphase : message.phase with
  | leave => simp [hphase]
  | enter => simp [hphase, PointerPhase.isButton]
  | move => simp [hphase, PointerPhase.isButton]
  | down =>
    cases hbutton : message.button with
    | none => simp [hphase, hbutton, PointerPhase.isButton]
    | some pressed =>
      by_cases heq : pressed = button
      · simp [hphase, hbutton, PointerPhase.isButton, heq]
      · simp [hphase, hbutton, PointerPhase.isButton, heq, Ne.symm heq]
  | up =>
    cases hbutton : message.button with
    | none => simp [hphase, hbutton, PointerPhase.isButton]
    | some released =>
      by_cases heq : released = button
      · simp [hphase, hbutton, PointerPhase.isButton, heq]
      · simp [hphase, hbutton, PointerPhase.isButton, heq, Ne.symm heq]

theorem mask_none : mask (fun _ => false) = 0 := rfl

theorem mask_press (held : PointerButton → Bool) (button : PointerButton) :
    mask (fun b => decide (b = button) || held b) = mask held ||| cdpButtonBit button := by
  unfold mask
  beta_reduce
  generalize held .primary = p, held .secondary = s, held .middle = m
  revert p s m
  cases button <;> decide

theorem mask_release (held : PointerButton → Bool) (button : PointerButton) :
    mask (fun b => !decide (b = button) && held b) = mask held &&& ~~~ cdpButtonBit button := by
  unfold mask
  beta_reduce
  generalize held .primary = p, held .secondary = s, held .middle = m
  revert p s m
  cases button <;> decide

/-! ## Steps -/

/-- How a message is told to the page. -/
def eventOf (message : PointerMessage) : String × Option String :=
  match message.phase with
  | .enter | .move | .leave => ("mouseMoved", none)
  | .down => ("mousePressed", message.button.map cdpButtonName)
  | .up => ("mouseReleased", message.button.map cdpButtonName)

/-- The messages whose requests were sent. -/
def sent (dispatched : List (PointerMessage × Outcome)) : List PointerMessage :=
  (dispatched.filter (·.2 ≠ .refused)).map (·.1)

/-- Every leave that was dispatched was answered. -/
def Answered (dispatched : List (PointerMessage × Outcome)) : Prop :=
  ∀ d ∈ dispatched, d.1.phase = .leave → d.2 = .answered

/-- What holds of the worker between its steps. -/
structure Inv {F32 : Type} (w : Worker F32) : Prop where
  newest : Newest w.input.accepted (w.dispatched.map (·.1)) w.input.pointer
  /-- Accepted messages have a button just when they press or release one. -/
  buttons : ∀ m ∈ w.input.accepted, m.phase.isButton = m.button.isSome
  page : w.browser.page.map (fun e => (e.type, e.button)) = (sent w.dispatched).map eventOf
  held : Answered w.dispatched → w.browser.heldButtons = mask (holds (w.dispatched.map (·.1)))

namespace BrowserSession

variable {b : BrowserSession} {message : PointerMessage} {outcome : Outcome}

theorem page_dispatch (h : message.phase.isButton = message.button.isSome) :
    (b.dispatchPointer message outcome).1.page.map (fun e => (e.type, e.button))
      = b.page.map (fun e => (e.type, e.button)) ++
        if outcome = .refused then [] else [eventOf message] := by
  unfold dispatchPointer eventOf
  cases hphase : message.phase with
  | enter => cases outcome <;> simp [send]
  | move => cases outcome <;> simp [send]
  | leave => cases outcome <;> simp [send]
  | down =>
    obtain ⟨button, hbutton⟩ : ∃ button, message.button = some button :=
      Option.isSome_iff_exists.mp (by simpa [hphase, PointerPhase.isButton] using h.symm)
    cases outcome <;> simp [send, hbutton]
  | up =>
    obtain ⟨button, hbutton⟩ : ∃ button, message.button = some button :=
      Option.isSome_iff_exists.mp (by simpa [hphase, PointerPhase.isButton] using h.symm)
    cases outcome <;> simp [send, hbutton]

/-- The mask follows the messages, as long as a leave is answered. -/
theorem held_dispatch {held : PointerButton → Bool} (hb : b.heldButtons = mask held)
    (hleave : message.phase = .leave → outcome = .answered) :
    (b.dispatchPointer message outcome).1.heldButtons = mask (Control.press held message) := by
  have hsend : ∀ (b : BrowserSession) (event : MouseEvent),
      (b.send event outcome).heldButtons = b.heldButtons := by
    intro b event
    unfold send
    split <;> rfl
  unfold dispatchPointer Control.press
  cases hphase : message.phase with
  | enter => simp [hsend, hb]
  | move => simp [hsend, hb]
  | leave => simp [hleave hphase, mask_none]
  | down =>
    cases hbutton : message.button with
    | none => simp [hb]
    | some button => simp [hsend, hb, mask_press]
  | up =>
    cases hbutton : message.button with
    | none => simp [hb]
    | some button => simp [hsend, hb, mask_release]

end BrowserSession

namespace Inv

variable {F32 F64 : Type} {serde : Serde F32 F64} {w : Worker F32}

theorem start : Inv (Worker.new : Worker F32) where
  newest := Newest.start
  buttons := List.forall_mem_nil _
  page := rfl
  held := fun _ => by simp [Worker.new, holds, sinceLeave, mask]

/-- What a line does to the slot and to the messages accepted. -/
theorem dispatch_cases (serde : Serde F32 F64) (c : InputChannel F32) (line : List UInt8) :
    ((c.dispatch serde line).accepted = c.accepted ∧ (c.dispatch serde line).pointer = c.pointer) ∨
      ∃ message, decodePointerLine serde line = .ok message ∧
        (c.dispatch serde line).accepted = c.accepted ++ [message] ∧
        (c.dispatch serde line).pointer = some message := by
  unfold InputChannel.dispatch
  split
  · exact Or.inl ⟨rfl, rfl⟩
  · split
    · exact Or.inl ⟨rfl, rfl⟩
    · split
      · split
        · exact Or.inr ⟨_, ‹_›, rfl, rfl⟩
        · exact Or.inl ⟨rfl, rfl⟩
      · split <;> exact Or.inl ⟨rfl, rfl⟩
      · split <;> exact Or.inl ⟨rfl, rfl⟩
      · exact Or.inl ⟨rfl, rfl⟩

theorem buttons_of_decode {line : List UInt8} {message : PointerMessage}
    (h : decodePointerLine serde line = .ok message) :
    message.phase.isButton = message.button.isSome := by
  unfold decodePointerLine at h
  obtain ⟨decoded, _, hrest⟩ := Checks.bind_ok h
  obtain ⟨⟨⟩, hvalid, hmessage⟩ := Checks.bind_ok hrest
  obtain rfl := Except.ok.inj hmessage
  exact (PointerMessage.validate_ok.mp hvalid).2.2.2

/-- A line is read. -/
theorem line (h : Inv w) (line : List UInt8) :
    Inv { w with input := w.input.dispatch serde line } := by
  rcases dispatch_cases serde w.input line with ⟨haccepted, hpointer⟩ |
    ⟨message, hdecode, haccepted, hpointer⟩
  · exact {
      newest := by rw [haccepted, hpointer]; exact h.newest
      buttons := by rw [haccepted]; exact h.buttons
      page := h.page
      held := h.held }
  · exact {
      newest := by rw [haccepted, hpointer]; exact h.newest.accept message
      buttons := by
        rw [haccepted]
        intro m hm
        rcases List.mem_append.mp hm with hm | hm
        · exact h.buttons m hm
        · rw [List.mem_singleton.mp hm]
          exact buttons_of_decode hdecode
      page := h.page
      held := h.held }

theorem lines (h : Inv w) (ls : List (List UInt8)) :
    Inv { w with input := ls.foldl (InputChannel.dispatch serde) w.input } := by
  induction ls generalizing w with
  | nil => exact h
  | cons line ls ih => exact ih (h.line line)

theorem read (h : Inv w) (chunk : List UInt8) :
    Inv { w with input := w.input.read serde chunk } := by
  have hpending : ∀ pending, Inv { w with input.pending := pending } := fun pending => { h with }
  have hlines : Inv { w with
      input := (Lines.lines newline [] (w.input.pending ++ chunk)).foldl
        (InputChannel.dispatch serde)
        { w.input with pending := Lines.rest newline [] (w.input.pending ++ chunk) } } :=
    (hpending _).lines _
  unfold InputChannel.read
  simp only
  split
  · exact { hlines with }
  · exact hlines

theorem poll (h : Inv w) (reads : List (List UInt8)) :
    Inv { w with input := w.input.poll serde reads } := by
  induction reads generalizing w with
  | nil => exact h
  | cons chunk reads ih => exact ih (h.read chunk)

theorem dispatchPointer (h : Inv w) (outcome : Outcome) : Inv (w.dispatchPointer outcome) := by
  unfold Worker.dispatchPointer
  split
  · split
    · exact h
    · rename_i message hpointer
      have hmem : message ∈ w.input.accepted := by
        have htake := (hpointer ▸ h.newest).take
        exact htake.sublist.subset (List.mem_append_right _ List.mem_cons_self)
      exact {
        newest := by
          simp only [List.map_append, List.map_cons, List.map_nil]
          exact (hpointer ▸ h.newest).take
        buttons := h.buttons
        page := by
          simp only [BrowserSession.page_dispatch (h.buttons message hmem), h.page, sent,
            List.filter_append, List.map_append]
          cases outcome <;> simp
        held := by
          intro hanswered
          have hbefore : Answered w.dispatched :=
            fun d hd => hanswered d (List.mem_append_left _ hd)
          have hleave : message.phase = .leave → outcome = .answered :=
            hanswered (message, outcome) (List.mem_append_right _ List.mem_cons_self)
          simp only [List.map_append, List.map_cons, List.map_nil, holds_concat]
          exact BrowserSession.held_dispatch (h.held hbefore) hleave }
  · exact h

theorem step (h : Inv w) (s : Step) : Inv (w.step serde s) := by
  cases s with
  | poll reads => exact h.poll reads
  | frame viewport => exact { h with }
  | tick outcome => exact { h.dispatchPointer outcome with }

end Inv

/-! ## The stream -/

/-- A line, without its newline, of a pointer message. -/
structure Valid {F32 F64 : Type} (serde : Serde F32 F64) (line : List UInt8)
    (message : PointerMessage) : Prop where
  newline : newline ∉ line
  text : (Utf8.decode line).isSome
  type : ((serde.fromSlice line).bind fun value => (Json.field value "type").bind Json.asStr)
    = some "pointer_position"
  decoded : decodePointerLine serde line = .ok message

/-- The stream of some lines. -/
def stream (ls : List (List UInt8)) : List UInt8 := ls.flatMap (· ++ [newline])

/-- What a step reads. -/
def bytesOf : Step → List UInt8
  | .poll reads => reads.flatten
  | .frame _ | .tick _ => []

section Stream

variable {F32 F64 : Type} {serde : Serde F32 F64}

theorem Valid.dispatch {line : List UInt8} {message : PointerMessage}
    (h : Valid serde line message) (c : InputChannel F32) :
    (c.dispatch serde line).accepted = c.accepted ++ [message] ∧
      (c.dispatch serde line).pending = c.pending ∧
      (c.dispatch serde line).pointer = some message := by
  obtain ⟨value, hvalue, htype⟩ := Option.bind_eq_some_iff.mp h.type
  obtain ⟨chars, htext⟩ := Option.isSome_iff_exists.mp h.text
  unfold InputChannel.dispatch
  simp [htext, hvalue, htype, h.decoded, InputChannel.accept, InputChannel.ack]

theorem Valid.length_le {line : List UInt8} {message : PointerMessage}
    (h : Valid serde line message) : line.length ≤ maxInputMessageBytes := by
  have hdecoded := h.decoded
  unfold decodePointerLine Serde.decodeLine validateFraming at hdecoded
  by_contra hlong
  have hlt : maxMessageBytes < line.length := Nat.lt_of_not_le hlong
  have hframing : (line.isEmpty || decide (maxMessageBytes < line.length)) = true := by
    simp [hlt]
  rw [if_pos hframing] at hdecoded
  cases hdecoded

theorem dispatch_valid {pairs : List (List UInt8 × PointerMessage)}
    (h : ∀ l ∈ pairs, Valid serde l.1 l.2) (c : InputChannel F32) :
    ((pairs.map (·.1)).foldl (InputChannel.dispatch serde) c).accepted
        = c.accepted ++ pairs.map (·.2) ∧
      ((pairs.map (·.1)).foldl (InputChannel.dispatch serde) c).pending = c.pending ∧
      ((pairs.map (·.1)).foldl (InputChannel.dispatch serde) c).pointer
        = (pairs.map (·.2)).getLast?.or c.pointer := by
  induction pairs generalizing c with
  | nil => simp
  | cons l pairs ih =>
    rw [List.forall_mem_cons] at h
    obtain ⟨haccepted, hpending, hpointer⟩ := h.1.dispatch c
    obtain ⟨haccepted', hpending', hpointer'⟩ := ih h.2 (c.dispatch serde l.1)
    simp only [List.map_cons, List.foldl_cons]
    rw [haccepted', hpending', hpointer', haccepted, hpending, hpointer]
    cases hlast : (pairs.map (·.2)).getLast? <;> simp [List.getLast?_cons, hlast]

variable {ls : List (List UInt8)} {pairs : List (List UInt8 × PointerMessage)}

/-- The complete lines of the beginning of a stream. -/
theorem lines_initial (hls : ∀ line ∈ ls, newline ∉ line) {p : List UInt8}
    (hp : p <+: stream ls) :
    Lines.lines newline [] p = ls.take (Lines.lines newline [] p).length := by
  obtain ⟨q, hq⟩ := hp
  have hlines : Lines.lines newline [] p ++ Lines.lines newline (Lines.rest newline [] p) q = ls := by
    rw [← Lines.lines_append, hq]
    exact Lines.lines_flatMap hls
  rw [← hlines, List.take_left]

/-- What is left of the beginning of a stream is the beginning of a line. -/
theorem rest_initial (hls : ∀ line ∈ ls, newline ∉ line)
    (hlength : ∀ line ∈ ls, line.length ≤ maxInputMessageBytes) {p : List UInt8}
    (hp : p <+: stream ls) : (Lines.rest newline [] p).length ≤ maxInputMessageBytes := by
  obtain ⟨q, hq⟩ := hp
  have hlines : Lines.lines newline [] p ++ Lines.lines newline (Lines.rest newline [] p) q = ls := by
    rw [← Lines.lines_append, hq]
    exact Lines.lines_flatMap hls
  by_cases hmem : newline ∈ q
  · obtain ⟨s, t, rfl, hs⟩ := List.eq_append_cons_of_mem hmem
    rw [Lines.lines_segment hs] at hlines
    have hline : (Lines.rest newline [] p ++ s) ∈ ls := by
      rw [← hlines]
      exact List.mem_append_right _ List.mem_cons_self
    have hle := hlength _ hline
    rw [List.length_append] at hle
    omega
  · have hrest : Lines.rest newline [] p ++ q = [] := by
      rw [← Lines.rest_of_not_mem hmem, ← Lines.rest_append, hq]
      exact Lines.rest_flatMap ls
    simp [(List.append_eq_nil_iff.mp hrest).1]

/-- What a channel holds that has read the beginning of a stream. -/
structure Following (messages : List PointerMessage) (c : InputChannel F32) (p : List UInt8) :
    Prop where
  pending : c.pending = Lines.rest newline [] p
  accepted : c.accepted = messages.take (Lines.lines newline [] p).length

theorem Following.read {c : InputChannel F32} {p chunk : List UInt8}
    (hvalid : ∀ l ∈ pairs, Valid serde l.1 l.2) (h : Following (pairs.map (·.2)) c p)
    (hp : p ++ chunk <+: stream (pairs.map (·.1))) :
    Following (pairs.map (·.2)) (c.read serde chunk) (p ++ chunk) := by
  have hls : ∀ line ∈ pairs.map (·.1), newline ∉ line := by
    intro line hline
    obtain ⟨l, hl, rfl⟩ := List.mem_map.mp hline
    exact (hvalid l hl).newline
  have hlength : ∀ line ∈ pairs.map (·.1), line.length ≤ maxInputMessageBytes := by
    intro line hline
    obtain ⟨l, hl, rfl⟩ := List.mem_map.mp hline
    exact (hvalid l hl).length_le
  have hmem : newline ∉ Lines.rest newline [] p := Lines.not_mem_rest List.not_mem_nil
  -- The lines of this read continue the rest of the reads before.
  have hlines : Lines.lines newline [] (Lines.rest newline [] p ++ chunk)
      = Lines.lines newline (Lines.rest newline [] p) chunk := by
    rw [Lines.lines_append, Lines.lines_of_not_mem hmem, Lines.rest_of_not_mem hmem]
    rfl
  have hrest : Lines.rest newline [] (Lines.rest newline [] p ++ chunk)
      = Lines.rest newline [] (p ++ chunk) := by
    rw [Lines.rest_append, Lines.rest_of_not_mem hmem, Lines.rest_append]
    rfl
  obtain ⟨new, hnew⟩ : ∃ new, new = (pairs.drop (Lines.lines newline [] p).length).take
      (Lines.lines newline (Lines.rest newline [] p) chunk).length := ⟨_, rfl⟩
  have hnewlines : Lines.lines newline (Lines.rest newline [] p) chunk = new.map (·.1) := by
    have hboth := lines_initial hls hp
    rw [Lines.lines_append, List.length_append, List.take_add,
      ← lines_initial hls ((List.prefix_append _ _).trans hp)] at hboth
    rw [hnew, List.map_take, List.map_drop]
    exact List.append_cancel_left hboth
  have hnewvalid : ∀ l ∈ new, Valid serde l.1 l.2 := by
    intro l hl
    rw [hnew] at hl
    exact hvalid l (List.mem_of_mem_drop (List.mem_of_mem_take hl))
  obtain ⟨haccepted, hpending, -⟩ := dispatch_valid hnewvalid
    { c with pending := Lines.rest newline [] (p ++ chunk) }
  have hshort : ¬ maxInputMessageBytes < (Lines.rest newline [] (p ++ chunk)).length :=
    Nat.not_lt.mpr (rest_initial hls hlength hp)
  unfold InputChannel.read
  simp only [h.pending, hlines, hrest, hnewlines]
  rw [if_neg (by rw [hpending]; exact hshort)]
  refine ⟨hpending, ?_⟩
  rw [haccepted]
  simp only [h.accepted]
  rw [Lines.lines_append, List.length_append, List.take_add, hnew, List.map_take, List.map_drop]

theorem Following.poll {c : InputChannel F32} {p : List UInt8} {reads : List (List UInt8)}
    (hvalid : ∀ l ∈ pairs, Valid serde l.1 l.2) (h : Following (pairs.map (·.2)) c p)
    (hp : p ++ reads.flatten <+: stream (pairs.map (·.1))) :
    Following (pairs.map (·.2)) (c.poll serde reads) (p ++ reads.flatten) := by
  induction reads generalizing c p with
  | nil => simpa [InputChannel.poll] using h
  | cons chunk reads ih =>
    rw [List.flatten_cons, ← List.append_assoc] at hp ⊢
    exact ih (h.read hvalid ((List.prefix_append _ _).trans hp)) hp

theorem tick_input (w : Worker F32) (outcome : Outcome) :
    (w.dispatchInput outcome).input.pending = w.input.pending ∧
      (w.dispatchInput outcome).input.accepted = w.input.accepted := by
  unfold Worker.dispatchInput Worker.dispatchPointer
  split
  · split <;> exact ⟨rfl, rfl⟩
  · exact ⟨rfl, rfl⟩

theorem Following.run {w : Worker F32} {p : List UInt8} {steps : List Step}
    (hvalid : ∀ l ∈ pairs, Valid serde l.1 l.2) (h : Following (pairs.map (·.2)) w.input p)
    (hp : p ++ steps.flatMap bytesOf <+: stream (pairs.map (·.1))) :
    Following (pairs.map (·.2)) (Runs.run (Worker.step serde) w steps).input
      (p ++ steps.flatMap bytesOf) := by
  induction steps generalizing w p with
  | nil => simpa using h
  | cons s steps ih =>
    rw [List.flatMap_cons, ← List.append_assoc] at hp ⊢
    have hbefore : p ++ bytesOf s <+: stream (pairs.map (·.1)) :=
      (List.prefix_append _ _).trans hp
    refine ih ?_ hp
    cases s with
    | poll reads => exact h.poll hvalid hbefore
    | frame viewport =>
      rw [bytesOf, List.append_nil]
      exact h
    | tick outcome =>
      rw [bytesOf, List.append_nil]
      obtain ⟨hpending, haccepted⟩ := tick_input w outcome
      exact ⟨hpending.trans h.pending, haccepted.trans h.accepted⟩

/-- However the stream of valid lines is cut into reads, all messages are accepted. -/
theorem accepted_of_stream {steps : List Step} (hvalid : ∀ l ∈ pairs, Valid serde l.1 l.2)
    (hsteps : steps.flatMap bytesOf = stream (pairs.map (·.1))) :
    (Runs.run (Worker.step serde) (Worker.new : Worker F32) steps).input.accepted
      = pairs.map (·.2) := by
  have hls : ∀ line ∈ pairs.map (·.1), newline ∉ line := by
    intro line hline
    obtain ⟨l, hl, rfl⟩ := List.mem_map.mp hline
    exact (hvalid l hl).newline
  have hfollow : Following (pairs.map (·.2)) (Worker.new : Worker F32).input [] := ⟨rfl, rfl⟩
  have hbytes : [] ++ steps.flatMap bytesOf <+: stream (pairs.map (·.1)) := by simp [hsteps]
  have haccepted := (hfollow.run hvalid hbytes).accepted
  rw [List.nil_append, hsteps, stream, Lines.lines_flatMap hls] at haccepted
  rw [haccepted]
  exact List.take_of_length_le (by simp)

end Stream

/-! ## Every run -/

section Runs

variable {F32 F64 : Type}

theorem holds_leave {messages : List PointerMessage} {message : PointerMessage}
    (hlast : messages.getLast? = some message) (hleave : message.phase = .leave) :
    mask (holds messages) = 0 := by
  obtain ⟨before, rfl⟩ := List.getLast?_eq_some_iff.mp hlast
  rw [holds_concat]
  simp [Control.press, hleave, mask_none]

theorem tick_empties {w : Worker F32} (h : w.browser.hasViewport = true) (outcome : Outcome) :
    (w.dispatchInput outcome).input.pointer = none := by
  unfold Worker.dispatchInput Worker.dispatchPointer
  rw [if_pos h]
  cases hpointer : w.input.pointer with
  | none => simpa using hpointer
  | some message => rfl

end Runs

/-! ## The lines of messages -/

/-- The line of a message, without its newline. -/
def lineOf (message : PointerMessage) : List UInt8 := Json.toBytes (.object message.fields)

section Lines

variable {F32 F64 : Type} {serde : Serde F32 F64} {message : PointerMessage}

theorem validateFraming_lineOf (h : message.validate = .ok ()) :
    validateFraming (lineOf message) = .ok (lineOf message) := by
  have hclean : ∀ b : UInt8, b.toNat < 0x20 → b ∉ lineOf message := fun b hb hmem =>
    absurd (Json.le_of_mem_toBytes hmem) (Nat.not_le_of_lt hb)
  have hlast : (lineOf message).getLast? ≠ some newline := fun hlast =>
    hclean newline (by decide) (List.mem_of_getLast? hlast)
  have hne : lineOf message ≠ [] := Json.toBytes_ne_nil _
  have hlength := PointerMessage.length_line_le h
  rw [List.length_append] at hlength
  have hshort : ¬ maxMessageBytes < (lineOf message).length :=
    Nat.not_lt.mpr (Nat.le_trans (Nat.le_add_right _ _) hlength)
  have hnewline := hclean newline (by decide)
  have hreturn := hclean carriageReturn (by decide)
  simp [validateFraming, stripNewline, hlast, hne, hshort, hnewline, hreturn]

/-- The messages that can be sent have valid lines. -/
theorem valid_lineOf (hfaith : serde.Faithful) (h : message.validate = .ok ()) :
    Valid serde (lineOf message) message := by
  obtain ⟨hnodup, hfields⟩ := @PointerMessage.fields_printed _ _ serde message
  have hvalue := hfaith.reads message.fields hnodup hfields
  have htype : message.messageType = "pointer_position" := (PointerMessage.validate_ok.mp h).2.1
  exact {
    newline := fun hmem => absurd (Json.le_of_mem_toBytes hmem) (by decide)
    text := by simp [lineOf, Json.toBytes, Utf8.decode_encode]
    type := by
      rw [lineOf, hvalue]
      simp [PointerMessage.fields, Json.field, Json.get, Json.asStr, htype]
    decoded := by
      have hframing := validateFraming_lineOf h
      rw [decodePointerLine, Serde.decodeLine, hframing, Checks.ok_bind, lineOf, hvalue,
        Option.bind_some, message.ofJson_fields]
      simp [h] }

/-- A read of whole valid lines leaves the last of them in the slot. -/
theorem poll_stream {pairs : List (List UInt8 × PointerMessage)}
    (hvalid : ∀ l ∈ pairs, Valid serde l.1 l.2) {c : InputChannel F32} (hc : c.pending = []) :
    (c.poll serde [stream (pairs.map (·.1))]).pending = [] ∧
      (c.poll serde [stream (pairs.map (·.1))]).pointer
        = (pairs.map (·.2)).getLast?.or c.pointer := by
  have hls : ∀ line ∈ pairs.map (·.1), newline ∉ line := by
    intro line hline
    obtain ⟨l, hl, rfl⟩ := List.mem_map.mp hline
    exact (hvalid l hl).newline
  obtain ⟨-, hpending, hpointer⟩ := dispatch_valid hvalid { c with pending := [] }
  have hread : c.poll serde [stream (pairs.map (·.1))]
      = (pairs.map (·.1)).foldl (InputChannel.dispatch serde) { c with pending := [] } := by
    have hlines : Lines.lines newline [] (stream (pairs.map (·.1))) = pairs.map (·.1) :=
      Lines.lines_flatMap hls
    have hrest : Lines.rest newline [] (stream (pairs.map (·.1))) = [] := Lines.rest_flatMap _
    simp [InputChannel.poll, InputChannel.read, hc, hlines, hrest, hpending]
  rw [hread]
  exact ⟨hpending, hpointer⟩

/-- Whole valid lines that are read in a viewport, and then a dispatch: of the last of them. -/
theorem dispatch_last {pairs : List (List UInt8 × PointerMessage)} {message : PointerMessage}
    (hvalid : ∀ l ∈ pairs, Valid serde l.1 l.2)
    (hlast : (pairs.map (·.2)).getLast? = some message) {w : Worker F32}
    (hpending : w.input.pending = []) (hviewport : w.browser.hasViewport = true)
    (outcome : Outcome) :
    (run (Worker.step serde) w
        [.poll [stream (pairs.map (·.1))], .tick outcome]).input.pending = [] ∧
      (run (Worker.step serde) w [.poll [stream (pairs.map (·.1))], .tick outcome]).browser
        = (w.browser.dispatchPointer message outcome).1 := by
  obtain ⟨hrest, hpointer⟩ := poll_stream hvalid hpending
  rw [hlast, Option.some_or] at hpointer
  refine ⟨(tick_input _ outcome).1.trans hrest, ?_⟩
  simp [Worker.step, Worker.dispatchInput, Worker.dispatchPointer, hpointer, hviewport]

end Lines

def press : PointerMessage := ⟨1, "pointer_position", 1, .down, 32768, 32768, some .primary⟩

def release : PointerMessage := ⟨1, "pointer_position", 2, .up, 32768, 32768, some .primary⟩

def leave : PointerMessage := ⟨1, "pointer_position", 3, .leave, 65535, 0, none⟩

theorem valid_press : Valid quartersSerde (lineOf press) press :=
  valid_lineOf quartersSerde_faithful (by decide)

theorem valid_release : Valid quartersSerde (lineOf release) release :=
  valid_lineOf quartersSerde_faithful (by decide)

theorem valid_leave : Valid quartersSerde (lineOf leave) leave :=
  valid_lineOf quartersSerde_faithful (by decide)

/-- A press and a leave, with a cut inside the line of the leave. -/
def pressAndLeave : List Step :=
  [.frame (960, 540), .poll [lineOf press ++ [newline], (lineOf leave).take 9], .tick .answered,
    .poll [(lineOf leave).drop 9 ++ [newline]], .tick .answered]

/-- The worker, when a frame told the viewport. -/
def shown : Worker Quarter := Worker.new.step quartersSerde (.frame (960, 540))

end Kwe.Web.Pointer
