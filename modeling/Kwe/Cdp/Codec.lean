import Kwe.Foundation.Lines
import Kwe.Foundation.Runs

/-!
The framing of the remote-debugging pipe: `encode_message` and `Decoder`.

* `scan_spec`: what the loop of `push` takes out of the buffer;
* `Inv.step`: what every push and every take keeps;
* `framing`: which messages a decoder hands over, and when it fails.
-/

namespace Kwe.Cdp

open Foundation Foundation.Lines Foundation.Runs

inductive CodecError
  | oversizedMessage (maxMessageBytes : Nat)
  deriving DecidableEq, Repr

def defaultMaxMessageBytes : Nat := 4 * 1024 * 1024

/-- Body and a NUL. -/
def encodeMessage (body : List UInt8) : List UInt8 := body ++ [0]

structure Decoder where
  maxMessageBytes : Nat
  buffer : List UInt8
  scanFrom : Nat
  messages : List (List UInt8)
  deriving DecidableEq, Repr

namespace Decoder

def new (maxMessageBytes : Nat) : Decoder := ⟨maxMessageBytes, [], 0, []⟩

/-- The loop of `push` and the check of the tail.  An error leaves the buffer and
the offset as they are. -/
def scan (d : Decoder) : Decoder × Option CodecError :=
  match _hpos : (d.buffer.drop d.scanFrom).idxOf? 0 with
  | some relative =>
    let stop := d.scanFrom + relative
    if d.maxMessageBytes < stop then (d, some (.oversizedMessage d.maxMessageBytes))
    else
      scan { d with
        buffer := d.buffer.drop (stop + 1)
        scanFrom := 0
        messages := d.messages ++ [d.buffer.take stop] }
  | none =>
    if d.maxMessageBytes < d.buffer.length then
      (d, some (.oversizedMessage d.maxMessageBytes))
    else ({ d with scanFrom := d.buffer.length }, none)
  termination_by d.buffer.length
  decreasing_by
    have hlt := (List.idxOf?_eq_some_iff.mp _hpos).1
    simp only [List.length_drop] at hlt ⊢
    omega

def push (d : Decoder) (bytes : List UInt8) : Decoder × Option CodecError :=
  if bytes = [] then (d, none) else scan { d with buffer := d.buffer ++ bytes }

def takeMessages (d : Decoder) : Decoder × List (List UInt8) :=
  ({ d with messages := [] }, d.messages)

def bufferedBytes (d : Decoder) : Nat := d.buffer.length

end Decoder

/-! ## A caller of a decoder -/

inductive DecoderCall
  | push (bytes : List UInt8)
  | takeMessages

/-- A decoder, the bytes that were pushed and the messages that were taken so far, and
whether a push failed. -/
structure Feed where
  decoder : Decoder
  pushed : List UInt8
  taken : List (List UInt8)
  failed : Bool

namespace Feed

def start (maxMessageBytes : Nat) : Feed := ⟨.new maxMessageBytes, [], [], false⟩

def step (f : Feed) : DecoderCall → Feed
  | .push bytes =>
    let pushed := f.decoder.push bytes
    { f with
      decoder := pushed.1
      pushed := f.pushed ++ bytes
      failed := f.failed || pushed.2.isSome }
  | .takeMessages =>
    let taken := f.decoder.takeMessages
    { f with decoder := taken.1, taken := f.taken ++ taken.2 }

end Feed

/-- A new decoder after these calls. -/
def feed (maxMessageBytes : Nat) (calls : List DecoderCall) : Feed :=
  run Feed.step (.start maxMessageBytes) calls

/-- Every piece of the stream is within the bound, the unterminated one included. -/
def Within (maxMessageBytes : Nat) (stream : List UInt8) : Prop :=
  (∀ piece ∈ lines 0 [] stream, piece.length ≤ maxMessageBytes) ∧
    (rest 0 [] stream).length ≤ maxMessageBytes

/-- The terminated pieces before the first piece longer than the bound. -/
def piecesBefore (maxMessageBytes : Nat) (stream : List UInt8) : List (List UInt8) :=
  (lines 0 [] stream).takeWhile (·.length ≤ maxMessageBytes)

/-! ## The loop of `push` -/

/-- The first NUL, when there is none before the offset. -/
theorem split_of_scanned {buffer : List UInt8} {scanFrom relative : Nat}
    (hscanned : 0 ∉ buffer.take scanFrom)
    (hpos : (buffer.drop scanFrom).idxOf? 0 = some relative) :
    ∃ piece later, buffer = piece ++ 0 :: later ∧ 0 ∉ piece ∧
      piece.length = scanFrom + relative := by
  obtain ⟨word, later, hword, hnot, hlength⟩ := split_of_idxOf? hpos
  have hlt : scanFrom ≤ buffer.length := by
    have hdrop := congrArg List.length hword
    simp only [List.length_drop, List.length_append, List.length_cons] at hdrop
    omega
  refine ⟨buffer.take scanFrom ++ word, later, ?_, ?_, ?_⟩
  · rw [List.append_assoc, ← hword, List.take_append_drop]
  · simp [hscanned, hnot]
  · rw [List.length_append, List.length_take_of_le hlt, hlength]

/-- There is no NUL before the offset. -/
structure Ready (d : Decoder) : Prop where
  inside : d.scanFrom ≤ d.buffer.length
  scanned : 0 ∉ d.buffer.take d.scanFrom

theorem Ready.append {d : Decoder} (h : Ready d) (bytes : List UInt8) :
    Ready { d with buffer := d.buffer ++ bytes } where
  inside := by
    have hinside := h.inside
    simp only [List.length_append]
    omega
  scanned := by
    rw [List.take_append_of_le_length h.inside]
    exact h.scanned

/-- The loop takes `gone` out of the buffer: messages within the bound, each with its
NUL. -/
structure Scanned (d d' : Decoder) (error : Option CodecError) (gone : List UInt8) : Prop where
  bound : d'.maxMessageBytes = d.maxMessageBytes
  buffer : d.buffer = gone ++ d'.buffer
  ended : rest 0 [] gone = []
  small : ∀ piece ∈ lines 0 [] gone, piece.length ≤ d.maxMessageBytes
  messages : d'.messages = d.messages ++ lines 0 [] gone
  ready : Ready d'
  ok : error = none → 0 ∉ d'.buffer ∧ d'.buffer.length ≤ d.maxMessageBytes
  oversized : ∀ e, error = some e → e = .oversizedMessage d.maxMessageBytes ∧
    d.maxMessageBytes < d'.buffer.length ∧ 0 ∉ d'.buffer.take (d.maxMessageBytes + 1)

theorem Ready.unended {d : Decoder} (h : Ready d)
    (hpos : (d.buffer.drop d.scanFrom).idxOf? 0 = none) : 0 ∉ d.buffer := by
  intro hmem
  rw [← List.take_append_drop d.scanFrom d.buffer, List.mem_append] at hmem
  exact hmem.elim h.scanned (List.idxOf?_eq_none_iff.mp hpos)

theorem scan_spec {d : Decoder} (h : Ready d) :
    ∃ gone, Scanned d d.scan.1 d.scan.2 gone := by
  fun_induction Decoder.scan d with
  | case1 d relative hpos stop hbound =>
    obtain ⟨piece, later, hbuffer, hpiece, hlength⟩ := split_of_scanned h.scanned hpos
    have hlong : d.maxMessageBytes + 1 ≤ piece.length := hlength ▸ hbound
    refine ⟨[], rfl, rfl, rfl, nofun, (List.append_nil _).symm, h, nofun, ?_⟩
    intro e he
    refine ⟨(Option.some.inj he).symm, ?_, ?_⟩
    · rw [hbuffer, List.length_append]
      omega
    · rw [hbuffer, List.take_append_of_le_length hlong]
      exact fun hmem => hpiece (List.mem_of_mem_take hmem)
  | case2 d relative hpos stop hbound ih =>
    obtain ⟨piece, later, hbuffer, hpiece, hlength⟩ := split_of_scanned h.scanned hpos
    obtain ⟨gone, hgone⟩ := ih ⟨Nat.zero_le _, nofun⟩
    have htake : d.buffer.take stop = piece := by
      rw [hbuffer, List.take_left' hlength]
    have hdrop : d.buffer.drop (stop + 1) = later := by
      rw [hbuffer, List.append_cons, List.drop_left' (by simp [hlength, stop])]
    have hlines : lines 0 [] (piece ++ 0 :: gone) = piece :: lines 0 [] gone :=
      lines_segment hpiece
    refine ⟨piece ++ 0 :: gone, hgone.bound, ?_, ?_, ?_, ?_, hgone.ready, hgone.ok,
      hgone.oversized⟩
    · have hleft : d.buffer.drop (stop + 1) = gone ++ _ := hgone.buffer
      rw [List.append_assoc, List.cons_append, ← hleft, hdrop, ← hbuffer]
    · rw [rest_segment, hgone.ended]
    · rw [hlines]
      intro p hp
      obtain rfl | hp := List.mem_cons.mp hp
      · omega
      · exact hgone.small p hp
    · rw [hlines, hgone.messages, htake, List.append_assoc, List.singleton_append]
  | case3 d hpos hbound =>
    have hbuffer := h.unended hpos
    refine ⟨[], rfl, rfl, rfl, nofun, (List.append_nil _).symm, h, nofun, ?_⟩
    intro e he
    exact ⟨(Option.some.inj he).symm, hbound, fun hmem => hbuffer (List.mem_of_mem_take hmem)⟩
  | case4 d hpos hbound =>
    have hbuffer := h.unended hpos
    refine ⟨[], rfl, rfl, rfl, nofun, (List.append_nil _).symm, ⟨Nat.le_refl _, ?_⟩, ?_, nofun⟩
    · exact fun hmem => hbuffer (List.mem_of_mem_take hmem)
    · exact fun _ => ⟨hbuffer, Nat.not_lt.mp hbound⟩

theorem push_spec {d : Decoder} (h : Ready d) {bytes : List UInt8} (hbytes : bytes ≠ []) :
    ∃ gone, Scanned { d with buffer := d.buffer ++ bytes } (d.push bytes).1 (d.push bytes).2
      gone := by
  rw [Decoder.push, if_neg hbytes]
  exact scan_spec (h.append bytes)

/-! ## A decoder that failed -/

/-- The next piece of the buffer is longer than the bound. -/
structure Stuck (d : Decoder) : Prop where
  long : d.maxMessageBytes < d.buffer.length
  unended : 0 ∉ d.buffer.take (d.maxMessageBytes + 1)

/-- More bytes do not help. -/
theorem Stuck.append {d : Decoder} (h : Stuck d) (bytes : List UInt8) :
    Stuck { d with buffer := d.buffer ++ bytes } where
  long := by
    have hlong := h.long
    simp only [List.length_append]
    omega
  unended := by
    rw [List.take_append_of_le_length h.long]
    exact h.unended

/-- No message can be taken out of it. -/
theorem Stuck.nothing_gone {d : Decoder} (h : Stuck d) {gone left : List UInt8}
    (hbuffer : d.buffer = gone ++ left) (hended : rest 0 [] gone = [])
    (hsmall : ∀ piece ∈ lines 0 [] gone, piece.length ≤ d.maxMessageBytes) : gone = [] := by
  by_cases hmem : 0 ∈ gone
  · obtain ⟨piece, later, rfl, hpiece⟩ := List.eq_append_cons_of_mem hmem
    have hlines : lines 0 [] (piece ++ 0 :: later) = piece :: lines 0 [] later :=
      lines_segment hpiece
    have hlength := hsmall piece (hlines ▸ List.mem_cons_self)
    refine absurd (List.mem_take_iff_getElem.mpr ⟨piece.length, ?_, ?_⟩) h.unended
    · have hlong := h.long
      omega
    · simp [hbuffer]
  · rw [rest_of_not_mem hmem] at hended
    exact hended

theorem push_stuck {d : Decoder} (h : Stuck d) (hready : Ready d) {bytes : List UInt8}
    (hbytes : bytes ≠ []) : (d.push bytes).2 = some (.oversizedMessage d.maxMessageBytes) := by
  have hstuck := h.append bytes
  obtain ⟨gone, hgone⟩ := push_spec hready hbytes
  obtain rfl := hstuck.nothing_gone hgone.buffer hgone.ended hgone.small
  cases herror : (d.push bytes).2 with
  | none =>
    have hshort := (hgone.ok herror).2
    have hlong := hstuck.long
    have hbuffer : d.buffer ++ bytes = (d.push bytes).1.buffer := hgone.buffer
    rw [hbuffer] at hlong
    exact absurd hshort (Nat.not_le.mpr hlong)
  | some e => rw [(hgone.oversized e herror).1]

/-! ## Every call -/

/-- The buffer is the end of what was pushed; before it are the messages. -/
structure Inv (maxMessageBytes : Nat) (f : Feed) : Prop where
  bound : f.decoder.maxMessageBytes = maxMessageBytes
  ready : Ready f.decoder
  messages : ∃ gone, f.pushed = gone ++ f.decoder.buffer ∧ rest 0 [] gone = [] ∧
    lines 0 [] gone = f.taken ++ f.decoder.messages ∧
    ∀ piece ∈ lines 0 [] gone, piece.length ≤ maxMessageBytes
  ok : f.failed = false → 0 ∉ f.decoder.buffer ∧ f.decoder.buffer.length ≤ maxMessageBytes
  stuck : f.failed = true → Stuck f.decoder

theorem Inv.start (maxMessageBytes : Nat) : Inv maxMessageBytes (.start maxMessageBytes) where
  bound := rfl
  ready := ⟨Nat.le_refl _, nofun⟩
  messages := ⟨[], rfl, rfl, rfl, nofun⟩
  ok _ := ⟨nofun, Nat.zero_le _⟩
  stuck := nofun

theorem Inv.push {maxMessageBytes : Nat} {f : Feed} (h : Inv maxMessageBytes f)
    (bytes : List UInt8) : Inv maxMessageBytes (f.step (.push bytes)) := by
  by_cases hbytes : bytes = []
  · simpa [Feed.step, Decoder.push, hbytes] using h
  · obtain ⟨gone, hgone⟩ := push_spec h.ready hbytes
    obtain ⟨before, hpushed, hended, hlines, hsmall⟩ := h.messages
    refine ⟨hgone.bound.trans h.bound, hgone.ready, ⟨before ++ gone, ?_, ?_, ?_, ?_⟩, ?_, ?_⟩
    · have hleft : f.decoder.buffer ++ bytes = gone ++ (f.decoder.push bytes).1.buffer :=
        hgone.buffer
      simp only [Feed.step]
      rw [hpushed, List.append_assoc, hleft, List.append_assoc]
    · rw [rest_append, hended, hgone.ended]
    · simp only [Feed.step]
      rw [lines_append, hended, hgone.messages, hlines, List.append_assoc]
    · rw [lines_append, hended]
      intro piece hpiece
      obtain hpiece | hpiece := List.mem_append.mp hpiece
      · exact hsmall piece hpiece
      · exact h.bound ▸ hgone.small piece hpiece
    · intro hfailed
      simp only [Feed.step, Bool.or_eq_false_iff, Option.isSome_eq_false_iff,
        Option.isNone_iff_eq_none] at hfailed
      exact h.bound ▸ hgone.ok hfailed.2
    · intro hfailed
      have herror : (f.decoder.push bytes).2.isSome = true := by
        simp only [Feed.step, Bool.or_eq_true] at hfailed
        refine hfailed.elim (fun hbefore => ?_) id
        rw [push_stuck (h.stuck hbefore) h.ready hbytes]
        rfl
      obtain ⟨e, he⟩ := Option.isSome_iff_exists.mp herror
      obtain ⟨-, hlong, hunended⟩ := hgone.oversized e he
      exact ⟨hgone.bound.symm ▸ hlong, hgone.bound.symm ▸ hunended⟩

theorem Inv.takeMessages {maxMessageBytes : Nat} {f : Feed} (h : Inv maxMessageBytes f) :
    Inv maxMessageBytes (f.step .takeMessages) where
  bound := h.bound
  ready := ⟨h.ready.inside, h.ready.scanned⟩
  messages := by
    obtain ⟨gone, hpushed, hended, hlines, hsmall⟩ := h.messages
    exact ⟨gone, hpushed, hended, by simpa [Feed.step, Decoder.takeMessages] using hlines, hsmall⟩
  ok := h.ok
  stuck hfailed := ⟨(h.stuck hfailed).long, (h.stuck hfailed).unended⟩

theorem Inv.step {maxMessageBytes : Nat} (f : Feed) (call : DecoderCall)
    (h : Inv maxMessageBytes f) : Inv maxMessageBytes (f.step call) := by
  cases call with
  | push bytes => exact h.push bytes
  | takeMessages => exact h.takeMessages

theorem inv_feed (maxMessageBytes : Nat) (calls : List DecoderCall) :
    Inv maxMessageBytes (feed maxMessageBytes calls) :=
  invariant_run_all Inv.step (Inv.start maxMessageBytes) calls

/-! ## The stream -/

/-- A piece longer than the bound, at the beginning of a stream. -/
theorem long_piece {maxMessageBytes : Nat} {stream : List UInt8}
    (hlong : maxMessageBytes < stream.length)
    (hunended : 0 ∉ stream.take (maxMessageBytes + 1)) :
    0 ∉ stream ∨ ∃ piece later, lines 0 [] stream = piece :: lines 0 [] later ∧
      maxMessageBytes < piece.length := by
  by_cases hmem : 0 ∈ stream
  · obtain ⟨piece, later, rfl, hpiece⟩ := List.eq_append_cons_of_mem hmem
    refine .inr ⟨piece, later, lines_segment hpiece, ?_⟩
    by_contra hshort
    refine hunended (List.mem_take_iff_getElem.mpr ⟨piece.length, ?_, ?_⟩)
    · omega
    · simp
  · exact .inl hmem

theorem Inv.failed_iff {maxMessageBytes : Nat} {f : Feed} (h : Inv maxMessageBytes f) :
    f.failed = true ↔ ¬ Within maxMessageBytes f.pushed := by
  obtain ⟨gone, hpushed, hended, hlines, hsmall⟩ := h.messages
  rw [hpushed, Within, lines_append, rest_append, hended]
  cases hfailed : f.failed with
  | false =>
    obtain ⟨hnot, hshort⟩ := h.ok hfailed
    rw [lines_of_not_mem hnot, rest_of_not_mem hnot, List.append_nil]
    simpa using ⟨hsmall, hshort⟩
  | true =>
    refine iff_of_true rfl fun ⟨hpieces, hrest⟩ => ?_
    obtain ⟨hlong, hunended⟩ := h.stuck hfailed
    rw [h.bound] at hlong hunended
    obtain hnot | ⟨piece, later, hlater, hpiece⟩ := long_piece hlong hunended
    · rw [rest_of_not_mem hnot, List.nil_append] at hrest
      omega
    · have hle := hpieces piece (by rw [hlater]; simp)
      omega

theorem Inv.handed {maxMessageBytes : Nat} {f : Feed} (h : Inv maxMessageBytes f) :
    f.taken ++ f.decoder.messages = piecesBefore maxMessageBytes f.pushed := by
  obtain ⟨gone, hpushed, hended, hlines, hsmall⟩ := h.messages
  have hleft : (lines 0 [] f.decoder.buffer).takeWhile (·.length ≤ maxMessageBytes) = [] := by
    cases hfailed : f.failed with
    | false =>
      rw [lines_of_not_mem (h.ok hfailed).1]
      rfl
    | true =>
      obtain ⟨hlong, hunended⟩ := h.stuck hfailed
      rw [h.bound] at hlong hunended
      obtain hnot | ⟨piece, later, hlater, hpiece⟩ := long_piece hlong hunended
      · rw [lines_of_not_mem hnot]
        rfl
      · rw [hlater]
        exact List.takeWhile_cons_of_neg (by simpa using hpiece)
  rw [piecesBefore, hpushed, lines_append, hended, ← hlines,
    List.takeWhile_append_of_pos (by simpa using hsmall), hleft, List.append_nil]

theorem Inv.buffer_eq {maxMessageBytes : Nat} {f : Feed} (h : Inv maxMessageBytes f)
    (hfailed : f.failed = false) : f.decoder.buffer = rest 0 [] f.pushed := by
  obtain ⟨gone, hpushed, hended, -, -⟩ := h.messages
  rw [hpushed, rest_append, hended, rest_of_not_mem (h.ok hfailed).1, List.nil_append]

/-! ## The framing -/

theorem lines_encoded {bodies : List (List UInt8)} (h : ∀ body ∈ bodies, 0 ∉ body) :
    lines 0 [] (bodies.flatMap encodeMessage) = bodies := lines_flatMap h

theorem within_encoded {maxMessageBytes : Nat} {bodies : List (List UInt8)}
    (h : ∀ body ∈ bodies, 0 ∉ body ∧ body.length ≤ maxMessageBytes) :
    Within maxMessageBytes (bodies.flatMap encodeMessage) := by
  constructor
  · rw [lines_encoded fun body hbody => (h body hbody).1]
    exact fun body hbody => (h body hbody).2
  · rw [show rest 0 [] (bodies.flatMap encodeMessage) = [] from rest_flatMap bodies]
    exact Nat.zero_le _

theorem piecesBefore_encoded {maxMessageBytes : Nat} {bodies : List (List UInt8)}
    (h : ∀ body ∈ bodies, 0 ∉ body ∧ body.length ≤ maxMessageBytes) :
    piecesBefore maxMessageBytes (bodies.flatMap encodeMessage) = bodies := by
  rw [piecesBefore, lines_encoded fun body hbody => (h body hbody).1]
  rw [List.takeWhile_eq_self_iff]
  exact fun body hbody => by simpa using (h body hbody).2

/-- **Framing.**  The messages that were taken and those that are left are the pieces
before the first piece longer than the bound.  A push failed just when there is such a
piece, and from then on every push fails that is not empty.  As long as none failed, the
tail is within the bound; and messages that were encoded come back. -/
theorem framing (maxMessageBytes : Nat) (calls : List DecoderCall) :
    (feed maxMessageBytes calls).taken ++
        (feed maxMessageBytes calls).decoder.takeMessages.2 =
      piecesBefore maxMessageBytes (feed maxMessageBytes calls).pushed ∧
    ((feed maxMessageBytes calls).failed = true ↔
      ¬ Within maxMessageBytes (feed maxMessageBytes calls).pushed) ∧
    ((feed maxMessageBytes calls).failed = true → ∀ bytes, bytes ≠ [] →
      ((feed maxMessageBytes calls).decoder.push bytes).2 =
        some (.oversizedMessage maxMessageBytes)) ∧
    ((feed maxMessageBytes calls).failed = false →
      (feed maxMessageBytes calls).decoder.bufferedBytes ≤ maxMessageBytes) ∧
    ∀ bodies : List (List UInt8), (∀ body ∈ bodies, 0 ∉ body ∧ body.length ≤ maxMessageBytes) →
      (feed maxMessageBytes calls).pushed = bodies.flatMap encodeMessage →
        (feed maxMessageBytes calls).failed = false ∧
        (feed maxMessageBytes calls).taken ++
          (feed maxMessageBytes calls).decoder.takeMessages.2 = bodies ∧
        (feed maxMessageBytes calls).decoder.bufferedBytes = 0 := by
  have h := inv_feed maxMessageBytes calls
  refine ⟨h.handed, h.failed_iff, ?_, fun hfailed => (h.ok hfailed).2, ?_⟩
  · intro hfailed bytes hbytes
    rw [push_stuck (h.stuck hfailed) h.ready hbytes, h.bound]
  · intro bodies hbodies hpushed
    have hok : (feed maxMessageBytes calls).failed = false := by
      have hfailed := h.failed_iff
      rw [hpushed] at hfailed
      simpa [within_encoded hbodies] using hfailed
    refine ⟨hok, ?_, ?_⟩
    · rw [← piecesBefore_encoded hbodies, ← hpushed]
      exact h.handed
    · have hrest : rest 0 [] (bodies.flatMap encodeMessage) = [] := rest_flatMap bodies
      rw [Decoder.bufferedBytes, h.buffer_eq hok, hpushed, hrest, List.length_nil]

/-- A push that fails can complete messages first, which nobody takes; and after it an
empty push is a success. -/
theorem message_before_the_error :
    (feed 0 [.push [0, 1]]).failed = true ∧ (feed 0 [.push [0, 1]]).taken = [] ∧
    piecesBefore 0 (feed 0 [.push [0, 1]]).pushed = [[]] ∧
    ((feed 0 [.push [0, 1]]).decoder.push []).2 = none ∧
    ((feed 0 [.push [0, 1]]).decoder.push []).1.bufferedBytes = 1 := by
  have hscan : Decoder.scan ⟨0, [0, 1], 0, []⟩ =
      (⟨0, [1], 0, [[]]⟩, some (.oversizedMessage 0)) := by
    rw [Decoder.scan]
    split
    next relative hpos =>
      obtain rfl : 0 = relative := Option.some.inj hpos
      rw [if_neg (Nat.lt_irrefl 0), Decoder.scan]
      split
      next hpos => exact nomatch hpos
      next => rfl
    next hpos => exact nomatch hpos
  simp [feed, Feed.step, Feed.start, Decoder.new, Decoder.push, hscan,
    Decoder.bufferedBytes, piecesBefore, lines]

end Kwe.Cdp
