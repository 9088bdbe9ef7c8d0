import Kwe.Display.System

/-!
Where the files and generations come from that the session knows: every pair
of them, in the session or on its way, was shown by the supervisor, and a pair
that is acknowledged was copied from (`System.Traced`).

`Past` holds of the states that the supervisor has been in, `Copied` of the
paths that the surface has shown.  `traced_step` says that every move keeps
this.
-/

namespace Kwe.Display

open Foundation Foundation.Runs Kwe.Frames Kwe.Supervisor

/-! ## The session's own fields -/

/-- What is shown and what was validated stay; an acknowledgement is begun for
a validated file only. -/
structure DisplaySession.Keeps (s s' : DisplaySession) : Prop where
  frameFile : s'.frameFile = s.frameFile
  displayGeneration : s'.displayGeneration = s.displayGeneration
  validatedFrameFile : s'.validatedFrameFile = s.validatedFrameFile
  validatedGeneration : s'.validatedGeneration = s.validatedGeneration
  awaitingDisplayAck : s'.awaitingDisplayAck = s.awaitingDisplayAck
  requestId : s.requestId ≤ s'.requestId
  requestKind : s'.requestKind = .acknowledge →
    s.requestKind = .acknowledge ∨ s.validatedFrameFile ≠ ""

namespace DisplaySession

theorem Keeps.trans {s s' s'' : DisplaySession} (h : s.Keeps s') (h' : s'.Keeps s'') :
    s.Keeps s'' where
  frameFile := h'.frameFile.trans h.frameFile
  displayGeneration := h'.displayGeneration.trans h.displayGeneration
  validatedFrameFile := h'.validatedFrameFile.trans h.validatedFrameFile
  validatedGeneration := h'.validatedGeneration.trans h.validatedGeneration
  awaitingDisplayAck := h'.awaitingDisplayAck.trans h.awaitingDisplayAck
  requestId := h.requestId.trans h'.requestId
  requestKind := fun hkind => (h'.requestKind hkind).elim h.requestKind fun hne =>
    Or.inr (h.validatedFrameFile ▸ hne)

theorem validatedSourceIsCurrent_iff (s : DisplaySession) :
    s.validatedSourceIsCurrent = true ↔ s.validatedFrameFile ≠ "" ∧
      s.validatedFrameFile = s.frameFile ∧ s.validatedGeneration = s.displayGeneration := by
  simp [validatedSourceIsCurrent, and_assoc]

theorem failRequest_keeps (message : String) (s : DisplaySession) :
    s.Keeps (s.failRequest message) :=
  ⟨rfl, rfl, rfl, rfl, rfl, le_rfl, fun hkind => by cases hkind⟩

theorem finishRequest_keeps (s : DisplaySession) : s.Keeps s.finishRequest :=
  ⟨rfl, rfl, rfl, rfl, rfl, le_rfl, fun hkind => by cases hkind⟩

theorem startRequest_keeps {kind : RequestKind} {s : DisplaySession}
    (h : kind = .acknowledge → s.validatedFrameFile ≠ "") : s.Keeps (s.startRequest kind) := by
  unfold startRequest
  split
  · exact ⟨rfl, rfl, rfl, rfl, rfl, le_rfl, Or.inl⟩
  · split
    · exact failRequest_keeps _ s
    · dsimp only
      split <;> exact ⟨rfl, rfl, rfl, rfl, rfl, le_rfl, fun hkind => Or.inr (h hkind)⟩

theorem refresh_keeps (s : DisplaySession) : s.Keeps s.refresh := by
  unfold refresh
  split
  · exact ⟨rfl, rfl, rfl, rfl, rfl, le_rfl, Or.inl⟩
  · split
    next hdue =>
      simp only [Bool.and_eq_true] at hdue
      exact startRequest_keeps fun _ => ((validatedSourceIsCurrent_iff s).mp hdue.1.2).1
    next => exact startRequest_keeps fun hkind => by cases hkind

theorem sendRequest_keeps (s : DisplaySession) : s.Keeps s.sendRequest.1 := by
  unfold sendRequest
  split
  · exact failRequest_keeps _ s
  · dsimp only
    split <;> exact ⟨rfl, rfl, rfl, rfl, rfl, Nat.le_succ _, Or.inl⟩

theorem renewAck_keeps (s : DisplaySession) : s.Keeps s.renewAck :=
  ⟨rfl, rfl, rfl, rfl, rfl, le_rfl, Or.inl⟩

/-- The request has the next number; an acknowledgement names the generation
that was validated. -/
theorem sendRequest_request {s : DisplaySession} {r : Request}
    (h : s.sendRequest.2 = some r) :
    s.sendRequest.1.requestId = s.requestId + 1 ∧ r.id = s.requestId + 1 ∧
      ∀ generation, r.method = .acknowledge generation →
        s.requestKind = .acknowledge ∧ generation = s.validatedGeneration := by
  by_cases hlast : 2 ^ 63 - 1 ≤ s.requestId
  · rw [sendRequest, if_pos hlast] at h
    cases h
  · rw [sendRequest, if_neg hlast] at h ⊢
    dsimp only at h ⊢
    by_cases hkind : s.requestKind = .acknowledge
    · rw [if_pos hkind] at h ⊢
      obtain rfl := Option.some.inj h
      exact ⟨rfl, rfl, fun generation hg => ⟨hkind, by cases hg; rfl⟩⟩
    · rw [if_neg hkind] at h ⊢
      obtain rfl := Option.some.inj h
      exact ⟨rfl, rfl, fun generation hg => by cases hg⟩

/-- A status says nothing of what is validated or in flight. -/
structure Takes (awaiting : Bool) (s s' : DisplaySession) : Prop where
  frameFile : s'.frameFile = s.frameFile
  displayGeneration : s'.displayGeneration = s.displayGeneration
  validatedFrameFile : s'.validatedFrameFile = s.validatedFrameFile
  validatedGeneration : s'.validatedGeneration = s.validatedGeneration
  awaitingDisplayAck : s'.awaitingDisplayAck = awaiting
  requestId : s'.requestId = s.requestId
  requestKind : s'.requestKind = s.requestKind

theorem takeStatus_takes (phase scaling : String) (awaiting hasSource : Bool)
    (s : DisplaySession) : s.Takes awaiting (s.takeStatus phase scaling awaiting hasSource) := by
  unfold takeStatus setAwaitingDisplayAck
  dsimp only
  split
  next h => exact ⟨rfl, rfl, rfl, rfl, h, rfl, rfl⟩
  next => exact ⟨rfl, rfl, rfl, rfl, rfl, rfl, rfl⟩

/-- The frame file that is shown is validated, and acknowledged if that is
waited for. -/
theorem acknowledgeFrameFile_eq {s : DisplaySession} (hfile : s.frameFile ≠ "")
    (hgeneration : s.displayGeneration ≠ 0) :
    s.acknowledgeFrameFile s.frameFile =
      let s' := { s with
        validatedFrameFile := s.frameFile, validatedGeneration := s.displayGeneration }
      if s.awaitingDisplayAck then { s' with ackPending := true }.startRequest .acknowledge
      else s' := by
  unfold acknowledgeFrameFile
  rw [if_neg (by simp [hfile, hgeneration])]

theorem failRequest_awaits (message : String) (s : DisplaySession) (id : Nat) :
    (s.failRequest message).awaits id = false := rfl

theorem finishRequest_awaits (s : DisplaySession) (id : Nat) :
    s.finishRequest.awaits id = false := rfl

/-- A request that is begun waits for no reply yet. -/
theorem startRequest_awaits {kind : RequestKind} {s : DisplaySession} {id : Nat}
    (h : (s.startRequest kind).awaits id = true) : s.awaits id = true := by
  unfold startRequest at h
  split at h
  · exact h
  · split at h
    · cases h
    · dsimp only at h
      split at h <;> simp [awaits, setState] at h

theorem refresh_awaits {s : DisplaySession} {id : Nat} (h : s.refresh.awaits id = true) :
    s.awaits id = true := by
  unfold refresh at h
  split at h
  · exact h
  · split at h <;> exact startRequest_awaits h

theorem acknowledgeFrameFile_awaits {s : DisplaySession} {path : String} {id : Nat}
    (h : (s.acknowledgeFrameFile path).awaits id = true) : s.awaits id = true := by
  unfold acknowledgeFrameFile at h
  split at h
  · exact h
  · dsimp only at h
    split at h
    · have hstarted := startRequest_awaits h
      exact hstarted
    · exact h

theorem startRequest_same (kind : RequestKind) (s : DisplaySession) :
    (s.startRequest kind).frameFile = s.frameFile ∧
      (s.startRequest kind).displayGeneration = s.displayGeneration ∧
      (s.startRequest kind).awaitingDisplayAck = s.awaitingDisplayAck ∧
      (s.startRequest kind).requestId = s.requestId := by
  unfold startRequest
  split
  · exact ⟨rfl, rfl, rfl, rfl⟩
  · split
    · exact ⟨rfl, rfl, rfl, rfl⟩
    · dsimp only
      split <;> exact ⟨rfl, rfl, rfl, rfl⟩

theorem acknowledgeFrameFile_same (s : DisplaySession) (path : String) :
    (s.acknowledgeFrameFile path).frameFile = s.frameFile ∧
      (s.acknowledgeFrameFile path).displayGeneration = s.displayGeneration ∧
      (s.acknowledgeFrameFile path).awaitingDisplayAck = s.awaitingDisplayAck ∧
      (s.acknowledgeFrameFile path).requestId = s.requestId := by
  unfold acknowledgeFrameFile
  split
  · exact ⟨rfl, rfl, rfl, rfl⟩
  · dsimp only
    split
    · exact startRequest_same _ _
    · exact ⟨rfl, rfl, rfl, rfl⟩

end DisplaySession

/-- What the surface tells the session changes neither its source nor what it
has heard. -/
theorem Screen.onSurface_same (f : Surface → Surface) (d : Screen) :
    (d.onSurface f).session.frameFile = d.session.frameFile ∧
      (d.onSurface f).session.displayGeneration = d.session.displayGeneration ∧
      (d.onSurface f).session.awaitingDisplayAck = d.session.awaitingDisplayAck ∧
      (d.onSurface f).session.requestId = d.session.requestId := by
  unfold Screen.onSurface
  dsimp only
  generalize (f d.surface).opened.drop d.surface.opened.length = told
  generalize d.session = s
  induction told generalizing s with
  | nil => exact ⟨rfl, rfl, rfl, rfl⟩
  | cons path told ih =>
    obtain ⟨hfile, hgeneration, hawaiting, hid⟩ := s.acknowledgeFrameFile_same path
    rw [List.foldl_cons, ← hfile, ← hgeneration, ← hawaiting, ← hid]
    exact ih _

/-! ## What is known was shown -/

section Traced

variable (paths : FramePaths) (Past : Supervisor.State → Prop) (Copied : String → Prop)

/-- In one of the states `Past`, the supervisor showed the process with this
frame file at this generation. -/
def Sourced (file : String) (generation : Nat) : Prop :=
  ∃ s child, Past s ∧ s.source = some child ∧ file = paths.path child ∧
    generation = s.displayGeneration

structure Screen.Traced (d : Screen) : Prop where
  told : d.surface.Told
  source : d.session.frameFile ≠ "" →
    Sourced paths Past d.session.frameFile d.session.displayGeneration ∧
      d.session.displayGeneration ≠ 0 ∧ d.session.displayGeneration < 2 ^ 63
  validated : d.session.validatedFrameFile ≠ "" →
    Sourced paths Past d.session.validatedFrameFile d.session.validatedGeneration ∧
      Copied d.session.validatedFrameFile
  acknowledging : d.session.requestKind = .acknowledge → d.session.validatedFrameFile ≠ ""

/-- A request has a number given out; one that acknowledges names what was
copied from. -/
def RequestTraced (d : Screen) (r : Request) : Prop :=
  r.id ≤ d.session.requestId ∧ ∀ generation, r.method = .acknowledge generation →
    ∃ file, Sourced paths Past file generation ∧ Copied file

def ReplyTraced (d : Screen) (r : Nat × Reply) : Prop :=
  r.1 ≤ d.session.requestId ∧ ∀ status, r.2 = .ok status →
    ∃ s, Past s ∧ status = statusReply paths s

structure System.Traced (w : System) : Prop where
  slots : w.supervisor.toSlots.Inv
  now : Past w.supervisor
  screen : w.screen.Traced paths Past Copied
  bound : w.screen.surface.frameFile = w.screen.session.frameFile
  showing : ∀ path, w.screen.surface.Shows path → Copied path
  wire : ∀ r ∈ w.wire, RequestTraced paths Past Copied w.screen r
  replies : ∀ r ∈ w.replies, ReplyTraced paths Past w.screen r

end Traced

section Screen

variable {paths : FramePaths} {Past Past' : Supervisor.State → Prop} {Copied Copied' : String → Prop}

theorem Sourced.mono {file : String} {generation : Nat} (hPast : ∀ s, Past s → Past' s)
    (h : Sourced paths Past file generation) : Sourced paths Past' file generation := by
  obtain ⟨s, child, hs, h⟩ := h
  exact ⟨s, child, hPast s hs, h⟩

theorem Screen.Traced.mono {d : Screen} (hPast : ∀ s, Past s → Past' s)
    (hCopied : ∀ path, Copied path → Copied' path) (h : d.Traced paths Past Copied) :
    d.Traced paths Past' Copied' where
  told := h.told
  source := fun hne => ⟨(h.source hne).1.mono hPast, (h.source hne).2⟩
  validated := fun hne => ⟨(h.validated hne).1.mono hPast, hCopied _ (h.validated hne).2⟩
  acknowledging := h.acknowledging

theorem Screen.Traced.session {d : Screen} {s' : DisplaySession} (h : d.Traced paths Past Copied)
    (hkeeps : d.session.Keeps s') : Screen.Traced paths Past Copied { d with session := s' } where
  told := h.told
  source := fun hne => by
    dsimp only at hne ⊢
    rw [hkeeps.frameFile] at hne ⊢
    rw [hkeeps.displayGeneration]
    exact h.source hne
  validated := fun hne => by
    dsimp only at hne ⊢
    rw [hkeeps.validatedFrameFile] at hne ⊢
    rw [hkeeps.validatedGeneration]
    exact h.validated hne
  acknowledging := fun hkind => by
    dsimp only at hkind ⊢
    rw [hkeeps.validatedFrameFile]
    exact (hkeeps.requestKind hkind).elim h.acknowledging id

/-- A file that was copied from is acknowledged. -/
theorem Screen.Traced.acknowledge {d : Screen} {path : String} (h : d.Traced paths Past Copied)
    (hcopied : Copied path) :
    Screen.Traced paths Past Copied
      { d with session := d.session.acknowledgeFrameFile path } := by
  by_cases hguard : path = "" ∨ path ≠ d.session.frameFile ∨ d.session.displayGeneration = 0
  · rw [DisplaySession.acknowledgeFrameFile, if_pos hguard]
    exact h
  · simp only [not_or, not_not] at hguard
    obtain ⟨hne, rfl, hgeneration⟩ := hguard
    rw [DisplaySession.acknowledgeFrameFile_eq hne hgeneration]
    have hvalid : Screen.Traced paths Past Copied { d with
        session := { d.session with
          validatedFrameFile := d.session.frameFile
          validatedGeneration := d.session.displayGeneration } } :=
      ⟨h.told, h.source, fun _ => ⟨(h.source hne).1, hcopied⟩, fun _ => hne⟩
    dsimp only
    split
    · have hpending : Screen.Traced paths Past Copied { d with
          session := { d.session with
            validatedFrameFile := d.session.frameFile
            validatedGeneration := d.session.displayGeneration
            ackPending := true } } :=
        hvalid.session ⟨rfl, rfl, rfl, rfl, rfl, le_rfl, Or.inl⟩
      exact hpending.session (DisplaySession.startRequest_keeps fun _ => hne)
    · exact hvalid

theorem Screen.Traced.onSurface {d : Screen} {f : Surface → Surface}
    (h : d.Traced paths Past Copied) (hturns : d.surface.Turns (f d.surface))
    (hcopied : ∀ path, (f d.surface).Shows path → Copied path) :
    (d.onSurface f).Traced paths Past Copied := by
  have hsurface : ∀ {d' : Screen}, d'.Traced paths Past Copied →
      Screen.Traced paths Past Copied { d' with surface := f d.surface } :=
    fun h' => ⟨hturns.told, h'.source, h'.validated, h'.acknowledging⟩
  have heq : d.onSurface f = { session := (d.onSurface f).session, surface := f d.surface } := rfl
  rcases Screen.onSurface_cases hturns with ⟨hsession, -⟩ | ⟨hsession, hshows⟩
  · rw [heq, hsession]
    exact hsurface h
  · rw [heq, hsession]
    exact hsurface (h.acknowledge (hcopied _ hshows))

/-- What a status of the supervisor does to the session: its generation has to
be a number that the session can hold, and not zero beside a frame file. -/
theorem applyStatus_statusReply (look : Look) (s : Supervisor.State) (d : Screen) :
    d.applyStatus look (statusReply paths s) =
      if 2 ^ 63 ≤ s.displayGeneration then
        .error "The wallpaper service returned an invalid display generation."
      else if s.source.isSome ∧ s.displayGeneration = 0 then
        .error "The wallpaper service returned an incomplete display source."
      else .ok (d.adopt look (phaseName s.phase) ((s.source.map paths.path).getD "")
        (scalingName (Supervisor.status s).scaling) s.displayGeneration s.retired.isSome) := by
  have hphase : knownPhase (phaseName s.phase) = true := by cases s.phase <;> decide
  unfold Screen.applyStatus statusReply
  simp only [hphase, not_true_eq_false, if_false]
  by_cases hlarge : 2 ^ 63 ≤ s.displayGeneration
  · rw [if_neg (Nat.not_lt.mpr hlarge), if_pos hlarge, if_pos (by decide)]
  · rw [if_pos (Nat.not_le.mp hlarge), if_neg hlarge, if_neg (by omega)]
    cases hsource : s.source with
    | none => simp
    | some child => simp [paths.nonempty child]

theorem Screen.adopt_same {d : Screen} (look : Look) (phase frameFile scaling : String)
    (generation : Nat) (awaiting : Bool) (hbound : d.surface.frameFile = d.session.frameFile) :
    (d.adopt look phase frameFile scaling generation awaiting).surface.frameFile =
        (d.adopt look phase frameFile scaling generation awaiting).session.frameFile ∧
      (d.adopt look phase frameFile scaling generation awaiting).session.requestId =
        d.session.requestId := by
  have htakes := d.session.takeStatus_takes phase scaling awaiting
    (frameFile ≠ "" && generation ≠ 0)
  unfold Screen.adopt
  dsimp only
  split
  · obtain ⟨hfile, -, -, hid⟩ := Screen.onSurface_same (Surface.setFrameFile frameFile look)
      { d with session := { d.session.takeStatus phase scaling awaiting
        (frameFile ≠ "" && generation ≠ 0) with
          frameFile := frameFile, displayGeneration := generation } }
    exact ⟨(Surface.setFrameFile_frameFile _ _ _).trans hfile.symm, hid.trans htakes.requestId⟩
  · exact ⟨hbound.trans htakes.frameFile.symm, htakes.requestId⟩

/-- The session takes a source that the supervisor showed. -/
theorem Screen.Traced.adopt {d : Screen} {look : Look} {phase frameFile scaling : String}
    {generation : Nat} {awaiting : Bool} (h : d.Traced paths Past Copied)
    (hsource : frameFile ≠ "" → Sourced paths Past frameFile generation)
    (hlarge : generation < 2 ^ 63)
    (hcopied : ∀ path, (d.adopt look phase frameFile scaling generation awaiting).surface.Shows path →
      Copied path) :
    (d.adopt look phase frameFile scaling generation awaiting).Traced paths Past Copied := by
  have htakes := d.session.takeStatus_takes phase scaling awaiting
    (frameFile ≠ "" && generation ≠ 0)
  have hvalidated : _ → _ ∧ _ := h.validated
  have hacknowledging := h.acknowledging
  rw [← htakes.validatedFrameFile, ← htakes.validatedGeneration] at hvalidated
  rw [← htakes.validatedFrameFile, ← htakes.requestKind] at hacknowledging
  unfold Screen.adopt at hcopied ⊢
  dsimp only at hcopied ⊢
  generalize d.session.takeStatus phase scaling awaiting
    (frameFile ≠ "" && generation ≠ 0) = session at *
  split at hcopied
  next hnew =>
    rw [if_pos hnew]
    simp only [Bool.and_eq_true, decide_eq_true_eq] at hnew
    obtain ⟨⟨hfile, hgeneration⟩, -⟩ := hnew
    refine Screen.Traced.session (Screen.Traced.onSurface ?_
      (Surface.turns_setFrameFile h.told frameFile look) hcopied) (DisplaySession.renewAck_keeps _)
    exact ⟨h.told, fun _ => ⟨hsource hfile, hgeneration, hlarge⟩, hvalidated, hacknowledging⟩
  next hold =>
    rw [if_neg hold]
    have hsourced := h.source
    rw [← htakes.frameFile, ← htakes.displayGeneration] at hsourced
    exact Screen.Traced.session ⟨h.told, hsourced, hvalidated, hacknowledging⟩
      (DisplaySession.renewAck_keeps _)

/-- A status of the supervisor fails the request, or is taken and ends it. -/
theorem Screen.consumeResponse_cases (paths : FramePaths) (look : Look) (s : Supervisor.State) (d : Screen) :
    (∃ message, d.consumeResponse look (.ok (statusReply paths s)) =
      { d with session := d.session.failRequest message }) ∨
    s.displayGeneration < 2 ^ 63 ∧ ∃ phase scaling,
      let d' := d.adopt look phase ((s.source.map paths.path).getD "") scaling
        s.displayGeneration s.retired.isSome
      d.consumeResponse look (.ok (statusReply paths s)) =
        { d' with session := d'.session.finishRequest } := by
  unfold Screen.consumeResponse
  dsimp only
  rw [applyStatus_statusReply]
  by_cases hlarge : 2 ^ 63 ≤ s.displayGeneration
  · rw [if_pos hlarge]
    exact Or.inl ⟨_, rfl⟩
  · rw [if_neg hlarge]
    by_cases hzero : s.source.isSome ∧ s.displayGeneration = 0
    · rw [if_pos hzero]
      exact Or.inl ⟨_, rfl⟩
    · rw [if_neg hzero]
      exact Or.inr ⟨Nat.not_le.mp hlarge, _, _, rfl⟩

theorem Screen.consumeResponse_same {d : Screen} (look : Look) {reply : Reply}
    (hbound : d.surface.frameFile = d.session.frameFile)
    (hreply : ∀ status, reply = .ok status → ∃ s, Past s ∧ status = statusReply paths s) :
    (d.consumeResponse look reply).surface.frameFile =
        (d.consumeResponse look reply).session.frameFile ∧
      (d.consumeResponse look reply).session.requestId = d.session.requestId := by
  cases reply with
  | error detail => exact ⟨hbound, rfl⟩
  | ok status =>
    obtain ⟨s, -, rfl⟩ := hreply status rfl
    rcases Screen.consumeResponse_cases paths look s d with
      ⟨message, heq⟩ | ⟨-, phase, scaling, heq⟩
    · rw [heq]
      exact ⟨hbound, rfl⟩
    · rw [heq]
      exact Screen.adopt_same look phase _ scaling _ _ hbound

theorem Screen.Traced.consumeResponse {d : Screen} {look : Look} {reply : Reply}
    (h : d.Traced paths Past Copied)
    (hreply : ∀ status, reply = .ok status → ∃ s, Past s ∧ status = statusReply paths s)
    (hcopied : ∀ path, (d.consumeResponse look reply).surface.Shows path → Copied path) :
    (d.consumeResponse look reply).Traced paths Past Copied := by
  cases reply with
  | error detail => exact h.session (DisplaySession.failRequest_keeps _ _)
  | ok status =>
    obtain ⟨s, hs, rfl⟩ := hreply status rfl
    rcases Screen.consumeResponse_cases paths look s d with
      ⟨message, heq⟩ | ⟨hlarge, phase, scaling, heq⟩
    · rw [heq]
      exact h.session (DisplaySession.failRequest_keeps _ _)
    · rw [heq] at hcopied ⊢
      refine (h.adopt ?_ hlarge hcopied).session (DisplaySession.finishRequest_keeps _)
      intro hfile
      cases hsource : s.source with
      | none => simp [hsource] at hfile
      | some child => exact ⟨s, child, hs, hsource, rfl, rfl⟩

end Screen

/-! ### One move -/

section Move

variable {cfg : Config} {paths : FramePaths} {Past Past' : Supervisor.State → Prop}
  {Copied Copied' : String → Prop} {w : System}

theorem System.Traced.mono (hPast : ∀ s, Past s → Past' s)
    (hCopied : ∀ path, Copied path → Copied' path) (h : w.Traced paths Past Copied) :
    w.Traced paths Past' Copied' where
  slots := h.slots
  now := hPast _ h.now
  screen := h.screen.mono hPast hCopied
  bound := h.bound
  showing := fun path hshows => hCopied path (h.showing path hshows)
  wire := fun r hr => ⟨(h.wire r hr).1, fun generation hg => by
    obtain ⟨file, hsourced, hcopied⟩ := (h.wire r hr).2 generation hg
    exact ⟨file, hsourced.mono hPast, hCopied file hcopied⟩⟩
  replies := fun r hr => ⟨(h.replies r hr).1, fun status hstatus => by
    obtain ⟨s, hs, heq⟩ := (h.replies r hr).2 status hstatus
    exact ⟨s, hPast s hs, heq⟩⟩

/-- The screen changes, and keeps the numbers given out. -/
theorem System.Traced.screen_move {d : Screen} (h : w.Traced paths Past Copied)
    (hscreen : d.Traced paths Past Copied) (hbound : d.surface.frameFile = d.session.frameFile)
    (hshowing : ∀ path, d.surface.Shows path → Copied path)
    (hid : w.screen.session.requestId ≤ d.session.requestId) :
    System.Traced paths Past Copied { w with screen := d } where
  slots := h.slots
  now := h.now
  screen := hscreen
  bound := hbound
  showing := hshowing
  wire := fun r hr => ⟨(h.wire r hr).1.trans hid, (h.wire r hr).2⟩
  replies := fun r hr => ⟨(h.replies r hr).1.trans hid, (h.replies r hr).2⟩

theorem System.Traced.session_move {s' : DisplaySession} (h : w.Traced paths Past Copied)
    (hkeeps : w.screen.session.Keeps s') :
    System.Traced paths Past Copied { w with screen := { w.screen with session := s' } } :=
  h.screen_move (h.screen.session hkeeps) (h.bound.trans hkeeps.frameFile.symm) h.showing
    hkeeps.requestId

theorem System.Traced.surface_move {f : Surface → Surface} (h : w.Traced paths Past Copied)
    (hturns : w.screen.surface.Turns (f w.screen.surface))
    (hfile : (f w.screen.surface).frameFile = w.screen.surface.frameFile)
    (hcopied : ∀ path, (f w.screen.surface).Shows path → Copied path) :
    (w.onScreen (Screen.onSurface f)).Traced paths Past Copied := by
  obtain ⟨hsame, -, -, hid⟩ := Screen.onSurface_same f w.screen
  exact h.screen_move (h.screen.onSurface hturns hcopied) (hfile.trans (h.bound.trans hsame.symm))
    hcopied hid.ge

/-- The supervisor has taken an input, and a reply of its new state may be
under way. -/
theorem System.Traced.supervisor_move {s' : Supervisor.State} (h : w.Traced paths Past Copied)
    (hslots : s'.toSlots.Inv) (hnow : Past s') :
    System.Traced paths Past Copied { w with supervisor := s' } :=
  ⟨hslots, hnow, h.screen, h.bound, h.showing, h.wire, h.replies⟩

theorem System.Traced.reply_move {k id : Nat} {method : Method} {reply : Reply}
    (h : w.Traced paths Past Copied) (hk : w.wire[k]? = some ⟨id, method⟩)
    (hreply : ∀ status, reply = .ok status → ∃ s, Past s ∧ status = statusReply paths s) :
    System.Traced paths Past Copied
      { w with wire := w.wire.eraseIdx k, replies := w.replies ++ [(id, reply)] } where
  slots := h.slots
  now := h.now
  screen := h.screen
  bound := h.bound
  showing := h.showing
  wire := fun r hr => h.wire r (List.mem_of_mem_eraseIdx hr)
  replies := fun r hr => by
    rcases List.mem_append.mp hr with hr | hr
    · exact h.replies r hr
    · obtain rfl := List.mem_singleton.mp hr
      exact ⟨(h.wire _ (List.mem_of_getElem? hk)).1, hreply⟩

/-- **Every move.** -/
theorem traced_step {m : Move} (h : w.Traced paths Past Copied)
    (hnow : Past (w.step cfg paths m).supervisor)
    (hcopied : ∀ path, (w.step cfg paths m).screen.surface.Shows path → Copied path) :
    (w.step cfg paths m).Traced paths Past Copied := by
  cases m with
  | supervise i hi => exact h.supervisor_move (inv_step i h.slots) hnow
  | refresh => exact h.session_move (DisplaySession.refresh_keeps _)
  | connected =>
    simp only [System.step] at hnow hcopied ⊢
    split
    next =>
      have hkeeps := w.screen.session.sendRequest_keeps
      have hsent := h.session_move hkeeps
      refine { hsent with wire := ?_ }
      intro r hr
      rcases List.mem_append.mp hr with hr | hr
      · exact hsent.wire r hr
      · obtain ⟨hid, hr', hmethod⟩ :=
          DisplaySession.sendRequest_request (Option.mem_toList.mp hr)
        refine ⟨hr'.trans_le hid.ge, fun generation hg => ?_⟩
        obtain ⟨hkind, rfl⟩ := hmethod generation hg
        exact ⟨_, h.screen.validated (h.screen.acknowledging hkind)⟩
    next => exact h
  | fail message =>
    simp only [System.step]
    split
    · exact h.session_move (DisplaySession.failRequest_keeps _ _)
    · exact h
  | serve k io =>
    simp only [System.step, System.serve] at hnow ⊢
    rcases hk : w.wire[k]? with _ | ⟨id, method⟩
    · exact h
    · rw [hk] at hnow
      cases method with
      | status =>
        exact h.reply_move hk fun status hstatus => by
          cases hstatus
          exact ⟨_, h.now, rfl⟩
      | acknowledge generation =>
        have hstepped := h.supervisor_move
          (@inv_step cfg _ (.acknowledge generation io) h.slots) hnow
        refine hstepped.reply_move hk fun status hstatus => ?_
        cases hanswer : (Supervisor.reply cfg w.supervisor
            (.acknowledge generation io)).getD (.error "") with
        | error detail =>
          rw [hanswer] at hstatus
          cases hstatus
        | ok _ =>
          rw [hanswer] at hstatus
          cases hstatus
          exact ⟨_, hnow, rfl⟩
  | deliver k look =>
    simp only [System.step, System.deliver] at hcopied ⊢
    rcases hk : w.replies[k]? with _ | ⟨id, reply⟩
    · exact h
    · rw [hk] at hcopied
      have herased : System.Traced paths Past Copied
          { w with replies := w.replies.eraseIdx k } :=
        ⟨h.slots, h.now, h.screen, h.bound, h.showing, h.wire,
          fun r hr => h.replies r (List.mem_of_mem_eraseIdx hr)⟩
      dsimp only at hcopied ⊢
      split
      next hawaits =>
        rw [if_pos hawaits] at hcopied
        have hreply := (h.replies _ (List.mem_of_getElem? hk)).2
        obtain ⟨hbound, hid⟩ := Screen.consumeResponse_same look h.bound hreply
        exact herased.screen_move (h.screen.consumeResponse hreply hcopied) hbound hcopied hid.ge
      next => exact herased
  | reopen look =>
    exact h.surface_move (Surface.turns_reopen h.screen.told look)
      (Surface.reopen_frameFile _ look) hcopied
  | pollFrame aged views =>
    exact h.surface_move (Surface.turns_pollFrame h.screen.told aged views)
      (Surface.pollFrame_frameFile _ aged views) hcopied

end Move

end Kwe.Display
