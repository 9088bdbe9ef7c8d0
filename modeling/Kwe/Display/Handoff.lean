import Kwe.Display.Coherence
import Kwe.Foundation.Histories

/-!
The handoff: what an acknowledgement that the supervisor accepts says of the
display, and when the display sends one.

* `reached_known`: what a session knows holds in every run;
* `Stage.next`: how far the session is from its acknowledgement, move by move;
* `handoff_heard`: both, for every run.
-/

namespace Kwe.Display

open Foundation Foundation.Runs Kwe.Frames Kwe.Supervisor

/-! ## Every run -/

section Reached

variable (cfg : Config) (paths : FramePaths) (persisted : PersistedState) (socketPath : String)

/-- In the run, some state of the system meets `P`. -/
abbrev SeenIn (P : System → Prop) (moves : List Move) : Prop :=
  Seen (System.step cfg paths) P (System.new persisted socketPath) moves

theorem reached_known (moves : List Move) :
    let Past := fun s => SeenIn cfg paths persisted socketPath (fun w => w.supervisor = s) moves
    let Copied := fun path =>
      SeenIn cfg paths persisted socketPath (fun w => w.screen.surface.Shows path) moves
    (System.reached cfg paths persisted socketPath moves).Traced paths Past Copied ∧
      (System.reached cfg paths persisted socketPath moves).Handed paths Past Copied := by
  refine history_run (I := fun moves (w : System) =>
    let Past := fun s => SeenIn cfg paths persisted socketPath (fun w => w.supervisor = s) moves
    let Copied := fun path =>
      SeenIn cfg paths persisted socketPath (fun w => w.screen.surface.Shows path) moves
    w.Traced paths Past Copied ∧ w.Handed paths Past Copied) ?_ ?_ moves
  · have hempty : ∀ s, SeenIn cfg paths persisted socketPath (fun w => w.supervisor = s) [] →
        s.source = none := by
      intro s hs
      rw [← seen_nil.mp hs]
      rfl
    refine ⟨⟨Slots.inv_new, seen_nil.mpr rfl, ⟨Surface.told_new, ?_, ?_, ?_⟩, rfl,
      fun path hshows => seen_nil.mpr hshows, by simp [System.new], by simp [System.new]⟩,
      ⟨⟨?_, ?_⟩, ?_, ?_⟩⟩
    · exact fun hne => absurd rfl hne
    · exact fun hne => absurd rfl hne
    · exact fun hkind => by cases hkind
    · exact fun s hs child hsource => by simp [hempty s hs] at hsource
    · exact fun hretired => by cases hretired
    · rintro child hcopied
      exact absurd (seen_nil.mp hcopied).2.1 (by simp [System.new, Screen.new, Surface.new,
        FrameItem.new])
    · exact fun hretired => by cases hretired
  · rintro past m ⟨htraced, hhanded⟩
    simp only [seen_concat]
    refine ⟨?_, ?_⟩
    · exact traced_step (htraced.mono (fun _ => Or.inl) fun _ => Or.inl) (Or.inr rfl)
        fun _ => Or.inr
    · have hstep := handed_step cfg m htraced hhanded
      simpa only [eq_comm] using hstep

end Reached

/-! ## How far the acknowledgement is -/

/-- What a session has to do before it acknowledges: nothing but to write the
request, to ask for the status, to write that it asks, to hear the answer, or to
hear what became of an earlier acknowledgement. -/
inductive Stage
  | due | idle | asking | asked | acknowledged
  deriving DecidableEq

/-- The requests that are written before the acknowledgement. -/
def Stage.requestsLeft : Stage → Nat
  | .due | .asked => 0
  | .idle | .asking | .acknowledged => 1

/-- The replies that arrive before the acknowledgement. -/
def Stage.answersLeft : Stage → Nat
  | .due => 0
  | .idle | .asking | .asked => 1
  | .acknowledged => 2

def DisplaySession.stage (s : DisplaySession) : Stage :=
  if s.inFlight then
    match s.requestKind, s.sent with
    | .acknowledge, true => .acknowledged
    | .acknowledge, false => .due
    | _, true => .asked
    | _, false => .asking
  else if s.ackPending then .due
  else .idle

namespace DisplaySession

theorem stage_failRequest (message : String) (s : DisplaySession) :
    (s.failRequest message).stage = if s.ackPending then .due else .idle := rfl

theorem stage_startRequest {kind : RequestKind} {s : DisplaySession}
    (hflight : s.inFlight = false) :
    (s.startRequest kind).stage = (if s.ackPending then .due else .idle) ∨
      (s.startRequest kind).stage = if kind = .acknowledge then .due else .asking := by
  unfold startRequest
  rw [if_neg (by simp [hflight])]
  split
  · exact Or.inl rfl
  · refine Or.inr ?_
    dsimp only
    split <;> cases kind <;> rfl

/-- With the acknowledgement due, the next request is the acknowledgement. -/
theorem stage_refresh {s : DisplaySession} (hcurrent : s.validatedSourceIsCurrent = true)
    (hawaiting : s.awaitingDisplayAck = true) :
    s.refresh.stage = s.stage ∨ s.stage = .idle ∧ s.refresh.stage = .asking := by
  unfold refresh
  split
  next => exact Or.inl rfl
  next hflight =>
    have hflight : s.inFlight = false := by simpa using hflight
    have hstage : s.stage = if s.ackPending then .due else .idle := by simp [stage, hflight]
    cases hpending : s.ackPending with
    | true =>
      rw [if_pos (by simp [hcurrent, hawaiting])]
      have hdue : (if s.ackPending then Stage.due else Stage.idle) = .due := by simp [hpending]
      rw [hdue] at hstage
      rcases stage_startRequest hflight with h | h
      · exact Or.inl (by rw [h, hdue, hstage])
      · exact Or.inl (by rw [h, if_pos rfl, hstage])
    | false =>
      rw [if_neg (by simp)]
      rw [hpending] at hstage
      rcases stage_startRequest hflight with h | h
      · exact Or.inl (by rw [h, hstage, hpending])
      · exact Or.inr ⟨hstage, h⟩

/-- A file that is validated again makes the acknowledgement due, at the latest
when the request in flight is over. -/
theorem stage_acknowledgeFrameFile {s : DisplaySession} (path : String)
    (hawaiting : s.awaitingDisplayAck = true) :
    (s.acknowledgeFrameFile path).stage = s.stage ∨
      (s.acknowledgeFrameFile path).stage = .due := by
  unfold acknowledgeFrameFile
  split
  · exact Or.inl rfl
  · dsimp only
    rw [if_pos hawaiting]
    rcases Bool.eq_false_or_eq_true s.inFlight with hflight | hflight
    · refine Or.inl ?_
      unfold startRequest
      simp [stage, hflight]
    · have hstarted := @stage_startRequest .acknowledge { s with
        validatedFrameFile := path
        validatedGeneration := s.displayGeneration
        ackPending := true } hflight
      exact Or.inr (hstarted.elim id id)

/-- A status that says so makes the acknowledgement of a validated source due. -/
theorem stage_finishRequest {s : DisplaySession} (hpending : s.ackPending = true) :
    s.finishRequest.stage = .due := by
  simp [finishRequest, endRequest, setState, stage, hpending]

end DisplaySession

/-! ## One move towards the acknowledgement -/

/-- How many requests the session writes in the move. -/
def System.requested (w : System) (m : Move) : Nat := (w.request m).toList.length

/-- How many replies it hears. -/
def System.answered (w : System) (m : Move) : Nat := (w.answers m).toNat

/-- The handoff to `child` is open at `generation`, and the surface has shown
its file. -/
structure System.Ready (paths : FramePaths) (child generation : Nat) (w : System) : Prop where
  known : ∃ Past Copied, w.Traced paths Past Copied ∧ w.Handed paths Past Copied ∧
    Copied (paths.path child)
  waits : w.Waits generation
  source : w.supervisor.source = some child

section Budget

variable {cfg : Config} {paths : FramePaths} {child generation : Nat} {w : System}

/-- The session is waited for, and has validated what it follows. -/
theorem System.Ready.session (h : w.Ready paths child generation) :
    w.screen.session.awaitingDisplayAck = true ∧
      w.screen.session.validatedSourceIsCurrent = true ∧
      w.screen.session.validatedGeneration = generation ∧
      w.screen.session.frameFile = paths.path child ∧
      w.screen.session.displayGeneration = generation := by
  obtain ⟨⟨Past, Copied, htraced, hhanded, hcopied⟩, ⟨hretired, hgeneration⟩, hsource⟩ := h
  have hc := hhanded.coherent hretired child hsource
  obtain ⟨hfile, hvalidated, hvalidated'⟩ := hc.knows.validated hcopied
  obtain ⟨-, hfollowed⟩ := hhanded.generation htraced hretired hsource hfile
  refine ⟨hc.knows.awaiting hfile, ?_, hvalidated'.trans hgeneration, hfile, hfollowed.trans hgeneration⟩
  rw [DisplaySession.validatedSourceIsCurrent_iff]
  exact ⟨hvalidated ▸ paths.nonempty child, hvalidated.trans hfile.symm,
    hvalidated'.trans hfollowed.symm⟩

/-- A handoff that stays open stays that of the same process. -/
theorem System.Ready.next {m : Move} (h : w.Ready paths child generation)
    (hwaits : (w.step cfg paths m).Waits generation) :
    (w.step cfg paths m).Ready paths child generation := by
  obtain ⟨⟨Past, Copied, htraced, hhanded, hcopied⟩, ⟨hretired, hgeneration⟩, hsource⟩ := h
  have htraced' : (w.step cfg paths m).Traced paths
      (fun s => Past s ∨ s = (w.step cfg paths m).supervisor)
      (fun path => Copied path ∨ (w.step cfg paths m).screen.surface.Shows path) :=
    traced_step (htraced.mono (fun _ => Or.inl) fun _ => Or.inl) (Or.inr rfl) fun _ => Or.inr
  refine ⟨⟨_, _, htraced', handed_step cfg m htraced hhanded, Or.inl hcopied⟩, hwaits, ?_⟩
  have hkept : ∀ i, w.input m = some i →
      (Supervisor.step cfg w.supervisor i).retired.isSome = true →
      (Supervisor.step cfg w.supervisor i).source = some child := by
    intro i _ hretired'
    obtain ⟨worker, hworker⟩ := Option.isSome_iff_exists.mp
      ((@inv_step cfg _ i htraced.slots).handoff hretired').1
    have hdescends := descends_step cfg i htraced.slots
    rcases hdescends.handoff worker hretired' hworker with ⟨-, -, hsame⟩ | ⟨w₀, hw₀, -⟩
    · rw [Slots.source, hworker, ← hsource, hsame]
      rfl
    · simp [(htraced.slots.handoff hretired).2.1] at hw₀
  exact supervisor_rule (P := fun s => s.retired.isSome = true → s.source = some child) m
    (fun _ => hsource) hkept hwaits.1

/-- What a move costs is paid from what is left. -/
def Stage.Pays (requested answered : Nat) (stage stage' : Stage) : Prop :=
  requested + stage'.requestsLeft ≤ stage.requestsLeft ∧
    answered + stage'.answersLeft ≤ stage.answersLeft

theorem Stage.pays_self (stage : Stage) : stage.Pays 0 0 stage :=
  ⟨(Nat.zero_add _).le, (Nat.zero_add _).le⟩

theorem Stage.pays_due (stage : Stage) : stage.Pays 0 0 .due := by
  cases stage <;> simp [Stage.Pays, Stage.requestsLeft, Stage.answersLeft]

/-- The reply that is waited for makes the acknowledgement due, or was an error
that answers an earlier acknowledgement. -/
theorem System.Ready.consumeResponse {look : Look} {k id : Nat} {reply : Reply}
    (h : w.Ready paths child generation) (hk : w.replies[k]? = some (id, reply))
    (hawaits : w.screen.session.awaits id = true)
    (hanswered : w.fails (.deliver k look) = false) :
    w.screen.session.stage.Pays 0 1 (w.screen.consumeResponse look reply).session.stage := by
  obtain ⟨hawaiting, hcurrent, -, hfile, hfollowed⟩ := h.session
  obtain ⟨⟨Past, Copied, htraced, hhanded, -⟩, ⟨hretired, hgeneration⟩, hsource⟩ := h
  have hmem := List.mem_of_getElem? hk
  have hwaiting : w.screen.session.inFlight = true ∧ w.screen.session.sent = true := by
    simp only [DisplaySession.awaits, Bool.and_eq_true] at hawaits
    exact hawaits.1
  cases reply with
  | error detail =>
    have hkind : w.screen.session.requestKind = .acknowledge := by
      simpa [System.fails, hk, hawaits, Except.isOk, Except.toBool] using hanswered
    have hstage : w.screen.session.stage = .acknowledged := by
      simp [DisplaySession.stage, hwaiting, hkind]
    rw [hstage, Screen.consumeResponse, DisplaySession.stage_failRequest]
    split <;> simp [Stage.Pays, Stage.requestsLeft, Stage.answersLeft]
  | ok status =>
    obtain ⟨s, hs, rfl⟩ := (htraced.replies _ hmem).2 status rfl
    have hsource' := (hhanded.coherent hretired child hsource).heard hfile _ hmem hawaits s rfl
    obtain ⟨hsame, hopen⟩ := hhanded.lineage.unique hretired child hsource s hs hsource'
    have hstage : (w.screen.consumeResponse look (.ok (statusReply paths s))).session.stage =
        .due := by
      have hzero : s.displayGeneration ≠ 0 ∧ s.displayGeneration < 2 ^ 63 := by
        rw [hsame, hgeneration, ← hfollowed]
        exact (htraced.screen.source (hfile ▸ paths.nonempty child)).2
      have hpath : (s.source.map paths.path).getD "" = w.screen.session.frameFile := by
        rw [hsource', hfile]
        rfl
      have hold : ¬ ((s.source.map paths.path).getD "" ≠ "" ∧ s.displayGeneration ≠ 0 ∧
          (w.screen.session.frameFile ≠ (s.source.map paths.path).getD "" ∨
            w.screen.session.displayGeneration ≠ s.displayGeneration)) := by
        rintro ⟨-, -, hdiffers⟩
        exact hdiffers.elim (fun hne => hne hpath.symm)
          fun hne => hne (hfollowed.trans (hsame.trans hgeneration).symm)
      obtain ⟨s', htakes, hadopt⟩ := Screen.adopt_old look (phaseName s.phase)
        (scalingName (Supervisor.status s).scaling) s.retired.isSome hold
      rw [Screen.consumeResponse]
      rw [applyStatus_statusReply, if_neg (Nat.not_le.mpr hzero.2), if_neg (fun hz => hzero.1 hz.2),
        hadopt]
      refine DisplaySession.stage_finishRequest ?_
      have hcurrent' : s'.validatedSourceIsCurrent = true := by
        rw [DisplaySession.validatedSourceIsCurrent_iff] at hcurrent ⊢
        rw [htakes.validatedFrameFile, htakes.validatedGeneration, htakes.frameFile,
          htakes.displayGeneration]
        exact hcurrent
      simp [DisplaySession.renewAck, htakes.awaitingDisplayAck, hopen, hcurrent']
    rw [hstage]
    rcases hkind : w.screen.session.requestKind <;>
      simp [DisplaySession.stage, hwaiting, hkind, Stage.Pays, Stage.requestsLeft,
        Stage.answersLeft]

theorem System.Ready.told (h : w.Ready paths child generation) : w.screen.surface.Told := by
  obtain ⟨⟨_, _, htraced, -⟩, -⟩ := h
  exact htraced.screen.told

theorem System.Ready.onSurface {f : Surface → Surface} (h : w.Ready paths child generation)
    (hturns : w.screen.surface.Turns (f w.screen.surface)) :
    w.screen.session.stage.Pays 0 0 (w.screen.onSurface f).session.stage := by
  rcases Screen.onSurface_cases hturns with ⟨hsession, -⟩ | ⟨hsession, -⟩
  · rw [hsession]
    exact Stage.pays_self _
  · rw [hsession]
    rcases DisplaySession.stage_acknowledgeFrameFile _ h.session.1 with hsame | hdue
    · rw [hsame]
      exact Stage.pays_self _
    · rw [hdue]
      exact Stage.pays_due _

/-- **One move** of an open handoff, short of the acknowledgement. -/
theorem System.Ready.pays {m : Move} (h : w.Ready paths child generation)
    (hanswered : w.fails m = false) (hnot : ¬ w.Acknowledges generation m) :
    w.screen.session.stage.Pays (w.requested m) (w.answered m)
      (w.step cfg paths m).screen.session.stage := by
  obtain ⟨hawaiting, hcurrent, hvalidated, hfile, hfollowed⟩ := h.session
  cases m with
  | supervise => exact Stage.pays_self _
  | refresh =>
    rcases DisplaySession.stage_refresh hcurrent hawaiting with hsame | ⟨hidle, hasking⟩
    · simp only [System.step, System.onSession]
      rw [hsame]
      exact Stage.pays_self _
    · simp only [System.step, System.onSession]
      rw [hidle, hasking]
      exact ⟨le_rfl, le_rfl⟩
  | connected =>
    cases hconnecting : w.isConnecting with
    | false =>
      simp only [System.step, System.requested, System.request, hconnecting]
      exact Stage.pays_self _
    | true =>
      have hnumber : ¬ 2 ^ 63 - 1 ≤ w.screen.session.requestId := by
        simpa [System.fails, hconnecting] using hanswered
      have hunsent : w.screen.session.inFlight = true ∧ w.screen.session.sent = false := by
        simpa [System.isConnecting] using hconnecting
      have hkind : w.screen.session.requestKind ≠ .acknowledge := by
        intro hkind
        refine hnot ?_
        simp only [System.Acknowledges, System.request, hconnecting, if_true,
          DisplaySession.sendRequest, if_neg hnumber, hkind, Option.map_some, hvalidated]
      simp only [System.step, System.requested, System.request, hconnecting, if_true,
        System.onSession, DisplaySession.sendRequest, if_neg hnumber, if_neg hkind]
      revert hkind
      rcases hkind : w.screen.session.requestKind <;> intro hne <;>
        simp_all [DisplaySession.stage, Stage.Pays, Stage.requestsLeft, Stage.answersLeft,
          System.answered, System.answers]
  | fail message =>
    have hflight : w.screen.session.inFlight = false := hanswered
    simp only [System.step, hflight, Bool.false_eq_true, if_false]
    exact Stage.pays_self _
  | serve k io =>
    have hscreen : (w.step cfg paths (.serve k io)).screen = w.screen := by
      simp only [System.step, System.serve]
      rcases w.wire[k]? with _ | ⟨id, method⟩
      · rfl
      · cases method <;> rfl
    rw [hscreen]
    exact Stage.pays_self _
  | deliver k look =>
    rcases hk : w.replies[k]? with _ | ⟨id, reply⟩
    · simp only [System.step, System.deliver, System.answered, System.answers, hk]
      exact Stage.pays_self _
    · by_cases hawaits : w.screen.session.awaits id = true
      · have hpays := h.consumeResponse hk hawaits hanswered
        simpa [System.step, System.deliver, System.answered, System.answers, System.requested,
          System.request, hk, hawaits, System.onScreen] using hpays
      · simp only [System.step, System.deliver, System.answered, System.answers, hk,
          Option.any_some, hawaits]
        exact Stage.pays_self _
  | reopen look =>
    exact h.onSurface (Surface.turns_reopen h.told look)
  | pollFrame aged views =>
    exact h.onSurface (Surface.turns_pollFrame h.told aged views)

/-- **The acknowledgement is sent** before a second request is written and
before a third reply is heard. -/
theorem System.Ready.acknowledges {more : List Move} (h : w.Ready paths child generation)
    (hmore : Along (System.step cfg paths)
      (fun w m => w.fails m = false ∧ (w.step cfg paths m).Waits generation) w more) :
    Ended (System.step cfg paths) (System.Acknowledges generation) w more ∨
      total (System.step cfg paths) System.requested w more ≤ 1 ∧
        total (System.step cfg paths) System.answered w more ≤ 2 := by
  rcases ended_or_along (System.step cfg paths) (System.Acknowledges generation) w more
    with hended | hnot
  · exact Or.inl hended
  refine Or.inr ⟨?_, ?_⟩
  · have hpaid := total_le System.requested
      (fun w => w.screen.session.stage.requestsLeft) (I := System.Ready paths child generation)
      (fun w m hw hm => ⟨hw.next hm.1.2, (hw.pays hm.1.1 hm.2).1⟩) h (hmore.and hnot)
    refine hpaid.trans ?_
    cases w.screen.session.stage <;> decide
  · have hpaid := total_le System.answered
      (fun w => w.screen.session.stage.answersLeft) (I := System.Ready paths child generation)
      (fun w m hw hm => ⟨hw.next hm.1.2, (hw.pays hm.1.1 hm.2).2⟩) h (hmore.and hnot)
    refine hpaid.trans ?_
    cases w.screen.session.stage <;> decide

end Budget

/-! ## Both halves -/

/-- What was shown at a generation is the only source of that generation. -/
theorem since_run {cfg : Config} {paths : FramePaths} {child generation : Nat} {w : System}
    {moves : List Move} (hw : w.supervisor.toSlots.Inv)
    (hsince : w.supervisor.toSlots.Since generation (some child))
    (h : Along (System.step cfg paths) (System.NoWrap cfg) w moves) :
    (run (System.step cfg paths) w moves).supervisor.toSlots.Since generation (some child) :=
  (invariant_run (I := fun w : System =>
    w.supervisor.toSlots.Inv ∧ w.supervisor.toSlots.Since generation (some child))
    (fun _ m hw hm => ⟨supervisor_rule (P := fun s => s.toSlots.Inv) m hw.1
        fun i _ => inv_step i hw.1,
      supervisor_rule (P := fun s => s.toSlots.Since generation (some child)) m hw.2
        fun i hi => since_step hw.1 (hm i hi) hw.2⟩)
    ⟨hw, hsince⟩ h).2

/-- **The handoff.**  In every run: an acknowledgement that the supervisor
accepts names a generation at which it showed a process whose frame file the
surface has had open and copied a whole frame of, and unless the generation
wrapped around no other process is active; and while the supervisor waits for
the process whose file the surface has shown, and requests are answered, the
session writes the acknowledgement of that generation before a second request
and before it hears a third reply. -/
theorem handoff_heard (cfg : Config) (paths : FramePaths) (persisted : PersistedState)
    (socketPath : String) (moves : List Move) :
    let w := System.reached cfg paths persisted socketPath moves
    (∀ k io generation, w.Accepts cfg k io generation → ∃ child,
      SeenIn cfg paths persisted socketPath (fun w => w.supervisor.source = some child ∧
        w.supervisor.displayGeneration = generation) moves ∧
      SeenIn cfg paths persisted socketPath
        (fun w => w.screen.surface.Shows (paths.path child)) moves ∧
      (Along (System.step cfg paths) (System.NoWrap cfg) (System.new persisted socketPath) moves →
        w.supervisor.source = some child ∨ w.supervisor.source = none)) ∧
    (∀ child generation, w.Waits generation → w.supervisor.source = some child →
      SeenIn cfg paths persisted socketPath
        (fun w => w.screen.surface.Shows (paths.path child)) moves →
      ∀ more, Along (System.step cfg paths)
        (fun w m => w.fails m = false ∧ (w.step cfg paths m).Waits generation) w more →
        Ended (System.step cfg paths) (System.Acknowledges generation) w more ∨
          total (System.step cfg paths) System.requested w more ≤ 1 ∧
            total (System.step cfg paths) System.answered w more ≤ 2) := by
  obtain ⟨htraced, hhanded⟩ := reached_known cfg paths persisted socketPath moves
  refine ⟨?_, ?_⟩
  · rintro k io generation ⟨hk, haccepted⟩
    obtain ⟨r, hr, hmethod⟩ := Option.map_eq_some_iff.mp hk
    obtain ⟨file, ⟨s, child, hs, hsource, rfl, rfl⟩, hcopied⟩ :=
      (htraced.wire r (List.mem_of_getElem? hr)).2 generation hmethod
    refine ⟨child, hs.mono (fun _ hw => by rw [hw]; exact ⟨hsource, rfl⟩), hcopied, ?_⟩
    intro hnowrap
    obtain ⟨pre, ⟨post, rfl⟩, hpre⟩ := hs
    have hstart := (reached_known cfg paths persisted socketPath pre).1.slots
    rw [System.reached, run_append]
    have hsince := @since_run cfg paths child s.displayGeneration _ post hstart
      (Or.inr ⟨by rw [hpre], Or.inl (by rw [hpre, hsource])⟩)
      ((along_append _ pre post).mp hnowrap).2
    have hcurrent := ((acknowledge_accepted htraced.slots).mp haccepted).1
    rw [System.reached, run_append] at hcurrent
    rcases hsince with hlt | ⟨-, hsource'⟩
    · rw [hcurrent] at hlt
      exact absurd hlt (lt_irrefl _)
    · exact hsource'
  · intro child generation hwaits hsource hcopied more hmore
    exact System.Ready.acknowledges ⟨⟨_, _, htraced, hhanded, hcopied⟩, hwaits, hsource⟩ hmore

/-! ## Sample runs -/

def FramePaths.sample : FramePaths where
  path child := String.ofList (List.replicate (child + 1) 'f')
  injective child child' h := by
    have hlength := congrArg List.length (String.ofList_injective h)
    simpa using hlength
  nonempty child h := by
    have hlist := congrArg String.toList h
    simp at hlist

def Move.ofInput (i : Supervisor.Input) : Move :=
  if h : Input.acknowledges i = false then .supervise i h else .refresh

/-- The file of a 1x1 frame. -/
def Look.onePixel : Look where
  entry := .file
  views := fun _ => initializeHeader (List.replicate 72 0) ⟨1, 1, 4, 4, 72⟩

/-- The session asks for the status and hears it. -/
def ask (look : Look) : List Move := [.refresh, .connected, .serve 0 (.quiet 0), .deliver 0 look]

/-- `b` has taken over from `a`, and the surface shows its file as soon as the
session hears of it. -/
def shownAtOnce : List Move :=
  (openHandoff.flatMap Turn.inputs).map Move.ofInput ++ ask .onePixel

theorem handoff_shownAtOnce :
    let w := System.reached .sample .sample .empty "socket" shownAtOnce
    (∃ child,
      SeenIn .sample .sample .empty "socket" (fun w => w.supervisor.source = some child ∧
        w.supervisor.displayGeneration = 2) (shownAtOnce ++ [.refresh, .connected]) ∧
      SeenIn .sample .sample .empty "socket"
        (fun w => w.screen.surface.Shows (FramePaths.sample.path child))
        (shownAtOnce ++ [.refresh, .connected])) ∧
    (Ended (System.step .sample .sample) (System.Acknowledges 2) w [.refresh, .connected] ∨
      total (System.step .sample .sample) System.requested w [.refresh, .connected] ≤ 1 ∧
        total (System.step .sample .sample) System.answered w [.refresh, .connected] ≤ 2) := by
  refine ⟨?_, ?_⟩
  · have hslots := (reached_known .sample .sample .empty "socket"
      (shownAtOnce ++ [.refresh, .connected])).1.slots
    have hgeneration : (System.reached .sample .sample .empty "socket"
        (shownAtOnce ++ [.refresh, .connected])).supervisor.displayGeneration = 2 := by
      decide +kernel
    have hpersists : (Io.quiet 5000).Persists := ⟨rfl, rfl⟩
    have haccepted : IsAccepted .sample (System.reached .sample .sample .empty "socket"
        (shownAtOnce ++ [.refresh, .connected])).supervisor (.acknowledge 2 (.quiet 5000)) :=
      (acknowledge_accepted hslots).mpr ⟨hgeneration.symm, fun _ => hpersists⟩
    have hrequest : ((System.reached .sample .sample .empty "socket"
        (shownAtOnce ++ [.refresh, .connected])).wire[0]?).map Request.method =
          some (.acknowledge 2) := by
      decide +kernel
    have haccepts : (System.reached .sample .sample .empty "socket"
        (shownAtOnce ++ [.refresh, .connected])).Accepts .sample 0 (.quiet 5000) 2 :=
      ⟨hrequest, haccepted⟩
    have hboth := handoff_heard .sample .sample .empty "socket" (shownAtOnce ++ [.refresh, .connected])
    dsimp only at hboth
    obtain ⟨child, hshown, hcopied, -⟩ := hboth.1 0 (.quiet 5000) 2 haccepts
    exact ⟨child, hshown, hcopied⟩
  · have hboth := handoff_heard .sample .sample .empty "socket" shownAtOnce
    dsimp only at hboth
    exact hboth.2 1 2 (by decide +kernel) (by decide +kernel) (.last (by decide +kernel))
      [.refresh, .connected] (by decide +kernel)

/-- The surface opens the file of `b` only while the session asks again. -/
def shownLate : List Move :=
  (openHandoff.flatMap Turn.inputs).map Move.ofInput ++
    ask { Look.onePixel with entry := .missing "No such file or directory" } ++
    [.refresh, .connected, .reopen .onePixel]

/-- The handoff runs out of time before the answer, which says so. -/
def committed : List Move :=
  [.ofInput (.handoffDeadline 9000 (.quiet 9000)), .serve 0 (.quiet 9000), .deliver 0 .onePixel] ++
    ask .onePixel ++ ask .onePixel

/-- The supervisor stays at the generation that it waited for and every request
is answered, but the acknowledgement is never sent: at its deadline the handoff
was committed without one. -/
theorem handoff_unacknowledged :
    let w := System.reached .sample .sample .empty "socket" shownLate
    (w.Waits 2 ∧ w.supervisor.source = some 1 ∧
      w.screen.surface.Shows (FramePaths.sample.path 1)) ∧
    Along (System.step .sample .sample) (fun w m => w.fails m = false ∧
      (w.step .sample .sample m).supervisor.displayGeneration = 2 ∧
        ¬ w.Acknowledges 2 m) w committed ∧
    total (System.step .sample .sample) System.answered w committed = 3 := by
  decide +kernel

end Kwe.Display
