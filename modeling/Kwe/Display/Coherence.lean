import Kwe.Display.Sources
import Kwe.Supervisor.Lineage

/-!
What a session knows while a handoff is open: if it follows the new file, it
knows its generation and that it is waited for, and once the surface has shown
the file it is validated (`System.Coherent`).

`handed_step` says that every move keeps this.  A file that is on trial is
known to nobody, so a handoff is opened with nothing to keep.
-/

namespace Kwe.Display

open Foundation Foundation.Runs Kwe.Frames Kwe.Supervisor

/-! ## What a session knows during a handoff -/

section Handed

variable (paths : FramePaths) (Past : Supervisor.State → Prop) (Copied : String → Prop)

/-- The processes that were shown are neither on trial nor yet to come, and
the one whose handoff is open was shown in no other. -/
structure Lineage (s : Supervisor.State) : Prop where
  launched : ∀ s', Past s' → ∀ child, s'.source = some child →
    child < s.children ∧ ∀ w, s.candidate = some w → w.child ≠ child
  unique : s.retired.isSome = true → ∀ child, s.source = some child →
    ∀ s', Past s' → s'.source = some child →
      s'.displayGeneration = s.displayGeneration ∧ s'.retired.isSome = true

/-- A session that follows the file of `child` knows that it is waited for; once
the file was copied from, it is followed, and validated at `generation`. -/
structure Screen.Knows (child generation : Nat) (d : Screen) : Prop where
  awaiting : d.session.frameFile = paths.path child → d.session.awaitingDisplayAck = true
  validated : Copied (paths.path child) →
    d.session.frameFile = paths.path child ∧
      d.session.validatedFrameFile = paths.path child ∧
      d.session.validatedGeneration = generation

/-- The handoff to `child` is open: the screen knows of it, or has yet to hear;
what a screen that follows the file is about to hear says so too. -/
structure System.Coherent (child : Nat) (w : System) : Prop where
  knows : w.screen.Knows paths Copied child w.supervisor.displayGeneration
  heard : w.screen.session.frameFile = paths.path child →
    ∀ r ∈ w.replies, w.screen.session.awaits r.1 = true →
      ∀ s, r.2 = .ok (statusReply paths s) → s.source = some child

structure System.Handed (w : System) : Prop where
  lineage : Lineage Past w.supervisor
  copied : ∀ child, Copied (paths.path child) → ∃ s, Past s ∧ s.source = some child
  coherent : w.supervisor.retired.isSome = true → ∀ child, w.supervisor.source = some child →
    w.Coherent paths Copied child

end Handed

section Lineage

variable {cfg : Config} {Past Past' : Supervisor.State → Prop}

theorem lineage_step {s : Supervisor.State} {i : Supervisor.Input} (hs : s.toSlots.Inv)
    (h : Lineage Past s) (hPast : ∀ s', Past' s' → Past s' ∨ s' = Supervisor.step cfg s i) :
    Lineage Past' (Supervisor.step cfg s i) := by
  have hdescends := descends_step cfg i hs
  have hstepped := @inv_step cfg s i hs
  refine ⟨?_, ?_⟩
  · intro s' hs' child hchild
    rcases hPast s' hs' with hold | rfl
    · obtain ⟨hlt, hne⟩ := h.launched s' hold child hchild
      refine ⟨hlt.trans_le hdescends.children, fun w' hw' => ?_⟩
      rcases hdescends.candidate w' hw' with hnew | ⟨w, hw, hsame⟩
      · omega
      · exact hsame ▸ hne w hw
    · obtain ⟨w, hw, rfl⟩ := Option.map_eq_some_iff.mp hchild
      exact ⟨hstepped.activeChild w hw, fun w' hw' heq =>
        (hstepped.candidateChild w' hw').2 w hw heq.symm⟩
  · intro hretired child hchild s' hs' hsource
    rcases hPast s' hs' with hold | rfl
    · obtain ⟨w, hw, rfl⟩ := Option.map_eq_some_iff.mp hchild
      rcases hdescends.handoff w hretired hw with ⟨hopen, hgeneration, hkept⟩ | ⟨w₀, hw₀, hsame⟩
      · rw [hgeneration]
        exact h.unique hopen _ hkept s' hold hsource
      · exact absurd hsame ((h.launched s' hold _ hsource).2 w₀ hw₀)
    · exact ⟨rfl, hretired⟩

end Lineage

section Coherent

variable {cfg : Config} {paths : FramePaths} {Past : Supervisor.State → Prop}
  {Copied : String → Prop}

theorem statusReply_source {s s' : Supervisor.State}
    (h : statusReply paths s = statusReply paths s') : s.source = s'.source :=
  Option.map_injective paths.injective (Option.some.inj (congrArg StatusReply.frameFile h))

/-- The source that the session follows was shown with its generation. -/
theorem Screen.Traced.sourced {d : Screen} {child : Nat} (h : d.Traced paths Past Copied)
    (hfile : d.session.frameFile = paths.path child) :
    d.session.displayGeneration ≠ 0 ∧
      ∃ s, Past s ∧ s.source = some child ∧ d.session.displayGeneration = s.displayGeneration := by
  have hne : d.session.frameFile ≠ "" := by
    rw [hfile]
    exact paths.nonempty child
  obtain ⟨⟨s, child', hs, hsource, hpath, hgeneration⟩, hzero, -⟩ := h.source hne
  obtain rfl := paths.injective (hfile.symm.trans hpath)
  exact ⟨hzero, s, hs, hsource, hgeneration⟩

/-- The session validates the file it follows, or is told of nothing. -/
theorem Screen.onSurface_validates {d : Screen} {f : Surface → Surface}
    (hturns : d.surface.Turns (f d.surface))
    (hfile : (f d.surface).frameFile = d.session.frameFile) (hne : d.session.frameFile ≠ "")
    (hzero : d.session.displayGeneration ≠ 0) :
    ((d.onSurface f).session.validatedFrameFile = d.session.frameFile ∧
      (d.onSurface f).session.validatedGeneration = d.session.displayGeneration) ∨
    (d.onSurface f).session = d.session ∧
      ∀ path, (f d.surface).Shows path → d.surface.Shows path := by
  rcases Screen.onSurface_cases hturns with hquiet | ⟨hsession, -⟩
  · exact Or.inr hquiet
  · refine Or.inl ?_
    rw [hsession, hfile, DisplaySession.acknowledgeFrameFile_eq hne hzero]
    dsimp only
    split
    · have hkeeps := @DisplaySession.startRequest_keeps .acknowledge { d.session with
        validatedFrameFile := d.session.frameFile
        validatedGeneration := d.session.displayGeneration
        ackPending := true } fun _ => hne
      exact ⟨hkeeps.validatedFrameFile, hkeeps.validatedGeneration⟩
    · exact ⟨rfl, rfl⟩

/-- A status with no new source leaves what is followed and validated alone,
and renews the acknowledgement. -/
theorem Screen.adopt_old {d : Screen} {frameFile : String} {generation : Nat} (look : Look)
    (phase scaling : String) (awaiting : Bool)
    (hold : ¬ (frameFile ≠ "" ∧ generation ≠ 0 ∧
      (d.session.frameFile ≠ frameFile ∨ d.session.displayGeneration ≠ generation))) :
    ∃ s', d.session.Takes awaiting s' ∧
      d.adopt look phase frameFile scaling generation awaiting =
        { d with session := s'.renewAck } := by
  have htakes := d.session.takeStatus_takes phase scaling awaiting
    (frameFile ≠ "" && generation ≠ 0)
  rw [← htakes.frameFile, ← htakes.displayGeneration] at hold
  refine ⟨_, htakes, ?_⟩
  unfold Screen.adopt
  dsimp only
  rw [if_neg (by simpa [and_assoc] using hold)]

/-- A new source is followed, and validated if the surface shows it at once. -/
theorem Screen.adopt_new {d : Screen} {frameFile : String} {generation : Nat} (look : Look)
    (phase scaling : String) (awaiting : Bool) (htold : d.surface.Told)
    (hnew : frameFile ≠ "" ∧ generation ≠ 0 ∧
      (d.session.frameFile ≠ frameFile ∨ d.session.displayGeneration ≠ generation)) :
    let d' := d.adopt look phase frameFile scaling generation awaiting
    d'.session.frameFile = frameFile ∧ d'.session.awaitingDisplayAck = awaiting ∧
      (d'.session.validatedFrameFile = frameFile ∧ d'.session.validatedGeneration = generation ∨
        (d'.session.validatedFrameFile = d.session.validatedFrameFile ∧
          d'.session.validatedGeneration = d.session.validatedGeneration) ∧
        ∀ path, d'.surface.Shows path → d.surface.Shows path) := by
  have htakes := d.session.takeStatus_takes phase scaling awaiting
    (frameFile ≠ "" && generation ≠ 0)
  obtain ⟨hfile, hgeneration, hdiffers⟩ := hnew
  rw [← htakes.frameFile, ← htakes.displayGeneration] at hdiffers
  unfold Screen.adopt
  dsimp only
  rw [if_pos (by simpa [and_assoc] using ⟨hfile, hgeneration, hdiffers⟩)]
  generalize d.session.takeStatus phase scaling awaiting
    (frameFile ≠ "" && generation ≠ 0) = session at *
  let followed : Screen := { d with
    session := { session with frameFile := frameFile, displayGeneration := generation } }
  have hturns := Surface.turns_setFrameFile htold frameFile look
  obtain ⟨hsame, -, hawaiting, -⟩ :=
    Screen.onSurface_same (Surface.setFrameFile frameFile look) followed
  refine ⟨hsame, hawaiting.trans htakes.awaitingDisplayAck, ?_⟩
  rcases Screen.onSurface_validates (d := followed) hturns (Surface.setFrameFile_frameFile ..)
    hfile hgeneration with hvalidated | ⟨hsession, hshows⟩
  · exact Or.inl hvalidated
  · have heq : ((followed.onSurface (Surface.setFrameFile frameFile look)).session).renewAck =
        followed.session.renewAck := by rw [hsession]
    refine Or.inr ⟨?_, hshows⟩
    rw [heq]
    exact ⟨htakes.validatedFrameFile, htakes.validatedGeneration⟩

/-- The session knows the generation of the handoff whose file it follows. -/
theorem System.Handed.generation {w : System} {child : Nat} (h : w.Traced paths Past Copied)
    (hh : w.Handed paths Past Copied) (hretired : w.supervisor.retired.isSome = true)
    (hsource : w.supervisor.source = some child)
    (hfile : w.screen.session.frameFile = paths.path child) :
    w.screen.session.displayGeneration ≠ 0 ∧
      w.screen.session.displayGeneration = w.supervisor.displayGeneration := by
  obtain ⟨hzero, s, hs, hsource', hgeneration⟩ := h.screen.sourced hfile
  exact ⟨hzero, hgeneration.trans (hh.lineage.unique hretired child hsource s hs hsource').1⟩

section Step

variable {Copied' : String → Prop} {w : System} {child : Nat}

/-- What the session does by itself. -/
theorem Screen.Knows.session {d : Screen} {generation : Nat} {s' : DisplaySession}
    (hk : d.Knows paths Copied child generation) (hkeeps : d.session.Keeps s')
    (hCopied : ∀ path, Copied' path → Copied path) :
    Screen.Knows paths Copied' child generation { d with session := s' } where
  awaiting := fun hfile => hkeeps.awaitingDisplayAck.trans
    (hk.awaiting (hkeeps.frameFile.symm.trans hfile))
  validated := fun hcopied => by
    dsimp only
    rw [hkeeps.frameFile, hkeeps.validatedFrameFile, hkeeps.validatedGeneration]
    exact hk.validated (hCopied _ hcopied)

theorem System.Coherent.session_move {s' : DisplaySession}
    (hc : w.Coherent paths Copied child) (hkeeps : w.screen.session.Keeps s')
    (hawaits : ∀ r ∈ w.replies, s'.awaits r.1 = true → w.screen.session.awaits r.1 = true)
    (hCopied : ∀ path, Copied' path → Copied path) :
    System.Coherent paths Copied' child
      { w with screen := { w.screen with session := s' } } where
  knows := hc.knows.session hkeeps hCopied
  heard := fun hfile r hr hwaits =>
    hc.heard (hkeeps.frameFile.symm.trans hfile) r hr (hawaits r hr hwaits)

/-- What the surface does while it follows the same file. -/
theorem System.Coherent.surface_move {f : Surface → Surface} (h : w.Traced paths Past Copied)
    (hh : w.Handed paths Past Copied) (hretired : w.supervisor.retired.isSome = true)
    (hsource : w.supervisor.source = some child)
    (hturns : w.screen.surface.Turns (f w.screen.surface))
    (hfollows : (f w.screen.surface).frameFile = w.screen.surface.frameFile)
    (hCopied : ∀ path, Copied' path → Copied path ∨ (f w.screen.surface).Shows path) :
    (w.onScreen (Screen.onSurface f)).Coherent paths Copied' child := by
  have hc := hh.coherent hretired child hsource
  obtain ⟨hsame, -, hawaiting, -⟩ := Screen.onSurface_same f w.screen
  have hfollows' := hfollows.trans h.bound
  refine ⟨⟨fun hfile => ?_, fun hcopied => ?_⟩, fun hfile r hr hwaits => ?_⟩
  · exact hawaiting.trans (hc.knows.awaiting (hsame.symm.trans hfile))
  · have hfile : w.screen.session.frameFile = paths.path child := by
      rcases hCopied _ hcopied with hold | hshows
      · exact (hc.knows.validated hold).1
      · exact hfollows'.symm.trans hshows.1
    obtain ⟨hzero, hgeneration⟩ := hh.generation h hretired hsource hfile
    refine ⟨hsame.trans hfile, ?_⟩
    rcases Screen.onSurface_validates hturns hfollows' (hfile ▸ paths.nonempty child) hzero with
      ⟨hvalidated, hvalidated'⟩ | ⟨hsession, hshows⟩
    · exact ⟨hvalidated.trans hfile, hvalidated'.trans hgeneration⟩
    · have hold : Copied (paths.path child) :=
        (hCopied _ hcopied).elim id fun hshown => h.showing _ (hshows _ hshown)
      have hvalidated := (hc.knows.validated hold).2
      rw [← hsession] at hvalidated
      exact hvalidated
  · refine hc.heard (hsame.symm.trans hfile) r hr ?_
    rcases Screen.onSurface_cases hturns with ⟨hsession, -⟩ | ⟨hsession, -⟩
    · exact hsession ▸ hwaits
    · exact DisplaySession.acknowledgeFrameFile_awaits (hsession ▸ hwaits)

/-- A status taken during the handoff to `child`: it is of that handoff if it is
of that process, and it is of that process if its file is followed. -/
theorem Screen.Knows.adopt {d : Screen} {generation : Nat} {s : Supervisor.State} (look : Look)
    (phase scaling : String) (hk : d.Knows paths Copied child generation)
    (htold : d.surface.Told) (hbound : d.surface.frameFile = d.session.frameFile)
    (hshowing : ∀ path, d.surface.Shows path → Copied path)
    (hfollowed : d.session.frameFile = paths.path child →
      s.source = some child ∧ d.session.displayGeneration = generation)
    (hshown : s.source = some child →
      s.displayGeneration = generation ∧ s.retired.isSome = true)
    (hCopied : ∀ path, Copied' path → Copied path ∨
      (d.adopt look phase ((s.source.map paths.path).getD "") scaling s.displayGeneration
        s.retired.isSome).surface.Shows path) :
    (d.adopt look phase ((s.source.map paths.path).getD "") scaling s.displayGeneration
      s.retired.isSome).Knows paths Copied' child generation := by
  by_cases hnew : (s.source.map paths.path).getD "" ≠ "" ∧ s.displayGeneration ≠ 0 ∧
      (d.session.frameFile ≠ (s.source.map paths.path).getD "" ∨
        d.session.displayGeneration ≠ s.displayGeneration)
  · obtain ⟨hfile, hawaiting, hvalidated⟩ :=
      Screen.adopt_new look phase scaling s.retired.isSome htold hnew
    have hsource : (s.source.map paths.path).getD "" = paths.path child →
        s.source = some child := by
      intro hpath
      cases hs : s.source with
      | none => exact absurd (by simp [hs]) hnew.1
      | some child' =>
        rw [hs] at hpath
        exact congrArg some (paths.injective hpath)
    -- a handoff whose file is followed already has no new source
    have hfresh : ¬ Copied (paths.path child) := by
      intro hold
      have hpath := (hk.validated hold).1
      obtain ⟨hs, hgeneration⟩ := hfollowed hpath
      refine hnew.2.2.elim (fun hne => hne ?_) (fun hne => hne ?_)
      · rw [hpath, hs]
        rfl
      · rw [hgeneration, (hshown hs).1]
    refine ⟨fun hpath => ?_, fun hcopied => ?_⟩
    · exact hawaiting.trans (hshown (hsource (hfile.symm.trans hpath))).2
    · have hshows := (hCopied _ hcopied).resolve_left hfresh
      rcases hvalidated with ⟨hvalidated, hvalidated'⟩ | ⟨-, hold⟩
      · have hfollows := (Screen.adopt_same look phase ((s.source.map paths.path).getD "") scaling
          s.displayGeneration s.retired.isSome hbound).1
        have hpath := hfile.symm.trans (hfollows.symm.trans hshows.1)
        exact ⟨hfile.trans hpath, hvalidated.trans hpath,
          hvalidated'.trans (hshown (hsource hpath)).1⟩
      · exact absurd (hshowing _ (hold _ hshows)) hfresh
  · obtain ⟨s', htakes, heq⟩ := Screen.adopt_old look phase scaling s.retired.isSome hnew
    rw [heq] at hCopied ⊢
    refine ⟨fun hpath => ?_, fun hcopied => ?_⟩
    · exact htakes.awaitingDisplayAck.trans
        (hshown (hfollowed (htakes.frameFile.symm.trans hpath)).1).2
    · obtain ⟨hfile, hvalidated, hvalidated'⟩ :=
        hk.validated ((hCopied _ hcopied).elim id (hshowing _))
      exact ⟨htakes.frameFile.trans hfile, htakes.validatedFrameFile.trans hvalidated,
        htakes.validatedGeneration.trans hvalidated'⟩

/-- A reply ends the request in flight, whatever it says. -/
theorem Screen.consumeResponse_awaits (look : Look) (reply : Reply) (d : Screen) (id : Nat) :
    (d.consumeResponse look reply).session.awaits id = false := by
  unfold Screen.consumeResponse
  split
  · rfl
  · split <;> rfl

/-- What the screen hears in the reply it waits for. -/
theorem Screen.Knows.consumeResponse {look : Look} {number k : Nat} {reply : Reply}
    (h : w.Traced paths Past Copied) (hh : w.Handed paths Past Copied)
    (hretired : w.supervisor.retired.isSome = true) (hsource : w.supervisor.source = some child)
    (hk : w.replies[k]? = some (number, reply))
    (hawaits : w.screen.session.awaits number = true)
    (hCopied : ∀ path, Copied' path →
      Copied path ∨ (w.screen.consumeResponse look reply).surface.Shows path) :
    (w.screen.consumeResponse look reply).Knows paths Copied' child
      w.supervisor.displayGeneration := by
  have hc := hh.coherent hretired child hsource
  have hmem := List.mem_of_getElem? hk
  cases reply with
  | error detail =>
    exact hc.knows.session (DisplaySession.failRequest_keeps _ _)
      fun path hcopied => (hCopied path hcopied).elim id (h.showing _)
  | ok status =>
    obtain ⟨s, hs, rfl⟩ := (h.replies _ hmem).2 status rfl
    rcases Screen.consumeResponse_cases paths look s w.screen with
      ⟨message, heq⟩ | ⟨hlarge, phase, scaling, heq⟩
    · rw [heq] at hCopied ⊢
      exact hc.knows.session (DisplaySession.failRequest_keeps _ _)
        fun path hcopied => (hCopied path hcopied).elim id (h.showing _)
    · rw [heq] at hCopied ⊢
      refine Screen.Knows.session (hc.knows.adopt look phase scaling h.screen.told h.bound h.showing
        (fun hfile => ⟨hc.heard hfile _ hmem hawaits s rfl,
          (hh.generation h hretired hsource hfile).2⟩)
        (hh.lineage.unique hretired child hsource s hs) hCopied)
        (DisplaySession.finishRequest_keeps _) fun _ => id

/-- The supervisor goes on within the handoff, and perhaps a reply of its new
state is under way. -/
theorem System.Coherent.supervisor_move {s' : Supervisor.State} {wire : List Request}
    {replies : List (Nat × Reply)} (hc : w.Coherent paths Copied child)
    (hgeneration : s'.displayGeneration = w.supervisor.displayGeneration)
    (hreplies : ∀ r ∈ replies, r ∈ w.replies ∨
      ∀ s, r.2 = .ok (statusReply paths s) → s.source = some child)
    (hCopied : ∀ path, Copied' path → Copied path) :
    System.Coherent paths Copied' child
      { w with supervisor := s', wire := wire, replies := replies } where
  knows := by
    dsimp only
    rw [hgeneration]
    exact hc.knows.session ⟨rfl, rfl, rfl, rfl, rfl, le_rfl, Or.inl⟩ hCopied
  heard := fun hfile r hr hwaits s hs => by
    rcases hreplies r hr with hold | hnew
    · exact hc.heard hfile r hold hwaits s hs
    · exact hnew s hs

/-- **Every move** within a handoff. -/
theorem coherent_step {m : Move} (h : w.Traced paths Past Copied)
    (hh : w.Handed paths Past Copied) (hretired : w.supervisor.retired.isSome = true)
    (hsource : w.supervisor.source = some child)
    (hsource' : (w.step cfg paths m).supervisor.source = some child)
    (hgeneration :
      (w.step cfg paths m).supervisor.displayGeneration = w.supervisor.displayGeneration)
    (hCopied : ∀ path, Copied' path →
      Copied path ∨ (w.step cfg paths m).screen.surface.Shows path) :
    (w.step cfg paths m).Coherent paths Copied' child := by
  have hc := hh.coherent hretired child hsource
  have hold : (w.step cfg paths m).screen.surface = w.screen.surface →
      ∀ path, Copied' path → Copied path := fun hsame path hcopied =>
    (hCopied path hcopied).elim id fun hshows => h.showing path (hsame ▸ hshows)
  have hkeeps : w.screen.session.Keeps w.screen.session :=
    ⟨rfl, rfl, rfl, rfl, rfl, le_rfl, Or.inl⟩
  cases m with
  | supervise i hi =>
    exact hc.supervisor_move hgeneration (fun r hr => Or.inl hr) (hold rfl)
  | refresh =>
    exact hc.session_move (DisplaySession.refresh_keeps _)
      (fun _ _ => DisplaySession.refresh_awaits) (hold rfl)
  | connected =>
    simp only [System.step] at hold ⊢
    split
    next hconnecting =>
      rw [if_pos hconnecting] at hold
      have hsent := hc.session_move (DisplaySession.sendRequest_keeps _)
        (fun r hr hwaits => by
          have hid := (h.replies r hr).1
          unfold DisplaySession.sendRequest at hwaits
          split at hwaits
          · cases hwaits
          · dsimp only at hwaits
            split at hwaits <;> simp [DisplaySession.awaits] at hwaits <;> omega) (hold rfl)
      exact ⟨hsent.knows, hsent.heard⟩
    next hnot =>
      rw [if_neg hnot] at hold
      exact hc.session_move hkeeps (fun _ _ => id) (hold rfl)
  | fail message =>
    simp only [System.step] at hold ⊢
    split
    next hflight =>
      rw [if_pos hflight] at hold
      exact hc.session_move (DisplaySession.failRequest_keeps _ _)
        (fun _ _ hwaits => by cases hwaits) (hold rfl)
    next hnot =>
      rw [if_neg hnot] at hold
      exact hc.session_move hkeeps (fun _ _ => id) (hold rfl)
  | serve k io =>
    simp only [System.step, System.serve] at hsource' hgeneration hold ⊢
    rcases hk : w.wire[k]? with _ | ⟨id, method⟩
    · rw [hk] at hold
      exact hc.supervisor_move rfl (fun r hr => Or.inl hr) (hold rfl)
    · rw [hk] at hsource' hgeneration hold
      cases method with
      | status =>
        refine hc.supervisor_move rfl (fun r hr => ?_) (hold rfl)
        refine (List.mem_append.mp hr).imp_right fun hr s hs => ?_
        obtain rfl := List.mem_singleton.mp hr
        exact (statusReply_source (Except.ok.inj hs)).symm.trans hsource
      | acknowledge generation =>
        refine hc.supervisor_move hgeneration (fun r hr => ?_) (hold rfl)
        refine (List.mem_append.mp hr).imp_right fun hr s hs => ?_
        obtain rfl := List.mem_singleton.mp hr
        dsimp only at hs hsource'
        cases hanswer : (Supervisor.reply cfg w.supervisor
            (.acknowledge generation io)).getD (.error "") with
        | error detail =>
          rw [hanswer] at hs
          cases hs
        | ok _ =>
          rw [hanswer] at hs
          exact (statusReply_source (Except.ok.inj hs)).symm.trans hsource'
  | deliver k look =>
    simp only [System.step, System.deliver] at hCopied hold ⊢
    rcases hk : w.replies[k]? with _ | ⟨id, reply⟩
    · rw [hk] at hold
      exact hc.supervisor_move rfl (fun r hr => Or.inl hr) (hold rfl)
    · rw [hk] at hCopied hold
      dsimp only at hCopied hold ⊢
      split
      next hawaits =>
        rw [if_pos hawaits] at hCopied
        refine ⟨.consumeResponse h hh hretired hsource hk hawaits hCopied, ?_⟩
        intro _ r _ hwaits
        dsimp only [System.onScreen] at hwaits
        rw [Screen.consumeResponse_awaits] at hwaits
        cases hwaits
      next hnot =>
        rw [if_neg hnot] at hold
        exact hc.supervisor_move rfl (fun r hr => Or.inl (List.mem_of_mem_eraseIdx hr)) (hold rfl)
  | reopen look =>
    exact .surface_move h hh hretired hsource (Surface.turns_reopen h.screen.told look)
      (Surface.reopen_frameFile _ look) hCopied
  | pollFrame aged views =>
    exact .surface_move h hh hretired hsource
      (Surface.turns_pollFrame h.screen.told aged views) (Surface.pollFrame_frameFile _ aged views)
      hCopied

end Step

/-- A move that gives the supervisor an input leaves the screen alone. -/
theorem step_screen (cfg : Config) (paths : FramePaths) {w : System} {m : Move} {i : Supervisor.Input} (hi : w.input m = some i) :
    (w.step cfg paths m).screen = w.screen := by
  cases m with
  | supervise => rfl
  | serve k io =>
    simp only [System.step, System.serve]
    rcases w.wire[k]? with _ | ⟨id, method⟩
    · rfl
    · cases method <;> rfl
  | _ => cases hi

/-- **Every move** keeps what is known during a handoff. -/
theorem handed_step (cfg : Config) {w : System} (m : Move) (h : w.Traced paths Past Copied)
    (hh : w.Handed paths Past Copied) :
    (w.step cfg paths m).Handed paths
      (fun s => Past s ∨ s = (w.step cfg paths m).supervisor)
      (fun path => Copied path ∨ (w.step cfg paths m).screen.surface.Shows path) := by
  have htraced : (w.step cfg paths m).Traced paths
      (fun s => Past s ∨ s = (w.step cfg paths m).supervisor)
      (fun path => Copied path ∨ (w.step cfg paths m).screen.surface.Shows path) :=
    traced_step (h.mono (fun _ => Or.inl) fun _ => Or.inl) (Or.inr rfl) fun _ => Or.inr
  refine ⟨?_, ?_, ?_⟩
  · cases hi : w.input m with
    | none =>
      have hsame : (w.step cfg paths m).supervisor = w.supervisor := by
        rw [step_supervisor, hi]
        rfl
      rw [hsame]
      have hPast : ∀ s, Past s ∨ s = w.supervisor → Past s := by
        rintro s (hs | rfl)
        · exact hs
        · exact h.now
      exact ⟨fun s hs => hh.lineage.launched s (hPast s hs),
        fun hretired child hsource s hs => hh.lineage.unique hretired child hsource s (hPast s hs)⟩
    | some i =>
      have hstepped : (w.step cfg paths m).supervisor = Supervisor.step cfg w.supervisor i := by
        rw [step_supervisor, hi]
        rfl
      rw [hstepped]
      exact lineage_step h.slots hh.lineage fun _ => id
  · rintro child (hold | hshows)
    · obtain ⟨s, hs, hsource⟩ := hh.copied child hold
      exact ⟨s, Or.inl hs, hsource⟩
    · obtain ⟨-, s, hs, hsource, -⟩ :=
        htraced.screen.sourced (htraced.bound.symm.trans hshows.1)
      exact ⟨s, hs, hsource⟩
  · intro hretired child hsource
    cases hi : w.input m with
    | none =>
      have hsame : (w.step cfg paths m).supervisor = w.supervisor := by
        rw [step_supervisor, hi]
        rfl
      exact coherent_step h hh (hsame ▸ hretired) (hsame ▸ hsource) hsource (by rw [hsame])
        fun _ => id
    | some i =>
      have hstepped : (w.step cfg paths m).supervisor = Supervisor.step cfg w.supervisor i := by
        rw [step_supervisor, hi]
        rfl
      obtain ⟨worker, hworker, rfl⟩ := Option.map_eq_some_iff.mp hsource
      have hdescends := descends_step cfg i h.slots
      rw [← hstepped] at hdescends
      rcases hdescends.handoff worker hretired hworker with
        ⟨hopen, hgeneration, hkept⟩ | ⟨w₀, hw₀, hsame⟩
      · exact coherent_step h hh hopen hkept hsource hgeneration fun _ => id
      · -- the process was on trial: nobody has heard of it
        have hunknown : ∀ s, Past s → s.source ≠ some worker.child := fun s hs hs' =>
          (hh.lineage.launched s hs _ hs').2 w₀ hw₀ hsame
        have hscreen := step_screen cfg paths hi
        have hfile : w.screen.session.frameFile ≠ paths.path worker.child := by
          intro hfile
          obtain ⟨-, s, hs, hs', -⟩ := h.screen.sourced hfile
          exact hunknown s hs hs'
        refine ⟨⟨fun hold => ?_, fun hcopied => ?_⟩, fun hold => ?_⟩
        · rw [hscreen] at hold
          exact absurd hold hfile
        · rw [hscreen] at hcopied
          obtain ⟨s, hs, hs'⟩ := hh.copied _ (hcopied.elim id (h.showing _))
          exact absurd hs' (hunknown s hs)
        · rw [hscreen] at hold
          exact absurd hold hfile

end Coherent

end Kwe.Display
