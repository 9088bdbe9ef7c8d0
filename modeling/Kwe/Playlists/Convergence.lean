import Kwe.Foundation.Runs
import Kwe.Manager.Clients
import Kwe.Playlists.Editor

/-!
The playlist editor and the client it sends its edits through: one request at a
time, a bounded queue, and a count of the edits that are not answered yet.

* `step_inv`: what every step keeps that drops no edit;
* `edits_accounted`: in runs of such steps the count is that of the edits not
  answered, and with none of them the view is the list answered last;
* `edit_dropped`: a lost connection with a full queue leaves an edit in the count.
-/

namespace Kwe.Playlists.Editor

open Foundation Foundation.Runs
open Kwe.Manager (State maxQueuedOperations)

/-! ## Requests -/

inductive Op
  /-- `playlist.list`. -/
  | list
  /-- `playlist.import` of what the settings held before. -/
  | importLegacy (playlists : List Json)
  | edit (edit : Edit)

namespace Op

def isEdit : Op → Bool
  | .edit _ => true
  | .list | .importLegacy _ => false

def isList : Op → Bool
  | .list => true
  | .importLegacy _ | .edit _ => false

end Op

/-- A reply that is a JSON object: `ok`, the playlists of its result, and the error
with its detail. -/
structure Reply where
  ok : Bool
  playlists : List (Option Record)
  error : List Char
  detail : List Char

/-- The text that a callback is given. -/
def Reply.errorText (r : Reply) : List Char :=
  if r.ok then [] else if r.detail = [] then r.error else r.error ++ ": ".toList ++ r.detail

def Reply.importBlocked (r : Reply) : Bool := decide ("playlist_import_blocked".toList <:+: r.errorText)

/-! ## Controller and client -/

/-- The state of both, and what has happened so far: the edits issued and answered,
and the list of the last answer, if it was one. -/
structure World where
  state : State
  current : Option Op
  /-- There is a connection, or one is being made. -/
  connected : Bool
  queue : List Op
  retryActive : Bool
  view : View
  loaded : Bool
  /-- The flag in the settings. -/
  migrated : Bool
  pendingEdits : Int
  issued : Nat
  answered : Nat
  listed : Option (List (Option Record))

namespace World

def setState (w : World) (state : State) : World := { w with state := state }

def begin (w : World) (op : Op) : World :=
  { w with current := some op, state := .loading, connected := true }

def retryLater (w : World) : World := { w with retryActive := true }

def drainQueue (w : World) : World :=
  match w.queue with
  | [] => w
  | next :: queue => { w with queue := queue }.begin next

/-- `send`, where `refuse` is the callback that is told that the queue is full. -/
def send (op : Op) (refuse : World → World) (w : World) : World :=
  if w.state = .loading then
    if maxQueuedOperations ≤ w.queue.length then refuse w
    else { w with queue := w.queue ++ [op] }
  else w.begin op

/-- `refresh`. -/
def refresh (w : World) : World := w.send .list fun w => { w with listed := none }.setState .error

/-- The handlers of `putFinished` and `removeFinished`. -/
def editFinished (w : World) : World :=
  let w := { w with
    pendingEdits := w.pendingEdits - 1
    answered := w.answered + 1
    listed := none }
  if w.pendingEdits = 0 then w.refresh else w

/-- The handler of `importFinished`: `done` if the import succeeded or was blocked. -/
def importFinished (done : Bool) (w : World) : World :=
  let w := { w with listed := none }
  if done then { w with migrated := true }.refresh else w

/-- `legacy` is what the settings hold, if it is valid. -/
def onPlaylistsReceived (legacy : List Json) (playlists : List (Option Record)) (w : World) :
    World :=
  if w.migrated = false ∧ legacy ≠ [] then
    w.send (.importLegacy legacy) (importFinished false)
  else
    let w := { w with migrated := true }
    if 0 < w.pendingEdits then w else { w with view := applyList playlists, loaded := true }

/-- The callback of an answered operation. -/
def callback (legacy : List Json) (op : Op) (reply : Reply) (w : World) : World :=
  match op with
  | .list =>
    if reply.ok then
      { w with listed := some reply.playlists }.onPlaylistsReceived legacy reply.playlists
    else { w with listed := none }.setState .error
  | .importLegacy _ => w.importFinished (reply.ok || reply.importBlocked)
  | .edit _ => w.editFinished

def consumeResponse (legacy : List Json) (reply : Reply) (w : World) : World :=
  match w.current with
  | none => { w with connected := false }
  | some op =>
    ({ w with connected := false, current := none, state := .ready }.callback legacy op
      reply).drainQueue

/-- The operation that is dropped to make room has no callback called. -/
def failCurrent (w : World) : World :=
  let w := { w with connected := false }
  match w.current with
  | none => (w.setState .error).retryLater
  | some op =>
    let queue := if maxQueuedOperations ≤ w.queue.length then w.queue.dropLast else w.queue
    (({ w with queue := op :: queue, current := none }).setState .error).retryLater

def retryTimeout (w : World) : World :=
  let w := { w with retryActive := false }
  if w.state = .loading then w else w.drainQueue

/-- A call of the editor. -/
def call (c : Call) (w : World) : World :=
  let (view, edit) := w.view.edit w.loaded c
  let w := { w with view := view }
  match edit with
  | none => w
  | some edit =>
    { w with pendingEdits := w.pendingEdits + 1, issued := w.issued + 1, listed := none }.send
      (.edit edit) editFinished

end World

inductive Event
  | call (c : Call)
  | connectionError
  /-- A reply that is too large or no JSON object. -/
  | badReply
  | reply (reply : Reply)
  | retryTimeout

def World.step (legacy : List Json) (w : World) : Event → World
  | .call c => w.call c
  | .connectionError => w.failCurrent
  | .badReply => if w.connected then w.failCurrent else w
  | .reply r => if w.connected then w.consumeResponse legacy r else w
  | .retryTimeout => if w.retryActive then w.retryTimeout else w

/-- The controller refreshes the list when it is made. -/
def World.start (migrated : Bool) : World :=
  World.refresh
    { state := .disconnected
      current := none
      connected := false
      queue := []
      retryActive := false
      view := .empty
      loaded := false
      migrated := migrated
      pendingEdits := 0
      issued := 0
      answered := 0
      listed := none }

/-! ## What is pending -/

namespace World

/-- The operations that are in flight or wait. -/
def ops (w : World) : List Op := w.current.toList ++ w.queue

def edits (w : World) : Nat := w.ops.countP Op.isEdit

/-- Lists and imports. -/
def others (w : World) : Nat := w.ops.countP fun op => !op.isEdit

end World

/-- A failure that finds the queue full and an edit at its end drops that edit. -/
def DropsEdit (w : World) : Event → Prop
  | .connectionError | .badReply =>
    w.current.isSome = true ∧ maxQueuedOperations ≤ w.queue.length ∧
      ∃ op, w.queue.getLast? = some op ∧ op.isEdit = true
  | _ => False

structure Inv (w : World) : Prop where
  state : w.state = .loading ↔ w.current.isSome = true
  connected : w.connected = w.current.isSome
  others : w.others ≤ 1
  pending : w.pendingEdits = w.edits
  issued : w.issued = w.answered + w.edits
  listed : ∀ l, w.listed = some l → w.view = applyList l ∨ ∃ op ∈ w.ops, op.isList = false

/-- What holds before the queue is drained: the operation that a callback has begun, if
any, may be abandoned for the next of the queue. -/
structure Drainable (w : World) : Prop where
  state : w.state = .loading ↔ w.current.isSome = true
  connected : w.connected = w.current.isSome
  current : ∀ op, w.current = some op → op.isEdit = false
  others : w.queue.countP (fun op => !op.isEdit) ≤ 1
  pending : w.pendingEdits = w.queue.countP Op.isEdit
  issued : w.issued = w.answered + w.queue.countP Op.isEdit
  listed : ∀ l, w.listed = some l → w.view = applyList l ∨ (∃ op ∈ w.queue, op.isList = false) ∨
    (w.queue = [] ∧ ∃ op, w.current = some op ∧ op.isList = false)

theorem edits_add_others (w : World) : w.edits + w.others = w.ops.length := by
  rw [World.edits, World.others, List.length_eq_countP_add_countP Op.isEdit]
  simp

theorem isList_of_isEdit {op : Op} (h : op.isEdit = true) : op.isList = false := by
  cases op with
  | edit => rfl
  | list => cases h
  | importLegacy => cases h

theorem exists_edit {w : World} (h : 0 < w.edits) : ∃ op ∈ w.ops, op.isList = false := by
  obtain ⟨op, hop, hedit⟩ := List.countP_pos_iff.mp h
  exact ⟨op, hop, isList_of_isEdit hedit⟩

theorem Drainable.drain {w : World} (h : Drainable w) : Inv w.drainQueue := by
  unfold World.drainQueue
  split
  next hqueue =>
    have hops : w.ops = w.current.toList := by simp [World.ops, hqueue]
    have hedits : w.edits = 0 := by
      rw [World.edits, hops]
      cases hc : w.current with
      | none => rfl
      | some op => simp [h.current op hc]
    refine ⟨h.state, h.connected, ?_, ?_, ?_, ?_⟩
    · rw [World.others, hops]
      exact Nat.le_trans List.countP_le_length (by cases w.current <;> simp)
    · rw [h.pending, hedits, hqueue]
      rfl
    · rw [h.issued, hedits, hqueue]
      rfl
    · intro l hl
      rcases h.listed l hl with hview | ⟨op, hop, -⟩ | ⟨-, op, hop, hother⟩
      · exact .inl hview
      · simp [hqueue] at hop
      · exact .inr ⟨op, by simp [hops, hop], hother⟩
  next next queue hqueue =>
    have hops : ({ w with queue := queue }.begin next).ops = w.queue := by
      simp [World.ops, World.begin, hqueue]
    refine ⟨by simp [World.begin], by simp [World.begin], ?_, ?_, ?_, ?_⟩
    · rw [World.others, hops]
      exact h.others
    · rw [World.edits, hops]
      exact h.pending
    · rw [World.edits, hops]
      exact h.issued
    · intro l hl
      rw [hops]
      rcases h.listed l hl with hview | hother | ⟨hnil, -⟩
      · exact .inl hview
      · exact .inr hother
      · simp [hqueue] at hnil

/-! ## Callbacks -/

/-- A refresh or an import that a callback asks for is begun at once. -/
theorem send_ready {w : World} (hstate : w.state ≠ .loading) (op : Op) (refuse : World → World) :
    w.send op refuse = w.begin op := if_neg hstate

theorem Drainable.begin {w : World} (h : Drainable w) {op : Op} (hop : op.isEdit = false)
    (hlisted : w.listed = none) : Drainable (w.begin op) := by
  refine ⟨by simp [World.begin], by simp [World.begin], ?_, h.others, h.pending, h.issued, ?_⟩
  · rintro _ ⟨⟩
    exact hop
  · intro l hl
    rw [show (w.begin op).listed = w.listed from rfl, hlisted] at hl
    cases hl

/-- What is left when the answered operation is taken away. -/
def World.taken (w : World) : World :=
  { w with connected := false, current := none, state := .ready }

theorem editFinished_drainable {w : World} {e : Edit} (h : Inv w)
    (hcurrent : w.current = some (.edit e)) : Drainable w.taken.editFinished := by
  have hedits : w.edits = w.queue.countP Op.isEdit + 1 := by
    simp [World.edits, World.ops, hcurrent, List.countP_cons, Op.isEdit]
  have hothers : w.others = w.queue.countP fun op => !op.isEdit := by
    simp [World.others, World.ops, hcurrent, Op.isEdit]
  have hw : Drainable { w.taken with
      pendingEdits := w.pendingEdits - 1
      answered := w.answered + 1
      listed := none } := by
    refine ⟨by simp [World.taken], rfl, nofun, hothers ▸ h.others, ?_, ?_, nofun⟩
    · have hpending := h.pending
      simp only [World.taken]
      omega
    · have hissued := h.issued
      simp only [World.taken]
      omega
  unfold World.editFinished
  dsimp only
  split
  · rw [World.refresh, send_ready (by simp [World.taken])]
    exact hw.begin rfl rfl
  · exact hw

theorem importFinished_drainable {w : World} {legacy : List Json} (h : Inv w)
    (hcurrent : w.current = some (.importLegacy legacy)) (done : Bool) :
    Drainable (w.taken.importFinished done) := by
  have hedits : w.edits = w.queue.countP Op.isEdit := by
    simp [World.edits, World.ops, hcurrent, Op.isEdit]
  have hothers : w.others = (w.queue.countP fun op => !op.isEdit) + 1 := by
    simp [World.others, World.ops, hcurrent, Op.isEdit]
  have hle := h.others
  have hw (migrated : Bool) : Drainable { w.taken with migrated := migrated, listed := none } := by
    refine ⟨by simp [World.taken], rfl, nofun, ?_, hedits ▸ h.pending, hedits ▸ h.issued, nofun⟩
    simp only [World.taken]
    omega
  unfold World.importFinished
  dsimp only
  split
  · rw [World.refresh, send_ready (by simp [World.taken])]
    exact (hw true).begin rfl rfl
  · exact hw w.migrated

/-- A list that was asked for alone, with nothing but edits behind it. -/
theorem received_drainable {w : World} {playlists : List (Option Record)} {legacy : List Json}
    (hstate : w.state = .ready) (hcurrent : w.current = none) (hconnected : w.connected = false)
    (hlisted : w.listed = some playlists) (hall : ∀ op ∈ w.queue, op.isEdit = true)
    (hpending : w.pendingEdits = w.queue.countP Op.isEdit)
    (hissued : w.issued = w.answered + w.queue.countP Op.isEdit) :
    Drainable (w.onPlaylistsReceived legacy playlists) := by
  have hnone : (w.queue.countP fun op => !op.isEdit) = 0 := by simpa using hall
  unfold World.onPlaylistsReceived
  split
  · -- An import is begun, or the next edit in its place.
    rw [send_ready (by simp [hstate])]
    refine ⟨by simp [World.begin], by simp [World.begin], ?_, by simp [World.begin, hnone],
      hpending, hissued, ?_⟩
    · rintro _ ⟨⟩
      rfl
    · intro l _
      cases hqueue : w.queue with
      | nil => exact .inr (.inr ⟨hqueue, _, rfl, rfl⟩)
      | cons op queue =>
        have hop : op ∈ w.queue := by simp [hqueue]
        exact .inr (.inl ⟨op, hop, isList_of_isEdit (hall op hop)⟩)
  · dsimp only
    split
    next hpositive =>
      refine ⟨by simp [hstate, hcurrent], by simp [hconnected, hcurrent], by simp [hcurrent],
        by simp [hnone], hpending, hissued, fun l _ => ?_⟩
      obtain ⟨op, hop, hedit⟩ := List.countP_pos_iff.mp
        (show 0 < w.queue.countP Op.isEdit by omega)
      exact .inr (.inl ⟨op, hop, isList_of_isEdit hedit⟩)
    next =>
      refine ⟨by simp [hstate, hcurrent], by simp [hconnected, hcurrent], by simp [hcurrent],
        by simp [hnone], hpending, hissued, fun l hl => ?_⟩
      obtain rfl := Option.some.inj (hlisted.symm.trans hl)
      exact .inl rfl

theorem list_drainable {w : World} (h : Inv w) (hcurrent : w.current = some .list)
    (legacy : List Json) (reply : Reply) : Drainable (w.taken.callback legacy .list reply) := by
  have hedits : w.edits = w.queue.countP Op.isEdit := by
    simp [World.edits, World.ops, hcurrent, Op.isEdit]
  have hothers : w.others = (w.queue.countP fun op => !op.isEdit) + 1 := by
    simp [World.others, World.ops, hcurrent, Op.isEdit]
  have hle := h.others
  have hnone : (w.queue.countP fun op => !op.isEdit) = 0 := by omega
  have hall : ∀ op ∈ w.queue, op.isEdit = true := by simpa using hnone
  have hpending : w.pendingEdits = w.queue.countP Op.isEdit := hedits ▸ h.pending
  have hissued : w.issued = w.answered + w.queue.countP Op.isEdit := hedits ▸ h.issued
  unfold World.callback
  dsimp only
  split
  · exact received_drainable rfl rfl rfl rfl hall hpending hissued
  · exact ⟨by simp [World.setState, World.taken], rfl, nofun,
      by simp [World.setState, World.taken, hnone], hpending, hissued, nofun⟩

theorem consumeResponse_inv {w : World} (h : Inv w) (legacy : List Json) (reply : Reply) :
    Inv (w.consumeResponse legacy reply) := by
  unfold World.consumeResponse
  split
  next hcurrent =>
    refine ⟨h.state, ?_, h.others, h.pending, h.issued, h.listed⟩
    rw [hcurrent]
    rfl
  next op hcurrent =>
    cases op with
    | list => exact (list_drainable h hcurrent legacy reply).drain
    | importLegacy _ => exact (importFinished_drainable h hcurrent _).drain
    | edit _ => exact (editFinished_drainable h hcurrent).drain

/-! ## Failures, retries and calls -/

theorem failCurrent_idle {w : World} (h : Inv w) (hcurrent : w.current = none) :
    Inv w.failCurrent := by
  have hops : w.ops = w.queue := by simp [World.ops, hcurrent]
  have hothers := h.others
  have hpending := h.pending
  have hissued := h.issued
  have hlisted := h.listed
  rw [World.others, hops] at hothers
  rw [World.edits, hops] at hpending hissued
  rw [hops] at hlisted
  simp only [World.failCurrent, hcurrent, World.setState, World.retryLater]
  exact ⟨by simp, rfl, hothers, hpending, hissued, hlisted⟩

/-- The last operation of a full queue is taken out, and no edit with it. -/
theorem failCurrent_inv {w : World} (h : Inv w)
    (hkept : ¬ (w.current.isSome = true ∧ maxQueuedOperations ≤ w.queue.length ∧
      ∃ op, w.queue.getLast? = some op ∧ op.isEdit = true)) : Inv w.failCurrent := by
  cases hcurrent : w.current with
  | none => exact failCurrent_idle h hcurrent
  | some op =>
    have hops : w.ops = op :: w.queue := by simp [World.ops, hcurrent]
    have hothers := h.others
    have hlisted := h.listed
    simp only [hcurrent, Option.isSome_some, true_and] at hkept
    simp only [World.failCurrent, hcurrent, World.setState, World.retryLater]
    split
    next hfull =>
      rcases List.eq_nil_or_concat w.queue with hnil | ⟨queue, last, hqueue⟩
      · simp [hnil, maxQueuedOperations] at hfull
      have hlast : last.isEdit = false := by
        rw [hqueue] at hkept hfull
        by_contra hedit
        exact hkept ⟨hfull, last, by simp, by simpa using hedit⟩
      have hsame : (op :: w.queue.dropLast).countP Op.isEdit = w.edits := by
        rw [World.edits, hops, hqueue]
        simp [List.countP_cons, List.countP_append, hlast]
      have hfewer : ((op :: w.queue.dropLast).countP fun op => !op.isEdit) + 1 = w.others := by
        rw [World.others, hops, hqueue]
        simp [List.countP_cons, List.countP_append, hlast]
        omega
      have hedit : 0 < w.edits := by
        have hsum := edits_add_others w
        rw [hops, List.length_cons] at hsum
        simp only [maxQueuedOperations] at hfull
        omega
      refine ⟨by simp, rfl, ?_, ?_, ?_, ?_⟩
      · simp only [World.others, World.ops, Option.toList_none, List.nil_append]
        omega
      · simp only [World.edits, World.ops, Option.toList_none, List.nil_append, hsame]
        exact h.pending
      · simp only [World.edits, World.ops, Option.toList_none, List.nil_append, hsame]
        exact h.issued
      · intro l _
        rw [← hsame] at hedit
        obtain ⟨op', hop', hisEdit⟩ := List.countP_pos_iff.mp hedit
        exact .inr ⟨op', hop', isList_of_isEdit hisEdit⟩
    next =>
      rw [hops] at hlisted
      refine ⟨by simp, rfl, ?_, ?_, ?_, hlisted⟩
      · rwa [World.others, hops] at hothers
      · rw [h.pending, World.edits, hops]
        rfl
      · rw [h.issued, World.edits, hops]
        rfl

theorem retryTimeout_inv {w : World} (h : Inv w) : Inv w.retryTimeout := by
  unfold World.retryTimeout
  dsimp only
  split
  · exact ⟨h.state, h.connected, h.others, h.pending, h.issued, h.listed⟩
  next hstate =>
    have hcurrent : w.current = none := by
      cases hc : w.current with
      | none => rfl
      | some op => exact absurd (h.state.mpr (by simp [hc])) hstate
    have hops : w.ops = w.queue := by simp [World.ops, hcurrent]
    have hothers := h.others
    have hpending := h.pending
    have hissued := h.issued
    have hlisted := h.listed
    rw [World.others, hops] at hothers
    rw [World.edits, hops] at hpending hissued
    rw [hops] at hlisted
    refine Drainable.drain ⟨h.state, h.connected, ?_, hothers, hpending, hissued, ?_⟩
    · simp [hcurrent]
    · intro l hl
      exact (hlisted l hl).imp_right .inl

theorem edit_none (loaded : Bool) (view : View) (c : Call)
    (h : (view.edit loaded c).2 = none) : (view.edit loaded c).1 = view := by
  rcases edit_cases loaded view c with
    hsame | ⟨-, -, view', hsent, -⟩ | ⟨-, view', hsent, -⟩ | ⟨-, view', hremoved, -⟩
  · rw [hsame]
  · simp [hsent, View.sent] at h
  · simp [hsent, View.sent] at h
  · simp [hremoved] at h

theorem issue_inv {w : World} (h : Inv w) (view : View) (e : Edit) :
    Inv ({ w with
      view := view
      pendingEdits := w.pendingEdits + 1
      issued := w.issued + 1
      listed := none }.send (.edit e) World.editFinished) := by
  have hpending := h.pending
  have hissued := h.issued
  have hothers := h.others
  unfold World.send
  split
  next hloading =>
    obtain ⟨op, hcurrent⟩ := Option.isSome_iff_exists.mp (h.state.mp hloading)
    split
    next hfull =>
      -- Behind a full queue at least one edit waits, so that nothing is refreshed.
      have hedits : w.edits ≠ 0 := by
        have hsum := edits_add_others w
        rw [World.ops, hcurrent, Option.toList_some, List.length_append] at hsum
        simp only [maxQueuedOperations] at hfull
        omega
      unfold World.editFinished
      dsimp only
      rw [if_neg (by omega)]
      refine ⟨h.state, h.connected, hothers, ?_, ?_, nofun⟩
      · change w.pendingEdits + 1 - 1 = (w.edits : Int)
        omega
      · change w.issued + 1 = w.answered + 1 + w.edits
        omega
    next =>
      refine ⟨h.state, h.connected, ?_, ?_, ?_, nofun⟩
      · simpa [World.others, World.ops, List.countP_append, Op.isEdit] using hothers
      · rw [hpending]
        simp [World.edits, World.ops, List.countP_append, Op.isEdit]
        omega
      · rw [hissued]
        simp [World.edits, World.ops, List.countP_append, Op.isEdit]
        omega
  next hstate =>
    have hcurrent : w.current = none := by
      cases hc : w.current with
      | none => rfl
      | some op => exact absurd (h.state.mpr (by simp [hc])) hstate
    rw [World.others, World.ops, hcurrent, Option.toList_none, List.nil_append] at hothers
    rw [World.edits, World.ops, hcurrent, Option.toList_none, List.nil_append] at hpending hissued
    refine ⟨by simp [World.begin], by simp [World.begin], ?_, ?_, ?_, nofun⟩
    · simpa [World.others, World.ops, World.begin, Op.isEdit] using hothers
    · simp [World.edits, World.ops, World.begin, List.countP_cons, Op.isEdit]
      omega
    · simp [World.edits, World.ops, World.begin, List.countP_cons, Op.isEdit]
      omega

theorem call_inv {w : World} (h : Inv w) (c : Call) : Inv (w.call c) := by
  unfold World.call
  split
  next view edit hedit =>
    cases edit with
    | none =>
      have hview : view = w.view := by
        have hsame := edit_none w.loaded w.view c (by rw [hedit])
        rwa [hedit] at hsame
      subst hview
      exact h
    | some e => exact issue_inv h view e

/-- **One step.** -/
theorem step_inv {w : World} {legacy : List Json} {e : Event} (h : Inv w) (hkept : ¬ DropsEdit w e) :
    Inv (w.step legacy e) := by
  cases e with
  | call c => exact call_inv h c
  | connectionError => exact failCurrent_inv h hkept
  | badReply =>
    unfold World.step
    dsimp only
    split
    · exact failCurrent_inv h hkept
    · exact h
  | reply r =>
    unfold World.step
    dsimp only
    split
    · exact consumeResponse_inv h legacy r
    · exact h
  | retryTimeout =>
    unfold World.step
    dsimp only
    split
    · exact retryTimeout_inv h
    · exact h

theorem start_inv (migrated : Bool) : Inv (World.start migrated) := by
  refine ⟨by decide +revert, by decide +revert, ?_, ?_, ?_, nofun⟩ <;> cases migrated <;> decide

/-- **Runs.**  As long as no edit is dropped, the count is that of the edits issued and
not answered, all of which are in flight or wait; and once a list has been answered with
nothing pending but lists, the view is what that list says. -/
theorem edits_accounted (legacy : List Json) (migrated : Bool) (events : List Event)
    (h : Along (World.step legacy) (fun w e => ¬ DropsEdit w e) (World.start migrated) events) :
    let w := run (World.step legacy) (World.start migrated) events
    w.pendingEdits = (w.issued : Int) - w.answered ∧ w.pendingEdits = w.edits ∧
      ((∀ op ∈ w.ops, op.isList = true) → ∀ l, w.listed = some l →
        w.view = applyList l ∧ ∀ playlists : List Playlist, l = records playlists →
          (∀ p ∈ playlists, p.validate = .ok ()) → (playlists.map shownTitle).Nodup →
          w.view.Shows playlists) := by
  intro w
  have hw : Inv w := invariant_run (fun _ _ hs hkept => step_inv hs hkept) (start_inv migrated) h
  have hpending := hw.pending
  have hissued := hw.issued
  refine ⟨by omega, hpending, ?_⟩
  intro hlists l hl
  have hview : w.view = applyList l := by
    rcases hw.listed l hl with hview | ⟨op, hop, hother⟩
    · exact hview
    · rw [hlists op hop] at hother
      cases hother
  refine ⟨hview, ?_⟩
  rintro playlists rfl hvalid hnodup
  rw [hview]
  exact applyList_shows hvalid hnodup

def day : Playlist := ⟨"day", "Day", ["1"], false, true, 60, .none, 0⟩

def accepted (playlists : List (Option Record)) : Event := .reply ⟨true, playlists, [], []⟩

theorem edits_accounted_day :
    (run (World.step []) (World.start true)
      [accepted (records [day]), .call (.setShuffle (utf16 "Day") true), accepted [],
        accepted (records [day])]).view.Shows [day] := by
  have h := edits_accounted [] true
    [accepted (records [day]), .call (.setShuffle (utf16 "Day") true), accepted [],
      accepted (records [day])] ⟨id, id, id, id, trivial⟩
  exact (h.2.2 (by decide +kernel) (records [day]) (by rfl)).2 [day] rfl (by decide) (by decide)

/-- Sixty-five edits while the daemon does not answer, a lost connection, and then sixty-four
answers. -/
def overflow : List Event :=
  accepted (records [day]) ::
    List.replicate 65 (.call (.setShuffle (utf16 "Day") true)) ++ [.connectionError, .retryTimeout] ++
    List.replicate 64 (accepted [])

theorem edit_dropped :
    (run (World.step []) (World.start true) overflow).ops.isEmpty = true ∧
      (run (World.step []) (World.start true) overflow).pendingEdits = 1 := by
  decide +kernel

end Kwe.Playlists.Editor
