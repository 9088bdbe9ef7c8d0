import Kwe.Foundation.Runs
import Kwe.Foundation.Tickets
import Kwe.Manager.Clients

/-!
The order in which the clients of the manager have their requests answered.

* `kept_actAll`: what calls and callbacks keep that begin no request before
  another one is done;
* `run_orderly`: in runs of such calls, requests are begun and answered in the
  order in which they were issued, and none is lost.
-/

namespace Kwe.Manager

open Foundation Foundation.Tickets Foundation.Tickets.Ledger Foundation.Runs

/-- The operations as tickets: the current one and the queue wait. -/
def Client.tickets (c : Client) : Ledger where
  live := (c.current.toList ++ c.queue).map (·.serial)
  issued := c.issued
  begun := c.begun
  answered := c.answered
  called := c.called

/-- The request that the daemon has been handed, or is about to be. -/
def Client.inFlight (c : Client) : List Nat :=
  if c.connected then c.current.toList.map (·.serial) else []

/-! ## Calls that wait their turn -/

mutual

/-- An operation is issued while a request is loading, or with nothing before
it. -/
def Calm : Action → Client → Prop
  | .setError, _ => True
  | .issue _ _ onError, c =>
    if c.state = .loading then
      maxQueuedOperations ≤ c.queue.length →
        CalmAll onError { c with issued := c.issued + 1, called := c.called ++ [c.issued] }
    else c.current = none ∧ c.queue = []

def CalmAll : List Action → Client → Prop
  | [], _ => True
  | action :: actions, c => Calm action c ∧ CalmAll actions (act action c)

end

/-- What calm calls keep. -/
structure Kept (c c' : Client) : Prop where
  orderly : c.tickets.Orderly → c'.tickets.Orderly
  threw : c'.threw = c.threw
  linked : c.connected = c.current.isSome → c'.connected = c'.current.isSome
  current : c.current.isSome = true → c'.current = c.current ∧ c'.connected = c.connected

theorem Kept.refl (c : Client) : Kept c c := ⟨id, rfl, id, fun _ => ⟨rfl, rfl⟩⟩

theorem Kept.trans {c c' c'' : Client} (h : Kept c c') (h' : Kept c' c'') : Kept c c'' where
  orderly := fun hc => h'.orderly (h.orderly hc)
  threw := h'.threw.trans h.threw
  linked := fun hc => h'.linked (h.linked hc)
  current := by
    intro hc
    obtain ⟨hcurrent, hconnected⟩ := h.current hc
    obtain ⟨hcurrent', hconnected'⟩ := h'.current (hcurrent ▸ hc)
    exact ⟨hcurrent'.trans hcurrent, hconnected'.trans hconnected⟩

/-- Nothing but the state and the timer is different. -/
theorem Kept.of_tickets {c c' : Client} (htickets : c'.tickets = c.tickets)
    (hthrew : c'.threw = c.threw) (hcurrent : c'.current = c.current)
    (hconnected : c'.connected = c.connected) : Kept c c' where
  orderly := fun hc => htickets ▸ hc
  threw := hthrew
  linked := fun hc => by rw [hconnected, hcurrent, hc]
  current := fun _ => ⟨hcurrent, hconnected⟩

theorem kept_setState (c : Client) (state : State) : Kept c (c.setState state) :=
  Kept.of_tickets rfl rfl rfl rfl

theorem kept_push {c : Client} (pending : Pending) (hserial : pending.serial = c.issued) :
    Kept c { c with issued := c.issued + 1, queue := c.queue ++ [pending] } where
  orderly := fun hc => by
    have hpush := hc.push
    have htickets : Client.tickets { c with issued := c.issued + 1, queue := c.queue ++ [pending] } =
        c.tickets.push := by
      simp [Client.tickets, Ledger.push, hserial]
    rwa [htickets]
  threw := rfl
  linked := id
  current := fun _ => ⟨rfl, rfl⟩

theorem kept_refuse (c : Client) :
    Kept c { c with issued := c.issued + 1, called := c.called ++ [c.issued] } where
  orderly := fun hc => hc.refuse
  threw := rfl
  linked := id
  current := fun _ => ⟨rfl, rfl⟩

/-- A request is begun with nothing before it. -/
theorem kept_begin {c : Client} (pending : Pending) (hserial : pending.serial = c.issued)
    (hcurrent : c.current = none) (hqueue : c.queue = []) :
    Kept c ({ c with issued := c.issued + 1 }.begin pending) where
  orderly := fun hc => by
    have hlive : c.tickets.push.live = [c.issued] := by
      simp [Client.tickets, Ledger.push, hcurrent, hqueue]
    have hbegin := hc.push.begin hlive
    have htickets : ({ c with issued := c.issued + 1 }.begin pending).tickets =
        { c.tickets.push with begun := c.tickets.push.begun ++ [c.issued] } := by
      simp [Client.tickets, Ledger.push, Client.begin, Client.setState, hcurrent, hqueue, hserial]
    rwa [htickets]
  threw := rfl
  linked := fun _ => rfl
  current := fun hc => by
    rw [hcurrent] at hc
    cases hc

mutual

theorem kept_act : ∀ (action : Action) (c : Client), Calm action c → Kept c (act action c)
  | .setError, c, _ => kept_setState c .error
  | .issue request onOk onError, c, hcalm => by
    rw [Calm] at hcalm
    rw [act]
    by_cases hloading : c.state = .loading
    · rw [if_pos hloading] at hcalm
      dsimp only
      rw [if_pos hloading]
      by_cases hfull : maxQueuedOperations ≤ c.queue.length
      · rw [if_pos hfull]
        exact (kept_refuse c).trans (kept_actAll onError _ (hcalm hfull))
      · rw [if_neg hfull]
        exact kept_push _ rfl
    · rw [if_neg hloading] at hcalm
      dsimp only
      rw [if_neg hloading]
      exact kept_begin _ rfl hcalm.1 hcalm.2

/-- **Calm calls.**  They keep the order of the operations, and a request that
is under way. -/
theorem kept_actAll : ∀ (actions : List Action) (c : Client), CalmAll actions c →
    Kept c (actAll actions c)
  | [], c, _ => by
    rw [actAll]
    exact Kept.refl c
  | action :: actions, c, hcalm => by
    rw [CalmAll] at hcalm
    rw [actAll]
    exact (kept_act action c hcalm.1).trans (kept_actAll actions _ hcalm.2)

end

/-! ## Steps -/

def Action.isIssue : Action → Bool
  | .issue _ _ _ => true
  | .setError => false

/-- A request fails: there is room for it in the queue, or the operation that
gives way is told of it, in a call that waits its turn. -/
def Client.FailsCalmly (kind : Kind) (c : Client) : Prop :=
  c.current.isSome = true → maxQueuedOperations ≤ c.queue.length →
    kind = .permissions ∧ ∀ dropped ∈ c.queue.getLast?, CalmAll dropped.onError
      { c with queue := c.queue.dropLast, called := c.called ++ [dropped.serial] }

/-- A request is answered: its callback issues nothing, or one operation that
finds the queue empty. -/
def Client.RepliesCalmly (c : Client) (ok : Bool) : Prop :=
  ∀ pending ∈ c.current,
    let issues := (if ok then pending.onOk else pending.onError).countP Action.isIssue
    issues = 0 ∨ issues = 1 ∧ c.queue = []

/-- What a run may be asked: no request is begun before another one is done. -/
def Client.Calm (kind : Kind) (c : Client) : Event → Prop
  | .call actions => CalmAll actions c
  | .connectionError => { c with connected := false }.FailsCalmly kind
  | .oversizedReply | .invalidReply =>
    c.connected = true → { c with connected := false }.FailsCalmly kind
  | .reply ok => c.connected = true → c.RepliesCalmly ok
  | .retryTimeout =>
    c.retryActive = true → c.state = .loading ∨ c.current = none ∨ c.queue = []

/-- What holds between two events. -/
structure Client.Inv (c : Client) : Prop where
  orderly : c.tickets.Orderly
  linked : c.connected = c.current.isSome
  threw : c.threw = false

theorem Kept.inv {c c' : Client} (h : Kept c c') (hc : c.Inv) : c'.Inv :=
  ⟨h.orderly hc.orderly, h.linked hc.linked, h.threw.trans hc.threw⟩

theorem retryLater_eq (c : Client) :
    ∃ active delay, c.retryLater = { c with retryActive := active, retryDelay := delay } := by
  unfold Client.retryLater
  split
  · exact ⟨_, _, rfl⟩
  · exact ⟨_, _, rfl⟩

theorem kept_retryLater (c : Client) : Kept c c.retryLater := by
  obtain ⟨active, delay, h⟩ := retryLater_eq c
  rw [h]
  exact Kept.of_tickets rfl rfl rfl rfl

/-- Making room drops at most the last operation of the queue, and calls its
callback. -/
theorem makeRoom_kept {kind : Kind} {c : Client} (hc : c.tickets.Orderly)
    (hcalm : c.FailsCalmly kind) (hcurrent : c.current.isSome = true) :
    (c.makeRoom kind).tickets.Orderly ∧ (c.makeRoom kind).threw = c.threw ∧
      (c.makeRoom kind).current = c.current ∧ (c.makeRoom kind).connected = c.connected := by
  unfold Client.makeRoom
  split
  next => exact ⟨hc, rfl, rfl, rfl⟩
  next hfull =>
    obtain ⟨rfl, hdropped⟩ := hcalm hcurrent (Nat.not_lt.mp hfull)
    obtain ⟨queue, dropped, hqueue⟩ : ∃ queue dropped, c.queue = queue ++ [dropped] := by
      rcases List.eq_nil_or_concat c.queue with h | ⟨queue, dropped, h⟩
      · rw [h] at hfull
        exact absurd (show 0 < maxQueuedOperations by decide) hfull
      · exact ⟨queue, dropped, by rw [h, List.concat_eq_append]⟩
    have hlast : c.queue.getLast? = some dropped := by rw [hqueue, List.getLast?_concat]
    have hrest : c.queue.dropLast = queue := by rw [hqueue, List.dropLast_concat]
    have hlive : c.tickets.live = (c.current.toList ++ queue).map (·.serial) ++ [dropped.serial] := by
      simp [Client.tickets, hqueue]
    have hkept := kept_actAll dropped.onError _ (hdropped dropped hlast)
    obtain ⟨hsame, hconnected⟩ := hkept.current hcurrent
    have hdrop := hc.dropLast hlive
    rw [hlast]
    rw [hrest] at hkept hsame hconnected ⊢
    exact ⟨hkept.orderly hdrop, hkept.threw, hsame, hconnected⟩

/-- A failed request goes back to the front of the queue. -/
theorem failCurrent_inv {kind : Kind} {c : Client} (hc : c.Inv)
    (hcalm : { c with connected := false }.FailsCalmly kind) : (c.failCurrent kind).Inv := by
  unfold Client.failCurrent
  dsimp only
  split
  next hcurrent =>
    exact (kept_retryLater _).inv ((kept_setState _ _).inv ⟨hc.orderly, by rw [hcurrent]; rfl, hc.threw⟩)
  next pending hcurrent =>
    obtain ⟨horderly, hthrew, -, hconnected⟩ :=
      makeRoom_kept (c := { c with connected := false }) hc.orderly hcalm (by rw [hcurrent]; rfl)
    exact (kept_retryLater _).inv
      ((kept_setState _ _).inv ⟨horderly, hconnected, hthrew.trans hc.threw⟩)

theorem drainQueue_inv {c : Client} (hc : c.Inv) (hcalm : c.current = none ∨ c.queue = []) :
    c.drainQueue.Inv := by
  unfold Client.drainQueue
  cases hqueue : c.queue with
  | nil => exact hc
  | cons next queue =>
    have hcurrent : c.current = none := hcalm.resolve_right (by simp [hqueue])
    have hlive : c.tickets.live = next.serial :: queue.map (·.serial) := by
      simp [Client.tickets, hcurrent, hqueue]
    have hbegin := hc.orderly.begin hlive
    refine ⟨?_, rfl, hc.threw⟩
    have htickets : ({ c with queue := queue }.begin next).tickets =
        { c.tickets with begun := c.tickets.begun ++ [next.serial] } := by
      simp [Client.tickets, Client.begin, Client.setState, hcurrent, hqueue]
    rwa [htickets]

/-- A callback that issues nothing leaves all but the state as it is. -/
theorem actAll_quiet {actions : List Action} (h : actions.countP Action.isIssue = 0) (c : Client) :
    ∃ state, actAll actions c = { c with state := state } := by
  induction actions generalizing c with
  | nil => exact ⟨c.state, by rw [actAll]⟩
  | cons action actions ih =>
    cases action with
    | issue request onOk onError => simp [Action.isIssue] at h
    | setError =>
      rw [actAll, act]
      obtain ⟨state, hstate⟩ := ih (by simpa [Action.isIssue] using h) (c.setState .error)
      exact ⟨state, by rw [hstate]; simp [Client.setState]⟩

theorem calmAll_quiet {actions : List Action} (h : actions.countP Action.isIssue = 0) (c : Client) :
    CalmAll actions c := by
  induction actions generalizing c with
  | nil => rw [CalmAll]; trivial
  | cons action actions ih =>
    cases action with
    | issue request onOk onError => simp [Action.isIssue] at h
    | setError =>
      rw [CalmAll, Calm]
      exact ⟨trivial, ih (by simpa [Action.isIssue] using h) _⟩

/-- A callback that issues one operation is calm where nothing is before it. -/
theorem calmAll_single {actions : List Action} (h : actions.countP Action.isIssue = 1) {c : Client}
    (hstate : c.state ≠ .loading) (hcurrent : c.current = none) (hqueue : c.queue = []) :
    CalmAll actions c ∧ (actAll actions c).queue = [] := by
  induction actions generalizing c with
  | nil => simp at h
  | cons action actions ih =>
    cases action with
    | setError =>
      rw [CalmAll, actAll, act, Calm]
      obtain ⟨hcalm, hrest⟩ := ih (c := c.setState .error) (by simpa [Action.isIssue] using h)
        (by simp [Client.setState]) hcurrent hqueue
      exact ⟨⟨trivial, hcalm⟩, hrest⟩
    | issue request onOk onError =>
      have hquiet : actions.countP Action.isIssue = 0 := by
        rw [List.countP_cons_of_pos rfl] at h
        omega
      rw [CalmAll, actAll, act, Calm, if_neg hstate]
      dsimp only
      rw [if_neg hstate]
      obtain ⟨state, hsame⟩ := actAll_quiet hquiet
        ({ c with issued := c.issued + 1 }.begin ⟨c.issued, request, onOk, onError⟩)
      exact ⟨⟨⟨hcurrent, hqueue⟩, calmAll_quiet hquiet _⟩, by rw [hsame]; exact hqueue⟩

/-- A callback, and the queue after it. -/
theorem actAll_drainQueue_inv {c : Client} (hc : c.Inv) (hstate : c.state ≠ .loading)
    (hcurrent : c.current = none) {actions : List Action}
    (hcalm : actions.countP Action.isIssue = 0 ∨
      actions.countP Action.isIssue = 1 ∧ c.queue = []) :
    (actAll actions c).drainQueue.Inv := by
  rcases hcalm with hquiet | ⟨hsingle, hqueue⟩
  · obtain ⟨state, hsame⟩ := actAll_quiet hquiet c
    rw [hsame]
    exact drainQueue_inv ⟨hc.orderly, hc.linked, hc.threw⟩ (.inl hcurrent)
  · obtain ⟨hcalm, hempty⟩ := calmAll_single hsingle hstate hcurrent hqueue
    exact drainQueue_inv ((kept_actAll _ _ hcalm).inv hc) (.inr hempty)

theorem consumeResponse_inv {c : Client} {ok : Bool} (hc : c.Inv) (hconnected : c.connected = true)
    (hcalm : c.RepliesCalmly ok) : (c.consumeResponse ok).Inv := by
  unfold Client.consumeResponse
  dsimp only
  split
  next hcurrent =>
    rw [hc.linked, hcurrent] at hconnected
    cases hconnected
  next pending hcurrent =>
    have hlive : c.tickets.live = pending.serial :: c.queue.map (·.serial) := by
      simp [Client.tickets, hcurrent]
    unfold Client.callback
    refine actAll_drainQueue_inv ?_ ?_ ?_ (hcalm pending hcurrent)
    · exact ⟨hc.orderly.answer hlive, rfl, hc.threw⟩
    · exact State.noConfusion
    · rfl

theorem step_inv {kind : Kind} {c : Client} (hc : c.Inv) {e : Event} (hcalm : c.Calm kind e) :
    (c.step kind e).Inv := by
  cases e with
  | call actions => exact (kept_actAll actions c hcalm).inv hc
  | connectionError => exact failCurrent_inv hc hcalm
  | oversizedReply =>
    dsimp only [Client.step]
    split
    next hconnected => exact failCurrent_inv hc (hcalm hconnected)
    next => exact hc
  | invalidReply =>
    dsimp only [Client.step]
    split
    next hconnected => exact failCurrent_inv hc (hcalm hconnected)
    next => exact hc
  | reply ok =>
    dsimp only [Client.step]
    split
    next hconnected => exact consumeResponse_inv hc hconnected (hcalm hconnected)
    next => exact hc
  | retryTimeout =>
    dsimp only [Client.step]
    split
    next hactive =>
      have hstopped : Kept c { c with retryActive := false } := Kept.of_tickets rfl rfl rfl rfl
      unfold Client.retryTimeout
      dsimp only
      split
      next => exact hstopped.inv hc
      next hidle => exact drainQueue_inv (hstopped.inv hc) ((hcalm hactive).resolve_left hidle)
    next => exact hc

/-! ## Runs -/

/-- **Order and nothing lost.**  At most one request is in flight, requests are
begun and answered in the order in which they were issued, each operation is in
flight, queued or told of its end once, and no callback is missing. -/
structure Client.InOrder (c : Client) : Prop where
  single : c.inFlight.length ≤ 1
  begun : c.begun.Pairwise (· ≤ ·)
  answered : c.answered.Pairwise (· < ·)
  accounted : (c.inFlight ++ c.queue.map (·.serial) ++ c.called).Perm (List.range c.issued)
  threw : c.threw = false

theorem Client.Inv.inOrder {c : Client} (hc : c.Inv) : c.InOrder := by
  have hflight : c.inFlight = c.current.toList.map (·.serial) := by
    unfold Client.inFlight
    rw [hc.linked]
    cases c.current with
    | none => rfl
    | some pending => rfl
  refine ⟨?_, hc.orderly.begun_sorted, hc.orderly.answered_sorted, ?_, hc.threw⟩
  · rw [hflight]
    cases c.current with
    | none => exact Nat.zero_le _
    | some pending => exact Nat.le_refl _
  · have haccounted := hc.orderly.accounted
    rwa [Client.tickets, List.map_append, ← hflight] at haccounted

theorem new_inv : Client.new.Inv := ⟨orderly_empty, rfl, rfl⟩

/-- **The queues.**  In every run in which no request is begun before another
one is done, the operations keep their order and none is lost. -/
theorem run_inOrder {kind : Kind} {events : List Event}
    (hcalm : Along (Client.step kind) (Client.Calm kind) Client.new events) :
    (run (Client.step kind) Client.new events).InOrder :=
  (invariant_run (I := Client.Inv) (fun _ _ hc he => step_inv hc he) new_inv hcalm).inOrder

/-- A grant that is tried again after an error. -/
theorem run_inOrder_retry :
    Along (Client.step .permissions) (Client.Calm .permissions) Client.new
        [.call (PermissionsClient.setPermission "a" "network" true ⟨[], [], []⟩), .connectionError,
          .retryTimeout, .reply true] ∧
      (run (Client.step .permissions) Client.new
        [.call (PermissionsClient.setPermission "a" "network" true ⟨[], [], []⟩), .connectionError,
          .retryTimeout, .reply true]).InOrder := by
  have hcalm : Along (Client.step .permissions) (Client.Calm .permissions) Client.new
      [.call (PermissionsClient.setPermission "a" "network" true ⟨[], [], []⟩), .connectionError,
        .retryTimeout, .reply true] := by
    refine ⟨⟨⟨rfl, rfl⟩, trivial⟩, ?_, ?_, ?_, trivial⟩
    · intro _ hfull
      exact absurd hfull (by decide)
    · intro _
      exact .inr (.inl rfl)
    · intro _ pending hpending
      cases hpending
      exact .inl rfl
  exact ⟨hcalm, run_inOrder hcalm⟩

/-- A revocation overtakes the grant before it, which failed once. -/
theorem revocation_overtakes :
    ¬ ∀ kind events, (run (Client.step kind) Client.new events).InOrder := by
  intro h
  have hbegun := (h .permissions
    [.call (PermissionsClient.setPermission "a" "network" true ⟨[], [], []⟩), .connectionError,
      .call (PermissionsClient.setPermission "a" "network" false ⟨[], [], []⟩), .reply true]).begun
  revert hbegun
  decide

end Kwe.Manager
