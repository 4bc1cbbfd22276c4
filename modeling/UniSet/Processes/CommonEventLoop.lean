/-
**`CommonEventLoop`: the activation of watchers.**

A thread that runs a watcher registers it in `wlist`, starts the loop thread if there is none, and
calls `activateWatcher`: under `prep_mutex` it puts the watcher into `wprep`, clears `prep_notify`,
sends `evprep`, and waits for `prep_notify`, which releases the mutex. The loop thread runs
`onPrepare`: it clears `prep_notify`, prepares the watcher in `wprep` under the mutex, and sets
`prep_notify` after it has left the mutex. All calls share one `wprep` and one `prep_notify`.

* `EventLoop` — the loop, where every call and `onPrepare` stand, and the executions of `evprepare`.
* `activations` — all interleavings of the calls with the loop thread.
* `Activated` — what the result of `activateWatcher` says about the watcher of the call.
* `Alone` — an activation begins while no other call waits and `onPrepare` is not on its way from the
  mutex to its last write.
* **`activated_alone`** — every state reached by activations that begin alone is right;
  `overlap_activates_unprepared` are two that overlap.
-/

import Mathlib.Data.Fintype.Basic
import UniSet.Lib.Machine

set_option linter.unusedSectionVars false

namespace UniSet.Processes

/-- **Where a call of `evrun` or `async_evrun` stands.** -/
inductive Activation
  | idle
  /-- Registered in `wlist`, before `runDefaultLoop`. -/
  | listed
  /-- In `runDefaultLoop`, with `thr_mutex`, waiting for `isrunning`. -/
  | starting
  /-- Before `activateWatcher`. -/
  | ready
  /-- In `activateWatcher`, waiting for `prep_notify`. -/
  | waiting
  /-- `activateWatcher` has returned. -/
  | returned (ret : Bool)
  /-- The call has returned `false` without `activateWatcher`. -/
  | refused
deriving DecidableEq, Repr

/-- Where the loop thread stands in `onPrepare`. -/
inductive OnPrepare
  | idle
  /-- Before the section under `prep_mutex`. -/
  | prepare
  /-- Before `prep_notify = true`. -/
  | notify
deriving DecidableEq, Repr

/-- **The loop and its users.** -/
structure EventLoop (ι ω : Type) where
  wlist : List ω
  thr : Bool
  thrMutex : Bool
  isrunning : Bool
  wprep : Option ω
  prepNotify : Bool
  /-- `evprep` has been sent and not been delivered. -/
  evprep : Bool
  onPrepare : OnPrepare
  calls : ι → Activation
  /-- The waiting time of the call in `activateWatcher` has expired. -/
  expired : ι → Bool
  /-- The executions of `evprepare`, with `false` for one that threw. -/
  evprepare : List (ω × Bool)

/-- One step of a call, of the time or of the loop thread. -/
inductive LoopStep (ι : Type)
  /-- The part of `evrun` and `async_evrun` up to the registration. -/
  | evrun (i : ι)
  /-- `runDefaultLoop` takes `thr_mutex`. -/
  | runDefaultLoop (i : ι)
  /-- The wait of `runDefaultLoop` ends. -/
  | loopWaited (i : ι)
  /-- The loop thread runs `onLoopOK`. -/
  | onLoopOK
  /-- The section of `activateWatcher` up to the wait. -/
  | activateWatcher (i : ι)
  | expire (i : ι)
  /-- A call wakes up in `activateWatcher`, notified, spuriously or on expiry. -/
  | wake (i : ι)
  /-- `evprep` is delivered, up to the first write of `prep_notify`. -/
  | onPrepare (evError : Bool)
  /-- The section of `onPrepare` under `prep_mutex`. -/
  | prepare (throws : Bool)
  /-- The last write of `prep_notify`. -/
  | notify
deriving DecidableEq, Repr

namespace EventLoop

variable {ι ω : Type}

/-- A new loop. -/
def new : EventLoop ι ω where
  wlist := []
  thr := false
  thrMutex := false
  isrunning := false
  wprep := none
  prepNotify := false
  evprep := false
  onPrepare := .idle
  calls := fun _ => .idle
  expired := fun _ => false
  evprepare := []

variable [DecidableEq ι] [DecidableEq ω]

/-- The call goes on. -/
def setCall (s : EventLoop ι ω) (i : ι) (call : Activation) : EventLoop ι ω :=
  { s with calls := Function.update s.calls i call }

/-- `evrun` and `async_evrun` up to the registration: a null pointer and a watcher that is there
already are refused. -/
def evrun (s : EventLoop ι ω) (i : ι) : Option ω → EventLoop ι ω
  | none => s.setCall i .refused
  | some w =>
    if w ∈ s.wlist then s.setCall i .refused
    else { s with wlist := s.wlist ++ [w] }.setCall i .listed

/-- `activateWatcher` up to the wait. -/
def activateWatcher (s : EventLoop ι ω) (i : ι) (w : Option ω) : EventLoop ι ω :=
  { s with wprep := w, prepNotify := false, evprep := true }.setCall i .waiting

/-- `activateWatcher` after the wait. -/
def afterWait (s : EventLoop ι ω) (i : ι) : EventLoop ι ω :=
  { s with wprep := none, prepNotify := false }.setCall i (.returned s.wprep.isNone)

/-- The section of `onPrepare`: the watcher in `wprep` is prepared, and leaves it unless `evprepare`
throws. -/
def prepare (s : EventLoop ι ω) (throws : Bool) : EventLoop ι ω :=
  match s.wprep with
  | none => { s with onPrepare := .notify }
  | some w =>
    { s with
      wprep := if throws then some w else none
      evprepare := s.evprepare ++ [(w, !throws)]
      onPrepare := .notify }

/-- **One step.** A call that wakes up waits again unless `prep_notify` is set or its time has
expired. -/
def step (watcher : ι → Option ω) (s : EventLoop ι ω) : LoopStep ι → Option (EventLoop ι ω)
  | .evrun i => if s.calls i = .idle then some (s.evrun i (watcher i)) else none
  | .runDefaultLoop i =>
    if s.calls i = .listed ∧ s.thrMutex = false then
      if s.thr then some (s.setCall i .ready)
      else some ({ s with thr := true, thrMutex := true }.setCall i .starting)
    else none
  | .loopWaited i =>
    if s.calls i = .starting then
      some ({ s with thrMutex := false }.setCall i (if s.isrunning then .ready else .refused))
    else none
  | .onLoopOK => if s.thr then some { s with isrunning := true } else none
  | .activateWatcher i =>
    if s.calls i = .ready then some (s.activateWatcher i (watcher i)) else none
  | .expire i =>
    if s.calls i = .waiting then some { s with expired := Function.update s.expired i true }
    else none
  | .wake i =>
    if s.calls i = .waiting then
      if s.prepNotify ∨ s.expired i then some (s.afterWait i) else some s
    else none
  | .onPrepare evError =>
    if s.thr ∧ s.evprep ∧ s.onPrepare = .idle then
      if evError then some { s with evprep := false }
      else some { s with evprep := false, prepNotify := false, onPrepare := .prepare }
    else none
  | .prepare throws => if s.onPrepare = .prepare then some (s.prepare throws) else none
  | .notify =>
    if s.onPrepare = .notify then some { s with prepNotify := true, onPrepare := .idle } else none

end EventLoop

variable {ι ω : Type} [DecidableEq ι] [DecidableEq ω]

/-- **All interleavings** over a new loop; the call `i` runs `watcher i`. -/
def activations (watcher : ι → Option ω) : Lib.Machine (EventLoop ι ω) (LoopStep ι) where
  start s := s = .new
  step := EventLoop.step watcher

/-- **What the result of `activateWatcher` says** about the watcher of the call. -/
structure Activated (watcher : ι → Option ω) (s : EventLoop ι ω) : Prop where
  prepared : ∀ i, s.calls i = .returned true → ∃ w ∈ watcher i, (w, true) ∈ s.evprepare
  failed : ∀ i, s.calls i = .returned false →
    s.expired i = true ∨ ∃ w ∈ watcher i, (w, false) ∈ s.evprepare

/-- **The condition**: an activation begins while no other call waits for one and `onPrepare` is not
between its section and its last write. -/
def Alone (s : EventLoop ι ω) : LoopStep ι → Prop
  | .activateWatcher _ => (∀ j, s.calls j ≠ .waiting) ∧ s.onPrepare ≠ .notify
  | _ => True

instance [Fintype ι] (s : EventLoop ι ω) (step : LoopStep ι) : Decidable (Alone s step) := by
  unfold Alone
  split <;> infer_instance

/-! ### The invariant -/

/-- What a waiting call can tell from the shared fields about its watcher: `wprep` is null only after
it was prepared, and still its own only before that or after it threw. -/
def EventLoop.Tells (s : EventLoop ι ω) (w : ω) : Prop :=
  match s.wprep with
  | none => (w, true) ∈ s.evprepare
  | some v => v = w ∧
    (s.prepNotify = true ∨ s.onPrepare = .notify → (w, false) ∈ s.evprepare)

/-- **The invariant.** -/
structure Orderly (watcher : ι → Option ω) (s : EventLoop ι ω) : Prop where
  one : ∀ i j, s.calls i = .waiting → s.calls j = .waiting → i = j
  /-- A call that goes on has a watcher. -/
  watched : ∀ i, s.calls i ≠ .idle → s.calls i ≠ .refused → ∃ w, watcher i = some w
  tells : ∀ i w, s.calls i = .waiting → watcher i = some w → s.Tells w
  activated : Activated watcher s

theorem EventLoop.calls_setCall (s : EventLoop ι ω) (i j : ι) (call : Activation) :
    (s.setCall i call).calls j = if j = i then call else s.calls j :=
  Function.update_apply s.calls i call j

variable {s : EventLoop ι ω}

theorem EventLoop.tells_prepare {w : ω} (tells : s.Tells w) (throws : Bool) :
    (s.prepare throws).Tells w := by
  unfold prepare
  unfold Tells at tells
  cases slot : s.wprep with
  | none =>
    rw [slot] at tells
    simpa [Tells, slot] using tells
  | some v =>
    rw [slot] at tells
    obtain ⟨rfl, -⟩ := tells
    cases throws with
    | false => simp [Tells]
    | true => simp [Tells]

/-- The first write of `onPrepare`: nothing can wake the call before the section. -/
theorem EventLoop.tells_onPrepare {w : ω} (tells : s.Tells w) :
    { s with evprep := false, prepNotify := false, onPrepare := .prepare }.Tells w := by
  unfold Tells at tells ⊢
  dsimp only
  cases slot : s.wprep with
  | none =>
    rw [slot] at tells
    exact tells
  | some v =>
    rw [slot] at tells
    exact ⟨tells.1, nofun⟩

theorem EventLoop.tells_notify {w : ω} (tells : s.Tells w) (notify : s.onPrepare = .notify) :
    { s with prepNotify := true, onPrepare := .idle }.Tells w := by
  unfold Tells at tells ⊢
  dsimp only
  cases slot : s.wprep with
  | none =>
    rw [slot] at tells
    exact tells
  | some v =>
    rw [slot] at tells
    exact ⟨tells.1, fun _ => tells.2 (.inr notify)⟩

theorem EventLoop.mem_evprepare_prepare {entry : ω × Bool} (mem : entry ∈ s.evprepare)
    (throws : Bool) : entry ∈ (s.prepare throws).evprepare := by
  unfold prepare
  split
  · exact mem
  · exact List.mem_append_left _ mem

/-- A call that moves on, with what its own result says. -/
theorem Activated.setCall {watcher : ι → Option ω} (activated : Activated watcher s) (i : ι)
    {call : Activation}
    (prepared : call = .returned true → ∃ w ∈ watcher i, (w, true) ∈ s.evprepare)
    (failed : call = .returned false →
      s.expired i = true ∨ ∃ w ∈ watcher i, (w, false) ∈ s.evprepare) :
    Activated watcher (s.setCall i call) where
  prepared j := by
    rw [EventLoop.calls_setCall]
    split
    · rename_i same
      subst same
      exact prepared
    · exact activated.prepared j
  failed j := by
    rw [EventLoop.calls_setCall]
    split
    · rename_i same
      subst same
      exact failed
    · exact activated.failed j

namespace Orderly

variable {watcher : ι → Option ω} {s : EventLoop ι ω}

theorem new : Orderly watcher (.new : EventLoop ι ω) where
  one _ _ := nofun
  watched _ begun := absurd rfl begun
  tells _ _ := nofun
  activated := ⟨fun _ => nofun, fun _ => nofun⟩

theorem watched_setCall (orderly : Orderly watcher s) (i : ι) {call : Activation}
    (watched : call ≠ .refused → ∃ w, watcher i = some w) (j : ι) :
    (s.setCall i call).calls j ≠ .idle → (s.setCall i call).calls j ≠ .refused →
      ∃ w, watcher j = some w := by
  rw [EventLoop.calls_setCall]
  split
  · rename_i same
    subst same
    exact fun _ => watched
  · exact orderly.watched j

/-- The fields that the invariant does not read. -/
theorem of_eq {t : EventLoop ι ω} (orderly : Orderly watcher s) (calls : t.calls = s.calls)
    (expired : t.expired = s.expired) (evprepare : t.evprepare = s.evprepare)
    (tells : ∀ w, s.Tells w → t.Tells w) : Orderly watcher t where
  one := by
    rw [calls]
    exact orderly.one
  watched := by
    rw [calls]
    exact orderly.watched
  tells i w := by
    rw [calls]
    exact fun waiting own => tells w (orderly.tells i w waiting own)
  activated := by
    constructor
    all_goals rw [calls, evprepare]
    · exact orderly.activated.prepared
    · rw [expired]
      exact orderly.activated.failed

/-- A call moves to a place outside `activateWatcher`. -/
theorem setCall (orderly : Orderly watcher s) (i : ι) {call : Activation}
    (outside : call ≠ .waiting) (before : ∀ ret, call ≠ .returned ret)
    (watched : call ≠ .refused → ∃ w, watcher i = some w) : Orderly watcher (s.setCall i call) where
  one j k := by
    rw [EventLoop.calls_setCall, EventLoop.calls_setCall]
    split
    · exact fun waiting => absurd waiting outside
    · split
      · exact fun _ waiting => absurd waiting outside
      · exact orderly.one j k
  watched := orderly.watched_setCall i watched
  tells j w := by
    rw [EventLoop.calls_setCall]
    split
    · exact fun waiting => absurd waiting outside
    · exact orderly.tells j w
  activated := orderly.activated.setCall i (fun returned => absurd returned (before true))
    fun returned => absurd returned (before false)

theorem evrun (orderly : Orderly watcher s) (i : ι) : Orderly watcher (s.evrun i (watcher i)) := by
  cases found : watcher i with
  | none => exact orderly.setCall i nofun nofun (absurd rfl)
  | some w =>
    unfold EventLoop.evrun
    dsimp only
    split
    · exact orderly.setCall i nofun nofun (absurd rfl)
    · have registered : Orderly watcher { s with wlist := s.wlist ++ [w] } :=
        orderly.of_eq rfl rfl rfl fun _ => id
      exact registered.setCall i nofun nofun fun _ => ⟨w, found⟩

theorem activateWatcher (orderly : Orderly watcher s) {i : ι} (ready : s.calls i = .ready)
    (free : ∀ j, s.calls j ≠ .waiting) (unlocked : s.onPrepare ≠ .notify) :
    Orderly watcher (s.activateWatcher i (watcher i)) := by
  have watched : ∃ w, watcher i = some w :=
    orderly.watched i (by simp [ready]) (by simp [ready])
  -- nobody waits, so nobody can tell anything from the slot
  have begun : Orderly watcher { s with wprep := watcher i, prepNotify := false, evprep := true } :=
    { one := orderly.one
      watched := orderly.watched
      tells := fun j _ waiting => absurd waiting (free j)
      activated := ⟨orderly.activated.prepared, orderly.activated.failed⟩ }
  refine ⟨?_, begun.watched_setCall i fun _ => watched, ?_, begun.activated.setCall i nofun nofun⟩
  · intro j k
    unfold EventLoop.activateWatcher
    rw [EventLoop.calls_setCall, EventLoop.calls_setCall]
    split
    · split
      · rename_i left right
        exact fun _ _ => left.trans right.symm
      · exact fun _ waiting => absurd waiting (free k)
    · exact fun waiting => absurd waiting (free j)
  · intro j w
    unfold EventLoop.activateWatcher
    rw [EventLoop.calls_setCall]
    split
    · rename_i same
      subst same
      intro _ own
      simp [EventLoop.Tells, EventLoop.setCall, own, unlocked]
    · exact fun waiting => absurd waiting (free j)

theorem afterWait (orderly : Orderly watcher s) {i : ι} (waiting : s.calls i = .waiting)
    (woken : s.prepNotify = true ∨ s.expired i = true) : Orderly watcher (s.afterWait i) := by
  obtain ⟨w, own⟩ := orderly.watched i (by simp [waiting]) (by simp [waiting])
  have tells := orderly.tells i w waiting own
  unfold EventLoop.Tells at tells
  have activated : Activated watcher { s with wprep := none, prepNotify := false } :=
    ⟨orderly.activated.prepared, orderly.activated.failed⟩
  refine ⟨?_, orderly.watched_setCall i fun _ => ⟨w, own⟩, ?_, activated.setCall i ?_ ?_⟩
  · intro j k
    unfold EventLoop.afterWait
    rw [EventLoop.calls_setCall, EventLoop.calls_setCall]
    split
    · exact nofun
    · split
      · exact nofun
      · exact orderly.one j k
  · intro j v
    unfold EventLoop.afterWait
    rw [EventLoop.calls_setCall]
    split
    · exact nofun
    · rename_i other
      exact fun also => absurd (orderly.one j i also waiting) other
  · intro returned
    cases slot : s.wprep with
    | none =>
      rw [slot] at tells
      exact ⟨w, own, tells⟩
    | some v => simp [slot] at returned
  · intro returned
    cases slot : s.wprep with
    | none => simp [slot] at returned
    | some v =>
      rw [slot] at tells
      obtain notified | expired := woken
      · exact .inr ⟨w, own, tells.2 (.inl notified)⟩
      · exact .inl expired

theorem prepare (orderly : Orderly watcher s) (throws : Bool) :
    Orderly watcher (s.prepare throws) := by
  have calls : (s.prepare throws).calls = s.calls := by
    unfold EventLoop.prepare
    split <;> rfl
  have expired : (s.prepare throws).expired = s.expired := by
    unfold EventLoop.prepare
    split <;> rfl
  refine ⟨?_, ?_, ?_, ?_, ?_⟩
  all_goals rw [calls]
  · exact orderly.one
  · exact orderly.watched
  · exact fun i w waiting own => EventLoop.tells_prepare (orderly.tells i w waiting own) throws
  · intro i returned
    obtain ⟨w, own, prepared⟩ := orderly.activated.prepared i returned
    exact ⟨w, own, EventLoop.mem_evprepare_prepare prepared throws⟩
  · rw [expired]
    intro i returned
    obtain late | ⟨w, own, threw⟩ := orderly.activated.failed i returned
    · exact .inl late
    · exact .inr ⟨w, own, EventLoop.mem_evprepare_prepare threw throws⟩

theorem expire (orderly : Orderly watcher s) (i : ι) :
    Orderly watcher { s with expired := Function.update s.expired i true } := by
  refine ⟨orderly.one, orderly.watched, orderly.tells, orderly.activated.prepared, ?_⟩
  intro j returned
  obtain late | threw := orderly.activated.failed j returned
  · refine .inl ?_
    dsimp only
    rw [Function.update_apply]
    split
    · rfl
    · exact late
  · exact .inr threw

/-- **One step.** -/
theorem step {t : EventLoop ι ω} (orderly : Orderly watcher s) {label : LoopStep ι}
    (alone : Alone s label) (stepped : s.step watcher label = some t) : Orderly watcher t := by
  cases label with
  | evrun i =>
    obtain ⟨-, rfl⟩ : s.calls i = .idle ∧ s.evrun i (watcher i) = t := by
      simpa [EventLoop.step] using stepped
    exact orderly.evrun i
  | runDefaultLoop i =>
    simp only [EventLoop.step] at stepped
    split at stepped
    · rename_i listed
      have watched := orderly.watched i (by simp [listed.1]) (by simp [listed.1])
      split at stepped
      · cases stepped
        exact orderly.setCall i nofun nofun fun _ => watched
      · cases stepped
        have started : Orderly watcher { s with thr := true, thrMutex := true } :=
          orderly.of_eq rfl rfl rfl fun _ => id
        exact started.setCall i nofun nofun fun _ => watched
    · cases stepped
  | loopWaited i =>
    obtain ⟨starting, rfl⟩ : s.calls i = .starting ∧ { s with thrMutex := false }.setCall i
        (if s.isrunning then .ready else .refused) = t := by
      simpa [EventLoop.step] using stepped
    have watched := orderly.watched i (by simp [starting]) (by simp [starting])
    have unlocked : Orderly watcher { s with thrMutex := false } :=
      orderly.of_eq rfl rfl rfl fun _ => id
    split
    · exact unlocked.setCall i nofun nofun fun _ => watched
    · exact unlocked.setCall i nofun nofun fun _ => watched
  | onLoopOK =>
    obtain ⟨-, rfl⟩ : s.thr = true ∧ { s with isrunning := true } = t := by
      simpa [EventLoop.step] using stepped
    exact orderly.of_eq rfl rfl rfl fun _ => id
  | activateWatcher i =>
    obtain ⟨ready, rfl⟩ : s.calls i = .ready ∧ s.activateWatcher i (watcher i) = t := by
      simpa [EventLoop.step] using stepped
    exact orderly.activateWatcher ready alone.1 alone.2
  | expire i =>
    obtain ⟨-, rfl⟩ : s.calls i = .waiting ∧
        { s with expired := Function.update s.expired i true } = t := by
      simpa [EventLoop.step] using stepped
    exact orderly.expire i
  | wake i =>
    simp only [EventLoop.step] at stepped
    split at stepped
    · rename_i waiting
      split at stepped
      · rename_i woken
        cases stepped
        exact orderly.afterWait waiting woken
      · cases stepped
        exact orderly
    · cases stepped
  | onPrepare evError =>
    simp only [EventLoop.step] at stepped
    split at stepped
    · split at stepped
      · cases stepped
        exact orderly.of_eq rfl rfl rfl fun _ => id
      · cases stepped
        exact orderly.of_eq rfl rfl rfl fun _ => EventLoop.tells_onPrepare
    · cases stepped
  | prepare throws =>
    obtain ⟨-, rfl⟩ : s.onPrepare = .prepare ∧ s.prepare throws = t := by
      simpa [EventLoop.step] using stepped
    exact orderly.prepare throws
  | notify =>
    obtain ⟨notify, rfl⟩ : s.onPrepare = .notify ∧
        { s with prepNotify := true, onPrepare := .idle } = t := by
      simpa [EventLoop.step] using stepped
    exact orderly.of_eq rfl rfl rfl fun _ tells => EventLoop.tells_notify tells notify

end Orderly

/-- **Activations that begin alone are right.** In every run in which an activation begins only while
no other call waits and `onPrepare` is not on its way to its last write, `activateWatcher` returns
true only if `evprepare` of the watcher was executed without exception, and false only if the waiting
time has expired or `evprepare` of the watcher threw. -/
theorem activated_alone (watcher : ι → Option ω) {s : EventLoop ι ω}
    (reached : (activations watcher).Reachable Alone s) : Activated watcher s := by
  have orderly : Orderly watcher s := by
    refine Lib.Machine.reachable_invariant (P := Orderly watcher) ?_ ?_ reached
    · rintro u rfl
      exact Orderly.new
    · exact fun u label v orderly alone stepped => orderly.step alone stepped
  exact orderly.activated

/-- The watchers of the two calls. -/
def twoWatchers (i : Bool) : Option Nat := some (if i then 2 else 1)

/-- The first watcher throws, the second is prepared. -/
def oneByOne : List (LoopStep Bool) :=
  [.evrun false, .runDefaultLoop false, .onLoopOK, .loopWaited false, .activateWatcher false,
    .onPrepare false, .wake false, .prepare true, .notify, .wake false,
    .evrun true, .runDefaultLoop true, .activateWatcher true,
    .onPrepare false, .prepare false, .notify, .wake true]

theorem activated_alone_oneByOne : ∃ s,
    (activations twoWatchers).Reachable Alone s ∧ s.calls false = .returned false ∧
    s.calls true = .returned true ∧ s.evprepare = [(1, false), (2, true)] ∧
    Activated twoWatchers s := by
  obtain ⟨s, ran, first, second, evprepare⟩ : ∃ s ∈ (activations twoWatchers).run .new oneByOne,
      s.calls false = .returned false ∧ s.calls true = .returned true ∧
      s.evprepare = [(1, false), (2, true)] := by decide +kernel
  have reached : (activations twoWatchers).Reachable Alone s :=
    ⟨.new, oneByOne, rfl, by decide +kernel, ran⟩
  exact ⟨s, reached, first, second, evprepare, activated_alone twoWatchers reached⟩

/-- The second activation begins while the first waits, and takes its place in `wprep`. -/
def overlapping : List (LoopStep Bool) :=
  [.evrun false, .evrun true, .runDefaultLoop false, .onLoopOK, .loopWaited false,
    .runDefaultLoop true, .activateWatcher false, .activateWatcher true,
    .onPrepare false, .prepare false, .notify, .wake false]

/-- **An overlap activates a watcher that was never prepared.** -/
theorem overlap_activates_unprepared : ∃ s,
    (activations twoWatchers).Reachable (fun _ _ => True) s ∧ s.calls false = .returned true ∧
    s.evprepare = [(2, true)] ∧ s.onPrepare = .idle ∧ s.evprep = false ∧
    ¬ Activated twoWatchers s := by
  obtain ⟨s, ran, returned, evprepare, idle, sent⟩ :
      ∃ s ∈ (activations twoWatchers).run .new overlapping, s.calls false = .returned true ∧
      s.evprepare = [(2, true)] ∧ s.onPrepare = .idle ∧ s.evprep = false := by decide +kernel
  refine ⟨s, Lib.Machine.reachable_of_run rfl ran, returned, evprepare, idle, sent, ?_⟩
  intro activated
  obtain ⟨w, own, prepared⟩ := activated.prepared false returned
  rw [evprepare] at prepared
  cases own
  exact absurd prepared (by decide)

end UniSet.Processes
