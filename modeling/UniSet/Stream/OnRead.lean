/-
**The `on_read` handlers: one buffer for the next read and for the processing.**

Both sessions call `Read` on the member that holds the message they are about to process. The
statements after the `Read` are modelled one by one over the current contents of the buffer:

* `server` — `SyncClient::readEvent(request)`: the tests of `cmd` and one statement for every item of
  `slist`, each of which reads `cmd`, `ci` and the item again.
* `client` — the conversion of `reply`, which copies it, and the callback, which no longer reads it.

**`processed_exactly_once`**: every command of the client and every message of the server is
processed exactly once and in order in every run in which the transport fills the buffer only when
the handler no longer reads it. `refilled_message_lost` are the runs in which it is filled earlier.
-/

import Mathlib.Data.List.GetD
import UniSet.Lib.ReadLoop
import UniSet.Processes.Consumers

namespace UniSet.Stream.OnRead

open Processes Processes.Consumers Lib

/-! ### The server -/

structure SensorValue where
  id : ObjectId := 0
  val : Value := 0
deriving DecidableEq, Repr

structure SensorsStreamCmd where
  cmd : UIOCommand
  slist : List SensorValue
  ci : ConsumerInfo := {}
deriving DecidableEq, Repr

/-- What `readEvent` does with one item. -/
inductive Executed
  | setSyncClient (id : ObjectId) (val : Value) (ci : ConsumerInfo)
  | getSensor (id : ObjectId)
  | askSyncClient (id : ObjectId) (cmd : UIOCommand) (ci : ConsumerInfo)
deriving DecidableEq, Repr

/-- The three loops of `readEvent`. -/
inductive Branch
  | set | get | ask
deriving DecidableEq, Repr

/-- The body of a loop, for the item `s`. -/
def Branch.body (branch : Branch) (request : SensorsStreamCmd) (s : SensorValue) : Executed :=
  match branch with
  | .set => .setSyncClient s.id s.val request.ci
  | .get => .getSensor s.id
  | .ask => .askSyncClient s.id request.cmd request.ci

/-- Where `readEvent` stands: before its tests, or before item `k` with `left` more to come. -/
inductive ReadEvent
  | ifSet | elseIfGet
  | item (branch : Branch) (k left : Nat)
deriving DecidableEq, Repr

/-- The loop over `slist` begins. -/
def loop (branch : Branch) (request : SensorsStreamCmd) : Option ReadEvent :=
  match request.slist.length with
  | 0 => none
  | left + 1 => some (.item branch 0 left)

/-- **One statement of `SyncClient::readEvent`.** The end of the loop is fixed when it begins; an item
that a refilled buffer no longer has is a cleared one. -/
def readEvent (request : SensorsStreamCmd) : ReadEvent → Option ReadEvent × List Executed
  | .ifSet => (if request.cmd = .UIOSet then loop .set request else some .elseIfGet, [])
  | .elseIfGet => (loop (if request.cmd = .UIOGet then .get else .ask) request, [])
  | .item branch k left =>
    (match left with
      | 0 => none
      | left + 1 => some (.item branch (k + 1) left),
      [branch.body request (request.slist.getD k {})])

/-- What is left to do if the request stays in the buffer. -/
def unexecuted (request : SensorsStreamCmd) : ReadEvent → List Executed
  | .ifSet => request.slist.map (Branch.body
      (if request.cmd = .UIOSet then .set else if request.cmd = .UIOGet then .get else .ask) request)
  | .elseIfGet =>
    request.slist.map (Branch.body (if request.cmd = .UIOGet then .get else .ask) request)
  | .item branch k left =>
    (List.range' k (left + 1)).map fun i => branch.body request (request.slist.getD i {})

theorem unexecuted_loop (branch : Branch) (request : SensorsStreamCmd) :
    (loop branch request).elim [] (unexecuted request) =
      request.slist.map (branch.body request) := by
  obtain ⟨cmd, slist, ci⟩ := request
  cases slist with
  | nil => rfl
  | cons first rest =>
    simp only [loop, List.length_cons, Option.elim_some, unexecuted]
    refine List.ext_getElem (by simp) fun i _ inside => ?_
    have below : i < (first :: rest).length := by simpa using inside
    rw [List.getElem_map, List.getElem_map, List.getElem_range', Nat.zero_add, Nat.one_mul]
    rw [List.getD_eq_getElem _ _ below]

/-- **The handler of the server.** -/
def server : Handler SensorsStreamCmd ReadEvent Executed where
  enter := .ifSet
  next := readEvent
  reads _ := true
  remaining := unexecuted
  remaining_eq request l := by
    cases l with
    | ifSet =>
      by_cases set : request.cmd = .UIOSet
      · simp [readEvent, unexecuted, set, unexecuted_loop]
      · simp [readEvent, unexecuted, set]
    | elseIfGet => simp [readEvent, unexecuted, unexecuted_loop]
    | item branch k left =>
      cases left with
      | zero => rfl
      | succ left => rfl
  unread _ never := nomatch never

/-! ### The client -/

/-- Where `on_read` of the client stands after its `Read`. -/
inductive Deliver (T : Type)
  | convert
  | callback (tmsg : T)
deriving DecidableEq, Repr

/-- **The handler of the client**: `tmsg = to_transport(reply)` and then `cb(&tmsg)`. -/
def client {M T : Type} (toTransport : M → T) : Handler M (Deliver T) T where
  enter := .convert
  next
    | reply, .convert => (some (.callback (toTransport reply)), [])
    | _, .callback tmsg => (none, [tmsg])
  reads
    | .convert => true
    | .callback _ => false
  remaining
    | reply, .convert => [toTransport reply]
    | _, .callback tmsg => [tmsg]
  remaining_eq
    | _, .convert => rfl
    | _, .callback _ => rfl
  unread
    | .callback _, _, _, _ => rfl

/-! ### Exactly once -/

/-- What the client asks for with one command. -/
def SensorsStreamCmd.asked (request : SensorsStreamCmd) : List Executed :=
  match request.cmd with
  | .UIOSet => request.slist.map fun s => .setSyncClient s.id s.val request.ci
  | .UIOGet => request.slist.map fun s => .getSensor s.id
  | cmd => request.slist.map fun s => .askSyncClient s.id cmd request.ci

theorem server_actions : server.actions = SensorsStreamCmd.asked := by
  funext request
  obtain ⟨cmd, slist, ci⟩ := request
  cases cmd <;> rfl

theorem client_actions {M T : Type} (toTransport : M → T) (messages : List M) :
    messages.flatMap (client toTransport).actions = messages.map toTransport :=
  List.map_eq_flatMap.symm

/-- **Every message is processed exactly once and in order**, by the server and by the client, in
every run in which no fill comes while the handler still reads the buffer: what was done is a prefix
of what the messages ask for, and all of it when nothing can move. -/
theorem processed_exactly_once {M T : Type} (toTransport : M → T)
    (commands : List SensorsStreamCmd) (messages : List M) :
    (∀ s, (ReadLoop.machine server commands).Reachable (ReadLoop.Undisturbed server) s →
      s.executed <+: commands.flatMap SensorsStreamCmd.asked ∧
        ((∀ label, s.step server label = none) →
          s.executed = commands.flatMap SensorsStreamCmd.asked)) ∧
    (∀ s, (ReadLoop.machine (client toTransport) messages).Reachable
        (ReadLoop.Undisturbed (client toTransport)) s →
      s.executed <+: messages.map toTransport ∧
        ((∀ label, s.step (client toTransport) label = none) →
          s.executed = messages.map toTransport)) := by
  constructor
  · intro s reached
    rw [← server_actions]
    exact ReadLoop.exactly_once reached
  · intro s reached
    rw [← client_actions]
    exact ReadLoop.exactly_once reached

/-- A loop that has its first read outstanding. -/
def begin {M L A : Type} (buffer : M) (messages : List M) : ReadLoop M L A where
  incoming := messages
  buffer := buffer
  reading := true
  event := false
  phase := .idle
  executed := []

/-- Two commands, on sensor `1` and on sensor `2`. -/
def twoCommands : List SensorsStreamCmd := [⟨.UIONotify, [⟨1, 0⟩], {}⟩, ⟨.UIOSet, [⟨2, 9⟩], {}⟩]

/-- The second fill comes when the handler of the first one has returned. -/
def patientFills : List ReadLabel :=
  [.fill, .deliver, .statement, .statement, .statement, .statement, .fill, .deliver, .statement,
    .statement, .statement]

theorem processed_exactly_once_twoCommands : ∃ s,
    (ReadLoop.machine server twoCommands).run (begin ⟨.UIOGet, [], {}⟩ twoCommands) patientFills =
        some s ∧ s.executed = [.askSyncClient 1 .UIONotify {}, .setSyncClient 2 9 {}] := by
  obtain ⟨s, ran, fill, deliver, statement⟩ : ∃ s ∈ (ReadLoop.machine server twoCommands).run
      (begin ⟨.UIOGet, [], {}⟩ twoCommands) patientFills,
      s.step server .fill = none ∧ s.step server .deliver = none ∧
        s.step server .statement = none := by decide +kernel
  exact ⟨s, ran, ((processed_exactly_once (id : Nat → Nat) twoCommands []).1 s
    ⟨_, patientFills, ⟨rfl, rfl, rfl, rfl, rfl⟩, by decide +kernel, ran⟩).2
    (ReadLabel.all fill deliver statement)⟩

/-- **A refilled message is lost.** The buffer is filled with the second message right after the
`Read` of the handler of the first: the second one is processed twice, by the server and by the
client. -/
theorem refilled_message_lost :
    (∃ s, (ReadLoop.machine server twoCommands).Reachable (fun _ _ => True) s ∧
      (∀ label, s.step server label = none) ∧
      s.executed = [.setSyncClient 2 9 {}, .setSyncClient 2 9 {}] ∧
      s.executed ≠ twoCommands.flatMap SensorsStreamCmd.asked) ∧
    (∃ s, (ReadLoop.machine (client (id : Nat → Nat)) [5, 6]).Reachable (fun _ _ => True) s ∧
      (∀ label, s.step (client id) label = none) ∧
      s.executed = [6, 6] ∧ s.executed ≠ [5, 6].map id) := by
  constructor
  · obtain ⟨s, ran, ⟨fill, deliver, statement⟩, facts⟩ :
        ∃ s ∈ (ReadLoop.machine server twoCommands).run (begin ⟨.UIOGet, [], {}⟩ twoCommands)
          [.fill, .deliver, .statement, .fill, .statement, .statement, .deliver, .statement,
            .statement, .statement],
        (s.step server .fill = none ∧ s.step server .deliver = none ∧
          s.step server .statement = none) ∧
        s.executed = [.setSyncClient 2 9 {}, .setSyncClient 2 9 {}] ∧
        s.executed ≠ twoCommands.flatMap SensorsStreamCmd.asked := by decide +kernel
    exact ⟨s, Machine.reachable_of_run ⟨rfl, rfl, rfl, rfl, rfl⟩ ran,
      ReadLabel.all fill deliver statement, facts⟩
  · obtain ⟨s, ran, ⟨fill, deliver, statement⟩, facts⟩ :
        ∃ s ∈ (ReadLoop.machine (client (id : Nat → Nat)) [5, 6]).run (begin 0 [5, 6])
          [.fill, .deliver, .statement, .fill, .statement, .statement, .deliver, .statement,
            .statement, .statement],
        (s.step (client id) .fill = none ∧ s.step (client id) .deliver = none ∧
          s.step (client id) .statement = none) ∧
        s.executed = [6, 6] ∧ s.executed ≠ [5, 6].map id := by decide +kernel
    exact ⟨s, Machine.reachable_of_run ⟨rfl, rfl, rfl, rfl, rfl⟩ ran,
      ReadLabel.all fill deliver statement, facts⟩

end UniSet.Stream.OnRead
