/-
**The gate of websockets and its subscriptions.**

* `UWebSocket` — a socket: the commands that wait, the sensors it has asked for and what it will send.
* `doOne`, `doCommand` — a command of a socket, with its effect on SharedMemory.
* `sensorInfo` — a message of SharedMemory goes to every socket.
* `Served` — the gate is subscribed to every sensor an open socket has asked for, so that each change
  of it reaches the socket.
* **`served_iff`**: the gate stays so throughout a run exactly if no socket deletes a sensor that
  another open one has asked for.
-/

import Mathlib.Data.List.Nodup
import Mathlib.Logic.Function.Basic
import UniSet.Lib.Machine
import UniSet.ModbusMaster.Config

namespace UniSet.UWebSocketGate

open Function
open ModbusMaster (ObjectId)

/-- `UIOCommand`. -/
inductive UIOCommand
  | UIONotify | UIODontNotify
deriving DecidableEq, Repr

/-- The text of a command. -/
inductive Cmd
  | ask | del | set | freeze | unfreeze | get
deriving DecidableEq, Repr

/-- `sinfo`: a command and the sensor it is for. -/
structure SInfo where
  cmd : Cmd
  id : ObjectId
deriving DecidableEq, Repr

/-- What a socket will send. -/
inductive Json
  | sensorInfo (id : ObjectId) (value : Int)
  | shortSensorInfo (id : ObjectId) (value : Int)
  /-- The answer to a command that has failed. -/
  | failed (id : ObjectId)
deriving DecidableEq, Repr

/-- **`UWebSocket`.** -/
structure UWebSocket where
  cancelled : Bool
  qcmd : List SInfo
  /-- The keys of the map. -/
  smap : ObjectId → Bool
  jbuf : List Json
  maxsize : Nat
  maxcmd : Nat

namespace UWebSocket

/-- A message is put into the buffer unless this one is too long. -/
def put (s : UWebSocket) (j : Json) : UWebSocket :=
  if s.maxsize < s.jbuf.length then s else { s with jbuf := s.jbuf ++ [j] }

/-- `UWebSocket::sensorInfo`. -/
def sensorInfo (s : UWebSocket) (id : ObjectId) (value : Int) : UWebSocket :=
  if s.cancelled then s else if s.smap id then s.put (.sensorInfo id value) else s

/-- `UWebSocket::term`. -/
def term (s : UWebSocket) : UWebSocket := { s with cancelled := true }

/-- What a command does to the socket; `answer` is the value SharedMemory answers with, `none` an
exception. -/
def answered (s : UWebSocket) (si : SInfo) (answer : Option Int) : UWebSocket :=
  match answer with
  | none => s.put (.failed si.id)
  | some value =>
    match si.cmd with
    | .ask => { s with smap := update s.smap si.id true }
    | .del => { s with smap := update s.smap si.id false }
    | .get => s.put (.shortSensorInfo si.id value)
    | .set | .freeze | .unfreeze => s

end UWebSocket

/-- The command for SharedMemory a command of a socket makes. -/
def SInfo.uioCommand (si : SInfo) : Option UIOCommand :=
  match si.cmd with
  | .ask => some .UIONotify
  | .del => some .UIODontNotify
  | _ => none

/-- **The gate**: its sockets and the last command it has given SharedMemory for every sensor. -/
structure Gate where
  wsocks : List Nat
  ws : Nat → UWebSocket
  last : ObjectId → Option UIOCommand

namespace Gate

/-- `askSensor`. -/
def askSensor (g : Gate) (id : ObjectId) (cmd : UIOCommand) : Gate :=
  { g with last := update g.last id (some cmd) }

/-- One socket changes. -/
def setSocket (g : Gate) (w : Nat) (s : UWebSocket) : Gate := { g with ws := update g.ws w s }

/-- A command of a socket reaches SharedMemory. -/
def command (g : Gate) (si : SInfo) (answer : Option Int) : Gate :=
  match si.uioCommand with
  | some cmd => if answer.isSome then g.askSensor si.id cmd else g
  | none => g

/-- One turn of the loop of `doCommand`: the first command of the queue. -/
def doOne (g : Gate) (w : Nat) (answer : Option Int) : Gate :=
  match (g.ws w).qcmd with
  | [] => g
  | si :: rest =>
    (g.command si answer).setSocket w ({ g.ws w with qcmd := rest }.answered si answer)

/-- **`doCommand`**: at most `maxcmd` commands. -/
def doCommand (g : Gate) (w : Nat) (answers : List (Option Int)) : Gate :=
  (answers.take (g.ws w).maxcmd).foldl (fun g answer => g.doOne w answer) g

/-- **`UWebSocketGate::sensorInfo`.** -/
def sensorInfo (g : Gate) (id : ObjectId) (value : Int) (answered : Bool) : Gate :=
  let g := g.wsocks.foldl (fun g w => g.setSocket w ((g.ws w).sensorInfo id value)) g
  if g.wsocks.isEmpty && answered then g.askSensor id .UIODontNotify else g

/-- A sensor changes: the gate gets a message if it is subscribed. -/
def change (g : Gate) (id : ObjectId) (value : Int) : Gate :=
  if g.last id = some .UIONotify then g.sensorInfo id value true else g

/-- `newWebSocket`: a socket with commands that wait. -/
def newWebSocket (g : Gate) (w : Nat) (ids : List ObjectId) (maxsize maxcmd : Nat) : Gate :=
  { g.setSocket w ⟨false, ids.map fun id => ⟨.ask, id⟩, fun _ => false, [], maxsize, maxcmd⟩ with
    wsocks := g.wsocks ++ [w] }

/-- `delWebSocket`. -/
def delWebSocket (g : Gate) (w : Nat) : Gate := { g with wsocks := g.wsocks.erase w }

end Gate

/-- What happens to the gate. -/
inductive Event
  /-- A socket is opened with sensors to ask for. -/
  | opened (w : Nat) (ids : List ObjectId) (maxsize maxcmd : Nat)
  /-- A client sends a command. -/
  | received (w : Nat) (si : SInfo)
  /-- A command is executed. -/
  | executed (w : Nat) (answer : Option Int)
  /-- The connection of a socket ends. -/
  | ended (w : Nat)
  /-- The socket is deleted. -/
  | closed (w : Nat)
  /-- A message of SharedMemory; `answered` is false where refusing the sensor raises an exception. -/
  | message (id : ObjectId) (value : Int) (answered : Bool)

/-- One event. -/
def Gate.step (g : Gate) : Event → Option Gate
  | .opened w ids maxsize maxcmd =>
    if w ∈ g.wsocks then none else some (g.newWebSocket w ids maxsize maxcmd)
  | .received w si =>
    if w ∈ g.wsocks then some (g.setSocket w { g.ws w with qcmd := (g.ws w).qcmd ++ [si] }) else none
  | .executed w answer => if w ∈ g.wsocks then some (g.doOne w answer) else none
  | .ended w => if w ∈ g.wsocks then some (g.setSocket w (g.ws w).term) else none
  | .closed w => if w ∈ g.wsocks then some (g.delWebSocket w) else none
  | .message id value answered => some (g.sensorInfo id value answered)

/-- **The gate as a machine**: at the start there is no socket. -/
def machine : Lib.Machine Gate Event where
  start := fun g => g.wsocks = []
  step := Gate.step

/-! ### What the sockets are promised -/

/-- **An open socket has asked for a sensor** and has not deleted it since. -/
def Gate.Asked (g : Gate) (w : Nat) (id : ObjectId) : Prop :=
  w ∈ g.wsocks ∧ (g.ws w).cancelled = false ∧ (g.ws w).smap id = true

/-- **Every sensor an open socket has asked for**: the last command for it is `UIONotify`, and each
change is put into the buffer of the socket unless this one is too long. -/
def Gate.Served (g : Gate) : Prop :=
  ∀ w id, g.Asked w id → g.last id = some .UIONotify ∧
    ∀ value, ((g.change id value).ws w).jbuf = ((g.ws w).put (.sensorInfo id value)).jbuf

/-- **The condition**: the command that is executed does not delete a sensor that another open socket
has asked for. -/
def Alone (g : Gate) : Event → Prop
  | .executed w answer => w ∈ g.wsocks → answer.isSome = true → ∀ si rest,
      (g.ws w).qcmd = si :: rest → si.cmd = .del → ∀ w' ≠ w, ¬ g.Asked w' si.id
  | _ => True

/-- What holds in a run: the sockets are different ones, and the gate is subscribed. -/
structure Gate.Inv (g : Gate) : Prop where
  nodup : g.wsocks.Nodup
  subscribed : ∀ w id, g.Asked w id → g.last id = some .UIONotify

namespace Gate

variable {g : Gate}

theorem sockets_foldl (f : UWebSocket → UWebSocket) {socks : List Nat} (nodup : socks.Nodup)
    (g : Gate) (w : Nat) :
    (socks.foldl (fun g w => g.setSocket w (f (g.ws w))) g).ws w =
      if w ∈ socks then f (g.ws w) else g.ws w := by
  induction socks generalizing g with
  | nil => rfl
  | cons v rest ih =>
    obtain ⟨away, nodup⟩ := List.nodup_cons.mp nodup
    rw [List.foldl_cons, ih nodup]
    show (if w ∈ rest then f (update g.ws v (f (g.ws v)) w)
      else update g.ws v (f (g.ws v)) w) = _
    by_cases here : w = v
    · subst here
      rw [if_neg away, if_pos List.mem_cons_self, update_self]
    · rw [update_of_ne here]
      simp [here]

theorem sockets_foldl_rest (f : UWebSocket → UWebSocket) (socks : List Nat) (g : Gate) :
    (socks.foldl (fun g w => g.setSocket w (f (g.ws w))) g).wsocks = g.wsocks ∧
      (socks.foldl (fun g w => g.setSocket w (f (g.ws w))) g).last = g.last := by
  induction socks generalizing g with
  | nil => exact ⟨rfl, rfl⟩
  | cons v rest ih => exact ih _

theorem put_fields (s : UWebSocket) (j : Json) : (s.put j).cancelled = s.cancelled ∧
    (s.put j).smap = s.smap ∧ (s.put j).qcmd = s.qcmd := by
  unfold UWebSocket.put
  split
  · exact ⟨rfl, rfl, rfl⟩
  · exact ⟨rfl, rfl, rfl⟩

theorem socket_sensorInfo (s : UWebSocket) (id : ObjectId) (value : Int) :
    (s.sensorInfo id value).cancelled = s.cancelled ∧ (s.sensorInfo id value).smap = s.smap := by
  unfold UWebSocket.sensorInfo
  split
  · exact ⟨rfl, rfl⟩
  · split
    · exact ⟨(put_fields _ _).1, (put_fields _ _).2.1⟩
    · exact ⟨rfl, rfl⟩

/-- A message changes the subscriptions only where there is no socket. -/
theorem sensorInfo_rest (g : Gate) (id : ObjectId) (value : Int) (answered : Bool) :
    (g.sensorInfo id value answered).wsocks = g.wsocks ∧
      (g.wsocks ≠ [] → (g.sensorInfo id value answered).last = g.last) := by
  obtain ⟨wsocks, last⟩ := sockets_foldl_rest (fun s => s.sensorInfo id value) g.wsocks g
  unfold sensorInfo
  dsimp only
  split
  · next none =>
    refine ⟨wsocks, fun some => ?_⟩
    rw [wsocks] at none
    simp [some] at none
  · exact ⟨wsocks, fun _ => last⟩

variable {w : Nat}

theorem sensorInfo_ws (nodup : g.wsocks.Nodup) (id : ObjectId) (value : Int) (answered : Bool)
    (here : w ∈ g.wsocks) :
    (g.sensorInfo id value answered).ws w = (g.ws w).sensorInfo id value := by
  have socket := sockets_foldl (fun s => s.sensorInfo id value) nodup g w
  rw [if_pos here] at socket
  unfold sensorInfo
  dsimp only
  split
  · exact socket
  · exact socket

/-- **Where the gate is subscribed, a change reaches every socket that has asked for it.** -/
theorem Inv.served (inv : g.Inv) : g.Served := by
  intro w id asked
  have subscribed := inv.subscribed w id asked
  refine ⟨subscribed, fun value => ?_⟩
  obtain ⟨here, cancelled, asked⟩ := asked
  unfold change
  rw [if_pos subscribed, sensorInfo_ws inv.nodup id value true here]
  unfold UWebSocket.sensorInfo
  rw [cancelled, if_neg Bool.false_ne_true, asked, if_pos rfl]

/-! ### One event -/

/-- A socket that only waits for other commands or is cancelled asks for nothing new. -/
theorem Inv.setSocket (inv : g.Inv) {s : UWebSocket} (smap : s.smap = (g.ws w).smap)
    (cancelled : s.cancelled = false → (g.ws w).cancelled = false) : (g.setSocket w s).Inv := by
  refine ⟨inv.nodup, fun v id asked => inv.subscribed v id ?_⟩
  obtain ⟨here, open', asked⟩ := asked
  by_cases same : v = w
  · subst same
    have ws : (g.setSocket v s).ws v = s := update_self _ _ _
    rw [ws] at open' asked
    exact ⟨here, cancelled open', smap ▸ asked⟩
  · have ws : (g.setSocket w s).ws v = g.ws v := update_of_ne same _ _
    rw [ws] at open' asked
    exact ⟨here, open', asked⟩

theorem Inv.newWebSocket (inv : g.Inv) (fresh : w ∉ g.wsocks) (ids : List ObjectId)
    (maxsize maxcmd : Nat) : (g.newWebSocket w ids maxsize maxcmd).Inv := by
  refine ⟨List.nodup_append.mpr ⟨inv.nodup, List.nodup_singleton w, ?_⟩, ?_⟩
  · rintro x hx y hy rfl
    exact fresh (List.mem_singleton.mp hy ▸ hx)
  · rintro v id ⟨here, open', asked⟩
    by_cases same : v = w
    · subst same
      have ws : ((g.newWebSocket v ids maxsize maxcmd).ws v).smap = fun _ => false := by
        show (update g.ws v _ v).smap = _
        rw [update_self]
      rw [ws] at asked
      cases asked
    · have ws : (g.newWebSocket w ids maxsize maxcmd).ws v = g.ws v := update_of_ne same _ _
      rw [ws] at open' asked
      refine inv.subscribed v id ⟨?_, open', asked⟩
      rcases List.mem_append.mp here with h | h
      · exact h
      · exact absurd (List.mem_singleton.mp h) same

theorem Inv.delWebSocket (inv : g.Inv) (w : Nat) : (g.delWebSocket w).Inv :=
  ⟨inv.nodup.erase w, fun v id asked =>
    inv.subscribed v id ⟨List.mem_of_mem_erase asked.1, asked.2⟩⟩

theorem Inv.sensorInfo (inv : g.Inv) (id : ObjectId) (value : Int) (answered : Bool) :
    (g.sensorInfo id value answered).Inv := by
  obtain ⟨wsocks, last⟩ := sensorInfo_rest g id value answered
  refine ⟨wsocks ▸ inv.nodup, fun v id' asked => ?_⟩
  obtain ⟨here, open', asked⟩ := asked
  rw [wsocks] at here
  rw [sensorInfo_ws inv.nodup id value answered here] at open' asked
  rw [last (List.ne_nil_of_mem here)]
  rw [(socket_sensorInfo _ _ _).1] at open'
  rw [(socket_sensorInfo _ _ _).2] at asked
  exact inv.subscribed v id' ⟨here, open', asked⟩

theorem doOne_cons {si : SInfo} {rest : List SInfo} (queue : (g.ws w).qcmd = si :: rest)
    (answer : Option Int) : g.doOne w answer =
      (g.command si answer).setSocket w ({ g.ws w with qcmd := rest }.answered si answer) := by
  unfold doOne
  rw [queue]

theorem command_wsocks (si : SInfo) (answer : Option Int) :
    (g.command si answer).wsocks = g.wsocks ∧ (g.command si answer).ws = g.ws := by
  unfold command askSensor
  split
  · split
    · exact ⟨rfl, rfl⟩
    · exact ⟨rfl, rfl⟩
  · exact ⟨rfl, rfl⟩

theorem command_last (si : SInfo) (answer : Option Int) (id : ObjectId) :
    (g.command si answer).last id =
      if id = si.id ∧ answer.isSome = true ∧ si.uioCommand.isSome = true then si.uioCommand
      else g.last id := by
  unfold command
  cases si.uioCommand with
  | none => simp
  | some cmd =>
    cases answer with
    | none => simp
    | some value =>
      show update g.last si.id (some cmd) id = _
      rw [update_apply]
      simp

/-- The socket behind its command: what it has asked for. -/
theorem answered_smap (s : UWebSocket) (si : SInfo) (answer : Option Int) (id : ObjectId) :
    (s.answered si answer).cancelled = s.cancelled ∧
      ((s.answered si answer).smap id = true → s.smap id = true ∨
        id = si.id ∧ answer.isSome = true ∧ si.cmd = .ask) ∧
      (si.cmd = .del → answer.isSome = true → (s.answered si answer).smap si.id = false) := by
  unfold UWebSocket.answered
  cases answer with
  | none =>
    refine ⟨(put_fields _ _).1, fun h => ?_, fun _ h => nomatch h⟩
    rw [(put_fields _ _).2.1] at h
    exact Or.inl h
  | some value =>
    dsimp only
    cases hcmd : si.cmd with
    | ask =>
      refine ⟨rfl, fun h => ?_, fun h => nomatch h⟩
      by_cases same : id = si.id
      · exact Or.inr ⟨same, rfl, rfl⟩
      · exact Or.inl ((update_of_ne same _ _).symm.trans h)
    | del =>
      refine ⟨rfl, fun h => ?_, fun _ _ => update_self _ _ _⟩
      by_cases same : id = si.id
      · rw [same] at h
        exact absurd (update_self si.id false s.smap ▸ h) Bool.false_ne_true
      · exact Or.inl ((update_of_ne same _ _).symm.trans h)
    | get =>
      refine ⟨(put_fields _ _).1, fun h => ?_, fun h => nomatch h⟩
      dsimp only at h
      rw [(put_fields _ _).2.1] at h
      exact Or.inl h
    | set => exact ⟨rfl, Or.inl, fun h => nomatch h⟩
    | freeze => exact ⟨rfl, Or.inl, fun h => nomatch h⟩
    | unfreeze => exact ⟨rfl, Or.inl, fun h => nomatch h⟩

/-- **A command keeps the subscriptions the sockets need**, if it deletes none of them. -/
theorem Inv.doOne (inv : g.Inv) (here : w ∈ g.wsocks) {answer : Option Int}
    (alone : Alone g (.executed w answer)) : (g.doOne w answer).Inv := by
  cases queue : (g.ws w).qcmd with
  | nil =>
    have same : g.doOne w answer = g := by
      unfold Gate.doOne
      rw [queue]
    rw [same]
    exact inv
  | cons si rest =>
    obtain ⟨wsocks, ws⟩ := command_wsocks (g := g) si answer
    rw [doOne_cons queue]
    refine ⟨?_, fun v id asked => ?_⟩
    · show (g.command si answer).wsocks.Nodup
      rw [wsocks]
      exact inv.nodup
    · obtain ⟨open', notCancelled, asked⟩ := asked
      have open'' : v ∈ g.wsocks := wsocks ▸ open'
      show (g.command si answer).last id = _
      rw [command_last]
      by_cases own : v = w
      · -- the socket of the command
        subst own
        have socket : ((g.command si answer).setSocket v
            ({ g.ws v with qcmd := rest }.answered si answer)).ws v =
              { g.ws v with qcmd := rest }.answered si answer := update_self _ _ _
        rw [socket] at notCancelled asked
        obtain ⟨cancelled, smap, del⟩ :=
          answered_smap { g.ws v with qcmd := rest } si answer id
        rcases smap asked with before | ⟨same, answered, ask⟩
        · split
          · next changed =>
            obtain ⟨same, answered, hcmd⟩ := changed
            subst same
            cases h : si.cmd with
            | del =>
              rw [del h answered] at asked
              cases asked
            | _ => simp_all [SInfo.uioCommand]
          · exact inv.subscribed v id ⟨open'', cancelled ▸ notCancelled, before⟩
        · rw [if_pos ⟨same, answered, by rw [SInfo.uioCommand, ask]; rfl⟩, SInfo.uioCommand, ask]
      · -- another socket
        have socket : ((g.command si answer).setSocket w
            ({ g.ws w with qcmd := rest }.answered si answer)).ws v = g.ws v :=
          (update_of_ne own _ _).trans (congrFun ws v)
        rw [socket] at notCancelled asked
        have before : g.Asked v id := ⟨open'', notCancelled, asked⟩
        split
        · next changed =>
          obtain ⟨same, answered, hcmd⟩ := changed
          subst same
          cases h : si.cmd with
          | ask => rw [SInfo.uioCommand, h]
          | del => exact absurd before (alone here answered si rest queue h v own)
          | _ => rw [SInfo.uioCommand, h] at hcmd; cases hcmd
        · exact inv.subscribed v id before

/-- **A command that deletes a sensor another open socket has asked for** leaves this one unserved. -/
theorem doOne_breaks {w' : Nat} {answer : Option Int} (answered : answer.isSome = true) {si : SInfo}
    {rest : List SInfo} (queue : (g.ws w).qcmd = si :: rest) (del : si.cmd = .del) (other : w' ≠ w)
    (asked : g.Asked w' si.id) : ¬ (g.doOne w answer).Served := by
  intro served
  obtain ⟨wsocks, ws⟩ := command_wsocks (g := g) si answer
  rw [doOne_cons queue] at served
  have socket : ((g.command si answer).setSocket w
      ({ g.ws w with qcmd := rest }.answered si answer)).ws w' = g.ws w' :=
    (update_of_ne other _ _).trans (congrFun ws w')
  have still : ((g.command si answer).setSocket w
      ({ g.ws w with qcmd := rest }.answered si answer)).Asked w' si.id :=
    ⟨wsocks.symm ▸ asked.1, by rw [socket]; exact asked.2.1, by rw [socket]; exact asked.2.2⟩
  have last : (g.command si answer).last si.id = some .UIONotify := (served w' si.id still).1
  rw [command_last, if_pos ⟨rfl, answered, by rw [SInfo.uioCommand, del]; rfl⟩, SInfo.uioCommand,
    del] at last
  cases last

end Gate

/-! ### Runs -/

/-- One event keeps the invariant if it meets the condition. -/
theorem inv_step {g t : Gate} {e : Event} (inv : g.Inv) (alone : Alone g e)
    (stepped : machine.step g e = some t) : t.Inv := by
  have stepped : g.step e = some t := stepped
  cases e with
  | opened w ids maxsize maxcmd =>
    simp only [Gate.step] at stepped
    split at stepped
    · cases stepped
    · next fresh =>
      cases stepped
      exact inv.newWebSocket fresh ids maxsize maxcmd
  | received w si =>
    simp only [Gate.step] at stepped
    split at stepped
    · cases stepped
      exact inv.setSocket rfl id
    · cases stepped
  | executed w answer =>
    simp only [Gate.step] at stepped
    split at stepped
    · next here =>
      cases stepped
      exact inv.doOne here alone
    · cases stepped
  | ended w =>
    simp only [Gate.step] at stepped
    split at stepped
    · cases stepped
      exact inv.setSocket rfl fun h => nomatch h
    · cases stepped
  | closed w =>
    simp only [Gate.step] at stepped
    split at stepped
    · cases stepped
      exact inv.delWebSocket w
    · cases stepped
  | message id value answered =>
    cases stepped
    exact inv.sensorInfo id value answered

/-- An event that breaks the condition leaves a socket unserved. -/
theorem loses_step {g : Gate} {e : Event} (broken : ¬ Alone g e) :
    ∃ t, machine.step g e = some t ∧ ¬ t.Served := by
  cases e with
  | executed w answer =>
    simp only [Alone, not_forall, not_not] at broken
    obtain ⟨here, answered, si, rest, queue, del, w', other, asked⟩ := broken
    exact ⟨g.doOne w answer, if_pos here, Gate.doOne_breaks answered queue del other asked⟩
  | _ => exact absurd trivial broken

/-- **The sockets are served throughout a run exactly if no command deletes a sensor that another open
socket has asked for.** -/
theorem served_iff {g : Gate} (start : machine.start g) (events : List Event) :
    machine.Always Gate.Served g events ↔ machine.Meets Alone g events := by
  have none : g.wsocks = [] := start
  have initially : g.Inv := by
    refine ⟨none ▸ List.nodup_nil, fun w id asked => ?_⟩
    have here := asked.1
    rw [none] at here
    cases here
  exact Lib.Machine.always_iff_meets (fun g inv => Gate.Inv.served inv)
    (fun g e t inv alone stepped => inv_step inv alone stepped) (fun g e _ broken => loses_step broken)
    initially

/-- A gate without sockets. -/
def Gate.empty : Gate where
  wsocks := []
  ws := fun _ => ⟨false, [], fun _ => false, [], 50000, 200⟩
  last := fun _ => none

/-- Two sockets ask for sensor 5, and the second one deletes it. -/
def twoSockets : List Event :=
  [.opened 1 [5] 50000 200, .executed 1 (some 0), .opened 2 [5] 50000 200, .executed 2 (some 0),
    .received 2 ⟨.del, 5⟩, .executed 2 (some 0)]

theorem twoSockets_alone : ¬ machine.Meets Alone Gate.empty twoSockets := by
  intro meets
  have last := (((((meets.2 _ rfl).2 _ rfl).2 _ rfl).2 _ rfl).2 _ rfl).1
  refine last ?_ rfl ⟨.del, 5⟩ [] rfl rfl 1 (by decide) ⟨?_, rfl, rfl⟩
  · show 2 ∈ [1, 2]
    decide
  · show 1 ∈ [1, 2]
    decide

/-- The first socket is left without the sensor. -/
theorem twoSockets_unserved : ¬ machine.Always Gate.Served Gate.empty twoSockets := fun served =>
  twoSockets_alone ((served_iff (show machine.start Gate.empty from rfl) twoSockets).mp served)

/-- Sockets are not independent. -/
theorem not_independent : ¬ ∀ (g : Gate) (events : List Event), machine.start g →
    machine.Always Gate.Served g events := by
  intro holds
  have run := holds Gate.empty twoSockets rfl
  have last := ((((((run.2 _ rfl).2 _ rfl).2 _ rfl).2 _ rfl).2 _ rfl).2 _ rfl)
  have asked : (1 : Nat) ∈ [1, 2] := by decide
  have served := (last 1 5 ⟨asked, rfl, rfl⟩).1
  cases served

end UniSet.UWebSocketGate
