/-
**The pings of a websocket.**

A socket pings its peer while it has nothing to send, and is to end when the answers stay away. Three timers are for
it: `iosend` writes what waits, `ioping` puts a ping behind it, and `iopong`, which each ping starts anew, looks
whether pings have been answered.

* `UWebSocket` — the timers, the counter and the buffers, in discrete time; the order of timers that are due together
  is free.
* `send`, `ping`, `pong`, `read`, `write` — the source's functions.
* `period` — the time from ping to ping when nothing else is sent.
* `Kept` — with a time out below it and no ping refused, the second ping without an answer is the last; `ends_of_two`
  is what follows it.
* `exists_counter` — with any other time out each ping comes before the look at the one before.
* `right_iff_plain` — a frame is treated as it should be unless its opcode shares a bit with that of a `PONG`.
* **`pings_iff`** — the two together.
-/

import UniSet.Lib.Machine
import Mathlib.Data.List.Basic

namespace UniSet.UWebSocketPing

open Lib

/-! ### The socket -/

/-- **The settings**, in ticks. -/
structure Settings where
  ping_sec : Nat
  pongTimeout_sec : Nat
  send_sec : Nat
  maxsend : Nat
  maxsize : Nat
  ping_pos : 0 < ping_sec
  pongTimeout_pos : 0 < pongTimeout_sec
  send_pos : 0 < send_sec
  maxsend_pos : 0 < maxsend

/-- `UTCPCore::Buffer`: the length of a text, and how much of it has been sent. -/
structure Buffer where
  len : Nat
  pos : Nat
deriving DecidableEq, Repr

/-- `nbytes`. -/
def Buffer.nbytes (b : Buffer) : Nat := b.len - b.pos

/-- The length of `ping_str`. -/
def pingSize : Nat := 1

/-- The buffer of a ping. -/
def Buffer.isPing (b : Buffer) : Bool := b.len = pingSize

/-- **`UWebSocket`**: a timer is the time it is due at; a message that waits is the length of its text. -/
structure UWebSocket where
  now : Nat
  iosend : Option Nat
  ioping : Option Nat
  iopong : Option Nat
  pongCounter : Nat
  jbuf : List Nat
  wbuf : List Buffer
  cancelled : Bool
  /-- What `onCommand` has been given. -/
  commands : List (List Char)
deriving DecidableEq, Repr

/-- What `sendFrame` answers: a number of bytes, an error after which the session ends, another one, or an
exception. -/
inductive Sent
  | bytes (n : Nat)
  | fatal
  | refused
  | thrown
deriving DecidableEq, Repr

variable (c : Settings)

namespace UWebSocket

/-- `set`. -/
def opened : UWebSocket where
  now := 0
  iosend := some 0
  ioping := some c.ping_sec
  iopong := none
  pongCounter := 0
  jbuf := []
  wbuf := []
  cancelled := false
  commands := []

/-- `term`. -/
def term (s : UWebSocket) : UWebSocket :=
  if s.cancelled then s else { s with cancelled := true, ioping := none, iosend := none, iopong := none }

/-- `ioping.start`. -/
def startPing (s : UWebSocket) : UWebSocket := { s with ioping := some (s.now + c.ping_sec) }

/-- `ioping` is started if it is not active. -/
def needPing (s : UWebSocket) : UWebSocket := if s.ioping = none then s.startPing c else s

/-- A buffer that has been written: it is dropped at its end, and `ioping` runs while nothing waits. -/
def written (s : UWebSocket) (msg : Buffer) (rest : List Buffer) : UWebSocket :=
  if msg.nbytes = 0 then
    if rest = [] then { s with wbuf := rest }.needPing c else { s with wbuf := rest, ioping := none }
  else { s with wbuf := msg :: rest, ioping := none }

/-- A ping is counted and starts `iopong` anew. -/
def counted (s : UWebSocket) (msg : Buffer) : UWebSocket :=
  if msg.isPing then { s with iopong := some (s.now + c.pongTimeout_sec), pongCounter := s.pongCounter + 1 } else s

/-- **`write`**; `sendFrame` is given the number of bytes. -/
def write (s : UWebSocket) (sendFrame : Nat → Sent) : UWebSocket :=
  match s.wbuf with
  | [] => s.needPing c
  | msg :: rest =>
    match sendFrame msg.nbytes with
    | .bytes n => (s.counted c msg).written c { msg with pos := msg.pos + n } rest
    | .fatal => (s.counted c msg).term
    | .refused => s.counted c msg
    | .thrown => (s.counted c msg).term

/-- `sbufLim`. -/
def sbufLim : Nat := 81920

/-- The texts of messages: each ends at the message that reaches the limit. -/
def batch : Nat → Bool → List Nat → List Nat
  | size, _, [] => [size + 2]
  | size, first, j :: jbuf =>
    let size := size + (if first then 0 else 1) + j
    if sbufLim ≤ size then (size + 2) :: (if jbuf = [] then [] else batch 9 true jbuf) else batch size false jbuf

/-- The texts made of what waits. -/
def batches (jbuf : List Nat) : List Nat := if jbuf = [] then [] else batch 9 true jbuf

/-- The loop of `send`: at most so many buffers. -/
def writes (sendFrame : Nat → Nat → Sent) : Nat → Nat → UWebSocket → UWebSocket
  | 0, _, s => s
  | count + 1, i, s =>
    if s.wbuf = [] || s.cancelled then s else writes sendFrame count (i + 1) (s.write c (sendFrame i))

/-- **`send`.** -/
def send (s : UWebSocket) (sendFrame : Nat → Nat → Sent) : UWebSocket :=
  writes c sendFrame c.maxsend 0 { s with jbuf := [], wbuf := s.wbuf ++ (batches s.jbuf).map (⟨·, 0⟩) }

/-- **`ping`.** -/
def ping (s : UWebSocket) : UWebSocket :=
  if s.cancelled then s
  else if s.wbuf ≠ [] then { s with ioping := none }
  else { s with wbuf := [⟨pingSize, 0⟩], ioping := none }

/-- **`pong`.** -/
def pong (s : UWebSocket) : UWebSocket :=
  if s.cancelled then s else if 1 < s.pongCounter then s.term else s

/-- A message is put behind those that wait, and `ioping` stops. -/
def put (s : UWebSocket) (j : Nat) : UWebSocket :=
  if c.maxsize < s.jbuf.length then s else { s with jbuf := s.jbuf ++ [j], ioping := none }

end UWebSocket

/-! ### Frames -/

/-- `FRAME_OP_CONT`. -/
def FRAME_OP_CONT : Nat := 0x00

/-- `FRAME_OP_TEXT`. -/
def FRAME_OP_TEXT : Nat := 0x01

/-- `FRAME_OP_BINARY`. -/
def FRAME_OP_BINARY : Nat := 0x02

/-- `FRAME_OP_CLOSE`. -/
def FRAME_OP_CLOSE : Nat := 0x08

/-- `FRAME_OP_PING`. -/
def FRAME_OP_PING : Nat := 0x09

/-- `FRAME_OP_PONG`. -/
def FRAME_OP_PONG : Nat := 0x0A

/-- The opcode: `flags & FRAME_OP_BITMASK`. -/
def opcode (flags : Nat) : Nat := flags &&& 0x0F

/-- The size of `rbuf`. -/
def rbufSize : Nat := 64 * 1024

/-- What `read` does with a frame. -/
inductive Branch
  | close | ping | pong | nothing | tooBig | command
deriving DecidableEq, Repr

/-- **The branches of `read`.** -/
def branch (flags n : Nat) : Branch :=
  if opcode flags = FRAME_OP_CLOSE then .close
  else if opcode flags = FRAME_OP_PING then .ping
  -- The bits are tested, not the opcode.
  else if opcode flags &&& FRAME_OP_PONG ≠ 0 then .pong
  else if n = 0 then .nothing
  else if n = rbufSize then .tooBig
  else .command

/-- `onCommand`: a text that is no command is answered. -/
def UWebSocket.onCommand (s : UWebSocket) (cmdtxt : List Char) (error : Nat) : UWebSocket :=
  let s := { s with commands := s.commands ++ [cmdtxt] }
  if cmdtxt.length < 5 ∨ ':' ∉ cmdtxt then s.put c error else s

/-- **`read`** of a frame; `error` is the length of an answer, and `fails` that a command throws an exception. -/
def UWebSocket.read (s : UWebSocket) (flags : Nat) (rbuf : List Char) (error : Nat) (fails : Bool) : UWebSocket :=
  match branch flags rbuf.length with
  | .close => s.term
  | .ping => s
  | .pong => { s with iopong := none, pongCounter := 0 }
  | .nothing => s
  | .tooBig => s.put c error
  | .command => if fails then s.onCommand c rbuf error else (s.onCommand c rbuf error).startPing c

/-! ### Runs -/

/-- An event. -/
inductive Event
  | tick
  | iosend (sendFrame : Nat → Nat → Sent)
  | ioping
  | iopong
  | sensorInfo (j : Nat)
  | sendResponse (j : Nat)
  | read (flags : Nat) (rbuf : List Char) (error : Nat) (fails : Bool)

/-- **A step.** Time goes on while no timer is due; a timer that is due repeats. -/
def step (s : UWebSocket) : Event → Option UWebSocket
  | .tick =>
    if s.iosend = some s.now ∨ s.ioping = some s.now ∨ s.iopong = some s.now then none
    else some { s with now := s.now + 1 }
  | .iosend sendFrame =>
    if s.iosend = some s.now then some ({ s with iosend := some (s.now + c.send_sec) }.send c sendFrame) else none
  | .ioping =>
    if s.ioping = some s.now then some ({ s with ioping := some (s.now + c.ping_sec) }.ping) else none
  | .iopong =>
    if s.iopong = some s.now then some ({ s with iopong := some (s.now + c.pongTimeout_sec) }.pong) else none
  | .sensorInfo j => some (if s.cancelled then s else s.put c j)
  | .sendResponse j => some (s.put c j)
  | .read flags rbuf error fails => if s.cancelled then none else some (s.read c flags rbuf error fails)

/-- **The runs of a socket.** -/
def machine : Machine UWebSocket Event where
  start s := s = UWebSocket.opened c
  step := step c

/-- A single byte, as a ping is one, is sent, or the session fails for good. -/
def Obliging (sendFrame : Nat → Nat → Sent) : Prop :=
  ∀ i, sendFrame i 1 = .bytes 1 ∨ sendFrame i 1 = .fatal ∨ sendFrame i 1 = .thrown

/-- **An event without a frame of the peer.** -/
def Event.Deaf : Event → Prop
  | .read _ _ _ _ => False
  | _ => True

/-- **No ping is refused.** One that is stays where it is, is counted, and is counted again with each new try. -/
def Event.Taken : Event → Prop
  | .iosend sendFrame => Obliging sendFrame
  | _ => True

/-- `2 + ceil(pongTimeout_sec / ping_sec)`. -/
def bound : Nat := 2 + (c.pongTimeout_sec + c.ping_sec - 1) / c.ping_sec

/-- **The time from ping to ping**: `ping_sec`, up to the next multiple of `send_sec`. -/
def period : Nat := c.send_sec * ((c.ping_sec + c.send_sec - 1) / c.send_sec)

/-- **A command**: a frame of text, binary or continuation that fits. -/
def IsCommand (flags : Nat) (rbuf : List Char) : Prop :=
  (opcode flags = FRAME_OP_TEXT ∨ opcode flags = FRAME_OP_BINARY ∨ opcode flags = FRAME_OP_CONT) ∧
    0 < rbuf.length ∧ rbuf.length < rbufSize

/-- **A frame is treated as it should be**: only a `PONG` resets the counter, and a command reaches `onCommand`. -/
def Right (s : UWebSocket) : Event → Prop
  | .read flags rbuf error fails => ∀ t, step c s (.read flags rbuf error fails) = some t →
      (opcode flags ≠ FRAME_OP_PONG → t.pongCounter = s.pongCounter) ∧
      (IsCommand flags rbuf → t.commands = s.commands ++ [rbuf])
  | _ => True

/-- **The opcode shares a bit with that of a `PONG`**, and is none of those that have. -/
def Mistaken (flags : Nat) : Prop :=
  opcode flags &&& FRAME_OP_PONG ≠ 0 ∧
    opcode flags ≠ FRAME_OP_CLOSE ∧ opcode flags ≠ FRAME_OP_PING ∧ opcode flags ≠ FRAME_OP_PONG

/-- **The condition**: such a frame comes only while no ping is unanswered, and is no command. -/
def Plain (s : UWebSocket) : Event → Prop
  | .read flags rbuf _ _ => s.cancelled = false → Mistaken flags → s.pongCounter = 0 ∧ ¬ IsCommand flags rbuf
  | _ => True

variable {c} {s : UWebSocket}

/-! ### A time out below the period -/

/-- **From one time at which `iosend` is due to another** that is `ping_sec` later it takes a period. -/
theorem period_le {last t : Nat} (due : c.send_sec ∣ last) (due' : c.send_sec ∣ t) (later : last + c.ping_sec ≤ t) :
    last + period c ≤ t := by
  obtain ⟨k, rfl⟩ := due
  obtain ⟨k', rfl⟩ := due'
  have turns : (c.ping_sec + c.send_sec - 1) / c.send_sec ≤ k' - k := by
    refine Nat.lt_succ_iff.mp (Nat.div_lt_of_lt_mul ?_)
    have ahead : k ≤ k' := Nat.le_of_mul_le_mul_left (by omega) c.send_pos
    have split : c.send_sec * k' = c.send_sec * k + c.send_sec * (k' - k) := by
      rw [← Nat.mul_add, Nat.add_sub_cancel' ahead]
    have positive := c.send_pos
    rw [Nat.succ_eq_add_one, Nat.mul_add, Nat.mul_one]
    omega
  have positive := c.ping_pos
  have ahead : k ≤ k' := Nat.le_of_mul_le_mul_left (by omega) c.send_pos
  calc c.send_sec * k + period c
    _ ≤ c.send_sec * k + c.send_sec * (k' - k) := Nat.add_le_add_left (Nat.mul_le_mul_left _ turns) _
    _ = c.send_sec * k' := by rw [← Nat.mul_add, Nat.add_sub_cancel' ahead]

/-- The number of pings that wait. -/
def UWebSocket.pings (s : UWebSocket) : Nat := s.wbuf.countP Buffer.isPing

/-- **What holds since a ping was written**, the last one: `iopong` looks at it in time, and the next one is not due
before `ping_sec`. -/
structure Since (c : Settings) (s : UWebSocket) (last : Nat) : Prop where
  due : c.send_sec ∣ last
  past : last ≤ s.now
  looks : ∃ d, s.iopong = some d ∧ s.now ≤ d ∧ d ≤ last + c.pongTimeout_sec
  next : ∀ d, s.ioping = some d → last + c.ping_sec ≤ d
  waits : 0 < s.pings → last + c.ping_sec ≤ s.now

/-- **What holds while the peer is silent.** -/
structure Kept (c : Settings) (s : UWebSocket) : Prop where
  ended : s.cancelled = true → s.iosend = none ∧ s.ioping = none ∧ s.iopong = none
  counter : s.pongCounter ≤ 2
  sends : s.cancelled = false → ∃ d, s.iosend = some d ∧ c.send_sec ∣ d ∧ s.now ≤ d
  single : s.pings ≤ 1
  whole : ∀ b ∈ s.wbuf, b.isPing = true → b.pos = 0
  stopped : 0 < s.pings → s.ioping = none
  second : s.cancelled = false → s.pongCounter = 2 → ∃ last, Since c s last

theorem opened_kept : Kept c (.opened c) where
  ended := Bool.noConfusion
  counter := Nat.zero_le _
  sends _ := ⟨0, rfl, Nat.dvd_zero _, Nat.le_refl _⟩
  single := Nat.zero_le _
  whole _ member := absurd member List.not_mem_nil
  stopped waits := absurd waits (Nat.lt_irrefl 0)
  second _ two := by cases two

theorem Kept.of_term (counter : s.pongCounter ≤ 2) (single : s.pings ≤ 1)
    (whole : ∀ b ∈ s.wbuf, b.isPing = true → b.pos = 0) (open' : s.cancelled = false) : Kept c s.term := by
  rw [UWebSocket.term, open', if_neg Bool.false_ne_true]
  exact ⟨fun _ => ⟨rfl, rfl, rfl⟩, counter, Bool.noConfusion, single, whole, fun _ => rfl, Bool.noConfusion⟩

variable {rest : List Buffer}

theorem pings_cons {b : Buffer} (buffers : s.wbuf = b :: rest) :
    s.pings = rest.countP Buffer.isPing + if b.isPing then 1 else 0 := by
  rw [UWebSocket.pings, buffers, List.countP_cons]

/-- **A ping that is written** is the first or the second without an answer. -/
theorem Kept.counter_of_pings (kept : Kept c s) (short : c.pongTimeout_sec < period c) (open' : s.cancelled = false)
    (now : c.send_sec ∣ s.now) (waits : 0 < s.pings) : s.pongCounter ≤ 1 := by
  have most := kept.counter
  by_contra more
  obtain ⟨last, since⟩ := kept.second open' (by omega)
  obtain ⟨d, -, ahead, looks⟩ := since.looks
  have later := period_le since.due now (since.waits waits)
  omega

/-- **Other buffers and another `ioping`**, with as many pings: they keep what holds. -/
theorem Kept.quiet (kept : Kept c s) {w : List Buffer} {j : List Nat} {p : Option Nat}
    (same : w.countP Buffer.isPing = s.pings) (whole : ∀ b ∈ w, b.isPing = true → b.pos = 0)
    (starts : p = none ∨ p = s.ioping ∨ s.cancelled = false ∧ s.pings = 0 ∧ p = some (s.now + c.ping_sec)) :
    Kept c { s with wbuf := w, jbuf := j, ioping := p } where
  ended cancelled := by
    obtain ⟨iosend, ioping, iopong⟩ := kept.ended cancelled
    refine ⟨iosend, ?_, iopong⟩
    obtain none | old | ⟨open', -⟩ := starts
    · exact none
    · exact old.trans ioping
    · exact absurd (cancelled.symm.trans open') Bool.noConfusion
  counter := kept.counter
  sends := kept.sends
  single := Nat.le_trans (Nat.le_of_eq same) kept.single
  whole := whole
  stopped waits := by
    have waits' : 0 < s.pings := same ▸ waits
    obtain none | old | ⟨-, zero, -⟩ := starts
    · exact none
    · exact old.trans (kept.stopped waits')
    · omega
  second open' two := by
    obtain ⟨last, since⟩ := kept.second open' two
    refine ⟨last, since.due, since.past, since.looks, fun d due => ?_, fun waits => since.waits (same ▸ waits)⟩
    have due : p = some d := due
    obtain none | old | ⟨-, -, new⟩ := starts
    · rw [none] at due
      cases due
    · exact since.next d (old ▸ due)
    · have past := since.past
      rw [new] at due
      cases due
      omega

theorem counted_of_not {msg : Buffer} (other : msg.isPing = false) : s.counted c msg = s := by
  rw [UWebSocket.counted, other, if_neg Bool.false_ne_true]

/-- **A buffer that is no ping.** -/
theorem Kept.written (kept : Kept c s) (open' : s.cancelled = false) {msg : Buffer} {pos : Nat}
    (buffers : s.wbuf = msg :: rest) (other : msg.isPing = false) :
    Kept c (s.written c { msg with pos := pos } rest) := by
  have other' : Buffer.isPing { msg with pos := pos } = false := other
  have behind : rest.countP Buffer.isPing = s.pings := by simp [pings_cons buffers, other]
  have whole : ∀ b ∈ rest, b.isPing = true → b.pos = 0 := fun b member =>
    kept.whole b (buffers ▸ List.mem_cons_of_mem _ member)
  rw [UWebSocket.written]
  split
  · split
    · next last =>
      subst last
      have zero : s.pings = 0 := behind.symm
      rw [UWebSocket.needPing]
      split
      · exact kept.quiet behind whole (.inr (.inr ⟨open', zero, rfl⟩))
      · exact kept.quiet behind whole (.inr (.inl rfl))
    · exact kept.quiet behind whole (.inl rfl)
  · refine kept.quiet ?_ ?_ (.inl rfl)
    · simp [other', behind]
    · rw [List.forall_mem_cons]
      exact ⟨fun isPing => absurd (other'.symm.trans isPing) Bool.noConfusion, whole⟩

/-- The first or the second ping without an answer. -/
theorem Kept.pinged (kept : Kept c s) (open' : s.cancelled = false) (now : c.send_sec ∣ s.now)
    (counter : s.pongCounter ≤ 1) (none' : rest.countP Buffer.isPing = 0)
    (whole : ∀ b ∈ rest, b.isPing = true → b.pos = 0) {p : Option Nat}
    (next : ∀ d, p = some d → s.now + c.ping_sec ≤ d) :
    Kept c { s with
      iopong := some (s.now + c.pongTimeout_sec), pongCounter := s.pongCounter + 1, wbuf := rest, ioping := p } where
  ended cancelled := absurd (cancelled.symm.trans open') Bool.noConfusion
  counter := Nat.succ_le_succ counter
  sends := kept.sends
  single := Nat.le_trans (Nat.le_of_eq none') (Nat.zero_le 1)
  whole := whole
  stopped more := absurd none' (Nat.ne_of_gt more)
  second _ _ := ⟨s.now, now, Nat.le_refl _, ⟨_, rfl, Nat.le_add_right _ _, Nat.le_refl _⟩, next,
    fun more => absurd none' (Nat.ne_of_gt more)⟩

/-- What a ping that waits says of the others. -/
theorem Kept.ping_first (kept : Kept c s) (short : c.pongTimeout_sec < period c)
    (open' : s.cancelled = false) (now : c.send_sec ∣ s.now) {msg : Buffer}
    (buffers : s.wbuf = msg :: rest) (isPing : msg.isPing = true) :
    rest.countP Buffer.isPing = 0 ∧ s.ioping = none ∧ s.pongCounter ≤ 1 := by
  have pings := pings_cons buffers
  rw [if_pos isPing] at pings
  have single := kept.single
  have waits : 0 < s.pings := by omega
  exact ⟨by omega, kept.stopped waits, kept.counter_of_pings short open' now waits⟩

/-- **One buffer is written.** -/
theorem Kept.write (kept : Kept c s) (short : c.pongTimeout_sec < period c) (open' : s.cancelled = false)
    (now : c.send_sec ∣ s.now) {sendFrame : Nat → Sent}
    (obliging : sendFrame 1 = .bytes 1 ∨ sendFrame 1 = .fatal ∨ sendFrame 1 = .thrown) (some : s.wbuf ≠ []) :
    Kept c (s.write c sendFrame) := by
  obtain ⟨msg, rest, buffers⟩ := List.exists_cons_of_ne_nil some
  have whole : ∀ b ∈ rest, b.isPing = true → b.pos = 0 := fun b member =>
    kept.whole b (buffers ▸ List.mem_cons_of_mem _ member)
  have write : s.write c sendFrame = match sendFrame msg.nbytes with
      | .bytes n => (s.counted c msg).written c { msg with pos := msg.pos + n } rest
      | .fatal => (s.counted c msg).term
      | .refused => s.counted c msg
      | .thrown => (s.counted c msg).term := by
    rw [UWebSocket.write, buffers]
  rw [write]
  cases isPing : msg.isPing with
  | true =>
    obtain ⟨behind, stopped, counter⟩ := kept.ping_first short open' now buffers isPing
    have pos := kept.whole msg (buffers ▸ List.mem_cons_self) isPing
    have len : msg.len = 1 := of_decide_eq_true isPing
    have size : msg.nbytes = 1 := by rw [Buffer.nbytes, pos, len]
    have ended : Kept c (s.counted c msg).term := by
      rw [UWebSocket.counted, if_pos isPing]
      exact .of_term (Nat.succ_le_succ counter) kept.single kept.whole open'
    rw [size]
    obtain taken | failed | failed := obliging
    · have sent : Buffer.nbytes { msg with pos := msg.pos + 1 } = 0 := by simp [Buffer.nbytes, pos, len]
      rw [taken]
      show Kept c ((s.counted c msg).written c { msg with pos := msg.pos + 1 } rest)
      rw [UWebSocket.counted, if_pos isPing, UWebSocket.written, if_pos sent]
      split
      · rw [UWebSocket.needPing, if_pos stopped]
        exact kept.pinged open' now counter behind whole fun d due => Nat.le_of_eq (Option.some.inj due)
      · exact kept.pinged open' now counter behind whole fun d due => absurd due.symm (Option.some_ne_none d)
    · rw [failed]
      exact ended
    · rw [failed]
      exact ended
  | false =>
    rw [counted_of_not isPing]
    cases sendFrame msg.nbytes with
    | bytes n => exact kept.written open' buffers isPing
    | fatal => exact .of_term kept.counter kept.single kept.whole open'
    | refused => exact kept
    | thrown => exact .of_term kept.counter kept.single kept.whole open'

theorem write_now (sendFrame : Nat → Sent) : (s.write c sendFrame).now = s.now := by
  have counted (msg : Buffer) : (s.counted c msg).now = s.now := by
    rw [UWebSocket.counted]
    split <;> rfl
  have term (s : UWebSocket) : s.term.now = s.now := by
    rw [UWebSocket.term]
    split <;> rfl
  have needPing (s : UWebSocket) : (s.needPing c).now = s.now := by
    rw [UWebSocket.needPing]
    split <;> rfl
  have written (s : UWebSocket) (msg : Buffer) (rest : List Buffer) : (s.written c msg rest).now = s.now := by
    rw [UWebSocket.written]
    split
    · split
      · exact needPing _
      · rfl
    · rfl
  rw [UWebSocket.write]
  split
  · exact needPing s
  · split
    · exact (written _ _ _).trans (counted _)
    · exact (term _).trans (counted _)
    · exact counted _
    · exact (term _).trans (counted _)

/-- **The loop of `send`.** -/
theorem Kept.writes (short : c.pongTimeout_sec < period c) {sendFrame : Nat → Nat → Sent}
    (obliging : Obliging sendFrame) (count i : Nat) (kept : Kept c s) (now : c.send_sec ∣ s.now) :
    Kept c (UWebSocket.writes c sendFrame count i s) := by
  induction count generalizing i s with
  | zero => exact kept
  | succ count ih =>
    rw [UWebSocket.writes]
    split
    · exact kept
    · next more =>
      simp only [Bool.or_eq_true, decide_eq_true_eq, not_or, Bool.not_eq_true] at more
      refine ih (i + 1) (kept.write short more.2 now (obliging i) more.1) ?_
      rw [write_now]
      exact now

theorem batch_ge {size : Nat} {first : Bool} {jbuf : List Nat} (begun : 9 ≤ size) :
    ∀ len ∈ UWebSocket.batch size first jbuf, 11 ≤ len := by
  induction jbuf generalizing size first with
  | nil => simpa [UWebSocket.batch] using Nat.add_le_add_right begun 2
  | cons j jbuf ih =>
    rw [UWebSocket.batch]
    have more : 9 ≤ size + (if first then 0 else 1) + j := by omega
    generalize size + (if first then 0 else 1) + j = size' at more
    show ∀ len ∈ if UWebSocket.sbufLim ≤ size' then _ else _, _
    split
    · rw [List.forall_mem_cons]
      refine ⟨by omega, ?_⟩
      split
      · exact fun len member => absurd member List.not_mem_nil
      · exact ih (Nat.le_refl 9)
    · exact ih more

/-- **The texts of messages are no pings.** -/
theorem batches_ne {jbuf : List Nat} : ∀ len ∈ UWebSocket.batches jbuf, Buffer.isPing ⟨len, 0⟩ = false := by
  intro len member
  rw [UWebSocket.batches] at member
  split at member
  · cases member
  · have size := batch_ge (Nat.le_refl 9) len member
    exact decide_eq_false (by show ¬ len = 1; omega)

/-- **`iosend`.** -/
theorem Kept.send (short : c.pongTimeout_sec < period c) {sendFrame : Nat → Nat → Sent} (obliging : Obliging sendFrame)
    (kept : Kept c s) (now : c.send_sec ∣ s.now) : Kept c (s.send c sendFrame) := by
  have texts : ((UWebSocket.batches s.jbuf).map (⟨·, 0⟩)).countP Buffer.isPing = 0 := by
    rw [List.countP_eq_zero]
    rintro b member isPing
    obtain ⟨len, known, rfl⟩ := List.mem_map.mp member
    exact absurd ((batches_ne len known).symm.trans isPing) Bool.noConfusion
  have packed : Kept c { s with jbuf := [], wbuf := s.wbuf ++ (UWebSocket.batches s.jbuf).map (⟨·, 0⟩) } := by
    refine kept.quiet ?_ ?_ (.inr (.inl rfl))
    · rw [List.countP_append, texts]
      rfl
    · intro b member
      obtain old | new := List.mem_append.mp member
      · exact kept.whole b old
      · obtain ⟨len, -, rfl⟩ := List.mem_map.mp new
        exact fun _ => rfl
  exact packed.writes short obliging c.maxsend 0 now

theorem Kept.put (kept : Kept c s) (j : Nat) : Kept c (s.put c j) := by
  rw [UWebSocket.put]
  split
  · exact kept
  · exact kept.quiet rfl kept.whole (.inl rfl)

/-- A session with a timer that is due has not ended. -/
theorem Kept.active (kept : Kept c s) (due : s.iosend = some s.now ∨ s.ioping = some s.now ∨ s.iopong = some s.now) :
    ¬ s.cancelled = true := by
  intro ended
  obtain ⟨iosend, ioping, iopong⟩ := kept.ended ended
  simp [iosend, ioping, iopong] at due

theorem Kept.tick (kept : Kept c s)
    (idle : ¬ (s.iosend = some s.now ∨ s.ioping = some s.now ∨ s.iopong = some s.now)) :
    Kept c { s with now := s.now + 1 } := by
  simp only [not_or] at idle
  refine ⟨kept.ended, kept.counter, fun open' => ?_, kept.single, kept.whole, kept.stopped, fun open' two => ?_⟩
  · obtain ⟨d, due, turns, ahead⟩ := kept.sends open'
    have other : d ≠ s.now := fun same => idle.1 (same ▸ due)
    exact ⟨d, due, turns, Nat.lt_of_le_of_ne ahead other.symm⟩
  · obtain ⟨last, since⟩ := kept.second open' two
    obtain ⟨d, due, ahead, looks⟩ := since.looks
    have other : d ≠ s.now := fun same => idle.2.2 (same ▸ due)
    exact ⟨last, since.due, Nat.le_succ_of_le since.past, ⟨d, due, Nat.lt_of_le_of_ne ahead other.symm, looks⟩,
      since.next, fun waits => Nat.le_succ_of_le (since.waits waits)⟩

theorem Kept.turned (kept : Kept c s) (turns : c.send_sec ∣ s.now) (open' : ¬ s.cancelled = true) :
    Kept c { s with iosend := some (s.now + c.send_sec) } where
  ended cancelled := absurd cancelled open'
  counter := kept.counter
  sends _ := ⟨_, rfl, (Nat.dvd_add_right turns).mpr (Nat.dvd_refl _), Nat.le_add_right _ _⟩
  single := kept.single
  whole := kept.whole
  stopped := kept.stopped
  second stays two := by
    obtain ⟨last, since⟩ := kept.second stays two
    exact ⟨last, since.due, since.past, since.looks, since.next, since.waits⟩

/-- **`ioping`.** -/
theorem Kept.ping (kept : Kept c s) (due : s.ioping = some s.now) :
    Kept c (UWebSocket.ping { s with ioping := some (s.now + c.ping_sec) }) := by
  have open' := kept.active (.inr (.inl due))
  rw [UWebSocket.ping, if_neg open']
  split
  · exact kept.quiet rfl kept.whole (.inl rfl)
  · refine ⟨fun cancelled => absurd cancelled open', kept.counter, kept.sends, Nat.le_refl 1, by simp, fun _ => rfl,
      fun stays two => ?_⟩
    obtain ⟨last, since⟩ := kept.second stays two
    exact ⟨last, since.due, since.past, since.looks, fun d next => absurd next.symm (Option.some_ne_none d),
      fun _ => since.next _ due⟩

/-- **`iopong`.** -/
theorem Kept.pong (kept : Kept c s) (due : s.iopong = some s.now) :
    Kept c (UWebSocket.pong { s with iopong := some (s.now + c.pongTimeout_sec) }) := by
  have open' := kept.active (.inr (.inr due))
  rw [UWebSocket.pong, if_neg open']
  split
  · exact .of_term kept.counter kept.single kept.whole (by simpa using open')
  · next few =>
    exact ⟨fun cancelled => absurd cancelled open', kept.counter, kept.sends, kept.single, kept.whole, kept.stopped,
      fun _ two => absurd (Nat.lt_of_lt_of_eq Nat.one_lt_two two.symm) few⟩

/-- **One step while the peer is silent.** -/
theorem Kept.step {t : UWebSocket} (short : c.pongTimeout_sec < period c) (kept : Kept c s) (e : Event)
    (silent : e.Deaf ∧ e.Taken) (stepped : UWebSocketPing.step c s e = some t) : Kept c t := by
  cases e with
  | tick =>
    obtain ⟨idle, ⟨⟩⟩ := Option.ite_none_left_eq_some.mp stepped
    exact kept.tick idle
  | iosend sendFrame =>
    obtain ⟨due, ⟨⟩⟩ := Option.ite_none_right_eq_some.mp stepped
    have open' := kept.active (.inl due)
    obtain ⟨d, due', turns, -⟩ := kept.sends (by simpa using open')
    obtain rfl : d = s.now := Option.some.inj (due'.symm.trans due)
    exact (kept.turned turns open').send short silent.2 turns
  | ioping =>
    obtain ⟨due, ⟨⟩⟩ := Option.ite_none_right_eq_some.mp stepped
    exact kept.ping due
  | iopong =>
    obtain ⟨due, ⟨⟩⟩ := Option.ite_none_right_eq_some.mp stepped
    exact kept.pong due
  | sensorInfo j =>
    obtain rfl := Option.some.inj stepped
    split
    · exact kept
    · exact kept.put j
  | sendResponse j =>
    obtain rfl := Option.some.inj stepped
    exact kept.put j
  | read => exact silent.1.elim

/-- **The counter while the peer is silent.** -/
theorem reachable_kept (short : c.pongTimeout_sec < period c)
    (reached : (machine c).Reachable (fun _ e => e.Deaf ∧ e.Taken) s) : Kept c s := by
  obtain ⟨_, labels, rfl, silent, ran⟩ := reached
  exact Machine.run_invariant (fun s e t kept silent stepped => kept.step short e silent stepped)
    opened_kept silent ran

/-- **After a second ping without an answer** `iopong` is due within the time out, and ends the session. -/
theorem ends_of_two (short : c.pongTimeout_sec < period c)
    (reached : (machine c).Reachable (fun _ e => e.Deaf ∧ e.Taken) s) (two : s.pongCounter = 2)
    (open' : s.cancelled = false) :
    ∃ last ≤ s.now, ∃ d, s.iopong = some d ∧ s.now ≤ d ∧ d ≤ last + c.pongTimeout_sec := by
  obtain ⟨last, since⟩ := (reachable_kept short reached).second open' two
  exact ⟨last, since.past, since.looks⟩

/-! ### A time out that is not below the period -/

/-- **One state leads to another** while the peer is silent. -/
def Leads (c : Settings) (s t : UWebSocket) : Prop :=
  ∃ labels : List Event, (∀ e ∈ labels, e.Deaf ∧ e.Taken) ∧ (machine c).run s labels = some t

theorem Leads.refl (s : UWebSocket) : Leads c s s := ⟨[], fun _ member => absurd member List.not_mem_nil, rfl⟩

theorem Leads.trans {t u : UWebSocket} (first : Leads c s t) (later : Leads c t u) : Leads c s u := by
  obtain ⟨labels, deaf, ran⟩ := first
  obtain ⟨more, deaf', ran'⟩ := later
  refine ⟨labels ++ more, List.forall_mem_append.mpr ⟨deaf, deaf'⟩, ?_⟩
  rw [Machine.run_append, ran]
  exact ran'

theorem Leads.of_step {t : UWebSocket} {e : Event} (silent : e.Deaf ∧ e.Taken) (stepped : step c s e = some t) :
    Leads c s t := by
  refine ⟨[e], List.forall_mem_singleton.mpr silent, ?_⟩
  show (step c s e).bind some = some t
  rw [stepped, Option.bind_some]

/-- No timer is due before a time. -/
def Quiet (s : UWebSocket) (t : Nat) : Prop :=
  (∀ d, s.iosend = some d → t ≤ d) ∧ (∀ d, s.ioping = some d → t ≤ d) ∧ ∀ d, s.iopong = some d → t ≤ d

/-- **Time goes on** stop a timer is due. -/
theorem Quiet.leads {stop : Nat} (quiet : Quiet s stop) (later : s.now ≤ stop) :
    Leads c s { s with now := stop } := by
  obtain ⟨k, rfl⟩ := Nat.exists_eq_add_of_le later
  induction k with
  | zero => exact .refl s
  | succ k ih =>
    obtain ⟨iosend, ioping, iopong⟩ := quiet
    have sooner : Quiet s (s.now + k) :=
      ⟨fun d due => Nat.le_of_succ_le (iosend d due), fun d due => Nat.le_of_succ_le (ioping d due),
        fun d due => Nat.le_of_succ_le (iopong d due)⟩
    refine (ih sooner (Nat.le_add_right _ _)).trans (.of_step (e := .tick) ⟨trivial, trivial⟩ (if_neg ?_))
    rintro (due | due | due)
    · exact Nat.not_succ_le_self _ (iosend _ due)
    · exact Nat.not_succ_le_self _ (ioping _ due)
    · exact Nat.not_succ_le_self _ (iopong _ due)

/-- A socket with nothing to send. -/
def idle (now iosend : Nat) (ioping iopong : Option Nat) (pongCounter : Nat) : UWebSocket where
  now := now
  iosend := some iosend
  ioping := ioping
  iopong := iopong
  pongCounter := pongCounter
  jbuf := []
  wbuf := []
  cancelled := false
  commands := []

/-- Every byte is taken. -/
def takesAll : Nat → Nat → Sent := fun _ n => .bytes n

theorem takesAll_obliging : Obliging takesAll := fun _ => .inl rfl

variable {t n : Nat} {p q : Option Nat}

theorem leads_iosend : Leads c (idle t t p q n) (idle t (t + c.send_sec) p q n) := by
  refine .of_step (e := .iosend takesAll) ⟨trivial, takesAll_obliging⟩ ((if_pos rfl).trans (congrArg some ?_))
  show UWebSocket.writes c takesAll c.maxsend 0 (idle t (t + c.send_sec) p q n) = _
  cases c.maxsend <;> rfl

/-- **Several turns of `iosend`** before another timer is due. -/
theorem leads_turns (k : Nat) (ioping : ∀ d, p = some d → t + c.send_sec * k ≤ d)
    (iopong : ∀ d, q = some d → t + c.send_sec * k ≤ d) :
    Leads c (idle t (t + c.send_sec) p q n)
      (idle (t + c.send_sec * k) (t + c.send_sec * k + c.send_sec) p q n) := by
  induction k with
  | zero => exact .refl _
  | succ k ih =>
    have turn : t + c.send_sec * (k + 1) = t + c.send_sec * k + c.send_sec := by rw [Nat.mul_succ, Nat.add_assoc]
    rw [turn] at ioping iopong ⊢
    refine (ih (fun d due => Nat.le_of_add_right_le (ioping d due))
      (fun d due => Nat.le_of_add_right_le (iopong d due))).trans ?_
    have waits : Quiet (idle (t + c.send_sec * k) (t + c.send_sec * k + c.send_sec) p q n)
        (t + c.send_sec * k + c.send_sec) :=
      ⟨fun d due => Nat.le_of_eq (Option.some.inj due), ioping, iopong⟩
    exact (waits.leads (Nat.le_add_right _ _)).trans leads_iosend

/-- The last turn of `iosend` before a ping, and the first one from it on. -/
theorem exists_turns (c : Settings) :
    ∃ k, period c = c.send_sec * (k + 1) ∧ c.send_sec * k < c.ping_sec ∧ c.ping_sec ≤ c.send_sec * (k + 1) := by
  have send := c.send_pos
  have ping := c.ping_pos
  obtain ⟨k, turns⟩ : ∃ k, (c.ping_sec + c.send_sec - 1) / c.send_sec = k + 1 :=
    Nat.exists_eq_succ_of_ne_zero (Nat.ne_of_gt (Nat.div_pos (by omega) send))
  have below := Nat.div_mul_le_self (c.ping_sec + c.send_sec - 1) c.send_sec
  have above := Nat.lt_mul_div_succ (c.ping_sec + c.send_sec - 1) send
  rw [turns] at below above
  refine ⟨k, by rw [period, turns], ?_, ?_⟩
  · rw [Nat.mul_comm, Nat.mul_succ] at below
    omega
  · rw [Nat.mul_succ c.send_sec (k + 1)] at above
    omega

theorem leads_ioping {d : Nat} :
    Leads c (idle t d (some t) q n) { idle t d none q n with wbuf := [⟨pingSize, 0⟩] } :=
  .of_step (e := .ioping) ⟨trivial, trivial⟩ (if_pos rfl)

/-- **A ping is written.** -/
theorem leads_write : Leads c { idle t t none q n with wbuf := [⟨pingSize, 0⟩] }
    (idle t (t + c.send_sec) (some (t + c.ping_sec)) (some (t + c.pongTimeout_sec)) (n + 1)) := by
  refine .of_step (e := .iosend takesAll) ⟨trivial, takesAll_obliging⟩ ((if_pos rfl).trans (congrArg some ?_))
  obtain ⟨m, count⟩ := Nat.exists_eq_succ_of_ne_zero (Nat.ne_of_gt c.maxsend_pos)
  rw [UWebSocket.send, count]
  cases m <;> rfl

/-- **From ping to ping**, before `iopong` looks. -/
theorem leads_period (late : ∀ d, q = some d → t + period c ≤ d) :
    Leads c (idle t (t + c.send_sec) (some (t + c.ping_sec)) q n)
      (idle (t + period c) (t + period c + c.send_sec) (some (t + period c + c.ping_sec))
        (some (t + period c + c.pongTimeout_sec)) (n + 1)) := by
  obtain ⟨k, turns, before, behind⟩ := exists_turns c
  have next : t + c.send_sec * k + c.send_sec = t + period c := by rw [turns, Nat.mul_succ, Nat.add_assoc]
  have ping : t + c.ping_sec ≤ t + period c := by omega
  have waits : Quiet (idle (t + c.send_sec * k) (t + period c) (some (t + c.ping_sec)) q n) (t + c.ping_sec) :=
    ⟨fun d due => Option.some.inj due ▸ ping, fun d due => Nat.le_of_eq (Option.some.inj due),
      fun d due => Nat.le_trans ping (late d due)⟩
  have waits' : Quiet { idle (t + c.ping_sec) (t + period c) none q n with wbuf := [⟨pingSize, 0⟩] } (t + period c) :=
    ⟨fun d due => Nat.le_of_eq (Option.some.inj due), fun d due => absurd due.symm (Option.some_ne_none d), late⟩
  have turns' := leads_turns (c := c) (t := t) (p := some (t + c.ping_sec)) (q := q) (n := n) k
    (fun d due => by rw [← Option.some.inj due]; omega) (fun d due => by have := late d due; omega)
  rw [next] at turns'
  have putting : Leads c _ _ := (waits.leads (Nat.add_le_add_left (Nat.le_of_lt before) t)).trans leads_ioping
  have writing : Leads c _ _ := (waits'.leads ping).trans leads_write
  exact turns'.trans (putting.trans writing)

/-- **The counter has no bound** with a time out that is not below the period. -/
theorem exists_counter (long : period c ≤ c.pongTimeout_sec) (n : Nat) :
    ∃ s, Leads c (.opened c) s ∧ s.pongCounter = n := by
  have leads : ∃ t q, Leads c (.opened c) (idle t (t + c.send_sec) (some (t + c.ping_sec)) q n) ∧
      ∀ d, q = some d → t + period c ≤ d := by
    induction n with
    | zero =>
      refine ⟨0, none, ?_, fun d due => absurd due.symm (Option.some_ne_none d)⟩
      rw [Nat.zero_add c.ping_sec]
      exact leads_iosend
    | succ n ih =>
      obtain ⟨t, q, leads, late⟩ := ih
      refine ⟨t + period c, _, leads.trans (leads_period late), fun d due => ?_⟩
      exact Option.some.inj due ▸ Nat.add_le_add_left long _
  obtain ⟨t, q, leads, -⟩ := leads
  exact ⟨_, leads, rfl⟩

/-! ### Frames -/

theorem put_eq (s : UWebSocket) (j : Nat) :
    (s.put c j).pongCounter = s.pongCounter ∧ (s.put c j).commands = s.commands := by
  rw [UWebSocket.put]
  split <;> exact ⟨rfl, rfl⟩

theorem onCommand_eq (s : UWebSocket) (cmdtxt : List Char) (error : Nat) :
    (s.onCommand c cmdtxt error).pongCounter = s.pongCounter ∧
      (s.onCommand c cmdtxt error).commands = s.commands ++ [cmdtxt] := by
  rw [UWebSocket.onCommand]
  split
  · exact put_eq _ error
  · exact ⟨rfl, rfl⟩

/-- **What each branch of `read` does** to the counter and the commands. -/
theorem read_eq (s : UWebSocket) (flags : Nat) (rbuf : List Char) (error : Nat) (fails : Bool) :
    (s.read c flags rbuf error fails).pongCounter =
        (if branch flags rbuf.length = .pong then 0 else s.pongCounter) ∧
      (s.read c flags rbuf error fails).commands =
        if branch flags rbuf.length = .command then s.commands ++ [rbuf] else s.commands := by
  have term : s.term.pongCounter = s.pongCounter ∧ s.term.commands = s.commands := by
    rw [UWebSocket.term]
    split <;> exact ⟨rfl, rfl⟩
  rw [UWebSocket.read]
  cases branch flags rbuf.length with
  | close => exact term
  | ping => exact ⟨rfl, rfl⟩
  | pong => exact ⟨rfl, rfl⟩
  | nothing => exact ⟨rfl, rfl⟩
  | tooBig => exact put_eq s error
  | command => cases fails <;> exact onCommand_eq s rbuf error

/-- **What is taken for a `PONG`.** -/
theorem branch_pong_iff {flags n : Nat} :
    branch flags n = .pong ↔ opcode flags = FRAME_OP_PONG ∨ Mistaken flags := by
  rw [branch, Mistaken]
  by_cases close : opcode flags = FRAME_OP_CLOSE
  · simp [close, FRAME_OP_CLOSE, FRAME_OP_PONG]
  by_cases ping : opcode flags = FRAME_OP_PING
  · simp [ping, FRAME_OP_CLOSE, FRAME_OP_PING, FRAME_OP_PONG]
  by_cases bits : opcode flags &&& FRAME_OP_PONG = 0
  · have other : opcode flags ≠ FRAME_OP_PONG := fun same => absurd (same ▸ bits) (by decide)
    rw [if_neg close, if_neg ping, if_neg (not_not_intro bits)]
    refine iff_of_false ?_ (not_or_intro other fun mistaken => mistaken.1 bits)
    split
    · exact Branch.noConfusion
    split <;> exact Branch.noConfusion
  · rw [if_neg close, if_neg ping, if_pos bits]
    simp [close, ping, bits, em]

/-- **A command that is not taken for a `PONG`** reaches `onCommand`. -/
theorem branch_command {flags : Nat} {rbuf : List Char} (isCommand : IsCommand flags rbuf) (known : ¬ Mistaken flags) :
    branch flags rbuf.length = .command := by
  obtain ⟨kind, some, fits⟩ := isCommand
  have kinds : opcode flags ≠ FRAME_OP_CLOSE ∧ opcode flags ≠ FRAME_OP_PING ∧ opcode flags ≠ FRAME_OP_PONG := by
    obtain text | binary | cont := kind
    · rw [text]; decide
    · rw [binary]; decide
    · rw [cont]; decide
  have bits : opcode flags &&& FRAME_OP_PONG = 0 := by
    by_contra bits
    exact known ⟨bits, kinds⟩
  rw [branch, if_neg kinds.1, if_neg kinds.2.1, if_neg (not_not_intro bits), if_neg (Nat.ne_of_gt some),
    if_neg (Nat.ne_of_lt fits)]

/-- **When a frame is treated as it should be.** -/
theorem right_iff_plain (s : UWebSocket) (e : Event) : Right c s e ↔ Plain s e := by
  cases e with
  | read flags rbuf error fails =>
    obtain ⟨counter, commands⟩ := read_eq (c := c) s flags rbuf error fails
    cases ended : s.cancelled with
    | true => simp [Right, Plain, step, ended]
    | false =>
      simp only [Right, Plain, step, ended, Bool.false_eq_true, if_false, Option.some.injEq, forall_eq', true_implies,
        counter, commands]
      by_cases mistaken : Mistaken flags
      · have pong := branch_pong_iff (n := rbuf.length).mpr (.inr mistaken)
        simp [pong, mistaken, mistaken.2.2.2, eq_comm]
      · simp only [mistaken, false_implies, iff_true]
        refine ⟨fun other => if_neg fun pong => ?_, fun isCommand => if_pos (branch_command isCommand mistaken)⟩
        exact (branch_pong_iff.mp pong).elim other mistaken
  | tick => exact Iff.rfl
  | iosend => exact Iff.rfl
  | ioping => exact Iff.rfl
  | iopong => exact Iff.rfl
  | sensorInfo => exact Iff.rfl
  | sendResponse => exact Iff.rfl

/-- **Silent peers are dropped, and frames taken for what they are.** While no ping is refused, the counter stays
within its bound, at which the session has ended, exactly if the time out is below the period; and the frames of a
run are treated as they should be exactly if none of them that is no `PONG` has an opcode with a bit of it while pings
are unanswered, or as a command. -/
theorem pings_iff (c : Settings) :
    ((∀ s, (machine c).Reachable (fun _ e => e.Deaf ∧ e.Taken) s →
        s.pongCounter ≤ bound c ∧ (s.pongCounter = bound c → s.cancelled = true)) ↔
      c.pongTimeout_sec < period c) ∧
    ∀ labels, (machine c).Meets (Right c) (.opened c) labels ↔ (machine c).Meets Plain (.opened c) labels := by
  refine ⟨⟨fun all => ?_, fun short s reached => ?_⟩, fun labels => ?_⟩
  · by_contra long
    obtain ⟨s, ⟨labels, silent, ran⟩, counter⟩ := exists_counter (Nat.le_of_not_lt long) (bound c + 1)
    have within := all s ⟨_, labels, rfl, Machine.meets_of_forall fun _ => silent, ran⟩
    exact Nat.not_succ_le_self _ (counter ▸ within.1)
  · have counter := (reachable_kept short reached).counter
    have rounds : 0 < (c.pongTimeout_sec + c.ping_sec - 1) / c.ping_sec :=
      Nat.div_pos (by have := c.pongTimeout_pos; omega) c.ping_pos
    have more : 2 < bound c := Nat.lt_add_of_pos_right rounds
    exact ⟨Nat.le_of_lt (Nat.lt_of_le_of_lt counter more), fun same => by omega⟩
  · have same : Right c = Plain := by
      funext s e
      exact propext (right_iff_plain s e)
    rw [same]

/-! ### The default settings -/

/-- **The defaults**, in half seconds. -/
def defaults : Settings where
  ping_sec := 6
  pongTimeout_sec := 10
  send_sec := 1
  maxsend := 5000
  maxsize := 50000
  ping_pos := by decide
  pongTimeout_pos := by decide
  send_pos := by decide
  maxsend_pos := by decide

/-- A time out below the period. -/
def prompt : Settings where
  ping_sec := 2
  pongTimeout_sec := 1
  send_sec := 2
  maxsend := 4
  maxsize := 50000
  ping_pos := by decide
  pongTimeout_pos := by decide
  send_pos := by decide
  maxsend_pos := by decide

/-- **With the defaults a silent peer is pinged for ever**: each ping comes after three seconds, and the look at its
answer only after five. With a time out below the period, pings that are refused are counted beyond the bound. And a
command in a binary frame is taken for a `PONG`. -/
theorem defaults_not_kept :
    (∃ s, (machine defaults).Reachable (fun _ e => e.Deaf) s ∧ bound defaults < s.pongCounter) ∧
      (prompt.pongTimeout_sec < period prompt ∧
        ∃ s, (machine prompt).Reachable (fun _ e => e.Deaf) s ∧ bound prompt < s.pongCounter) ∧
      ¬ (machine defaults).Meets (Right defaults) (.opened defaults) [.read 0x82 "get:1".toList 0 false] := by
  refine ⟨?_, ⟨by decide, ?_⟩, fun meets => ?_⟩
  · obtain ⟨s, ⟨labels, silent, ran⟩, counter⟩ := exists_counter (c := defaults) (by decide) (bound defaults + 1)
    exact ⟨s, ⟨_, labels, rfl, Machine.meets_of_forall fun _ e member => (silent e member).1, ran⟩,
      counter ▸ Nat.lt_succ_self _⟩
  · refine ⟨_, ⟨_, [.iosend takesAll, .tick, .tick, .ioping, .iosend fun _ _ => .refused], rfl,
      Machine.meets_of_forall fun _ => ?_, rfl⟩, by decide⟩
    simp [Event.Deaf]
  · have isCommand : IsCommand 0x82 "get:1".toList := ⟨.inr (.inl rfl), by decide, by decide⟩
    have commands := (meets.1 _ rfl).2 isCommand
    exact absurd commands (by decide)

end UniSet.UWebSocketPing
