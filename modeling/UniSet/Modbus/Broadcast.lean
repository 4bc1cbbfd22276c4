/-
**Requests to the broadcast address.**

A broadcast is for every slave of the line, so none of them may answer it. Each branch of
`processing` compares the address before it sends an error, and none before it sends a reply; the
answer to an unknown function is sent without a comparison. `checkAddr` accepts the broadcast address
of every message, so `recv` never comes to ask for the broadcast mode.

* `Channel.noted` — a channel together with what is sent on it.
* `Quiet` — the handler of the request fails, or its answer is too long or too late.
* `BroadcastArrives` — the first accepted address of the line is the broadcast address, and a
  complete request follows it.
* **`broadcast_silent_iff`** — a broadcast is not answered exactly if it is quiet, and with the
  broadcast mode off `recv` hands it on exactly if it arrives.
-/

import UniSet.Modbus.Wire

namespace UniSet.Modbus

/-! ### What is sent -/

/-- A channel's state, and the messages that were sent. -/
structure Noted (C : Type) where
  state : C
  sent : List Message

/-- **The channel, with a note of every message that is sent on it.** -/
def Channel.noted {C : Type} (ch : Channel C) : Channel (Noted C) where
  getNextData n s :=
    ((ch.getNextData n s.state).1, { s with state := (ch.getNextData n s.state).2 })
  cleanupChannel s := { s with state := ch.cleanupChannel s.state }
  aduLen s := ch.aduLen s.state
  makeAduHeader m s := ch.makeAduHeader m s.state
  sendData m s := ⟨ch.sendData m s.state, s.sent ++ [m]⟩
  handle addr request s :=
    ((ch.handle addr request s.state).1, { s with state := (ch.handle addr request s.state).2 })

section Processing

variable {C : Type} (ch : Channel C) (cfg : Settings) (inTime : Bool)

/-- `send` does not refuse the message. -/
def Fits (r : Message) (c : C) : Prop :=
  inTime = true ∧ r.len (ch.aduLen c) ≤ maxSizeOfMessage ∧
    r.len (ch.makeAduHeader r c) ≤ maxSizeOfMessage

instance (r : Message) (c : C) : Decidable (Fits ch inTime r c) :=
  inferInstanceAs (Decidable (_ ∧ _))

/-- **`processing` sends no reply.** -/
def Silent (m : Message) (c : C) : Prop := (processing ch.noted cfg inTime m ⟨c, []⟩).2.sent = []

/-- **What must hold for silence**: an answer to an unknown function does not fit, and neither does
the reply of a handler that succeeds. -/
def Quiet (m : Message) (c : C) : Prop :=
  match SlaveFunctionCode.ofByte m.func with
  | none => ¬ Fits ch inTime (errorRetMessage m.addr m.func .erUnExpectedPacketType) c
  | some fn => ∀ request, m.decode fn = .ok request →
      (ch.handle m.addr request c).1.1 = .erNoError →
      ¬ Fits ch inTime (ch.handle m.addr request c).1.2 (ch.handle m.addr request c).2

theorem send_noted (r : Message) (s : Noted C) :
    (send ch.noted cfg inTime r s).1 = (send ch cfg inTime r s.state).1 ∧
      (send ch.noted cfg inTime r s).2.state = (send ch cfg inTime r s.state).2 ∧
      (send ch.noted cfg inTime r s).2.sent =
        if Fits ch inTime r s.state then s.sent ++ [r] else s.sent := by
  unfold send
  rw [show ch.noted.aduLen s = ch.aduLen s.state from rfl,
    show ch.noted.makeAduHeader r s = ch.makeAduHeader r s.state from rfl]
  by_cases request : maxSizeOfMessage < r.len (ch.aduLen s.state)
  · have not : ¬ Fits ch inTime r s.state := fun fits => Nat.not_lt.mpr fits.2.1 request
    rw [if_pos request, if_pos request, if_neg not]
    exact ⟨rfl, rfl, rfl⟩
  · by_cases reply : maxSizeOfMessage < r.len (ch.makeAduHeader r s.state)
    · have not : ¬ Fits ch inTime r s.state := fun fits => Nat.not_lt.mpr fits.2.2 reply
      rw [if_neg request, if_neg request, if_pos reply, if_pos reply, if_neg not]
      exact ⟨rfl, rfl, rfl⟩
    · rw [if_neg request, if_neg request, if_neg reply, if_neg reply]
      cases inTime with
      | false =>
        have late : ¬ Fits ch false r s.state := fun fits => Bool.noConfusion fits.1
        rw [if_neg late]
        cases cfg.cleanBeforeSend <;> exact ⟨rfl, rfl, rfl⟩
      | true =>
        have fits : Fits ch true r s.state := ⟨rfl, Nat.not_lt.mp request, Nat.not_lt.mp reply⟩
        rw [if_pos fits]
        cases cfg.cleanBeforeSend <;> exact ⟨rfl, rfl, rfl⟩

/-- The handler's error is answered to a single slave, its reply to all of them. -/
theorem answer_noted (m : Message) (request : Request) (s : Noted C) :
    (answer ch.noted cfg inTime m request s).1 = (answer ch cfg inTime m request s.state).1 ∧
      (answer ch.noted cfg inTime m request s).2.state =
        (answer ch cfg inTime m request s.state).2 ∧
      (m.addr = broadcastAddr → (answer ch.noted cfg inTime m request s).2.sent =
        if (ch.handle m.addr request s.state).1.1 = .erNoError ∧
            Fits ch inTime (ch.handle m.addr request s.state).1.2
              (ch.handle m.addr request s.state).2 then
          s.sent ++ [(ch.handle m.addr request s.state).1.2]
        else s.sent) := by
  unfold answer
  have noted : ch.noted.handle m.addr request s = ((ch.handle m.addr request s.state).1,
    ⟨(ch.handle m.addr request s.state).2, s.sent⟩) := rfl
  rw [noted]
  generalize ch.handle m.addr request s.state = handled
  dsimp only
  by_cases ok : handled.1.1 = .erNoError
  · obtain ⟨code, next, sent⟩ := send_noted ch cfg inTime handled.1.2 ⟨handled.2, s.sent⟩
    rw [if_neg (not_not.mpr ok), if_neg (not_not.mpr ok)]
    refine ⟨code, next, fun _ => ?_⟩
    rw [sent]
    by_cases fits : Fits ch inTime handled.1.2 handled.2
    · rw [if_pos fits, if_pos ⟨ok, fits⟩]
    · rw [if_neg fits, if_neg fun both => fits both.2]
  · have failed : ¬ (handled.1.1 = .erNoError ∧ Fits ch inTime handled.1.2 handled.2) :=
      fun both => ok both.1
    rw [if_pos ok, if_pos ok, if_neg failed]
    by_cases answered : handled.1.1.isReply = true ∧ m.addr ≠ broadcastAddr
    · obtain ⟨code, next, -⟩ :=
        send_noted ch cfg inTime (errorRetMessage m.addr m.func handled.1.1) ⟨handled.2, s.sent⟩
      rw [if_pos answered, if_pos answered]
      exact ⟨code, next, fun broadcast => absurd broadcast answered.2⟩
    · rw [if_neg answered, if_neg answered]
      exact ⟨rfl, rfl, fun _ => rfl⟩

/-- **A broadcast is not answered exactly if it is quiet.** -/
theorem silent_iff_quiet {m : Message} (broadcast : m.addr = broadcastAddr) (c : C) :
    Silent ch cfg inTime m c ↔ Quiet ch inTime m c := by
  have one : ∀ (r : Message) (P : Prop) [Decidable P],
      (if P then ([] : List Message) ++ [r] else []) = [] ↔ ¬ P := by
    intro r P _
    by_cases holds : P
    · rw [if_pos holds]
      exact iff_of_false (List.cons_ne_nil r []) (not_not.mpr holds)
    · rw [if_neg holds]
      exact iff_of_true rfl holds
  unfold Silent Quiet processing
  cases SlaveFunctionCode.ofByte m.func with
  | none =>
    obtain ⟨-, -, sent⟩ :=
      send_noted ch cfg inTime (errorRetMessage m.addr m.func .erUnExpectedPacketType) ⟨c, []⟩
    dsimp only
    rw [sent]
    exact one _ _
  | some fn =>
    dsimp only
    cases m.decode fn with
    | error err => exact iff_of_true rfl fun request decoded => nomatch decoded
    | ok request =>
      obtain ⟨-, -, sent⟩ := answer_noted ch cfg inTime m request ⟨c, []⟩
      dsimp only
      rw [sent broadcast, one]
      constructor
      · rintro noReply request' decoded ok fits
        cases decoded
        exact noReply ⟨ok, fits⟩
      · rintro quiet ⟨ok, fits⟩
        exact quiet request rfl ok fits

end Processing

/-! ### What is handed on -/

/-- **`recv` hands a broadcast to `processing`.** -/
def HandsOn {C : Type} (ch : Channel C) (cfg : Settings) (tmAbort : Nat) (c : C) : Prop :=
  (recv ch cfg tmAbort c).1.1 = .erNoError ∧ (recv ch cfg tmAbort c).1.2.addr = broadcastAddr

/-- **A complete broadcast is the first request of the line.** -/
def BroadcastArrives (cfg : Settings) (tmAbort : Nat) (bytes : List Byte) : Prop :=
  ∃ func data fn, skipTo cfg.vaddr tmAbort bytes = some (broadcastAddr, func :: data) ∧
    SlaveFunctionCode.ofByte func = some fn ∧ Arrives cfg fn broadcastAddr func data

section Recv

variable {C : Type} {ch : Channel C} {stream : C → List Byte} {I : C → Prop} (cfg : Settings)

/-- The address of a message is the one it was received for. -/
theorem recvPdu_addr (addr : Byte) (c : C) : (recvPdu ch cfg addr c).1.2.addr = addr := by
  have handler : ∀ m c ex, (pduHandler ch m c ex).1.2 = m := by
    intro m c ex
    cases ex <;> rfl
  unfold recvPdu
  split
  · rw [handler]
  · rfl
  · split
    · rfl
    · exact (recvData_func cfg ch _ _ _).1

theorem handsOn_iff (delivers : Delivers ch.getNextData stream I) (tmAbort : Nat) {c : C}
    (inv : I c) : HandsOn ch cfg tmAbort c ↔ BroadcastArrives cfg tmAbort (stream c) := by
  unfold HandsOn BroadcastArrives
  rcases recv_spec cfg delivers.streams tmAbort inv with
    ⟨addr, rest, c', skipped, received, left, inv'⟩ | ⟨none, refused, -⟩
  · rw [received, recvPdu_addr, recvPdu_accepts_iff cfg delivers inv', left, skipped]
    constructor
    · rintro ⟨⟨func, data, fn, bytes, known, arrives⟩, broadcast⟩
      rw [broadcast] at arrives
      exact ⟨func, data, fn, by rw [broadcast, bytes], known, arrives⟩
    · rintro ⟨func, data, fn, found, known, arrives⟩
      cases found
      exact ⟨⟨func, data, fn, rfl, known, arrives⟩, rfl⟩
  · refine iff_of_false (fun handed => refused handed.1) ?_
    rintro ⟨func, data, fn, found, -⟩
    rw [none] at found
    cases found

/-- **The silence on a broadcast, exactly.** The broadcast mode decides nothing. -/
theorem broadcast_silent_iff (delivers : Delivers ch.getNextData stream I) :
    (∀ inTime m c, m.addr = broadcastAddr → (Silent ch cfg inTime m c ↔ Quiet ch inTime m c)) ∧
    (cfg.onBroadcast = false → broadcastAddr ∉ cfg.vaddr → ∀ tmAbort c, I c →
      (¬ HandsOn ch cfg tmAbort c ↔ ¬ BroadcastArrives cfg tmAbort (stream c))) :=
  ⟨fun inTime _ c broadcast => silent_iff_quiet ch cfg inTime broadcast c,
    fun _ _ tmAbort _ inv => not_congr (handsOn_iff cfg delivers tmAbort inv)⟩

end Recv

/-! ### A write to all slaves -/

namespace RTUSlave

/-- A slave that writes every register and answers every other request with an error. -/
def writesRegisters (addr : Byte) : Request → MbErrCode × Message
  | .writeSingleOutput start data =>
    (.erNoError, .withCRC addr 0x06 (wordBytes start ++ wordBytes data))
  | _ => (.erOperationFailed, ⟨addr, 0, []⟩)

/-- The broadcast of a value for register 1, as it comes over the line. -/
def writeToAll : List Byte := 0x00 :: 0x06 :: (Message.withCRC 0x00 0x06 [0, 1, 0, 7]).data

/-- A slave with the address 1 alone, out of the broadcast mode. -/
def alone : Settings := { vaddr := [1] }

/-- Of two broadcasts the one that the handler refuses is not answered, and a line that brings only
the address hands nothing on. -/
theorem broadcast_silent_refused :
    Silent (channel writesRegisters) alone true ⟨0x00, 0x05, [0, 1, 0, 0]⟩ ⟨[], [], []⟩ ∧
      ¬ HandsOn (channel writesRegisters) alone 10 ⟨[0x00], [], []⟩ := by
  have line : Delivers (channel writesRegisters).getNextData Port.input fun _ => True := delivers
  obtain ⟨silent, handed⟩ := broadcast_silent_iff alone line
  refine ⟨(silent true _ _ rfl).mpr ?_, (handed rfl (by decide) 10 _ trivial).mpr ?_⟩
  · rintro request decoded ok
    cases decoded
    cases ok
  · rintro ⟨func, data, fn, found, -⟩
    cases found

/-- **A write to all slaves is received and answered** by a slave that is out of the broadcast
mode. -/
theorem broadcast_is_answered :
    ∃ m p, recv (channel writesRegisters) alone 10 ⟨writeToAll, [], []⟩ = ((.erNoError, m), p) ∧
      m.addr = broadcastAddr ∧ ¬ Silent (channel writesRegisters) alone true m p ∧
      (processing (channel writesRegisters) alone true m p).2.sent =
        [.withCRC 0x00 0x06 [0, 1, 0, 7]] := by
  refine ⟨.withCRC 0x00 0x06 [0, 1, 0, 7], ⟨[], [], []⟩, by decide +kernel, rfl, ?_,
    by decide +kernel⟩
  unfold Silent
  decide +kernel

end RTUSlave

end UniSet.Modbus
