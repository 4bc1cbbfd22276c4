/-
**`ModbusTCPServer`: the sessions of a server and its listening socket.**

The event loop accepts connections and hears of sessions that finish; other threads change the limit
and ask for the list of sessions.

* `TCPServer` — the list of sessions, in which a session that was reset leaves an empty entry, the
  counter, the limit and the listening socket.
* `ioAccept`, `sessionFinished`, `setMaxSessions`, `getSessions`, `onSocketTimeout` — as in the source.
  A connection at the limit closes the listening socket, not the connection.
* `Booked` — what is expected of a server: the counter is right, no entry is empty, the limit is kept
  and a connection below the limit is accepted.
* `Within` — no connection comes at the limit, and no limit is set below the number of sessions.
* **`sessions_booked`** — in every run within the limits every step can be taken and the server is
  booked.
-/

import Mathlib.Algebra.Group.Nat.Defs
import UniSet.Lib.Machine

namespace UniSet.Modbus

/-- **`ModbusTCPServer`**, while its event loop is active. -/
structure TCPServer where
  /-- A session is named by the connection it serves; `none` is an empty pointer. -/
  slist : List (Option Nat)
  sessCount : Nat
  maxSessions : Nat
  connCount : Nat
  /-- `sock` is open. -/
  listening : Bool
deriving DecidableEq, Repr

namespace TCPServer

/-- A server after `evprepare`. -/
def prepared : TCPServer := ⟨[], 0, 10, 0, true⟩

/-- How a connection is taken. -/
inductive Accept
  /-- `acceptConnection` throws. -/
  | acceptThrows
  /-- The constructor of the session throws: its client is gone. -/
  | sessionThrows
  | accepted
deriving DecidableEq, Repr

/-- **`ModbusTCPServer::ioAccept`.** A client of a closed socket is refused by its system. -/
def ioAccept (accept : Accept) (s : TCPServer) : TCPServer :=
  if s.listening = false then s
  else if s.maxSessions ≤ s.sessCount then { s with listening := false }
  else
    match accept with
    | .acceptThrows => s
    | .sessionThrows => { s with connCount := s.connCount + 1 }
    | .accepted =>
      { s with
        connCount := s.connCount + 1
        slist := s.slist ++ [some (s.connCount + 1)]
        sessCount := (s.sessCount + 1) % 2 ^ 64 }

/-- **`ModbusTCPServer::sessionFinished`.** The counter is a `size_t`. -/
def sessionFinished (session : Nat) (s : TCPServer) : TCPServer :=
  if some session ∈ s.slist then
    { s with slist := s.slist.erase (some session), sessCount := (s.sessCount + (2 ^ 64 - 1)) % 2 ^ 64 }
  else s

/-- `(*i).reset()` for the last `k` entries. -/
def resetLast (k : Nat) (slist : List (Option Nat)) : List (Option Nat) :=
  slist.take (slist.length - k) ++ (slist.drop (slist.length - k)).map fun _ => none

/-- **`ModbusTCPServer::setMaxSessions`**; the number of entries to reset is an `int`. -/
def setMaxSessions (num : UInt64) (s : TCPServer) : TCPServer :=
  if num.toNat < s.sessCount then
    let k := Int.bmod (s.sessCount - num.toNat) (2 ^ 32)
    { s with slist := resetLast k.toNat s.slist, sessCount := num.toNat, maxSessions := num.toNat }
  else { s with maxSessions := num.toNat }

/-- **`ModbusTCPServer::getSessions`**: every entry is dereferenced, so an empty one is the end. -/
def getSessions (s : TCPServer) : Option (List Nat) := s.slist.mapM id

/-- **`ModbusTCPServer::onSocketTimeout`.** If the new socket cannot be created, the old one stays. -/
def onSocketTimeout (created : Bool) (s : TCPServer) : TCPServer :=
  if s.slist = [] ∧ created = true then { s with listening := true } else s

inductive Event
  /-- A client connects. -/
  | connect (accept : Accept)
  /-- A session terminates. -/
  | finish (session : Nat)
  | setMaxSessions (num : UInt64)
  | getSessions
  | onSocketTimeout (created : Bool)
deriving DecidableEq, Repr

def step (s : TCPServer) : Event → Option TCPServer
  | .connect accept => some (s.ioAccept accept)
  | .finish session => some (s.sessionFinished session)
  | .setMaxSessions num => some (s.setMaxSessions num)
  | .getSessions => s.getSessions.map fun _ => s
  | .onSocketTimeout created => some (s.onSocketTimeout created)

/-- **An active server.** -/
def server : Lib.Machine TCPServer Event where
  start s := s = prepared
  step := step

/-- **The server is booked**: the counter counts the sessions, no entry is empty, the limit is kept,
the socket is open, and a connection below the limit becomes a session. -/
structure Booked (s : TCPServer) : Prop where
  counted : s.sessCount = s.slist.countP Option.isSome
  live : none ∉ s.slist
  limited : s.sessCount ≤ s.maxSessions
  listening : s.listening = true
  accepts : s.sessCount < s.maxSessions →
    ∃ session, (s.ioAccept .accepted).slist = s.slist ++ [some session]

/-- **Within the limits**: no connection comes while the server is full, and the limit is not set below
the number of sessions. -/
def Within (s : TCPServer) : Event → Prop
  | .connect _ => s.sessCount < s.maxSessions
  | .setMaxSessions num => s.sessCount ≤ num.toNat
  | _ => True

instance (s : TCPServer) : (event : Event) → Decidable (Within s event)
  | .connect _ => inferInstanceAs (Decidable (s.sessCount < s.maxSessions))
  | .finish _ => inferInstanceAs (Decidable True)
  | .setMaxSessions num => inferInstanceAs (Decidable (s.sessCount ≤ num.toNat))
  | .getSessions => inferInstanceAs (Decidable True)
  | .onSocketTimeout _ => inferInstanceAs (Decidable True)

/-! ### One step -/

/-- What the steps keep: the counter is the length of a list without empty entries. -/
structure Kept (s : TCPServer) : Prop where
  counted : s.sessCount = s.slist.length
  live : none ∉ s.slist
  limited : s.sessCount ≤ s.maxSessions
  size : s.maxSessions < 2 ^ 64
  listening : s.listening = true

namespace Kept

variable {s : TCPServer}

theorem ioAccept (kept : s.Kept) (free : s.sessCount < s.maxSessions) (accept : Accept) :
    (s.ioAccept accept).Kept := by
  have size := kept.size
  unfold TCPServer.ioAccept
  rw [if_neg (by rw [kept.listening]; decide), if_neg (Nat.not_le.mpr free)]
  cases accept with
  | acceptThrows => exact kept
  | sessionThrows => exact ⟨kept.counted, kept.live, kept.limited, kept.size, kept.listening⟩
  | accepted =>
    have next : (s.sessCount + 1) % 2 ^ 64 = s.sessCount + 1 := Nat.mod_eq_of_lt (by omega)
    refine ⟨?_, ?_, ?_, kept.size, kept.listening⟩
    · dsimp only
      rw [next, kept.counted, List.length_append, List.length_singleton]
    · dsimp only
      rw [List.mem_append, List.mem_singleton]
      rintro (before | new)
      · exact kept.live before
      · cases new
    · dsimp only
      rw [next]
      exact free

theorem sessionFinished (kept : s.Kept) (session : Nat) : (s.sessionFinished session).Kept := by
  by_cases found : some session ∈ s.slist
  · have size := kept.size
    have limited := kept.limited
    have pos := List.length_pos_of_mem found
    rw [← kept.counted] at pos
    have before : (s.sessCount + (2 ^ 64 - 1)) % 2 ^ 64 = s.sessCount - 1 := by omega
    rw [TCPServer.sessionFinished, if_pos found]
    refine ⟨?_, fun empty => kept.live (List.mem_of_mem_erase empty), ?_, kept.size, kept.listening⟩
    · dsimp only
      rw [before, kept.counted, List.length_erase_of_mem found]
    · dsimp only
      omega
  · rw [TCPServer.sessionFinished, if_neg found]
    exact kept

theorem setMaxSessions (kept : s.Kept) {num : UInt64} (enough : s.sessCount ≤ num.toNat) :
    (s.setMaxSessions num).Kept := by
  rw [TCPServer.setMaxSessions, if_neg (Nat.not_lt.mpr enough)]
  exact ⟨kept.counted, kept.live, enough, num.toNat_lt, kept.listening⟩

theorem getSessions (kept : s.Kept) : ∃ sessions, s.getSessions = some sessions := by
  have live := kept.live
  unfold TCPServer.getSessions
  generalize s.slist = slist at live
  induction slist with
  | nil => exact ⟨[], rfl⟩
  | cons entry rest ih =>
    obtain ⟨sessions, listed⟩ := ih fun empty => live (List.mem_cons_of_mem _ empty)
    cases entry with
    | none => exact absurd List.mem_cons_self live
    | some session => exact ⟨session :: sessions, by rw [List.mapM_cons, listed]; rfl⟩

theorem onSocketTimeout (kept : s.Kept) (created : Bool) : (s.onSocketTimeout created).Kept := by
  unfold TCPServer.onSocketTimeout
  split
  · exact ⟨kept.counted, kept.live, kept.limited, kept.size, rfl⟩
  · exact kept

/-- **One step within the limits** can be taken. -/
theorem step (kept : s.Kept) {event : Event} (within : Within s event) :
    ∃ t, TCPServer.step s event = some t ∧ t.Kept := by
  cases event with
  | connect accept => exact ⟨_, rfl, kept.ioAccept within accept⟩
  | finish session => exact ⟨_, rfl, kept.sessionFinished session⟩
  | setMaxSessions num => exact ⟨_, rfl, kept.setMaxSessions within⟩
  | getSessions =>
    obtain ⟨sessions, listed⟩ := kept.getSessions
    exact ⟨s, by rw [TCPServer.step, listed]; rfl, kept⟩
  | onSocketTimeout created => exact ⟨_, rfl, kept.onSocketTimeout created⟩

theorem booked (kept : s.Kept) : s.Booked := by
  refine ⟨?_, kept.live, kept.limited, kept.listening, ?_⟩
  · rw [kept.counted]
    refine (List.countP_eq_length.mpr fun entry listed => ?_).symm
    cases entry with
    | none => exact absurd listed kept.live
    | some session => rfl
  · intro free
    refine ⟨s.connCount + 1, ?_⟩
    rw [TCPServer.ioAccept, if_neg (by rw [kept.listening]; decide), if_neg (Nat.not_le.mpr free)]

end Kept

/-! ### Whole runs -/

/-- **Within the limits the server is booked**, in every state of every run, and every step can be
taken. -/
theorem sessions_booked (events : List Event) (within : server.Meets Within prepared events) :
    ∃ s, server.run prepared events = some s ∧ s.Booked := by
  have initially : prepared.Kept := ⟨rfl, List.not_mem_nil, by decide, by decide, rfl⟩
  obtain ⟨s, ran, kept⟩ := Lib.Machine.exists_run (P := fun _ => Kept)
    (fun _ _ _ kept within => kept.step within) [] initially within
  exact ⟨s, ran, kept.booked⟩

/-- Two sessions, of which the first finishes, and a limit that is lowered to the one that is left. -/
theorem sessions_booked_two :
    let events := [.connect .accepted, .connect .accepted, .getSessions, .finish 1,
      .setMaxSessions 1, .onSocketTimeout true]
    server.Meets Within prepared events ∧
      ∃ s, server.run prepared events = some s ∧ s.Booked := by
  intro events
  have within : server.Meets Within prepared events := by decide +kernel
  exact ⟨within, sessions_booked events within⟩

/-- **A connection at the limit closes the socket for good, and a lower limit leaves empty entries.**
After the first the server has no session and accepts none; after the second the list of sessions
cannot be asked for. -/
theorem limit_breaks_booking :
    (∃ s, server.run prepared
        [.setMaxSessions 1, .connect .accepted, .connect .accepted, .finish 1] = some s ∧
        s = ⟨[], 0, 1, 1, false⟩ ∧ ¬ s.Booked) ∧
      ∃ s, server.run prepared [.connect .accepted, .connect .accepted, .setMaxSessions 1] = some s ∧
        s = ⟨[some 1, none], 1, 1, 2, true⟩ ∧ ¬ s.Booked ∧ server.step s .getSessions = none := by
  refine ⟨⟨_, by decide +kernel, rfl, fun booked => ?_⟩,
    ⟨_, by decide +kernel, rfl, fun booked => ?_, by decide⟩⟩
  · exact absurd booked.listening (by decide)
  · exact absurd booked.live (by decide)

end TCPServer

end UniSet.Modbus
