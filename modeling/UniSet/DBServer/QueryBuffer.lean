/-
**The query buffers of the database servers.**

Without a connection a server keeps its queries in `qbuf`, of `qbufSize` queries at most; with one it executes what
it has kept before the next query. The three servers differ in `flushBuffer` alone.

* `Server` — the buffer and the connection, with what has been executed and lost.
* `DBServer_SQLite`, `DBServer_MySQL`, `DBServer_PostgreSQL` — the functions of the servers.
* `machine` — a server with the queries it gets and the changes of its connection.
* `Kept` — the buffer has the queries that its policy is to keep, the reported losses are the real ones, and the
  queries are executed in order, each once.
* **`queries_kept_iff`** — in a run the queries are always kept exactly if none of them finds the buffer full while
  `lastRemove` is on.
-/

import Mathlib.Data.List.DropRight
import UniSet.DBServer.PostgreSQL
import UniSet.Lib.Machine

namespace UniSet.QueryBuffer

open Lib (Machine)

/-- A query, with its number. -/
abbrev Query := DBServerPostgreSQL.Stamped String

/-- The settings of the buffer. -/
structure Setup where
  qbufSize : Nat
  lastRemove : Bool
  size_pos : 1 ≤ qbufSize

/-- An overflow: the query that is reported as lost and the one that is removed. -/
structure Loss where
  reported : Option Query
  removed : Option Query
deriving DecidableEq

/-- **A database server**, with the queries it has executed and lost, and those it has got since its buffer was
emptied. -/
structure Server where
  connect_ok : Bool
  qbuf : List Query
  base : List Query
  lost : List Loss
  arrived : Nat
  pending : List Query
deriving DecidableEq

/-- A server before its first query. -/
def Server.new : Server := ⟨false, [], [], [], 0, []⟩

namespace Server

variable (h : Setup) (s : Server)

/-- The loop of `flushBuffer`. -/
def flushed : Server := { s with qbuf := [], base := s.base ++ s.qbuf, pending := [] }

/-- The part of `writeToBase` without a connection. The victim is chosen at one end, and removed at the front. -/
def keep (query : Query) : Server :=
  let qbuf := s.qbuf ++ [query]
  let s := { s with arrived := s.arrived + 1, pending := s.pending ++ [query] }
  if qbuf.length > h.qbufSize then
    let qlost := if h.lastRemove then qbuf.getLast? else qbuf.head?
    { s with qbuf := qbuf.tail, lost := s.lost ++ [⟨qlost, qbuf.head?⟩] }
  else { s with qbuf := qbuf }

/-- The part of `writeToBase` behind `flushBuffer`. -/
def execute (query : Query) : Server := { s with arrived := s.arrived + 1, base := s.base ++ [query] }

/-- **`writeToBase`**, with the `flushBuffer` of the server. -/
def writeToBase (flushBuffer : Server → Server) (text : String) : Server :=
  if !s.connect_ok then s.keep h ⟨s.arrived, text⟩ else (flushBuffer s).execute ⟨s.arrived, text⟩

/-- **`initDBServer`**; `connected` is the result of the connection. -/
def initDBServer (flushBuffer : Server → Server) (connected : Bool) : Server :=
  if s.connect_ok then s
  else if !connected then s
  else flushBuffer { s with connect_ok := true }

/-- **The timer `PingTimer`**; `ping` is the result of the check. -/
def pingTimer (ping : Bool) : Server := if !ping then { s with connect_ok := false } else { s with connect_ok := true }

/-- **The timer `ReconnectTimer`.** -/
def reconnectTimer (flushBuffer : Server → Server) (isConnection ping connected : Bool) : Server :=
  if isConnection then
    if ping then { s with connect_ok := true } else { s with connect_ok := false }
  else s.initDBServer flushBuffer connected

end Server

/-! ### The servers -/

/-- `DBServer_SQLite::flushBuffer`: nothing without a connection. -/
def DBServer_SQLite.flushBuffer (s : Server) : Server := if !s.connect_ok then s else s.flushed

/-- `DBServer_SQLite::writeToBase`. -/
def DBServer_SQLite.writeToBase (h : Setup) (s : Server) (text : String) : Server :=
  s.writeToBase h DBServer_SQLite.flushBuffer text

/-- `DBServer_MySQL::flushBuffer`. -/
def DBServer_MySQL.flushBuffer (s : Server) : Server := s.flushed

/-- `DBServer_MySQL::writeToBase`. -/
def DBServer_MySQL.writeToBase (h : Setup) (s : Server) (text : String) : Server :=
  s.writeToBase h DBServer_MySQL.flushBuffer text

/-- `DBServer_PostgreSQL::flushBuffer`. -/
def DBServer_PostgreSQL.flushBuffer (s : Server) : Server := s.flushed

/-- `DBServer_PostgreSQL::writeToBase`. -/
def DBServer_PostgreSQL.writeToBase (h : Setup) (s : Server) (text : String) : Server :=
  s.writeToBase h DBServer_PostgreSQL.flushBuffer text

/-- The three servers. -/
inductive Kind where
  | SQLite
  | MySQL
  | PostgreSQL
deriving DecidableEq

def Kind.flushBuffer : Kind → Server → Server
  | .SQLite => DBServer_SQLite.flushBuffer
  | .MySQL => DBServer_MySQL.flushBuffer
  | .PostgreSQL => DBServer_PostgreSQL.flushBuffer

def Kind.writeToBase : Kind → Setup → Server → String → Server
  | .SQLite => DBServer_SQLite.writeToBase
  | .MySQL => DBServer_MySQL.writeToBase
  | .PostgreSQL => DBServer_PostgreSQL.writeToBase

/-- What happens to a server, with the results of its calls to the data base. -/
inductive Event where
  | writeToBase (text : String)
  | pingTimer (ping : Bool)
  | reconnectTimer (isConnection ping connected : Bool)
  | initDBServer (connected : Bool)

/-- **A server as a machine.** -/
def machine (kind : Kind) (h : Setup) : Machine Server Event where
  start s := s = Server.new
  step s
    | .writeToBase text => some (kind.writeToBase h s text)
    | .pingTimer ping => some (s.pingTimer ping)
    | .reconnectTimer isConnection ping connected =>
      some (s.reconnectTimer kind.flushBuffer isConnection ping connected)
    | .initDBServer connected => some (s.initDBServer kind.flushBuffer connected)

/-! ### What is kept -/

/-- **What the buffer is to have**: the newest queries since it was emptied, or the oldest ones. -/
def policy (h : Setup) (pending : List Query) : List Query :=
  if h.lastRemove then pending.take h.qbufSize else pending.rtake h.qbufSize

/-- **The queries are kept.** -/
structure Kept (h : Setup) (s : Server) : Prop where
  buffer : s.qbuf = policy h s.pending
  reported : ∀ l ∈ s.lost, l.reported = l.removed
  /-- What is executed, and what waits, is in the order of the queries, and each of them once. -/
  inOrder : (s.base ++ s.qbuf).Pairwise fun a b => a.n < b.n
  /-- No query is missing that is not reported. -/
  complete : ∀ n < s.arrived, (∃ q ∈ s.base ++ s.qbuf, q.n = n) ∨ ∃ l ∈ s.lost, ∃ q ∈ l.removed, q.n = n

/-- **The condition**: no query finds the buffer full while `lastRemove` is on. -/
def Fits (h : Setup) (s : Server) : Event → Prop
  | .writeToBase _ => s.connect_ok = false → h.lastRemove = true → s.qbuf.length < h.qbufSize
  | _ => True

instance (h : Setup) (s : Server) : ∀ e, Decidable (Fits h s e)
  | .writeToBase _ => inferInstanceAs (Decidable (_ → _ → _))
  | .pingTimer _ => inferInstanceAs (Decidable True)
  | .reconnectTimer _ _ _ => inferInstanceAs (Decidable True)
  | .initDBServer _ => inferInstanceAs (Decidable True)

section Invariant

variable {h : Setup} {s t : Server} {kind : Kind}

/-- **What a run keeps**: the queries, and with `lastRemove` none has been removed. -/
structure Inv (h : Setup) (s : Server) : Prop extends Kept h s where
  older : ∀ q ∈ s.base ++ s.pending, q.n < s.arrived
  few : h.lastRemove = true → s.pending.length ≤ h.qbufSize

theorem flushBuffer_eq (connected : s.connect_ok = true) : kind.flushBuffer s = s.flushed := by
  cases kind with
  | SQLite =>
    show DBServer_SQLite.flushBuffer s = _
    rw [DBServer_SQLite.flushBuffer, connected]
    rfl
  | MySQL => rfl
  | PostgreSQL => rfl

theorem writeToBase_eq (text : String) : kind.writeToBase h s text = s.writeToBase h kind.flushBuffer text := by
  cases kind <;> rfl

/-- A buffer that is large enough has all of them. -/
theorem policy_all {pending : List Query} (few : pending.length ≤ h.qbufSize) : policy h pending = pending := by
  rw [policy, List.take_of_length_le few, List.rtake, Nat.sub_eq_zero_of_le few, List.drop_zero, ite_self]

theorem mem_of_policy {pending : List Query} {q : Query} (member : q ∈ policy h pending) : q ∈ pending := by
  rw [policy] at member
  split at member
  · exact List.mem_of_mem_take member
  · exact List.mem_of_mem_drop member

theorem Inv.qbuf_older (inv : Inv h s) : ∀ q ∈ s.base ++ s.qbuf, q.n < s.arrived := by
  intro q member
  rcases List.mem_append.mp member with done | waits
  · exact inv.older q (List.mem_append_left _ done)
  · rw [inv.buffer] at waits
    exact inv.older q (List.mem_append_right _ (mem_of_policy waits))

theorem inv_new : Inv h Server.new where
  buffer := (policy_all (Nat.zero_le _)).symm
  reported _ member := absurd member List.not_mem_nil
  inOrder := List.Pairwise.nil
  complete _ less := absurd less (Nat.not_lt_zero _)
  older _ member := absurd member List.not_mem_nil
  few _ := Nat.zero_le _

theorem Inv.connection (inv : Inv h s) (connect_ok : Bool) : Inv h { s with connect_ok := connect_ok } :=
  ⟨⟨inv.buffer, inv.reported, inv.inOrder, inv.complete⟩, inv.older, inv.few⟩

/-- **A flush executes what waits.** -/
theorem Inv.flushed (inv : Inv h s) : Inv h s.flushed where
  buffer := (policy_all (Nat.zero_le _)).symm
  reported := inv.reported
  inOrder := by
    show (s.base ++ s.qbuf ++ []).Pairwise _
    rw [List.append_nil]
    exact inv.inOrder
  complete n less := by
    show (∃ q ∈ s.base ++ s.qbuf ++ [], q.n = n) ∨ _
    rw [List.append_nil]
    exact inv.complete n less
  older q member := by
    have there : q ∈ s.base ++ s.qbuf := by
      rw [← List.append_nil (s.base ++ s.qbuf)]
      exact member
    exact inv.qbuf_older q there
  few _ := Nat.zero_le _

/-- A newer query behind those that are in order. -/
theorem pairwise_concat {queries : List Query} {q : Query} (inOrder : queries.Pairwise fun a b => a.n < b.n)
    (older : ∀ a ∈ queries, a.n < q.n) : (queries ++ [q]).Pairwise fun a b => a.n < b.n :=
  List.pairwise_append.mpr ⟨inOrder, List.pairwise_singleton _ _, fun a member _ single =>
    List.mem_singleton.mp single ▸ older a member⟩

/-- **With a connection the query is executed behind what has waited.** -/
theorem Inv.execute (inv : Inv h s) (text : String) : Inv h (s.flushed.execute ⟨s.arrived, text⟩) where
  buffer := (policy_all (Nat.zero_le _)).symm
  reported := inv.reported
  inOrder := by
    show (s.base ++ s.qbuf ++ [(⟨s.arrived, text⟩ : Query)] ++ []).Pairwise _
    rw [List.append_nil]
    exact pairwise_concat inv.inOrder inv.qbuf_older
  complete n less := by
    show (∃ q ∈ s.base ++ s.qbuf ++ [(⟨s.arrived, text⟩ : Query)] ++ [], q.n = n) ∨ _
    rw [List.append_nil]
    rcases Nat.lt_succ_iff_lt_or_eq.mp less with before | rfl
    · refine (inv.complete n before).imp_left ?_
      rintro ⟨q, member, same⟩
      exact ⟨q, List.mem_append_left _ member, same⟩
    · exact .inl ⟨_, List.mem_append_right _ List.mem_cons_self, rfl⟩
  older q member := by
    have there : q ∈ s.base ++ s.qbuf ++ [⟨s.arrived, text⟩] := by
      rw [← List.append_nil (s.base ++ s.qbuf ++ _)]
      exact member
    show q.n < s.arrived + 1
    rcases List.mem_append.mp there with before | here
    · exact Nat.lt_succ_of_lt (inv.qbuf_older q before)
    · rw [List.mem_singleton.mp here]
      exact Nat.lt_succ_self _
  few _ := Nat.zero_le _

theorem keep_of_room {query : Query} (room : s.qbuf.length < h.qbufSize) : s.keep h query =
    { s with qbuf := s.qbuf ++ [query], arrived := s.arrived + 1, pending := s.pending ++ [query] } := by
  rw [Server.keep]
  refine if_neg ?_
  rw [List.length_append, List.length_singleton]
  omega

theorem keep_of_full {query : Query} (full : h.qbufSize ≤ s.qbuf.length) : s.keep h query =
    { s with
      qbuf := (s.qbuf ++ [query]).tail
      lost := s.lost ++ [⟨if h.lastRemove then (s.qbuf ++ [query]).getLast? else (s.qbuf ++ [query]).head?,
        (s.qbuf ++ [query]).head?⟩]
      arrived := s.arrived + 1
      pending := s.pending ++ [query] } := by
  rw [Server.keep]
  refine if_pos ?_
  rw [List.length_append, List.length_singleton]
  omega

theorem policy_length (pending : List Query) : (policy h pending).length = min h.qbufSize pending.length := by
  rw [policy]
  split
  · rw [List.length_take]
  · rw [List.rtake, List.length_drop]
    omega

/-- The new query is newer than what is executed and what waits. -/
theorem Inv.inOrder_concat (inv : Inv h s) (text : String) :
    (s.base ++ (s.qbuf ++ [(⟨s.arrived, text⟩ : Query)])).Pairwise fun a b => a.n < b.n := by
  rw [← List.append_assoc]
  exact pairwise_concat inv.inOrder inv.qbuf_older

theorem Inv.older_concat (inv : Inv h s) (text : String) :
    ∀ q ∈ s.base ++ (s.pending ++ [(⟨s.arrived, text⟩ : Query)]), q.n < s.arrived + 1 := by
  intro q member
  rw [← List.append_assoc] at member
  rcases List.mem_append.mp member with before | here
  · exact Nat.lt_succ_of_lt (inv.older q before)
  · rw [List.mem_singleton.mp here]
    exact Nat.lt_succ_self _

/-- **With room in the buffer the query waits.** -/
theorem Inv.keep_room (inv : Inv h s) (room : s.qbuf.length < h.qbufSize) (text : String) :
    Inv h (s.keep h ⟨s.arrived, text⟩) := by
  have short : s.pending.length < h.qbufSize := by
    rw [inv.buffer, policy_length] at room
    omega
  have all : s.qbuf = s.pending := inv.buffer.trans (policy_all (Nat.le_of_lt short))
  have fits : (s.pending ++ [(⟨s.arrived, text⟩ : Query)]).length ≤ h.qbufSize := by
    rw [List.length_append, List.length_singleton]
    omega
  rw [keep_of_room room]
  refine ⟨⟨?_, inv.reported, inv.inOrder_concat text, fun n less => ?_⟩, inv.older_concat text, fun _ => fits⟩
  · show s.qbuf ++ _ = policy h (s.pending ++ _)
    rw [policy_all fits, all]
  · show (∃ q ∈ s.base ++ (s.qbuf ++ _), q.n = n) ∨ _
    rw [← List.append_assoc]
    rcases Nat.lt_succ_iff_lt_or_eq.mp less with before | rfl
    · refine (inv.complete n before).imp_left ?_
      rintro ⟨q, member, same⟩
      exact ⟨q, List.mem_append_left _ member, same⟩
    · exact .inl ⟨_, List.mem_append_right _ List.mem_cons_self, rfl⟩

/-- **Without `lastRemove` a full buffer loses its oldest query**, and that one is reported. -/
theorem Inv.keep_full (inv : Inv h s) (newest : h.lastRemove = false) (full : h.qbufSize ≤ s.qbuf.length)
    (text : String) : Inv h (s.keep h ⟨s.arrived, text⟩) := by
  have filled : h.qbufSize ≤ s.pending.length := by
    rw [inv.buffer, policy_length] at full
    omega
  have buffer : s.qbuf = s.pending.rtake h.qbufSize := by
    rw [inv.buffer, policy, newest]
    rfl
  obtain ⟨oldest, rest, split⟩ : ∃ oldest rest, s.qbuf = oldest :: rest :=
    List.exists_cons_of_length_pos (by have := h.size_pos; omega)
  have dropped : (s.qbuf ++ [(⟨s.arrived, text⟩ : Query)]).tail = rest ++ [⟨s.arrived, text⟩] := by rw [split]; rfl
  have first : (s.qbuf ++ [(⟨s.arrived, text⟩ : Query)]).head? = some oldest := by rw [split]; rfl
  rw [keep_of_full full, newest, dropped, first]
  refine ⟨⟨?_, fun l member => ?_, ?_, fun n less => ?_⟩, inv.older_concat text, fun on => ?_⟩
  · show rest ++ [(⟨s.arrived, text⟩ : Query)] = policy h (s.pending ++ [⟨s.arrived, text⟩])
    have tail : rest = s.pending.drop (s.pending.length - h.qbufSize + 1) := by
      rw [← List.tail_drop]
      show rest = (s.pending.rtake h.qbufSize).tail
      rw [← buffer, split]
      rfl
    have place : s.pending.length + 1 - h.qbufSize = s.pending.length - h.qbufSize + 1 := by omega
    rw [policy, newest, if_neg Bool.false_ne_true, List.rtake, List.length_append, List.length_singleton, place,
      List.drop_append_of_le_length (by have := h.size_pos; omega), tail]
  · rcases List.mem_append.mp member with before | here
    · exact inv.reported l before
    · rw [List.mem_singleton.mp here]
      rfl
  · have inOrder := inv.inOrder_concat text
    rw [split, List.cons_append] at inOrder
    exact inOrder.sublist ((List.sublist_cons_self _ _).append_left _)
  · show (∃ q ∈ s.base ++ (rest ++ [(⟨s.arrived, text⟩ : Query)]), q.n = n) ∨ _
    rcases Nat.lt_succ_iff_lt_or_eq.mp less with before | rfl
    · rcases inv.complete n before with ⟨q, member, same⟩ | ⟨l, member, same⟩
      · rw [split] at member
        rcases List.mem_append.mp member with done | waits
        · exact .inl ⟨q, List.mem_append_left _ done, same⟩
        · rcases List.mem_cons.mp waits with rfl | waits
          · exact .inr ⟨_, List.mem_append_right _ List.mem_cons_self, q, rfl, same⟩
          · exact .inl ⟨q, List.mem_append_right _ (List.mem_append_left _ waits), same⟩
      · exact .inr ⟨l, List.mem_append_left _ member, same⟩
    · exact .inl ⟨_, List.mem_append_right _ (List.mem_append_right _ List.mem_cons_self), rfl⟩
  · rw [newest] at on
    cases on

/-- **With `lastRemove` a full buffer loses its oldest query too**, where it was to refuse the new one. -/
theorem Inv.not_kept_of_full (inv : Inv h s) (oldest : h.lastRemove = true) (full : h.qbufSize ≤ s.qbuf.length)
    (text : String) : ¬ Kept h (s.keep h ⟨s.arrived, text⟩) := by
  intro kept
  have few := inv.few oldest
  have all : s.qbuf = s.pending := inv.buffer.trans (policy_all few)
  have buffer := kept.buffer
  rw [keep_of_full full] at buffer
  have shown : (s.qbuf ++ [(⟨s.arrived, text⟩ : Query)]).tail =
      (s.pending ++ [(⟨s.arrived, text⟩ : Query)]).take h.qbufSize := by
    rw [policy, oldest] at buffer
    exact buffer
  have size : h.qbufSize = s.pending.length := by
    rw [all] at full
    omega
  have some' : s.qbuf ≠ [] := List.ne_nil_of_length_pos (by have := h.size_pos; omega)
  rw [size, List.take_left, List.tail_append_of_ne_nil some'] at shown
  have member : (⟨s.arrived, text⟩ : Query) ∈ s.pending := shown ▸ List.mem_append_right _ List.mem_cons_self
  exact Nat.lt_irrefl _ (inv.older _ (List.mem_append_right _ member))

/-! ### The run -/

theorem inv_initDBServer (inv : Inv h s) (connected : Bool) : Inv h (s.initDBServer kind.flushBuffer connected) := by
  rw [Server.initDBServer]
  split
  · exact inv
  split
  · exact inv
  · rw [flushBuffer_eq rfl]
    exact (inv.connection true).flushed

/-- **One step.** What fits keeps the queries. -/
theorem inv_step (inv : Inv h s) {e : Event} (fits : Fits h s e) (stepped : (machine kind h).step s e = some t) :
    Inv h t := by
  cases e with
  | writeToBase text =>
    obtain rfl := Option.some.inj stepped
    rw [writeToBase_eq, Server.writeToBase]
    cases connected : s.connect_ok with
    | false =>
      by_cases room : s.qbuf.length < h.qbufSize
      · exact inv.keep_room room text
      · cases oldest : h.lastRemove with
        | true => exact absurd (fits connected oldest) room
        | false => exact inv.keep_full oldest (Nat.le_of_not_lt room) text
    | true =>
      rw [flushBuffer_eq connected]
      exact inv.execute text
  | pingTimer ping =>
    obtain rfl := Option.some.inj stepped
    cases ping with
    | true => exact inv.connection true
    | false => exact inv.connection false
  | reconnectTimer isConnection ping connected =>
    obtain rfl := Option.some.inj stepped
    cases isConnection with
    | true =>
      cases ping with
      | true => exact inv.connection true
      | false => exact inv.connection false
    | false => exact inv_initDBServer inv connected
  | initDBServer connected => exact Option.some.inj stepped ▸ inv_initDBServer inv connected

/-- **The kept queries.** In a run of any of the servers they are always kept exactly if no query finds the buffer
full while `lastRemove` is on. -/
theorem queries_kept_iff (kind : Kind) (h : Setup) (events : List Event) :
    (machine kind h).Always (Kept h) Server.new events ↔ (machine kind h).Meets (Fits h) Server.new events := by
  refine Machine.always_iff_meets (P := Inv h) (fun s inv => inv.toKept)
    (fun s e t inv fits stepped => inv_step inv fits stepped) (fun s e inv broken => ?_) inv_new
  cases e with
  | writeToBase text =>
    refine ⟨_, rfl, ?_⟩
    have found : s.connect_ok = false ∧ h.lastRemove = true ∧ h.qbufSize ≤ s.qbuf.length := by
      simp only [Fits, Classical.not_imp, not_lt] at broken
      exact broken
    rw [writeToBase_eq, Server.writeToBase, found.1]
    exact inv.not_kept_of_full found.2.1 found.2.2 text
  | pingTimer ping => exact absurd trivial broken
  | reconnectTimer isConnection ping connected => exact absurd trivial broken
  | initDBServer connected => exact absurd trivial broken

end Invariant

/-- A buffer of two queries. -/
def small (lastRemove : Bool) : Setup := ⟨2, lastRemove, Nat.le_succ 1⟩

/-- **The third query of an outage**, with `lastRemove`: it is reported as lost and kept, and the first one is
removed. -/
theorem lastRemove_not_kept :
    let outage := [Event.writeToBase "a", .writeToBase "b", .writeToBase "c"]
    ¬ (machine .SQLite (small true)).Always (Kept (small true)) Server.new outage ∧
      ¬ (machine .MySQL (small true)).Always (Kept (small true)) Server.new outage ∧
      ¬ (machine .PostgreSQL (small true)).Always (Kept (small true)) Server.new outage := by
  have each : ∀ kind : Kind, ¬ (machine kind (small true)).Always (Kept (small true)) Server.new
      [.writeToBase "a", .writeToBase "b", .writeToBase "c"] := by
    intro kind always
    have third := ((always.2 _ rfl).2 _ rfl).2 _ rfl
    have buffer := third.buffer
    cases kind with
    | SQLite => exact absurd buffer (by decide)
    | MySQL => exact absurd buffer (by decide)
    | PostgreSQL => exact absurd buffer (by decide)
  exact ⟨each .SQLite, each .MySQL, each .PostgreSQL⟩

end UniSet.QueryBuffer
