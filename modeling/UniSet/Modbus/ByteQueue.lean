/-
**`ModbusTCPCore`: reading through the byte queue.**

`getNextData` and `getDataFD` fill the queue from the connection if it holds too little and take the
bytes they are asked for from its front. Asked for no bytes, they ask the connection for seven, and
then hand over up to seven.

* `Reading`, `Link` — what one read of the connection brings, and the queue with the readings to come
  and the bytes that have come so far.
* `readNextData`, `readDataFD`, `getNextData`, `getDataFD` — the four functions.
* `exec_spec` — a call hands over the front of the queue: what it returns and what it leaves are what
  there was and what came.
* `Rewritten` — a call for no bytes, on an empty queue, while the connection brings some.
* **`reads_bounded_iff`** — in every sequence of calls nothing is lost, doubled or moved, and no call
  returns more than it was asked for exactly if no call is of that kind.
-/

import UniSet.Modbus.TCPSession

namespace UniSet.Modbus.ModbusTCPCore

/-- **How one read of the connection ends.** -/
inductive Reading
  /-- The bytes that are there; none are the end of the connection. -/
  | received (bytes : List Byte)
  /-- `-1`, or a `Poco::TimeoutException`. -/
  | nothing
  /-- A `Poco::Net::NetException`; `::read` returns `-1` then. -/
  | netException
deriving DecidableEq, Repr

/-- The reading is not the end, a failure or silence. -/
def Reading.HasBytes : Reading → Prop
  | .received bytes => bytes ≠ []
  | _ => False

/-- **The queue and its connection.** -/
structure Link where
  qrecv : List Byte
  /-- The readings to come. -/
  stream : List Reading
  /-- The bytes that have come so far. -/
  arrived : List Byte
deriving DecidableEq, Repr

namespace Link

def start (qrecv : List Byte) (stream : List Reading) : Link := ⟨qrecv, stream, []⟩

/-- One read of at most `max` bytes; what does not fit is left for the next one. -/
def read (max : Nat) (s : Link) : Reading × Link :=
  match s.stream with
  | [] => (.nothing, s)
  | .received bytes :: rest =>
    if bytes.length ≤ max then (.received bytes, { s with stream := rest })
    else (.received (bytes.take max), { s with stream := .received (bytes.drop max) :: rest })
  | reading :: rest => (reading, { s with stream := rest })

/-- `qrecv.push` of the bytes that were read. -/
def push (bytes : List Byte) (s : Link) : Link :=
  { s with qrecv := s.qrecv ++ bytes, arrived := s.arrived ++ bytes }

/-- The loop that takes bytes from the front of the queue. -/
def pop (len : Nat) (s : Link) : List Byte × Link :=
  (s.qrecv.take len, { s with qrecv := s.qrecv.drop len })

end Link

/-- `DEFAULT_BUFFER_SIZE_FOR_READ`. -/
def bufferSize (max : Nat) : Nat := Nat.max max 255

/-- **`readNextData`**: `none` is `CommFailed`. -/
def readNextData (max : Nat) (s : Link) : Option Nat × Link :=
  match s.read (bufferSize max) with
  | (.received [], s) => (none, s)
  | (.received bytes, s) => (some bytes.length, s.push bytes)
  | (.nothing, s) => (some 0, s)
  | (.netException, s) => (none, s)

/-- **`getNextData`**; `tcp` is whether there is a stream. -/
def getNextData (tcp : Bool) (len : Nat) (s : Link) : List Byte × Link :=
  if s.qrecv = [] ∨ s.qrecv.length < len then
    if tcp = false then ([], s)
    else
      let len := if len = 0 then 7 else len
      match readNextData len s with
      | (some 0, s) => ([], s)
      | (some _, s) => s.pop len
      | (none, s) => if s.qrecv = [] then ([], s) else s.pop len
  else s.pop len

/-- The loop of `readDataFD` with the attempts that are left; `cnt` bytes have been read, and the
result is whether the end of the connection was seen. -/
def readAttempts (max : Nat) : Nat → Nat → Bool → Link → Bool × Link
  | 0, _, commfail, s => (commfail, s)
  | attempts + 1, cnt, commfail, s =>
    match s.read max with
    | (.received [], s) => readAttempts max attempts cnt true s
    | (.received bytes, s) =>
      if max ≤ cnt + bytes.length then (commfail, s.push bytes)
      else readAttempts max attempts (cnt + bytes.length) commfail (s.push bytes)
    | (_, s) => readAttempts max attempts cnt commfail s

/-- **`readDataFD`**: `none` is `CommFailed`. -/
def readDataFD (max attempts : Nat) (s : Link) : Option Nat × Link :=
  match readAttempts (bufferSize max) attempts 0 false s with
  | (true, s) => (none, s)
  | (false, s) => (some (min s.qrecv.length (bufferSize max)), s)

/-- **`getDataFD`.** -/
def getDataFD (attempts len : Nat) (s : Link) : List Byte × Link :=
  if s.qrecv = [] ∨ s.qrecv.length < len then
    let len := if len = 0 then 7 else len
    match readDataFD len attempts s with
    | (some ret, s) => if ret = 0 ∧ s.qrecv = [] then ([], s) else s.pop len
    | (none, s) => if s.qrecv = [] then ([], s) else s.pop len
  else s.pop len

/-! ### Calls -/

/-- Which of the two functions is called. -/
inductive Getter
  | getNextData (tcp : Bool)
  | getDataFD (attempts : Nat)
deriving DecidableEq, Repr

structure Call where
  getter : Getter
  len : Nat
deriving DecidableEq, Repr

def Call.exec (c : Call) (s : Link) : List Byte × Link :=
  match c.getter with
  | .getNextData tcp => getNextData tcp c.len s
  | .getDataFD attempts => getDataFD attempts c.len s

/-- The results of a sequence of calls, and what it leaves. -/
def run : Link → List Call → List (List Byte) × Link
  | s, [] => ([], s)
  | s, c :: rest =>
    let out := c.exec s
    let later := run out.2 rest
    (out.1 :: later.1, later.2)

/-- **No call returns more than it was asked for.** -/
def Bounded : Link → List Call → Prop
  | _, [] => True
  | s, c :: rest => (c.exec s).1.length ≤ c.len ∧ Bounded (c.exec s).2 rest

/-- The next reads of the function bring a byte. -/
def Getter.Brings (stream : List Reading) : Getter → Prop
  | .getNextData tcp => tcp = true ∧ ∃ r rest, stream = r :: rest ∧ r.HasBytes
  | .getDataFD attempts => ∃ r ∈ stream.take attempts, r.HasBytes

/-- **The length of the call is replaced, and bytes come.** -/
def Call.Rewritten (c : Call) (s : Link) : Prop :=
  c.len = 0 ∧ s.qrecv = [] ∧ c.getter.Brings s.stream

/-- No call of the sequence is of that kind. -/
def NeverRewritten : Link → List Call → Prop
  | _, [] => True
  | s, c :: rest => ¬ c.Rewritten s ∧ NeverRewritten (c.exec s).2 rest

/-! ### One read -/

theorem read_spec (max : Nat) (s : Link) :
    (s.read max).2.qrecv = s.qrecv ∧ (s.read max).2.arrived = s.arrived := by
  unfold Link.read
  split
  · exact ⟨rfl, rfl⟩
  · split <;> exact ⟨rfl, rfl⟩
  · exact ⟨rfl, rfl⟩

/-- **Filling the queue**: what comes is put at its end. -/
def Fills (s t : Link) : Prop :=
  ∃ bytes, t.qrecv = s.qrecv ++ bytes ∧ t.arrived = s.arrived ++ bytes

theorem Fills.refl (s : Link) : Fills s s :=
  ⟨[], (List.append_nil _).symm, (List.append_nil _).symm⟩

theorem Fills.trans {s t u : Link} (first : Fills s t) (second : Fills t u) : Fills s u := by
  obtain ⟨bytes, queued, arrived⟩ := first
  obtain ⟨more, queued', arrived'⟩ := second
  refine ⟨bytes ++ more, ?_, ?_⟩
  · rw [queued', queued, List.append_assoc]
  · rw [arrived', arrived, List.append_assoc]

theorem fills_read (max : Nat) (s : Link) : Fills s (s.read max).2 := by
  obtain ⟨queued, arrived⟩ := read_spec max s
  exact ⟨[], by rw [queued, List.append_nil], by rw [arrived, List.append_nil]⟩

theorem fills_push (bytes : List Byte) (s : Link) : Fills s (s.push bytes) := ⟨bytes, rfl, rfl⟩

theorem fills_readNextData (max : Nat) (s : Link) : Fills s (readNextData max s).2 := by
  have read := fills_read (bufferSize max) s
  unfold readNextData
  split
  · rename_i same
    rw [same] at read
    exact read
  · rename_i bytes _ _ same
    rw [same] at read
    exact read.trans (fills_push _ _)
  · rename_i same
    rw [same] at read
    exact read
  · rename_i same
    rw [same] at read
    exact read

theorem fills_readAttempts (max attempts cnt : Nat) (commfail : Bool) (s : Link) :
    Fills s (readAttempts max attempts cnt commfail s).2 := by
  induction attempts generalizing cnt commfail s with
  | zero => exact Fills.refl s
  | succ attempts ih =>
    have read := fills_read max s
    rw [readAttempts]
    split
    · rename_i same
      rw [same] at read
      exact read.trans (ih _ _ _)
    · rename_i same
      rw [same] at read
      split
      · exact read.trans (fills_push _ _)
      · exact (read.trans (fills_push _ _)).trans (ih _ _ _)
    · rename_i same
      rw [same] at read
      exact read.trans (ih _ _ _)

theorem fills_readDataFD (max attempts : Nat) (s : Link) : Fills s (readDataFD max attempts s).2 := by
  have read := fills_readAttempts (bufferSize max) attempts 0 false s
  unfold readDataFD
  split
  · rename_i same
    rw [same] at read
    exact read
  · rename_i same
    rw [same] at read
    exact read

/-! ### One call -/

/-- **A call hands over the front of the queue**: `out` and what is left are what there was and what
came. -/
def Hands (s : Link) (out : List Byte) (t : Link) : Prop :=
  ∃ bytes, out ++ t.qrecv = s.qrecv ++ bytes ∧ t.arrived = s.arrived ++ bytes

theorem hands_pop {s t : Link} (fills : Fills s t) (len : Nat) :
    Hands s (t.pop len).1 (t.pop len).2 := by
  obtain ⟨bytes, queued, arrived⟩ := fills
  refine ⟨bytes, ?_, arrived⟩
  rw [← queued]
  exact List.take_append_drop len t.qrecv

theorem pop_length (len : Nat) (s : Link) : (s.pop len).1.length ≤ len := List.length_take_le _ _

/-- A read that brings bytes, and one that does not. -/
theorem read_cases {max : Nat} (room : 0 < max) (s : Link) :
    (∃ r rest, s.stream = r :: rest ∧ r.HasBytes ∧
      ∃ bytes, (s.read max).1 = .received bytes ∧ bytes ≠ []) ∨
    ((∀ r rest, s.stream = r :: rest → ¬ r.HasBytes) ∧ (s.read max).2.stream = s.stream.tail ∧
      ∀ bytes, (s.read max).1 = .received bytes → bytes = []) := by
  unfold Link.read
  cases stream : s.stream with
  | nil => exact .inr ⟨(fun r rest same => nomatch same), stream, fun bytes same => nomatch same⟩
  | cons r rest =>
    cases r with
    | nothing =>
      refine .inr ⟨fun r' rest' same => ?_, rfl, fun bytes same => nomatch same⟩
      cases same
      exact id
    | netException =>
      refine .inr ⟨fun r' rest' same => ?_, rfl, fun bytes same => nomatch same⟩
      cases same
      exact id
    | received bytes =>
      by_cases none : bytes = []
      · refine .inr ⟨fun r' rest' same => ?_, ?_, fun got same => ?_⟩
        · cases same
          exact not_not.mpr none
        · simp [none]
        · simpa [none] using same.symm
      · refine .inl ⟨_, _, rfl, none, ?_⟩
        by_cases fits : bytes.length ≤ max
        · exact ⟨bytes, by simp [fits], none⟩
        · refine ⟨bytes.take max, by simp [fits], fun short => none ?_⟩
          rcases List.take_eq_nil_iff.mp short with zero | nothing
          · omega
          · exact nothing

theorem bufferSize_pos (max : Nat) : 0 < bufferSize max := by
  unfold bufferSize
  exact Nat.lt_of_lt_of_le (by decide) (Nat.le_max_right max 255)

/-- `readNextData` leaves more in the queue exactly if the next reading has bytes. -/
theorem readNextData_cases (max : Nat) (s : Link) :
    (∃ r rest, s.stream = r :: rest ∧ r.HasBytes ∧
      ∃ n, (readNextData max s).1 = some (n + 1) ∧ (readNextData max s).2.qrecv ≠ []) ∨
    ((∀ r rest, s.stream = r :: rest → ¬ r.HasBytes) ∧
      ((readNextData max s).1 = some 0 ∨ (readNextData max s).1 = none) ∧
      (readNextData max s).2.qrecv = s.qrecv) := by
  obtain ⟨queued, -⟩ := read_spec (bufferSize max) s
  unfold readNextData
  rcases read_cases (bufferSize_pos max) s with ⟨r, rest, stream, has, bytes, got, some⟩ |
    ⟨none, -, empty⟩
  · refine .inl ⟨r, rest, stream, has, ?_⟩
    generalize s.read (bufferSize max) = out at got queued
    obtain ⟨reading, t⟩ := out
    cases got
    cases bytes with
    | nil => exact absurd rfl some
    | cons b bytes =>
      refine ⟨bytes.length, rfl, ?_⟩
      show t.qrecv ++ b :: bytes ≠ []
      simp
  · refine .inr ⟨none, ?_⟩
    generalize s.read (bufferSize max) = out at empty queued
    obtain ⟨reading, t⟩ := out
    cases reading with
    | received bytes =>
      cases empty bytes rfl
      exact ⟨.inr rfl, queued⟩
    | nothing => exact ⟨.inl rfl, queued⟩
    | netException => exact ⟨.inr rfl, queued⟩

/-- `readAttempts` leaves the queue empty exactly if it was and no attempt gets bytes. -/
theorem readAttempts_empty {max : Nat} (room : 0 < max) (attempts cnt : Nat) (commfail : Bool)
    (s : Link) :
    (readAttempts max attempts cnt commfail s).2.qrecv = [] ↔
      s.qrecv = [] ∧ ∀ r ∈ s.stream.take attempts, ¬ r.HasBytes := by
  induction attempts generalizing cnt commfail s with
  | zero => exact ⟨fun empty => ⟨empty, fun r member => nomatch member⟩, fun both => both.1⟩
  | succ attempts ih =>
    obtain ⟨queued, -⟩ := read_spec max s
    rw [readAttempts]
    rcases read_cases room s with ⟨r, rest, stream, has, bytes, got, some⟩ | ⟨none, left, empty⟩
    · have refuted : ¬ (s.qrecv = [] ∧ ∀ r ∈ s.stream.take (attempts + 1), ¬ r.HasBytes) := by
        rintro ⟨-, without⟩
        refine without r ?_ has
        rw [stream]
        exact List.mem_cons_self
      generalize s.read max = out at got
      obtain ⟨reading, t⟩ := out
      cases got
      have kept : ∀ u, Fills (t.push bytes) u → u.qrecv ≠ [] := by
        rintro u ⟨more, filled, -⟩ nothing
        rw [filled] at nothing
        exact some (List.append_eq_nil_iff.mp (List.append_eq_nil_iff.mp nothing).1).2
      cases bytes with
      | nil => exact absurd rfl some
      | cons b bytes =>
        dsimp only
        split
        · exact iff_of_false (kept _ (Fills.refl _)) refuted
        · exact iff_of_false (kept _ (fills_readAttempts ..)) refuted
    · have same : (∀ r ∈ s.stream.take (attempts + 1), ¬ r.HasBytes) ↔
          ∀ r ∈ s.stream.tail.take attempts, ¬ r.HasBytes := by
        cases stream : s.stream with
        | nil => simp
        | cons r rest =>
          rw [List.take_succ_cons, List.forall_mem_cons]
          exact ⟨fun both => both.2, fun later => ⟨none r rest stream, later⟩⟩
      rw [same, ← queued, ← left]
      generalize s.read max = out at empty
      obtain ⟨reading, t⟩ := out
      cases reading with
      | received bytes =>
        cases empty bytes rfl
        exact ih _ _ _
      | nothing => exact ih _ _ _
      | netException => exact ih _ _ _

/-- A call with a queue that is filled first, unless it holds enough. -/
theorem getDataFD_eq (attempts len : Nat) (s : Link) :
    getDataFD attempts len s =
      if s.qrecv = [] ∨ s.qrecv.length < len then
        (readDataFD (if len = 0 then 7 else len) attempts s).2.pop (if len = 0 then 7 else len)
      else s.pop len := by
  have popped : ∀ (n : Nat) (t : Link), t.qrecv = [] → ([], t) = t.pop n := by
    intro n t empty
    rw [Link.pop, empty, List.take_nil, List.drop_nil, ← empty]
  unfold getDataFD
  split
  · dsimp only
    generalize readDataFD (if len = 0 then 7 else len) attempts s = out
    obtain ⟨ret, t⟩ := out
    cases ret with
    | none =>
      dsimp only
      split
      · rename_i empty
        exact popped _ _ empty
      · rfl
    | some ret =>
      dsimp only
      split
      · rename_i both
        exact popped _ _ both.2
      · rfl
  · rfl

theorem readDataFD_link (max attempts : Nat) (s : Link) :
    (readDataFD max attempts s).2 = (readAttempts (bufferSize max) attempts 0 false s).2 := by
  unfold readDataFD
  generalize readAttempts (bufferSize max) attempts 0 false s = out
  obtain ⟨commfail, t⟩ := out
  cases commfail <;> rfl

/-- Seven bytes are taken for none: that is too many if there is one. -/
theorem pop_seven (s : Link) : (s.pop 7).1.length ≤ 0 ↔ s.qrecv = [] := by
  rw [Nat.le_zero, List.length_eq_zero_iff]
  show s.qrecv.take 7 = [] ↔ _
  rw [List.take_eq_nil_iff]
  exact or_iff_right (by decide)

/-- The queue holds enough: the call is no more than its loop. -/
theorem pop_spec {len : Nat} {s : Link} (enough : ¬ (s.qrecv = [] ∨ s.qrecv.length < len))
    (brings : Prop) :
    Hands s (s.pop len).1 (s.pop len).2 ∧
      ((s.pop len).1.length ≤ len ↔ ¬ (len = 0 ∧ s.qrecv = [] ∧ brings)) :=
  ⟨hands_pop (Fills.refl s) len,
    iff_of_true (pop_length len s) fun rewritten => enough (.inl rewritten.2.1)⟩

theorem getDataFD_spec (attempts len : Nat) (s : Link) :
    Hands s (getDataFD attempts len s).1 (getDataFD attempts len s).2 ∧
      ((getDataFD attempts len s).1.length ≤ len ↔
        ¬ (len = 0 ∧ s.qrecv = [] ∧ ∃ r ∈ s.stream.take attempts, r.HasBytes)) := by
  rw [getDataFD_eq]
  by_cases fill : s.qrecv = [] ∨ s.qrecv.length < len
  · rw [if_pos fill]
    refine ⟨hands_pop (fills_readDataFD _ _ _) _, ?_⟩
    by_cases zero : len = 0
    · have empty : s.qrecv = [] := fill.resolve_right (by omega)
      have filled := readAttempts_empty (bufferSize_pos 7) attempts 0 false s
      rw [zero, if_pos rfl, pop_seven, readDataFD_link, filled]
      simp only [empty, true_and, not_exists, not_and]
    · rw [if_neg zero]
      exact iff_of_true (pop_length _ _) fun rewritten => zero rewritten.1
  · rw [if_neg fill]
    exact pop_spec fill _

theorem getNextData_spec (tcp : Bool) (len : Nat) (s : Link) :
    Hands s (getNextData tcp len s).1 (getNextData tcp len s).2 ∧
      ((getNextData tcp len s).1.length ≤ len ↔
        ¬ (len = 0 ∧ s.qrecv = [] ∧ tcp = true ∧ ∃ r rest, s.stream = r :: rest ∧ r.HasBytes)) := by
  unfold getNextData
  by_cases fill : s.qrecv = [] ∨ s.qrecv.length < len
  · rw [if_pos fill]
    cases tcp with
    | false =>
      rw [if_pos rfl]
      refine ⟨⟨[], (List.append_nil _).symm, (List.append_nil _).symm⟩, ?_⟩
      exact iff_of_true (Nat.zero_le len) fun rewritten => nomatch rewritten.2.2.1
    | true =>
      rw [if_neg (by decide)]
      dsimp only
      have fills := fills_readNextData (if len = 0 then 7 else len) s
      have brought := readNextData_cases (if len = 0 then 7 else len) s
      generalize readNextData (if len = 0 then 7 else len) s = out at fills brought
      obtain ⟨ret, t⟩ := out
      rcases brought with ⟨r, rest, stream, has, n, got, some⟩ | ⟨none, got, queued⟩
      · cases got
        refine ⟨hands_pop fills _, ?_⟩
        show (t.pop _).1.length ≤ len ↔ _
        by_cases zero : len = 0
        · have empty : s.qrecv = [] := fill.resolve_right (by omega)
          rw [zero, if_pos rfl, pop_seven]
          exact iff_of_false some (not_not.mpr ⟨rfl, empty, rfl, r, rest, stream, has⟩)
        · rw [if_neg zero]
          exact iff_of_true (pop_length _ _) fun rewritten => zero rewritten.1
      · have never : ¬ (len = 0 ∧ s.qrecv = [] ∧ true = true ∧
            ∃ r rest, s.stream = r :: rest ∧ r.HasBytes) := by
          rintro ⟨-, -, -, r, rest, stream, has⟩
          exact none r rest stream has
        rcases got with got | got
        · cases got
          exact ⟨fills, iff_of_true (Nat.zero_le len) never⟩
        · cases got
          dsimp only
          split
          · exact ⟨fills, iff_of_true (Nat.zero_le len) never⟩
          · rename_i left
            refine ⟨hands_pop fills _, iff_of_true ?_ never⟩
            by_cases zero : len = 0
            · exact absurd (queued.trans (fill.resolve_right (by omega))) left
            · rw [if_neg zero]
              exact pop_length _ _
  · rw [if_neg fill]
    exact pop_spec fill _

/-- **A call**: what it returns comes from the front of the queue, and it is more than was asked for
exactly if the length was replaced. -/
theorem exec_spec (c : Call) (s : Link) :
    Hands s (c.exec s).1 (c.exec s).2 ∧ ((c.exec s).1.length ≤ c.len ↔ ¬ c.Rewritten s) := by
  obtain ⟨getter, len⟩ := c
  cases getter with
  | getNextData tcp => exact getNextData_spec tcp len s
  | getDataFD attempts => exact getDataFD_spec attempts len s

/-! ### Sequences of calls -/

/-- **What a sequence of calls returns and leaves is what there was and what came.** -/
theorem run_hands (s : Link) (calls : List Call) :
    Hands s (run s calls).1.flatten (run s calls).2 := by
  induction calls generalizing s with
  | nil => exact ⟨[], (List.append_nil _).symm, (List.append_nil _).symm⟩
  | cons c rest ih =>
    obtain ⟨bytes, first, came⟩ := (exec_spec c s).1
    obtain ⟨more, later, came'⟩ := ih (c.exec s).2
    refine ⟨bytes ++ more, ?_, ?_⟩
    · show ((c.exec s).1 ++ (run (c.exec s).2 rest).1.flatten) ++ _ = _
      rw [List.append_assoc]
      show (c.exec s).1 ++ ((run (c.exec s).2 rest).1.flatten ++ (run (c.exec s).2 rest).2.qrecv) = _
      rw [later, ← List.append_assoc, first, List.append_assoc]
    · show (run (c.exec s).2 rest).2.arrived = _
      rw [came', came, List.append_assoc]

theorem bounded_iff (s : Link) (calls : List Call) : Bounded s calls ↔ NeverRewritten s calls := by
  induction calls generalizing s with
  | nil => exact Iff.rfl
  | cons c rest ih => exact and_congr (exec_spec c s).2 (ih _)

/-- **Bounded reads in order**: no call returns more than it was asked for, and what the calls return
is the beginning of what was in the queue and what came, of which the queue holds the rest. -/
def ReadsInOrder (qrecv : List Byte) (stream : List Reading) (calls : List Call) : Prop :=
  Bounded (.start qrecv stream) calls ∧
    (run (.start qrecv stream) calls).1.flatten ++ (run (.start qrecv stream) calls).2.qrecv =
      qrecv ++ (run (.start qrecv stream) calls).2.arrived

/-- **The reads are bounded and in order exactly if no call for no bytes finds the queue empty and a
connection that brings some.** -/
theorem reads_bounded_iff (qrecv : List Byte) (stream : List Reading) (calls : List Call) :
    ReadsInOrder qrecv stream calls ↔ NeverRewritten (.start qrecv stream) calls := by
  obtain ⟨bytes, handed, came⟩ := run_hands (.start qrecv stream) calls
  have inOrder : (run (.start qrecv stream) calls).1.flatten ++
      (run (.start qrecv stream) calls).2.qrecv =
      qrecv ++ (run (.start qrecv stream) calls).2.arrived := by
    rw [handed, came]
    rfl
  rw [ReadsInOrder, bounded_iff]
  exact and_iff_left inOrder

/-- **A call for no bytes takes seven** of the next request. -/
theorem read_of_none_takes_seven :
    ¬ ReadsInOrder [] [.received [0, 2, 0, 0, 0, 6, 1, 3, 0, 0, 0, 1]] [⟨.getDataFD 1, 0⟩] ∧
      (run (.start [] [.received [0, 2, 0, 0, 0, 6, 1, 3, 0, 0, 0, 1]]) [⟨.getDataFD 1, 0⟩]).1 =
        [[0, 2, 0, 0, 0, 6, 1]] := by
  have taken : (run (.start [] [.received [0, 2, 0, 0, 0, 6, 1, 3, 0, 0, 0, 1]])
      [⟨.getDataFD 1, 0⟩]).1 = [[0, 2, 0, 0, 0, 6, 1]] := by decide
  refine ⟨fun ordered => ?_, taken⟩
  exact absurd ordered.1.1 (by decide)

/-! ### The queue of a session -/

/-- The reading that the socket of a session gives next. -/
def sessionReading (max : Nat) (s : Session) : Reading :=
  match (s.sock.read (bufferSize max)).1 with
  | none => .received []
  | some [] => .nothing
  | some bytes => .received bytes

theorem socket_read_length {max : Nat} {sock : Socket} {bytes : List Byte}
    (read : (sock.read max).1 = some bytes) : bytes.length ≤ max := by
  unfold Socket.read at read
  dsimp only at read
  split at read
  · cases read
  · cases read
    exact Nat.le_trans (List.length_take_le _ _) (Nat.min_le_left _ _)

theorem session_readDataFD (max : Nat) (s : Session) :
    (s.readDataFD max).2.qrecv =
      (readDataFD max 1 (.start s.qrecv [sessionReading max s])).2.qrecv := by
  have small := @socket_read_length (bufferSize max) s.sock
  rw [readDataFD_link]
  have size : Nat.max max Session.defaultBufferSizeForRead = bufferSize max := rfl
  unfold Session.readDataFD sessionReading
  dsimp only
  rw [size]
  generalize s.sock.read (bufferSize max) = out at small
  obtain ⟨got, sock⟩ := out
  cases got with
  | none => rfl
  | some bytes =>
    have fits := small rfl
    cases bytes with
    | nil => exact List.append_nil s.qrecv
    | cons b bytes =>
      have read : (Link.start s.qrecv [.received (b :: bytes)]).read (bufferSize max) =
          (.received (b :: bytes), .start s.qrecv []) := if_pos fits
      show _ = (readAttempts (bufferSize max) 1 0 false
        (.start s.qrecv [.received (b :: bytes)])).2.qrecv
      rw [readAttempts, read]
      dsimp only
      split <;> rfl

/-- **`Session.getDataFD` is `getDataFD`** with one attempt. -/
theorem session_getDataFD (len : Nat) (s : Session) :
    (s.getDataFD len).1 =
      (getDataFD 1 len (.start s.qrecv [sessionReading (if len = 0 then 7 else len) s])).1 := by
  have filled := session_readDataFD (if len = 0 then 7 else len) s
  rw [getDataFD_eq]
  unfold Session.getDataFD
  show _ = (if s.qrecv = [] ∨ s.qrecv.length < len then _ else _ : List Byte × Link).1
  generalize (if len = 0 then 7 else len) = n at filled ⊢
  by_cases fill : s.qrecv = [] ∨ s.qrecv.length < len
  · rw [if_pos fill, if_pos fill]
    dsimp only [Link.pop]
    rw [← filled]
    by_cases empty : (s.readDataFD n).2.qrecv = []
    · rw [if_pos empty, empty, List.take_nil]
    · rw [if_neg empty]
      rfl
  · rw [if_neg fill, if_neg fill]
    rfl

end UniSet.Modbus.ModbusTCPCore
