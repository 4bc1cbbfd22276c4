/-
**The PostgreSQL server: its insert buffer and its queries.**

* `DBServer` — the records that wait in `ibuf`, the queries that wait in `qbuf`, and what the data base
  has got.
* `clean`, `flushInsertBuffer`, `addRecord` — the insert buffer.
* `writeToBase`, `flushBuffer` — the queries.
* `Law` — the counter is the size, everything is written in its order, and only a cleaning loses
  records: the oldest ones, or the newest with `lastRemove`.
* `flush_waiting`: what a flush does to the records that are written or wait.
* **`records_law_iff`**: a run keeps the law exactly if no record comes while the buffer is full and no
  `UPDATE` is written while an older record waits.
-/

import Mathlib.Algebra.Order.Floor.Defs
import Mathlib.Data.List.Nodup
import Mathlib.Data.Rat.Floor
import UniSet.Lib.Machine

namespace UniSet.DBServerPostgreSQL

/-- `PostgreSQLInterface::Record`. -/
abbrev Record := List String

/-- A record or a query with the number of the message it comes from. -/
structure Stamped (α : Type) where
  n : Nat
  data : α
deriving DecidableEq, Repr

/-- What the data base gets. -/
inductive Write
  | insert (rec : Stamped Record)
  | update (query : Stamped String)
deriving DecidableEq, Repr

/-- The number of the message of a write. -/
def Write.n : Write → Nat
  | .insert rec => rec.n
  | .update query => query.n

/-- The fields of a `SensorMessage` that are stored. -/
structure SensorMessage where
  sec : Int
  nsec : Int
  id : Int
  value : Int
  node : Int
deriving DecidableEq, Repr

/-- The fields of a `ConfirmMessage` that are stored. -/
structure ConfirmMessage where
  confirm_sec : Int
  sensor_id : Int
  sensor_sec : Int
  sensor_nsec : Int
deriving DecidableEq, Repr

/-- **The settings of a server.** -/
structure Setup where
  qbufSize : Nat
  lastRemove : Bool
  ibufMaxSize : Nat
  ibufOverflowCleanFactor : ℚ
  dateToString : Int → String → String
  timeToString : Int → String → String
  maxSize_pos : 1 ≤ ibufMaxSize
  factor_nonneg : 0 ≤ ibufOverflowCleanFactor
  factor_le_one : ibufOverflowCleanFactor ≤ 1

/-- **`DBServer_PostgreSQL`**, with the number of messages so far and the writes the data base has
accepted. -/
structure DBServer where
  connect_ok : Bool
  qbuf : List (Stamped String)
  ibuf : List (Stamped Record)
  ibufSize : Nat
  arrived : Nat
  base : List Write
deriving DecidableEq, Repr

/-- `lroundf` of a number that is not negative. -/
def lround (x : ℚ) : Nat := ⌊x + 1 / 2⌋.toNat

namespace DBServer

variable (c : Setup)

/-- The records an overflow cleaning is to remove. -/
def delnum (size : Nat) : Nat := lround (size * c.ibufOverflowCleanFactor)

/-- The cleaning in `flushInsertBuffer`: the range from `beg` to `end` is erased. -/
def clean (s : DBServer) : DBServer :=
  let delnum := delnum c s.ibufSize
  let range := if c.lastRemove then (0, s.ibuf.length - delnum) else (delnum, s.ibuf.length)
  { s with
    ibuf := if range.1 ≠ s.ibuf.length then s.ibuf.take range.1 ++ s.ibuf.drop range.2 else s.ibuf
    ibufSize := if delnum < s.ibufSize then s.ibufSize - delnum else 0 }

/-- `flushInsertBuffer` behind the cleaning. -/
def copy (s : DBServer) (copyOk : Bool) : DBServer :=
  if s.ibufSize = 0 then s
  else if !s.connect_ok then s
  else if copyOk then
    { s with ibuf := [], ibufSize := 0, base := s.base ++ s.ibuf.map .insert }
  else s

/-- **`flushInsertBuffer`**; `copyOk` is the result of `db->copy`. -/
def flushInsertBuffer (s : DBServer) (copyOk : Bool) : DBServer :=
  (if c.ibufMaxSize < s.ibufSize then s.clean c else s).copy copyOk

/-- **`addRecord`.** -/
def addRecord (s : DBServer) (rec : Stamped Record) (copyOk : Bool) : DBServer :=
  let s := { s with ibuf := s.ibuf ++ [rec], ibufSize := s.ibufSize + 1 }
  if c.ibufMaxSize ≤ s.ibufSize then s.flushInsertBuffer c copyOk else s

/-- **`flushBuffer`**; `ok` is the result of `db->insert` for every query. -/
def flushBuffer (s : DBServer) (ok : Nat → Bool) : DBServer :=
  { s with qbuf := [], base := s.base ++ (s.qbuf.filter fun q => ok q.n).map .update }

/-- `writeToBase`. -/
def writeToBase (s : DBServer) (query : Stamped String) (ok : Nat → Bool) : DBServer :=
  if !s.connect_ok then
    let qbuf := s.qbuf ++ [query]
    { s with qbuf := if c.qbufSize < qbuf.length then qbuf.tail else qbuf }
  else
    let s := s.flushBuffer ok
    if ok query.n then { s with base := s.base ++ [.update query] } else s

/-- The record of a message. -/
def record (si : SensorMessage) : Record :=
  [c.dateToString si.sec "-", c.timeToString si.sec ":", toString si.nsec, toString si.id,
    toString si.value, toString si.node]

/-- **`sensorInfo`.** -/
def sensorInfo (s : DBServer) (si : SensorMessage) (copyOk : Bool) : DBServer :=
  { s with arrived := s.arrived + 1 }.addRecord c ⟨s.arrived, record c si⟩ copyOk

/-- The query of a confirmation. -/
def query (cem : ConfirmMessage) : String :=
  "UPDATE main_history SET confirm='" ++ toString cem.confirm_sec ++
    "' WHERE sensor_id='" ++ toString cem.sensor_id ++
    "' AND date='" ++ c.dateToString cem.sensor_sec "-" ++ " ' AND time='" ++
    c.timeToString cem.sensor_sec ":" ++ " ' AND time_usec='" ++ toString cem.sensor_nsec ++ " '"

/-- **`confirmInfo`.** -/
def confirmInfo (s : DBServer) (cem : ConfirmMessage) (copyOk : Bool) (ok : Nat → Bool) : DBServer :=
  ({ s with arrived := s.arrived + 1 }.flushInsertBuffer c copyOk).writeToBase c
    ⟨s.arrived, query c cem⟩ ok

/-- `initDBServer`, where the sections of the configuration are found. -/
def initDBServer (s : DBServer) (reconnect : Bool) (ok : Nat → Bool) : DBServer :=
  if s.connect_ok then s
  else if !reconnect then s
  else { s with connect_ok := true }.flushBuffer ok

/-- The timer `PingTimer`. -/
def pingTimer (s : DBServer) (ping : Bool) : DBServer := { s with connect_ok := ping }

/-- The timer `ReconnectTimer`. -/
def reconnectTimer (s : DBServer) (isConnection ping reconnect : Bool) (ok : Nat → Bool) : DBServer :=
  if isConnection then { s with connect_ok := ping } else s.initDBServer reconnect ok

/-- `deactivateObject`. -/
def deactivateObject (s : DBServer) (ok : Nat → Bool) : DBServer :=
  if s.connect_ok then s.flushBuffer ok else s

end DBServer

/-- What happens to the server, with the results of its calls to the data base. -/
inductive Event
  | sensorInfo (si : SensorMessage) (copyOk : Bool)
  | confirmInfo (cem : ConfirmMessage) (copyOk : Bool) (ok : Nat → Bool)
  | pingTimer (ping : Bool)
  | reconnectTimer (isConnection ping reconnect : Bool) (ok : Nat → Bool)
  | flushTimer (copyOk : Bool)
  | deactivateObject (ok : Nat → Bool)

/-- The server behind an event. -/
def DBServer.step (c : Setup) (s : DBServer) : Event → DBServer
  | .sensorInfo si copyOk => s.sensorInfo c si copyOk
  | .confirmInfo cem copyOk ok => s.confirmInfo c cem copyOk ok
  | .pingTimer ping => s.pingTimer ping
  | .reconnectTimer isConnection ping reconnect ok => s.reconnectTimer isConnection ping reconnect ok
  | .flushTimer copyOk => s.flushInsertBuffer c copyOk
  | .deactivateObject ok => s.deactivateObject ok

/-- **The server as a machine**: it starts with empty buffers. -/
def machine (c : Setup) : Lib.Machine DBServer Event where
  start := fun s => s.qbuf = [] ∧ s.ibuf = [] ∧ s.ibufSize = 0 ∧ s.base = []
  step := fun s e => some (s.step c e)

/-! ### The law -/

/-- The records among some writes. -/
def records (base : List Write) : List (Stamped Record) :=
  base.filterMap fun
    | .insert rec => some rec
    | .update _ => none

/-- The records that are to remain: a buffer that is too long loses `delnum` of them. -/
def kept (c : Setup) (ibuf : List (Stamped Record)) : List (Stamped Record) :=
  if c.ibufMaxSize < ibuf.length then
    if c.lastRemove then ibuf.take (ibuf.length - DBServer.delnum c ibuf.length)
    else ibuf.drop (DBServer.delnum c ibuf.length)
  else ibuf

/-- The records an event leaves to be written. -/
def waiting (c : Setup) (s : DBServer) : Event → List (Stamped Record)
  | .sensorInfo si _ => kept c (s.ibuf ++ [⟨s.arrived, DBServer.record c si⟩])
  | .confirmInfo _ _ _ => kept c s.ibuf
  | .flushTimer _ => kept c s.ibuf
  | _ => s.ibuf

/-- What may be written before what: records in order, and no `UPDATE` before an older record. -/
def Before : Write → Write → Prop
  | w, .insert later => w.n < later.n
  | _, .update _ => True

/-- Everything the data base gets, now or later, is in order. -/
def InOrder (s : DBServer) : Prop := (s.base ++ s.ibuf.map Write.insert).Pairwise Before

/-- **The law of an event**: the counter is the size of the buffer, the writes are in order and no record
is lost or written twice but by the cleaning. -/
def Law (c : Setup) (s : DBServer) (e : Event) : Prop :=
  let t := s.step c e
  t.ibufSize = t.ibuf.length ∧ InOrder t ∧ records t.base ++ t.ibuf = records s.base ++ waiting c s e

/-- No query the data base accepts is newer than a record. -/
def Older (ok : Nat → Bool) (qbuf : List (Stamped String)) (ibuf : List (Stamped Record)) : Prop :=
  ∀ q ∈ qbuf, ok q.n = true → ∀ rec ∈ ibuf, q.n < rec.n

/-- **The condition**: no record comes while the buffer is full, and where queries are written no record
in the buffer is older than one of them. -/
def Fits (c : Setup) (s : DBServer) : Event → Prop
  | .sensorInfo _ _ => s.ibufSize < c.ibufMaxSize
  | .confirmInfo cem copyOk ok => s.connect_ok = true → copyOk = false →
      Older ok (s.qbuf ++ [⟨s.arrived, DBServer.query c cem⟩]) s.ibuf
  | .reconnectTimer isConnection _ reconnect ok => isConnection = false → s.connect_ok = false →
      reconnect = true → Older ok s.qbuf s.ibuf
  | .deactivateObject ok => s.connect_ok = true → Older ok s.qbuf s.ibuf
  | _ => True

/-! ### Buffers -/

section Buffers

variable {c : Setup} {s : DBServer}

@[simp] theorem records_append (base more : List Write) :
    records (base ++ more) = records base ++ records more :=
  List.filterMap_append

@[simp] theorem records_insert (ibuf : List (Stamped Record)) :
    records (ibuf.map Write.insert) = ibuf := by
  unfold records
  rw [List.filterMap_map]
  exact List.filterMap_some

@[simp] theorem records_update (qbuf : List (Stamped String)) :
    records (qbuf.map Write.update) = [] := by
  unfold records
  rw [List.filterMap_map]
  exact List.filterMap_eq_nil_iff.mpr fun _ _ => rfl

/-- **What is written by the copy or waits** does not change. -/
theorem copy_waiting (copyOk : Bool) :
    records (s.copy copyOk).base ++ (s.copy copyOk).ibuf = records s.base ++ s.ibuf := by
  unfold DBServer.copy
  split
  · rfl
  split
  · rfl
  split
  · simp
  · rfl

/-- **What a flush writes or leaves**: the cleaned buffer. -/
theorem flush_waiting (copyOk : Bool) :
    records (s.flushInsertBuffer c copyOk).base ++ (s.flushInsertBuffer c copyOk).ibuf =
      records s.base ++ (if c.ibufMaxSize < s.ibufSize then (s.clean c).ibuf else s.ibuf) := by
  unfold DBServer.flushInsertBuffer
  rw [copy_waiting]
  split
  · rfl
  · rfl

/-- A copy keeps the order of what is written and waits. -/
theorem InOrder.copy (order : InOrder s) (copyOk : Bool) : InOrder (s.copy copyOk) := by
  unfold DBServer.copy
  split
  · exact order
  split
  · exact order
  split
  · show ((s.base ++ s.ibuf.map Write.insert) ++ []).Pairwise Before
    rw [List.append_nil]
    exact order
  · exact order

theorem size_copy (size : s.ibufSize = s.ibuf.length) (copyOk : Bool) :
    (s.copy copyOk).ibufSize = (s.copy copyOk).ibuf.length := by
  unfold DBServer.copy
  split
  · exact size
  split
  · exact size
  split
  · rfl
  · exact size

/-- **Queries are written in order** exactly if no record that waits is older. -/
theorem inOrder_queries (order : InOrder s) (queries : List (Stamped String)) :
    InOrder { s with base := s.base ++ queries.map .update } ↔
      ∀ q ∈ queries, ∀ rec ∈ s.ibuf, q.n < rec.n := by
  unfold InOrder at order ⊢
  dsimp only
  obtain ⟨base, ibuf, across⟩ := List.pairwise_append.mp order
  constructor
  · intro order q listed rec inside
    rw [List.pairwise_append] at order
    exact order.2.2 (.update q) (List.mem_append_right _ (List.mem_map_of_mem listed)) (.insert rec)
      (List.mem_map_of_mem inside)
  · intro older
    have among : (queries.map Write.update).Pairwise Before :=
      List.pairwise_map.mpr (List.pairwise_of_forall fun _ _ => trivial)
    refine List.pairwise_append.mpr ⟨List.pairwise_append.mpr ⟨base, among, ?_⟩, ibuf, ?_⟩
    · rintro w - u later
      obtain ⟨q, -, rfl⟩ := List.mem_map.mp later
      trivial
    · intro w sooner u later
      rcases List.mem_append.mp sooner with sooner | sooner
      · exact across w sooner u later
      · obtain ⟨q, listed, rfl⟩ := List.mem_map.mp sooner
        obtain ⟨rec, inside, rfl⟩ := List.mem_map.mp later
        exact older q listed rec inside

theorem inOrder_flushBuffer (order : InOrder s) (ok : Nat → Bool) :
    InOrder (s.flushBuffer ok) ↔ Older ok s.qbuf s.ibuf := by
  refine (inOrder_queries order (s.qbuf.filter fun q => ok q.n)).trans ?_
  unfold Older
  simp only [List.mem_filter, and_imp]

/-- The query of a confirmation is written behind those that wait. -/
theorem inOrder_writeToBase (order : InOrder s) (query : Stamped String) (ok : Nat → Bool) :
    InOrder (s.writeToBase c query ok) ↔
      (s.connect_ok = true → Older ok (s.qbuf ++ [query]) s.ibuf) := by
  unfold DBServer.writeToBase
  cases s.connect_ok with
  | false => exact iff_of_true order nofun
  | true =>
    rw [if_neg (by decide)]
    have all := inOrder_queries order ((s.qbuf ++ [query]).filter fun q => ok q.n)
    have same : Older ok (s.qbuf ++ [query]) s.ibuf ↔
        ∀ q ∈ (s.qbuf ++ [query]).filter fun q => ok q.n, ∀ rec ∈ s.ibuf, q.n < rec.n := by
      unfold Older
      simp only [List.mem_filter, and_imp]
    rw [same, ← all]
    refine Iff.trans ?_ ⟨fun held _ => held, fun held => held rfl⟩
    unfold InOrder DBServer.flushBuffer
    rw [List.filter_append, List.map_append]
    cases accepted : ok query.n with
    | false => simp [accepted]
    | true => simp [accepted]

/-- **A list of different records is not cut in the middle alike**: what is before a place is not what is
behind it. -/
theorem take_ne_drop {α : Type} {l : List α} (nodup : l.Nodup) (nonempty : l ≠ []) (d : Nat) :
    l.take d ≠ l.drop d := by
  intro same
  have halves : (l.take d ++ l.drop d).Nodup := by rwa [List.take_append_drop]
  rw [same] at halves
  have none : l.drop d = [] := by
    refine List.eq_nil_iff_forall_not_mem.mpr fun x mem => ?_
    exact (List.nodup_append.mp halves).2.2 x mem x mem rfl
  refine nonempty ?_
  rw [← List.take_append_drop d l, same, none, List.nil_append]

/-- **The cleaning removes the wrong records**: it keeps those that are to be removed. -/
theorem clean_ibuf (size : s.ibufSize = s.ibuf.length) :
    (s.clean c).ibuf =
      if c.lastRemove then s.ibuf.drop (s.ibuf.length - DBServer.delnum c s.ibuf.length)
      else s.ibuf.take (DBServer.delnum c s.ibuf.length) := by
  unfold DBServer.clean
  dsimp only
  rw [size]
  cases c.lastRemove with
  | true =>
    simp only [if_true, List.take_zero, List.nil_append]
    split
    · rfl
    · next empty =>
      have : s.ibuf = [] := List.eq_nil_of_length_eq_zero (Decidable.not_not.mp empty).symm
      rw [this, List.drop_nil]
  | false =>
    simp only [Bool.false_eq_true, if_false, List.drop_length, List.append_nil]
    split
    · rfl
    · next whole =>
      rw [Decidable.not_not.mp whole, List.take_length]

/-- A cleaning does not leave what is to remain. -/
theorem clean_ne_kept (size : s.ibufSize = s.ibuf.length) (nodup : s.ibuf.Nodup)
    (full : c.ibufMaxSize < s.ibuf.length) : (s.clean c).ibuf ≠ kept c s.ibuf := by
  have nonempty : s.ibuf ≠ [] := List.ne_nil_of_length_pos (Nat.lt_of_le_of_lt (Nat.zero_le _) full)
  rw [clean_ibuf size]
  unfold kept
  rw [if_pos full]
  cases c.lastRemove with
  | true => exact (take_ne_drop nodup nonempty _).symm
  | false => exact take_ne_drop nodup nonempty _

end Buffers

/-! ### Events -/

/-- The numbers of the messages of all writes and queries. -/
def numbers (s : DBServer) : List Nat :=
  s.base.map Write.n ++ s.ibuf.map Stamped.n ++ s.qbuf.map Stamped.n

/-- What holds between the events of a run that keeps the law. -/
structure Inv (c : Setup) (s : DBServer) : Prop where
  size : s.ibufSize = s.ibuf.length
  fits : s.ibufSize ≤ c.ibufMaxSize
  order : InOrder s
  stamps : ∀ n ∈ numbers s, n < s.arrived

section Events

variable {c : Setup} {s : DBServer}

theorem numbers_copy (copyOk : Bool) : numbers (s.copy copyOk) ⊆ numbers s := by
  unfold DBServer.copy
  split
  · exact List.Subset.refl _
  split
  · exact List.Subset.refl _
  split
  · intro n numbered
    have insert : (s.ibuf.map Write.insert).map Write.n = s.ibuf.map Stamped.n := by
      rw [List.map_map]
      rfl
    unfold numbers at numbered
    rw [List.map_append, insert, List.map_nil, List.append_nil] at numbered
    exact numbered
  · exact List.Subset.refl _

theorem numbers_flushBuffer (ok : Nat → Bool) : numbers (s.flushBuffer ok) ⊆ numbers s := by
  intro n numbered
  unfold numbers DBServer.flushBuffer at *
  simp only [List.map_append, List.map_map, List.map_nil, List.append_nil, List.mem_append] at numbered ⊢
  rcases numbered with (numbered | numbered) | numbered
  · exact Or.inl (Or.inl numbered)
  · obtain ⟨q, waits, rfl⟩ := List.mem_map.mp numbered
    exact Or.inr (List.mem_map.mpr ⟨q, (List.mem_filter.mp waits).1, rfl⟩)
  · exact Or.inl (Or.inr numbered)

theorem numbers_writeToBase (query : Stamped String) (ok : Nat → Bool) :
    numbers (s.writeToBase c query ok) ⊆ query.n :: numbers s := by
  unfold DBServer.writeToBase
  split
  · intro n numbered
    dsimp only at numbered
    have queries : ∀ q ∈ (if c.qbufSize < (s.qbuf ++ [query]).length then (s.qbuf ++ [query]).tail
        else s.qbuf ++ [query]), q ∈ s.qbuf ++ [query] := by
      split
      · exact fun q waits => List.mem_of_mem_tail waits
      · exact fun q waits => waits
    rcases List.mem_append.mp numbered with numbered | numbered
    · exact List.mem_cons_of_mem _ (List.mem_append_left _ numbered)
    · obtain ⟨q, waits, rfl⟩ := List.mem_map.mp numbered
      rcases List.mem_append.mp (queries q waits) with old | new
      · exact List.mem_cons_of_mem _ (List.mem_append_right _ (List.mem_map_of_mem old))
      · rw [List.mem_singleton.mp new]
        exact List.mem_cons_self
  · dsimp only
    split
    · intro n numbered
      unfold numbers at numbered
      rw [List.map_append, List.append_assoc, List.append_assoc, List.mem_append] at numbered
      rcases numbered with numbered | numbered
      · refine List.mem_cons_of_mem _ (numbers_flushBuffer ok ?_)
        exact List.mem_append_left _ (List.mem_append_left _ numbered)
      · rcases List.mem_append.mp numbered with here | numbered
        · rw [List.mem_singleton.mp here]
          exact List.mem_cons_self
        · refine List.mem_cons_of_mem _ (numbers_flushBuffer ok ?_)
          unfold numbers
          rw [List.append_assoc]
          exact List.mem_append_right _ numbered
    · exact fun n numbered => List.mem_cons_of_mem _ (numbers_flushBuffer ok numbered)

/-- Nothing is to be removed from a buffer that is not too long. -/
theorem kept_of_fits {ibuf : List (Stamped Record)} (fits : ibuf.length ≤ c.ibufMaxSize) :
    kept c ibuf = ibuf := by
  unfold kept
  rw [if_neg (Nat.not_lt.mpr fits)]

theorem flush_of_fits (fits : s.ibufSize ≤ c.ibufMaxSize) (copyOk : Bool) :
    s.flushInsertBuffer c copyOk = s.copy copyOk := by
  unfold DBServer.flushInsertBuffer
  rw [if_neg (Nat.not_lt.mpr fits)]

/-- The server with one more record. -/
def arrive (c : Setup) (s : DBServer) (si : SensorMessage) : DBServer :=
  { s with
    arrived := s.arrived + 1
    ibuf := s.ibuf ++ [⟨s.arrived, DBServer.record c si⟩]
    ibufSize := s.ibufSize + 1 }

theorem sensorInfo_eq (si : SensorMessage) (copyOk : Bool) : s.sensorInfo c si copyOk =
    if c.ibufMaxSize ≤ s.ibufSize + 1 then (arrive c s si).flushInsertBuffer c copyOk
    else arrive c s si := rfl

theorem Inv.arrive_size (inv : Inv c s) (si : SensorMessage) :
    (arrive c s si).ibufSize = (arrive c s si).ibuf.length := by
  show s.ibufSize + 1 = (s.ibuf ++ [_]).length
  rw [List.length_append, inv.size, List.length_singleton]

theorem Inv.arrive_order (inv : Inv c s) (si : SensorMessage) : InOrder (arrive c s si) := by
  unfold InOrder arrive
  dsimp only
  rw [List.map_append, ← List.append_assoc]
  refine List.pairwise_append.mpr ⟨inv.order, List.pairwise_singleton _ _, ?_⟩
  intro w sooner u later
  cases List.mem_singleton.mp later
  refine inv.stamps w.n (List.mem_append_left _ ?_)
  rcases List.mem_append.mp sooner with sooner | sooner
  · exact List.mem_append_left _ (List.mem_map_of_mem sooner)
  · obtain ⟨rec, inside, rfl⟩ := List.mem_map.mp sooner
    exact List.mem_append_right _ (List.mem_map.mpr ⟨rec, inside, rfl⟩)

theorem Inv.arrive_numbers (inv : Inv c s) (si : SensorMessage) :
    ∀ n ∈ numbers (arrive c s si), n < s.arrived + 1 := by
  intro n numbered
  unfold numbers arrive at numbered
  simp only [List.map_append, List.map_cons, List.map_nil, List.mem_append, List.mem_singleton] at numbered
  have old : n ∈ numbers s → n < s.arrived + 1 := fun numbered => Nat.lt_succ_of_lt (inv.stamps n numbered)
  rcases numbered with (numbered | numbered | rfl) | numbered
  · exact old (List.mem_append_left _ (List.mem_append_left _ numbered))
  · exact old (List.mem_append_left _ (List.mem_append_right _ numbered))
  · exact Nat.lt_succ_self _
  · exact old (List.mem_append_right _ numbered)

theorem InOrder.nodup (order : InOrder s) : s.ibuf.Nodup := by
  have ibuf := List.pairwise_map.mp (List.pairwise_append.mp order).2.1
  exact ibuf.imp fun {rec later} before same => by
    cases same
    exact Nat.lt_irrefl _ before

/-- **A record keeps the law** exactly if the buffer is not full. -/
theorem law_sensorInfo (inv : Inv c s) (si : SensorMessage) (copyOk : Bool) :
    Law c s (.sensorInfo si copyOk) ↔ s.ibufSize < c.ibufMaxSize := by
  show _ ∧ _ ∧ _ ↔ _
  dsimp only [DBServer.step, waiting]
  have size := inv.arrive_size si
  have order := inv.arrive_order si
  rw [sensorInfo_eq]
  constructor
  · rintro ⟨-, -, same⟩
    refine Nat.lt_of_not_le fun full => ?_
    have flushes : c.ibufMaxSize ≤ s.ibufSize + 1 := Nat.le_succ_of_le full
    have past : c.ibufMaxSize < (arrive c s si).ibufSize := Nat.lt_succ_of_le full
    rw [if_pos flushes, flush_waiting, if_pos past] at same
    exact clean_ne_kept size order.nodup (size ▸ past) (List.append_cancel_left same)
  · intro fits
    have room : (arrive c s si).ibufSize ≤ c.ibufMaxSize := fits
    have remains : kept c (arrive c s si).ibuf = (arrive c s si).ibuf := kept_of_fits (size ▸ room)
    split
    · rw [flush_of_fits room]
      refine ⟨size_copy size copyOk, order.copy copyOk, ?_⟩
      rw [copy_waiting]
      exact congrArg (records s.base ++ ·) remains.symm
    · exact ⟨size, order, congrArg (records s.base ++ ·) remains.symm⟩

theorem copy_ibuf (size : s.ibufSize = s.ibuf.length) (copyOk : Bool) (connected : s.connect_ok = true) :
    (s.copy copyOk).ibuf = if copyOk then [] else s.ibuf := by
  unfold DBServer.copy
  split
  · next empty =>
    have none : s.ibuf = [] := List.eq_nil_of_length_eq_zero (size.symm.trans empty)
    rw [none, ite_self]
  · rw [connected, if_neg (by decide)]
    split
    · rfl
    · rfl

@[simp] theorem copy_connect_ok (copyOk : Bool) : (s.copy copyOk).connect_ok = s.connect_ok := by
  unfold DBServer.copy
  split_ifs <;> rfl

@[simp] theorem copy_qbuf (copyOk : Bool) : (s.copy copyOk).qbuf = s.qbuf := by
  unfold DBServer.copy
  split_ifs <;> rfl

@[simp] theorem copy_arrived (copyOk : Bool) : (s.copy copyOk).arrived = s.arrived := by
  unfold DBServer.copy
  split_ifs <;> rfl

@[simp] theorem writeToBase_arrived (query : Stamped String) (ok : Nat → Bool) :
    (s.writeToBase c query ok).arrived = s.arrived := by
  unfold DBServer.writeToBase DBServer.flushBuffer
  dsimp only
  split_ifs <;> rfl

theorem copy_ibufSize_le (copyOk : Bool) : (s.copy copyOk).ibufSize ≤ s.ibufSize := by
  unfold DBServer.copy
  split_ifs
  · exact Nat.le_refl _
  · exact Nat.le_refl _
  · exact Nat.zero_le _
  · exact Nat.le_refl _

theorem flushBuffer_rest (ok : Nat → Bool) : (s.flushBuffer ok).ibuf = s.ibuf ∧
    (s.flushBuffer ok).ibufSize = s.ibufSize ∧
      records (s.flushBuffer ok).base = records s.base := by
  refine ⟨rfl, rfl, ?_⟩
  show records (s.base ++ _) = _
  rw [records_append, records_update, List.append_nil]

theorem writeToBase_rest (query : Stamped String) (ok : Nat → Bool) :
    (s.writeToBase c query ok).ibuf = s.ibuf ∧ (s.writeToBase c query ok).ibufSize = s.ibufSize ∧
      records (s.writeToBase c query ok).base = records s.base := by
  obtain ⟨ibuf, ibufSize, written⟩ := flushBuffer_rest (s := s) ok
  unfold DBServer.writeToBase
  split
  · exact ⟨rfl, rfl, rfl⟩
  · dsimp only
    split
    · refine ⟨ibuf, ibufSize, ?_⟩
      show records ((s.flushBuffer ok).base ++ [Write.update query].map id) = _
      rw [List.map_id, records_append, written]
      exact List.append_nil _
    · exact ⟨ibuf, ibufSize, written⟩

/-- **A confirmation keeps the law** exactly if what it writes is older than the records that stay. -/
theorem law_confirmInfo (inv : Inv c s) (cem : ConfirmMessage) (copyOk : Bool) (ok : Nat → Bool) :
    Law c s (.confirmInfo cem copyOk ok) ↔ (s.connect_ok = true → copyOk = false →
      Older ok (s.qbuf ++ [⟨s.arrived, DBServer.query c cem⟩]) s.ibuf) := by
  -- the server with one more message, behind the flush
  have flush : DBServer.flushInsertBuffer c { s with arrived := s.arrived + 1 } copyOk =
      DBServer.copy { s with arrived := s.arrived + 1 } copyOk :=
    flush_of_fits (s := { s with arrived := s.arrived + 1 }) inv.fits copyOk
  generalize started : ({ s with arrived := s.arrived + 1 } : DBServer) = u at flush
  have order : InOrder u := started ▸ inv.order
  have size : u.ibufSize = u.ibuf.length := started ▸ inv.size
  obtain ⟨ibuf, ibufSize, written⟩ := writeToBase_rest (c := c) (s := u.copy copyOk)
    ⟨s.arrived, DBServer.query c cem⟩ ok
  have step : s.step c (.confirmInfo cem copyOk ok) =
      (u.copy copyOk).writeToBase c ⟨s.arrived, DBServer.query c cem⟩ ok := by
    show DBServer.writeToBase c (DBServer.flushInsertBuffer c _ copyOk) _ ok = _
    rw [started, flush]
  have kept : waiting c s (.confirmInfo cem copyOk ok) = u.ibuf :=
    (kept_of_fits (inv.size ▸ inv.fits)).trans (started ▸ rfl)
  show _ ∧ _ ∧ _ ↔ _
  rw [step, kept, ibuf, ibufSize, written, copy_waiting]
  have records : records u.base = records s.base := started ▸ rfl
  rw [and_iff_right (size_copy size copyOk), records, and_iff_left rfl,
    inOrder_writeToBase (order.copy copyOk), copy_connect_ok, copy_qbuf]
  have same : u.connect_ok = s.connect_ok ∧ u.qbuf = s.qbuf ∧ u.ibuf = s.ibuf := by
    subst started
    exact ⟨rfl, rfl, rfl⟩
  rw [same.1, same.2.1]
  refine forall_congr' fun connected => ?_
  rw [copy_ibuf size copyOk (same.1.trans connected), same.2.2]
  cases copyOk with
  | true => exact iff_of_true (fun _ _ _ _ rec => nomatch rec) fun copied => nomatch copied
  | false => exact ⟨fun older _ => older, fun older => older rfl⟩

variable {e : Event}

theorem law_flushBuffer (inv : Inv c s) {ok : Nat → Bool} {u : DBServer} (connect_ok : Bool)
    (step : s.step c e = u.flushBuffer ok) (same : u = { s with connect_ok := connect_ok })
    (remains : waiting c s e = s.ibuf) :
    Law c s e ↔ Older ok s.qbuf s.ibuf := by
  have order : InOrder u := by
    rw [same]
    exact inv.order
  obtain ⟨ibuf, ibufSize, written⟩ := flushBuffer_rest (s := u) ok
  show _ ∧ _ ∧ _ ↔ _
  rw [step, remains, ibuf, ibufSize, written, inOrder_flushBuffer order]
  have fields : u.ibuf = s.ibuf ∧ u.ibufSize = s.ibufSize ∧ u.base = s.base ∧ u.qbuf = s.qbuf := by
    rw [same]
    exact ⟨rfl, rfl, rfl, rfl⟩
  rw [fields.1, fields.2.1, fields.2.2.1, fields.2.2.2, and_iff_right inv.size, and_iff_left rfl]

/-- An event that only concerns the connection. -/
theorem law_same (inv : Inv c s) (connect_ok : Bool)
    (same : s.step c e = { s with connect_ok := connect_ok }) (remains : waiting c s e = s.ibuf) :
    Law c s e := by
  show _ ∧ _ ∧ _
  rw [same, remains]
  exact ⟨inv.size, inv.order, rfl⟩

theorem deactivateObject_eq (ok : Nat → Bool) :
    s.deactivateObject ok = if s.connect_ok then s.flushBuffer ok else s := rfl

theorem law_deactivateObject (inv : Inv c s) (ok : Nat → Bool) :
    Law c s (.deactivateObject ok) ↔ (s.connect_ok = true → Older ok s.qbuf s.ibuf) := by
  cases connected : s.connect_ok with
  | false =>
    have step : s.step c (.deactivateObject ok) = s := by
      show s.deactivateObject ok = s
      rw [deactivateObject_eq, connected, if_neg Bool.false_ne_true]
    exact iff_of_true (law_same inv s.connect_ok step rfl) nofun
  | true =>
    have step : s.step c (.deactivateObject ok) = s.flushBuffer ok := by
      show s.deactivateObject ok = _
      rw [deactivateObject_eq, connected, if_pos rfl]
    rw [law_flushBuffer inv s.connect_ok step rfl rfl]
    exact ⟨fun older _ => older, fun older => older rfl⟩

theorem reconnectTimer_eq (isConnection ping reconnect : Bool) (ok : Nat → Bool) :
    s.reconnectTimer isConnection ping reconnect ok =
      if isConnection then { s with connect_ok := ping }
      else if s.connect_ok = false ∧ reconnect = true then
        { s with connect_ok := true }.flushBuffer ok
      else s := by
  unfold DBServer.reconnectTimer DBServer.initDBServer
  cases isConnection with
  | true => rfl
  | false => cases s.connect_ok <;> cases reconnect <;> rfl

theorem law_reconnectTimer (inv : Inv c s) (isConnection ping reconnect : Bool) (ok : Nat → Bool) :
    Law c s (.reconnectTimer isConnection ping reconnect ok) ↔ (isConnection = false →
      s.connect_ok = false → reconnect = true → Older ok s.qbuf s.ibuf) := by
  have step : s.step c (.reconnectTimer isConnection ping reconnect ok) = _ :=
    reconnectTimer_eq isConnection ping reconnect ok
  cases isConnection with
  | true => exact iff_of_true (law_same inv ping step rfl) nofun
  | false =>
    rw [if_neg Bool.false_ne_true] at step
    by_cases new : s.connect_ok = false ∧ reconnect = true
    · rw [if_pos new] at step
      rw [law_flushBuffer inv true step rfl rfl]
      exact ⟨fun older _ _ _ => older, fun older => older rfl new.1 new.2⟩
    · rw [if_neg new] at step
      refine iff_of_true (law_same inv s.connect_ok step rfl) fun _ lost more => ?_
      exact absurd ⟨lost, more⟩ new

/-- **An event keeps the law exactly if it meets the condition.** -/
theorem law_step (inv : Inv c s) (e : Event) : Law c s e ↔ Fits c s e := by
  cases e with
  | sensorInfo si copyOk => exact law_sensorInfo inv si copyOk
  | confirmInfo cem copyOk ok => exact law_confirmInfo inv cem copyOk ok
  | pingTimer ping => exact iff_of_true (law_same inv ping rfl rfl) trivial
  | flushTimer copyOk =>
    refine iff_of_true ?_ trivial
    show _ ∧ _ ∧ _
    dsimp only [DBServer.step, waiting]
    rw [flush_of_fits inv.fits, copy_waiting, kept_of_fits (inv.size ▸ inv.fits)]
    exact ⟨size_copy inv.size copyOk, inv.order.copy copyOk, rfl⟩
  | deactivateObject ok => exact law_deactivateObject inv ok
  | reconnectTimer isConnection ping reconnect ok =>
    exact law_reconnectTimer inv isConnection ping reconnect ok

/-! ### Runs -/

/-- The buffer is in its limit behind an event. -/
theorem fits_step (inv : Inv c s) (fits : Fits c s e) : (s.step c e).ibufSize ≤ c.ibufMaxSize := by
  cases e with
  | sensorInfo si copyOk =>
    show (s.sensorInfo c si copyOk).ibufSize ≤ _
    rw [sensorInfo_eq]
    have room : (arrive c s si).ibufSize ≤ c.ibufMaxSize := fits
    split
    · rw [flush_of_fits room]
      exact (copy_ibufSize_le copyOk).trans room
    · exact room
  | confirmInfo cem copyOk ok =>
    show (DBServer.writeToBase c _ _ ok).ibufSize ≤ _
    rw [(writeToBase_rest _ ok).2.1, flush_of_fits (s := { s with arrived := s.arrived + 1 }) inv.fits]
    exact (copy_ibufSize_le copyOk).trans inv.fits
  | pingTimer ping => exact inv.fits
  | flushTimer copyOk =>
    show (s.flushInsertBuffer c copyOk).ibufSize ≤ _
    rw [flush_of_fits inv.fits]
    exact (copy_ibufSize_le copyOk).trans inv.fits
  | deactivateObject ok =>
    show (s.deactivateObject ok).ibufSize ≤ _
    rw [deactivateObject_eq]
    split
    · exact inv.fits
    · exact inv.fits
  | reconnectTimer isConnection ping reconnect ok =>
    show (s.reconnectTimer isConnection ping reconnect ok).ibufSize ≤ _
    rw [reconnectTimer_eq]
    split_ifs
    · exact inv.fits
    · exact inv.fits
    · exact inv.fits

theorem stamps_step (inv : Inv c s) (fits : Fits c s e) :
    ∀ n ∈ numbers (s.step c e), n < (s.step c e).arrived := by
  cases e with
  | sensorInfo si copyOk =>
    show ∀ n ∈ numbers (s.sensorInfo c si copyOk), n < (s.sensorInfo c si copyOk).arrived
    rw [sensorInfo_eq]
    have room : (arrive c s si).ibufSize ≤ c.ibufMaxSize := fits
    have all := inv.arrive_numbers si
    split
    · rw [flush_of_fits room, copy_arrived]
      exact fun n numbered => all n (numbers_copy copyOk numbered)
    · exact all
  | confirmInfo cem copyOk ok =>
    show ∀ n ∈ numbers (DBServer.writeToBase c _ _ ok), n < (DBServer.writeToBase c _ _ ok).arrived
    rw [writeToBase_arrived, flush_of_fits (s := { s with arrived := s.arrived + 1 }) inv.fits,
      copy_arrived]
    intro n numbered
    rcases List.mem_cons.mp (numbers_writeToBase _ ok numbered) with rfl | old
    · exact Nat.lt_succ_self _
    · have here := numbers_copy (s := { s with arrived := s.arrived + 1 }) copyOk old
      exact Nat.lt_succ_of_lt (inv.stamps n here)
  | pingTimer ping => exact inv.stamps
  | flushTimer copyOk =>
    show ∀ n ∈ numbers (s.flushInsertBuffer c copyOk), n < (s.flushInsertBuffer c copyOk).arrived
    rw [flush_of_fits inv.fits, copy_arrived]
    exact fun n numbered => inv.stamps n (numbers_copy copyOk numbered)
  | deactivateObject ok =>
    show ∀ n ∈ numbers (s.deactivateObject ok), n < (s.deactivateObject ok).arrived
    rw [deactivateObject_eq]
    split
    · exact fun n numbered => inv.stamps n (numbers_flushBuffer ok numbered)
    · exact inv.stamps
  | reconnectTimer isConnection ping reconnect ok =>
    show ∀ n ∈ numbers (s.reconnectTimer isConnection ping reconnect ok),
      n < (s.reconnectTimer isConnection ping reconnect ok).arrived
    rw [reconnectTimer_eq]
    split_ifs
    · exact inv.stamps
    · intro n numbered
      exact inv.stamps n (numbers_flushBuffer (s := { s with connect_ok := true }) ok numbered)
    · exact inv.stamps

/-- **An event that keeps the law keeps the invariant.** -/
theorem Inv.step (inv : Inv c s) (law : Law c s e) : Inv c (s.step c e) := by
  have fits := (law_step inv e).mp law
  exact ⟨law.1, fits_step inv fits, law.2.1, stamps_step inv fits⟩

theorem inv_start (start : (machine c).start s) : Inv c s := by
  obtain ⟨qbuf, ibuf, ibufSize, base⟩ := start
  refine ⟨?_, ?_, ?_, ?_⟩
  · rw [ibuf, ibufSize]
    rfl
  · rw [ibufSize]
    exact Nat.zero_le _
  · unfold InOrder
    rw [base, ibuf]
    exact List.Pairwise.nil
  · unfold numbers
    rw [base, ibuf, qbuf]
    exact nofun

/-- **A run keeps the law exactly if each event meets the condition.** -/
theorem records_law_iff (start : (machine c).start s) (events : List Event) :
    (machine c).Meets (Law c) s events ↔ (machine c).Meets (Fits c) s events :=
  Lib.Machine.meets_iff_meets (fun s e inv (_ : True) => law_step inv e)
    (fun s e t inv _ law stepped => by
      cases stepped
      exact Inv.step inv law) (fun _ _ => trivial) (inv_start start)

end Events

/-! ### A data base that is not there -/

/-- A buffer of two records. -/
def two : Setup where
  qbufSize := 200
  lastRemove := false
  ibufMaxSize := 2
  ibufOverflowCleanFactor := 1 / 2
  dateToString := fun sec _ => toString sec
  timeToString := fun sec _ => toString sec
  maxSize_pos := by decide
  factor_nonneg := by norm_num
  factor_le_one := by norm_num

/-- The server before it is connected. -/
def DBServer.initial : DBServer := ⟨false, [], [], 0, 0, []⟩

theorem initial_start : (machine two).start DBServer.initial := ⟨rfl, rfl, rfl, rfl⟩

/-- Two records and a confirmation wait for the connection; the records are written first. -/
def outage : List Event :=
  [.confirmInfo ⟨9, 1, 5, 0⟩ false fun _ => true, .sensorInfo ⟨6, 0, 1, 7, 0⟩ false,
    .sensorInfo ⟨7, 0, 1, 8, 0⟩ false, .reconnectTimer false false true fun _ => true,
    .flushTimer true]

theorem outage_law : (machine two).Meets (Law two) DBServer.initial outage := by
  refine (records_law_iff initial_start outage).mpr ⟨nofun, ?_⟩
  rintro _ ⟨⟩
  refine ⟨(by decide : 0 < 2), ?_⟩
  rintro _ ⟨⟩
  refine ⟨(by decide : 1 < 2), ?_⟩
  rintro _ ⟨⟩
  refine ⟨fun _ _ _ q listed _ rec inside => ?_, ?_⟩
  · -- the query is the first message
    cases List.mem_singleton.mp listed
    rcases List.mem_cons.mp inside with rfl | inside
    · decide
    · cases List.mem_singleton.mp inside
      decide
  rintro _ ⟨⟩
  exact ⟨trivial, fun _ _ => trivial⟩

/-- A third record overflows the buffer: one record is counted, two are there, the newest is lost. -/
theorem overflow_breaks : ¬ ∀ (c : Setup) (s : DBServer) (events : List Event), (machine c).start s →
    (machine c).Meets (Law c) s events := by
  intro holds
  have run := holds two DBServer.initial
    [.sensorInfo ⟨6, 0, 1, 7, 0⟩ false, .sensorInfo ⟨7, 0, 1, 8, 0⟩ false,
      .sensorInfo ⟨8, 0, 1, 9, 0⟩ false] initial_start
  have size := (((run.2 _ rfl).2 _ rfl).1).1
  revert size
  decide +kernel

end UniSet.DBServerPostgreSQL
