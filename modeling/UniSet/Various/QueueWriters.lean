/-
**`MQAtomic` with many writers and one reader, atomic operation by atomic operation.**

A call of `push` reserves a place, stores its message there and publishes one message more; `top`
compares the counters only, so what it takes to be published is the oldest reserved place, whichever
writer has published. A run has any number of calls of `push`, each with its own message, and one
reader that calls `top` again and again; the strategy is `lostOldData`, no counter wraps, and never
more messages are outstanding than the ring has places.

* `Shared` — the queue, where every call stands, and the results that `top` claimed.
* `InOrder` — a writer publishes only when the oldest unpublished place has its message.
* `Exact` — what `top` returned are the messages in the order of their reservations, each once, and a
  reader that goes on after the last `push` returns them all.
* **`returns_exactly_once`** — every state reached by steps in order is exact;
  `early_publication_returns_null` is a writer that publishes before another has stored.
-/

import Mathlib.Data.List.Nodup
import Mathlib.Logic.Function.Basic
import UniSet.Various.MessageQueue

set_option linter.unusedSectionVars false

namespace UniSet.Various

open Function

variable {ι α : Type}

/-- Where a call of `push` stands. -/
inductive Writer
  | idle
  | reserved (w : UInt64)
  | stored (w : UInt64)
  | published (w : UInt64)
deriving DecidableEq, Repr

/-- The place that was reserved. -/
def Writer.ticket : Writer → Option UInt64
  | .idle => none
  | .reserved w | .stored w | .published w => some w

/-- The message is in its place. -/
def Writer.hasStored : Writer → Bool
  | .stored _ | .published _ => true
  | _ => false

def Writer.hasPublished : Writer → Bool
  | .published _ => true
  | _ => false

/-- Where the reader stands in `top`: the operation it performs next. -/
inductive Reader
  | idle
  /-- `rpos.store( wpos - SizeOfMessageQueue )`: the load of `wpos`. -/
  | pull
  /-- The store of it. -/
  | pullTo (w : UInt64)
  /-- `rpos == qpos`. -/
  | look
  /-- `rpos < qpos`. -/
  | compare
  /-- `rpos.fetch_add(1)`. -/
  | take
  /-- The read of the place. -/
  | read (r : UInt64)
  /-- `rpos > qpos`. -/
  | beyond
  /-- The test on the scale of the ring. -/
  | wrapped
  /-- `rpos.store( qpos - SizeOfMessageQueue )`: the load of `qpos`. -/
  | pullBack
  /-- The store of it. -/
  | pullBackTo (p : UInt64)
deriving DecidableEq, Repr

/-- **One operation of `top`**, with the message that it returns for a place it has claimed. -/
def Reader.next (q : MQAtomic α) : Reader → MQAtomic α × Reader × Option (Option α)
  | .idle => (q, if q.lostStrategy = .lostOldData ∧ q.full then .pull else .look, none)
  | .pull => (q, .pullTo q.wpos, none)
  | .pullTo w => (q.pull w, .look, none)
  | .look => (q, if q.rpos = q.qpos then .idle else .compare, none)
  | .compare => (q, if q.rpos < q.qpos then .take else .beyond, none)
  | .take => (q.take.1, .read q.rpos, none)
  | .read r => (q, .idle, some (q.mqueue.getD (q.slot r) none))
  | .beyond => (q, if q.qpos < q.rpos then .wrapped else .idle, none)
  | .wrapped => (q, if q.lostStrategy = .lostOldData ∧ q.behindWrapped then .pullBack else .take, none)
  | .pullBack => (q, .pullBackTo q.qpos, none)
  | .pullBackTo p => (q.pull p, .take, none)

/-- **The queue and its users.** -/
structure Shared (ι α : Type) where
  queue : MQAtomic α
  writers : ι → Writer
  reader : Reader
  /-- The calls of `push` in the order of their reservations. -/
  tickets : List ι
  /-- What `top` has returned for the places it claimed. -/
  returned : List (Option α)

/-- The step of a call of `push`, or of the reader. -/
inductive Turn (ι : Type)
  | reserve (i : ι)
  | store (i : ι)
  | publish (i : ι)
  | reader
deriving DecidableEq, Repr

/-- One operation of the reader. -/
def Shared.turn (s : Shared ι α) : Shared ι α :=
  let after := s.reader.next s.queue
  { s with
    queue := after.1
    reader := after.2.1
    returned := s.returned ++ after.2.2.toList }

variable [DecidableEq ι]

/-- **One atomic operation.** A place is reserved only while fewer messages are outstanding than the
ring has places, and only if the counter does not wrap. -/
def Shared.step (msg : ι → α) (s : Shared ι α) : Turn ι → Option (Shared ι α)
  | .reserve i =>
    match s.writers i with
    | .idle =>
      if s.tickets.length < s.returned.length + s.queue.sizeOfMessageQueue.toNat ∧
          s.queue.wpos + 1 ≠ 0 then
        some { s with
          queue := s.queue.reserve
          writers := update s.writers i (.reserved s.queue.wpos)
          tickets := s.tickets ++ [i] }
      else none
    | _ => none
  | .store i =>
    match s.writers i with
    | .reserved w =>
      some { s with
        queue := s.queue.store w (some (msg i))
        writers := update s.writers i (.stored w) }
    | _ => none
  | .publish i =>
    match s.writers i with
    | .stored w =>
      some { s with
        queue := s.queue.publish
        writers := update s.writers i (.published w) }
    | _ => none
  | .reader => some s.turn

/-- **All interleavings** over a new queue; every call `i` of `push` has its message `msg i`. -/
def interleavings (capacity : UInt64) (msg : ι → α) : Lib.Machine (Shared ι α) (Turn ι) where
  start s := s = ⟨.new capacity .lostOldData, fun _ => .idle, .idle, [], []⟩
  step s turn := s.step msg turn

/-- **The condition**: a writer publishes only when the oldest unpublished place has its message. -/
def InOrder (s : Shared ι α) : Turn ι → Prop
  | .publish _ => ∃ j ∈ s.tickets[s.queue.qpos.toNat]?, (s.writers j).hasStored = true
  | _ => True

instance (s : Shared ι α) (turn : Turn ι) : Decidable (InOrder s turn) := by
  unfold InOrder
  split <;> infer_instance

/-- **Every message is returned exactly once.** -/
structure Exact (capacity : UInt64) (msg : ι → α) (s : Shared ι α) : Prop where
  /-- No call has two places. -/
  distinct : s.tickets.Nodup
  /-- What `top` returned for the places it claimed are the messages, in the order of the
  reservations. -/
  claimed : s.returned = (s.tickets.take s.returned.length).map fun i => some (msg i)
  /-- When every call has ended, the reader alone returns the rest. -/
  complete : (∀ i ∈ s.tickets, (s.writers i).hasPublished = true) →
    ∃ n t, (interleavings capacity msg).run s (List.replicate n .reader) = some t ∧
      t.tickets = s.tickets ∧ t.returned = s.tickets.map fun i => some (msg i)

/-! ### The invariant -/

/-- Where the reader can stand: its position is the number of messages it has returned, and one more
while it reads a place it has claimed. -/
def Reader.Fits (s : Shared ι α) : Reader → Prop
  | .idle | .look => s.queue.rpos.toNat = s.returned.length
  | .pull => s.queue.rpos.toNat = s.returned.length ∧
    s.tickets.length = s.returned.length + s.queue.sizeOfMessageQueue.toNat
  | .pullTo w => s.queue.rpos.toNat = s.returned.length ∧
    s.tickets.length = s.returned.length + s.queue.sizeOfMessageQueue.toNat ∧ w = s.queue.wpos
  | .compare | .take => s.queue.rpos.toNat = s.returned.length ∧
    s.returned.length < s.queue.qpos.toNat
  | .read r => r.toNat = s.returned.length ∧ s.queue.rpos.toNat = s.returned.length + 1 ∧
    s.returned.length < s.queue.qpos.toNat
  | _ => False

/-- **The invariant.** -/
structure Orderly (msg : ι → α) (s : Shared ι α) : Prop where
  strategy : s.queue.lostStrategy = .lostOldData
  positive : 1 ≤ s.queue.sizeOfMessageQueue.toNat
  places : s.queue.mqueue.length = s.queue.sizeOfMessageQueue.toNat
  distinct : s.tickets.Nodup
  started : ∀ i, i ∈ s.tickets → s.writers i ≠ .idle
  wpos : s.queue.wpos.toNat = s.tickets.length
  ticket : ∀ i w, (s.writers i).ticket = some w → s.tickets[w.toNat]? = some i
  qpos : s.queue.qpos.toNat = s.tickets.countP fun i => (s.writers i).hasPublished
  /-- What counts as published has been stored. -/
  ready : ∀ k < s.queue.qpos.toNat, ∀ i ∈ s.tickets[k]?, (s.writers i).hasStored = true
  /-- What has been stored and not returned is in its place. -/
  held : ∀ k i, s.tickets[k]? = some i → s.returned.length ≤ k → (s.writers i).hasStored = true →
    s.queue.held k = some (msg i)
  claimed : s.returned = (s.tickets.take s.returned.length).map fun i => some (msg i)
  behind : s.returned.length ≤ s.queue.qpos.toNat
  room : s.tickets.length ≤ s.returned.length + s.queue.sizeOfMessageQueue.toNat
  reader : s.reader.Fits s

variable {msg : ι → α} {s t : Shared ι α}

theorem Orderly.qpos_le (orderly : Orderly msg s) : s.queue.qpos.toNat ≤ s.tickets.length := by
  rw [orderly.qpos]
  exact List.countP_le_length

/-- The writers' steps leave the reader where it was. -/
theorem Reader.Fits.mono {reader : Reader} (fits : reader.Fits s)
    (rpos : t.queue.rpos = s.queue.rpos) (returned : t.returned = s.returned)
    (size : t.queue.sizeOfMessageQueue = s.queue.sizeOfMessageQueue)
    (qpos : s.queue.qpos.toNat ≤ t.queue.qpos.toNat)
    (wpos : (t.queue.wpos = s.queue.wpos ∧ t.tickets.length = s.tickets.length) ∨
      s.tickets.length < s.returned.length + s.queue.sizeOfMessageQueue.toNat) :
    reader.Fits t := by
  cases reader with
  | idle | look =>
    show t.queue.rpos.toNat = t.returned.length
    rw [rpos, returned]
    exact fits
  | pull =>
    obtain ⟨position, full⟩ := fits
    rcases wpos with ⟨-, tickets⟩ | room
    · show t.queue.rpos.toNat = t.returned.length ∧
        t.tickets.length = t.returned.length + t.queue.sizeOfMessageQueue.toNat
      rw [rpos, returned, size, tickets]
      exact ⟨position, full⟩
    · omega
  | pullTo w =>
    obtain ⟨position, full, read⟩ := fits
    rcases wpos with ⟨wpos, tickets⟩ | room
    · show t.queue.rpos.toNat = t.returned.length ∧
        t.tickets.length = t.returned.length + t.queue.sizeOfMessageQueue.toNat ∧ w = t.queue.wpos
      rw [rpos, returned, size, tickets, wpos]
      exact ⟨position, full, read⟩
    · omega
  | compare | take =>
    obtain ⟨position, below⟩ := fits
    show t.queue.rpos.toNat = t.returned.length ∧ t.returned.length < t.queue.qpos.toNat
    rw [rpos, returned]
    exact ⟨position, Nat.lt_of_lt_of_le below qpos⟩
  | read r =>
    obtain ⟨place, position, below⟩ := fits
    show r.toNat = t.returned.length ∧ t.queue.rpos.toNat = t.returned.length + 1 ∧
      t.returned.length < t.queue.qpos.toNat
    rw [rpos, returned]
    exact ⟨place, position, Nat.lt_of_lt_of_le below qpos⟩
  | beyond | wrapped | pullBack | pullBackTo _ => exact fits

variable {i : ι}

theorem Orderly.absent (orderly : Orderly msg s) (idle : s.writers i = .idle) : i ∉ s.tickets :=
  fun member => orderly.started i member idle

theorem Orderly.update_of_mem (orderly : Orderly msg s) {j : ι} (idle : s.writers i = .idle)
    (writer : Writer) (member : j ∈ s.tickets) :
    update s.writers i writer j = s.writers j := by
  refine update_of_ne ?_ _ _
  rintro rfl
  exact orderly.absent idle member

theorem toNat_succ_of_ne_zero {w : UInt64} (more : w + 1 ≠ 0) : (w + 1).toNat = w.toNat + 1 := by
  have apart : (w + 1).toNat ≠ 0 := fun zero => more (UInt64.toNat_inj.mp zero)
  rw [UInt64.toNat_add, UInt64.toNat_one] at apart ⊢
  have := w.toNat_lt
  omega

omit [DecidableEq ι] in
/-- A ticket other than the last one was there before. -/
theorem getElem?_of_concat {tickets : List ι} {j : ι} {k : Nat}
    (found : (tickets ++ [i])[k]? = some j) (other : ¬ j = i) : tickets[k]? = some j := by
  rcases Nat.lt_or_ge k tickets.length with inside | outside
  · rw [← found, List.getElem?_append_left inside]
  · rw [List.getElem?_append_right outside] at found
    exact absurd (List.mem_singleton.mp (List.mem_of_getElem? found)) other

/-- **A reservation keeps the invariant.** -/
theorem Orderly.reserve (orderly : Orderly msg s) (idle : s.writers i = .idle)
    (room : s.tickets.length < s.returned.length + s.queue.sizeOfMessageQueue.toNat)
    (more : s.queue.wpos + 1 ≠ 0) :
    Orderly msg { s with
      queue := s.queue.reserve
      writers := update s.writers i (.reserved s.queue.wpos)
      tickets := s.tickets ++ [i] } := by
  have absent := orderly.absent idle
  have other : ∀ j ∈ s.tickets, update s.writers i (.reserved s.queue.wpos) j =
      s.writers j := fun j member => orderly.update_of_mem idle _ member
  have le := orderly.qpos_le
  constructor
  · exact orderly.strategy
  · exact orderly.positive
  · exact orderly.places
  · dsimp only
    rw [← List.concat_eq_append]
    exact List.Nodup.concat absent orderly.distinct
  · intro j member
    rcases List.mem_append.mp member with old | new
    · dsimp only
      rw [other j old]
      exact orderly.started j old
    · cases List.mem_singleton.mp new
      dsimp only
      rw [update_self]
      exact nofun
  · show (s.queue.wpos + 1).toNat = (s.tickets ++ [i]).length
    rw [toNat_succ_of_ne_zero more, orderly.wpos, List.length_append, List.length_singleton]
  · intro j w ticket
    dsimp only at ticket ⊢
    by_cases own : j = i
    · subst own
      rw [update_self] at ticket
      cases ticket
      rw [orderly.wpos]
      simp
    · rw [update_of_ne own] at ticket
      have found := orderly.ticket j w ticket
      obtain ⟨below, -⟩ := List.getElem?_eq_some_iff.mp found
      exact (List.getElem?_append_left below).trans found
  · show s.queue.qpos.toNat = _
    rw [orderly.qpos, List.countP_append]
    have same : s.tickets.countP (fun i => (s.writers i).hasPublished) =
        s.tickets.countP fun j =>
          (update s.writers i (.reserved s.queue.wpos) j).hasPublished := by
      refine List.countP_congr fun j member => ?_
      rw [other j member]
    rw [same]
    simp [Writer.hasPublished]
  · intro k below j found
    have inside : k < s.tickets.length := Nat.lt_of_lt_of_le below le
    dsimp only at found ⊢
    rw [List.getElem?_append_left inside] at found
    rw [other j (List.mem_of_getElem? found)]
    exact orderly.ready k below j found
  · intro k j found from_ stored
    dsimp only at found stored
    by_cases own : j = i
    · subst own
      rw [update_self] at stored
      cases stored
    · rw [update_of_ne own] at stored
      exact orderly.held k j (getElem?_of_concat found own) from_ stored
  · have short : s.returned.length ≤ s.tickets.length := Nat.le_trans orderly.behind le
    dsimp only
    rw [List.take_append_of_le_length short]
    exact orderly.claimed
  · exact orderly.behind
  · show (s.tickets ++ [i]).length ≤ _
    rw [List.length_append, List.length_singleton]
    exact room
  · exact orderly.reader.mono rfl rfl rfl (Nat.le_refl _) (.inr room)

theorem Orderly.writer (orderly : Orderly msg s) {w : UInt64} {writer : Writer}
    (ticket : (s.writers i).ticket = some w) (same : writer.ticket = some w) :
    (∀ j, j ∈ s.tickets → update s.writers i writer j ≠ .idle) ∧
      ∀ j v, (update s.writers i writer j).ticket = some v →
        s.tickets[v.toNat]? = some j := by
  constructor
  · intro j member
    by_cases own : j = i
    · rw [own, update_self]
      rintro rfl
      cases same
    · rw [update_of_ne own]
      exact orderly.started j member
  · intro j v has
    by_cases own : j = i
    · rw [own, update_self, same] at has
      cases has
      rw [own]
      exact orderly.ticket i w ticket
    · rw [update_of_ne own] at has
      exact orderly.ticket j v has

/-- A step of a call that does not change a property of it changes it for no call. -/
theorem update_congr {β : Type*} (f : Writer → β) {writers : ι → Writer} {writer : Writer}
    (same : f writer = f (writers i)) (j : ι) :
    f (update writers i writer j) = f (writers j) := by
  by_cases own : j = i
  · rw [own, update_self, same]
  · rw [update_of_ne own]

/-- **A store keeps the invariant.** -/
theorem Orderly.store (orderly : Orderly msg s) {w : UInt64}
    (reserved : s.writers i = .reserved w) :
    Orderly msg { s with
      queue := s.queue.store w (some (msg i))
      writers := update s.writers i (.stored w) } := by
  have found : s.tickets[w.toNat]? = some i := orderly.ticket i w (by rw [reserved]; rfl)
  obtain ⟨inside, -⟩ := List.getElem?_eq_some_iff.mp found
  -- the place is not yet published, so the reader has not passed it
  have unpublished : s.queue.qpos.toNat ≤ w.toNat := by
    by_contra before
    have stored := orderly.ready w.toNat (by omega) i found
    rw [reserved] at stored
    cases stored
  have behind := orderly.behind
  have room := orderly.room
  obtain ⟨started, ticket⟩ := orderly.writer (i := i) (w := w) (by rw [reserved]; rfl)
    (show (Writer.stored w).ticket = some w from rfl)
  constructor
  · exact orderly.strategy
  · exact orderly.positive
  · show (s.queue.mqueue.set _ _).length = _
    rw [List.length_set]
    exact orderly.places
  · exact orderly.distinct
  · exact started
  · exact orderly.wpos
  · exact ticket
  · show s.queue.qpos.toNat = _
    rw [orderly.qpos]
    refine List.countP_congr fun j _ => ?_
    rw [update_congr Writer.hasPublished (show (Writer.stored w).hasPublished = _ by rw [reserved]; rfl) j]
  · intro k below j at_
    dsimp only at at_ ⊢
    by_cases own : j = i
    · rw [own, update_self]
      rfl
    · rw [update_of_ne own]
      exact orderly.ready k below j at_
  · intro k j at_ from_ stored
    dsimp only at at_ from_ stored ⊢
    obtain ⟨below, -⟩ := List.getElem?_eq_some_iff.mp at_
    rw [MQAtomic.held_store orderly.positive orderly.places]
    by_cases own : j = i
    · subst own
      have same : w.toNat = k :=
        (List.getElem?_inj inside orderly.distinct).mp (found.trans at_.symm)
      rw [same, if_pos rfl]
    · have apart : w.toNat ≠ k := by
        rintro rfl
        exact own (Option.some.inj (at_.symm.trans found))
      rw [update_of_ne own] at stored
      rw [if_neg]
      · exact orderly.held k j at_ from_ stored
      · rcases Nat.lt_or_gt_of_ne apart with less | greater
        · exact (place_ne less (by omega)).symm
        · exact place_ne greater (by omega)
  · exact orderly.claimed
  · exact orderly.behind
  · exact orderly.room
  · exact orderly.reader.mono rfl rfl rfl (Nat.le_refl _) (.inl ⟨rfl, rfl⟩)

/-- One element more of a list without repetitions. -/
theorem countP_one_more {l : List ι} (distinct : l.Nodup) (member : i ∈ l) {p p' : ι → Bool}
    (off : p i = false) (new : p' i = true) (others : ∀ j, j ≠ i → p' j = p j) :
    l.countP p' = l.countP p + 1 := by
  have perm := List.perm_cons_erase member
  rw [perm.countP_eq, perm.countP_eq, List.countP_cons_of_pos new,
    List.countP_cons_of_neg (by simp [off])]
  congr 1
  refine List.countP_congr fun j inRest => ?_
  rw [others j]
  rintro rfl
  exact distinct.not_mem_erase inRest

/-- **A publication in order keeps the invariant.** -/
theorem Orderly.publish (orderly : Orderly msg s) {w : UInt64} (stored : s.writers i = .stored w)
    (inOrder : InOrder s (.publish i)) :
    Orderly msg { s with
      queue := s.queue.publish
      writers := update s.writers i (.published w) } := by
  have found : s.tickets[w.toNat]? = some i := orderly.ticket i w (by rw [stored]; rfl)
  have member := List.mem_of_getElem? found
  obtain ⟨started, ticket⟩ := orderly.writer (i := i) (w := w) (by rw [stored]; rfl)
    (show (Writer.published w).ticket = some w from rfl)
  -- one call more has published
  have counted : s.tickets.countP (fun j =>
      (update s.writers i (.published w) j).hasPublished) =
        s.tickets.countP (fun j => (s.writers j).hasPublished) + 1 := by
    refine countP_one_more orderly.distinct member ?_ ?_ fun j own => ?_
    · rw [stored]
      rfl
    · rw [update_self]
      rfl
    · rw [update_of_ne own]
  have bound : s.tickets.countP (fun j =>
      (update s.writers i (.published w) j).hasPublished) ≤ s.tickets.length :=
    List.countP_le_length
  have next : (s.queue.qpos + 1).toNat = s.queue.qpos.toNat + 1 := by
    have := orderly.qpos
    have := orderly.wpos
    have := s.queue.wpos.toNat_lt
    rw [UInt64.toNat_add]
    simp
    omega
  have has : ∀ j, (update s.writers i (.published w) j).hasStored = (s.writers j).hasStored :=
    update_congr Writer.hasStored (by rw [stored]; rfl)
  constructor
  · exact orderly.strategy
  · exact orderly.positive
  · exact orderly.places
  · exact orderly.distinct
  · exact started
  · exact orderly.wpos
  · exact ticket
  · show (s.queue.qpos + 1).toNat = _
    rw [next, orderly.qpos]
    exact counted.symm
  · intro k below j at_
    have below : k < (s.queue.qpos + 1).toNat := below
    rw [next] at below
    by_cases last : k = s.queue.qpos.toNat
    · obtain ⟨oldest, isOldest, ready⟩ := inOrder
      rw [last] at at_
      cases Option.some.inj (at_.symm.trans isOldest)
      exact (has j).trans ready
    · exact (has j).trans (orderly.ready k (by omega) j at_)
  · exact fun k j at_ from_ stored => orderly.held k j at_ from_ ((has j).symm.trans stored)
  · exact orderly.claimed
  · show s.returned.length ≤ (s.queue.qpos + 1).toNat
    have := orderly.behind
    omega
  · exact orderly.room
  · refine orderly.reader.mono rfl rfl rfl ?_ (.inl ⟨rfl, rfl⟩)
    show s.queue.qpos.toNat ≤ (s.queue.qpos + 1).toNat
    omega

theorem Orderly.positioned (orderly : Orderly msg s) (rpos lost : UInt64) (reader : Reader)
    (fits : reader.Fits { s with queue :=
      { s.queue with rpos := rpos, stCountOfLostMessages := lost } }) :
    Orderly msg { s with
      queue := { s.queue with rpos := rpos, stCountOfLostMessages := lost }
      reader := reader } where
  strategy := orderly.strategy
  positive := orderly.positive
  places := orderly.places
  distinct := orderly.distinct
  started := orderly.started
  wpos := orderly.wpos
  ticket := orderly.ticket
  qpos := orderly.qpos
  ready := orderly.ready
  held := orderly.held
  claimed := orderly.claimed
  behind := orderly.behind
  room := orderly.room
  reader := fits

/-- **A claimed place holds the message of its reservation.** -/
theorem Orderly.read (orderly : Orderly msg s) {r : UInt64} (at_ : s.reader = .read r) :
    Orderly msg { s with
      reader := .idle
      returned := s.returned ++ [s.queue.mqueue.getD (s.queue.slot r) none] } := by
  have fits : r.toNat = s.returned.length ∧ s.queue.rpos.toNat = s.returned.length + 1 ∧
      s.returned.length < s.queue.qpos.toNat := by
    have reader := orderly.reader
    rw [at_] at reader
    exact reader
  obtain ⟨position, rpos, below⟩ := fits
  have inside : s.returned.length < s.tickets.length := Nat.lt_of_lt_of_le below orderly.qpos_le
  obtain ⟨i, found⟩ : ∃ i, s.tickets[s.returned.length]? = some i := ⟨_, List.getElem?_eq_getElem inside⟩
  have message : s.queue.mqueue.getD (s.queue.slot r) none = some (msg i) := by
    have held := orderly.held _ i found (Nat.le_refl _) (orderly.ready _ below i found)
    rw [← position] at held
    exact held
  rw [message]
  have length : (s.returned ++ [some (msg i)]).length = s.returned.length + 1 := by simp
  constructor
  · exact orderly.strategy
  · exact orderly.positive
  · exact orderly.places
  · exact orderly.distinct
  · exact orderly.started
  · exact orderly.wpos
  · exact orderly.ticket
  · exact orderly.qpos
  · exact orderly.ready
  · intro k j isTicket from_ stored
    dsimp only at from_
    exact orderly.held k j isTicket (by omega) stored
  · dsimp only
    rw [length, List.take_add_one, found, List.map_append, ← orderly.claimed]
    rfl
  · dsimp only
    omega
  · have room := orderly.room
    dsimp only
    omega
  · show s.queue.rpos.toNat = (s.returned ++ [some (msg i)]).length
    rw [length, rpos]

/-- **An operation of the reader keeps the invariant.** -/
theorem Orderly.turn (orderly : Orderly msg s) : Orderly msg s.turn := by
  have fits := orderly.reader
  have wpos := orderly.wpos
  have room := orderly.room
  have behind := Nat.le_trans orderly.behind orderly.qpos_le
  unfold Shared.turn
  cases at_ : s.reader with
  | idle =>
    rw [at_] at fits
    simp only [Reader.next, Option.toList_none, List.append_nil]
    refine orderly.positioned s.queue.rpos s.queue.stCountOfLostMessages _ ?_
    split
    · rename_i overrun
      refine ⟨fits, ?_⟩
      have full := overrun.2
      have position : s.queue.rpos.toNat = s.returned.length := fits
      rw [MQAtomic.full, decide_eq_true_iff, UInt64.le_iff_toNat_le,
        UInt64.toNat_sub_of_le _ _ (UInt64.le_iff_toNat_le.mpr (by omega))] at full
      dsimp only
      omega
    · exact fits
  | pull =>
    rw [at_] at fits
    simp only [Reader.next, Option.toList_none, List.append_nil]
    exact orderly.positioned s.queue.rpos s.queue.stCountOfLostMessages _ ⟨fits.1, fits.2, rfl⟩
  | pullTo w =>
    rw [at_] at fits
    obtain ⟨position, outstanding, rfl⟩ := fits
    simp only [Reader.next, Option.toList_none, List.append_nil]
    refine orderly.positioned (s.queue.wpos - s.queue.sizeOfMessageQueue) _ .look ?_
    show (s.queue.wpos - s.queue.sizeOfMessageQueue).toNat = s.returned.length
    rw [UInt64.toNat_sub_of_le _ _ (UInt64.le_iff_toNat_le.mpr (by omega))]
    omega
  | look =>
    rw [at_] at fits
    simp only [Reader.next, Option.toList_none, List.append_nil]
    refine orderly.positioned s.queue.rpos s.queue.stCountOfLostMessages _ ?_
    split
    · exact fits
    · rename_i more
      have position : s.queue.rpos.toNat = s.returned.length := fits
      have apart : s.queue.rpos.toNat ≠ s.queue.qpos.toNat := fun same =>
        more (UInt64.toNat_inj.mp same)
      have le := orderly.behind
      exact ⟨fits, by dsimp only; omega⟩
  | compare =>
    rw [at_] at fits
    obtain ⟨position, below⟩ := fits
    have less : s.queue.rpos < s.queue.qpos := UInt64.lt_iff_toNat_lt.mpr (by omega)
    simp only [Reader.next, Option.toList_none, List.append_nil, if_pos less]
    exact orderly.positioned s.queue.rpos s.queue.stCountOfLostMessages _ ⟨position, below⟩
  | take =>
    rw [at_] at fits
    obtain ⟨position, below⟩ := fits
    simp only [Reader.next, Option.toList_none, List.append_nil]
    refine orderly.positioned (s.queue.rpos + 1) s.queue.stCountOfLostMessages _ ⟨position, ?_, below⟩
    show (s.queue.rpos + 1).toNat = s.returned.length + 1
    have := s.queue.qpos.toNat_lt
    rw [UInt64.toNat_add, UInt64.toNat_one, position]
    omega
  | read r => exact orderly.read at_
  | beyond | wrapped | pullBack | pullBackTo _ =>
    rw [at_] at fits
    exact fits.elim

/-- **A step in order keeps the invariant.** -/
theorem Orderly.step (orderly : Orderly msg s) {turn : Turn ι} (inOrder : InOrder s turn)
    (stepped : s.step msg turn = some t) : Orderly msg t := by
  cases turn with
  | reserve i =>
    simp only [Shared.step] at stepped
    split at stepped
    · rename_i idle
      split at stepped
      · rename_i room
        cases stepped
        exact orderly.reserve idle room.1 room.2
      · cases stepped
    · cases stepped
  | store i =>
    simp only [Shared.step] at stepped
    split at stepped
    · rename_i reserved
      cases stepped
      exact orderly.store reserved
    · cases stepped
  | publish i =>
    simp only [Shared.step] at stepped
    split at stepped
    · rename_i stored
      cases stepped
      exact orderly.publish stored inOrder
    · cases stepped
  | reader =>
    cases stepped
    exact orderly.turn

theorem Orderly.start {capacity : UInt64} (positive : 1 ≤ capacity) :
    Orderly msg (⟨.new capacity .lostOldData, fun _ => .idle, .idle, [], []⟩ : Shared ι α) where
  strategy := rfl
  positive := UInt64.le_iff_toNat_le.mp positive
  places := List.length_replicate
  distinct := List.nodup_nil
  started := nofun
  wpos := rfl
  ticket := nofun
  qpos := rfl
  ready := nofun
  held := nofun
  claimed := rfl
  behind := Nat.le_refl _
  room := Nat.zero_le _
  reader := rfl

/-! ### The reader alone -/

/-- The operations that are left until the next message is returned. -/
def Reader.rank : Reader → Nat
  | .idle => 7
  | .pull => 6
  | .pullTo _ => 5
  | .look => 4
  | .compare => 3
  | .take => 2
  | .read _ => 1
  | _ => 0

/-- A bound on the operations until all messages are returned. -/
def Shared.left (s : Shared ι α) : Nat :=
  8 * (s.tickets.length - s.returned.length) + s.reader.rank

/-- While messages are outstanding and every call has ended, each operation brings the reader on. -/
theorem Orderly.turn_drops (orderly : Orderly msg s)
    (ended : ∀ i ∈ s.tickets, (s.writers i).hasPublished = true)
    (more : s.returned.length < s.tickets.length) : s.turn.left < s.left := by
  have fits := orderly.reader
  have all : s.queue.qpos.toNat = s.tickets.length := by
    rw [orderly.qpos]
    exact List.countP_eq_length.mpr ended
  -- an operation that returns nothing leaves the messages, and the rank of the reader drops
  have quiet : ∀ next : Reader, next.rank < s.reader.rank →
      8 * (s.tickets.length - (s.returned ++ []).length) + next.rank < s.left := by
    intro next drops
    rw [List.append_nil]
    exact Nat.add_lt_add_left drops _
  unfold Shared.turn
  cases at_ : s.reader with
  | idle =>
    rw [at_] at quiet
    unfold Reader.next Shared.left
    dsimp only [Option.toList_none]
    split
    · exact quiet .pull (by decide)
    · exact quiet .look (by decide)
  | pull =>
    rw [at_] at quiet
    exact quiet (.pullTo s.queue.wpos) (Nat.lt_succ_self 5)
  | pullTo w =>
    rw [at_] at quiet
    exact quiet .look (Nat.lt_succ_self 4)
  | look =>
    rw [at_] at fits quiet
    have position : s.queue.rpos.toNat = s.returned.length := fits
    have apart : s.queue.rpos ≠ s.queue.qpos := by
      intro same
      rw [same] at position
      omega
    unfold Reader.next Shared.left
    dsimp only [Option.toList_none]
    rw [if_neg apart]
    exact quiet .compare (by decide)
  | compare =>
    rw [at_] at fits quiet
    obtain ⟨position, below⟩ := fits
    have less : s.queue.rpos < s.queue.qpos := UInt64.lt_iff_toNat_lt.mpr (by omega)
    unfold Reader.next Shared.left
    dsimp only [Option.toList_none]
    rw [if_pos less]
    exact quiet .take (by decide)
  | take =>
    rw [at_] at quiet
    exact quiet (.read s.queue.rpos) (Nat.lt_succ_self 1)
  | read r =>
    unfold Shared.left
    rw [at_]
    show 8 * (s.tickets.length - (s.returned ++ [_]).length) + 7 <
      8 * (s.tickets.length - s.returned.length) + 1
    rw [List.length_append, List.length_singleton]
    omega
  | beyond | wrapped | pullBack | pullBackTo _ =>
    rw [at_] at fits
    exact fits.elim

/-- A reader that has passed every place has returned every message. -/
theorem Orderly.all_returned (orderly : Orderly msg s)
    (none : s.tickets.length ≤ s.returned.length) :
    s.returned = s.tickets.map fun i => some (msg i) := by
  have short := Nat.le_trans orderly.behind orderly.qpos_le
  have whole : s.returned.length = s.tickets.length := by omega
  rw [orderly.claimed, whole, List.take_length]

/-- **The reader alone returns the rest.** -/
theorem Orderly.drains (capacity : UInt64) (n : Nat) (orderly : Orderly msg s) (bound : s.left ≤ n)
    (ended : ∀ i ∈ s.tickets, (s.writers i).hasPublished = true) :
    ∃ m t, (interleavings capacity msg).run s (List.replicate m .reader) = some t ∧
      t.tickets = s.tickets ∧ t.returned = s.tickets.map fun i => some (msg i) := by
  induction n generalizing s with
  | zero =>
    refine ⟨0, s, rfl, rfl, orderly.all_returned ?_⟩
    unfold Shared.left at bound
    omega
  | succ n ih =>
    by_cases more : s.returned.length < s.tickets.length
    · have drops := orderly.turn_drops ended more
      obtain ⟨m, t, ran, tickets, returned⟩ := ih orderly.turn (by omega) ended
      exact ⟨m + 1, t, ran, tickets, returned⟩
    · exact ⟨0, s, rfl, rfl, orderly.all_returned (by omega)⟩

/-! ### The result -/

/-- **Every message is returned exactly once**, in every interleaving in which the writers publish in
order. -/
theorem returns_exactly_once (capacity : UInt64) (positive : 1 ≤ capacity) (msg : ι → α)
    {s : Shared ι α} (reached : (interleavings capacity msg).Reachable InOrder s) :
    Exact capacity msg s := by
  have orderly : Orderly msg s := by
    refine Lib.Machine.reachable_invariant (P := Orderly msg) ?_ ?_ reached
    · rintro u rfl
      exact Orderly.start positive
    · exact fun u turn v orderly inOrder stepped => orderly.step inOrder stepped
  exact ⟨orderly.distinct, orderly.claimed, orderly.drains capacity _ (Nat.le_refl _)⟩

/-- Two calls of `push`, one after the other, and the first message is read. -/
def oneAfterTheOther : List (Turn Bool) :=
  [.reserve false, .store false, .publish false, .reserve true, .store true, .publish true,
    .reader, .reader, .reader, .reader, .reader]

/-- The two messages. -/
def twoMessages : Bool → Nat
  | false => 100
  | true => 110

theorem returns_exactly_once_twoMessages : ∃ s,
    (interleavings 4 twoMessages).Reachable InOrder s ∧ s.returned = [some 100] ∧
    Exact 4 twoMessages s := by
  obtain ⟨s, ran, returned⟩ : ∃ s ∈ (interleavings 4 twoMessages).run
      ⟨.new 4 .lostOldData, fun _ => .idle, .idle, [], []⟩ oneAfterTheOther,
      s.returned = [some 100] := by decide +kernel
  have reached : (interleavings 4 twoMessages).Reachable InOrder s :=
    ⟨_, oneAfterTheOther, rfl, by decide +kernel, ran⟩
  exact ⟨s, reached, returned, returns_exactly_once 4 (by decide) twoMessages reached⟩

/-- The second writer stores and publishes while the first has only reserved its place; the reader
takes that place. -/
def overtaken : List (Turn Bool) :=
  [.reserve false, .reserve true, .store true, .publish true,
    .reader, .reader, .reader, .reader, .reader, .store false, .publish false,
    .reader, .reader, .reader, .reader, .reader]

/-- **An early publication returns null.** `top` claims the place of the first writer and returns null;
the message that is stored there afterwards is never returned. -/
theorem early_publication_returns_null : ∃ s,
    (interleavings 4 twoMessages).Reachable (fun _ _ => True) s ∧
    (∀ i ∈ s.tickets, (s.writers i).hasPublished = true) ∧ s.tickets = [false, true] ∧
    s.queue.empty = true ∧ s.reader = .idle ∧ s.returned = [none, some 110] ∧
    ¬ Exact 4 twoMessages s := by
  obtain ⟨s, ran, ended, tickets, empty, idle, returned⟩ :
      ∃ s ∈ (interleavings 4 twoMessages).run
        ⟨.new 4 .lostOldData, fun _ => .idle, .idle, [], []⟩ overtaken,
      (∀ i ∈ s.tickets, (s.writers i).hasPublished = true) ∧ s.tickets = [false, true] ∧
      s.queue.empty = true ∧ s.reader = .idle ∧ s.returned = [none, some 110] := by
    decide +kernel
  refine ⟨s, Lib.Machine.reachable_of_run rfl ran, ended, tickets, empty, idle, returned, ?_⟩
  intro exact_
  have claimed := exact_.claimed
  rw [returned, tickets] at claimed
  exact absurd claimed (by decide)

end UniSet.Various
