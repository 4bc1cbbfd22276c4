/-
**`setMaxSizeOfMessageQueue` at run time.**

`MQAtomic` refills its ring when the size changes and keeps the three counters, so what is pending is
gone and the positions get other places. The size is not checked; with `0` every place is a division by
zero. `MQMutex`, which `UniSetObject` has, keeps its messages.

* `setMaxSizeOfMessageQueue` — of both queues; `divided`, `reached` — the positions a call computes a
  place of, and the places it reaches.
* `Request`, `serve` — a call or a new size.
* `Request.Lawful` — no place outside the buffer; a new size keeps as many pending messages as fit.
* **`resize_lawful`** — where every new size is the old one, or at least one place while nothing is
  pending and there is memory, every request is lawful, and the answers are those of `MQMutex`.
-/

import UniSet.Various.IndexWrap

namespace UniSet.Various

variable {α : Type}

namespace MQAtomic

variable (q : MQAtomic α)

/-- **`setMaxSizeOfMessageQueue`**, with `mqFill`; without `memory` the reservation throws, which is
caught, and the buffer stays. -/
def setMaxSizeOfMessageQueue (s : UInt64) (memory : Bool) : MQAtomic α :=
  if s ≠ q.sizeOfMessageQueue then
    { q with
      sizeOfMessageQueue := s
      mqueue := if memory then List.replicate s.toNat none else q.mqueue }
  else q

/-- The queue after the pull at the start of `top`. -/
def pulled : MQAtomic α := if q.lostStrategy = .lostOldData ∧ q.full then q.pull q.wpos else q

/-- The position `top` reads at. -/
def readAt : UInt64 :=
  let q := q.pulled
  if q.rpos < q.qpos then q.rpos
  else if q.lostStrategy = .lostOldData ∧ q.behindWrapped then (q.pull q.qpos).rpos else q.rpos

/-- **The positions a call computes a place of**: a division by the size each. -/
def divided : Op α → List UInt64
  | .push _ =>
    if q.lostStrategy = .lostNewData ∧ q.full then []
    else (if q.wpos < q.rpos then [q.wpos, q.rpos] else []) ++
      if q.lostStrategy = .lostNewData ∧ q.fullWrapped then [] else [q.wpos]
  | .top =>
    if q.pulled.rpos = q.pulled.qpos then []
    else (if q.pulled.rpos < q.pulled.qpos then [] else [q.pulled.qpos, q.pulled.rpos]) ++ [q.readAt]
  | _ => []

/-- **The positions whose place a call reaches** in the buffer. -/
def reached : Op α → List UInt64
  | .push _ =>
    if q.lostStrategy = .lostNewData ∧ q.full then []
    else if q.lostStrategy = .lostNewData ∧ q.fullWrapped then [] else [q.wpos]
  | .top => if q.pulled.rpos = q.pulled.qpos then [] else [q.readAt]
  | _ => []

/-- **No access beyond the buffer**: no division by zero, and every place is inside. -/
def Inside (op : Op α) : Prop :=
  (q.divided op ≠ [] → q.sizeOfMessageQueue ≠ 0) ∧
    ∀ pos ∈ q.reached op, q.slot pos < q.mqueue.length

/-- **The messages that are pending**, oldest first. -/
def pending : List (Option α) :=
  ((List.range (min q.gap q.sizeOfMessageQueue.toNat)).map fun j => q.behind (j + 1)).reverse

end MQAtomic

/-- `MQMutex::setMaxSizeOfMessageQueue`. -/
def MQMutex.setMaxSizeOfMessageQueue (q : MQMutex α) (s : UInt64) : MQMutex α :=
  { q with sizeOfMessageQueue := s }

/-! ### Requests -/

/-- A call, or a new size. -/
inductive Request (α : Type)
  | call (op : Op α)
  | setMax (s : UInt64) (memory : Bool)

/-- A request to `MQAtomic`; a new size is not answered. -/
def MQAtomic.serve (q : MQAtomic α) : Request α → MQAtomic α × Option (Answer α)
  | .call op => ((q.call op).1, some (q.call op).2)
  | .setMax s memory => (q.setMaxSizeOfMessageQueue s memory, none)

/-- A request to `MQMutex`. -/
def MQMutex.serve (q : MQMutex α) : Request α → MQMutex α × Option (Answer α)
  | .call op => ((q.call op).1, some (q.call op).2)
  | .setMax s _ => (q.setMaxSizeOfMessageQueue s, none)

/-- The answers to the requests. -/
def served {Q : Type} (serve : Q → Request α → Q × Option (Answer α)) (q : Q) :
    List (Request α) → List (Option (Answer α))
  | [] => []
  | r :: rest => (serve q r).2 :: served serve (serve q r).1 rest

/-- The calls among the requests. -/
def calls : List (Request α) → List (Op α)
  | [] => []
  | .call op :: rest => op :: calls rest
  | .setMax _ _ :: rest => calls rest

/-- The queue, request by request. -/
def resizable : Lib.Machine (MQAtomic α) (Request α) where
  start q := 1 ≤ q.sizeOfMessageQueue.toNat ∧ q.mqueue.length = q.sizeOfMessageQueue.toNat
  step q r := some (q.serve r).1

/-- **The law of a request.** -/
def Request.Lawful (q : MQAtomic α) : Request α → Prop
  | .call op => q.Inside op
  | .setMax s memory =>
    let kept := (q.setMaxSizeOfMessageQueue s memory).pending
    kept.Sublist q.pending ∧ kept.length = min q.pending.length s.toNat

/-- **The new sizes that do no harm**: the old one, or at least one place while nothing is pending and
there is memory. -/
def Request.Harmless (q : MQAtomic α) : Request α → Prop
  | .call _ => True
  | .setMax s memory =>
    s = q.sizeOfMessageQueue ∨ 1 ≤ s.toNat ∧ memory = true ∧ q.rpos = q.wpos

instance (q : MQAtomic α) : ∀ r : Request α, Decidable (r.Harmless q)
  | .call _ => inferInstanceAs (Decidable True)
  | .setMax _ _ => inferInstanceAs (Decidable (_ ∨ _))

/-! ### One request -/

section Step

variable {q a : MQAtomic α} {m : MQMutex α}

/-- The buffer of a queue. -/
structure MQAtomic.Whole (q : MQAtomic α) : Prop where
  positive : 1 ≤ q.sizeOfMessageQueue.toNat
  slots : q.mqueue.length = q.sizeOfMessageQueue.toNat

/-- **Every place is inside** a whole buffer. -/
theorem MQAtomic.Whole.inside (whole : q.Whole) (op : Op α) : q.Inside op := by
  refine ⟨fun _ zero => ?_, fun pos _ => ?_⟩
  · have positive := whole.positive
    rw [zero] at positive
    cases positive
  · rw [whole.slots]
    exact Nat.mod_lt _ whole.positive

/-- A call leaves the size and the length of the buffer. -/
theorem call_buffer (q : MQAtomic α) (op : Op α) :
    (q.call op).1.sizeOfMessageQueue = q.sizeOfMessageQueue ∧
      (q.call op).1.mqueue.length = q.mqueue.length := by
  cases op with
  | push vm =>
    show (q.push vm).1.sizeOfMessageQueue = _ ∧ (q.push vm).1.mqueue.length = _
    unfold MQAtomic.push
    split
    · exact ⟨rfl, rfl⟩
    · split
      · exact ⟨rfl, rfl⟩
      · exact ⟨rfl, List.length_set⟩
  | top =>
    show q.top.1.sizeOfMessageQueue = _ ∧ q.top.1.mqueue.length = _
    have read : ∀ r : MQAtomic α, (r.sizeOfMessageQueue = q.sizeOfMessageQueue ∧
        r.mqueue.length = q.mqueue.length) →
        (if r.rpos = r.qpos then (r, none) else if r.rpos < r.qpos then r.take
          else (if r.lostStrategy = .lostOldData ∧ r.behindWrapped then r.pull r.qpos
            else r).take).1.sizeOfMessageQueue = q.sizeOfMessageQueue ∧
        (if r.rpos = r.qpos then (r, none) else if r.rpos < r.qpos then r.take
          else (if r.lostStrategy = .lostOldData ∧ r.behindWrapped then r.pull r.qpos
            else r).take).1.mqueue.length = q.mqueue.length := by
      intro r same
      split
      · exact same
      · split
        · exact same
        · split
          · exact same
          · exact same
    unfold MQAtomic.top
    dsimp only
    split
    · exact read (q.pull q.wpos) ⟨rfl, rfl⟩
    · exact read q ⟨rfl, rfl⟩
  | size => exact ⟨rfl, rfl⟩
  | empty => exact ⟨rfl, rfl⟩

theorem MQAtomic.Whole.call (whole : q.Whole) (op : Op α) : (q.call op).1.Whole := by
  obtain ⟨size, length⟩ := call_buffer q op
  exact ⟨by rw [size]; exact whole.positive, by rw [size, length]; exact whole.slots⟩

/-- Nothing is pending where the counters are equal. -/
theorem pending_nil (none : q.rpos = q.wpos) : q.pending = [] := by
  unfold MQAtomic.pending
  rw [(gap_eq_zero q).mpr none, Nat.zero_min]
  rfl

theorem length_pending (q : MQAtomic α) :
    q.pending.length = min q.gap q.sizeOfMessageQueue.toNat := by
  unfold MQAtomic.pending
  rw [List.length_reverse, List.length_map, List.length_range]

theorem setMax_same (q : MQAtomic α) (memory : Bool) :
    q.setMaxSizeOfMessageQueue q.sizeOfMessageQueue memory = q := if_neg fun other => other rfl

/-- **A harmless new size** leaves what is pending, and a whole buffer. -/
theorem setMax_spec (whole : q.Whole) {s : UInt64} {memory : Bool}
    (harmless : (Request.setMax s memory : Request α).Harmless q) :
    (q.setMaxSizeOfMessageQueue s memory).pending = q.pending ∧ q.pending.length ≤ s.toNat ∧
      (q.setMaxSizeOfMessageQueue s memory).Whole := by
  by_cases same : s = q.sizeOfMessageQueue
  · rw [same, setMax_same, length_pending]
    exact ⟨rfl, Nat.min_le_right _ _, whole⟩
  · obtain ⟨some, present, none⟩ := harmless.resolve_left same
    have filled : q.setMaxSizeOfMessageQueue s memory =
        { q with sizeOfMessageQueue := s, mqueue := List.replicate s.toNat Option.none } := by
      unfold MQAtomic.setMaxSizeOfMessageQueue
      rw [if_pos same, present]
      rfl
    rw [filled, pending_nil none]
    exact ⟨pending_nil none, Nat.zero_le _, some, List.length_replicate⟩

/-- **A harmless request** is lawful. -/
theorem Request.Harmless.lawful {r : Request α} (whole : q.Whole) (harmless : r.Harmless q) :
    r.Lawful q := by
  cases r with
  | call op => exact whole.inside op
  | setMax s memory =>
    obtain ⟨kept, few, -⟩ := setMax_spec whole harmless
    show List.Sublist _ _ ∧ List.length _ = _
    rw [kept]
    exact ⟨List.Sublist.refl _, (Nat.min_eq_left few).symm⟩

theorem Request.Harmless.whole {r : Request α} (whole : q.Whole) (harmless : r.Harmless q) :
    (q.serve r).1.Whole := by
  cases r with
  | call op => exact whole.call op
  | setMax s memory => exact (setMax_spec whole harmless).2.2

/-- **A harmless new size** is simulated. -/
theorem Sim.setMax (sim : Sim a m) {s : UInt64} {memory : Bool}
    (harmless : (Request.setMax s memory : Request α).Harmless a) :
    Sim (a.setMaxSizeOfMessageQueue s memory) (m.setMaxSizeOfMessageQueue s) := by
  by_cases same : s = a.sizeOfMessageQueue
  · rw [same, setMax_same]
    have unchanged : m.setMaxSizeOfMessageQueue a.sizeOfMessageQueue = m := by
      rw [← sim.size]
      rfl
    rw [unchanged]
    exact sim
  · obtain ⟨some, present, none⟩ := harmless.resolve_left same
    have filled : a.setMaxSizeOfMessageQueue s memory =
        { a with sizeOfMessageQueue := s, mqueue := List.replicate s.toNat Option.none } := by
      unfold MQAtomic.setMaxSizeOfMessageQueue
      rw [if_pos same, present]
      rfl
    have nothing : ∀ q : MQAtomic α, q.rpos = q.wpos → q.window = [] := by
      intro q equal
      have empty : q.length = 0 := by
        unfold MQAtomic.length
        rw [equal, Nat.sub_self, Nat.zero_min]
      rw [MQAtomic.window, empty]
      rfl
    rw [filled]
    refine ⟨rfl, sim.strategy, some, List.length_replicate, sim.published, sim.inside, fun _ => ?_, ?_⟩
    · show a.wpos.toNat - a.rpos.toNat ≤ s.toNat
      rw [none, Nat.sub_self]
      exact Nat.zero_le _
    · have after := nothing { a with sizeOfMessageQueue := s, mqueue := List.replicate s.toNat Option.none }
        none
      rw [after]
      exact sim.content.trans (nothing a none)

/-- **A history of requests** is simulated, as long as the counters do not wrap. -/
theorem Sim.served_eq (sim : Sim a m) {requests : List (Request α)}
    (harmless : resizable.Meets (fun q r => r.Harmless q) a requests)
    (few : a.wpos.toNat + pushes (calls requests) < 2 ^ 64) :
    served MQAtomic.serve a requests = served MQMutex.serve m requests := by
  induction requests generalizing a m with
  | nil => rfl
  | cons r rest ih =>
    have later := harmless.2 _ rfl
    unfold served
    cases r with
    | call op =>
      have few : a.wpos.toNat + pushes (op :: calls rest) < 2 ^ 64 := few
      rw [pushes_cons] at few
      obtain ⟨after, same, wpos⟩ := sim.call op (by omega)
      have rest_same := ih after later (by omega)
      show some (a.call op).2 :: _ = some (m.call op).2 :: _
      rw [same]
      exact congrArg _ rest_same
    | setMax s memory =>
      have wpos : (a.setMaxSizeOfMessageQueue s memory).wpos = a.wpos := by
        unfold MQAtomic.setMaxSizeOfMessageQueue
        split <;> rfl
      have few : a.wpos.toNat + pushes (calls rest) < 2 ^ 64 := few
      exact congrArg _ (ih (sim.setMax harmless.1) later (by
        show (a.setMaxSizeOfMessageQueue s memory).wpos.toNat + _ < _
        rw [wpos]
        exact few))

end Step

/-! ### The result -/

/-- **Resizing without harm.** For every capacity, strategy and history of requests: if every new size is
the old one, or at least one place while nothing is pending and there is memory, then every place that
is computed is inside the buffer and no pending message is lost by a new size; and as long as the
counters do not wrap the answers are those of `MQMutex`. -/
theorem resize_lawful {qsize : UInt64} (positive : 1 ≤ qsize) (strategy : LostStrategy)
    {requests : List (Request α)}
    (harmless : resizable.Meets (fun q r => r.Harmless q) (.new qsize strategy) requests) :
    resizable.Meets (fun q r => r.Lawful q) (.new qsize strategy) requests ∧
      (pushes (calls requests) < 2 ^ 64 →
        served MQAtomic.serve (.new qsize strategy) requests =
          served MQMutex.serve (.new qsize strategy) requests) := by
  have whole : (MQAtomic.new qsize strategy : MQAtomic α).Whole :=
    ⟨UInt64.le_iff_toNat_le.mp positive, List.length_replicate⟩
  refine ⟨?_, fun few => (Sim.new positive strategy).served_eq harmless ?_⟩
  · refine Lib.Machine.meets_of_invariant (P := MQAtomic.Whole) (fun q r t whole harmless moved => ?_)
      (fun q r whole harmless => harmless.lawful whole) whole harmless
    cases moved
    exact harmless.whole whole
  · show 0 + _ < _
    rw [Nat.zero_add]
    exact few

/-- A larger ring while the queue is empty. -/
def enlarged : List (Request Nat) :=
  [.call (.push (some 1)), .call .top, .setMax 3 true, .call (.push (some 2)), .call (.push (some 3)),
    .call (.push (some 4)), .call .top]

theorem enlarged_lawful :
    resizable.Meets (fun q r => r.Lawful q) (.new 2 .lostOldData) enlarged ∧
      (pushes (calls enlarged) < 2 ^ 64 →
        served MQAtomic.serve (.new 2 .lostOldData) enlarged =
          served MQMutex.serve (.new 2 .lostOldData) enlarged) :=
  resize_lawful (by decide) .lostOldData (by decide +kernel)

/-- **A larger ring loses the message that waits**, and a ring of no places is divided by. -/
theorem resize_loses :
    served MQAtomic.serve (.new 2 .lostOldData)
        [.call (.push (some 1)), .setMax 10 true, .call .top] =
      [some .pushed, none, some (.message none)] ∧
    ¬ (Request.call (.push (some 1))).Lawful ((MQAtomic.new 2 .lostOldData).serve (.setMax 0 true)).1 ∧
    ¬ ∀ (qsize : UInt64) (strategy : LostStrategy) (requests : List (Request Nat)), 1 ≤ qsize →
      resizable.Meets (fun q r => r.Lawful q) (.new qsize strategy) requests := by
  have unlawful : ¬ (Request.call (.push (some 1))).Lawful
      ((MQAtomic.new 2 .lostOldData : MQAtomic Nat).serve (.setMax 0 true)).1 :=
    fun inside => inside.1 (by decide +kernel) (by decide +kernel)
  refine ⟨by decide +kernel, unlawful, fun all => ?_⟩
  have law := all 2 .lostOldData [.setMax 0 true, .call (.push (some 1))] (by decide)
  exact unlawful (law.2 _ rfl).1

end UniSet.Various
