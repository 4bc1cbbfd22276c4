/-
**Writing a register only when its sensor has changed (pollfactor 65535).**

A sensor update changes the words of a register and raises `mbval_changed`; the polling thread looks at
the flag, reads the words, sends them and takes the flag down when the answer is there. The two
threads share nothing else.

The registers of a value of several words are entries of the map of their own. The loop over the map
comes to each of them: the request of the first one takes all words and steps over the others, but where
the first one is left alone (its flag is down, or it is not initialised), an entry behind it is asked by
its own flag, and then its word alone is sent.

* `RegWord.setMBVal`, `updateRSProperty` — the update. Only the flag of the first register is raised.
* `Phase` — how far a request of the polling thread has come.
* `Settled` — no request is under way and the flag is down: the device holds the value.
* `Unmodified` — a request of the first register takes the flag down only if the registers still hold
  what was sent; a first write of one word alone finds the other words in the device.
* **`settled_iff`** — a run is settled throughout exactly if each of its requests ends unmodified.
* `update_lost` — a change that comes during a request is lost; a word is written alone before the first
  update.
-/

import UniSet.Lib.Machine

namespace UniSet.ModbusMaster

/-- A register of the map, as far as it is written: its value and its flags. -/
structure RegWord where
  mbval : Nat
  mbvalChanged : Bool
  smInitOK : Bool
deriving DecidableEq, Repr

/-- **`RegInfo::setMBVal`.** -/
def RegWord.setMBVal (w : RegWord) (nv : Nat) : RegWord :=
  { w with mbval := nv, mbvalChanged := w.mbvalChanged || decide (w.mbval ≠ nv) }

/-- The flag is taken down. -/
def RegWord.lower (w : RegWord) : RegWord := { w with mbvalChanged := false }

namespace ChangeOnly

/-- The functions that write by change. -/
inductive WriteFunction
  | fnForceSingleCoil | fnWriteOutputSingleRegister | fnWriteOutputRegisters
deriving DecidableEq, Repr

/-- What the device holds after this word was written to it. -/
def WriteFunction.image : WriteFunction → Nat → Nat
  | .fnForceSingleCoil, word => if word = 0 then 0 else 1
  | _, word => word

/-- How far the request of the polling thread has come. -/
inductive Phase
  | idle
  /-- The flag of the entry was found raised. -/
  | tested
  /-- The words were read and are on their way. -/
  | sending (sent : List Nat)
  /-- The device has answered. -/
  | answered (sent : List Nat)
deriving DecidableEq, Repr

/-- **A value that is written by change**: its registers and the device. -/
structure State where
  func : WriteFunction
  head : RegWord
  rest : List RegWord
  device : List Nat
  /-- A request has succeeded and is over. -/
  written : Bool
  /-- The entry that the loop over the map comes to; the first register is entry 0. -/
  next : Nat
  phase : Phase
deriving DecidableEq, Repr

namespace State

variable (s : State)

def entries : List RegWord := s.head :: s.rest

/-- The current value. -/
def words : List Nat := s.entries.map RegWord.mbval

/-- The flags of the entries. -/
def flags : List Bool := s.entries.map RegWord.mbvalChanged

/-- What the device should hold. -/
def current : List Nat := s.words.map s.func.image

/-- `q_count` of the entry: the first one asks for the whole value. -/
def qCount : Nat := if s.next = 0 then s.entries.length else 1

/-- The words of the entry's request. -/
def asked : List Nat := (s.words.drop s.next).take s.qCount

/-- The device with these words written from the entry on. -/
def put (sent : List Nat) : List Nat :=
  s.device.take s.next ++ sent.map s.func.image ++ s.device.drop (s.next + sent.length)

/-- The loop comes to this entry. Behind the last one it comes to the first one again, in a later
cycle. -/
def goOn (next : Nat) : State :=
  { s with next := if next < s.entries.length then next else 0, phase := .idle }

/-- The request has sent all words, and the flags of all entries in it but the first one are taken
down. -/
def send : State :=
  { s with
    rest := if s.next = 0 then s.rest.map RegWord.lower else s.rest
    phase := .sending s.asked }

/-- The flag of the entry is taken down. -/
def lower : State :=
  { s with
    head := if s.next = 0 then s.head.lower else s.head
    rest := if s.next = 0 then s.rest else s.rest.modify (s.next - 1) RegWord.lower }

end State

inductive Event
  /-- The sensor has changed, and these are the words of its value. -/
  | update (head : Nat) (rest : List Nat)
  /-- The update fails because the shared memory cannot be reached. -/
  | updateFails
  | initValues
  /-- The loop over the map is left: after a timeout, or because the exchange stops. -/
  | leave
  | test
  /-- `pollRTU` up to the request; `enabled`: the modes of the exchange and of the device let it go. -/
  | read (enabled : Bool)
  | succeed
  /-- The request fails; the device may have been written all the same. -/
  | fail (applied : Bool)
  | clear
deriving DecidableEq, Repr

/-- **`updateRSProperty`** for a write function: the words one after the other, then the flag of the
first register. -/
def updateRSProperty (head : Nat) (rest : List Nat) (s : State) : State :=
  let head := s.head.setMBVal head
  let rest := List.zipWith RegWord.setMBVal s.rest rest
  { s with
    head := ⟨head.mbval, head.mbvalChanged || rest.any RegWord.mbvalChanged, true⟩
    rest := rest }

/-- **The steps of the two threads.** The polling thread is that of `poll` and `pollRTU`. -/
def step (s : State) : Event → Option State
  | .update head rest =>
    if rest.length = s.rest.length then some (updateRSProperty head rest s) else none
  | .updateFails => some { s with head := { s.head with smInitOK := false } }
  | .initValues =>
    some { s with
      head := { s.head with smInitOK := true }
      rest := s.rest.map fun w => { w with smInitOK := true } }
  | .leave => if s.phase = .idle then some { s with next := 0 } else none
  | .test =>
    if s.phase = .idle then
      s.entries[s.next]?.map fun w =>
        if w.mbvalChanged then { s with phase := .tested } else s.goOn (s.next + 1)
    else none
  | .read enabled =>
    if s.phase = .tested then
      -- an entry that is not sent is left alone: the loop does not step over the words behind it
      s.entries[s.next]?.map fun w =>
        if enabled ∧ w.smInitOK then s.send else s.goOn (s.next + 1)
    else none
  | .succeed =>
    match s.phase with
    | .sending sent => some { s with device := s.put sent, phase := .answered sent }
    | _ => none
  | .fail applied =>
    match s.phase with
    | .sending sent =>
      some ({ s with device := if applied then s.put sent else s.device }.goOn (s.next + s.qCount))
    | _ => none
  | .clear =>
    match s.phase with
    | .answered _ => some ({ s.lower with written := true }.goOn (s.next + s.qCount))
    | _ => none

/-- **A value that is written by change**, before anything was written. -/
def changeOnly : Lib.Machine State Event where
  start s := s.phase = .idle ∧ s.next = 0 ∧ s.written = false ∧
    s.device.length = s.entries.length ∧ (s.func ≠ .fnWriteOutputRegisters → s.rest = [])
  step := step

/-- **No change is lost**: with no request under way and the flag down, the device holds the value, once
it was written. -/
def Settled (s : State) : Prop :=
  s.phase = .idle → s.head.mbvalChanged = false → s.written = true → s.device = s.current

/-- The request of the first register takes the flag down only if the registers hold what was sent. A
word is the first one written, and written alone with the flag down, only if the device holds the other
words. -/
def Unmodified (s : State) : Event → Prop
  | .clear => ∀ sent, s.phase = .answered sent →
      if s.next = 0 then sent.map s.func.image = s.current
      else s.head.mbvalChanged = false → s.written = false →
        ∀ place, place ≠ s.next → s.device[place]? = s.current[place]?
  | _ => True

/-- What holds of every request: the flag of its entry stays up while it lasts, so that an update raises
the flag of the first register; with that flag down, what is on its way is still the value. -/
structure Pending (s : State) : Prop where
  next : s.next < s.entries.length
  device : s.device.length = s.entries.length
  held : s.head.mbvalChanged = false → s.written = true → s.device = s.current
  raised : s.phase ≠ .idle → s.flags[s.next]? = some true
  carried : ∀ sent, s.phase = .sending sent ∨ s.phase = .answered sent →
    sent.length = s.qCount ∧ (s.head.mbvalChanged = false → sent = s.asked)
  answered : ∀ sent, s.phase = .answered sent → s.put sent = s.device

variable {sent rest : List Nat}

/-! ### The words of a request -/

section Requests

variable {s : State}

theorem length_words : s.words.length = s.entries.length := List.length_map _

theorem length_current : s.current.length = s.entries.length := by
  rw [State.current, List.length_map, length_words]

/-- The request of an entry stays within the value. -/
theorem asked_fits (next : s.next < s.entries.length) : s.next + s.qCount ≤ s.entries.length := by
  rw [State.qCount]
  split
  · omega
  · omega

theorem length_asked (next : s.next < s.entries.length) : s.asked.length = s.qCount := by
  have fits := asked_fits next
  rw [State.asked, List.length_take, List.length_drop, length_words]
  omega

/-- What is written lies in its place, and writing it again changes nothing. -/
theorem put_put (fits : s.next + sent.length ≤ s.device.length) :
    State.put { s with device := s.put sent } sent = s.put sent := by
  have front : (s.device.take s.next).length = s.next := by
    rw [List.length_take]
    omega
  have middle : (s.device.take s.next ++ sent.map s.func.image).length = s.next + sent.length := by
    rw [List.length_append, front, List.length_map]
  simp only [State.put]
  congr 1
  · rw [List.append_assoc (s.device.take s.next), List.take_left' front]
  · rw [List.drop_left' middle]

theorem length_put (fits : s.next + sent.length ≤ s.device.length) :
    (s.put sent).length = s.device.length := by
  simp only [State.put, List.length_append, List.length_take, List.length_map, List.length_drop]
  omega

/-- A device that holds the value still holds it after words of the value were written. -/
theorem put_asked (next : s.next < s.entries.length) (holds : s.device = s.current) :
    s.put s.asked = s.current := by
  have middle : s.asked.map s.func.image = (s.current.drop s.next).take s.qCount := by
    rw [State.asked, List.map_take, List.map_drop]
    rfl
  rw [State.put, length_asked next, holds, middle, List.append_assoc, ← List.drop_drop,
    List.take_append_drop, List.take_append_drop]

/-- The request of the first register writes the whole value. -/
theorem put_whole (first : s.next = 0) (length : sent.length = s.device.length) :
    s.put sent = sent.map s.func.image := by
  rw [State.put, first, List.take_zero, List.nil_append, Nat.zero_add, length, List.drop_length,
    List.append_nil]

theorem put_single (next : s.next < s.entries.length) (later : s.next ≠ 0)
    (device : s.device.length = s.entries.length) : (s.put s.asked)[s.next]? = s.current[s.next]? := by
  have front : (s.device.take s.next).length = s.next := by
    rw [List.length_take]
    omega
  have words : s.next < s.words.length := by
    rw [length_words]
    exact next
  have single : s.asked = [s.words[s.next]] := by
    rw [State.asked, State.qCount, if_neg later, List.drop_eq_getElem_cons words, List.take_succ_cons,
      List.take_zero]
  rw [State.put, single, List.append_assoc, List.getElem?_append_right (Nat.le_of_eq front), front,
    Nat.sub_self, State.current, List.getElem?_map, List.getElem?_eq_getElem words]
  rfl

end Requests

/-! ### Updates -/

/-- An update that leaves the flag down has changed nothing. -/
theorem words_updateRSProperty {s : State} {head : Nat} (length : rest.length = s.rest.length)
    (down : (updateRSProperty head rest s).head.mbvalChanged = false) :
    (updateRSProperty head rest s).words = s.words := by
  simp only [updateRSProperty, RegWord.setMBVal, Bool.or_eq_false_iff, decide_eq_false_iff_not,
    not_not] at down
  obtain ⟨⟨-, same⟩, others⟩ := down
  have others : (List.zipWith RegWord.setMBVal s.rest rest).map RegWord.mbval =
      s.rest.map RegWord.mbval := by
    generalize s.rest = words at length others
    induction words generalizing rest with
    | nil => rfl
    | cons w words ih =>
      cases rest with
      | nil => cases length
      | cons v rest =>
        simp only [List.zipWith_cons_cons, List.any_cons, RegWord.setMBVal, Bool.or_eq_false_iff,
          decide_eq_false_iff_not, not_not] at others
        rw [List.zipWith_cons_cons, List.map_cons, List.map_cons,
          ih (Nat.succ.inj length) others.2, ← others.1.2]
        rfl
  simp only [State.words, State.entries, List.map_cons, updateRSProperty, RegWord.setMBVal, ← same,
    others]

theorem length_updateRSProperty {s : State} {head : Nat} (length : rest.length = s.rest.length) :
    (updateRSProperty head rest s).entries.length = s.entries.length := by
  simp only [State.entries, updateRSProperty, List.length_cons, List.length_zipWith, length,
    Nat.min_self]

/-- An update takes the flag of no entry down. -/
theorem raised_updateRSProperty {s : State} (head : Nat) (length : rest.length = s.rest.length)
    {place : Nat} (raised : s.flags[place]? = some true) :
    (updateRSProperty head rest s).flags[place]? = some true := by
  rw [State.flags, List.getElem?_map, Option.map_eq_some_iff] at raised ⊢
  obtain ⟨w, entry, raised⟩ := raised
  cases place with
  | zero =>
    cases entry
    exact ⟨_, rfl, by simp only [updateRSProperty, RegWord.setMBVal, raised, Bool.true_or]⟩
  | succ k =>
    obtain ⟨within, -⟩ := List.getElem?_eq_some_iff.mp (show s.rest[k]? = some w from entry)
    refine ⟨w.setMBVal rest[k], ?_, by rw [RegWord.setMBVal, raised, Bool.true_or]⟩
    rw [State.entries, updateRSProperty, List.getElem?_cons_succ, List.getElem?_zipWith,
      show s.rest[k]? = some w from entry, List.getElem?_eq_getElem (length ▸ within)]

/-- With the flag of any entry up, an update raises that of the first register. -/
theorem head_updateRSProperty {s : State} (head : Nat) (length : rest.length = s.rest.length)
    {place : Nat} (raised : s.flags[place]? = some true) :
    (updateRSProperty head rest s).head.mbvalChanged = true := by
  have raised := raised_updateRSProperty head length raised
  cases place with
  | zero => exact Option.some.inj raised
  | succ k =>
    obtain ⟨w, member, raised⟩ := List.mem_map.mp (List.mem_of_getElem?
      (show ((updateRSProperty head rest s).rest.map RegWord.mbvalChanged)[k]? = some true from raised))
    have any : (updateRSProperty head rest s).rest.any RegWord.mbvalChanged = true :=
      List.any_eq_true.mpr ⟨w, member, raised⟩
    simp only [updateRSProperty] at any ⊢
    rw [any, Bool.or_true]

/-! ### One step -/

namespace Pending

variable {s : State}

theorem settled (pending : Pending s) : Settled s := fun _ => pending.held

/-- The flag of the first register is up while its request lasts. -/
theorem first_raised (pending : Pending s) (busy : s.phase ≠ .idle) (first : s.next = 0) :
    s.head.mbvalChanged = true := by
  have raised := pending.raised busy
  rw [first] at raised
  exact Option.some.inj raised

theorem update (pending : Pending s) {head : Nat} (length : rest.length = s.rest.length) :
    Pending (updateRSProperty head rest s) where
  next := by
    rw [length_updateRSProperty length]
    exact pending.next
  device := by
    rw [length_updateRSProperty length]
    exact pending.device
  held := by
    intro down written
    have before : s.head.mbvalChanged = false := by
      cases raised : s.head.mbvalChanged with
      | false => rfl
      | true =>
        have first : s.flags[0]? = some true := congrArg some raised
        rw [head_updateRSProperty head length first] at down
        exact down
    rw [State.current, words_updateRSProperty length down]
    exact pending.held before written
  raised busy := raised_updateRSProperty head length (pending.raised busy)
  carried := by
    intro sent phase
    have busy : s.phase ≠ .idle := by
      intro idle
      rw [show (updateRSProperty head rest s).phase = .idle from idle] at phase
      obtain none | none := phase <;> cases none
    have qCount : (updateRSProperty head rest s).qCount = s.qCount := by
      rw [State.qCount, State.qCount, length_updateRSProperty length]
      rfl
    refine ⟨(pending.carried sent phase).1.trans qCount.symm, fun down => ?_⟩
    rw [head_updateRSProperty head length (pending.raised busy)] at down
    cases down
  answered := pending.answered

theorem keep (pending : Pending s) {head : RegWord} {rest : List RegWord}
    (words : (head :: rest).map RegWord.mbval = s.words)
    (flags : (head :: rest).map RegWord.mbvalChanged = s.flags) :
    Pending { s with head := head, rest := rest } := by
  have length : (head :: rest).length = s.entries.length := by
    rw [← List.length_map RegWord.mbval, words, length_words]
  have down : head.mbvalChanged = s.head.mbvalChanged := (List.cons.inj flags).1
  have qCount : State.qCount { s with head := head, rest := rest } = s.qCount := by
    simp only [State.qCount, State.entries, length]
  refine ⟨?_, ?_, ?_, ?_, ?_, pending.answered⟩
  · exact length ▸ pending.next
  · exact pending.device.trans length.symm
  · intro low written
    exact (pending.held (down ▸ low) written).trans (congrArg (List.map s.func.image) words.symm)
  · intro busy
    show ((head :: rest).map RegWord.mbvalChanged)[s.next]? = some true
    rw [flags]
    exact pending.raised busy
  · intro sent phase
    refine ⟨(pending.carried sent phase).1.trans qCount.symm, fun low => ?_⟩
    rw [(pending.carried sent phase).2 (down ▸ low), State.asked, State.asked, qCount]
    exact congrArg (fun words => (words.drop s.next).take s.qCount) words.symm

/-- The loop goes on: no request is under way. -/
theorem goOn (device : s.device.length = s.entries.length)
    (held : s.head.mbvalChanged = false → s.written = true → s.device = s.current) (next : Nat) :
    Pending (s.goOn next) where
  next := by
    show (if next < s.entries.length then next else 0) < s.entries.length
    split
    · assumption
    · exact Nat.zero_lt_succ _
  device := device
  held := held
  raised busy := absurd rfl busy
  carried := by
    intro sent phase
    obtain none | none := phase <;> cases none
  answered := by
    intro sent none
    cases none

theorem test (pending : Pending s) {w : RegWord} (entry : s.entries[s.next]? = some w)
    (raised : w.mbvalChanged = true) : Pending { s with phase := .tested } := by
  refine ⟨pending.next, pending.device, pending.held, fun _ => ?_, fun sent phase => ?_,
    fun sent none => ?_⟩
  · show (s.entries.map RegWord.mbvalChanged)[s.next]? = some true
    rw [List.getElem?_map, entry, Option.map_some, raised]
  · obtain none | none := phase <;> cases none
  · cases none

theorem send (pending : Pending s) (tested : s.phase = .tested) : Pending s.send := by
  have raised := pending.raised (by rw [tested]; decide)
  have words : s.send.words = s.words := by
    simp only [State.send, State.words, State.entries, List.map_cons]
    split
    · rw [List.map_map]
      rfl
    · rfl
  have length : s.send.entries.length = s.entries.length := by
    rw [← length_words, words, length_words]
  have qCount : s.send.qCount = s.qCount := by
    rw [State.qCount, State.qCount, length]
    rfl
  refine ⟨length ▸ pending.next, pending.device.trans length.symm, ?_, fun _ => ?_, ?_, ?_⟩
  · intro down written
    rw [State.current, words]
    exact pending.held down written
  · by_cases first : s.next = 0
    · rw [show s.send.next = 0 from first]
      exact congrArg some (pending.first_raised (by rw [tested]; decide) first)
    · rw [State.send, if_neg first]
      exact raised
  · intro sent phase
    obtain sending | none := phase
    · cases sending
      refine ⟨(length_asked pending.next).trans qCount.symm, fun _ => ?_⟩
      rw [State.asked, State.asked, words, qCount]
      rfl
    · cases none
  · intro sent none
    cases none

theorem put (pending : Pending s) (sending : s.phase = .sending sent) :
    (s.put sent).length = s.entries.length ∧
      (s.head.mbvalChanged = false → s.written = true → s.put sent = s.current) := by
  obtain ⟨length, same⟩ := pending.carried sent (Or.inl sending)
  have fits : s.next + sent.length ≤ s.device.length := by
    rw [length, pending.device]
    exact asked_fits pending.next
  refine ⟨(length_put fits).trans pending.device, fun down written => ?_⟩
  rw [same down]
  exact put_asked pending.next (pending.held down written)

theorem succeed (pending : Pending s) (sending : s.phase = .sending sent) :
    Pending { s with device := s.put sent, phase := .answered sent } := by
  obtain ⟨device, held⟩ := pending.put sending
  obtain ⟨length, same⟩ := pending.carried sent (Or.inl sending)
  have raised := pending.raised (by rw [sending]; exact Phase.noConfusion)
  have fits : s.next + sent.length ≤ s.device.length := by
    rw [length, pending.device]
    exact asked_fits pending.next
  refine ⟨pending.next, device, held, fun _ => raised, ?_, ?_⟩
  · intro other phase
    obtain none | answered := phase
    · cases none
    · cases answered
      exact ⟨length, same⟩
  · intro other answered
    cases answered
    exact put_put fits

/-- Taking the flag of an entry down changes no word. -/
theorem words_lower : s.lower.words = s.words := by
  have rest (k : Nat) : (s.rest.modify k RegWord.lower).map RegWord.mbval = s.rest.map RegWord.mbval := by
    refine List.ext_getElem? fun i => ?_
    rw [List.getElem?_map, List.getElem?_map, List.getElem?_modify, Option.map_eq_map, Option.map_map]
    congr 1
    funext w
    rw [Function.comp_apply]
    split <;> rfl
  by_cases first : s.next = 0
  · simp only [State.lower, if_pos first, State.words, State.entries, List.map_cons]
    rfl
  · simp only [State.lower, if_neg first, State.words, State.entries, List.map_cons, rest]

theorem head_lower (later : s.next ≠ 0) : s.lower.head = s.head := if_neg later

/-- After a request that ends unmodified with the flag down, the device holds the value. -/
theorem current_of_unmodified (pending : Pending s) (unmodified : Unmodified s .clear)
    (answered : s.phase = .answered sent) (down : s.lower.head.mbvalChanged = false) :
    s.device = s.current := by
  have unmodified := unmodified sent answered
  obtain ⟨length, same⟩ := pending.carried sent (Or.inr answered)
  have stored := pending.answered sent answered
  by_cases first : s.next = 0
  · rw [if_pos first] at unmodified
    have whole : sent.length = s.device.length := by
      rw [length, State.qCount, if_pos first, pending.device]
    rw [← stored, put_whole first whole, unmodified]
  · rw [if_neg first] at unmodified
    rw [head_lower first] at down
    cases written : s.written with
    | true => exact pending.held down written
    | false =>
      refine List.ext_getElem? fun place => ?_
      by_cases own : place = s.next
      · rw [own, ← stored, same down]
        exact put_single pending.next first pending.device
      · exact unmodified down written place own

theorem clear (pending : Pending s) (unmodified : Unmodified s .clear) (answered : s.phase = .answered sent)
    (next : Nat) : Pending (State.goOn { s.lower with written := true } next) := by
  refine goOn ?_ (fun down _ => ?_) next
  · rw [← length_words]
    exact pending.device.trans (length_words.symm.trans (congrArg List.length words_lower.symm))
  · exact (pending.current_of_unmodified unmodified answered down).trans
      (congrArg (List.map s.func.image) words_lower.symm)

/-- A request that ends modified leaves the device without the value, and the flag down. -/
theorem modified_lost (pending : Pending s) (answered : s.phase = .answered sent)
    (modified : ¬ Unmodified s .clear) :
    s.lower.head.mbvalChanged = false ∧ s.device ≠ s.current := by
  simp only [Unmodified, not_forall] at modified
  obtain ⟨other, answered', modified⟩ := modified
  cases answered.symm.trans answered'
  obtain ⟨length, -⟩ := pending.carried sent (Or.inr answered)
  by_cases first : s.next = 0
  · rw [if_pos first] at modified
    have whole : sent.length = s.device.length := by
      rw [length, State.qCount, if_pos first, pending.device]
    refine ⟨?_, fun holds => modified ?_⟩
    · rw [State.lower, if_pos first]
      rfl
    · rw [← put_whole first whole, pending.answered sent answered, holds]
  · rw [if_neg first] at modified
    simp only [not_forall] at modified
    obtain ⟨down, -, place, -, differs⟩ := modified
    refine ⟨(congrArg RegWord.mbvalChanged (head_lower first)).trans down, fun holds => differs ?_⟩
    rw [holds]

/-- **One step whose request ends unmodified.** -/
theorem step (pending : Pending s) {event : Event} {t : State} (unmodified : Unmodified s event)
    (stepped : ChangeOnly.step s event = some t) : Pending t := by
  cases event with
  | update head rest =>
    by_cases length : rest.length = s.rest.length
    · simp only [ChangeOnly.step, if_pos length] at stepped
      cases stepped
      exact pending.update length
    · simp only [ChangeOnly.step, if_neg length] at stepped
      cases stepped
  | updateFails =>
    cases stepped
    exact pending.keep rfl rfl
  | initValues =>
    cases stepped
    refine pending.keep ?_ ?_
    · rw [List.map_cons, List.map_map]
      rfl
    · rw [List.map_cons, List.map_map]
      rfl
  | leave =>
    simp only [ChangeOnly.step] at stepped
    split at stepped
    · rename_i idle
      cases stepped
      have left := goOn pending.device pending.held 0
      rw [State.goOn, ← idle, ite_self] at left
      exact left
    · cases stepped
  | test =>
    simp only [ChangeOnly.step] at stepped
    split at stepped
    · obtain ⟨w, entry, stepped⟩ := Option.map_eq_some_iff.mp stepped
      split at stepped
      · rename_i raised
        cases stepped
        exact pending.test entry raised
      · cases stepped
        exact goOn pending.device pending.held _
    · cases stepped
  | read enabled =>
    simp only [ChangeOnly.step] at stepped
    split at stepped
    · rename_i tested
      obtain ⟨w, -, stepped⟩ := Option.map_eq_some_iff.mp stepped
      split at stepped
      · cases stepped
        exact pending.send tested
      · cases stepped
        exact goOn pending.device pending.held _
    · cases stepped
  | succeed =>
    simp only [ChangeOnly.step] at stepped
    split at stepped
    · rename_i sent sending
      cases stepped
      exact pending.succeed sending
    · cases stepped
  | fail applied =>
    simp only [ChangeOnly.step] at stepped
    split at stepped
    · rename_i sent sending
      cases stepped
      obtain ⟨device, held⟩ := pending.put sending
      cases applied with
      | false => exact goOn pending.device pending.held _
      | true => exact goOn (s := { s with device := s.put sent }) device held _
    · cases stepped
  | clear =>
    simp only [ChangeOnly.step] at stepped
    split at stepped
    · rename_i sent answered
      cases stepped
      exact pending.clear unmodified answered _
    · cases stepped

/-- A request that ends modified loses the change. -/
theorem loses (pending : Pending s) {event : Event} (modified : ¬ Unmodified s event) :
    ∃ t, ChangeOnly.step s event = some t ∧ ¬ Settled t := by
  cases event with
  | clear =>
    have ended : ∃ sent, s.phase = .answered sent := by
      simp only [Unmodified, not_forall] at modified
      obtain ⟨sent, answered, -⟩ := modified
      exact ⟨sent, answered⟩
    obtain ⟨sent, answered⟩ := ended
    obtain ⟨down, differs⟩ := pending.modified_lost answered modified
    refine ⟨{ s.lower with written := true }.goOn (s.next + s.qCount), ?_, fun settled => differs ?_⟩
    · simp only [ChangeOnly.step, answered]
    · exact (settled rfl down rfl).trans (congrArg (List.map s.func.image) words_lower)
  | update _ _ => exact absurd trivial modified
  | updateFails => exact absurd trivial modified
  | initValues => exact absurd trivial modified
  | leave => exact absurd trivial modified
  | test => exact absurd trivial modified
  | read _ => exact absurd trivial modified
  | succeed => exact absurd trivial modified
  | fail _ => exact absurd trivial modified

end Pending

/-! ### Whole runs -/

/-- **A run is settled throughout exactly if each of its requests ends unmodified**, for every order of
updates, requests and failures. -/
theorem settled_iff {s : State} (started : changeOnly.start s) (events : List Event) :
    changeOnly.Always Settled s events ↔ changeOnly.Meets Unmodified s events := by
  obtain ⟨idle, first, unwritten, device, -⟩ := started
  have initially : Pending s := by
    refine ⟨?_, device, fun _ written => ?_, fun busy => absurd idle busy, fun sent phase => ?_,
      fun sent answered => ?_⟩
    · rw [first]
      exact Nat.zero_lt_succ _
    · rw [unwritten] at written
      cases written
    · rw [idle] at phase
      obtain none | none := phase <;> cases none
    · rw [idle] at answered
      cases answered
  exact Lib.Machine.always_iff_meets (P := Pending) (fun _ pending => pending.settled)
    (fun _ _ _ pending unmodified stepped => pending.step unmodified stepped)
    (fun _ _ pending modified => pending.loses modified) initially

/-- A register with the value 5, not written yet. -/
def fresh : State := ⟨.fnWriteOutputSingleRegister, ⟨5, true, true⟩, [], [0], false, 0, .idle⟩

/-- A value of two words that was never updated: `init_mbval_changed` is 0, which is the flag of its
first register, and the device holds other words. -/
def quiet : State :=
  ⟨.fnWriteOutputRegisters, ⟨0, false, false⟩, [⟨0, true, false⟩], [7, 8], false, 0, .idle⟩

/-- A request that fails and its repetition, with an update between them. -/
theorem settled_after_failure :
    let events := [.test, .read true, .fail false, .update 6 [], .test, .read true, .succeed, .clear]
    changeOnly.start fresh ∧
      (changeOnly.Always Settled fresh events ↔ changeOnly.Meets Unmodified fresh events) := by
  intro events
  have started : changeOnly.start fresh := ⟨rfl, rfl, rfl, rfl, fun _ => rfl⟩
  exact ⟨started, settled_iff started events⟩

/-- **A change during a request is lost**: the device holds 5, the register 6, and the flag is down. **A
word is written alone**: the flag of the second one is up from the start, and the device holds 7 and 0
where the registers hold 0 and 0. -/
theorem update_lost :
    (changeOnly.start fresh ∧
      ∃ s, changeOnly.run fresh [.test, .read true, .update 6 [], .succeed, .clear] = some s ∧
        s.phase = .idle ∧ s.head = ⟨6, false, true⟩ ∧ s.written = true ∧ s.device = [5] ∧ ¬ Settled s) ∧
    changeOnly.start quiet ∧
      ∃ s, changeOnly.run quiet [.initValues, .test, .test, .read true, .succeed, .clear] = some s ∧
        s.phase = .idle ∧ s.head = ⟨0, false, true⟩ ∧ s.written = true ∧ s.device = [7, 0] ∧
        ¬ Settled s := by
  refine ⟨⟨⟨rfl, rfl, rfl, rfl, fun _ => rfl⟩, _, rfl, rfl, rfl, rfl, rfl, fun settled => ?_⟩,
    ⟨rfl, rfl, rfl, rfl, fun other => absurd rfl other⟩, _, rfl, rfl, rfl, rfl, rfl, fun settled => ?_⟩
  · exact absurd (settled rfl rfl rfl) (by decide)
  · exact absurd (settled rfl rfl rfl) (by decide)

end ChangeOnly

end UniSet.ModbusMaster
