/-
**Sensors that share a variable of an OPC UA server.**

* `sensorInfo`, `updateFromSM` — the two ways values of SharedMemory get to the copies of outputs.
* `updateToChannel`, `channelExchange`, `updateFromChannel` — a cycle of the active channel. Each output
  has a request of its own, with its own copy of the whole variable.
* `finalWord` — what is in a variable after a cycle: the bits of the last request's sensor only.
* **`shares_iff`**: after an update and a cycle all sensors bound to a variable agree with it exactly if
  all outputs but the last one have zeros in their bits, some update applies, and the discrete inputs
  have masks that fit `finalWord`.
-/

import UniSet.Lib.Machine
import UniSet.Lib.Writes
import UniSet.OPCUAExchange.Attribute
import Mathlib.Data.List.Nodup

namespace UniSet.OPCUAExchange

open Lib
open OPCAttribute (isOutput isInput attrName wval)
open ModbusMaster (ObjectId IOType)

/-! ### The exchange -/

/-- `ExchangeMode`. -/
def emNone : Int := 0
def emWriteOnly : Int := 1
def emReadOnly : Int := 2
def emSkipSaveToSM : Int := 3
def emSkipExchange : Int := 4

/-- **`OPCUAExchange`** with its active channel, the variables of the server and SharedMemory.
`writeGroups` are the ticks of the write requests in the order they are made. The queue has the
messages that are not handled yet. `isLocalwork` is true without a pointer to SharedMemory. -/
structure Exchange (Node : Type*) where
  isLocalwork : Bool
  force : Bool
  forceOut : Bool
  sidExchangeMode : Option ObjectId
  exchangeMode : Int
  iolist : List (OPCAttribute Node)
  writeGroups : List Nat
  nodes : Node → Word
  sm : SMValues
  queue : List (ObjectId × Int)

namespace Exchange

set_option linter.unusedSectionVars false

variable {Node : Type*} [DecidableEq Node]

/-- **`askSensors`**: the sensors whose changes come as messages. -/
def askSensors (s : Exchange Node) : List ObjectId :=
  if !s.isLocalwork || s.forceOut then []
  else (s.iolist.filter isOutput).map OPCAttribute.id ++ s.sidExchangeMode.toList

/-- The loop of `sensorInfo`: it ends at the first item of the sensor. -/
def updateFirst (id : ObjectId) (f : OPCAttribute Node → OPCAttribute Node) :
    List (OPCAttribute Node) → List (OPCAttribute Node)
  | [] => []
  | io :: rest => if io.id = id then f io :: rest else io :: updateFirst id f rest

/-- **`sensorInfo`.** -/
def sensorInfo (s : Exchange Node) (msg : ObjectId × Int) : Exchange Node :=
  if !s.isLocalwork || s.forceOut then s
  else
    { s with
      exchangeMode := if s.sidExchangeMode = some msg.1 then msg.2 else s.exchangeMode
      iolist := updateFirst msg.1 (fun io => io.onMessage s.sm s.force msg.2) s.iolist }

/-- `isUpdateSM(true)`. -/
def isUpdateSM (exchangeMode : Int) : Bool := exchangeMode = emSkipExchange || exchangeMode ≠ emReadOnly

/-- **`updateFromSM`.** -/
def updateFromSM (s : Exchange Node) : Exchange Node :=
  if s.isLocalwork || !s.forceOut then s
  else
    let mode := s.sidExchangeMode.elim s.exchangeMode s.sm
    { s with
      exchangeMode := mode
      iolist :=
        if isUpdateSM mode then s.iolist.map fun io => if io.ignore then io else io.fromSM s.sm true
        else s.iolist }

/-- The update pass: the messages are handled, then `updateFromSM` is called. -/
def update (s : Exchange Node) : Exchange Node :=
  updateFromSM { s.queue.foldl sensorInfo s with queue := [] }

/-- **`updateToChannel`.** -/
def updateToChannel (s : Exchange Node) : Exchange Node :=
  if s.exchangeMode = emSkipExchange ∨ s.exchangeMode = emReadOnly then s
  else { s with iolist := s.iolist.map fun io => if io.ignore then io else io.toChannel }

/-- A group of requests is made in a cycle with the tick. -/
def due (tick group : Nat) : Bool := group = 0 || tick % group = 0

/-- The write requests of a cycle, group after group. -/
def requests (s : Exchange Node) (tick : Nat) : List (OPCAttribute Node) :=
  (s.writeGroups.filter (due tick)).flatMap fun group =>
    s.iolist.filter fun io => io.isOutput && io.tick = group

/-- The variables after the write requests of a cycle. -/
def written (s : Exchange Node) (tick : Nat) (writeOn : Bool) : Node → Word :=
  if writeOn && s.exchangeMode ≠ emReadOnly then writeAll attrName wval s.nodes (s.requests tick)
  else s.nodes

/-- **`channelExchange`**, where all requests are successful: the outputs are written, then the inputs
are read. -/
def channelExchange (s : Exchange Node) (tick : Nat) (writeOn : Bool) : Exchange Node :=
  if s.exchangeMode = emSkipExchange then s
  else
    { s with
      nodes := s.written tick writeOn
      iolist :=
        if s.exchangeMode ≠ emWriteOnly then s.iolist.map fun io =>
          if io.isInput && due tick io.tick then { io with rval := s.written tick writeOn io.attrName }
          else io
        else s.iolist }

/-- **`updateFromChannel`.** -/
def updateFromChannel (s : Exchange Node) : Exchange Node :=
  if s.exchangeMode = emSkipExchange ∨ s.exchangeMode = emWriteOnly then s
  else { s with iolist := s.iolist.map fun io => if io.ignore then io else io.fromChannel }

/-- A cycle of the active channel, as in `channelThread`. -/
def cycle (s : Exchange Node) (tick : Nat) : Exchange Node :=
  ((s.updateToChannel).channelExchange tick true).updateFromChannel

/-- A change of a sensor in SharedMemory. -/
def change (s : Exchange Node) (id : ObjectId) (value : Int) : Exchange Node :=
  if s.sm id = value then s
  else
    { s with
      sm := Function.update s.sm id value
      queue := if id ∈ s.askSensors then s.queue ++ [(id, value)] else s.queue }

/-- What can happen. -/
inductive Event
  | change (id : ObjectId) (value : Int)
  | update
  | cycle (tick : Nat)

/-- **The machine of an exchange.** At first the copies are zero, and the sensors that are asked for are
reported. -/
def machine : Machine (Exchange Node) Event where
  start s :=
    (s.iolist.map OPCAttribute.id).Nodup ∧ (∀ io ∈ s.iolist, io.isOutput = true → io.tick ∈ s.writeGroups) ∧
      (∀ io ∈ s.iolist, io.val = 0) ∧ s.queue = s.askSensors.map (fun id => (id, s.sm id)) ∧
        s.exchangeMode = emNone ∧ ∀ sid ∈ s.sidExchangeMode, s.sm sid = emNone
  step s
    | .change id value => some (s.change id value)
    | .update => some s.update
    | .cycle tick => some (s.cycle tick)

/-- The exchange mode stays `emNone`. -/
def EmNone (s : Exchange Node) : Event → Prop
  | .change id value => s.sidExchangeMode = some id → value = emNone
  | _ => True

/-! ### Sensors of one variable -/

/-- **The sensors bound to a variable have disjoint masks and values that are not converted**, and the
requests of all of them are made in a cycle with the tick. -/
structure Sharing (s : Exchange Node) (a : Node) (tick : Nat) : Prop where
  mask : ∀ io ∈ s.iolist, io.attrName = a → io.ignore = false → io.mask ≠ 0
  disjoint : ∀ io ∈ s.iolist, ∀ io' ∈ s.iolist, io.attrName = a → io'.attrName = a →
    io.isOutput = true → io'.isOutput = true → io.id ≠ io'.id → io.mask &&& io'.mask = 0
  plain : ∀ io ∈ s.iolist, io.attrName = a → io.ignore = false → io.Plain
  due : ∀ io ∈ s.iolist, io.attrName = a → io.ignore = false → due tick io.tick = true

/-- **All sensors bound to a variable agree with it.** -/
structure Shares (s : Exchange Node) (a : Node) : Prop where
  output : ∀ io ∈ s.iolist, io.attrName = a → io.isOutput = true →
    (s.nodes a &&& io.mask) >>> io.offset =
      ((io.sent (s.sm io.id) <<< io.offset) &&& io.mask) >>> io.offset
  analog : ∀ io ∈ s.iolist, io.attrName = a → io.isInput = true → io.stype = .AI →
    io.val = (s.nodes a &&& io.mask) >>> io.offset
  discrete : ∀ io ∈ s.iolist, io.attrName = a → io.isInput = true → io.stype = .DI →
    (io.val = 1 ↔ s.nodes a &&& io.mask ≠ 0)

/-- An update takes the values of SharedMemory: by messages without a pointer to it, by reading with
one. -/
def Applies (s : Exchange Node) : Prop :=
  (s.isLocalwork = true ∧ s.forceOut = false) ∨ (s.isLocalwork = false ∧ s.forceOut = true)

instance (s : Exchange Node) : Decidable s.Applies :=
  inferInstanceAs (Decidable ((_ = true ∧ _ = false) ∨ (_ = false ∧ _ = true)))

/-- The output whose request is the last one for the variable. -/
def lastRequest (s : Exchange Node) (a : Node) (tick : Nat) : Option (OPCAttribute Node) :=
  ((s.requests tick).filter fun io => io.attrName = a).getLast?

/-- What the last request leaves in the variable. -/
def finalWord (s : Exchange Node) (a : Node) (tick : Nat) : Word :=
  ((s.lastRequest a tick).map fun io => if s.Applies then io.field (s.sm io.id) else 0).getD (s.nodes a)

/-- **The condition**: an output that is not the one written last, or that no update applies to, has a
value without bits in its field; a discrete input finds no bits at all, or bits within its mask that has
the lowest one, or no bits within its mask that does not have it. -/
structure Fits (s : Exchange Node) (a : Node) (tick : Nat) : Prop where
  output : ∀ io ∈ s.iolist, io.attrName = a → io.isOutput = true →
    (¬s.Applies ∨ (s.lastRequest a tick).map OPCAttribute.id ≠ some io.id) → io.field (s.sm io.id) = 0
  discrete : ∀ io ∈ s.iolist, io.attrName = a → io.isInput = true → io.stype = .DI →
    s.finalWord a tick = 0 ∨ (s.finalWord a tick &&& io.mask ≠ 0 ↔ io.mask.getLsbD 0 = true)

/-! ### Messages -/

variable {s : Exchange Node}

variable {l : List (OPCAttribute Node)} {f : OPCAttribute Node → OPCAttribute Node}
  {queue : List (ObjectId × Int)} {io : OPCAttribute Node} {tick : Nat}

theorem updateFirst_eq (nodup : (l.map OPCAttribute.id).Nodup) (id : ObjectId)
    (f : OPCAttribute Node → OPCAttribute Node) :
    updateFirst id f l = l.map fun io => if io.id = id then f io else io := by
  induction l with
  | nil => rfl
  | cons io rest ih =>
    rw [List.map_cons, List.nodup_cons] at nodup
    rw [updateFirst, List.map_cons]
    split
    · next apart =>
      have same' : ∀ io' ∈ rest, (if io'.id = id then f io' else io') = io' := by
        refine fun io' mem => if_neg fun same => nodup.1 ?_
        rw [apart, ← same]
        exact List.mem_map_of_mem mem
      rw [List.map_congr_left same', List.map_id']
    · rw [ih nodup.2]

/-- What a message does to an item. -/
def handle (sm : SMValues) (force : Bool) (io : OPCAttribute Node) (msg : ObjectId × Int) :
    OPCAttribute Node :=
  if io.id = msg.1 then io.onMessage sm force msg.2 else io

theorem handle_config (sm : SMValues) (force : Bool) (io : OPCAttribute Node)
    (msg : ObjectId × Int) : (handle sm force io msg).config = io.config := by
  rw [handle]
  split
  · exact OPCAttribute.onMessage_config _ _ _ _
  · rfl

theorem foldl_handle_config (sm : SMValues) (force : Bool) (queue : List (ObjectId × Int))
    (io : OPCAttribute Node) : (queue.foldl (handle sm force) io).config = io.config := by
  induction queue generalizing io with
  | nil => rfl
  | cons msg queue ih => rw [List.foldl_cons, ih, handle_config]

/-- A map over the items that keeps what does not change. -/
theorem ids_map (keeps : ∀ io, (f io).config = io.config) :
    (l.map f).map OPCAttribute.id = l.map OPCAttribute.id := by
  rw [List.map_map]
  exact List.map_congr_left fun io _ =>
    OPCAttribute.eq_of_config OPCAttribute.id (fun _ => rfl) (keeps io)

/-- **All messages of the queue**: each item takes its own ones. -/
theorem foldl_sensorInfo (works : s.isLocalwork = true) (unforced : s.forceOut = false)
    (ids : (s.iolist.map OPCAttribute.id).Nodup)
    (mode : ∀ msg ∈ queue, s.sidExchangeMode = some msg.1 → msg.2 = s.exchangeMode) :
    queue.foldl sensorInfo s =
      { s with iolist := s.iolist.map fun io => queue.foldl (handle s.sm s.force) io } := by
  induction queue generalizing s with
  | nil => simp
  | cons msg queue ih =>
    have first : s.sensorInfo msg =
        { s with iolist := s.iolist.map fun io => handle s.sm s.force io msg } := by
      have kept : (if s.sidExchangeMode = some msg.1 then msg.2 else s.exchangeMode) =
          s.exchangeMode := by
        split
        · next sid => exact mode msg List.mem_cons_self sid
        · rfl
      rw [sensorInfo, works, unforced, if_neg (by simp), kept, updateFirst_eq ids]
      rfl
    rw [List.foldl_cons, first]
    refine (@ih { s with iolist := s.iolist.map fun io => handle s.sm s.force io msg }
      works unforced ?_ ?_).trans ?_
    · dsimp only
      rwa [ids_map fun io => handle_config _ _ _ _]
    · exact fun msg listed => mode msg (List.mem_cons_of_mem _ listed)
    · simp only [List.map_map]
      rfl

/-- Messages are not handled where sensors are not asked for. -/
theorem foldl_unasked (unasked : (!s.isLocalwork || s.forceOut) = true) (queue : List (ObjectId × Int)) :
    queue.foldl sensorInfo s = s := by
  induction queue with
  | nil => rfl
  | cons msg queue ih => rw [List.foldl_cons, sensorInfo, if_pos unasked, ih]

/-- The value of the last message of a sensor. -/
def lastValue (queue : List (ObjectId × Int)) (id : ObjectId) : Option Int :=
  (queue.filter fun msg => msg.1 = id).getLast?.map Prod.snd

theorem lastValue_append (queue : List (ObjectId × Int)) (msg : ObjectId × Int) (id : ObjectId) :
    lastValue (queue ++ [msg]) id = if msg.1 = id then some msg.2 else lastValue queue id := by
  rw [lastValue, List.filter_append]
  by_cases same : msg.1 = id
  · simp [same]
  · simp [same, lastValue]

/-- **The copy of an output after all messages**: the value of the last one. -/
theorem foldl_handle_val (good : io.Good) (clean : io.Clean) (sm : SMValues) (force : Bool)
    (queue : List (ObjectId × Int)) :
    (queue.foldl (handle sm force) io).val =
      (lastValue queue io.id).elim io.val fun value => io.field (if force then sm io.id else value) := by
  induction queue using List.reverseRecOn with
  | nil => rfl
  | append_singleton queue msg ih =>
    rw [List.foldl_append, List.foldl_cons, List.foldl_nil, lastValue_append]
    let io' := queue.foldl (handle sm force) io
    have same' : io'.config = io.config := foldl_handle_config sm force queue io
    have same : io'.id = io.id := OPCAttribute.eq_of_config OPCAttribute.id (fun _ => rfl) same'
    have good' := good.config same'
    have clean' : io'.Clean := by
      rw [OPCAttribute.Clean, ih, OPCAttribute.eq_of_config OPCAttribute.mask (fun _ => rfl) same']
      cases lastValue queue io.id with
      | none => exact clean
      | some value => exact OPCAttribute.field_clean _ _
    show (handle sm force io' msg).val = _
    rw [handle, same]
    by_cases own : io.id = msg.1
    · rw [if_pos own, if_pos own.symm, Option.elim_some,
        OPCAttribute.onMessage_val good'.plain good'.output good'.mask clean', same,
        OPCAttribute.field_config same']
    · rw [if_neg own, if_neg (Ne.symm own), ih]

/-! ### What holds between the events -/

/-- **The invariant**: an output has the value of SharedMemory, or the last message of its sensor
does. -/
structure Inv (s : Exchange Node) : Prop where
  ids : (s.iolist.map OPCAttribute.id).Nodup
  groups : ∀ io ∈ s.iolist, io.isOutput = true → io.tick ∈ s.writeGroups
  mode : s.exchangeMode = emNone
  modeSM : ∀ sid ∈ s.sidExchangeMode, s.sm sid = emNone
  modeQueue : ∀ msg ∈ s.queue, s.sidExchangeMode = some msg.1 → msg.2 = emNone
  clean : ∀ io ∈ s.iolist, io.Good → io.Clean
  news : s.isLocalwork = true → s.forceOut = false → ∀ io ∈ s.iolist, io.Good →
    (lastValue s.queue io.id).elim (io.val = io.field (s.sm io.id)) (· = s.sm io.id)
  idle : ¬s.Applies → ∀ io ∈ s.iolist, io.Good → io.val = 0

/-- The copy of an output after an update. -/
def updated (s : Exchange Node) (io : OPCAttribute Node) : Word :=
  if s.Applies then io.field (s.sm io.id) else 0

/-- **What an update does.** -/
theorem Inv.update_eq (inv : Inv s) : ∃ f : OPCAttribute Node → OPCAttribute Node,
    (∀ io, (f io).config = io.config) ∧ s.update = { s with iolist := s.iolist.map f, queue := [] } ∧
      ∀ io ∈ s.iolist, io.Good → (f io).val = s.updated io := by
  rcases Bool.eq_false_or_eq_true s.isLocalwork with own | own
  · rcases Bool.eq_false_or_eq_true s.forceOut with forced | forced
    · have applies' : ¬s.Applies := by simp [Applies, own, forced]
      refine ⟨id, fun _ => rfl, ?_, fun io mem good => ?_⟩
      · rw [update, foldl_unasked (by simp [forced]), updateFromSM, if_pos (by simp [own]), List.map_id]
      · rw [updated, if_neg applies']
        exact inv.idle applies' io mem good
    · have applies : s.Applies := Or.inl ⟨own, forced⟩
      refine ⟨fun io => s.queue.foldl (handle s.sm s.force) io, fun io => foldl_handle_config _ _ _ _,
        ?_, fun io mem good => ?_⟩
      · rw [update, foldl_sensorInfo own forced inv.ids, updateFromSM, if_pos (by simp [own])]
        exact fun msg listed sensor => (inv.modeQueue msg listed sensor).trans inv.mode.symm
      · have new := inv.news own forced io mem good
        rw [foldl_handle_val good (inv.clean io mem good), updated, if_pos applies]
        cases last : lastValue s.queue io.id with
        | none =>
          rw [last] at new
          exact new
        | some value =>
          rw [last] at new
          obtain rfl : value = s.sm io.id := new
          rw [Option.elim_some, ite_self]
  · have unasked : s.queue.foldl sensorInfo s = s := foldl_unasked (by simp [own]) _
    rcases Bool.eq_false_or_eq_true s.forceOut with forced | forced
    · have applies : s.Applies := Or.inr ⟨own, forced⟩
      have same : s.sidExchangeMode.elim s.exchangeMode s.sm = s.exchangeMode := by
        cases sensor : s.sidExchangeMode with
        | none => rfl
        | some sid => exact (inv.modeSM sid sensor).trans inv.mode.symm
      refine ⟨fun io => if io.ignore then io else io.fromSM s.sm true, fun io => ?_, ?_,
        fun io mem good => ?_⟩
      · dsimp only
        split
        · rfl
        · exact OPCAttribute.fromSM_config _ _ _
      · rw [update, unasked, updateFromSM, if_neg (by simp [own, forced])]
        dsimp only
        rw [same, if_pos (by rw [inv.mode]; decide)]
      · have active := OPCAttribute.active_of_isOutput good.output
        dsimp only
        rw [active, if_neg Bool.false_ne_true, updated, if_pos applies,
          OPCAttribute.fromSM_val good.plain good.output good.mask (inv.clean io mem good), if_pos rfl]
    · have applies' : ¬s.Applies := by simp [Applies, own, forced]
      refine ⟨id, fun _ => rfl, ?_, fun io mem good => ?_⟩
      · rw [update, unasked, updateFromSM, if_pos (by simp [forced]), List.map_id]
      · rw [updated, if_neg applies']
        exact inv.idle applies' io mem good

/-! ### A cycle -/

theorem requests_map (keeps : ∀ io, (f io).config = io.config) {s' : Exchange Node}
    (list : s'.iolist = s.iolist.map f) (groups : s'.writeGroups = s.writeGroups) (tick : Nat) :
    s'.requests tick = (s.requests tick).map f := by
  rw [requests, requests, list, groups, List.map_flatMap]
  congr 1
  funext group
  rw [List.filter_map]
  congr 2
  funext io
  exact OPCAttribute.eq_of_config (fun io => io.isOutput && decide (io.tick = group)) (fun _ => rfl) (keeps io)

theorem lastRequest_map (keeps : ∀ io, (f io).config = io.config) {s' : Exchange Node}
    (list : s'.iolist = s.iolist.map f) (groups : s'.writeGroups = s.writeGroups) (a : Node)
    (tick : Nat) :
    s'.lastRequest a tick = (s.lastRequest a tick).map f := by
  have name : (fun io => decide (io.attrName = a)) ∘ f = fun io => decide (io.attrName = a) := by
    funext io
    exact OPCAttribute.eq_of_config (fun io => decide (io.attrName = a)) (fun _ => rfl) (keeps io)
  rw [lastRequest, lastRequest, requests_map keeps list groups, List.filter_map, name, List.getLast?_map]

theorem lastRequest_mem {a : Node} (found : s.lastRequest a tick = some io) :
    io ∈ s.iolist ∧ io.isOutput = true ∧ io.attrName = a := by
  have mem := List.mem_of_getLast? found
  rw [List.mem_filter, requests, List.mem_flatMap] at mem
  obtain ⟨⟨group, -, listed⟩, name⟩ := mem
  obtain ⟨listed, out⟩ := List.mem_filter.mp listed
  exact ⟨listed, (Bool.and_eq_true_iff.mp out).1, of_decide_eq_true name⟩

/-- An output whose request is due has a request, and so there is a last one. -/
theorem lastRequest_isSome {a : Node} (mem : io ∈ s.iolist) (name : io.attrName = a)
    (out : io.isOutput = true) (group : io.tick ∈ s.writeGroups)
    (asked : due tick io.tick = true) : ∃ last, s.lastRequest a tick = some last := by
  have mem' : io ∈ (s.requests tick).filter fun io => io.attrName = a := by
    rw [List.mem_filter, requests, List.mem_flatMap]
    refine ⟨⟨io.tick, List.mem_filter.mpr ⟨group, asked⟩, List.mem_filter.mpr ⟨mem, ?_⟩⟩, ?_⟩
    · simp [out]
    · simp [name]
  exact ⟨_, List.getLast?_eq_some_getLast (List.ne_nil_of_mem mem')⟩

/-- The items after `updateToChannel`. -/
def toChannelItem (io : OPCAttribute Node) : OPCAttribute Node := if io.ignore then io else io.toChannel

theorem toChannelItem_config (io : OPCAttribute Node) : (toChannelItem io).config = io.config := by
  rw [toChannelItem]
  split
  · rfl
  · exact OPCAttribute.toChannel_config io

/-- The copy of an output is what its request has. -/
theorem toChannelItem_wval (out : io.isOutput = true) :
    (toChannelItem io).wval = io.uaType.store io.val := by
  rw [isOutput, Bool.and_eq_true, Bool.not_eq_true'] at out
  rw [toChannelItem, out.1, if_neg Bool.false_ne_true, OPCAttribute.toChannel]
  split
  · rfl
  · rfl
  · next stype => simp [stype] at out
  · next stype => simp [stype] at out

/-- **What is in a variable after a cycle**: the copy of the last request's sensor. -/
theorem written_eq (mode : s.exchangeMode = emNone) (a : Node) (tick : Nat) :
    s.updateToChannel.written tick true a =
      ((s.lastRequest a tick).map fun io => io.uaType.store io.val).getD (s.nodes a) := by
  have update : s.updateToChannel = { s with iolist := s.iolist.map toChannelItem } := by
    rw [updateToChannel, if_neg (by rw [mode]; decide)]
    rfl
  rw [update, written, if_pos (by simp [mode, emNone, emReadOnly]), writeAll_last]
  have request : lastRequest { s with iolist := s.iolist.map toChannelItem } a tick =
      (s.lastRequest a tick).map toChannelItem :=
    lastRequest_map toChannelItem_config (by rfl) (by rfl) a tick
  show ((lastRequest { s with iolist := s.iolist.map toChannelItem } a tick).map wval).getD _ = _
  rw [request, Option.map_map]
  cases last : s.lastRequest a tick with
  | none => rfl
  | some io => exact toChannelItem_wval (lastRequest_mem last).2.1

/-- The value that is read comes to an input. -/
def readItem (nodes : Node → Word) (tick : Nat) (io : OPCAttribute Node) : OPCAttribute Node :=
  if io.isInput && due tick io.tick then { io with rval := nodes io.attrName } else io

/-- The items after `updateFromChannel`. -/
def fromChannelItem (io : OPCAttribute Node) : OPCAttribute Node :=
  if io.ignore then io else io.fromChannel

theorem readItem_config (nodes : Node → Word) (tick : Nat) (io : OPCAttribute Node) :
    (readItem nodes tick io).config = io.config := by
  rw [readItem]
  split
  · rfl
  · rfl

theorem fromChannelItem_config (io : OPCAttribute Node) : (fromChannelItem io).config = io.config := by
  rw [fromChannelItem]
  split
  · rfl
  · exact OPCAttribute.fromChannel_config io

/-- An item after a cycle that leaves the variables so. -/
def cycleItem (nodes : Node → Word) (tick : Nat) (io : OPCAttribute Node) : OPCAttribute Node :=
  fromChannelItem (readItem nodes tick (toChannelItem io))

theorem cycleItem_config (nodes : Node → Word) (tick : Nat) (io : OPCAttribute Node) :
    (cycleItem nodes tick io).config = io.config := by
  rw [cycleItem, fromChannelItem_config, readItem_config, toChannelItem_config]

theorem cycleItem_output (out : io.isOutput = true) (nodes : Node → Word) (tick : Nat) :
    (cycleItem nodes tick io).val = io.val := by
  rw [isOutput, Bool.and_eq_true, Bool.not_eq_true'] at out
  obtain ⟨active, kind⟩ := out
  rw [cycleItem, toChannelItem, active, if_neg Bool.false_ne_true]
  have stype' : io.stype = .AO ∨ io.stype = .DO := by simpa using kind
  rcases stype' with stype' | stype'
  · simp [OPCAttribute.toChannel, readItem, fromChannelItem, OPCAttribute.fromChannel,
      OPCAttribute.isInput, stype', active]
  · simp [OPCAttribute.toChannel, readItem, fromChannelItem, OPCAttribute.fromChannel,
      OPCAttribute.isInput, stype', active]

/-- **An input after a cycle it is read in.** -/
theorem cycleItem_input (active : io.ignore = false) (asked : due tick io.tick = true)
    (nodes : Node → Word) :
    (io.stype = .AI →
      (cycleItem nodes tick io).val = getBits (nodes io.attrName) io.mask io.offset) ∧
    (io.stype = .DI → (cycleItem nodes tick io).val =
      getBits (if nodes io.attrName ≠ 0 then 1 else 0) io.mask io.offset) := by
  rw [cycleItem, toChannelItem, active, if_neg Bool.false_ne_true]
  constructor
  · intro kind
    simp [OPCAttribute.toChannel, readItem, fromChannelItem, OPCAttribute.fromChannel,
      OPCAttribute.isInput, OPCAttribute.offset, kind, active, asked]
  · intro kind
    simp [OPCAttribute.toChannel, readItem, fromChannelItem, OPCAttribute.fromChannel,
      OPCAttribute.isInput, OPCAttribute.offset, kind, active, asked]

/-- The variables after a cycle. -/
def afterCycle (s : Exchange Node) (tick : Nat) : Node → Word := s.updateToChannel.written tick true

/-- **A cycle**, item by item. -/
theorem cycle_eq (mode : s.exchangeMode = emNone) (tick : Nat) :
    s.cycle tick = { s with
      nodes := s.afterCycle tick
      iolist := s.iolist.map (cycleItem (s.afterCycle tick) tick) } := by
  have update : s.updateToChannel = { s with iolist := s.iolist.map toChannelItem } := by
    rw [updateToChannel, if_neg (by rw [mode]; decide)]
    rfl
  have exchange : s.updateToChannel.channelExchange tick true = { s with
      nodes := s.afterCycle tick
      iolist := (s.iolist.map toChannelItem).map (readItem (s.afterCycle tick) tick) } := by
    rw [channelExchange, if_neg (by rw [update]; dsimp only; rw [mode]; decide), if_pos
      (by rw [update]; dsimp only; rw [mode]; decide), ← afterCycle, update]
    rfl
  rw [cycle, exchange, updateFromChannel, if_neg (by dsimp only; rw [mode]; decide)]
  simp only [List.map_map]
  rfl

/-! ### Runs -/

theorem mem_of_lastValue {id : ObjectId} {value : Int} (found : lastValue queue id = some value) :
    (id, value) ∈ queue := by
  obtain ⟨msg, listed, rfl⟩ := Option.map_eq_some_iff.mp found
  obtain ⟨mem, same⟩ := List.mem_filter.mp (List.mem_of_getLast? listed)
  obtain rfl := of_decide_eq_true same
  exact mem

theorem lastValue_isSome {msg : ObjectId × Int} (mem' : msg ∈ queue) :
    ∃ value, lastValue queue msg.1 = some value := by
  have mem : msg ∈ queue.filter fun m => m.1 = msg.1 := List.mem_filter.mpr ⟨mem', by simp⟩
  rw [lastValue, List.getLast?_eq_some_getLast (List.ne_nil_of_mem mem)]
  exact ⟨_, rfl⟩

/-- The outputs are asked for where messages are handled. -/
theorem mem_askSensors (works : s.isLocalwork = true) (force : s.forceOut = false)
    (mem : io ∈ s.iolist) (out : io.isOutput = true) : io.id ∈ s.askSensors := by
  rw [askSensors, if_neg (by simp [works, force])]
  exact List.mem_append_left _ (List.mem_map_of_mem (List.mem_filter.mpr ⟨mem, out⟩))

theorem Inv.start (start : machine.start s) : Inv s := by
  obtain ⟨ids, groups, vals, queued, mode, sid⟩ := start
  refine ⟨ids, groups, mode, sid, fun msg listed same => ?_, fun io mem _ => ?_,
    fun own force io mem good => ?_, fun _ io mem _ => vals io mem⟩
  · rw [queued] at listed
    obtain ⟨id, -, rfl⟩ := List.mem_map.mp listed
    exact sid id same
  · rw [OPCAttribute.Clean, vals io mem]
    exact BitVec.zero_and
  · have mem' : (io.id, s.sm io.id) ∈ s.queue := by
      rw [queued]
      exact List.mem_map.mpr ⟨_, mem_askSensors own force mem good.output, rfl⟩
    obtain ⟨value, valued⟩ := lastValue_isSome mem'
    have there := mem_of_lastValue valued
    rw [queued] at there
    obtain ⟨id, -, same⟩ := List.mem_map.mp there
    obtain ⟨rfl, rfl⟩ := Prod.mk.inj same
    rw [valued]
    rfl

/-- The items of a state after a map that keeps what does not change. -/
theorem mem_map_good (keeps : ∀ io, (f io).config = io.config) {P : OPCAttribute Node → Prop}
    (holds : ∀ io ∈ l, io.Good → P (f io)) : ∀ io ∈ l.map f, io.Good → P io := by
  intro io' mem' good
  obtain ⟨io, mem, rfl⟩ := List.mem_map.mp mem'
  exact holds io mem (good.config (keeps io).symm)

theorem Inv.change (inv : Inv s) {id : ObjectId} {value : Int}
    (holds : s.sidExchangeMode = some id → value = emNone) : Inv (s.change id value) := by
  rw [Exchange.change]
  split
  · exact inv
  · have holds' : ∀ {sid : ObjectId}, sid ≠ id → Function.update s.sm id value sid = s.sm sid :=
      fun apart => Function.update_of_ne apart _ _
    refine ⟨inv.ids, inv.groups, inv.mode, fun sid mode => ?_, fun msg listed same => ?_, inv.clean,
      fun own force io mem good => ?_, inv.idle⟩
    · by_cases other : sid = id
      · subst other
        exact (Function.update_self _ _ _).trans (holds mode)
      · exact (holds' other).trans (inv.modeSM sid mode)
    · dsimp only at listed
      split at listed
      · rcases List.mem_append.mp listed with listed | listed
        · exact inv.modeQueue msg listed same
        · obtain rfl := List.mem_singleton.mp listed
          exact holds same
      · exact inv.modeQueue msg listed same
    · have new := inv.news own force io mem good
      dsimp only
      by_cases other : id = io.id
      · subst other
        have asked : io.id ∈ s.askSensors := mem_askSensors own force mem good.output
        rw [if_pos asked, lastValue_append, if_pos rfl, Function.update_self]
        rfl
      · have last : lastValue (if id ∈ s.askSensors then s.queue ++ [(id, value)] else s.queue) io.id =
            lastValue s.queue io.id := by
          split
          · rw [lastValue_append, if_neg other]
          · rfl
        rw [last, holds' (Ne.symm other)]
        exact new

theorem updated_clean (io : OPCAttribute Node) : s.updated io &&& ~~~io.mask = 0 := by
  rw [updated]
  split
  · exact OPCAttribute.field_clean _ _
  · exact BitVec.zero_and

/-- Items that keep their configuration keep their identifiers and their groups. -/
theorem Inv.map_config (inv : Inv s) (keeps : ∀ io, (f io).config = io.config) :
    ((s.iolist.map f).map OPCAttribute.id).Nodup ∧
      ∀ io ∈ s.iolist.map f, io.isOutput = true → io.tick ∈ s.writeGroups := by
  constructor
  · rw [ids_map keeps]
    exact inv.ids
  · intro io' mem' out
    obtain ⟨io, mem, rfl⟩ := List.mem_map.mp mem'
    have group := inv.groups io mem
    rw [← OPCAttribute.eq_of_config isOutput (fun _ => rfl) (keeps io)] at group
    rw [OPCAttribute.eq_of_config OPCAttribute.tick (fun _ => rfl) (keeps io)]
    exact group out

theorem Inv.update (inv : Inv s) : Inv s.update := by
  obtain ⟨f, keeps, same, valued⟩ := inv.update_eq
  rw [same]
  have same' : ∀ io, (f io).id = io.id := fun io =>
    OPCAttribute.eq_of_config OPCAttribute.id (fun _ => rfl) (keeps io)
  obtain ⟨ids, groups⟩ := inv.map_config keeps
  refine ⟨ids, groups, inv.mode, inv.modeSM, fun msg listed => absurd listed List.not_mem_nil, ?_, ?_, ?_⟩
  · refine mem_map_good keeps fun io mem good => ?_
    rw [OPCAttribute.Clean, valued io mem good, OPCAttribute.eq_of_config OPCAttribute.mask (fun _ => rfl) (keeps io)]
    exact updated_clean io
  · intro own force
    have applies : s.Applies := Or.inl ⟨own, force⟩
    refine mem_map_good keeps fun io mem good => ?_
    show (f io).val = (f io).field (s.sm (f io).id)
    rw [valued io mem good, same' io, OPCAttribute.field_config (keeps io), updated, if_pos applies]
  · intro idle
    have idle' : ¬s.Applies := idle
    refine mem_map_good keeps fun io mem good => ?_
    rw [valued io mem good, updated, if_neg idle']

theorem Inv.cycle (inv : Inv s) (tick : Nat) : Inv (s.cycle tick) := by
  rw [cycle_eq inv.mode]
  have keeps := cycleItem_config (s.afterCycle tick) tick
  obtain ⟨ids, groups⟩ := inv.map_config keeps
  refine ⟨ids, groups, inv.mode, inv.modeSM, inv.modeQueue, ?_, ?_, ?_⟩
  · refine mem_map_good keeps fun io mem good => ?_
    rw [OPCAttribute.Clean, cycleItem_output good.output,
      OPCAttribute.eq_of_config OPCAttribute.mask (fun _ => rfl) (keeps io)]
    exact inv.clean io mem good
  · intro own force
    refine mem_map_good keeps fun io mem good => ?_
    rw [cycleItem_output good.output, OPCAttribute.eq_of_config OPCAttribute.id (fun _ => rfl) (keeps io),
      OPCAttribute.field_config (keeps io)]
    exact inv.news own force io mem good
  · intro rests
    refine mem_map_good keeps fun io mem good => ?_
    rw [cycleItem_output good.output]
    exact inv.idle rests io mem good

/-- The invariant holds after every run in `emNone`. -/
theorem Inv.run {s₀ : Exchange Node} (started : machine.start s₀) {events : List Event}
    (meets : machine.Meets EmNone s₀ events) (ran : machine.run s₀ events = some s) : Inv s := by
  refine Machine.run_invariant (fun s event t inv cond step => ?_) (Inv.start started) meets ran
  cases event with
  | change id value => exact Option.some.inj step ▸ inv.change cond
  | update => exact Option.some.inj step ▸ inv.update
  | cycle tick => exact Option.some.inj step ▸ inv.cycle tick

/-! ### All sensors of a variable -/

/-- **What an update and a cycle leave in a variable.** -/
theorem Inv.nodes_eq (inv : Inv s) {a : Node} (sharing : s.Sharing a tick) :
    (s.update.cycle tick).nodes a = s.finalWord a tick := by
  obtain ⟨f, keeps, same'', valued⟩ := inv.update_eq
  have same' : s.update.exchangeMode = emNone := inv.update.mode
  have request : s.update.lastRequest a tick = (s.lastRequest a tick).map f := by
    rw [same'']
    exact lastRequest_map keeps (by rfl) (by rfl) a tick
  have same : s.update.nodes = s.nodes := by rw [same'']
  rw [cycle_eq same']
  show s.update.updateToChannel.written tick true a = _
  rw [written_eq same', request, same, Option.map_map, finalWord]
  cases last : s.lastRequest a tick with
  | none => rfl
  | some io =>
    obtain ⟨mem, out, name⟩ := lastRequest_mem last
    have active := OPCAttribute.active_of_isOutput out
    have good : io.Good := ⟨out, sharing.mask io mem name active, sharing.plain io mem name active⟩
    show (f io).uaType.store (f io).val = s.updated io
    rw [OPCAttribute.eq_of_config OPCAttribute.uaType (fun _ => rfl) (keeps io),
      UaType.store_wide good.plain.wide, valued io mem good]

/-- The item an update and a cycle make of one. -/
theorem Inv.items_eq (inv : Inv s) (tick : Nat) : ∃ f : OPCAttribute Node → OPCAttribute Node,
    (∀ io, (f io).config = io.config) ∧ (s.update.cycle tick).sm = s.sm ∧
      (s.update.cycle tick).iolist =
        s.iolist.map fun io => cycleItem (s.update.cycle tick).nodes tick (f io) := by
  obtain ⟨f, keeps, same, -⟩ := inv.update_eq
  refine ⟨f, keeps, ?_, ?_⟩
  · rw [cycle_eq inv.update.mode, same]
  · rw [cycle_eq inv.update.mode]
    dsimp only
    rw [same, List.map_map]
    rfl

/-- An output agrees with the variable exactly if it is the last one or has no bits to send. -/
theorem Inv.output_iff (inv : Inv s) {a : Node} (sharing : s.Sharing a tick) (mem : io ∈ s.iolist)
    (name : io.attrName = a) (out : io.isOutput = true) :
    s.finalWord a tick &&& io.mask = io.field (s.sm io.id) ↔
      ((¬s.Applies ∨ (s.lastRequest a tick).map OPCAttribute.id ≠ some io.id) →
        io.field (s.sm io.id) = 0) := by
  have active := OPCAttribute.active_of_isOutput out
  obtain ⟨last, lst⟩ := lastRequest_isSome mem name out (inv.groups io mem out)
    (sharing.due io mem name active)
  obtain ⟨member, lastOut, lastName⟩ := lastRequest_mem lst
  rw [finalWord, lst, Option.map_some, Option.getD_some, Option.map_some]
  by_cases applies : s.Applies
  · rw [if_pos applies]
    by_cases same' : last.id = io.id
    · obtain rfl : last = io := List.inj_on_of_nodup_map inv.ids member mem same'
      refine iff_of_true ?_ fun cond => ?_
      · rw [OPCAttribute.field, BitVec.and_assoc, BitVec.and_self]
      · rcases cond with cond | cond
        · exact absurd applies cond
        · exact absurd rfl cond
    · have zero : last.field (s.sm last.id) &&& io.mask = 0 := by
        rw [OPCAttribute.field, BitVec.and_assoc, sharing.disjoint last member io mem lastName name lastOut out same']
        exact BitVec.and_zero
      rw [zero]
      refine ⟨fun agrees _ => agrees.symm, fun cond => (cond (Or.inr ?_)).symm⟩
      exact fun same => same' (Option.some.inj same)
  · have zero : (0 : Word) &&& io.mask = 0 := BitVec.zero_and
    rw [if_neg applies, zero]
    exact ⟨fun agrees _ => agrees.symm, fun cond => (cond (Or.inl applies)).symm⟩

theorem discrete_iff {w mask : Word} {bit : Prop} :
    ((w ≠ 0 ∧ bit) ↔ w &&& mask ≠ 0) ↔ w = 0 ∨ (w &&& mask ≠ 0 ↔ bit) := by
  by_cases zero : w = 0
  · have same : (0 : Word) &&& mask = 0 := BitVec.zero_and
    simp only [zero, same, ne_eq, not_true_eq_false, false_and, true_or]
  · simp only [zero, ne_eq, not_false_eq_true, true_and, false_or]
    exact Iff.comm

theorem input_eq {nodes : Node → Word} {a : Node} (sharing : s.Sharing a tick)
    (keeps : ∀ io, (f io).config = io.config) (mem : io ∈ s.iolist) (name : io.attrName = a)
    (input : io.isInput = true) :
    io.mask ≠ 0 ∧
      (io.stype = .AI → (cycleItem nodes tick (f io)).val = getBits (nodes a) io.mask io.offset) ∧
      (io.stype = .DI →
        (cycleItem nodes tick (f io)).val = getBits (if nodes a ≠ 0 then 1 else 0) io.mask io.offset) := by
  have active := OPCAttribute.active_of_isInput input
  have read := cycleItem_input
    ((OPCAttribute.eq_of_config OPCAttribute.ignore (fun _ => rfl) (keeps io)).trans active)
    ((OPCAttribute.eq_of_config (fun io => due tick io.tick) (fun _ => rfl) (keeps io)).trans
      (sharing.due io mem name active)) nodes
  rw [OPCAttribute.eq_of_config (fun io => io.stype) (fun _ => rfl) (keeps io),
    OPCAttribute.eq_of_config OPCAttribute.attrName (fun _ => rfl) (keeps io),
    OPCAttribute.eq_of_config OPCAttribute.mask (fun _ => rfl) (keeps io),
    OPCAttribute.eq_of_config OPCAttribute.offset (fun _ => rfl) (keeps io), name] at read
  exact ⟨sharing.mask io mem name active, read⟩

/-- **The sensors of a variable agree with it after an update and a cycle exactly if they fit.** -/
theorem shares_iff {s₀ : Exchange Node} (started : machine.start s₀) {events : List Event}
    (meets : machine.Meets EmNone s₀ events) (ran : machine.run s₀ events = some s) {a : Node}
    {tick : Nat} (sharing : s.Sharing a tick) :
    (s.update.cycle tick).Shares a ↔ s.Fits a tick := by
  have inv := Inv.run started meets ran
  obtain ⟨f, keeps, memory, list⟩ := inv.items_eq tick
  have word := inv.nodes_eq sharing
  let g : OPCAttribute Node → OPCAttribute Node := fun io =>
    cycleItem (s.update.cycle tick).nodes tick (f io)
  have kept : ∀ io, (g io).config = io.config := fun io => (cycleItem_config _ _ _).trans (keeps io)
  have mem' : ∀ {P : OPCAttribute Node → Prop}, (∀ io ∈ (s.update.cycle tick).iolist, P io) ↔
      ∀ io ∈ s.iolist, P (g io) := by
    intro P
    rw [list]
    exact List.forall_mem_map
  have same : ∀ io, (g io).offset = io.offset := fun io =>
    OPCAttribute.eq_of_config OPCAttribute.offset (fun _ => rfl) (kept io)
  have equal : ∀ io, (g io).mask = io.mask := fun io =>
    OPCAttribute.eq_of_config OPCAttribute.mask (fun _ => rfl) (kept io)
  have name : ∀ io, (g io).attrName = io.attrName := fun io =>
    OPCAttribute.eq_of_config OPCAttribute.attrName (fun _ => rfl) (kept io)
  have holds' : (∀ io ∈ (s.update.cycle tick).iolist, io.attrName = a → io.isOutput = true →
      ((s.update.cycle tick).nodes a &&& io.mask) >>> io.offset =
        ((io.sent ((s.update.cycle tick).sm io.id) <<< io.offset) &&& io.mask) >>> io.offset) ↔
      ∀ io ∈ s.iolist, io.attrName = a → io.isOutput = true →
        (¬s.Applies ∨ (s.lastRequest a tick).map OPCAttribute.id ≠ some io.id) →
          io.field (s.sm io.id) = 0 := by
    rw [mem']
    refine forall_congr' fun io => forall_congr' fun mem => ?_
    have equal' : ∀ value, (g io).sent value = io.sent value := fun value =>
      OPCAttribute.eq_of_config (fun io => io.sent value) (fun _ => rfl) (kept io)
    rw [name, OPCAttribute.eq_of_config isOutput (fun _ => rfl) (kept io), equal, same, equal', word,
      memory, OPCAttribute.eq_of_config OPCAttribute.id (fun _ => rfl) (kept io)]
    refine forall_congr' fun name => forall_congr' fun out => ?_
    rw [← inv.output_iff sharing mem name out]
    exact shift_eq_iff
  have same' : ∀ io, (g io).stype = io.stype := fun io =>
    OPCAttribute.eq_of_config (fun io => io.stype) (fun _ => rfl) (kept io)
  have input : ∀ io, (g io).isInput = io.isInput := fun io =>
    OPCAttribute.eq_of_config isInput (fun _ => rfl) (kept io)
  have analog : ∀ io ∈ (s.update.cycle tick).iolist, io.attrName = a → io.isInput = true →
      io.stype = .AI → io.val = ((s.update.cycle tick).nodes a &&& io.mask) >>> io.offset := by
    rw [mem']
    intro io mem
    rw [name, input, same', equal, same]
    intro name input' analog'
    obtain ⟨zero, valued, -⟩ := input_eq sharing keeps mem name input'
    rw [valued analog', getBits, if_neg zero]
  have holds : (∀ io ∈ (s.update.cycle tick).iolist, io.attrName = a → io.isInput = true →
      io.stype = .DI → (io.val = 1 ↔ (s.update.cycle tick).nodes a &&& io.mask ≠ 0)) ↔
      ∀ io ∈ s.iolist, io.attrName = a → io.isInput = true → io.stype = .DI →
        s.finalWord a tick = 0 ∨ (s.finalWord a tick &&& io.mask ≠ 0 ↔ io.mask.getLsbD 0 = true) := by
    rw [mem']
    refine forall_congr' fun io => forall_congr' fun mem => ?_
    rw [name, input, same', equal]
    refine forall_congr' fun name => forall_congr' fun input' => forall_congr' fun discrete' => ?_
    obtain ⟨zero, -, valued⟩ := input_eq sharing keeps mem name input'
    rw [valued discrete', word, OPCAttribute.offset, OPCAttribute.getBits_bit zero]
    exact discrete_iff
  constructor
  · exact fun shares => ⟨holds'.mp shares.output, holds.mp shares.discrete⟩
  · exact fun fits => ⟨holds'.mpr fits.output, analog, holds.mpr fits.discrete⟩

/-! ### Two outputs of one variable -/

/-- A sensor without conversions, bound to the only variable. -/
def bound (id : ObjectId) (stype : IOType) (mask : Word) : OPCAttribute Unit where
  si := ⟨id, 0⟩
  stype := stype
  value := 0
  invert := false
  rawdata := false
  depend := none
  filter := none
  filtered := []
  cal := none
  debounced := fun state => state
  ignore := false
  tick := 0
  mask := mask
  attrName := ()
  uaType := .int32
  val := 0
  wval := 0
  rval := 0

/-- An exchange without a pointer to SharedMemory, with some sensors at some values. -/
def remote (iolist : List (OPCAttribute Unit)) (sm : SMValues) : Exchange Unit where
  isLocalwork := true
  force := false
  forceOut := false
  sidExchangeMode := none
  exchangeMode := emNone
  iolist := iolist
  writeGroups := [0]
  nodes := fun _ => 0
  sm := sm
  queue := ((iolist.filter isOutput).map OPCAttribute.id).map fun id => (id, sm id)

/-- Two outputs with one bit each, an analog input and a discrete one with a mask. -/
def sensors (mask : Word) : List (OPCAttribute Unit) :=
  [bound 1 .AO 1, bound 2 .AO 2, bound 3 .AI 3, bound 4 .DI mask]

theorem sensors_start (mask : Word) (sm : SMValues) : machine.start (remote (sensors mask) sm) := by
  refine ⟨?_, ?_, ?_, ?_, rfl, fun _ none' => nomatch none'⟩
  · show [1, 2, 3, 4].Nodup
    decide
  · simp [remote, sensors, bound]
  · simp [remote, sensors, bound]
  · simp [remote, askSensors]

theorem sensors_sharing {s : Exchange Unit} {mask : Word} (apart : mask ≠ 0)
    (list : s.iolist = sensors mask) : s.Sharing () 1 := by
  refine ⟨?_, ?_, ?_, ?_⟩
  · simpa [list, sensors, bound] using apart
  · simp [list, sensors, bound, isOutput, OPCAttribute.id]
  · rw [list]
    intro io mem _ _
    simp only [sensors, List.mem_cons, List.not_mem_nil, or_false] at mem
    rcases mem with rfl | rfl | rfl | rfl
    · exact ⟨rfl, rfl, rfl, rfl⟩
    · exact ⟨rfl, rfl, rfl, rfl⟩
    · exact ⟨rfl, rfl, rfl, rfl⟩
    · exact ⟨rfl, rfl, rfl, rfl⟩
  · simp [list, sensors, bound, due]

/-- One of the outputs gets the value 1. -/
def turnedOn (mask : Word) (id : ObjectId) : Exchange Unit :=
  (remote (sensors mask) fun _ => 0).change id 1

theorem turnedOn_run (mask : Word) (id : ObjectId) :
    machine.run (remote (sensors mask) fun _ => 0) [.change id 1] = some (turnedOn mask id) := rfl

/-- The output written last is in the variable, and inputs read it. -/
theorem second_shared : ((turnedOn 3 2).update.cycle 1).Shares () := by
  have meets : machine.Meets EmNone (remote (sensors 3) fun _ => 0) [.change 2 1] :=
    ⟨(fun none' => nomatch none'), fun _ _ => trivial⟩
  have sharing : (turnedOn 3 2).Sharing () 1 := sensors_sharing (by decide) rfl
  exact (shares_iff (sensors_start 3 fun _ => 0) meets (turnedOn_run 3 2) sharing).mpr
    ⟨by decide +kernel, by decide +kernel⟩

/-- **The bit of the first output is lost**: the second one's request writes its own copy after it. And a
discrete input with the second bit does not see it. -/
theorem first_lost :
    (machine.start (remote (sensors 3) fun _ => 0) ∧
      machine.run (remote (sensors 3) fun _ => 0) [.change 1 1] = some (turnedOn 3 1) ∧
        (turnedOn 3 1).Sharing () 1 ∧ ((turnedOn 3 1).update.cycle 1).nodes () = 0 ∧
          ¬((turnedOn 3 1).update.cycle 1).Shares ()) ∧
    ((turnedOn 2 2).Sharing () 1 ∧ ((turnedOn 2 2).update.cycle 1).nodes () = 2 ∧
      ¬((turnedOn 2 2).update.cycle 1).Shares ()) := by
  refine ⟨⟨sensors_start _ _, rfl, sensors_sharing (by decide) rfl, by decide +kernel, fun agrees => ?_⟩,
    sensors_sharing (by decide) rfl, by decide +kernel, fun agrees => ?_⟩
  · have word := agrees.output
    revert word
    decide +kernel
  · have bit := agrees.discrete
    revert bit
    decide +kernel

end Exchange

end UniSet.OPCUAExchange
