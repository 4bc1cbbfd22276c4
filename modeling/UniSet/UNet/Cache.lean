/-
**The iterator cache of `UNetReceiver`.**

The values of a packet are written through cached iterators: for the first identifier of a packet, one
item for every entry. The cache follows the size of the packets, the items follow their identifiers,
and an iterator is found when it is first written through.

* `localSetValueIt` — the write through an iterator: it acts on the sensor the iterator points to.
* `getCache`, `updateItems`, `update` — `getDCache` and `getACache`, the loops of `update`.
* `Owned` — an iterator is unresolved or points to the sensor with the identifier of its item.
* **`cache_transparent`** — for every sequence of packets the writes through the cache are the writes by
  identifier, and every item is owned in every state, within an update too.
-/

import UniSet.Lib.Machine
import UniSet.UNet.Packet
import UniSet.Processes.IOController

namespace UniSet.UNet

open UniSet.Processes

/-- An iterator of the list of sensors: the sensor it points to; `none` is the end of the list, and
an iterator that was never set. -/
abbrev Iterator := Option ObjectId

/-- `CacheItem`. -/
structure CacheItem where
  id : ObjectId
  ioit : Iterator
deriving DecidableEq, Repr

/-- A new item. -/
def CacheItem.new : CacheItem := ⟨defaultObjectId, none⟩

abbrev CacheVec := List CacheItem

/-- `CacheMap`, by `getDataID()`. -/
abbrev CacheMap := ObjectId → Option CacheVec

/-- `d_icache_map` and `a_icache_map`. -/
structure Caches where
  d : CacheMap
  a : CacheMap

/-- The identifiers and values of one kind, as the accessors return them: `stray` is what is read where
the packet has an identifier without a value. -/
def given (stray : Nat → Value) (entries : List (ObjectId × Option Value)) :
    List (ObjectId × Value) :=
  entries.mapIdx fun i e => (e.1, e.2.getD (stray i))

namespace UDPMessage

/-- The discrete entries. -/
def dEntries (m : UDPMessage) : List (ObjectId × Option Value) :=
  m.data.dID.mapIdx fun i id => (toLong id, (m.data.dValue[i]?).map fun b => if b then 1 else 0)

/-- The analog entries. -/
def aEntries (m : UDPMessage) : List (ObjectId × Option Value) :=
  m.data.aID.mapIdx fun i id => (toLong id, (m.data.aValue[i]?).map toLong)

/-- **`getDataID`.** -/
def getDataID (m : UDPMessage) : ObjectId :=
  match m.data.aID, m.data.dID with
  | id :: _, _ => toLong id
  | [], id :: _ => toLong id
  | [], [] => toLong m.num

end UDPMessage

/-! ### The cache -/

/-- The check of an item before it is used: another identifier resets the iterator. -/
def CacheItem.reinit (item : CacheItem) (id : ObjectId) : CacheItem :=
  if item.id ≠ id then ⟨id, none⟩ else item

/-- `std::vector::resize`. -/
def resize (v : CacheVec) (n : Nat) : CacheVec := v.take n ++ List.replicate (n - v.length) .new

/-- **`getDCache`, `getACache`** for a packet with the identifiers `ids`: the cache is emplaced, and
initialised if its size is another one. -/
def getCache (ids : List ObjectId) (cached : Option CacheVec) : CacheVec :=
  let info := cached.getD []
  if ids.length = info.length then info
  else List.zipWith CacheItem.reinit (resize info ids.length) ids

section Update

variable (io : IOList) (self : LocalSetValue) (me : ObjectId)

/-- **`IOController::localSetValueIt`**: an iterator at the end is looked up; the write acts on what the
iterator points to. The iterator is passed by reference. -/
def localSetValueIt (li : Iterator) (a : SetCall) : Iterator × Option (Outcome Value) :=
  let li := if li = none ∧ a.sid ≠ defaultObjectId ∧ a.sid ∈ io.ids then some a.sid else li
  match li with
  | none => (li, some (a.store, .error (.nameNotFound "localSetValue" a.sid)))
  | some target =>
    (li, self { a with sid := target, sup := IOController.supplierOf io a.sup })

/-- **One of the loops of `update`**, over the entries and the items of the cache. Exceptions are caught
entry by entry; `none` is a write that does not return, or an index beyond the cache. -/
def updateItems : List (ObjectId × Value) → CacheVec → Store → Option (CacheVec × Store)
  | [], v, st => some (v, st)
  | _ :: _, [], _ => none
  | (id, value) :: rest, item :: v, st =>
    let item := item.reinit id
    let called := localSetValueIt io self item.ioit ⟨st, id, value, me⟩
    called.2.bind fun out =>
      (updateItems rest v out.1).map fun done => ({ item with ioit := called.1 } :: done.1, done.2)

/-- One of the loops, with the cache it gets. -/
def updateMap (map : CacheMap) (key : ObjectId) (entries : List (ObjectId × Value)) (st : Store) :
    Option (CacheMap × Store) :=
  (updateItems io self me entries (getCache (entries.map Prod.fst) (map key)) st).map fun done =>
    (Function.update map key (some done.1), done.2)

/-- A packet, and what the accessors read beyond its values. -/
structure Incoming where
  message : UDPMessage
  strayD : Nat → Value
  strayA : Nat → Value

/-- **What `update` does with a packet**: the discrete entries, then the analog ones. -/
def update (caches : Caches) (p : Incoming) (st : Store) : Option (Caches × Store) :=
  let key := p.message.getDataID
  (updateMap io self me caches.d key (given p.strayD p.message.dEntries) st).bind fun d =>
    (updateMap io self me caches.a key (given p.strayA p.message.aEntries) d.2).map fun a =>
      (⟨d.1, a.1⟩, a.2)

/-- `initIterators`. -/
def initIterators (caches : Caches) : Caches :=
  let init : CacheMap → CacheMap := fun map key => (map key).map (·.map fun it => ⟨it.id, none⟩)
  ⟨init caches.d, init caches.a⟩

/-- **The writes by identifier**, without a cache. -/
def direct : List (ObjectId × Value) → Store → Option Store
  | [], st => some st
  | (id, value) :: rest, st =>
    (IOController.localSetValueIt io self ⟨st, id, value, me⟩).bind fun out => direct rest out.1

/-- The entries of a packet in the order of the writes. -/
def Incoming.written (p : Incoming) : List (ObjectId × Value) :=
  given p.strayD p.message.dEntries ++ given p.strayA p.message.aEntries

/-- The receiver and the shared memory it writes to. -/
structure Reader where
  caches : Caches
  store : Store

/-- The caches at the start. -/
def Reader.new (st : Store) : Reader := ⟨⟨fun _ => none, fun _ => none⟩, st⟩

/-- What happens: a packet is processed, the iterators are reset, or the shared memory is changed
elsewhere. -/
inductive ReaderLabel
  | update (p : Incoming)
  | initIterators
  | elsewhere (st : Store)

/-- The receiver with its caches; they are empty at the start. -/
def readers : Lib.Machine Reader ReaderLabel where
  start w := ∃ st, w = .new st
  step w
    | .update p => (update io self me w.caches p w.store).map fun done => ⟨done.1, done.2⟩
    | .initIterators => some { w with caches := initIterators w.caches }
    | .elsewhere st => some { w with store := st }

/-- **The receiver without caches**: every entry is written by its identifier. -/
def uncached : Lib.Machine Store ReaderLabel where
  start _ := True
  step st
    | .update p => direct io self me p.written st
    | .initIterators => some st
    | .elsewhere st' => some st'

end Update

/-! ### What the items point to -/

variable {io : IOList} (self : LocalSetValue) (me : ObjectId)

/-- **The iterator of an item** is unresolved, or points to the sensor with the item's own identifier. -/
def CacheItem.Owned (io : IOList) (item : CacheItem) : Prop :=
  ∀ target ∈ item.ioit, target = item.id ∧ item.id ≠ defaultObjectId ∧ item.id ∈ io.ids

/-- All items of a cache. -/
def VecOwned (io : IOList) (v : CacheVec) : Prop := ∀ item ∈ v, item.Owned io

/-- All items of the caches of one kind. -/
def MapOwned (io : IOList) (map : CacheMap) : Prop := ∀ key, ∀ v ∈ map key, VecOwned io v

/-- All items of both. -/
def Caches.Owned (io : IOList) (caches : Caches) : Prop :=
  MapOwned io caches.d ∧ MapOwned io caches.a

theorem owned_none (id : ObjectId) : CacheItem.Owned io ⟨id, none⟩ := fun _ none => nomatch none

theorem CacheItem.Owned.reinit {item : CacheItem} (owned : item.Owned io) (id : ObjectId) :
    (item.reinit id).Owned io := by
  unfold CacheItem.reinit
  split
  · exact owned_none id
  · exact owned

theorem reinit_id (item : CacheItem) (id : ObjectId) : (item.reinit id).id = id := by
  unfold CacheItem.reinit
  split
  · rfl
  · rename_i same
    exact Decidable.not_not.mp same

variable {v : CacheVec}

theorem vecOwned_resize (owned : VecOwned io v) (n : Nat) : VecOwned io (resize v n) := by
  intro item member
  obtain kept | fresh := List.mem_append.mp member
  · exact owned item (List.mem_of_mem_take kept)
  · rw [List.eq_of_mem_replicate fresh]
    exact owned_none _

theorem length_resize (v : CacheVec) (n : Nat) : (resize v n).length = n := by
  unfold resize
  rw [List.length_append, List.length_take, List.length_replicate]
  omega

theorem vecOwned_zipWith (owned : VecOwned io v) (ids : List ObjectId) :
    VecOwned io (List.zipWith CacheItem.reinit v ids) := by
  intro item member
  obtain ⟨i, inside, rfl⟩ := List.getElem_of_mem member
  rw [List.getElem_zipWith]
  exact (owned _ (List.getElem_mem _)).reinit _

/-- **What `getDCache` and `getACache` return**: as many items as entries, all owned. -/
theorem getCache_spec {map : CacheMap} (owned : MapOwned io map) (key : ObjectId)
    (ids : List ObjectId) :
    (getCache ids (map key)).length = ids.length ∧ VecOwned io (getCache ids (map key)) := by
  have cached : VecOwned io ((map key).getD []) := by
    cases here : map key with
    | none => exact fun item none => nomatch none
    | some v => exact owned key v here
  unfold getCache
  dsimp only
  split
  · rename_i same
    exact ⟨same.symm, cached⟩
  · refine ⟨?_, vecOwned_zipWith (vecOwned_resize cached _) ids⟩
    rw [List.length_zipWith, length_resize, Nat.min_self]

/-- **One write through the cache** is the write by identifier, and the iterator stays owned. -/
theorem localSetValueIt_spec {item : CacheItem} (owned : item.Owned io) (st : Store) (value : Value) :
    let called := localSetValueIt io self item.ioit ⟨st, item.id, value, me⟩
    called.2 = IOController.localSetValueIt io self ⟨st, item.id, value, me⟩ ∧
      CacheItem.Owned io ⟨item.id, called.1⟩ := by
  unfold localSetValueIt IOController.localSetValueIt
  obtain ⟨id, ioit⟩ := item
  cases ioit with
  | none =>
    by_cases known : id ≠ defaultObjectId ∧ id ∈ io.ids
    · dsimp only
      rw [if_pos known, if_pos ⟨rfl, known⟩]
      refine ⟨rfl, fun target found => ?_⟩
      cases found
      exact ⟨rfl, known⟩
    · dsimp only
      rw [if_neg known, if_neg fun both => known both.2]
      exact ⟨rfl, owned_none id⟩
  | some target =>
    obtain ⟨rfl, known⟩ := owned target rfl
    dsimp only at known ⊢
    rw [if_pos known, if_neg fun both => nomatch both.1]
    exact ⟨rfl, owned⟩

/-- **The loop keeps the items owned**, whatever the entries are. -/
theorem updateItems_owned {entries : List (ObjectId × Value)} {v' : CacheVec} {st st' : Store}
    (owned : VecOwned io v) (done : updateItems io self me entries v st = some (v', st')) :
    VecOwned io v' := by
  induction entries generalizing v v' st with
  | nil =>
    cases done
    exact owned
  | cons entry rest ih =>
    obtain ⟨id, value⟩ := entry
    cases v with
    | nil => cases done
    | cons item v =>
      obtain ⟨head, tail⟩ := List.forall_mem_cons.mp owned
      obtain ⟨out, -, rest_done⟩ := Option.bind_eq_some_iff.mp done
      obtain ⟨⟨v'', st''⟩, tail_done, same⟩ := Option.map_eq_some_iff.mp rest_done
      cases same
      have kept := (localSetValueIt_spec self me (head.reinit id) st value).2
      rw [reinit_id] at kept
      refine List.forall_mem_cons.mpr ⟨?_, ih tail tail_done⟩
      rw [reinit_id]
      exact kept

/-- **The loop writes what the packet carries**: through the cache as by identifier. -/
theorem updateItems_store {entries : List (ObjectId × Value)} (st : Store) (owned : VecOwned io v)
    (size : v.length = entries.length) :
    (updateItems io self me entries v st).map Prod.snd = direct io self me entries st := by
  induction entries generalizing v st with
  | nil => rfl
  | cons entry rest ih =>
    obtain ⟨id, value⟩ := entry
    cases v with
    | nil => cases size
    | cons item v =>
      obtain ⟨head, tail⟩ := List.forall_mem_cons.mp owned
      have same := (localSetValueIt_spec self me (head.reinit id) st value).1
      rw [reinit_id] at same
      unfold updateItems direct
      dsimp only
      rw [same, Option.map_bind]
      refine Option.bind_congr fun out _ => ?_
      rw [← ih out.1 tail (Nat.succ_inj.mp size), Function.comp_apply, Option.map_map]
      rfl

/-- **One kind of a packet**, with the map of its caches. -/
theorem updateMap_spec {map : CacheMap} (owned : MapOwned io map) (key : ObjectId)
    (entries : List (ObjectId × Value)) (st : Store) :
    (updateMap io self me map key entries st).map Prod.snd = direct io self me entries st ∧
      ∀ done ∈ updateMap io self me map key entries st, MapOwned io done.1 := by
  obtain ⟨size, items⟩ := getCache_spec owned key (entries.map Prod.fst)
  rw [List.length_map] at size
  unfold updateMap
  constructor
  · rw [Option.map_map, ← updateItems_store self me st items size]
    rfl
  · intro done member
    obtain ⟨⟨v', st'⟩, ran, rfl⟩ := Option.map_eq_some_iff.mp member
    intro other v found
    dsimp only at found
    by_cases here : other = key
    · subst here
      rw [Function.update_self] at found
      cases found
      exact updateItems_owned self me items ran
    · rw [Function.update_of_ne here] at found
      exact owned other v found

theorem direct_append (front back : List (ObjectId × Value)) (st : Store) :
    direct io self me (front ++ back) st =
      (direct io self me front st).bind fun st' => direct io self me back st' := by
  induction front generalizing st with
  | nil => rfl
  | cons entry front ih =>
    obtain ⟨id, value⟩ := entry
    rw [List.cons_append, direct, direct, Option.bind_assoc]
    exact Option.bind_congr fun out _ => ih out.1

/-- **A packet is written as it is without a cache**, and the items stay owned. -/
theorem update_spec {caches : Caches} (owned : caches.Owned io) (p : Incoming) (st : Store) :
    (update io self me caches p st).map Prod.snd = direct io self me p.written st ∧
      ∀ done ∈ update io self me caches p st, done.1.Owned io := by
  have discrete := updateMap_spec self me owned.1 p.message.getDataID
    (given p.strayD p.message.dEntries) st
  have analog := fun st' => updateMap_spec self me owned.2 p.message.getDataID
    (given p.strayA p.message.aEntries) st'
  unfold update Incoming.written
  constructor
  · rw [direct_append, ← discrete.1, Option.map_bind, Option.bind_map]
    refine Option.bind_congr fun d _ => ?_
    rw [Function.comp_apply, Function.comp_apply, ← (analog d.2).1, Option.map_map]
    rfl
  · intro done member
    obtain ⟨d, ranD, rest⟩ := Option.bind_eq_some_iff.mp member
    obtain ⟨a, ranA, rfl⟩ := Option.map_eq_some_iff.mp rest
    exact ⟨discrete.2 d ranD, (analog d.2).2 a ranA⟩

theorem mapOwned_init {map : CacheMap} (key : ObjectId)
    (found : ((map key).map (·.map fun it => (⟨it.id, none⟩ : CacheItem))) = some v) :
    VecOwned io v := by
  obtain ⟨v', -, rfl⟩ := Option.map_eq_some_iff.mp found
  intro item member
  obtain ⟨it, -, rfl⟩ := List.mem_map.mp member
  exact owned_none it.id

theorem initIterators_owned (caches : Caches) : (initIterators caches).Owned io :=
  ⟨fun key _ found => mapOwned_init key found, fun key _ found => mapOwned_init key found⟩

/-- **One step** is the step without caches, and the items stay owned. -/
theorem step_spec {w : Reader} (owned : w.caches.Owned io) (label : ReaderLabel) :
    ((readers io self me).step w label).map Reader.store = (uncached io self me).step w.store label ∧
      ∀ w' ∈ (readers io self me).step w label, w'.caches.Owned io := by
  cases label with
  | update p =>
    obtain ⟨store, kept⟩ := update_spec self me owned p w.store
    constructor
    · show ((update io self me w.caches p w.store).map _).map _ = direct io self me p.written w.store
      rw [Option.map_map, ← store]
      rfl
    · intro w' member
      obtain ⟨done, ran, rfl⟩ := Option.map_eq_some_iff.mp member
      exact kept done ran
  | initIterators =>
    refine ⟨rfl, fun w' member => ?_⟩
    cases member
    exact initIterators_owned w.caches
  | elsewhere st =>
    refine ⟨rfl, fun w' member => ?_⟩
    cases member
    exact owned

/-- **A run** is the run without caches. -/
theorem run_spec {w : Reader} (owned : w.caches.Owned io) (labels : List ReaderLabel) :
    ((readers io self me).run w labels).map Reader.store =
      (uncached io self me).run w.store labels := by
  induction labels generalizing w with
  | nil => rfl
  | cons label rest ih =>
    obtain ⟨store, kept⟩ := step_spec self me owned label
    unfold Lib.Machine.run
    rw [← store, Option.map_bind, Option.bind_map]
    exact Option.bind_congr fun w' member => ih (kept w' member)

theorem new_owned (st : Store) : (Reader.new st).caches.Owned io :=
  ⟨fun _ _ none => (nomatch none), fun _ _ none => (nomatch none)⟩

/-- **The cache is transparent.** For every sequence of packets, resets of the iterators and changes of
the shared memory elsewhere, every sensor is written as without caches; in every state that is reached,
and after every number of turns of a loop that `update` runs from it, an iterator is unresolved or
points to the sensor with the identifier of its item. -/
theorem cache_transparent (io : IOList) (self : LocalSetValue) (me : ObjectId) (st : Store)
    (labels : List ReaderLabel) :
    ((readers io self me).run (.new st) labels).map Reader.store =
      (uncached io self me).run st labels ∧
    ∀ w ∈ (readers io self me).run (.new st) labels, w.caches.Owned io ∧
      ∀ map ∈ [w.caches.d, w.caches.a], ∀ (key : ObjectId) (entries : List (ObjectId × Value)),
        ∀ turns, ∀ done ∈ updateItems io self me (entries.take turns)
          (getCache (entries.map Prod.fst) (map key)) w.store, VecOwned io done.1 := by
  refine ⟨run_spec self me (new_owned st) labels, fun w ran => ?_⟩
  have owned : w.caches.Owned io :=
    Lib.Machine.run_invariant (P := fun w => w.caches.Owned io)
      (fun w label w' owned _ stepped => (step_spec self me owned label).2 w' stepped) (new_owned st)
      (Lib.Machine.meets_true labels) ran
  refine ⟨owned, fun map member key entries turns done ran => ?_⟩
  have mine : MapOwned io map := by
    obtain rfl | rfl : map = w.caches.d ∨ map = w.caches.a := by simpa using member
    · exact owned.1
    · exact owned.2
  exact updateItems_owned self me (getCache_spec mine key _).2 ran

end UniSet.UNet
