/-
**The eviction of consumers: runs of `ask` and `send`.**

The attempts of an entry are counted down over all notifications of its sensor; a success and a
subscription set them to their maximum again. The map of lost consumers is shared by the sensors.

* `consecutive` — the failures in a row behind some attempts.
* `Watched` — the lists of all sensors, with the failures in a row of every consumer.
* `ErasedAt` — a consumer is erased exactly at the attempt that completes the failures in a row.
* `LostLaw` — a counter of lost consumers grows exactly with its flag; only a subscription clears
  it.
* **`evictions`** — so it is at every step of every run in which no unary subscription and no
  addressed notification meets the entry of a stream client, which carries the `ConsumerInfo`
  `(0, 0)`. `erased_early` is a run in which one does.
-/

import UniSet.Processes.Broadcast

set_option linter.unusedSectionVars false

namespace UniSet.Processes.Consumers

open Function

variable {Client : Type} [DecidableEq Client] {cfg : Attempts}

/-! ### Failures in a row -/

/-- The failures in a row behind some attempts, `c` of them before. -/
def consecutive (c : Nat) (os : List Bool) : Nat :=
  os.foldl (fun c delivered => if delivered then 0 else c + 1) c

theorem consecutive_failures (c j : Nat) : consecutive c (List.replicate j false) = c + j := by
  induction j generalizing c with
  | zero => rfl
  | succ j ih =>
    rw [List.replicate_succ]
    show consecutive (c + 1) (List.replicate j false) = _
    rw [ih, Nat.add_assoc, Nat.add_comm 1]

theorem consecutive_success (c : Nat) (os : List Bool) : consecutive c (os ++ [true]) = 0 := by
  unfold consecutive
  rw [List.foldl_append]
  rfl

/-- **A consumer is erased at the attempt that completes the failures in a row**, `c` of them
before, and at no other. -/
def ErasedAt (limit c : Nat) (os : List Bool) (gone : Prop) : Prop :=
  (gone ↔ consecutive c os = limit) ∧ ∀ earlier, earlier <+: os → earlier ≠ os →
    consecutive c earlier < limit

variable {e : ConsumerInfoExt Client}

/-- Before the last attempt there are only failures. -/
theorem Attempted.earlier {left : Nat} {os earlier : List Bool}
    {r : Option (ConsumerInfoExt Client)} (attempted : Attempted cfg left e os r)
    (bounded : 0 < cfg.maxAttempts) (first : earlier <+: os) (proper : earlier ≠ os) :
    ∃ i, earlier = List.replicate i false ∧ i < lives e.attempt := by
  cases attempted with
  | @delivered j e' _ fewer _ _ =>
    obtain ⟨i, few, eq⟩ : ∃ i ≤ j, earlier = List.replicate i false := by
      have shorter := (List.prefix_concat_iff.mp first).resolve_left proper
      rw [List.prefix_replicate_iff] at shorter
      exact ⟨_, shorter.1, shorter.2⟩
    exact ⟨i, eq, Nat.lt_of_le_of_lt few (fewer bounded)⟩
  | failed fewer _ _ =>
    have shorter := List.prefix_replicate_iff.mp first
    exact ⟨_, shorter.2, Nat.lt_of_le_of_lt shorter.1 (fewer bounded)⟩
  | erased _ _ =>
    have shorter := List.prefix_replicate_iff.mp first
    refine ⟨_, shorter.2, Nat.lt_of_le_of_ne shorter.1 fun whole => proper ?_⟩
    rw [shorter.2, whole]

/-- **The counter of an entry and the failures in a row** make up the maximum. -/
theorem Attempted.erasedAt {left c : Nat} {os : List Bool} {r : Option (ConsumerInfoExt Client)}
    (attempted : Attempted cfg left e os r) (bounded : 0 < cfg.maxAttempts) (more : 0 < e.attempt)
    (count : e.attempt + c = cfg.maxAttempts.toNat) :
    ErasedAt cfg.maxAttempts.toNat c os (r = none) ∧ ∀ e', r = some e' →
      0 < e'.attempt ∧ e'.attempt + consecutive c os = cfg.maxAttempts.toNat := by
  have alive : lives e.attempt = e.attempt := if_neg (Nat.ne_of_gt more)
  have range := cfg.bounds
  refine ⟨⟨?_, fun earlier first proper => ?_⟩, fun e' kept => ?_⟩
  · cases attempted with
    | delivered _ _ _ _ =>
      rw [consecutive_success]
      exact iff_of_false nofun (by omega)
    | failed fewer _ _ =>
      rw [consecutive_failures]
      have := fewer bounded
      exact iff_of_false nofun (by omega)
    | erased _ _ =>
      rw [consecutive_failures]
      exact iff_of_true rfl (by omega)
  · obtain ⟨i, rfl, few⟩ := attempted.earlier bounded first proper
    rw [consecutive_failures]
    omega
  · cases attempted with
    | delivered _ _ _ full =>
      cases kept
      rw [consecutive_success, full, cfg.first_eq bounded]
      omega
    | failed fewer _ rest =>
      cases kept
      have fewer := fewer bounded
      have rest := rest bounded
      rw [consecutive_failures]
      unfold lives at rest
      split_ifs at rest <;> omega
    | erased _ _ => cases kept

/-! ### The sensors of a controller -/

/-- The subscriptions among the commands. -/
def UIOCommand.subscribes : UIOCommand → Bool
  | .UIONotify | .UIONotifyChange | .UIONotifyFirstNotNull => true
  | .UIODontNotify | .UIOSet | .UIOGet => false

/-- The lists of the sensors and the lost consumers; `failed` counts the failures in a row of a
consumer of a sensor, since its last subscription. -/
structure Watched (Client : Type) where
  lists : ObjectId → Option (List (ConsumerInfoExt Client))
  lost : LostMap
  failed : ObjectId → ConsumerInfo → Nat

/-- The list of one sensor. -/
def Watched.view (st : Watched Client) (sensor : ObjectId) : Lists Client :=
  ⟨st.lists sensor, st.lost⟩

inductive Event (Client : Type)
  /-- `ask`, with its `addConsumer`, for a unary consumer or for a stream client. -/
  | ask (sensor : ObjectId) (cons : ConsumerInfo) (cmd : UIOCommand) (cli : Option Client)
  /-- `send` to all or to one consumer. -/
  | send (sensor : ObjectId) (target : Option ConsumerInfo) (env : Delivery Client)

/-- A command on a sensor. -/
def Watched.ask (cfg : Attempts) (st : Watched Client) (sensor : ObjectId) (cons : ConsumerInfo)
    (cmd : UIOCommand) (cli : Option Client) : Watched Client :=
  let asked := Consumers.ask cfg (st.view sensor) cons cmd cli
  { lists := update st.lists sensor asked.clst
    lost := asked.lost
    failed := if cmd.subscribes ∧ cli = none
      then update st.failed sensor (update (st.failed sensor) cons 0)
      else st.failed }

/-- The pass of a notification. -/
def Watched.pass (cfg : Attempts) (st : Watched Client) (sensor : ObjectId)
    (target : Option ConsumerInfo) (env : Delivery Client) :
    List (ConsumerInfoExt Client) × Pass Client :=
  Consumers.send cfg env target (st.view sensor).entries ⟨st.lost, [], []⟩

/-- A notification of a sensor. -/
def Watched.send (cfg : Attempts) (st : Watched Client) (sensor : ObjectId)
    (target : Option ConsumerInfo) (env : Delivery Client) : Watched Client :=
  let result := st.pass cfg sensor target env
  { lists := update st.lists sensor ((st.lists sensor).map fun _ => result.1)
    lost := result.2.lost
    failed := update st.failed sensor fun ci =>
      consecutive (st.failed sensor ci) (tries (attemptLog env result.2.tried) ci) }

def Event.apply (cfg : Attempts) (st : Watched Client) : Event Client → Watched Client
  | .ask sensor cons cmd cli => st.ask cfg sensor cons cmd cli
  | .send sensor target env => st.send cfg sensor target env

/-- **All runs**, from sensors nobody has asked for. -/
def watch (cfg : Attempts) : Lib.Machine (Watched Client) (Event Client) where
  start st := (∀ sensor, st.lists sensor = none) ∧ st.lost = fun _ => none
  step st event := some (event.apply cfg st)

/-! ### The law -/

def lostCount (lost : LostMap) (id : ObjectId) : Nat := ((lost id).getD {}).count

def lostFlag (lost : LostMap) (id : ObjectId) : Bool := ((lost id).getD {}).lost

/-- **A counter grows by one exactly when its consumer is evicted while the flag is clear**, and the
flag is cleared only by a subscription. -/
structure LostLaw (before after : LostMap) (evicted subscribed : ObjectId → Prop) : Prop where
  counted : ∀ id, evicted id → lostFlag before id = false →
    lostCount after id = lostCount before id + 1
  kept : ∀ id, ¬ (evicted id ∧ lostFlag before id = false) →
    lostCount after id = lostCount before id
  flag : ∀ id, lostFlag after id = true ↔
    evicted id ∨ (lostFlag before id = true ∧ ¬ subscribed id)

/-- A unary consumer with this identifier has left the list. -/
def Evicted (before after : List (ConsumerInfoExt Client)) (id : ObjectId) : Prop :=
  ∃ e ∈ before, e.client = none ∧ e.ci.id = id ∧ e.subscriber ∉ subscribers after

/-- **The law of a step**: a command evicts nobody; a notification evicts the consumers whose
failures in a row it completes. -/
def Lawful (cfg : Attempts) (st : Watched Client) : Event Client → Prop
  | .ask sensor cons cmd cli =>
    (∀ e ∈ (st.view sensor).entries, e.client = none →
      cmd = .UIODontNotify ∧ cli = none ∧ e.ci = cons ∨
        e.subscriber ∈ subscribers ((st.ask cfg sensor cons cmd cli).view sensor).entries) ∧
    LostLaw st.lost (st.ask cfg sensor cons cmd cli).lost (fun _ => False)
      fun id => cmd.subscribes = true ∧ cli = none ∧ id = cons.id
  | .send sensor target env =>
    (∀ e ∈ (st.view sensor).entries, e.client = none →
      ErasedAt cfg.maxAttempts.toNat (st.failed sensor e.ci)
        (tries (attemptLog env (st.pass cfg sensor target env).2.tried) e.ci)
        (e.subscriber ∉ subscribers (st.pass cfg sensor target env).1)) ∧
    LostLaw st.lost (st.pass cfg sensor target env).2.lost
      (Evicted (st.view sensor).entries (st.pass cfg sensor target env).1) fun _ => False

/-- **The condition**: the `ConsumerInfo` of a unary subscription or of an addressed notification
does not lead to the entry of a stream client. -/
def Fits (st : Watched Client) : Event Client → Prop
  | .ask sensor cons cmd cli => cmd.subscribes = true → cli = none →
    ∀ e ∈ (st.view sensor).entries.find? (·.ci = cons), e.client = none
  | .send sensor target _ =>
    ∀ ci ∈ target, ∀ e ∈ (st.view sensor).entries, e.client ≠ none → e.ci ≠ ci

instance (st : Watched Client) : ∀ event, Decidable (Fits st event)
  | .ask sensor cons cmd cli => inferInstanceAs (Decidable (cmd.subscribes = true → cli = none →
      ∀ e ∈ (st.view sensor).entries.find? (·.ci = cons), e.client = none))
  | .send sensor target _ => inferInstanceAs (Decidable
      (∀ ci ∈ target, ∀ e ∈ (st.view sensor).entries, e.client ≠ none → e.ci ≠ ci))

/-- **The invariant** of the list of one sensor: the counter of a consumer and its failures in a row
make up the maximum. -/
structure CountedList (cfg : Attempts) (failed : ConsumerInfo → Nat)
    (clst : List (ConsumerInfoExt Client)) : Prop where
  nodup : (subscribers clst).Nodup
  count : ∀ e ∈ clst, e.client = none →
    0 < e.attempt ∧ e.attempt + failed e.ci = cfg.maxAttempts.toNat

def Counted (cfg : Attempts) (st : Watched Client) : Prop :=
  ∀ sensor, CountedList cfg (st.failed sensor) (st.view sensor).entries

/-! ### The map of lost consumers -/

theorem LostLaw.refl (lost : LostMap) : LostLaw lost lost (fun _ => False) fun _ => False :=
  ⟨fun _ evicted => evicted.elim, fun _ _ => rfl, fun _ => by simp⟩

theorem LostLaw.congr {before after : LostMap} {evicted evicted' subscribed : ObjectId → Prop}
    (law : LostLaw before after evicted subscribed) (same : ∀ id, evicted id ↔ evicted' id) :
    LostLaw before after evicted' subscribed := by
  rw [show evicted' = evicted from funext fun id => propext (same id).symm]
  exact law

theorem lostFlag_clearLost (lost : LostMap) (id other : ObjectId) :
    lostFlag (clearLost lost id) other = true ↔ lostFlag lost other = true ∧ other ≠ id := by
  unfold lostFlag clearLost
  by_cases same : other = id
  · subst same
    rw [update_self]
    cases lost other <;> simp
  · rw [update_of_ne same]
    exact (and_iff_left same).symm

theorem lostCount_clearLost (lost : LostMap) (id other : ObjectId) :
    lostCount (clearLost lost id) other = lostCount lost other := by
  unfold lostCount clearLost
  by_cases same : other = id
  · subst same
    rw [update_self]
    cases lost other <;> rfl
  · rw [update_of_ne same]

theorem lostFlag_markLost (lost : LostMap) (id other : ObjectId) :
    lostFlag (markLost lost id) other = true ↔ other = id ∨ lostFlag lost other = true := by
  unfold lostFlag markLost
  by_cases same : other = id
  · subst same
    simp only [update_self, Option.getD_some, true_or, iff_true]
    split
    · assumption
    · rfl
  · rw [update_of_ne same]
    exact (or_iff_right same).symm

theorem lostCount_markLost (lost : LostMap) (id other : ObjectId) :
    lostCount (markLost lost id) other =
      lostCount lost other + if other = id ∧ lostFlag lost other = false then 1 else 0 := by
  unfold lostCount lostFlag markLost
  by_cases same : other = id
  · subst same
    simp only [update_self, Option.getD_some, true_and]
    cases ((lost other).getD {}).lost <;> rfl
  · rw [update_of_ne same, if_neg fun h => same h.1, Nat.add_zero]

/-- The consumers evicted in a pass, one after the other. -/
theorem LostLaw.foldl (ids : List ObjectId) (lost : LostMap) :
    LostLaw lost (ids.foldl markLost lost) (· ∈ ids) fun _ => False := by
  induction ids generalizing lost with
  | nil => exact (LostLaw.refl lost).congr fun id => by simp
  | cons i ids ih =>
    have later := ih (markLost lost i)
    have flag := lostFlag_markLost lost i
    have count := lostCount_markLost lost i
    refine ⟨fun id gone clear => ?_, fun id stays => ?_, fun id => ?_⟩
    · rw [List.foldl_cons]
      by_cases same : id = i
      · subst same
        have marked : ¬ (id ∈ ids ∧ lostFlag (markLost lost id) id = false) := fun h => by
          rw [(flag id).mpr (.inl rfl)] at h
          exact nomatch h.2
        rw [later.kept id marked, count, if_pos ⟨rfl, clear⟩]
      · have unmarked : lostFlag (markLost lost i) id = false := Bool.eq_false_iff.mpr fun h =>
          ((flag id).mp h).elim same (Bool.eq_false_iff.mp clear)
        rw [later.counted id ((List.mem_cons.mp gone).resolve_left same) unmarked, count,
          if_neg fun h => same h.1, Nat.add_zero]
    · rw [List.foldl_cons]
      rw [List.mem_cons] at stays
      have next : ¬ (id = i ∧ lostFlag lost id = false) := fun h => stays ⟨.inl h.1, h.2⟩
      rw [later.kept id, count, if_neg next, Nat.add_zero]
      rintro ⟨member, clear⟩
      refine stays ⟨.inr member, Bool.eq_false_iff.mpr fun h => ?_⟩
      rw [(flag id).mpr (.inr h)] at clear
      cases clear
    · rw [List.foldl_cons, later.flag, flag, List.mem_cons]
      simp only [not_false_eq_true, and_true]
      exact ⟨fun h => h.elim (fun h => .inl (.inr h)) fun h => h.elim (fun h => .inl (.inl h)) .inr,
        fun h => h.elim (fun h => h.elim (fun h => .inr (.inl h)) .inl) fun h => .inr (.inr h)⟩

/-! ### A notification -/

/-- The identifier of a consumer that a visit evicts. -/
def Visit.evictedId : Visit Client → Option ObjectId
  | .tried e _ none => some e.ci.id
  | _ => none

theorem foldl_lost (vs : List (Visit Client)) (lost : LostMap) :
    vs.foldl Visit.lost lost = (vs.filterMap Visit.evictedId).foldl markLost lost := by
  induction vs generalizing lost with
  | nil => rfl
  | cons v vs ih =>
    rw [List.foldl_cons, ih, List.filterMap_cons]
    cases v with
    | tried e os r => cases r <;> rfl
    | passed e => rfl
    | closed e => rfl
    | pushed e cli => rfl

theorem subscriber_of_identity {e' : ConsumerInfoExt Client} (same : e.identity = e'.identity) :
    e.subscriber = e'.subscriber := by
  unfold ConsumerInfoExt.subscriber
  rw [show e.client = e'.client from congrArg Prod.fst same,
    show e.ci = e'.ci from congrArg Prod.snd same]

section Notification

variable {env : Delivery Client} {target : Option ConsumerInfo}
  {clst : List (ConsumerInfoExt Client)} {vs : List (Visit Client)}

theorem Visit.Valid.kept_subscriber {v : Visit Client} (valid : v.Valid cfg env target)
    {x : ConsumerInfoExt Client} (kept : v.kept = some x) : x.subscriber = v.entry.subscriber := by
  cases v with
  | passed e =>
    cases kept
    rfl
  | closed e => cases kept
  | pushed e cli =>
    cases kept
    rfl
  | tried e os r =>
    obtain rfl : r = some x := kept
    exact subscriber_of_identity valid.1.identity

/-- The entries behind a pass are in the order of those before. -/
theorem kept_sublist (valid : ∀ v ∈ vs, v.Valid cfg env target) :
    (subscribers (vs.filterMap Visit.kept)).Sublist (vs.map fun v => v.entry.subscriber) := by
  induction vs with
  | nil => exact .slnil
  | cons v vs ih =>
    have later := ih fun u hu => valid u (List.mem_cons_of_mem v hu)
    rw [List.filterMap_cons]
    cases kept : v.kept with
    | none => exact later.cons _
    | some x =>
      have same := (valid v List.mem_cons_self).kept_subscriber kept
      show (x.subscriber :: subscribers _).Sublist (v.entry.subscriber :: _)
      rw [same]
      exact later.cons_cons _

/-- **A subscriber leaves the list** exactly if its visit keeps nothing. -/
theorem Visits.gone_iff (visits : Visits cfg env target 0 clst vs)
    (nodup : (subscribers clst).Nodup) {v : Visit Client} (member : v ∈ vs) :
    v.entry.subscriber ∉ subscribers (vs.filterMap Visit.kept) ↔ v.kept = none := by
  constructor
  · intro gone
    refine Option.eq_none_iff_forall_ne_some.mpr fun x kept => gone ?_
    rw [← (visits.valid v member).kept_subscriber kept]
    exact List.mem_map_of_mem (List.mem_filterMap.mpr ⟨v, member, kept⟩)
  · intro none here
    obtain ⟨x, hx, same⟩ := List.mem_map.mp here
    obtain ⟨u, hu, kept⟩ := List.mem_filterMap.mp hx
    have own := (visits.valid u hu).kept_subscriber kept
    have twin : u = v :=
      List.inj_on_of_nodup_map (visits.distinct nodup) hu member (own.symm.trans same)
    rw [twin, none] at kept
    cases kept

/-- The identifiers that a pass marks are those of the consumers it evicts. -/
theorem Visits.evicted_iff (visits : Visits cfg env target 0 clst vs)
    (nodup : (subscribers clst).Nodup)
    (unary : ∀ v ∈ vs, v.os ≠ [] → v.entry.client = none) (id : ObjectId) :
    id ∈ vs.filterMap Visit.evictedId ↔ Evicted clst (vs.filterMap Visit.kept) id := by
  rw [List.mem_filterMap]
  constructor
  · rintro ⟨v, hv, marked⟩
    have inside : v.entry ∈ clst := visits.entries ▸ List.mem_map_of_mem hv
    have gone := visits.gone_iff nodup hv
    have here := visits.valid v hv
    cases v with
    | tried e os r =>
      cases r with
      | none =>
        have failures := (here.1.none_iff.mp rfl).2
        have some : os ≠ [] := by
          rw [failures, ← List.length_pos_iff, List.length_replicate]
          exact lives_pos _
        exact ⟨e, inside, unary _ hv some, Option.some.inj marked, gone.mpr rfl⟩
      | some e' => cases marked
    | passed e => cases marked
    | closed e => cases marked
    | pushed e cli => cases marked
  · rintro ⟨e, he, own, rfl, gone⟩
    rw [← visits.entries] at he
    obtain ⟨v, hv, rfl⟩ := List.mem_map.mp he
    have none := (visits.gone_iff nodup hv).mp gone
    have here := visits.valid v hv
    refine ⟨v, hv, ?_⟩
    cases v with
    | tried e os r =>
      obtain rfl : r = Option.none := none
      rfl
    | passed e => cases none
    | closed e =>
      obtain ⟨cli, client, -⟩ := here
      have same : Option.none = some cli := own.symm.trans client
      cases same
    | pushed e cli => cases none

/-- **A unary consumer in a pass**: it is erased at the right attempt, and what stays of it counts
on. -/
theorem Visits.unary_erasedAt (visits : Visits cfg env target 0 clst vs)
    (bounded : 0 < cfg.maxAttempts) (nodup : (subscribers clst).Nodup) {v : Visit Client}
    (member : v ∈ vs) {c : Nat} (own : v.entry.client = none) (more : 0 < v.entry.attempt)
    (count : v.entry.attempt + c = cfg.maxAttempts.toNat) :
    ErasedAt cfg.maxAttempts.toNat c v.os
      (v.entry.subscriber ∉ subscribers (vs.filterMap Visit.kept)) ∧
    ∀ x, v.kept = some x →
      0 < x.attempt ∧ x.attempt + consecutive c v.os = cfg.maxAttempts.toNat := by
  have gone := visits.gone_iff nodup member
  have here := visits.valid v member
  cases v with
  | passed e =>
    refine ⟨⟨gone.trans (iff_of_false nofun ?_), fun earlier first proper => ?_⟩, fun x kept => ?_⟩
    · show c ≠ _
      exact fun same => by
        have : 0 < e.attempt := more
        have : e.attempt + c = _ := count
        omega
    · exact absurd (List.prefix_nil.mp first) proper
    · cases kept
      exact ⟨more, count⟩
  | closed e =>
    obtain ⟨cli, client, -⟩ := here
    have same : none = some cli := own.symm.trans client
    cases same
  | pushed e cli =>
    have same : none = some cli := own.symm.trans here.1
    cases same
  | tried e os r =>
    obtain ⟨erased, rest⟩ := here.1.erasedAt bounded more count
    refine ⟨⟨gone.trans ?_, erased.2⟩, rest⟩
    exact erased.1

end Notification

/-! ### A command -/

/-- The entry that `addConsumer` and `addSyncConsumer` find. -/
theorem resetFirst_find (fits : ConsumerInfoExt Client → Bool) (attempt : Nat)
    (clst : List (ConsumerInfoExt Client)) :
    ((∀ e ∈ clst, fits e = false) ∧ resetFirst fits attempt clst = none) ∨
    ∃ before e after, clst = before ++ e :: after ∧ fits e = true ∧ clst.find? fits = some e ∧
      resetFirst fits attempt clst = some (before ++ { e with attempt := attempt } :: after) := by
  induction clst with
  | nil => exact .inl ⟨nofun, rfl⟩
  | cons x rest ih =>
    cases here : fits x with
    | true => exact .inr ⟨[], x, rest, rfl, here, List.find?_cons_of_pos here, if_pos here⟩
    | false =>
      have next : resetFirst fits attempt (x :: rest) =
          (resetFirst fits attempt rest).map (x :: ·) := if_neg (Bool.eq_false_iff.mp here)
      rcases ih with ⟨none, absent⟩ | ⟨before, e, after, split, own, found, reset⟩
      · refine .inl ⟨List.forall_mem_cons.mpr ⟨here, none⟩, ?_⟩
        rw [next, absent]
        rfl
      · refine .inr ⟨x :: before, e, after, congrArg _ split, own, ?_, ?_⟩
        · rw [List.find?_cons_of_neg (Bool.eq_false_iff.mp here), found]
        · rw [next, reset]
          rfl

section Command

variable {fits : ConsumerInfoExt Client → Bool} {clst : List (ConsumerInfoExt Client)}
  (new : ConsumerInfoExt Client)

theorem subset_subscribe : subscribers clst ⊆
    subscribers ((resetFirst fits new.attempt clst).getD (new :: clst)) := by
  rcases resetFirst_find fits new.attempt clst with ⟨-, absent⟩ |
    ⟨before, e, after, split, -, -, reset⟩
  · rw [absent]
    exact List.subset_cons_self _ _
  · rw [reset, split]
    unfold subscribers
    rw [Option.getD_some, List.map_append, List.map_append, List.map_cons, List.map_cons]
    exact List.Subset.refl _

/-- A subscription keeps the subscribers distinct. -/
theorem nodup_subscribe (nodup : (subscribers clst).Nodup)
    (absent : (∀ e ∈ clst, fits e = false) → new.subscriber ∉ subscribers clst) :
    (subscribers ((resetFirst fits new.attempt clst).getD (new :: clst))).Nodup := by
  rcases resetFirst_find fits new.attempt clst with ⟨other, none⟩ |
    ⟨before, e, after, split, -, -, reset⟩
  · rw [none]
    exact List.nodup_cons.mpr ⟨absent other, nodup⟩
  · rw [split] at nodup
    rw [reset, Option.getD_some]
    unfold subscribers at *
    rw [List.map_append, List.map_cons] at *
    exact nodup

/-- An entry behind a subscription: the new one, the one found, or an old one of somebody else. -/
theorem mem_subscribe (nodup : (subscribers clst).Nodup) {x : ConsumerInfoExt Client}
    (member : x ∈ (resetFirst fits new.attempt clst).getD (new :: clst)) :
    x = new ∨ (∃ e, clst.find? fits = some e ∧ x = { e with attempt := new.attempt }) ∨
      (x ∈ clst ∧ ∀ e, clst.find? fits = some e → x.subscriber ≠ e.subscriber) := by
  rcases resetFirst_find fits new.attempt clst with ⟨other, absent⟩ |
    ⟨before, e, after, split, -, found, reset⟩
  · rw [absent] at member
    rcases List.mem_cons.mp member with rfl | old
    · exact .inl rfl
    · have none : clst.find? fits = none :=
        List.find?_eq_none.mpr fun e he => Bool.eq_false_iff.mp (other e he)
      exact .inr (.inr ⟨old, fun e found => by rw [none] at found; cases found⟩)
  · rw [reset, Option.getD_some, List.mem_append, List.mem_cons] at member
    have twin : ∀ y ∈ before ++ after, y.subscriber ≠ e.subscriber := by
      rw [split] at nodup
      unfold subscribers at nodup
      rw [List.map_append, List.map_cons, List.nodup_middle, ← List.map_append] at nodup
      exact fun y hy same => (List.nodup_cons.mp nodup).1 (same ▸ List.mem_map_of_mem hy)
    have old : ∀ y ∈ before ++ after,
        y ∈ clst ∧ ∀ e, clst.find? fits = some e → y.subscriber ≠ e.subscriber := by
      intro y hy
      refine ⟨?_, fun e' found' => ?_⟩
      · rw [split]
        exact List.mem_append.mpr ((List.mem_append.mp hy).imp_right (List.mem_cons_of_mem e))
      · rw [found] at found'
        cases found'
        exact twin y hy
    rcases member with member | rfl | member
    · exact .inr (.inr (old x (List.mem_append_left _ member)))
    · exact .inr (.inl ⟨e, found, rfl⟩)
    · exact .inr (.inr (old x (List.mem_append_right _ member)))

end Command

/-! ### Runs -/

section Runs

variable {st : Watched Client}

theorem Watched.view_entries_ask (sensor other : ObjectId) (cons : ConsumerInfo) (cmd : UIOCommand)
    (cli : Option Client) : ((st.ask cfg sensor cons cmd cli).view other).entries =
      if other = sensor then (Consumers.ask cfg (st.view sensor) cons cmd cli).entries
      else (st.view other).entries := by
  unfold Watched.ask Watched.view Lists.entries
  by_cases same : other = sensor
  · subst same
    simp
  · simp [same]

theorem Watched.view_entries_send (sensor other : ObjectId) (target : Option ConsumerInfo)
    (env : Delivery Client) : ((st.send cfg sensor target env).view other).entries =
      if other = sensor then (st.pass cfg sensor target env).1 else (st.view other).entries := by
  by_cases same : other = sensor
  · subst same
    rw [if_pos rfl]
    unfold Watched.send Watched.pass Watched.view Lists.entries
    dsimp only
    rw [update_self]
    cases st.lists other <;> rfl
  · rw [if_neg same]
    unfold Watched.send Watched.view Lists.entries
    dsimp only
    rw [update_of_ne same]

theorem Watched.failed_send (sensor other : ObjectId) (target : Option ConsumerInfo)
    (env : Delivery Client) (ci : ConsumerInfo) :
    (st.send cfg sensor target env).failed other ci =
      if other = sensor then consecutive (st.failed sensor ci)
        (tries (attemptLog env (st.pass cfg sensor target env).2.tried) ci)
      else st.failed other ci := by
  unfold Watched.send
  dsimp only
  by_cases here : other = sensor
  · subst here
    rw [update_self, if_pos rfl]
  · rw [update_of_ne here, if_neg here]

/-- What a command does to the list of its sensor. -/
theorem entries_ask (l : Lists Client) (cons : ConsumerInfo) (cmd : UIOCommand)
    (cli : Option Client) : (ask cfg l cons cmd cli).entries =
      match cmd.subscribes, cli with
      | true, some cli => addSyncConsumer cfg l.entries cli
      | true, none => addConsumer cfg l.entries cons
      | false, some cli =>
        if cmd = .UIODontNotify then removeSyncConsumer l.entries cli else l.entries
      | false, none =>
        if cmd = .UIODontNotify then removeConsumer l.entries cons else l.entries := by
  cases cmd <;> cases cli <;> first | rfl | exact entries_map rfl

/-- What a command does to the map of lost consumers. -/
theorem lost_ask (cfg : Attempts) (l : Lists Client) (cons : ConsumerInfo) (cmd : UIOCommand)
    (cli : Option Client) : (ask cfg l cons cmd cli).lost =
      if cmd.subscribes = true ∧ cli = none then clearLost l.lost cons.id else l.lost := by
  cases cmd <;> cases cli <;> rfl

/-- The failures in a row of a consumer begin anew with its subscription. -/
theorem Watched.failed_ask (cfg : Attempts) (st : Watched Client) (sensor other : ObjectId)
    (cons : ConsumerInfo) (cmd : UIOCommand) (cli : Option Client) (ci : ConsumerInfo) :
    (st.ask cfg sensor cons cmd cli).failed other ci =
      if cmd.subscribes = true ∧ cli = none ∧ other = sensor ∧ ci = cons then 0
      else st.failed other ci := by
  unfold Watched.ask
  dsimp only
  by_cases subscribes : cmd.subscribes = true ∧ cli = none
  · rw [if_pos subscribes]
    by_cases here : other = sensor
    · subst here
      rw [update_self]
      by_cases same : ci = cons
      · rw [same, update_self, if_pos ⟨subscribes.1, subscribes.2, rfl, rfl⟩]
      · rw [update_of_ne same, if_neg fun h => same h.2.2.2]
    · rw [update_of_ne here, if_neg fun h => here h.2.2.1]
  · rw [if_neg subscribes, if_neg fun h => subscribes ⟨h.1, h.2.1⟩]

section Lists

variable {clst : List (ConsumerInfoExt Client)} {failed : ConsumerInfo → Nat}

theorem CountedList.sublist {clst' : List (ConsumerInfoExt Client)}
    (counted : CountedList cfg failed clst) (fewer : clst'.Sublist clst) :
    CountedList cfg failed clst' :=
  ⟨counted.nodup.sublist (fewer.map _), fun e he => counted.count e (fewer.subset he)⟩

/-- **`addSyncConsumer`** leaves the unary consumers alone. -/
theorem CountedList.addSyncConsumer (counted : CountedList cfg failed clst) (cli : Client) :
    CountedList cfg failed (addSyncConsumer cfg clst cli) := by
  have key := stream_key cli
  refine ⟨nodup_subscribe ⟨some cli, {}, cfg.first, 0, 0⟩ counted.nodup fun absent here => ?_,
    fun x hx own => ?_⟩
  · obtain ⟨e, he, same⟩ := List.mem_map.mp here
    have found := (key e).mpr same
    rw [absent e he] at found
    cases found
  · rcases mem_subscribe ⟨some cli, {}, cfg.first, 0, 0⟩ counted.nodup hx with
      rfl | ⟨e, found, rfl⟩ | ⟨old, -⟩
    · cases own
    · have here := List.find?_some found
      have client : e.client = some cli := of_decide_eq_true here
      rw [show e.client = none from own] at client
      cases client
    · exact counted.count x old own

/-- **`addConsumer`** gives its consumer all attempts. -/
theorem CountedList.addConsumer (counted : CountedList cfg failed clst)
    (bounded : 0 < cfg.maxAttempts) {cons : ConsumerInfo}
    (fits : ∀ e ∈ clst.find? (·.ci = cons), e.client = none) :
    CountedList cfg (update failed cons 0) (addConsumer cfg clst cons) := by
  have full : 0 < cfg.first ∧ cfg.first + update failed cons 0 cons =
      cfg.maxAttempts.toNat := by
    rw [cfg.first_eq bounded, update_self]
    omega
  refine ⟨nodup_subscribe ⟨none, cons, cfg.first, 0, 0⟩ counted.nodup fun absent here => ?_,
    fun x hx own => ?_⟩
  · obtain ⟨e, he, same⟩ := List.mem_map.mp here
    have other := of_decide_eq_false (absent e he)
    exact other (subscriber_eq_unary.mp same).2
  · rcases mem_subscribe ⟨none, cons, cfg.first, 0, 0⟩ counted.nodup hx with
      rfl | ⟨e, found, rfl⟩ | ⟨old, others⟩
    · exact full
    · have here := List.find?_some found
      have same : e.ci = cons := of_decide_eq_true here
      show 0 < cfg.first ∧ cfg.first + update failed cons 0 e.ci = _
      rw [same]
      exact full
    · have other : x.ci ≠ cons := by
        intro same
        have some : (clst.find? fun e => decide (e.ci = cons)).isSome = true :=
          List.find?_isSome.mpr ⟨x, old, decide_eq_true same⟩
        obtain ⟨e, found⟩ := Option.isSome_iff_exists.mp some
        have here := List.find?_some found
        have twin : e.ci = cons := of_decide_eq_true here
        refine others e found ?_
        rw [subscriber_unary own, subscriber_unary (fits e found), same, twin]
      rw [update_of_ne other]
      exact counted.count x old own

end Lists

/-- **A command keeps the invariant.** -/
theorem Counted.ask (counted : Counted cfg st) (bounded : 0 < cfg.maxAttempts) {sensor : ObjectId}
    {cons : ConsumerInfo} {cmd : UIOCommand} {cli : Option Client}
    (fits : Fits st (.ask sensor cons cmd cli)) : Counted cfg (st.ask cfg sensor cons cmd cli) := by
  intro other
  have before := counted other
  have failed := fun ci => st.failed_ask cfg sensor other cons cmd cli ci
  rw [Watched.view_entries_ask]
  by_cases here : other = sensor
  · subst here
    rw [if_pos rfl, entries_ask]
    cases subscribes : cmd.subscribes with
    | false =>
      have same : (st.ask cfg other cons cmd cli).failed other = st.failed other := by
        funext ci
        rw [failed, if_neg fun h => by rw [subscribes] at h; exact nomatch h.1]
      rw [same]
      cases cli with
      | none =>
        dsimp only
        split
        · exact before.sublist List.eraseP_sublist
        · exact before
      | some cli =>
        dsimp only
        split
        · exact before.sublist List.eraseP_sublist
        · exact before
    | true =>
      cases cli with
      | none =>
        have anew : (st.ask cfg other cons cmd none).failed other =
            update (st.failed other) cons 0 := by
          funext ci
          rw [failed, update_apply]
          simp [subscribes]
        rw [anew]
        exact before.addConsumer bounded (fits subscribes rfl)
      | some cli =>
        have same : (st.ask cfg other cons cmd (some cli)).failed other = st.failed other := by
          funext ci
          rw [failed, if_neg fun h => nomatch h.2.1]
        rw [same]
        exact before.addSyncConsumer cli
  · have same : (st.ask cfg sensor cons cmd cli).failed other = st.failed other := by
      funext ci
      rw [failed, if_neg fun h => here h.2.2.1]
    rw [if_neg here, same]
    exact before

/-- **A command evicts nobody.** -/
theorem lawful_ask (sensor : ObjectId) (cons : ConsumerInfo) (cmd : UIOCommand)
    (cli : Option Client) : Lawful cfg st (.ask sensor cons cmd cli) := by
  refine ⟨fun e he own => ?_, ?_⟩
  · rw [Watched.view_entries_ask, if_pos rfl, entries_ask]
    have member : e.subscriber ∈ subscribers (st.view sensor).entries := List.mem_map_of_mem he
    cases subscribes : cmd.subscribes with
    | true =>
      cases cli with
      | none => exact .inr (subset_subscribe ⟨none, cons, cfg.first, 0, 0⟩ member)
      | some cli => exact .inr (subset_subscribe ⟨some cli, {}, cfg.first, 0, 0⟩ member)
    | false =>
      by_cases withdraws : cmd = .UIODontNotify
      · cases cli with
        | none =>
          by_cases same : e.ci = cons
          · exact .inl ⟨withdraws, rfl, same⟩
          · refine .inr ?_
            dsimp only
            rw [if_pos withdraws]
            exact List.mem_map_of_mem ((List.mem_eraseP_of_neg (by simpa using same)).mpr he)
        | some cli =>
          refine .inr ?_
          dsimp only
          rw [if_pos withdraws]
          exact List.mem_map_of_mem ((List.mem_eraseP_of_neg (by simp [own])).mpr he)
      · refine .inr ?_
        cases cli with
        | none =>
          dsimp only
          rw [if_neg withdraws]
          exact member
        | some cli =>
          dsimp only
          rw [if_neg withdraws]
          exact member
  · have lost : (st.ask cfg sensor cons cmd cli).lost = _ :=
      lost_ask cfg (st.view sensor) cons cmd cli
    rw [lost]
    split
    · next subscribes =>
      refine ⟨fun _ h => h.elim, fun id _ => lostCount_clearLost .., fun id => ?_⟩
      rw [lostFlag_clearLost, false_or]
      exact and_congr_right fun _ => not_congr (iff_of_eq (by simp [subscribes]))
    · next other =>
      refine ⟨fun _ h => h.elim, fun id _ => rfl, fun id => ?_⟩
      rw [false_or]
      exact (and_iff_left fun h => other ⟨h.1, h.2.1⟩).symm

/-- **A notification keeps the invariant and evicts as it should.** -/
theorem Counted.send (counted : Counted cfg st) (bounded : 0 < cfg.maxAttempts) {sensor : ObjectId}
    {target : Option ConsumerInfo} {env : Delivery Client}
    (fits : Fits st (.send sensor target env)) :
    Counted cfg (st.send cfg sensor target env) ∧ Lawful cfg st (.send sensor target env) := by
  have before := counted sensor
  obtain ⟨vs, visits, sent⟩ :=
    send_visits cfg env target (st.view sensor).entries ⟨st.lost, [], []⟩
  have unary := visits.tried_unary fits
  have pass : st.pass cfg sensor target env = afterVisits ⟨st.lost, [], []⟩ vs := sent
  have list : (st.pass cfg sensor target env).1 = vs.filterMap Visit.kept := by
    rw [pass]
    rfl
  -- what a visit to a unary consumer does
  have visit : ∀ v ∈ vs, v.entry.client = none →
      tries (attemptLog env (st.pass cfg sensor target env).2.tried) v.entry.ci = v.os ∧
      ErasedAt cfg.maxAttempts.toNat (st.failed sensor v.entry.ci) v.os
        (v.entry.subscriber ∉ subscribers (vs.filterMap Visit.kept)) ∧
      ∀ x, v.kept = some x → 0 < x.attempt ∧
        x.attempt + consecutive (st.failed sensor v.entry.ci) v.os = cfg.maxAttempts.toNat := by
    intro v hv own
    have inside : v.entry ∈ (st.view sensor).entries := visits.entries ▸ List.mem_map_of_mem hv
    obtain ⟨more, count⟩ := before.count v.entry inside own
    rw [pass]
    exact ⟨visits.tries_eq before.nodup unary st.lost hv own,
      visits.unary_erasedAt bounded before.nodup hv own more count⟩
  refine ⟨fun other => ⟨?_, fun x hx own => ?_⟩, fun e he own => ?_, ?_⟩
  · rw [Watched.view_entries_send]
    split
    · rw [list]
      exact (visits.distinct before.nodup).sublist (kept_sublist visits.valid)
    · exact (counted other).nodup
  · rw [Watched.view_entries_send] at hx
    rw [Watched.failed_send]
    split at hx
    · next here =>
      rw [if_pos here]
      rw [list] at hx
      obtain ⟨v, hv, kept⟩ := List.mem_filterMap.mp hx
      have same := (visits.valid v hv).kept_subscriber kept
      have unaryEntry : v.entry.client = none ∧ v.entry.ci = x.ci :=
        subscriber_eq_unary.mp (same.symm.trans (subscriber_unary own))
      obtain ⟨made, -, rest⟩ := visit v hv unaryEntry.1
      rw [← unaryEntry.2, made]
      exact rest x kept
    · next away =>
      rw [if_neg away]
      exact (counted other).count x hx own
  · rw [← visits.entries] at he
    obtain ⟨v, hv, rfl⟩ := List.mem_map.mp he
    obtain ⟨made, erased, -⟩ := visit v hv own
    rw [made, list]
    exact erased
  · have lost : (st.pass cfg sensor target env).2.lost = vs.foldl Visit.lost st.lost := by
      rw [pass]
      rfl
    rw [lost, foldl_lost, list]
    exact (LostLaw.foldl _ _).congr (visits.evicted_iff before.nodup unary)

/-- **Evictions.** In every run whose steps meet the condition, every consumer is erased exactly at
the attempt that completes the maximal number of failures in a row, and counted as lost exactly if
its flag is clear. -/
theorem evictions (cfg : Attempts) (bounded : 0 < cfg.maxAttempts) {start : Watched Client}
    {events : List (Event Client)} (begins : (watch cfg).start start)
    (fits : (watch cfg).Meets Fits start events) :
    (watch cfg).Meets (Lawful cfg) start events := by
  refine Lib.Machine.meets_of_invariant (P := Counted cfg)
    (fun s event t counted fits stepped => ?_) (fun s event counted fits => ?_) (fun sensor => ?_)
    fits
  · cases stepped
    cases event with
    | ask sensor cons cmd cli => exact counted.ask bounded fits
    | send sensor target env => exact (counted.send bounded fits).1
  · cases event with
    | ask sensor cons cmd cli => exact lawful_ask sensor cons cmd cli
    | send sensor target env => exact (counted.send bounded fits).2
  · have empty : (start.view sensor).entries = [] := by
      unfold Watched.view Lists.entries
      rw [begins.1 sensor]
      rfl
    rw [empty]
    exact ⟨List.nodup_nil, nofun⟩

end Runs

/-! ### A subscription that finds the entry of a stream client -/

/-- Two failures evict a consumer. -/
def twoAttempts : Attempts := ⟨2, 1, by decide⟩

/-- Nobody has asked for any sensor. -/
def unwatched : Watched Nat := ⟨fun _ => none, fun _ => none, fun _ _ => 0⟩

/-- Nothing can be sent. -/
def unreachable : Delivery Nat := ⟨fun _ => false, fun _ => false⟩

/-- A consumer and a stream client; the consumer fails twice, with a subscription in between. -/
def resubscribed (ci : ConsumerInfo) : List (Event Nat) :=
  [.ask 1 ci .UIONotifyChange none, .ask 1 {} .UIONotifyChange (some 7), .send 1 none unreachable,
    .ask 1 ci .UIONotifyChange none, .send 1 none unreachable]

theorem resubscribed_lawful :
    (watch twoAttempts).Meets (Lawful twoAttempts) unwatched (resubscribed ⟨5, 1⟩) :=
  evictions twoAttempts (by decide) ⟨fun _ => rfl, rfl⟩ (by decide +kernel)

/-- **The consumer `(0, 0)` is erased early**: its new subscription has found the stream client. -/
theorem erased_early : ¬ ∀ (cfg : Attempts) (start : Watched Nat) (events : List (Event Nat)),
    0 < cfg.maxAttempts → 0 < cfg.sendAttempts → (watch cfg).start start →
      (watch cfg).Meets (Lawful cfg) start events := by
  intro holds
  have meets := holds twoAttempts unwatched (resubscribed {}) (by decide) (by decide)
    ⟨fun _ => rfl, rfl⟩
  have last := ((((meets.2 _ rfl).2 _ rfl).2 _ rfl).2 _ rfl).1
  have erased := last.1 ⟨none, {}, 1, 0, 0⟩ (by decide +kernel) rfl
  exact absurd (erased.1.mp (by decide +kernel)) (by decide +kernel)

end UniSet.Processes.Consumers
