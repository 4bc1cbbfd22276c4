/-
**The values of a received packet: what `update` reads of them.**

Identifiers and values are separate repeated fields, and a datagram may carry them in any numbers.
`update` reads one value for every identifier; `dID` and `aID` check their index, `dValue` and
`aValue` do not, and neither does `isOk`.

* `Receiver.valueReads` — the values that an update reads, with their packets.
* `Paired` — a packet with a value for every identifier.
* `ReadInside` — no update in any run reads a value of the packet that is not there.
* **`readInside_iff`** — so it is exactly for the packets with a value for every identifier, and
  for the last number, which is never read; `unpaired_read_outside` is another one.
-/

import UniSet.UNet.Stored

namespace UniSet.UNet

open UniSet.Processes (Value)

/-- The kinds of data of a packet. -/
inductive Kind
  | discrete | analog
deriving DecidableEq, Repr

namespace UDPMessage

variable (m : UDPMessage)

/-- **`dsize`** and **`asize`**. -/
def size : Kind → Nat
  | .discrete => m.data.dID.length
  | .analog => m.data.aID.length

/-- The number of received values, below which `dValue` and `aValue` may be called. -/
def values : Kind → Nat
  | .discrete => m.data.dValue.length
  | .analog => m.data.aValue.length

/-- The indices of the values that `update` reads, discrete before analog. -/
def reads : List (Kind × Nat) :=
  (List.range (m.size .discrete)).map (.discrete, ·) ++
    (List.range (m.size .analog)).map (.analog, ·)

/-- A value for every identifier. -/
def Paired : Prop := ∀ kind, m.size kind ≤ m.values kind

variable {m}

theorem mem_reads {kind : Kind} {i : Nat} : (kind, i) ∈ m.reads ↔ i < m.size kind := by
  unfold reads
  rw [List.mem_append, List.mem_map, List.mem_map]
  cases kind with
  | discrete => simp
  | analog => simp

/-- **The values that are read are there** exactly if there is one for every identifier. -/
theorem reads_inside_iff : (∀ a ∈ m.reads, a.2 < m.values a.1) ↔ m.Paired := by
  constructor
  · intro inside kind
    refine Nat.le_of_not_lt fun few => ?_
    exact Nat.lt_irrefl _ (inside (kind, m.values kind) (mem_reads.mpr few))
  · rintro paired ⟨kind, i⟩ member
    exact Nat.lt_of_lt_of_le (mem_reads.mp member) (paired kind)

end UDPMessage

namespace Receiver

/-- **The values that an update reads**, each with its packet. -/
def valueReads (c : Conf) (r : Receiver) (expired : UInt64 → Bool) :
    List (UDPMessage × Kind × Nat) :=
  (r.update c expired).2.flatMap fun p => p.reads.map (p, ·)

variable {c : Conf} {r : Receiver} {expired : UInt64 → Bool} {m : UDPMessage}

theorem mem_valueReads {a : Kind × Nat} :
    (m, a) ∈ r.valueReads c expired ↔ m ∈ (r.update c expired).2 ∧ a ∈ m.reads := by
  unfold valueReads
  rw [List.mem_flatMap]
  constructor
  · rintro ⟨p, applied, member⟩
    obtain ⟨b, read, same⟩ := List.mem_map.mp member
    cases same
    exact ⟨applied, read⟩
  · rintro ⟨applied, read⟩
    exact ⟨m, applied, List.mem_map_of_mem read⟩

end Receiver

/-! ### The packets that are read -/

/-- **No update reads a value of the packet that is not there**, in any configuration and state. -/
def ReadInside (m : UDPMessage) : Prop :=
  ∀ (c : Conf) (w : Reception) (expired : UInt64 → Bool),
    (machine c).Reachable (fun _ _ => True) w →
      ∀ a, (m, a) ∈ w.receiver.valueReads c expired → a.2 < m.values a.1

variable {m : UDPMessage}

/-- A packet that is applied has a number below the expected one. -/
theorem applied_below {c : Conf} {r : Receiver} {expired : UInt64 → Bool}
    (applied : m ∈ (r.update c expired).2) : m.num < r.wnum := by
  have kept : (r.update c expired).1.wnum = r.wnum ∧
      ∀ p ∈ (r.update c expired).2, p.num < r.wnum := by
    refine Receiver.update_keeps (P := fun u => u.1.wnum = r.wnum ∧ ∀ p ∈ u.2, p.num < r.wnum) ?_
      ⟨rfl, nofun⟩
    rintro u v - ⟨wnum, below⟩ turn
    obtain ⟨inside, ⟨-, -, kept, lost, left⟩ | ⟨own, left, handed⟩⟩ :=
      Receiver.updateTurn_cases turn
    · rw [left, kept]
      exact ⟨wnum, below⟩
    · rw [left, handed]
      refine ⟨wnum, ?_⟩
      split
      · exact below
      · intro p member
        rcases List.mem_append.mp member with old | new
        · exact below p old
        · rw [List.mem_singleton.mp new, own, ← wnum]
          exact inside
  exact kept.2 m applied

/-- A buffer for which every number but the last has its own slot. -/
def wide (maxDifferens : UInt64) : Conf := ⟨0xffffffffffffffff, maxDifferens, by decide⟩

theorem slot_wide (maxDifferens : UInt64) {num : UInt64} (more : num + 1 ≠ 0) :
    (wide maxDifferens).slot num = num.toNat := by
  refine Nat.mod_eq_of_lt ?_
  have := toNat_succ more
  have := (num + 1).toNat_lt
  show num.toNat < 0xffffffffffffffff
  omega

/-- The packet at the read position is applied. -/
theorem first_applied {c : Conf} {r : Receiver} (expired : UInt64 → Bool) (below : r.rnum < r.wnum)
    (started : ¬ (r.wnum = 1 ∧ r.rnum = 0)) (own : (r.cbuf (c.slot r.rnum)).num = r.rnum)
    (writes : r.Writes) : r.cbuf (c.slot r.rnum) ∈ (r.update c expired).2 := by
  obtain ⟨n, turns⟩ : ∃ n, (r.wnum - r.rnum).toNat = n + 1 := by
    refine Nat.exists_eq_succ_of_ne_zero ?_
    have := UInt64.lt_iff_toNat_lt.mp below
    rw [UInt64.toNat_sub_of_le _ _ (UInt64.le_of_lt below)]
    omega
  rw [Receiver.update, if_neg started, turns]
  cases turn : Receiver.updateTurn c expired (r, []) with
  | none =>
    rcases Receiver.updateTurn_none turn (UInt64.le_of_lt below) with same | ⟨hole, -⟩
    · exact absurd same (UInt64.ne_of_lt below)
    · exact absurd own hole
  | some v =>
    rw [Lib.loop_some turn]
    refine Lib.loop_keeps (P := fun u : Receiver × List UDPMessage => r.cbuf (c.slot r.rnum) ∈ u.2)
      (fun u v member turn => ?_) n ?_
    · obtain ⟨-, ⟨-, -, kept, -⟩ | ⟨-, -, handed⟩⟩ := Receiver.updateTurn_cases turn
      · rw [kept]
        exact member
      · rw [handed]
        split
        · exact member
        · exact List.mem_append_left _ member
    · obtain ⟨-, ⟨hole, -⟩ | ⟨-, -, handed⟩⟩ := Receiver.updateTurn_cases turn
      · exact absurd own hole
      · rw [handed, if_neg fun blocked => Receiver.blocked_iff.mp blocked writes]
        exact List.mem_append_right _ (List.mem_singleton_self _)

/-- A new receiver stores the packet `0` and leaves both positions. -/
theorem receive_zero (ok : m.isOk = true) (zero : m.num = 0) :
    (Receiver.new.receive (wide 1) (.parsed m)).1 =
      { Receiver.new with cbuf := Receiver.new.moved (wide 1) m } := by
  have near : Receiver.new.disagree (wide 1) m.num = false := by
    rw [zero]
    decide
  have received : (Receiver.new.receive (wide 1) (.parsed m)).1 =
      Receiver.new.accept (wide 1) m := by
    simp [Receiver.receive, ok, near]
  obtain ⟨here, -⟩ | ⟨-, stored⟩ := Receiver.accept_cases (c := wide 1) (r := .new) m
  · rw [zero] at here
    cases here
  · rw [received, stored, zero]
    rfl

/-- With these positions the packet `2` is stored ahead. -/
theorem receive_two {r : Receiver} (wnum : r.wnum = 1) (rnum : r.rnum = 0) :
    (r.receive (wide 1) (.parsed (packet 2 0))).1 =
      { r with cbuf := r.moved (wide 1) (packet 2 0), wnum := 3 } := by
  have near : r.disagree (wide 1) (packet 2 0).num = false := by
    unfold Receiver.disagree
    rw [wnum, rnum]
    decide
  have received : (r.receive (wide 1) (.parsed (packet 2 0))).1 = r.accept (wide 1) (packet 2 0) := by
    simp [Receiver.receive, near, show (packet 2 0).isOk = true from rfl]
  obtain ⟨here, -⟩ | ⟨-, stored⟩ := Receiver.accept_cases (c := wide 1) (r := r) (packet 2 0)
  · rw [wnum] at here
    cases here
  · rw [received, stored, if_pos (by rw [wnum]; decide)]
    rfl

/-- The packet `2` makes a receiver read that has got the packet `0` first. -/
theorem zero_applied (ok : m.isOk = true) (zero : m.num = 0) :
    m ∈ ((((⟨.new, []⟩ : Reception).step (wide 1) (.receive (.parsed m))).step (wide 1)
      (.receive (.parsed (packet 2 0)))).receiver.update (wide 1) fun _ => false).2 := by
  have first : ((⟨.new, []⟩ : Reception).step (wide 1) (.receive (.parsed m))).receiver =
      { Receiver.new with cbuf := Receiver.new.moved (wide 1) m } := receive_zero ok zero
  have placed : Receiver.new.moved (wide 1) m ((wide 1).slot 0) = m := by
    rw [Receiver.moved_apply, if_neg (by decide), if_pos (by rw [zero])]
  generalize (⟨.new, []⟩ : Reception).step (wide 1) (.receive (.parsed m)) = w at first ⊢
  obtain ⟨r, session⟩ := w
  dsimp only at first
  have wnum : r.wnum = 1 := by rw [first]; rfl
  have rnum : r.rnum = 0 := by rw [first]; rfl
  have cbuf : r.cbuf ((wide 1).slot 0) = m := by rw [first]; exact placed
  have writes : r.Writes := by rw [first]; exact ⟨rfl, rfl⟩
  clear first
  show m ∈ ((r.receive (wide 1) (.parsed (packet 2 0))).1.update (wide 1) fun _ => false).2
  rw [receive_two wnum rnum]
  have kept : r.moved (wide 1) (packet 2 0) ((wide 1).slot r.rnum) = m := by
    rw [Receiver.moved_apply, if_neg (by rw [wnum, rnum]; decide),
      if_neg (by rw [rnum]; decide), rnum, cbuf]
  have applied := first_applied (c := wide 1)
    (r := { r with cbuf := r.moved (wide 1) (packet 2 0), wnum := 3 }) (fun _ => false)
    (show r.rnum < 3 by rw [rnum]; decide) (fun h => absurd (show (3 : UInt64) = 1 from h.1) (by decide))
    (show (r.moved (wide 1) (packet 2 0) ((wide 1).slot r.rnum)).num = r.rnum by
      rw [kept, zero, rnum]) writes
  exact (show r.moved (wide 1) (packet 2 0) ((wide 1).slot r.rnum) = m from kept) ▸ applied

/-- **Every valid packet but one with the last number can be applied.** -/
theorem exists_applied (ok : m.isOk = true) (more : m.num + 1 ≠ 0) :
    ∃ (c : Conf) (w : Reception), (machine c).Reachable (fun _ _ => True) w ∧
      m ∈ (w.receiver.update c fun _ => false).2 := by
  have received : ∀ c : Conf, (machine c).Reachable (fun _ _ => True)
      ((⟨.new, []⟩ : Reception).step c (.receive (.parsed m))) := fun c =>
    ⟨⟨.new, []⟩, [.receive (.parsed m)], rfl, Lib.Machine.meets_true _, rfl⟩
  by_cases zero : m.num = 0
  · exact ⟨wide 1, _, ⟨⟨.new, []⟩, [.receive (.parsed m), .receive (.parsed (packet 2 0))], rfl,
      Lib.Machine.meets_true _, rfl⟩, zero_applied ok zero⟩
  · by_cases one : m.num = 1
    · -- the expected packet
      refine ⟨wide 1, _, received _, ?_⟩
      have near : Receiver.new.disagree (wide 1) m.num = false := by
        rw [one]
        decide
      have after : (Receiver.new.receive (wide 1) (.parsed m)).1 =
          Receiver.new.accept (wide 1) m := by
        simp [Receiver.receive, ok, near]
      show m ∈ ((Receiver.new.receive (wide 1) (.parsed m)).1.update _ _).2
      obtain ⟨-, stored⟩ | ⟨elsewhere, -⟩ := Receiver.accept_cases (c := wide 1) (r := .new) m
      · rw [after, stored, if_pos (show Receiver.new.rnum = 0 from rfl),
          Receiver.mem_update_single _ (by rw [one]; rfl) zero more]
        have here : Receiver.new.parsedInto (wide 1) m ((wide 1).slot m.num) = m := by
          rw [Receiver.parsedInto_apply, if_pos (by rw [one]; rfl)]
        exact ⟨here.symm, congrArg UDPMessage.num here, rfl, rfl⟩
      · exact absurd one elsewhere
    · -- the packet reinitialises
      refine ⟨wide 0, _, received _, ?_⟩
      have far : Receiver.new.disagree (wide 0) m.num = true := by
        refine Bool.or_eq_true_iff.mpr (.inl (decide_eq_true ?_))
        show 0 < min (m.num - 1).toNat (1 - m.num).toNat
        have apart : m.num.toNat ≠ 1 := fun same => one (UInt64.toNat_inj.mp same)
        have := m.num.toNat_lt
        rw [UInt64.toNat_sub, UInt64.toNat_sub, UInt64.toNat_one]
        omega
      have after : (Receiver.new.receive (wide 0) (.parsed m)).1 =
          Receiver.new.reinitialise (wide 0) m := by
        simp [Receiver.receive, ok, far]
      show m ∈ ((Receiver.new.receive (wide 0) (.parsed m)).1.update _ _).2
      rw [after, Receiver.mem_update_reinitialised _ ⟨rfl, rfl⟩]
      refine ⟨zero, more, fun same => one ?_⟩
      rw [slot_wide 0 more] at same
      exact UInt64.toNat_inj.mp same

/-- **Bounds safety.** The values of a valid packet are read where they are, in every run, exactly
if there is one for every identifier, or the packet has the last number and is never read. -/
theorem readInside_iff {m : UDPMessage} (ok : m.isOk = true) :
    ReadInside m ↔ (m.num + 1 ≠ 0 → m.Paired) := by
  constructor
  · intro inside more
    obtain ⟨c, w, reached, applied⟩ := exists_applied ok more
    refine UDPMessage.reads_inside_iff.mp fun a read => ?_
    exact inside c w _ reached a (Receiver.mem_valueReads.mpr ⟨applied, read⟩)
  · intro paired c w expired _ a member
    obtain ⟨applied, read⟩ := Receiver.mem_valueReads.mp member
    refine UDPMessage.reads_inside_iff.mpr (paired fun last => ?_) a read
    have below := UInt64.lt_iff_toNat_lt.mp (applied_below applied)
    have wrapped := congrArg UInt64.toNat last
    have := w.receiver.wnum.toNat_lt
    rw [UInt64.toNat_add, UInt64.toNat_one, UInt64.toNat_zero] at wrapped
    omega

/-- A packet with an identifier and no value. -/
def unpaired : UDPMessage := ⟨magicNum, 1, 1, 2, ⟨[5], [], [], []⟩⟩

theorem packet_readInside : ReadInside (packet 1 10) :=
  (readInside_iff rfl).mpr fun _ kind => by cases kind <;> exact Nat.le_refl _

/-- **A value is read that is not there.** -/
theorem unpaired_read_outside : ¬ ∀ m : UDPMessage, m.isOk = true → ReadInside m := by
  intro holds
  obtain ⟨c, w, reached, applied⟩ := exists_applied (m := unpaired) rfl (by decide)
  have inside := holds unpaired rfl c w _ reached (.discrete, 0)
    (Receiver.mem_valueReads.mpr ⟨applied, by decide⟩)
  exact absurd inside (by decide)

end UniSet.UNet
