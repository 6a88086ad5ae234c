import Mathlib

/-!
# The DPDK queue-pair ownership table

The eRPC processes of a machine take their DPDK queue pairs from one table, which the eRPC DPDK
daemon creates in a memzone (`DpdkTransport::ownership_memzone_t`). Slot `i` of port `p` holds the
PID of the process that owns queue pair `i` of port `p`, zero when it is free, and a random id the
owner installed against PID reuse. `get_qp` takes the first free slot of a port, `free_qp` gives
back a slot the caller owns, and the daemon's `daemon_reclaim_qps_from_crashed` frees the slots of
a port whose owner has exited. Each call holds the table's mutex for its whole body, so each is
one function on the table here.

The table counts the free queue pairs in one number, `num_qps_available_`, which `init` sets to
`kMaxQueuesPerPort`, while it has `kMaxQueuesPerPort` slots on each of the `kMaxPhyPorts` ports.
Its counters are `size_t`, so `UInt64`. PIDs are natural numbers, and `getpid` gives a positive
one. `kill (pid, 0)` is an oracle `alive` on PIDs: the call succeeds for PID 0, which names the
caller's process group, and for the PIDs of live processes. The mutex, `link_` and the read-only
accessors `get_epoch`, `get_num_qps_available` and `get_summary` are left out.
-/

namespace ERpc

def kMaxPhyPorts : ℕ := 2

/-- `DpdkTransport::kMaxQueuesPerPort` outside Windows. -/
def kMaxQueuesPerPort : ℕ := 16

/-- `DpdkTransport::kInvalidQpId`, that is `SIZE_MAX`. -/
def kInvalidQpId : ℕ := 2 ^ 64 - 1

/-- An entry of `owner_`. -/
structure QpOwner where
  pid : ℕ
  procRandomId : ℕ
  deriving DecidableEq, Repr

/-- What `free_qp` returns: 0, or the errno `EALREADY` or `EPERM`. -/
inductive FreeQpResult
  | ok
  | eAlready
  | ePerm
  deriving DecidableEq, Repr

/-- `ownership_memzone_t` -/
structure OwnershipMemzone where
  epoch : UInt64
  numQpsAvailable : UInt64
  owner : Fin kMaxPhyPorts → Fin kMaxQueuesPerPort → QpOwner

namespace OwnershipMemzone

def init : OwnershipMemzone where
  epoch := 0
  numQpsAvailable := UInt64.ofNat kMaxQueuesPerPort
  owner _ _ := ⟨0, 0⟩

/-- `owner_[phy_port][i] = o` -/
def setOwner (m : OwnershipMemzone) (phyPort : Fin kMaxPhyPorts) (i : Fin kMaxQueuesPerPort)
    (o : QpOwner) : OwnershipMemzone :=
  { m with owner := Function.update m.owner phyPort (Function.update (m.owner phyPort) i o) }

/-- The PID sanity check of `get_qp` fails: a slot of the port has the caller's PID under another
random id. -/
def pidClash (m : OwnershipMemzone) (phyPort : Fin kMaxPhyPorts) (procRandomId myPid : ℕ) : Bool :=
  (List.finRange kMaxQueuesPerPort).any fun i =>
    (m.owner phyPort i).pid == myPid && (m.owner phyPort i).procRandomId != procRandomId

/-- The second loop of `get_qp`: the first free slot of the port. -/
def firstFree (m : OwnershipMemzone) (phyPort : Fin kMaxPhyPorts) : Option (Fin kMaxQueuesPerPort) :=
  (List.finRange kMaxQueuesPerPort).find? fun i => (m.owner phyPort i).pid == 0

/-- `get_qp (phy_port, proc_random_id)` called by the process `myPid`. -/
def getQp (m : OwnershipMemzone) (phyPort : Fin kMaxPhyPorts) (procRandomId myPid : ℕ) :
    OwnershipMemzone × ℕ :=
  let m := { m with epoch := m.epoch + 1 }
  if m.pidClash phyPort procRandomId myPid then (m, kInvalidQpId)
  else
    match m.firstFree phyPort with
    | some i =>
      ({ m.setOwner phyPort i ⟨myPid, procRandomId⟩ with
          numQpsAvailable := m.numQpsAvailable - 1 }, i)
    | none => (m, kInvalidQpId)

/-- `free_qp (phy_port, qp_id)` called by the process `myPid`. -/
def freeQp (m : OwnershipMemzone) (phyPort : Fin kMaxPhyPorts) (qpId : Fin kMaxQueuesPerPort)
    (myPid : ℕ) : OwnershipMemzone × FreeQpResult :=
  let m := { m with epoch := m.epoch + 1 }
  let owner := m.owner phyPort qpId
  if owner.pid = 0 then (m, .eAlready)
  else if owner.pid ≠ myPid then (m, .ePerm)
  else
    -- only `pid_` is cleared; the slot keeps its random id
    ({ m.setOwner phyPort qpId { owner with pid := 0 } with
        numQpsAvailable := m.numQpsAvailable + 1 }, .ok)

/-- One pass of the loop of `daemon_reclaim_qps_from_crashed`. -/
def reclaimSlot (phyPort : Fin kMaxPhyPorts) (alive : ℕ → Bool) (m : OwnershipMemzone)
    (i : Fin kMaxQueuesPerPort) : OwnershipMemzone :=
  let owner := m.owner phyPort i
  -- `kill (owner.pid_, 0)` succeeds
  if owner.pid = 0 ∨ alive owner.pid then m
  else
    { m.setOwner phyPort i { owner with pid := 0 } with numQpsAvailable := m.numQpsAvailable + 1 }

def daemonReclaimQpsFromCrashed (m : OwnershipMemzone) (phyPort : Fin kMaxPhyPorts)
    (alive : ℕ → Bool) : OwnershipMemzone :=
  (List.finRange kMaxQueuesPerPort).foldl (reclaimSlot phyPort alive) m

/-- The slots with an owner. -/
def owned (m : OwnershipMemzone) : Finset (Fin kMaxPhyPorts × Fin kMaxQueuesPerPort) :=
  Finset.univ.filter fun x => (m.owner x.1 x.2).pid ≠ 0

/-- The number of owned queue pairs, over all ports. -/
def ownedCount (m : OwnershipMemzone) : ℕ := m.owned.card

/-- The counter and the owned slots add up to `kMaxQueuesPerPort`, in `size_t` arithmetic. -/
def Balanced (m : OwnershipMemzone) : Prop :=
  m.numQpsAvailable + UInt64.ofNat m.ownedCount = UInt64.ofNat kMaxQueuesPerPort

variable {m t : OwnershipMemzone} {p q : Fin kMaxPhyPorts} {i j : Fin kMaxQueuesPerPort}
  {o : QpOwner}

section Slots

theorem owner_setOwner (m : OwnershipMemzone) (p q : Fin kMaxPhyPorts)
    (i j : Fin kMaxQueuesPerPort) (o : QpOwner) :
    (m.setOwner p i o).owner q j = if q = p ∧ j = i then o else m.owner q j := by
  unfold setOwner
  by_cases hq : q = p
  · subst hq
    by_cases hj : j = i
    · subst hj
      simp
    · simp [hj]
  · simp [hq]

theorem eq_of_owner_setOwner_ne (h : (m.setOwner p i o).owner q j ≠ m.owner q j) :
    q = p ∧ j = i := by
  rw [owner_setOwner] at h
  split_ifs at h with hqj
  · exact hqj
  · exact absurd rfl h

@[simp] theorem ownedCount_mk (e c : UInt64) (m : OwnershipMemzone) :
    (OwnershipMemzone.mk e c m.owner).ownedCount = m.ownedCount := rfl

theorem mem_owned : (q, j) ∈ m.owned ↔ (m.owner q j).pid ≠ 0 := by
  simp [owned]

theorem owned_setOwner_of_pos (m : OwnershipMemzone) (p : Fin kMaxPhyPorts)
    (i : Fin kMaxQueuesPerPort) (ho : o.pid ≠ 0) :
    (m.setOwner p i o).owned = insert (p, i) m.owned := by
  ext ⟨q, j⟩
  rw [mem_owned, Finset.mem_insert, mem_owned, owner_setOwner, Prod.mk.injEq]
  split_ifs with h
  · simp [h, ho]
  · simp [h]

theorem owned_setOwner_of_zero (m : OwnershipMemzone) (p : Fin kMaxPhyPorts)
    (i : Fin kMaxQueuesPerPort) (ho : o.pid = 0) :
    (m.setOwner p i o).owned = m.owned.erase (p, i) := by
  ext ⟨q, j⟩
  simp only [mem_owned, Finset.mem_erase, owner_setOwner, ne_eq, Prod.mk.injEq]
  split_ifs with h
  · simp [h, ho]
  · simp [h]

theorem ownedCount_setOwner_claim (hf : (m.owner p i).pid = 0) (ho : o.pid ≠ 0) :
    (m.setOwner p i o).ownedCount = m.ownedCount + 1 := by
  unfold ownedCount
  rw [owned_setOwner_of_pos m p i ho, Finset.card_insert_of_notMem]
  rw [mem_owned, hf]
  exact fun h => h rfl

theorem ownedCount_setOwner_release (hf : (m.owner p i).pid ≠ 0) (ho : o.pid = 0) :
    (m.setOwner p i o).ownedCount + 1 = m.ownedCount := by
  unfold ownedCount
  rw [owned_setOwner_of_zero m p i ho, Finset.card_erase_add_one (mem_owned.2 hf)]

theorem ownedCount_le (m : OwnershipMemzone) :
    m.ownedCount ≤ kMaxPhyPorts * kMaxQueuesPerPort := by
  calc m.ownedCount ≤ (Finset.univ : Finset (Fin kMaxPhyPorts × Fin kMaxQueuesPerPort)).card :=
        Finset.card_le_card (Finset.filter_subset _ _)
    _ = kMaxPhyPorts * kMaxQueuesPerPort := by simp

end Slots

section Calls

theorem pidClash_iff (m : OwnershipMemzone) (p : Fin kMaxPhyPorts) (rid pid : ℕ) :
    m.pidClash p rid pid = true ↔
      ∃ i, (m.owner p i).pid = pid ∧ (m.owner p i).procRandomId ≠ rid := by
  simp [pidClash]

theorem firstFree_some (h : m.firstFree p = some i) : (m.owner p i).pid = 0 := by
  have := List.find?_some h
  simpa using this

theorem firstFree_none (h : m.firstFree p = none) (i : Fin kMaxQueuesPerPort) :
    (m.owner p i).pid ≠ 0 := by
  have := List.find?_eq_none.1 h i (List.mem_finRange i)
  simpa using this

theorem getQp_cases (m : OwnershipMemzone) (p : Fin kMaxPhyPorts) (rid pid : ℕ) :
    (m.pidClash p rid pid = true ∧
      m.getQp p rid pid = ({ m with epoch := m.epoch + 1 }, kInvalidQpId)) ∨
    (m.pidClash p rid pid = false ∧ ∃ i, m.firstFree p = some i ∧
      m.getQp p rid pid = ({ m.setOwner p i ⟨pid, rid⟩ with
        epoch := m.epoch + 1, numQpsAvailable := m.numQpsAvailable - 1 }, (i : ℕ))) ∨
    (m.pidClash p rid pid = false ∧ m.firstFree p = none ∧
      m.getQp p rid pid = ({ m with epoch := m.epoch + 1 }, kInvalidQpId)) := by
  have hc : ({ m with epoch := m.epoch + 1 } : OwnershipMemzone).pidClash p rid pid =
      m.pidClash p rid pid := rfl
  have hf : ({ m with epoch := m.epoch + 1 } : OwnershipMemzone).firstFree p = m.firstFree p := rfl
  unfold getQp
  dsimp only
  rw [hc, hf]
  cases hclash : m.pidClash p rid pid
  · rcases hfree : m.firstFree p with _ | i
    · exact .inr (.inr ⟨rfl, rfl, rfl⟩)
    · exact .inr (.inl ⟨rfl, i, rfl, rfl⟩)
  · exact .inl ⟨rfl, rfl⟩

theorem freeQp_cases (m : OwnershipMemzone) (p : Fin kMaxPhyPorts) (i : Fin kMaxQueuesPerPort)
    (pid : ℕ) :
    ((m.owner p i).pid = 0 ∧ m.freeQp p i pid = ({ m with epoch := m.epoch + 1 }, .eAlready)) ∨
    ((m.owner p i).pid ≠ 0 ∧ (m.owner p i).pid ≠ pid ∧
      m.freeQp p i pid = ({ m with epoch := m.epoch + 1 }, .ePerm)) ∨
    ((m.owner p i).pid ≠ 0 ∧ (m.owner p i).pid = pid ∧
      m.freeQp p i pid = ({ m.setOwner p i { m.owner p i with pid := 0 } with
        epoch := m.epoch + 1, numQpsAvailable := m.numQpsAvailable + 1 }, .ok)) := by
  unfold freeQp
  dsimp only
  split_ifs with h0 hne
  · exact .inl ⟨h0, rfl⟩
  · exact .inr (.inl ⟨h0, hne, rfl⟩)
  · exact .inr (.inr ⟨h0, not_not.1 hne, rfl⟩)

theorem reclaimSlot_cases (p : Fin kMaxPhyPorts) (alive : ℕ → Bool) (m : OwnershipMemzone)
    (i : Fin kMaxQueuesPerPort) :
    (((m.owner p i).pid = 0 ∨ alive (m.owner p i).pid = true) ∧ reclaimSlot p alive m i = m) ∨
    ((m.owner p i).pid ≠ 0 ∧ alive (m.owner p i).pid = false ∧
      reclaimSlot p alive m i = { m.setOwner p i { m.owner p i with pid := 0 } with
        numQpsAvailable := m.numQpsAvailable + 1 }) := by
  unfold reclaimSlot
  dsimp only
  split_ifs with h
  · exact .inl ⟨h, rfl⟩
  · push Not at h
    exact .inr ⟨h.1, by simpa using h.2, rfl⟩

/-- A `get_qp` that returns a queue pair returns one that was free, and the caller owns it. -/
theorem getQp_snd_ne_invalid (p : Fin kMaxPhyPorts) (rid pid : ℕ)
    (h : (m.getQp p rid pid).2 ≠ kInvalidQpId) :
    ∃ i : Fin kMaxQueuesPerPort, (m.getQp p rid pid).2 = i ∧ (m.owner p i).pid = 0 ∧
      (m.getQp p rid pid).1.owner p i = ⟨pid, rid⟩ := by
  rcases getQp_cases m p rid pid with ⟨-, he⟩ | ⟨-, i, hi, he⟩ | ⟨-, -, he⟩
  · rw [he] at h
    exact absurd rfl h
  · refine ⟨i, by rw [he], firstFree_some hi, ?_⟩
    rw [he]
    simp [owner_setOwner]
  · rw [he] at h
    exact absurd rfl h

theorem getQp_snd_eq_invalid (p : Fin kMaxPhyPorts) (rid pid : ℕ)
    (h : (m.getQp p rid pid).2 = kInvalidQpId) :
    (∀ i, (m.owner p i).pid ≠ 0) ∨
      ∃ i, (m.owner p i).pid = pid ∧ (m.owner p i).procRandomId ≠ rid := by
  rcases getQp_cases m p rid pid with ⟨hc, -⟩ | ⟨-, i, -, he⟩ | ⟨-, hf, -⟩
  · exact .inr ((pidClash_iff m p rid pid).1 hc)
  · rw [he] at h
    have := i.isLt
    simp only [kInvalidQpId, kMaxQueuesPerPort] at h this
    omega
  · exact .inl (firstFree_none hf)

/-- A `free_qp` that fails changes nothing but the epoch. -/
theorem freeQp_of_ne_ok (p : Fin kMaxPhyPorts) (i : Fin kMaxQueuesPerPort) (pid : ℕ)
    (h : (m.freeQp p i pid).2 ≠ .ok) : (m.freeQp p i pid).1 = { m with epoch := m.epoch + 1 } := by
  rcases freeQp_cases m p i pid with ⟨-, he⟩ | ⟨-, -, he⟩ | ⟨-, -, he⟩
  · rw [he]
  · rw [he]
  · rw [he] at h
    exact absurd rfl h

end Calls

section Owners

theorem getQp_owner_changed (p : Fin kMaxPhyPorts) (rid pid : ℕ)
    (h : (m.getQp p rid pid).1.owner q j ≠ m.owner q j) : q = p ∧ (m.owner q j).pid = 0 := by
  rcases getQp_cases m p rid pid with ⟨-, he⟩ | ⟨-, i, hi, he⟩ | ⟨-, -, he⟩
  · rw [he] at h
    exact absurd rfl h
  · rw [he] at h
    change (m.setOwner p i ⟨pid, rid⟩).owner q j ≠ m.owner q j at h
    obtain ⟨rfl, rfl⟩ := eq_of_owner_setOwner_ne h
    exact ⟨rfl, firstFree_some hi⟩
  · rw [he] at h
    exact absurd rfl h

theorem freeQp_owner_changed (p : Fin kMaxPhyPorts) (i : Fin kMaxQueuesPerPort) (pid : ℕ)
    (h : (m.freeQp p i pid).1.owner q j ≠ m.owner q j) :
    q = p ∧ j = i ∧ (m.owner q j).pid = pid := by
  rcases freeQp_cases m p i pid with ⟨-, he⟩ | ⟨-, -, he⟩ | ⟨-, hpid, he⟩
  · rw [he] at h
    exact absurd rfl h
  · rw [he] at h
    exact absurd rfl h
  · rw [he] at h
    change (m.setOwner p i _).owner q j ≠ m.owner q j at h
    obtain ⟨rfl, rfl⟩ := eq_of_owner_setOwner_ne h
    exact ⟨rfl, rfl, hpid⟩

theorem reclaimSlot_owner_changed (p : Fin kMaxPhyPorts) (alive : ℕ → Bool)
    (i : Fin kMaxQueuesPerPort) (h : (reclaimSlot p alive m i).owner q j ≠ m.owner q j) :
    q = p ∧ (m.owner q j).pid ≠ 0 ∧ alive (m.owner q j).pid = false := by
  rcases reclaimSlot_cases p alive m i with ⟨-, he⟩ | ⟨h0, hdead, he⟩
  · rw [he] at h
    exact absurd rfl h
  · rw [he] at h
    change (m.setOwner p i _).owner q j ≠ m.owner q j at h
    obtain ⟨rfl, rfl⟩ := eq_of_owner_setOwner_ne h
    exact ⟨rfl, h0, hdead⟩

/-- The reclaim loop frees slots of its port from dead owners only: a slot it changes keeps its
new owner through the later passes, so the loop is read one pass at a time. -/
theorem foldl_reclaimSlot_owner_changed (p : Fin kMaxPhyPorts) (alive : ℕ → Bool) :
    ∀ (l : List (Fin kMaxQueuesPerPort)) {m : OwnershipMemzone},
      (l.foldl (reclaimSlot p alive) m).owner q j ≠ m.owner q j →
        q = p ∧ (m.owner q j).pid ≠ 0 ∧ alive (m.owner q j).pid = false
  | [], _, h => absurd rfl h
  | i :: l, m, h => by
    rw [List.foldl_cons] at h
    by_cases h1 : (reclaimSlot p alive m i).owner q j = m.owner q j
    · rw [← h1]
      exact foldl_reclaimSlot_owner_changed p alive l (h1 ▸ h)
    · exact reclaimSlot_owner_changed p alive i h1

theorem daemonReclaimQpsFromCrashed_owner_changed (p : Fin kMaxPhyPorts) (alive : ℕ → Bool)
    (h : (m.daemonReclaimQpsFromCrashed p alive).owner q j ≠ m.owner q j) :
    q = p ∧ (m.owner q j).pid ≠ 0 ∧ alive (m.owner q j).pid = false := by
  unfold daemonReclaimQpsFromCrashed at h
  exact foldl_reclaimSlot_owner_changed p alive (List.finRange kMaxQueuesPerPort) h

end Owners

section Balance

theorem Balanced.claim (h : m.Balanced) (hc : t.numQpsAvailable = m.numQpsAvailable - 1)
    (ho : t.ownedCount = m.ownedCount + 1) : t.Balanced := by
  unfold Balanced at *
  rw [hc, ho, UInt64.ofNat_add, ← h]
  grind

theorem Balanced.release (h : m.Balanced) (hc : t.numQpsAvailable = m.numQpsAvailable + 1)
    (ho : t.ownedCount + 1 = m.ownedCount) : t.Balanced := by
  unfold Balanced at *
  rw [← ho, UInt64.ofNat_add] at h
  rw [hc, ← h]
  grind

/-- A `get_qp` by a process keeps the counter in step with the owned slots. -/
theorem getQp_balanced (h : m.Balanced) (p : Fin kMaxPhyPorts) (rid : ℕ) {pid : ℕ}
    (hpid : 0 < pid) : (m.getQp p rid pid).1.Balanced := by
  rcases getQp_cases m p rid pid with ⟨-, he⟩ | ⟨-, i, hi, he⟩ | ⟨-, -, he⟩ <;> rw [he]
  · exact h
  · exact h.claim rfl (ownedCount_setOwner_claim (firstFree_some hi) hpid.ne')
  · exact h

theorem freeQp_balanced (h : m.Balanced) (p : Fin kMaxPhyPorts) (i : Fin kMaxQueuesPerPort)
    (pid : ℕ) : (m.freeQp p i pid).1.Balanced := by
  rcases freeQp_cases m p i pid with ⟨-, he⟩ | ⟨-, -, he⟩ | ⟨h0, -, he⟩ <;> rw [he]
  · exact h
  · exact h
  · exact h.release rfl (ownedCount_setOwner_release h0 rfl)

theorem reclaimSlot_balanced (p : Fin kMaxPhyPorts) (alive : ℕ → Bool) (h : m.Balanced)
    (i : Fin kMaxQueuesPerPort) : (reclaimSlot p alive m i).Balanced := by
  rcases reclaimSlot_cases p alive m i with ⟨-, he⟩ | ⟨h0, -, he⟩ <;> rw [he]
  · exact h
  · exact h.release rfl (ownedCount_setOwner_release h0 rfl)

theorem daemonReclaimQpsFromCrashed_balanced (h : m.Balanced) (p : Fin kMaxPhyPorts)
    (alive : ℕ → Bool) : (m.daemonReclaimQpsFromCrashed p alive).Balanced := by
  unfold daemonReclaimQpsFromCrashed
  induction List.finRange kMaxQueuesPerPort generalizing m with
  | nil => exact h
  | cons i l ih => exact ih (reclaimSlot_balanced p alive h i)

theorem init_balanced : init.Balanced := by
  unfold Balanced
  rw [show init.ownedCount = 0 by simp [ownedCount, owned, init]]
  rfl

/-- In a balanced table the counter reads `kMaxQueuesPerPort` minus the owned queue pairs modulo
`2 ^ 64`: below zero it wraps. -/
theorem Balanced.numQpsAvailable_toNat (h : m.Balanced) :
    m.numQpsAvailable.toNat = (2 ^ 64 + kMaxQueuesPerPort - m.ownedCount) % 2 ^ 64 := by
  have hle := m.ownedCount_le
  have := congrArg UInt64.toNat h
  rw [UInt64.toNat_add, UInt64.toNat_ofNat', Nat.mod_eq_of_lt (a := m.ownedCount)
    (by simp only [kMaxPhyPorts, kMaxQueuesPerPort] at hle; omega)] at this
  have hc := m.numQpsAvailable.toNat_lt
  simp only [kMaxPhyPorts, kMaxQueuesPerPort, Nat.reducePow, UInt64.toNat_ofNat'] at this hc hle ⊢
  omega

end Balance

end OwnershipMemzone

end ERpc
