import Mathlib.Algebra.Group.Nat.Defs
import Mathlib.Logic.Function.Basic
import Mathlib.Data.List.Range
import Mathlib.Order.Basic

/-!
# The hugepage allocator

`HugeAlloc` (`util/huge_alloc.h`, `util/huge_alloc.cc`) keeps one freelist of `Buffer`s per size
class, class `c` holding Buffers of `class_max_size (c) = 64 * 2 ^ c` bytes, up to 8 MB. An
allocation takes a Buffer from the request's class; if that class is empty, it splits a Buffer of
the first larger non-empty class down to it, and if there is none it reserves hugepages first,
which adds 8 MB Buffers to the largest class. Freeing pushes a Buffer back on its class's
freelist; Buffers are never merged.

The class of a size is found with a bit scan, `bsrl`, of `(size - 1) >> 6`: for sizes up to 64
bytes its operand is zero, where the instruction leaves its destination register as it was. The
compiled `msb_index` scans into the register that holds its operand, so a zero operand gives 0,
and `get_class` agrees with the reference loop `get_class_slow` for every size.

A Buffer is its start address and its class size; its memory registration key is not modelled.
A freelist is a list whose head is the vector's back, where `push_back`, `back` and `pop_back`
act. Reserving hugepages goes to the kernel (`shmget`): the environment gives the start of the
new region, or `none` when no hugepages are left (`ENOMEM`); the other failures of `shmget` throw
and are not modelled.
-/

namespace ERpc

def kHugepageSize : ℕ := 2 * 1024 * 1024

/-- `Buffer`: `buf_` and `class_size_`. -/
structure Buffer where
  buf : ℕ
  classSize : ℕ
  deriving DecidableEq, Repr

/-- `shm_region_t`: the start address of a reserved region and its size. -/
structure ShmRegion where
  buf : ℕ
  size : ℕ
  deriving DecidableEq, Repr

/-- `HugeAlloc`: its regions, its freelists and its statistics. -/
structure HugeAlloc where
  shmList : List ShmRegion
  freelist : ℕ → List Buffer
  prevAllocationSize : ℕ
  shmReserved : ℕ
  userAllocTot : ℕ

namespace HugeAlloc

def kMinClassSize : ℕ := 64

def kMinClassBitShift : ℕ := 6

/-- `k_max_class_size`, `MB(8)` -/
def kMaxClassSize : ℕ := 8 * 1024 * 1024

def kNumClasses : ℕ := 18

def classMaxSize (classI : ℕ) : ℕ := kMinClassSize * 2 ^ classI

/-- `msb_index`: `bsrl` of `x << 1`. For `x = 0` the instruction leaves its destination, which
the compiler may share with the source, as it is; the model takes `0`, the class
`get_class_slow` gives the sizes from 1 to 64. -/
def msbIndex (x : ℕ) : ℕ := Nat.log2 (x <<< 1)

def getClass (size : ℕ) : ℕ := msbIndex ((size - 1) >>> kMinClassBitShift)

/-- The loop of `get_class_slow` from `size_class` and `class_lim`, for at most `fuel` turns. -/
def getClassSlowLoop (size : ℕ) : ℕ → ℕ → ℕ → ℕ
  | 0, sizeClass, _ => sizeClass
  | fuel + 1, sizeClass, classLim =>
    if size > classLim then getClassSlowLoop size fuel (sizeClass + 1) (classLim * 2) else sizeClass

/-- `get_class_slow`: `class_lim` starts at 64 and doubles each turn, so the loop stops within
`size` turns. -/
def getClassSlow (size : ℕ) : ℕ := getClassSlowLoop size size 0 kMinClassSize

/-- `round_up<kHugepageSize>`: the bit mask of the code, written as a multiple. -/
def roundUp (x : ℕ) : ℕ := (x + (kHugepageSize - 1)) / kHugepageSize * kHugepageSize

/-- `HugeAlloc::HugeAlloc (initial_size, ...)`: nothing reserved yet. -/
def init (initialSize : ℕ) : HugeAlloc :=
  ⟨[], fun _ => [], if initialSize < kMaxClassSize then kMaxClassSize else initialSize, 0, 0⟩

variable (h : HugeAlloc)

def freeBuf (buffer : Buffer) : HugeAlloc :=
  let sizeClass := getClass buffer.classSize
  { h with
    freelist := Function.update h.freelist sizeClass (buffer :: h.freelist sizeClass)
    userAllocTot := h.userAllocTot - buffer.classSize }

/-- `HugeAlloc::split`: the back Buffer of class `sizeClass` becomes two Buffers of the class
below. The callers only split a non-empty class. -/
def split (sizeClass : ℕ) : HugeAlloc :=
  match h.freelist sizeClass with
  | [] => h
  | buffer :: rest =>
    let buffer0 : Buffer := ⟨buffer.buf, buffer.classSize / 2⟩
    let buffer1 : Buffer := ⟨buffer.buf + buffer.classSize / 2, buffer.classSize / 2⟩
    let fl := Function.update h.freelist sizeClass rest
    { h with freelist := Function.update fl (sizeClass - 1) (buffer1 :: buffer0 :: fl (sizeClass - 1)) }

/-- `HugeAlloc::alloc_from_class`: the back Buffer of the class, `none` for the null Buffer.
The callers only take from a non-empty class. -/
def allocFromClass (sizeClass : ℕ) : HugeAlloc × Option Buffer :=
  match h.freelist sizeClass with
  | [] => (h, none)
  | buffer :: rest =>
    ({ h with
        freelist := Function.update h.freelist sizeClass rest
        userAllocTot := h.userAllocTot + buffer.classSize }, some buffer)

/-- `HugeAlloc::alloc_raw (size, DoRegister::kTrue)`, where `shmget` gives a region at `raw`:
the start of the region. -/
def allocRaw (size : ℕ) (raw : Option ℕ) : HugeAlloc × Option ℕ :=
  let size := roundUp size
  match raw with
  | none => (h, none)
  | some shmBuf =>
    ({ h with shmList := h.shmList ++ [⟨shmBuf, size⟩], shmReserved := h.shmReserved + size },
      some shmBuf)

/-- The Buffers `reserve_hugepages` pushes on the largest class, in order, for a region at
`buf`. -/
def maxClassBuffer (buf i : ℕ) : Buffer := ⟨buf + i * kMaxClassSize, kMaxClassSize⟩

/-- `HugeAlloc::reserve_hugepages`: the new state and whether it succeeded. -/
def reserveHugepages (size : ℕ) (raw : Option ℕ) : HugeAlloc × Bool :=
  match h.allocRaw size raw with
  | (h, none) => (h, false)
  | (h, some buf) =>
    let numBuffers := size / kMaxClassSize
    let fl := (List.range numBuffers).foldl (fun l i => maxClassBuffer buf i :: l)
      (h.freelist (kNumClasses - 1))
    ({ h with freelist := Function.update h.freelist (kNumClasses - 1) fl }, true)

end HugeAlloc

/-- The loop of `HugeAlloc::alloc` that looks for the first class from `nextClass` on with a free
Buffer: `kNumClasses` if there is none. It runs at most `fuel = kNumClasses - nextClass` times. -/
def findNextClass (fl : ℕ → List Buffer) : ℕ → ℕ → ℕ
  | 0, nextClass => nextClass
  | fuel + 1, nextClass => if (fl nextClass).isEmpty then findNextClass fl fuel (nextClass + 1) else nextClass

namespace HugeAlloc

/-- `while (next_class != size_class) { split (next_class); next_class--; }` from
`next_class = sizeClass + k`. -/
def splitDown (h : HugeAlloc) (sizeClass : ℕ) : ℕ → HugeAlloc
  | 0 => h
  | k + 1 => splitDown (h.split (sizeClass + k + 1)) sizeClass k

/-- `HugeAlloc::alloc (size)`; `raw` is what `shmget` would give a reservation, and `none` is the
null Buffer. -/
def alloc (h : HugeAlloc) (size : ℕ) (raw : Option ℕ) : HugeAlloc × Option Buffer :=
  let sizeClass := getClass size
  if !(h.freelist sizeClass).isEmpty then h.allocFromClass sizeClass
  else
    let nextClass := findNextClass h.freelist (kNumClasses - (sizeClass + 1)) (sizeClass + 1)
    if nextClass = kNumClasses then
      let h := { h with prevAllocationSize := h.prevAllocationSize * 2 }
      match h.reserveHugepages h.prevAllocationSize raw with
      | (h, false) => ({ h with prevAllocationSize := h.prevAllocationSize / 2 }, none)
      | (h, true) => (h.splitDown sizeClass (kNumClasses - 1 - sizeClass)).allocFromClass sizeClass
    else (h.splitDown sizeClass (nextClass - sizeClass)).allocFromClass sizeClass

section Classes

theorem classMaxSize_pos (c : ℕ) : 0 < classMaxSize c := by
  unfold classMaxSize kMinClassSize
  exact Nat.mul_pos (by decide) (Nat.two_pow_pos c)

theorem classMaxSize_succ (c : ℕ) : classMaxSize (c + 1) = 2 * classMaxSize c := by
  unfold classMaxSize
  rw [Nat.pow_succ, ← Nat.mul_assoc, Nat.mul_comm _ 2]

theorem classMaxSize_lt_classMaxSize {c c' : ℕ} : classMaxSize c < classMaxSize c' ↔ c < c' := by
  unfold classMaxSize kMinClassSize
  rw [Nat.mul_lt_mul_left (by decide)]
  exact Nat.pow_lt_pow_iff_right (by decide)

theorem kMaxClassSize_eq : kMaxClassSize = classMaxSize (kNumClasses - 1) := by decide

/-- `get_class` gives the least class whose Buffers hold `size` bytes. -/
theorem getClass_spec {size : ℕ} (h1 : 1 ≤ size) :
    size ≤ classMaxSize (getClass size) ∧ ∀ c < getClass size, classMaxSize c < size := by
  have hq : (size - 1) >>> kMinClassBitShift = (size - 1) / 64 := by
    rw [Nat.shiftRight_eq_div_pow]
    rfl
  unfold getClass msbIndex
  rw [hq, Nat.shiftLeft_eq, Nat.pow_one]
  rcases Nat.eq_zero_or_pos ((size - 1) / 64) with h0 | hpos
  · rw [h0, Nat.zero_mul, Nat.log2_zero]
    refine ⟨?_, fun c hc => absurd hc (Nat.not_lt_zero c)⟩
    simp only [classMaxSize, kMinClassSize, Nat.pow_zero]
    omega
  · have hne : (size - 1) / 64 * 2 ≠ 0 := by omega
    refine ⟨?_, fun c hc => ?_⟩
    · have hlt := (Nat.log2_lt hne).1 (Nat.lt_succ_self _)
      rw [Nat.pow_succ] at hlt
      simp only [classMaxSize, kMinClassSize]
      omega
    · have hle := (Nat.le_log2 hne).1 (Nat.succ_le_of_lt hc)
      rw [Nat.pow_succ] at hle
      simp only [classMaxSize, kMinClassSize]
      omega

theorem least_class_unique {size c c' : ℕ}
    (h : size ≤ classMaxSize c ∧ ∀ d < c, classMaxSize d < size)
    (h' : size ≤ classMaxSize c' ∧ ∀ d < c', classMaxSize d < size) : c = c' := by
  rcases Nat.lt_trichotomy c c' with hc | hc | hc
  · exact absurd h.1 (Nat.not_le.2 (h'.2 c hc))
  · exact hc
  · exact absurd h'.1 (Nat.not_le.2 (h.2 c' hc))

theorem getClass_classMaxSize (c : ℕ) : getClass (classMaxSize c) = c := by
  refine least_class_unique (getClass_spec (Nat.succ_le_of_lt (classMaxSize_pos c))) ⟨le_rfl, ?_⟩
  intro d hd
  exact classMaxSize_lt_classMaxSize.2 hd

theorem getClass_lt {size : ℕ} (h1 : 1 ≤ size) (h2 : size ≤ kMaxClassSize) :
    getClass size < kNumClasses := by
  by_contra hge
  have := (getClass_spec h1).2 (kNumClasses - 1) (by unfold kNumClasses at hge ⊢; omega)
  rw [← kMaxClassSize_eq] at this
  omega

end Classes

section Reference

/-- Started at a class with its limit, the loop stops at the least class from there on that holds
`size`, given turns enough to reach it. -/
theorem getClassSlowLoop_spec {size : ℕ} (fuel c : ℕ) (hfuel : size ≤ classMaxSize (c + fuel)) :
    c ≤ getClassSlowLoop size fuel c (classMaxSize c) ∧
      size ≤ classMaxSize (getClassSlowLoop size fuel c (classMaxSize c)) ∧
      ∀ d, c ≤ d → d < getClassSlowLoop size fuel c (classMaxSize c) → classMaxSize d < size := by
  induction fuel generalizing c with
  | zero =>
    exact ⟨le_rfl, hfuel, fun d h1 h2 => absurd h2 (Nat.not_lt.2 h1)⟩
  | succ fuel ih =>
    simp only [getClassSlowLoop]
    split_ifs with hgt
    · rw [Nat.mul_comm, ← classMaxSize_succ]
      obtain ⟨h1, h2, h3⟩ := ih (c + 1) (by rwa [Nat.add_right_comm, Nat.add_assoc])
      refine ⟨by omega, h2, fun d hd1 hd2 => ?_⟩
      rcases Nat.eq_or_lt_of_le hd1 with rfl | hd
      · exact hgt
      · exact h3 d hd hd2
    · exact ⟨le_rfl, Nat.not_lt.1 hgt, fun d h1 h2 => absurd h2 (Nat.not_lt.2 h1)⟩

/-- `get_class_slow` gives the least class whose Buffers hold `size` bytes. -/
theorem getClassSlow_spec (size : ℕ) :
    size ≤ classMaxSize (getClassSlow size) ∧ ∀ c < getClassSlow size, classMaxSize c < size := by
  have hfuel : size ≤ classMaxSize (0 + size) := by
    have := Nat.lt_two_pow_self (n := size)
    rw [Nat.zero_add]
    unfold classMaxSize kMinClassSize
    omega
  obtain ⟨-, h2, h3⟩ := getClassSlowLoop_spec size 0 hfuel
  exact ⟨h2, fun c hc => h3 c (Nat.zero_le c) hc⟩

theorem getClass_eq_getClassSlow {size : ℕ} (h1 : 1 ≤ size) : getClass size = getClassSlow size :=
  least_class_unique (getClass_spec h1) (getClassSlow_spec size)

/-- The fast size-class lookup is the reference loop on every size the allocator accepts, the
sizes up to 64 bytes included, where the bit scan's operand is zero. -/
theorem get_class_eq_get_class_slow {size : ℕ} (h1 : 1 ≤ size) (h2 : size ≤ kMaxClassSize) :
    getClass size = getClassSlow size ∧ getClass size < kNumClasses :=
  ⟨getClass_eq_getClassSlow h1, getClass_lt h1 h2⟩

theorem get_class_eq_get_class_slow_one :
    1 ≤ 1 ∧ 1 ≤ kMaxClassSize ∧ getClass 1 = getClassSlow 1 ∧ getClass 1 < kNumClasses :=
  ⟨le_rfl, by decide, get_class_eq_get_class_slow le_rfl (by decide)⟩


end Reference

section Steps

variable {h : HugeAlloc} {c : ℕ} {b : Buffer} {rest : List Buffer}

theorem split_of_cons (hb : h.freelist c = b :: rest) :
    h.split c =
      let fl := Function.update h.freelist c rest
      { h with
        freelist := (Function.update fl (c - 1)
          (⟨b.buf + b.classSize / 2, b.classSize / 2⟩ :: ⟨b.buf, b.classSize / 2⟩ :: fl (c - 1))) } := by
  simp only [split, hb]

@[simp] theorem split_shmList : (h.split c).shmList = h.shmList := by
  unfold split
  split <;> rfl

@[simp] theorem split_prevAllocationSize : (h.split c).prevAllocationSize = h.prevAllocationSize := by
  unfold split
  split <;> rfl

@[simp] theorem split_userAllocTot : (h.split c).userAllocTot = h.userAllocTot := by
  unfold split
  split <;> rfl

theorem split_nonempty (hne : h.freelist c ≠ []) : (h.split c).freelist (c - 1) ≠ [] := by
  obtain ⟨b, rest, hb⟩ := List.exists_cons_of_ne_nil hne
  simp [split_of_cons hb]

@[simp] theorem splitDown_shmList (k : ℕ) : (h.splitDown c k).shmList = h.shmList := by
  induction k generalizing h with
  | zero => rfl
  | succ k ih => simp [splitDown, ih]

@[simp] theorem splitDown_prevAllocationSize (k : ℕ) :
    (h.splitDown c k).prevAllocationSize = h.prevAllocationSize := by
  induction k generalizing h with
  | zero => rfl
  | succ k ih => simp [splitDown, ih]

@[simp] theorem splitDown_userAllocTot (k : ℕ) : (h.splitDown c k).userAllocTot = h.userAllocTot := by
  induction k generalizing h with
  | zero => rfl
  | succ k ih => simp [splitDown, ih]

theorem splitDown_nonempty {k : ℕ} (hne : h.freelist (c + k) ≠ []) :
    (h.splitDown c k).freelist c ≠ [] := by
  induction k generalizing h with
  | zero => exact hne
  | succ k ih =>
    have := split_nonempty (c := c + k + 1) (by simpa [Nat.add_assoc] using hne)
    exact ih (by simpa using this)

theorem allocFromClass_of_cons (hb : h.freelist c = b :: rest) :
    h.allocFromClass c = ({ h with
      freelist := Function.update h.freelist c rest
      userAllocTot := h.userAllocTot + b.classSize }, some b) := by
  simp only [allocFromClass, hb]

theorem allocFromClass_isSome (hne : h.freelist c ≠ []) : (h.allocFromClass c).2.isSome := by
  obtain ⟨b, rest, hb⟩ := List.exists_cons_of_ne_nil hne
  simp [allocFromClass_of_cons hb]

theorem foldl_push (g : ℕ → Buffer) (l : List ℕ) (base : List Buffer) :
    l.foldl (fun acc i => g i :: acc) base = (l.map g).reverse ++ base := by
  induction l generalizing base with
  | nil => rfl
  | cons i l ih => simp [ih]

theorem reserveHugepages_none (size : ℕ) : h.reserveHugepages size none = (h, false) := rfl

theorem reserveHugepages_some (size a : ℕ) :
    h.reserveHugepages size (some a) =
      ({ h with
        shmList := h.shmList ++ [⟨a, roundUp size⟩]
        shmReserved := h.shmReserved + roundUp size
        freelist := Function.update h.freelist (kNumClasses - 1)
          (((List.range (size / kMaxClassSize)).map (maxClassBuffer a)).reverse ++
            h.freelist (kNumClasses - 1)) }, true) := by
  simp only [reserveHugepages, allocRaw, foldl_push]

theorem allocFromClass_userAllocTot (c : ℕ) :
    (h.allocFromClass c).1.userAllocTot =
      h.userAllocTot + ((h.allocFromClass c).2.map Buffer.classSize).getD 0 := by
  unfold allocFromClass
  split <;> simp

theorem reserveHugepages_userAllocTot (size : ℕ) (raw : Option ℕ) :
    (h.reserveHugepages size raw).1.userAllocTot = h.userAllocTot := by
  cases raw with
  | none => rfl
  | some a => simp [reserveHugepages_some]

/-- `alloc` adds the class size of the Buffer it returns to `user_alloc_tot_`, and nothing when it
returns the null Buffer. -/
theorem alloc_userAllocTot (size : ℕ) (raw : Option ℕ) :
    (h.alloc size raw).1.userAllocTot =
      h.userAllocTot + ((h.alloc size raw).2.map Buffer.classSize).getD 0 := by
  unfold alloc
  dsimp only
  split_ifs
  · exact allocFromClass_userAllocTot _
  · split
    · rename_i h' heq
      have := congrArg (fun r => r.1.userAllocTot) heq
      simp only [reserveHugepages_userAllocTot] at this
      simp [← this]
    · rename_i h' heq
      have := congrArg (fun r => r.1.userAllocTot) heq
      simp only [reserveHugepages_userAllocTot] at this
      rw [allocFromClass_userAllocTot, splitDown_userAllocTot, ← this]
  · rw [allocFromClass_userAllocTot, splitDown_userAllocTot]

/-- The search stops at the first non-empty class, and only classes it passed are empty. -/
theorem findNextClass_spec (fl : ℕ → List Buffer) (fuel c : ℕ) :
    c ≤ findNextClass fl fuel c ∧ findNextClass fl fuel c ≤ c + fuel ∧
      (∀ j, c ≤ j → j < findNextClass fl fuel c → fl j = []) ∧
      (findNextClass fl fuel c < c + fuel → fl (findNextClass fl fuel c) ≠ []) := by
  induction fuel generalizing c with
  | zero =>
    refine ⟨le_rfl, le_rfl, fun j h1 h2 => absurd h2 (by simp [findNextClass]; omega),
      fun h => absurd h (by simp [findNextClass])⟩
  | succ fuel ih =>
    simp only [findNextClass]
    split_ifs with he
    · obtain ⟨h1, h2, h3, h4⟩ := ih (c + 1)
      refine ⟨by omega, by omega, fun j hj1 hj2 => ?_, fun hlt => h4 (by omega)⟩
      rcases Nat.eq_or_lt_of_le hj1 with rfl | hj
      · exact List.isEmpty_iff.1 he
      · exact h3 j hj hj2
    · refine ⟨le_rfl, by omega, fun j hj1 hj2 => absurd hj2 (by omega), fun _ => ?_⟩
      simpa using he

/-- What `alloc` does: take from the request's class; or split down from the first larger
non-empty class; or, with every class from the request's on empty, reserve hugepages and split
down from the largest class, returning the null Buffer with nothing changed when the reservation
fails. -/
theorem alloc_cases {size : ℕ} (raw : Option ℕ) (hc : getClass size < kNumClasses) :
    (h.freelist (getClass size) ≠ [] ∧ h.alloc size raw = h.allocFromClass (getClass size)) ∨
    (∃ n, getClass size < n ∧ n < kNumClasses ∧ h.freelist n ≠ [] ∧
      h.alloc size raw =
        (h.splitDown (getClass size) (n - getClass size)).allocFromClass (getClass size)) ∨
    ((∀ j, getClass size ≤ j → j < kNumClasses → h.freelist j = []) ∧
      ((raw = none ∧ h.alloc size raw = (h, none)) ∨
        ∃ a, raw = some a ∧ h.alloc size raw =
          (({ h with prevAllocationSize := h.prevAllocationSize * 2 }.reserveHugepages
            (h.prevAllocationSize * 2) (some a)).1.splitDown (getClass size)
              (kNumClasses - 1 - getClass size)).allocFromClass (getClass size))) := by
  unfold alloc
  dsimp only
  by_cases hne : h.freelist (getClass size) = []
  · rw [if_neg (by simp [hne])]
    obtain ⟨h1, h2, h3, h4⟩ :=
      findNextClass_spec h.freelist (kNumClasses - (getClass size + 1)) (getClass size + 1)
    have hend : getClass size + 1 + (kNumClasses - (getClass size + 1)) = kNumClasses := by omega
    rw [hend] at h2 h4
    by_cases hfull : findNextClass h.freelist (kNumClasses - (getClass size + 1))
        (getClass size + 1) = kNumClasses
    · rw [if_pos hfull]
      refine .inr (.inr ⟨fun j hj1 hj2 => ?_, ?_⟩)
      · rcases Nat.eq_or_lt_of_le hj1 with rfl | hj
        · exact hne
        · exact h3 j hj (by omega)
      · cases raw with
        | none => exact .inl ⟨rfl, by simp [reserveHugepages_none]⟩
        | some a => exact .inr ⟨a, rfl, by simp only [reserveHugepages_some]⟩
    · rw [if_neg hfull]
      exact .inr (.inl ⟨_, by omega, by omega, h4 (by omega), rfl⟩)
  · rw [if_pos (by simp [hne])]
    exact .inl ⟨hne, rfl⟩

end Steps

end HugeAlloc

end ERpc
