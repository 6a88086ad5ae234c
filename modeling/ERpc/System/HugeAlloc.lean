import ERpc.Model.HugeAlloc
import ERpc.Lib.Extent
import ERpc.Lib.Reach
import Mathlib

/-!
# The hugepage allocator over any sequence of allocations and frees

The user of a `HugeAlloc` allocates Buffers of 1 byte to 8 MB and frees Buffers it holds. The
kernel gives each hugepage reservation a region apart from those reserved before, or none.
In every reachable state the Buffers on the freelists have their class's size, the Buffers the
user holds and those on the freelists are pairwise disjoint and lie in reserved regions, and
`user_alloc_tot_` is the size of what the user holds (`HaInv`). An allocation returns a Buffer of
the least class that holds the request, or the null Buffer with the allocator as it was.

The Buffers on the freelists make one multiset (`freeBuffers`); each operation moves Buffers
between it and the user's, cuts one into halves, or adds the Buffers of a new region.
-/

namespace ERpc

open Extent HugeAlloc

/-- The Buffers on the freelists of the classes. -/
def freeBuffers (fl : ℕ → List Buffer) : Multiset Buffer :=
  ∑ c ∈ Finset.range kNumClasses, (fl c : Multiset Buffer)

/-- A region `shmget` may give a reservation of `size` bytes: non-null, and apart from the regions
reserved before. -/
def HugeAlloc.fresh (h : HugeAlloc) (size : ℕ) : Option ℕ → Bool
  | none => true
  | some a => 0 < a && h.shmList.all fun r => a + roundUp size ≤ r.buf || r.buf + r.size ≤ a

/-- The allocator and the Buffers its user holds. -/
structure HaSys where
  ha : HugeAlloc
  live : List Buffer

/-- An allocation, with what a hugepage reservation would get from `shmget`, or a free. -/
inductive HaAct
  | alloc (size : ℕ) (raw : Option ℕ)
  | free (b : Buffer)

namespace HaSys

/-- The allocator created with `initial_size`; the user holds nothing. -/
def init (initialSize : ℕ) : HaSys := ⟨HugeAlloc.init initialSize, []⟩

/-- One call of the user: `alloc (size)` with `1 ≤ size ≤ k_max_class_size`, or `free_buf` of a
Buffer it holds. -/
def step (w : HaSys) : HaAct → Option HaSys
  | .alloc size raw =>
    if 1 ≤ size ∧ size ≤ kMaxClassSize ∧ w.ha.fresh (w.ha.prevAllocationSize * 2) raw then
      let r := w.ha.alloc size raw
      some ⟨r.1, r.2.toList ++ w.live⟩
    else none
  | .free b => if b ∈ w.live then some ⟨w.ha.freeBuf b, w.live.erase b⟩ else none

/-- Every Buffer of the allocator: those the user holds and those on the freelists. -/
def pool (w : HaSys) : Multiset Buffer := (w.live : Multiset Buffer) + freeBuffers w.ha.freelist

end HaSys

section FreeBuffers

/-- A sum over `s` of `g` at the values of `f`, with `f` changed at `i ∈ s`: the other terms are
the same on both sides. -/
theorem sum_comp_update_add {ι α M : Type*} [DecidableEq ι] [AddCommMonoid M] (g : α → M)
    {s : Finset ι} {i : ι} (hi : i ∈ s) (f : ι → α) (b : α) :
    (∑ j ∈ s, g (Function.update f i b j)) + g (f i) = (∑ j ∈ s, g (f j)) + g b := by
  have h1 := Finset.add_sum_erase s (fun j => g (Function.update f i b j)) hi
  have h2 := Finset.add_sum_erase s (fun j => g (f j)) hi
  have h3 : ∑ j ∈ s.erase i, g (Function.update f i b j) = ∑ j ∈ s.erase i, g (f j) :=
    Finset.sum_congr rfl fun j hj => by rw [Function.update_of_ne (Finset.ne_of_mem_erase hj)]
  simp only [Function.update_self] at h1
  rw [← h1, ← h2, h3]
  ac_rfl

variable {fl : ℕ → List Buffer} {c : ℕ}

theorem mem_freeBuffers {b : Buffer} : b ∈ freeBuffers fl ↔ ∃ c < kNumClasses, b ∈ fl c := by
  simp [freeBuffers, Multiset.mem_sum]

theorem freeBuffers_update (fl : ℕ → List Buffer) (hc : c < kNumClasses) (l : List Buffer) :
    freeBuffers (Function.update fl c l) + fl c = freeBuffers fl + l :=
  sum_comp_update_add (fun l : List Buffer => (l : Multiset Buffer)) (Finset.mem_range.2 hc) fl l

theorem freeBuffers_pop (hc : c < kNumClasses) {b : Buffer} {rest : List Buffer}
    (hb : fl c = b :: rest) : freeBuffers fl = b ::ₘ freeBuffers (Function.update fl c rest) := by
  have h := freeBuffers_update fl hc rest
  rw [hb, ← Multiset.cons_coe, Multiset.add_cons, ← Multiset.cons_add] at h
  exact (add_right_cancel h).symm

theorem freeBuffers_push (fl : ℕ → List Buffer) (hc : c < kNumClasses) (l : List Buffer) :
    freeBuffers (Function.update fl c (l ++ fl c)) = l + freeBuffers fl := by
  have h := freeBuffers_update fl hc (l ++ fl c)
  rw [← Multiset.coe_add, ← add_assoc] at h
  rw [add_right_cancel h, add_comm]

end FreeBuffers

/-- Every Buffer on the freelist of class `c` has the size of class `c`, and only the classes
below `kNumClasses` have Buffers. -/
def FreeClassed (fl : ℕ → List Buffer) : Prop :=
  ∀ c, ∀ b ∈ fl c, c < kNumClasses ∧ b.classSize = classMaxSize c

section Classed

variable {fl : ℕ → List Buffer} {h : HugeAlloc} {c : ℕ} {b : Buffer}

theorem FreeClassed.update (hf : FreeClassed fl) (hc : c < kNumClasses) {l : List Buffer}
    (hl : ∀ b ∈ l, b.classSize = classMaxSize c) : FreeClassed (Function.update fl c l) := by
  intro j x hx
  by_cases hj : j = c
  · subst hj
    rw [Function.update_self] at hx
    exact ⟨hc, hl x hx⟩
  · rw [Function.update_of_ne hj] at hx
    exact hf j x hx

theorem classMaxSize_half (hc : 1 ≤ c) : classMaxSize c / 2 = classMaxSize (c - 1) := by
  obtain ⟨k, rfl⟩ := Nat.exists_eq_add_of_le hc
  rw [Nat.add_comm, Nat.add_sub_cancel, classMaxSize_succ]
  omega

theorem FreeClassed.split (hf : FreeClassed h.freelist) (hc : 1 ≤ c) :
    FreeClassed (h.split c).freelist := by
  rcases hb : h.freelist c with _ | ⟨b, rest⟩
  · simpa [HugeAlloc.split, hb] using hf
  · obtain ⟨hlt, hbs⟩ := hf c b (by simp [hb])
    have hrest : FreeClassed (Function.update h.freelist c rest) :=
      hf.update hlt fun x hx => (hf c x (by simp [hb, hx])).2
    rw [split_of_cons hb]
    refine hrest.update (by omega) fun x hx => ?_
    rcases List.mem_cons.1 hx with rfl | hx
    · simp [hbs, classMaxSize_half hc]
    rcases List.mem_cons.1 hx with rfl | hx
    · simp [hbs, classMaxSize_half hc]
    · exact (hrest (c - 1) x hx).2

theorem FreeClassed.splitDown (hf : FreeClassed h.freelist) (k : ℕ) :
    FreeClassed (h.splitDown c k).freelist := by
  induction k generalizing h with
  | zero => exact hf
  | succ k ih => exact ih (hf.split (by omega))

theorem FreeClassed.reserveHugepages (hf : FreeClassed h.freelist) (size a : ℕ) :
    FreeClassed (h.reserveHugepages size (some a)).1.freelist := by
  rw [reserveHugepages_some]
  refine hf.update (by decide) fun x hx => ?_
  rcases List.mem_append.1 hx with hx | hx
  · obtain ⟨i, -, rfl⟩ := List.mem_map.1 (List.mem_reverse.1 hx)
    exact kMaxClassSize_eq
  · exact (hf _ x hx).2

theorem allocFromClass_classSize (hf : FreeClassed h.freelist)
    (hb : (h.allocFromClass c).2 = some b) : b.classSize = classMaxSize c := by
  rcases hc : h.freelist c with _ | ⟨b', rest⟩
  · simp [allocFromClass, hc] at hb
  · rw [allocFromClass_of_cons hc, Option.some.injEq] at hb
    subst hb
    exact (hf c b' (by simp [hc])).2

/-- A Buffer `alloc` returns has the size of the request's class. -/
theorem alloc_classSize (hf : FreeClassed h.freelist) {size : ℕ} {raw : Option ℕ}
    (hc : getClass size < kNumClasses) (hb : (h.alloc size raw).2 = some b) :
    b.classSize = classMaxSize (getClass size) := by
  rcases alloc_cases raw hc with ⟨-, he⟩ | ⟨n, -, -, -, he⟩ | ⟨-, ⟨-, he⟩ | ⟨a, -, he⟩⟩ <;>
    rw [he] at hb
  · exact allocFromClass_classSize hf hb
  · exact allocFromClass_classSize (hf.splitDown _) hb
  · exact absurd hb (by simp)
  · exact allocFromClass_classSize ((FreeClassed.reserveHugepages (h := { h with
      prevAllocationSize := h.prevAllocationSize * 2 }) hf _ a).splitDown _) hb

end Classed

section Null

variable {h : HugeAlloc} {size : ℕ} {raw : Option ℕ}

theorem reserveHugepages_nonempty (a : ℕ) (hs : kMaxClassSize ≤ size) :
    (h.reserveHugepages size (some a)).1.freelist (kNumClasses - 1) ≠ [] := by
  have hn : 0 < size / kMaxClassSize := Nat.div_pos hs (by decide)
  rw [reserveHugepages_some]
  simp only [Function.update_self, ne_eq, List.append_eq_nil_iff, List.reverse_eq_nil_iff,
    List.map_eq_nil_iff, List.range_eq_nil, not_and]
  intro h0
  omega

/-- An `alloc` that returns the null Buffer leaves the allocator as it was. -/
theorem alloc_eq_self_of_none (hprev : kMaxClassSize ≤ h.prevAllocationSize)
    (hc : getClass size < kNumClasses) (hn : (h.alloc size raw).2 = none) :
    (h.alloc size raw).1 = h := by
  rcases alloc_cases raw hc with ⟨hne, he⟩ | ⟨n, hcn, -, hne, he⟩ | ⟨-, ⟨-, he⟩ | ⟨a, -, he⟩⟩
  · rw [he] at hn
    exact absurd hn (Option.isSome_iff_ne_none.1 (allocFromClass_isSome hne))
  · rw [he] at hn
    refine absurd hn (Option.isSome_iff_ne_none.1 (allocFromClass_isSome (splitDown_nonempty ?_)))
    rwa [Nat.add_sub_cancel' hcn.le]
  · rw [he]
  · rw [he] at hn
    refine absurd hn (Option.isSome_iff_ne_none.1 (allocFromClass_isSome (splitDown_nonempty ?_)))
    rw [Nat.add_sub_cancel' (by omega)]
    exact reserveHugepages_nonempty a (by omega)

end Null

/-- The representation invariant of the allocator, with the Buffers `live` its user holds. -/
structure HaInv (h : HugeAlloc) (live : List Buffer) : Prop where
  classed : FreeClassed h.freelist
  live_class : ∀ b ∈ live, ∃ c < kNumClasses, b.classSize = classMaxSize c
  separated : Separated Buffer.buf Buffer.classSize ((live : Multiset Buffer) + freeBuffers h.freelist)
  reserved : ∀ b ∈ (live : Multiset Buffer) + freeBuffers h.freelist,
    ∃ r ∈ h.shmList, Within Buffer.buf Buffer.classSize b r.buf r.size
  user_alloc_tot : h.userAllocTot = (live.map Buffer.classSize).sum
  prev : kMaxClassSize ≤ h.prevAllocationSize

namespace HaInv

variable {h : HugeAlloc} {live : List Buffer} {c : ℕ} {b : Buffer} {rest : List Buffer}

theorem init (initialSize : ℕ) : HaInv (HugeAlloc.init initialSize) [] where
  classed _ _ hb := absurd hb (by simp [HugeAlloc.init])
  live_class _ hb := absurd hb (by simp)
  separated := by simpa [HugeAlloc.init, freeBuffers] using Separated.zero
  reserved _ hb := absurd hb (by simp [HugeAlloc.init, freeBuffers])
  user_alloc_tot := rfl
  prev := by
    simp only [HugeAlloc.init]
    split_ifs <;> omega

theorem split (hi : HaInv h live) (hc : 1 ≤ c) : HaInv (h.split c) live := by
  rcases hb : h.freelist c with _ | ⟨b, rest⟩
  · have : h.split c = h := by simp [HugeAlloc.split, hb]
    rwa [this]
  obtain ⟨hlt, hbs⟩ := hi.classed c b (by simp [hb])
  set b0 : Buffer := ⟨b.buf, b.classSize / 2⟩ with hb0
  set b1 : Buffer := ⟨b.buf + b.classSize / 2, b.classSize / 2⟩ with hb1
  have hpool : (live : Multiset Buffer) + freeBuffers h.freelist =
      b ::ₘ (live + freeBuffers (Function.update h.freelist c rest)) := by
    rw [freeBuffers_pop hlt hb, Multiset.add_cons]
  have hpool' : (live : Multiset Buffer) + freeBuffers (h.split c).freelist =
      b1 ::ₘ b0 ::ₘ (live + freeBuffers (Function.update h.freelist c rest)) := by
    have hpush := freeBuffers_push (Function.update h.freelist c rest) (c := c - 1)
      (by omega) [b1, b0]
    rw [split_of_cons hb]
    dsimp only
    rw [← hb0, ← hb1]
    rw [List.cons_append, List.cons_append, List.nil_append] at hpush
    rw [hpush, ← Multiset.cons_coe, ← Multiset.cons_coe, Multiset.coe_nil, Multiset.cons_add,
      Multiset.cons_add, zero_add, Multiset.add_cons, Multiset.add_cons]
  have hpos : 0 < b.classSize / 2 := by
    rw [hbs, classMaxSize_half hc]
    exact classMaxSize_pos _
  have hw0 : Within Buffer.buf Buffer.classSize b0 b.buf b.classSize := by
    simp only [Within, hb0]
    omega
  have hw1 : Within Buffer.buf Buffer.classSize b1 b.buf b.classSize := by
    simp only [Within, hb1]
    omega
  have hap : Apart Buffer.buf Buffer.classSize b1 b0 := by
    simp only [Apart, hb0, hb1]
    omega
  refine ⟨hi.classed.split hc, hi.live_class, ?_, fun x hx => ?_, by simpa using hi.user_alloc_tot,
    by simpa using hi.prev⟩
  · rw [hpool']
    exact (hpool ▸ hi.separated).split hw1 hw0 hap hpos hpos
  · rw [hpool'] at hx
    obtain ⟨r, hr, hw⟩ := hi.reserved b (hpool ▸ Multiset.mem_cons_self b _)
    rw [split_shmList]
    rcases Multiset.mem_cons.1 hx with rfl | hx
    · exact ⟨r, hr, hw1.trans hw⟩
    rcases Multiset.mem_cons.1 hx with rfl | hx
    · exact ⟨r, hr, hw0.trans hw⟩
    · exact hi.reserved x (hpool ▸ Multiset.mem_cons_of_mem hx)

theorem splitDown (hi : HaInv h live) {k : ℕ} : HaInv (h.splitDown c k) live := by
  induction k generalizing h with
  | zero => exact hi
  | succ k ih => exact ih (hi.split (by omega))

theorem allocFromClass (hi : HaInv h live) (hb : h.freelist c = b :: rest) :
    HaInv (h.allocFromClass c).1 (b :: live) := by
  obtain ⟨hlt, hbs⟩ := hi.classed c b (by simp [hb])
  have hpool : ((b :: live : List Buffer) : Multiset Buffer) +
      freeBuffers (Function.update h.freelist c rest) =
        (live : Multiset Buffer) + freeBuffers h.freelist := by
    rw [freeBuffers_pop hlt hb, Multiset.add_cons, ← Multiset.cons_coe, Multiset.cons_add]
  rw [allocFromClass_of_cons hb]
  refine ⟨hi.classed.update hlt fun x hx => (hi.classed c x (by simp [hb, hx])).2, fun x hx => ?_,
    ?_, fun x hx => ?_, ?_, hi.prev⟩
  · rcases List.mem_cons.1 hx with rfl | hx
    · exact ⟨c, hlt, hbs⟩
    · exact hi.live_class x hx
  · dsimp only
    rw [hpool]
    exact hi.separated
  · dsimp only at hx ⊢
    rw [hpool] at hx
    exact hi.reserved x hx
  · simp [hi.user_alloc_tot, Nat.add_comm]

theorem double (hi : HaInv h live) :
    HaInv { h with prevAllocationSize := h.prevAllocationSize * 2 } live := by
  refine { hi with prev := ?_ }
  have := hi.prev
  dsimp only
  omega

theorem reserveHugepages (hi : HaInv h live) {size a : ℕ}
    (hfresh : ∀ r ∈ h.shmList, a + roundUp size ≤ r.buf ∨ r.buf + r.size ≤ a) :
    HaInv (h.reserveHugepages size (some a)).1 live := by
  set N : List Buffer := (List.range (size / kMaxClassSize)).map (maxClassBuffer a) with hN
  have hlo (i : ℕ) : (maxClassBuffer a i).buf = a + i * kMaxClassSize := rfl
  have hlen (i : ℕ) : (maxClassBuffer a i).classSize = kMaxClassSize := rfl
  have hin : ∀ x ∈ N, Within Buffer.buf Buffer.classSize x a (roundUp size) := by
    intro x hx
    obtain ⟨i, hi', rfl⟩ := List.mem_map.1 hx
    have h1 : size / kMaxClassSize * kMaxClassSize ≤ size := Nat.div_mul_le_self size kMaxClassSize
    have h2 : size ≤ roundUp size := by
      unfold roundUp kHugepageSize
      omega
    exact (within_stride _ (List.mem_range.1 hi') hlo hlen).widen (by omega)
  have hpool : (live : Multiset Buffer) + freeBuffers (h.reserveHugepages size (some a)).1.freelist =
      (N : Multiset Buffer) + (live + freeBuffers h.freelist) := by
    rw [reserveHugepages_some]
    dsimp only
    rw [freeBuffers_push _ (by decide), Multiset.coe_reverse, add_left_comm]
  refine ⟨hi.classed.reserveHugepages size a, hi.live_class, ?_, fun x hx => ?_,
    by simpa [reserveHugepages_some] using hi.user_alloc_tot,
    by simpa [reserveHugepages_some] using hi.prev⟩
  · rw [hpool]
    refine (separated_stride _ _ (by decide) hlo hlen).add hi.separated (fun x hx y hy => ?_)
      fun x hx => ?_
    · obtain ⟨r, hr, hw⟩ := hi.reserved y hy
      exact Apart.of_within (hin x hx) hw (hfresh r hr)
    · obtain ⟨i, -, rfl⟩ := List.mem_map.1 hx
      exact (by decide : 0 < kMaxClassSize)
  · rw [hpool] at hx
    rw [reserveHugepages_some]
    rcases Multiset.mem_add.1 hx with hx | hx
    · exact ⟨⟨a, roundUp size⟩, by simp, hin x hx⟩
    · obtain ⟨r, hr, hw⟩ := hi.reserved x hx
      exact ⟨r, List.mem_append_left _ hr, hw⟩

/-- `alloc_from_class` on a non-empty class, whatever it returns, keeps the invariant with the
user holding what it returned. -/
theorem allocFromClass_of_nonempty (hi : HaInv h live) (hne : h.freelist c ≠ []) :
    HaInv (h.allocFromClass c).1 ((h.allocFromClass c).2.toList ++ live) := by
  obtain ⟨b, rest, hb⟩ := List.exists_cons_of_ne_nil hne
  have := hi.allocFromClass hb
  rw [allocFromClass_of_cons hb] at this ⊢
  exact this

theorem alloc (hi : HaInv h live) {size : ℕ} {raw : Option ℕ} (hs1 : 1 ≤ size)
    (hs2 : size ≤ kMaxClassSize) (hfresh : h.fresh (h.prevAllocationSize * 2) raw = true) :
    HaInv (h.alloc size raw).1 ((h.alloc size raw).2.toList ++ live) := by
  have hc := getClass_lt hs1 hs2
  rcases alloc_cases raw hc with ⟨hne, he⟩ | ⟨n, hcn, -, hne, he⟩ | ⟨-, ⟨-, he⟩ | ⟨a, rfl, he⟩⟩ <;>
    rw [he]
  · exact hi.allocFromClass_of_nonempty hne
  · exact hi.splitDown.allocFromClass_of_nonempty
      (splitDown_nonempty (by rwa [Nat.add_sub_cancel' hcn.le]))
  · exact hi
  · have hfr : ∀ r ∈ h.shmList, a + roundUp (h.prevAllocationSize * 2) ≤ r.buf ∨
        r.buf + r.size ≤ a := by
      simp only [HugeAlloc.fresh, Bool.and_eq_true, decide_eq_true_eq, List.all_eq_true,
        Bool.or_eq_true] at hfresh
      exact hfresh.2
    have hr := hi.double.reserveHugepages (a := a) hfr
    refine hr.splitDown.allocFromClass_of_nonempty (splitDown_nonempty ?_)
    rw [Nat.add_sub_cancel' (by omega)]
    exact reserveHugepages_nonempty a (by have := hi.prev; omega)

theorem freeBuf (hi : HaInv h live) (hb : b ∈ live) : HaInv (h.freeBuf b) (live.erase b) := by
  obtain ⟨c, hc, hbs⟩ := hi.live_class b hb
  have hcls : getClass b.classSize = c := by rw [hbs, getClass_classMaxSize]
  have hpool : ((live.erase b : List Buffer) : Multiset Buffer) + freeBuffers (h.freeBuf b).freelist =
      (live : Multiset Buffer) + freeBuffers h.freelist := by
    have hpush := freeBuffers_push h.freelist hc [b]
    rw [List.singleton_append] at hpush
    simp only [HugeAlloc.freeBuf, hcls]
    rw [hpush, ← Multiset.coe_erase, ← Multiset.cons_coe, Multiset.coe_nil, Multiset.cons_add,
      zero_add, Multiset.add_cons, ← Multiset.cons_add, Multiset.cons_erase (Multiset.mem_coe.2 hb)]
  refine ⟨?_, fun x hx => hi.live_class x (List.mem_of_mem_erase hx), ?_, fun x hx => ?_, ?_,
    hi.prev⟩
  · simp only [HugeAlloc.freeBuf, hcls]
    refine hi.classed.update hc fun x hx => ?_
    rcases List.mem_cons.1 hx with rfl | hx
    · exact hbs
    · exact (hi.classed c x hx).2
  · rw [hpool]
    exact hi.separated
  · rw [hpool] at hx
    exact hi.reserved x hx
  · have hsum := List.sum_map_erase Buffer.classSize hb
    have htot := hi.user_alloc_tot
    simp only [HugeAlloc.freeBuf]
    omega

end HaInv

namespace HaSys

open Transition

theorem haInv_step {w w' : HaSys} {a : HaAct} (hi : HaInv w.ha w.live) (hs : w.step a = some w') :
    HaInv w'.ha w'.live := by
  cases a with
  | alloc size raw =>
    simp only [step] at hs
    split_ifs at hs with hg
    obtain ⟨hs1, hs2, hfresh⟩ := hg
    cases hs
    exact hi.alloc hs1 hs2 hfresh
  | free b =>
    simp only [step] at hs
    split_ifs at hs with hb
    cases hs
    exact hi.freeBuf hb

theorem haInv_of_reachable {initialSize : ℕ} {w : HaSys} (hr : Reachable step (init initialSize) w) :
    HaInv w.ha w.live :=
  Reachable.induct (fun w => HaInv w.ha w.live) (HaInv.init initialSize)
    (fun _ _ _ _ hi hs => haInv_step hi hs) hr

/-- The allocator's contract over any sequence of allocations and frees. The Buffers on each
freelist have their class's size; the Buffers the user holds and those on the freelists are
pairwise disjoint, each in a reserved region; `user_alloc_tot_` is the size of what the user
holds. Then an allocation of 1 byte to 8 MB returns a Buffer of the least class that holds the
request, or the null Buffer with the freelists, `user_alloc_tot_` and `prev_allocation_size_` as
they were. -/
theorem huge_alloc_contract (initialSize : ℕ) {w : HaSys}
    (hr : Reachable step (init initialSize) w) :
    (∀ c, ∀ b ∈ w.ha.freelist c, b.classSize = classMaxSize c) ∧
    Separated Buffer.buf Buffer.classSize w.pool ∧
    (∀ b ∈ w.pool, ∃ r ∈ w.ha.shmList, Within Buffer.buf Buffer.classSize b r.buf r.size) ∧
    w.ha.userAllocTot = (w.live.map Buffer.classSize).sum ∧
    ∀ size raw, 1 ≤ size → size ≤ kMaxClassSize →
      (∀ b, (w.ha.alloc size raw).2 = some b →
        b.classSize = classMaxSize (getClass size) ∧ size ≤ classMaxSize (getClass size) ∧
          ∀ c < getClass size, classMaxSize c < size) ∧
      ((w.ha.alloc size raw).2 = none →
        (w.ha.alloc size raw).1.freelist = w.ha.freelist ∧
        (w.ha.alloc size raw).1.userAllocTot = w.ha.userAllocTot ∧
        (w.ha.alloc size raw).1.prevAllocationSize = w.ha.prevAllocationSize) := by
  have hi := haInv_of_reachable hr
  refine ⟨fun c b hb => (hi.classed c b hb).2, hi.separated, hi.reserved, hi.user_alloc_tot,
    fun size raw hs1 hs2 => ⟨fun b hb => ?_, fun hn => ?_⟩⟩
  · exact ⟨alloc_classSize hi.classed (getClass_lt hs1 hs2) hb, getClass_spec hs1⟩
  · have he := alloc_eq_self_of_none hi.prev (getClass_lt hs1 hs2) hn
    rw [he]
    exact ⟨rfl, rfl, rfl⟩

/-- A 100-byte request reserves the first region, at 16 MB, and splits it down; a 3000-byte one
is then served from the halves the split left. -/
def twoAllocsRun : List HaAct := [.alloc 100 (some 16777216), .alloc 3000 none]

theorem twoAllocsRun_reachable : ∃ w, Reachable step (init 0) w ∧
    (w.live.length = 2 ∧ w.ha.userAllocTot = 4224) :=
  Reachable.exists_of_run twoAllocsRun (by decide)

theorem huge_alloc_contract_two_allocs : ∃ w, Reachable step (init 0) w ∧ w.live.length = 2 ∧
    Separated Buffer.buf Buffer.classSize w.pool ∧ (w.live.map Buffer.classSize).sum = 4224 := by
  obtain ⟨w, hr, hlen, htot⟩ := twoAllocsRun_reachable
  have hc := huge_alloc_contract 0 hr
  exact ⟨w, hr, hlen, hc.2.1, hc.2.2.2.1.symm.trans htot⟩

end HaSys

end ERpc
