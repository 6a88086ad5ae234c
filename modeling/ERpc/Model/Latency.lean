import Mathlib
import ERpc.Lib.Histogram

/-!
# The latency histogram

`Latency` (`util/latency.h`) counts latency samples, in microseconds, in five arrays of 128
buckets and a last counter. `bin0_` has buckets of 1 us from 0, `bin1_` of 2 us from 128, `bin2_`
of 4 us from 384, `bin3_` of 8 us from 896 and `bin4_` of 16 us from 1920; `bin5_` counts the
samples from 3968 on. `update` adds a sample and `+=` adds another histogram's counters. The
statistics read the counters: `count` and `sum` add them up, `latency_min` and `perc` scan the
arrays in turn from their first bucket, and `latency_max` from the last bucket back.

The counters are `size_t`, kept here as numbers: they wrap only after `2 ^ 64` samples. `avg`
divides in `double` and is left out, and so is the conversion to `double` that gives `perc` its
threshold: `perc` is modelled from the integer threshold on. `print` writes to a file and is left
out.
-/

namespace ERpc

/-- `Latency`: `bin k` is the array `bin{k}_` for `k < 5`, and `bin5` is `bin5_`. -/
@[ext]
structure Latency where
  bin : Fin 5 → Fin 128 → ℕ
  bin5 : ℕ

namespace Latency

/-- The latency that bucket `i` of array `k` stands for, as the statistics write it out. -/
def binLow : Fin 5 → Fin 128 → ℕ
  | 0, i => 0 + i * 1
  | 1, i => 128 + i * 2
  | 2, i => 384 + i * 4
  | 3, i => 896 + i * 8
  | 4, i => 1920 + i * 16

/-- `reset`, which the constructor calls: every counter 0. -/
def reset : Latency := ⟨fun _ _ => 0, 0⟩

/-- `bin{k}_[i]++` -/
def incr (l : Latency) (k : Fin 5) (i : Fin 128) : Latency :=
  { l with bin := Function.update l.bin k (Function.update (l.bin k) i (l.bin k i + 1)) }

/-- `update`: add a sample of `us` microseconds. -/
def update (l : Latency) (us : ℕ) : Latency :=
  if h : us < 128 then l.incr 0 ⟨us, h⟩
  else if h : us < 384 then l.incr 1 ⟨(us - 128) / 2, by omega⟩
  else if h : us < 896 then l.incr 2 ⟨(us - 384) / 4, by omega⟩
  else if h : us < 1920 then l.incr 3 ⟨(us - 896) / 8, by omega⟩
  else if h : us < 3968 then l.incr 4 ⟨(us - 1920) / 16, by omega⟩
  else { l with bin5 := l.bin5 + 1 }

/-- `operator+=`: add the counters of `o`. -/
def add (l o : Latency) : Latency := ⟨fun k i => l.bin k i + o.bin k i, l.bin5 + o.bin5⟩

/-- `count`: the number of samples. -/
def count (l : Latency) : ℕ := ∑ k, ∑ i, l.bin k i + l.bin5

/-- `sum`: every sample counted at the latency of its bucket, and at 3968 from there on. -/
def sum (l : Latency) : ℕ := ∑ k, ∑ i, l.bin k i * binLow k i + l.bin5 * 3968

/-- The order in which `latency_min` and `perc` visit the buckets: the arrays in turn, each from
its first bucket. -/
def scanOrder : List (Fin 5 × Fin 128) :=
  (List.finRange 5).flatMap fun k => (List.finRange 128).map fun i => (k, i)

/-- `latency_min`: the first bucket that holds a sample, and 3968 when none does. -/
def latencyMin (l : Latency) : ℕ :=
  match scanOrder.find? fun ki => l.bin ki.1 ki.2 ≠ 0 with
  | some ki => binLow ki.1 ki.2
  | none => 3968

/-- `latency_max`: 3968 when `bin5_` holds a sample, else the last bucket that holds one, and 0
when none does. -/
def latencyMax (l : Latency) : ℕ :=
  if l.bin5 ≠ 0 then 3968
  else
    match scanOrder.reverse.find? fun ki => l.bin ki.1 ki.2 ≠ 0 with
    | some ki => binLow ki.1 ki.2
    | none => 0

/-- The loop of `perc`: take each bucket's count from `thres` in turn, and stop at the bucket that
takes it below 0. -/
def percLoop (l : Latency) : List (Fin 5 × Fin 128) → ℤ → ℕ
  | [], _ => 3968
  | ki :: rest, thres =>
    if thres - l.bin ki.1 ki.2 < 0 then binLow ki.1 ki.2
    else l.percLoop rest (thres - l.bin ki.1 ki.2)

/-- `perc (p)` once it has its threshold `thres = (int64_t) (p * count ())`. -/
def perc (l : Latency) (thres : ℤ) : ℕ := l.percLoop scanOrder thres

/-- Bucket `j` of the buckets numbered in `scanOrder`. -/
def toKI (j : ℕ) : Fin 5 × Fin 128 :=
  (⟨j / 128 % 5, Nat.mod_lt _ (by decide)⟩, ⟨j % 128, Nat.mod_lt _ (by decide)⟩)

section Counters

variable (l : Latency) (k : Fin 5) (i : Fin 128)

theorem incr_bin (k' : Fin 5) (i' : Fin 128) :
    (l.incr k i).bin k' i' = l.bin k' i' + if k' = k ∧ i' = i then 1 else 0 := by
  by_cases hk : k' = k
  · subst hk
    by_cases hi : i' = i
    · subst hi
      simp [incr]
    · simp [incr, hi]
  · simp [incr, hk]

@[simp] theorem incr_bin5 : (l.incr k i).bin5 = l.bin5 := rfl

theorem sum_sum_ite {M : Type*} [AddCommMonoid M] (w : Fin 5 → Fin 128 → M) :
    ∑ k', ∑ i', (if k' = k ∧ i' = i then w k' i' else 0) = w k i := by
  simp [ite_and, Finset.sum_ite_irrel, Finset.sum_ite_eq']

theorem count_incr : (l.incr k i).count = l.count + 1 := by
  have hone := sum_sum_ite k i fun _ _ => (1 : ℕ)
  simp only [count, incr_bin, incr_bin5, Finset.sum_add_distrib] at hone ⊢
  omega

theorem sum_incr : (l.incr k i).sum = l.sum + binLow k i := by
  have hlow := sum_sum_ite k i binLow
  simp only [sum, incr_bin, incr_bin5, Nat.add_mul, Finset.sum_add_distrib, ite_mul, one_mul,
    zero_mul] at hlow ⊢
  omega

@[simp] theorem add_bin (o : Latency) : (l.add o).bin k i = l.bin k i + o.bin k i := rfl

@[simp] theorem add_bin5 (o : Latency) : (l.add o).bin5 = l.bin5 + o.bin5 := rfl

theorem count_add (o : Latency) : (l.add o).count = l.count + o.count := by
  simp only [count, add_bin, add_bin5, Finset.sum_add_distrib]
  omega

end Counters

theorem toKI_flat {j : ℕ} (hj : j < 640) : 128 * ((toKI j).1 : ℕ) + (toKI j).2 = j := by
  show 128 * (j / 128 % 5) + j % 128 = j
  omega

theorem toKI_of_flat (k : Fin 5) (i : Fin 128) : toKI (128 * k + i) = (k, i) := by
  have hk := k.isLt
  have hi := i.isLt
  refine Prod.ext (Fin.ext ?_) (Fin.ext ?_)
  · show (128 * (k : ℕ) + i) / 128 % 5 = k
    omega
  · show (128 * (k : ℕ) + i) % 128 = i
    omega

theorem toKI_eq_iff {j : ℕ} (hj : j < 640) (k : Fin 5) (i : Fin 128) :
    (k = (toKI j).1 ∧ i = (toKI j).2) ↔ j = 128 * k + i := by
  constructor
  · rintro ⟨rfl, rfl⟩
    exact (toKI_flat hj).symm
  · rintro rfl
    rw [toKI_of_flat]
    exact ⟨rfl, rfl⟩

theorem range_mul_eq_flatMap (m : ℕ) : ∀ n : ℕ,
    List.range (m * n) = (List.range n).flatMap fun a => (List.range m).map (m * a + ·)
  | 0 => by simp
  | n + 1 => by
    rw [Nat.mul_succ, List.range_add, range_mul_eq_flatMap m n, List.range_succ,
      List.flatMap_append, List.flatMap_singleton]

theorem scanOrder_eq : scanOrder = (List.range 640).map toKI := by
  rw [show 640 = 128 * 5 from rfl, range_mul_eq_flatMap, List.map_flatMap, scanOrder]
  have h5 : List.range 5 = (List.finRange 5).map Fin.val := by simp
  rw [h5, List.flatMap_map]
  refine List.flatMap_congr fun k _ => ?_
  have h128 : List.range 128 = (List.finRange 128).map Fin.val := by simp
  rw [h128, List.map_map, List.map_map]
  exact List.map_congr_left fun i _ => (toKI_of_flat k i).symm

/-- The loop of `perc` over numbered buckets is the threshold scan over their counts. -/
theorem percLoop_map (l : Latency) : ∀ (js : List ℕ) (t : ℤ),
    l.percLoop (js.map toKI) t =
      ((Histogram.thresScan (fun j => l.bin (toKI j).1 (toKI j).2) js t).map
        fun j => binLow (toKI j).1 (toKI j).2).getD 3968
  | [], _ => rfl
  | j :: js, t => by
    simp only [List.map_cons, percLoop, Histogram.thresScan]
    split_ifs
    · rfl
    · exact percLoop_map l js _

end Latency

end ERpc
