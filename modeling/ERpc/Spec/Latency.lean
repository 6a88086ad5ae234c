import Mathlib
import ERpc.Model.Latency

/-!
# What the latency histogram stands for

A `Latency` built from samples `xs` (`ofSamples`) stands for those samples, each rounded down to
the latency of its bucket, and to 3968 from there on (`quantize`). The buckets are numbered in
the order the statistics scan them, `bin5_` last (`idx`), and rounding keeps the order of the
buckets (`quantize_lt_quantize`).

So `count` is the number of samples and `+=` is the histogram of both sets of samples
(`latency_histogram_counts_samples`); `sum` adds the rounded samples, which lie at most 15 us
below the samples (`latency_sum_bounds`); `latency_min` and `latency_max` are the least and the
greatest rounded samples, with 3968 and 0 for no sample (`latency_min_max`); and `perc` at a
threshold `t` below the number of samples is the rounded sample of rank `t`
(`latency_perc_is_order_statistic`).
-/

namespace ERpc

namespace Latency

open Histogram

/-- The bucket of a sample of `us` microseconds, numbered in `scanOrder`, and 640 for
`bin5_`. -/
def idx (us : ℕ) : ℕ :=
  if us < 128 then us
  else if us < 384 then 128 + (us - 128) / 2
  else if us < 896 then 256 + (us - 384) / 4
  else if us < 1920 then 384 + (us - 896) / 8
  else if us < 3968 then 512 + (us - 1920) / 16
  else 640

/-- A sample rounded down to the latency of its bucket, and 3968 from there on. -/
def quantize (us : ℕ) : ℕ :=
  if us < 128 then us
  else if us < 384 then 128 + (us - 128) / 2 * 2
  else if us < 896 then 384 + (us - 384) / 4 * 4
  else if us < 1920 then 896 + (us - 896) / 8 * 8
  else if us < 3968 then 1920 + (us - 1920) / 16 * 16
  else 3968

/-- The latency that bucket `j` stands for: bucket `j % 128` of the array `j / 128`, whose buckets
are `2 ^ (j / 128)` us wide from `128 * (2 ^ (j / 128) - 1)` on, and 3968 for `bin5_`. So `quantize`
is `lowOf ∘ idx` (`quantize_eq_lowOf`). -/
def lowOf (j : ℕ) : ℕ :=
  if j < 640 then 128 * (2 ^ (j / 128) - 1) + j % 128 * 2 ^ (j / 128) else 3968

/-- The histogram of the samples `xs`, added one after another to a new one. -/
def ofSamples (xs : List ℕ) : Latency := xs.foldl update reset

section Buckets

theorem idx_le (us : ℕ) : idx us ≤ 640 := by
  unfold idx
  split_ifs <;> omega

theorem idx_eq_640 {us : ℕ} : idx us = 640 ↔ 3968 ≤ us := by
  unfold idx
  split_ifs <;> omega

theorem idx_lt_640 {us : ℕ} : idx us < 640 ↔ us < 3968 := by
  rw [← not_le, ← not_le, ← idx_eq_640, le_iff_lt_or_eq, or_iff_right (not_lt.2 (idx_le us)),
    eq_comm]

theorem lowOf_eq {j k r : ℕ} (hj : j = 128 * k + r) (hk : k < 5) (hr : r < 128) :
    lowOf j = 128 * (2 ^ k - 1) + r * 2 ^ k := by
  have hq : j / 128 = k := by omega
  have hm : j % 128 = r := by omega
  rw [lowOf, if_pos (by omega), hq, hm]

theorem quantize_eq_lowOf (us : ℕ) : quantize us = lowOf (idx us) := by
  unfold quantize idx
  split_ifs with h0 h1 h2 h3 h4
  · rw [lowOf_eq (k := 0) (r := us) (by omega) (by decide) h0]
    omega
  · rw [lowOf_eq (k := 1) (r := (us - 128) / 2) (by omega) (by decide) (by omega)]
    omega
  · rw [lowOf_eq (k := 2) (r := (us - 384) / 4) (by omega) (by decide) (by omega)]
    omega
  · rw [lowOf_eq (k := 3) (r := (us - 896) / 8) (by omega) (by decide) (by omega)]
    omega
  · rw [lowOf_eq (k := 4) (r := (us - 1920) / 16) (by omega) (by decide) (by omega)]
    omega
  · rfl

theorem quantize_of_le {us : ℕ} (h : 3968 ≤ us) : quantize us = 3968 := by
  rw [quantize_eq_lowOf, idx_eq_640.2 h]
  rfl

theorem lowOf_lt_succ {j : ℕ} (h : j < 640) : lowOf j < lowOf (j + 1) := by
  rw [lowOf, if_pos h]
  by_cases hlast : j + 1 < 640
  · rw [lowOf, if_pos hlast]
    by_cases hr : j % 128 < 127
    · rw [show (j + 1) / 128 = j / 128 by omega, show (j + 1) % 128 = j % 128 + 1 by omega]
      have hp : 0 < 2 ^ (j / 128) := Nat.two_pow_pos _
      generalize 2 ^ (j / 128) = p at hp ⊢
      rw [Nat.add_mul (j % 128) 1 p, Nat.one_mul]
      omega
    · rw [show (j + 1) / 128 = j / 128 + 1 by omega, show (j + 1) % 128 = 0 by omega,
        show j % 128 = 127 by omega, Nat.pow_succ]
      have hp : 0 < 2 ^ (j / 128) := Nat.two_pow_pos _
      generalize 2 ^ (j / 128) = p at hp ⊢
      omega
  · rw [lowOf, if_neg hlast, show j / 128 = 4 by omega]
    omega

theorem lowOf_strictMonoOn : StrictMonoOn lowOf (Set.Iic 640) :=
  strictMonoOn_Iic_of_lt_succ fun j hj => by
    rw [Order.succ_eq_add_one]
    exact lowOf_lt_succ hj

theorem quantize_le_3968 (us : ℕ) : quantize us ≤ 3968 := by
  rw [quantize_eq_lowOf]
  exact lowOf_strictMonoOn.monotoneOn (idx_le us) (le_refl 640) (idx_le us)

theorem quantize_lt_quantize {x y : ℕ} : quantize x < quantize y ↔ idx x < idx y := by
  rw [quantize_eq_lowOf, quantize_eq_lowOf]
  exact lowOf_strictMonoOn.lt_iff_lt (idx_le x) (idx_le y)

theorem quantize_le_quantize {x y : ℕ} : quantize x ≤ quantize y ↔ idx x ≤ idx y := by
  rw [← not_lt, ← not_lt, quantize_lt_quantize]

theorem quantize_le_self (us : ℕ) : quantize us ≤ us ∧ min us 3968 ≤ quantize us + 15 := by
  unfold quantize
  split_ifs <;> omega

theorem binLow_eq (k : Fin 5) (i : Fin 128) :
    binLow k i = 128 * (2 ^ (k : ℕ) - 1) + i * 2 ^ (k : ℕ) := by
  fin_cases k <;> simp [binLow]

theorem binLow_toKI {j : ℕ} (hj : j < 640) : binLow (toKI j).1 (toKI j).2 = lowOf j := by
  rw [binLow_eq, lowOf, if_pos hj]
  show 128 * (2 ^ (j / 128 % 5) - 1) + j % 128 * 2 ^ (j / 128 % 5) = _
  rw [Nat.mod_eq_of_lt (show j / 128 < 5 by omega)]

theorem binLow_toKI_idx {us : ℕ} (h : us < 3968) :
    binLow (toKI (idx us)).1 (toKI (idx us)).2 = quantize us := by
  rw [binLow_toKI (idx_lt_640.2 h), quantize_eq_lowOf]

end Buckets

section Update

variable (l : Latency) (us : ℕ)

theorem update_eq_incr (h : us < 3968) :
    l.update us = l.incr (toKI (idx us)).1 (toKI (idx us)).2 := by
  have key : ∀ (k : Fin 5) (i : Fin 128), 128 * (k : ℕ) + i = idx us →
      l.incr k i = l.incr (toKI (idx us)).1 (toKI (idx us)).2 := by
    intro k i hki
    rw [← hki, toKI_of_flat]
  unfold update
  split_ifs with h0 h1 h2 h3
  · exact key 0 _ (by rw [idx, if_pos h0, Fin.val_zero, Nat.mul_zero, Nat.zero_add])
  · exact key 1 _ (by rw [idx, if_neg h0, if_pos h1]; rfl)
  · exact key 2 _ (by rw [idx, if_neg h0, if_neg h1, if_pos h2]; rfl)
  · exact key 3 _ (by rw [idx, if_neg h0, if_neg h1, if_neg h2, if_pos h3]; rfl)
  · exact key 4 _ (by rw [idx, if_neg h0, if_neg h1, if_neg h2, if_neg h3, if_pos h]; rfl)

theorem update_of_le (h : 3968 ≤ us) : l.update us = { l with bin5 := l.bin5 + 1 } := by
  unfold update
  rw [dif_neg (by omega), dif_neg (by omega), dif_neg (by omega), dif_neg (by omega),
    dif_neg (by omega)]

/-- `update` counts the sample in its bucket. -/
theorem update_bin (k : Fin 5) (i : Fin 128) :
    (l.update us).bin k i = l.bin k i + if idx us = 128 * k + i then 1 else 0 := by
  by_cases h : us < 3968
  · rw [update_eq_incr l us h, incr_bin, if_congr (toKI_eq_iff (idx_lt_640.2 h) k i) rfl rfl]
  · have hne : idx us ≠ 128 * k + i := by
      have := k.isLt
      have := i.isLt
      rw [idx_eq_640.2 (by omega)]
      omega
    rw [update_of_le l us (by omega), if_neg hne]
    rfl

theorem update_bin5 : (l.update us).bin5 = l.bin5 + if idx us = 640 then 1 else 0 := by
  by_cases h : us < 3968
  · rw [update_eq_incr l us h, incr_bin5, if_neg (idx_lt_640.2 h).ne, Nat.add_zero]
  · rw [update_of_le l us (by omega), if_pos (idx_eq_640.2 (by omega))]

theorem count_update : (l.update us).count = l.count + 1 := by
  by_cases h : us < 3968
  · rw [update_eq_incr l us h, count_incr]
  · rw [update_of_le l us (by omega)]
    simp only [count]
    omega

theorem sum_update : (l.update us).sum = l.sum + quantize us := by
  by_cases h : us < 3968
  · rw [update_eq_incr l us h, sum_incr, binLow_toKI_idx h]
  · rw [update_of_le l us (by omega), quantize_of_le (by omega)]
    simp only [sum]
    omega

end Update

section Samples

variable (xs ys : List ℕ)

theorem foldl_update_bin (l : Latency) (k : Fin 5) (i : Fin 128) :
    (xs.foldl update l).bin k i = l.bin k i + cnt idx xs (128 * k + i) := by
  induction xs generalizing l with
  | nil => rfl
  | cons x xs ih =>
    rw [List.foldl_cons, ih, update_bin, cnt, cnt, List.countP_cons]
    simp only [decide_eq_true_eq]
    omega

theorem foldl_update_bin5 (l : Latency) :
    (xs.foldl update l).bin5 = l.bin5 + cnt idx xs 640 := by
  induction xs generalizing l with
  | nil => rfl
  | cons x xs ih =>
    rw [List.foldl_cons, ih, update_bin5, cnt, cnt, List.countP_cons]
    simp only [decide_eq_true_eq]
    omega

theorem bin_ofSamples (k : Fin 5) (i : Fin 128) :
    (ofSamples xs).bin k i = cnt idx xs (128 * k + i) := by
  rw [ofSamples, foldl_update_bin]
  simp [reset]

theorem bin5_ofSamples : (ofSamples xs).bin5 = cnt idx xs 640 := by
  rw [ofSamples, foldl_update_bin5]
  simp [reset]

theorem bin_toKI {j : ℕ} (hj : j < 640) :
    (ofSamples xs).bin (toKI j).1 (toKI j).2 = cnt idx xs j := by
  rw [bin_ofSamples, toKI_flat hj]

theorem foldl_update_count (l : Latency) : (xs.foldl update l).count = l.count + xs.length := by
  induction xs generalizing l with
  | nil => simp
  | cons x xs ih =>
    rw [List.foldl_cons, ih, count_update, List.length_cons]
    omega

theorem foldl_update_sum (l : Latency) :
    (xs.foldl update l).sum = l.sum + (xs.map quantize).sum := by
  induction xs generalizing l with
  | nil => simp
  | cons x xs ih =>
    rw [List.foldl_cons, ih, sum_update, List.map_cons, List.sum_cons]
    omega

theorem find?_scanOrder_ofSamples :
    scanOrder.find? (fun ki => (ofSamples xs).bin ki.1 ki.2 ≠ 0) =
      ((List.range 640).find? fun j => cnt idx xs j ≠ 0).map toKI := by
  rw [scanOrder_eq, List.find?_map]
  exact congrArg _ (List.find?_congr fun j hj => by
    simp only [Function.comp, bin_toKI xs (List.mem_range.1 hj)])

theorem find?_reverse_scanOrder_ofSamples :
    scanOrder.reverse.find? (fun ki => (ofSamples xs).bin ki.1 ki.2 ≠ 0) =
      ((List.range 640).reverse.find? fun j => cnt idx xs j ≠ 0).map toKI := by
  rw [scanOrder_eq, ← List.map_reverse, List.find?_map]
  exact congrArg _ (List.find?_congr fun j hj => by
    simp only [Function.comp, bin_toKI xs (List.mem_range.1 (List.mem_reverse.1 hj))])

/-- The loop of `perc` is the threshold scan of the numbered buckets below 640. -/
theorem perc_ofSamples (t : ℤ) :
    (ofSamples xs).perc t = ((thresScan (cnt idx xs) (List.range' 0 640) t).map
      fun j => binLow (toKI j).1 (toKI j).2).getD 3968 := by
  rw [perc, scanOrder_eq, percLoop_map,
    thresScan_congr t fun j hj => bin_toKI xs (List.mem_range.1 hj), List.range_eq_range']

theorem exists_idx_eq_640 {t : ℤ} (hle : (xs.countP fun x => idx x < 640 : ℤ) ≤ t)
    (hlt : t < xs.length) : ∃ x ∈ xs, idx x = 640 := by
  by_contra hno
  simp only [not_exists, not_and] at hno
  have hall : xs.countP (fun x => idx x < 640) = xs.length :=
    List.countP_eq_length.2 fun x hx => by
      simpa using lt_of_le_of_ne (idx_le x) (hno x hx)
  omega

end Samples

section Statistics

variable (xs ys : List ℕ)

/-- `count` is the number of samples, and `+=` of the histograms of two sets of samples is the
histogram of both. -/
theorem latency_histogram_counts_samples :
    (ofSamples xs).count = xs.length ∧ (ofSamples xs).add (ofSamples ys) = ofSamples (xs ++ ys) := by
  refine ⟨?_, ?_⟩
  · rw [ofSamples, foldl_update_count]
    simp [count, reset]
  · ext k i
    · simp only [add_bin, bin_ofSamples, cnt, List.countP_append]
    · simp only [add_bin5, bin5_ofSamples, cnt, List.countP_append]

theorem latency_histogram_counts_samples_three :
    (ofSamples [5, 200, 5000]).count = 3 ∧
      (ofSamples [5, 200]).add (ofSamples [5000]) = ofSamples [5, 200, 5000] :=
  ⟨(latency_histogram_counts_samples [5, 200, 5000] []).1,
    (latency_histogram_counts_samples [5, 200] [5000]).2⟩

/-- `sum` adds the rounded samples: no more than the samples, and, the samples taken no higher
than 3968, no less than them less 15 us each. -/
theorem latency_sum_bounds :
    (ofSamples xs).sum = (xs.map quantize).sum ∧ (ofSamples xs).sum ≤ xs.sum ∧
      (xs.map fun x => min x 3968).sum ≤ (ofSamples xs).sum + 15 * (ofSamples xs).count := by
  have hsum : (ofSamples xs).sum = (xs.map quantize).sum := by
    rw [ofSamples, foldl_update_sum]
    simp [sum, reset]
  have hcount := (latency_histogram_counts_samples xs []).1
  refine ⟨hsum, ?_, ?_⟩
  · rw [hsum]
    calc (xs.map quantize).sum ≤ (xs.map id).sum := List.sum_le_sum fun x _ => (quantize_le_self x).1
      _ = xs.sum := by rw [List.map_id]
  · rw [hsum, hcount]
    calc (xs.map fun x => min x 3968).sum ≤ (xs.map fun x => quantize x + 15).sum :=
          List.sum_le_sum fun x _ => (quantize_le_self x).2
      _ = (xs.map quantize).sum + 15 * xs.length := by
          rw [List.sum_map_add, List.map_const', List.sum_replicate, smul_eq_mul, Nat.mul_comm]

theorem latency_sum_bounds_three :
    (ofSamples [5, 200, 5000]).sum ≤ [5, 200, 5000].sum ∧
      [5, 200, 3968].sum ≤ (ofSamples [5, 200, 5000]).sum + 15 * (ofSamples [5, 200, 5000]).count :=
  ⟨(latency_sum_bounds [5, 200, 5000]).2.1, (latency_sum_bounds [5, 200, 5000]).2.2⟩

/-- `latency_min` is the least rounded sample, and 3968 for no sample. -/
theorem latencyMin_ofSamples :
    (∀ x ∈ xs, (ofSamples xs).latencyMin ≤ quantize x) ∧
      (xs ≠ [] → ∃ x ∈ xs, (ofSamples xs).latencyMin = quantize x) ∧
      (xs = [] → (ofSamples xs).latencyMin = 3968) := by
  unfold latencyMin
  rw [find?_scanOrder_ofSamples]
  rcases h : (List.range 640).find? (fun j => cnt idx xs j ≠ 0) with _ | j
  · have hall := find?_range_none (fun _ => List.mem_range) h
    have hq : ∀ x ∈ xs, quantize x = 3968 := fun x hx =>
      quantize_of_le (idx_eq_640.1 (le_antisymm (idx_le x) (hall x hx)))
    refine ⟨fun x hx => (hq x hx).ge, fun hne => ?_, fun _ => rfl⟩
    obtain ⟨x, hx⟩ := List.exists_mem_of_ne_nil xs hne
    exact ⟨x, hx, (hq x hx).symm⟩
  · obtain ⟨hj, ⟨x0, hx0, rfl⟩, hmin⟩ := find?_range_occupied h
    simp only [Option.map_some]
    rw [binLow_toKI_idx (idx_lt_640.1 hj)]
    refine ⟨fun x hx => quantize_le_quantize.2 ?_, fun _ => ⟨x0, hx0, rfl⟩,
      fun hnil => absurd hx0 (by simp [hnil])⟩
    rcases Nat.lt_or_ge (idx x) 640 with hlt | hge
    · exact hmin x hx hlt
    · omega

/-- `latency_max` is the greatest rounded sample, and 0 for no sample. -/
theorem latencyMax_ofSamples :
    (∀ x ∈ xs, quantize x ≤ (ofSamples xs).latencyMax) ∧
      (xs ≠ [] → ∃ x ∈ xs, (ofSamples xs).latencyMax = quantize x) ∧
      (xs = [] → (ofSamples xs).latencyMax = 0) := by
  unfold latencyMax
  rw [bin5_ofSamples]
  split_ifs with h5
  · obtain ⟨x0, hx0, hidx⟩ := cnt_ne_zero.1 h5
    refine ⟨fun x _ => quantize_le_3968 x, fun _ => ⟨x0, hx0, (quantize_of_le
      (idx_eq_640.1 hidx)).symm⟩, fun hnil => absurd hx0 (by simp [hnil])⟩
  · have hbelow : ∀ x ∈ xs, idx x < 640 := fun x hx =>
      lt_of_le_of_ne (idx_le x) fun heq => h5 (cnt_ne_zero.2 ⟨x, hx, heq⟩)
    rw [find?_reverse_scanOrder_ofSamples]
    rcases h : (List.range 640).reverse.find? (fun j => cnt idx xs j ≠ 0) with _ | j
    · have hall := find?_range_none (fun _ => by rw [List.mem_reverse, List.mem_range]) h
      have hnil : xs = [] := List.eq_nil_iff_forall_not_mem.2 fun x hx =>
        absurd (hall x hx) (Nat.not_le.2 (hbelow x hx))
      subst hnil
      exact ⟨fun x hx => absurd hx (List.not_mem_nil), fun hne => absurd rfl hne, fun _ => rfl⟩
    · obtain ⟨hj, ⟨x0, hx0, rfl⟩, hmax⟩ := find?_reverse_range_occupied h
      simp only [Option.map_some]
      rw [binLow_toKI_idx (idx_lt_640.1 hj)]
      exact ⟨fun x hx => quantize_le_quantize.2 (hmax x hx (hbelow x hx)),
        fun _ => ⟨x0, hx0, rfl⟩, fun hnil => absurd hx0 (by simp [hnil])⟩

/-- `latency_min` and `latency_max` are the least and the greatest rounded samples; with no
sample, `latency_min` is 3968 and `latency_max` is 0. -/
theorem latency_min_max :
    (∀ x ∈ xs, (ofSamples xs).latencyMin ≤ quantize x ∧ quantize x ≤ (ofSamples xs).latencyMax) ∧
      (xs ≠ [] → (∃ x ∈ xs, (ofSamples xs).latencyMin = quantize x) ∧
        ∃ x ∈ xs, (ofSamples xs).latencyMax = quantize x) ∧
      (xs = [] → (ofSamples xs).latencyMin = 3968 ∧ (ofSamples xs).latencyMax = 0) := by
  obtain ⟨hmin, hmin', hmin0⟩ := latencyMin_ofSamples xs
  obtain ⟨hmax, hmax', hmax0⟩ := latencyMax_ofSamples xs
  exact ⟨fun x hx => ⟨hmin x hx, hmax x hx⟩, fun hne => ⟨hmin' hne, hmax' hne⟩,
    fun hnil => ⟨hmin0 hnil, hmax0 hnil⟩⟩

theorem latency_min_max_three :
    (∀ x ∈ [5, 100, 7], (ofSamples [5, 100, 7]).latencyMin ≤ quantize x ∧
        quantize x ≤ (ofSamples [5, 100, 7]).latencyMax) ∧
      (∃ x ∈ [5, 100, 7], (ofSamples [5, 100, 7]).latencyMin = quantize x) ∧
        ∃ x ∈ [5, 100, 7], (ofSamples [5, 100, 7]).latencyMax = quantize x :=
  ⟨(latency_min_max [5, 100, 7]).1, (latency_min_max [5, 100, 7]).2.1 (by simp)⟩

theorem countP_quantize_lt (x0 : ℕ) :
    xs.countP (fun x => quantize x < quantize x0) = xs.countP fun x => idx x < idx x0 :=
  List.countP_congr fun x _ => by simp [quantize_lt_quantize]

theorem countP_quantize_le (x0 : ℕ) :
    xs.countP (fun x => quantize x ≤ quantize x0) = xs.countP fun x => idx x < idx x0 + 1 :=
  List.countP_congr fun x _ => by simp [quantize_le_quantize]

/-- `perc` at a threshold `t` below the number of samples is the rounded sample of rank `t`: at
most `t` samples are rounded below it and more than `t` to it or below. Below 0 it is 0, and from
the number of samples on it is 3968. -/
theorem latency_perc_is_order_statistic (t : ℤ) :
    (0 ≤ t → t < xs.length →
      (xs.countP (fun x => quantize x < (ofSamples xs).perc t) : ℤ) ≤ t ∧
        t < xs.countP (fun x => quantize x ≤ (ofSamples xs).perc t) ∧
        ∃ x ∈ xs, quantize x = (ofSamples xs).perc t) ∧
      (t < 0 → (ofSamples xs).perc t = 0) ∧
      (xs.length ≤ t → (ofSamples xs).perc t = 3968) := by
  have hzero : t - (xs.countP fun x => idx x < 0 : ℕ) = t := by simp
  rcases h : thresScan (cnt idx xs) (List.range' 0 640) t with _ | j
  · have hp : (ofSamples xs).perc t = 3968 := by
      rw [perc_ofSamples, h]
      rfl
    have hall := thresScan_range'_none t 640 0 (by rw [hzero]; exact h)
    have h639 : (xs.countP fun x => idx x < 640 : ℤ) ≤ t := hall 639 (Nat.zero_le _) (by decide)
    refine ⟨fun _ htl => ?_, fun hneg => ?_, fun _ => hp⟩
    · obtain ⟨x0, hx0, hidx⟩ := exists_idx_eq_640 xs h639 htl
      have hall' : xs.countP (fun x => idx x < 640 + 1) = xs.length :=
        List.countP_eq_length.2 fun x _ => by simpa using Nat.lt_succ_of_le (idx_le x)
      rw [hp, ← quantize_of_le (idx_eq_640.1 hidx), countP_quantize_lt, countP_quantize_le, hidx,
        hall']
      exact ⟨h639, htl, x0, hx0, rfl⟩
    · have h0 := hall 0 le_rfl (by decide)
      omega
  · obtain ⟨-, hj, hlt, hbelow⟩ := thresScan_range'_some t 640 0 (by rw [hzero]; exact h)
    simp only [Nat.zero_add] at hj
    have hp : (ofSamples xs).perc t = binLow (toKI j).1 (toKI j).2 := by
      rw [perc_ofSamples, h]
      rfl
    refine ⟨fun ht0 _ => ?_, fun hneg => ?_, fun hlen => ?_⟩
    · have hle : (xs.countP fun x => idx x < j : ℤ) ≤ t := by
        rcases Nat.eq_zero_or_pos j with rfl | hpos
        · simpa using ht0
        · have := hbelow (j - 1) (Nat.zero_le _) (by omega)
          rwa [Nat.sub_add_cancel hpos] at this
      have hcnt : cnt idx xs j ≠ 0 := by
        rw [countP_lt_succ] at hlt
        push_cast at hlt
        omega
      obtain ⟨x0, hx0, rfl⟩ := cnt_ne_zero.1 hcnt
      rw [hp, binLow_toKI_idx (idx_lt_640.1 hj), countP_quantize_lt, countP_quantize_le]
      exact ⟨hle, hlt, x0, hx0, rfl⟩
    · have hj0 : j = 0 := by
        by_contra hpos
        have := hbelow 0 le_rfl (by omega)
        omega
      rw [hp, hj0]
      rfl
    · have := List.countP_le_length (p := fun x => decide (idx x < j + 1)) (l := xs)
      omega

theorem latency_perc_is_order_statistic_one :
    ∃ x ∈ [5, 200, 5000], quantize x = (ofSamples [5, 200, 5000]).perc 1 :=
  ((latency_perc_is_order_statistic [5, 200, 5000] 1).1 (by decide) (by decide)).2.2

end Statistics

end Latency

end ERpc
