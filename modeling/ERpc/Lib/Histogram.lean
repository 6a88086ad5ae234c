import Mathlib

/-!
# Scans over the buckets of a histogram

A histogram of samples `xs` puts each sample `x` in the bucket `q x`, and counts the samples of
each bucket (`cnt`). Its statistics scan the buckets in order. The first bucket below `n` that
holds a sample is the least bucket of the samples below `n`, and the last such bucket the
greatest (`find?_range_occupied`, `find?_reverse_range_occupied`). Subtracting the counts from a
threshold `t` until it goes below zero (`thresScan`) stops at the first bucket whose samples
together with those of the buckets before it are more than `t` (`thresScan_range'_some`).
-/

namespace Histogram

variable {α : Type*}

/-- The samples in bucket `j`. -/
def cnt (q : α → ℕ) (xs : List α) (j : ℕ) : ℕ := xs.countP fun x => q x = j

/-- Subtract the counts `c j` of the buckets `js` in turn from `t`, and stop at the first bucket
that takes it below zero. -/
def thresScan (c : ℕ → ℕ) : List ℕ → ℤ → Option ℕ
  | [], _ => none
  | j :: js, t => if t - c j < 0 then some j else thresScan c js (t - c j)

variable {q : α → ℕ} {xs : List α}

theorem thresScan_congr {c c' : ℕ → ℕ} : ∀ {js : List ℕ} (t : ℤ), (∀ j ∈ js, c j = c' j) →
    thresScan c js t = thresScan c' js t
  | [], _, _ => rfl
  | j :: js, t, h => by
    simp only [thresScan, h j List.mem_cons_self]
    rw [thresScan_congr _ fun j' hj' => h j' (List.mem_cons_of_mem _ hj')]

theorem cnt_ne_zero {j : ℕ} : cnt q xs j ≠ 0 ↔ ∃ x ∈ xs, q x = j := by
  simp [cnt, List.countP_eq_zero]

theorem countP_lt_succ (j : ℕ) :
    xs.countP (fun x => q x < j + 1) = xs.countP (fun x => q x < j) + cnt q xs j := by
  induction xs with
  | nil => rfl
  | cons x xs ih =>
    simp only [cnt, List.countP_cons] at ih ⊢
    rw [ih]
    by_cases hlt : q x < j
    · simp [hlt, Nat.ne_of_lt hlt, Nat.lt_succ_of_lt hlt]
      omega
    · by_cases heq : q x = j
      · simp [heq]
        omega
      · have : ¬ q x < j + 1 := by omega
        simp [hlt, heq, this]

theorem find?_range_occupied {n j : ℕ}
    (h : (List.range n).find? (fun j => cnt q xs j ≠ 0) = some j) :
    j < n ∧ (∃ x ∈ xs, q x = j) ∧ ∀ x ∈ xs, q x < n → j ≤ q x := by
  rw [List.find?_range_eq_some] at h
  obtain ⟨hj, hmem, hmin⟩ := h
  refine ⟨List.mem_range.1 hmem, cnt_ne_zero.1 (by simpa using hj), fun x hx hxn => ?_⟩
  by_contra hlt
  have hempty := hmin (q x) (by omega)
  simp only [ne_eq, decide_not, Bool.not_not, decide_eq_true_eq] at hempty
  exact cnt_ne_zero.2 ⟨x, hx, rfl⟩ hempty

theorem find?_range_none {n : ℕ} {l : List ℕ} (hl : ∀ j, j ∈ l ↔ j < n)
    (h : l.find? (fun j => cnt q xs j ≠ 0) = none) : ∀ x ∈ xs, n ≤ q x := by
  rw [List.find?_eq_none] at h
  intro x hx
  by_contra hlt
  have hempty := h (q x) ((hl _).2 (by omega))
  simp only [ne_eq, decide_not, Bool.not_eq_true', decide_eq_false_iff_not, not_not] at hempty
  exact cnt_ne_zero.2 ⟨x, hx, rfl⟩ hempty

/-- Scanning the buckets below `n` down from the top, the first that holds a sample is the
greatest bucket of the samples below `n`. -/
theorem find?_reverse_range_occupied {n j : ℕ}
    (h : (List.range n).reverse.find? (fun j => cnt q xs j ≠ 0) = some j) :
    j < n ∧ (∃ x ∈ xs, q x = j) ∧ ∀ x ∈ xs, q x < n → q x ≤ j := by
  rw [List.range_eq_range', List.reverse_range', List.find?_map] at h
  obtain ⟨k, hk, rfl⟩ := Option.map_eq_some_iff.1 h
  rw [List.find?_range_eq_some] at hk
  obtain ⟨hp, hmem, hmax⟩ := hk
  have hkn := List.mem_range.1 hmem
  refine ⟨by omega, cnt_ne_zero.1 (by simpa using hp), fun x hx hxn => ?_⟩
  by_contra hgt
  have hempty := hmax (n - 1 - q x) (by omega)
  simp only [Function.comp, Nat.zero_add, ne_eq, decide_not, Bool.not_not,
    decide_eq_true_eq] at hempty
  rw [show n - 1 - (n - 1 - q x) = q x by omega] at hempty
  exact cnt_ne_zero.2 ⟨x, hx, rfl⟩ hempty

section Thres

variable (t : ℤ)

/-- Taking the count of bucket `s` from `t` less the samples below `s` leaves `t` less the samples
below `s + 1`. -/
theorem sub_countP_sub_cnt (s : ℕ) :
    t - (xs.countP fun x => q x < s) - cnt q xs s = t - xs.countP fun x => q x < s + 1 := by
  rw [countP_lt_succ]
  push_cast
  ring

/-- The threshold scan from bucket `s`, with the samples below `s` already taken from `t`, stops
at the first bucket `j` whose samples and those below it are more than `t`. -/
theorem thresScan_range'_some : ∀ (n s : ℕ) {j : ℕ},
    thresScan (cnt q xs) (List.range' s n) (t - xs.countP fun x => q x < s) = some j →
      s ≤ j ∧ j < s + n ∧ t < xs.countP (fun x => q x < j + 1) ∧
        ∀ j', s ≤ j' → j' < j → xs.countP (fun x => q x < j' + 1) ≤ t
  | 0, s, j, h => by simp [thresScan] at h
  | n + 1, s, j, h => by
    rw [List.range'_succ, thresScan, sub_countP_sub_cnt] at h
    split_ifs at h with hbelow
    · obtain rfl := Option.some.inj h
      exact ⟨le_rfl, by omega, by omega, fun j' h1 h2 => absurd h2 (by omega)⟩
    · obtain ⟨h1, h2, h3, h4⟩ := thresScan_range'_some n (s + 1) h
      refine ⟨by omega, by omega, h3, fun j' hs hj => ?_⟩
      rcases Nat.eq_or_lt_of_le hs with rfl | hlt
      · omega
      · exact h4 j' hlt hj

/-- A threshold scan from bucket `s` that goes through all `n` buckets finds that none of them
takes the samples before it past `t`. -/
theorem thresScan_range'_none : ∀ (n s : ℕ),
    thresScan (cnt q xs) (List.range' s n) (t - xs.countP fun x => q x < s) = none →
      ∀ j', s ≤ j' → j' < s + n → xs.countP (fun x => q x < j' + 1) ≤ t
  | 0, s, _, j', h1, h2 => absurd h2 (by omega)
  | n + 1, s, h, j', h1, h2 => by
    rw [List.range'_succ, thresScan, sub_countP_sub_cnt] at h
    split_ifs at h with hbelow
    rcases Nat.eq_or_lt_of_le h1 with rfl | hlt
    · omega
    · exact thresScan_range'_none n (s + 1) h j' hlt (by omega)

end Thres

end Histogram
