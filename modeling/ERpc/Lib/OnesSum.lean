import Mathlib

/-!
# One's-complement sums

The Internet checksum adds `w`-bit words in one's-complement arithmetic: a sum's carry
out of the top bit is added back in at the bottom (`add`). Modulo `2 ^ w - 1`, where `2 ^ w` is
`1`, that is plain addition (`add_mod`), and a one's-complement sum of words stays a word
(`add_lt`) that is zero only when every word is (`add_eq_zero_iff`).

So a list of words sums to the all-ones word exactly when its plain sum is a multiple of
`2 ^ w - 1` and some word is not zero (`sum_eq_ones_iff`), which is what a receiver checks; and
the check does not depend on the order of the two halves of each word (`sum_map_swap_eq_ones`),
so it reads the same in either byte order.
-/

namespace OnesSum

/-- One's-complement addition of two `w`-bit words: the sum with its carry added back in. -/
def add (w a b : ℕ) : ℕ := (a + b) % 2 ^ w + (a + b) / 2 ^ w

/-- The one's-complement sum of a list of words, from `acc`. -/
def sumFrom (w acc : ℕ) (ws : List ℕ) : ℕ := ws.foldl (add w) acc

/-- The one's-complement sum of a list of words. -/
def sum (w : ℕ) (ws : List ℕ) : ℕ := sumFrom w 0 ws

/-- The halves of a `2 k`-bit word exchanged: a byte swap for `k = 8`. -/
def swap (k x : ℕ) : ℕ := x % 2 ^ k * 2 ^ k + x / 2 ^ k

variable {w a b : ℕ}

theorem add_lt (ha : a < 2 ^ w) (hb : b < 2 ^ w) : add w a b < 2 ^ w := by
  unfold add
  by_cases hs : a + b < 2 ^ w
  · rw [Nat.mod_eq_of_lt hs, Nat.div_eq_of_lt hs]
    omega
  · have hq : (a + b) / 2 ^ w = 1 :=
      Nat.div_eq_of_lt_le (by omega) (by omega)
    have hr : (a + b) % 2 ^ w = a + b - 2 ^ w := by
      rw [Nat.mod_eq_sub_mod (Nat.not_lt.1 hs), Nat.mod_eq_of_lt (by omega)]
    omega

/-- Modulo `2 ^ w - 1` one's-complement addition is addition. -/
theorem add_mod (w a b : ℕ) : add w a b % (2 ^ w - 1) = (a + b) % (2 ^ w - 1) := by
  have hsplit := Nat.div_add_mod (a + b) (2 ^ w)
  have hP : 1 ≤ 2 ^ w := Nat.one_le_two_pow
  have hmul : 2 ^ w * ((a + b) / 2 ^ w) =
      (2 ^ w - 1) * ((a + b) / 2 ^ w) + (a + b) / 2 ^ w := by
    rw [Nat.sub_mul, Nat.one_mul, Nat.sub_add_cancel (Nat.le_mul_of_pos_left _ hP)]
  have hab : a + b = add w a b + (2 ^ w - 1) * ((a + b) / 2 ^ w) := by
    unfold add
    omega
  rw [hab, Nat.add_mul_mod_self_left]

theorem add_eq_zero_iff (ha : a < 2 ^ w) (hb : b < 2 ^ w) : add w a b = 0 ↔ a = 0 ∧ b = 0 := by
  unfold add
  constructor
  · intro h
    by_cases hs : a + b < 2 ^ w
    · rw [Nat.mod_eq_of_lt hs, Nat.div_eq_of_lt hs] at h
      omega
    · have : 1 ≤ (a + b) / 2 ^ w := (Nat.le_div_iff_mul_le (Nat.two_pow_pos w)).2 (by omega)
      omega
  · rintro ⟨rfl, rfl⟩
    simp

section Lists

variable {ws : List ℕ} {acc : ℕ}

theorem sumFrom_lt (hacc : acc < 2 ^ w) (hws : ∀ x ∈ ws, x < 2 ^ w) : sumFrom w acc ws < 2 ^ w := by
  induction ws generalizing acc with
  | nil => exact hacc
  | cons x xs ih =>
    exact ih (add_lt hacc (hws x (List.mem_cons_self ..)))
      (fun y hy => hws y (List.mem_cons_of_mem x hy))

theorem sumFrom_mod (w acc : ℕ) (ws : List ℕ) :
    sumFrom w acc ws % (2 ^ w - 1) = (acc + ws.sum) % (2 ^ w - 1) := by
  induction ws generalizing acc with
  | nil => simp [sumFrom]
  | cons x xs ih =>
    calc sumFrom w (add w acc x) xs % (2 ^ w - 1)
        = (add w acc x + xs.sum) % (2 ^ w - 1) := ih _
      _ = (add w acc x % (2 ^ w - 1) + xs.sum) % (2 ^ w - 1) := by rw [Nat.mod_add_mod]
      _ = ((acc + x) % (2 ^ w - 1) + xs.sum) % (2 ^ w - 1) := by rw [add_mod]
      _ = (acc + (x :: xs).sum) % (2 ^ w - 1) := by
        rw [Nat.mod_add_mod, List.sum_cons, Nat.add_assoc]

theorem sumFrom_eq_zero_iff (hacc : acc < 2 ^ w) (hws : ∀ x ∈ ws, x < 2 ^ w) :
    sumFrom w acc ws = 0 ↔ acc = 0 ∧ ∀ x ∈ ws, x = 0 := by
  induction ws generalizing acc with
  | nil => simp [sumFrom]
  | cons x xs ih =>
    have hx : x < 2 ^ w := hws x (List.mem_cons_self ..)
    have hxs : ∀ y ∈ xs, y < 2 ^ w := fun y hy => hws y (List.mem_cons_of_mem x hy)
    show sumFrom w (add w acc x) xs = 0 ↔ _
    rw [ih (add_lt hacc hx) hxs, add_eq_zero_iff hacc hx, List.forall_mem_cons, and_assoc]

theorem sum_lt (hws : ∀ x ∈ ws, x < 2 ^ w) : sum w ws < 2 ^ w :=
  sumFrom_lt (Nat.two_pow_pos w) hws

theorem sum_mod (w : ℕ) (ws : List ℕ) : sum w ws % (2 ^ w - 1) = ws.sum % (2 ^ w - 1) := by
  rw [sum, sumFrom_mod, Nat.zero_add]

/-- The receiver's check: words sum to all ones exactly when their plain sum is a multiple of
`2 ^ w - 1` and they are not all zero. -/
theorem sum_eq_ones_iff (hw : 0 < w) (hws : ∀ x ∈ ws, x < 2 ^ w) :
    sum w ws = 2 ^ w - 1 ↔ ws.sum % (2 ^ w - 1) = 0 ∧ ∃ x ∈ ws, x ≠ 0 := by
  have hlt := sum_lt hws
  have hmod := sum_mod w ws
  have hzero := sumFrom_eq_zero_iff (Nat.two_pow_pos w) hws
  have hM : 1 ≤ 2 ^ w - 1 := by
    have : 2 ≤ 2 ^ w := Nat.le_self_pow (Nat.pos_iff_ne_zero.1 hw) 2
    omega
  constructor
  · intro h
    refine ⟨by rw [← hmod, h, Nat.mod_self], ?_⟩
    by_contra hall
    push Not at hall
    have : sum w ws = 0 := hzero.2 ⟨rfl, hall⟩
    omega
  · rintro ⟨hm, x, hx, hx0⟩
    have hne : sum w ws ≠ 0 := fun h => hx0 ((hzero.1 h).2 x hx)
    rw [hm] at hmod
    exact Nat.eq_of_dvd_of_lt_two_mul hne (Nat.dvd_of_mod_eq_zero hmod) (by omega)

end Lists

section Swap

variable {k x : ℕ}

theorem swap_mod (k x : ℕ) :
    swap k x % (2 ^ (2 * k) - 1) = 2 ^ k * x % (2 ^ (2 * k) - 1) := by
  have hsplit := Nat.div_add_mod x (2 ^ k)
  have hsq : 2 ^ (2 * k) = 2 ^ k * 2 ^ k := by rw [Nat.two_mul, Nat.pow_add]
  have hP : 1 ≤ 2 ^ k := Nat.one_le_two_pow
  have hP2 : 1 ≤ 2 ^ k * 2 ^ k := Nat.one_le_iff_ne_zero.2 (Nat.mul_ne_zero (by omega) (by omega))
  have hmul : 2 ^ k * 2 ^ k * (x / 2 ^ k) =
      (2 ^ k * 2 ^ k - 1) * (x / 2 ^ k) + x / 2 ^ k := by
    rw [Nat.sub_mul, Nat.one_mul, Nat.sub_add_cancel (Nat.le_mul_of_pos_left _ hP2)]
  have hx' : 2 ^ k * x = swap k x + (2 ^ (2 * k) - 1) * (x / 2 ^ k) := by
    unfold swap
    rw [hsq]
    calc 2 ^ k * x = 2 ^ k * (2 ^ k * (x / 2 ^ k) + x % 2 ^ k) := by rw [hsplit]
      _ = 2 ^ k * 2 ^ k * (x / 2 ^ k) + x % 2 ^ k * 2 ^ k := by
        rw [Nat.mul_add, Nat.mul_assoc, Nat.mul_comm (2 ^ k) (x % 2 ^ k)]
      _ = _ := by omega
  rw [hx', Nat.add_mul_mod_self_left]

theorem swap_lt (hx : x < 2 ^ (2 * k)) : swap k x < 2 ^ (2 * k) := by
  unfold swap
  have hsq : 2 ^ (2 * k) = 2 ^ k * 2 ^ k := by rw [Nat.two_mul, Nat.pow_add]
  rw [hsq] at hx ⊢
  have hlo : x % 2 ^ k < 2 ^ k := Nat.mod_lt x (Nat.two_pow_pos k)
  have hhi : x / 2 ^ k < 2 ^ k := Nat.div_lt_of_lt_mul hx
  calc x % 2 ^ k * 2 ^ k + x / 2 ^ k < x % 2 ^ k * 2 ^ k + 2 ^ k := Nat.add_lt_add_left hhi _
    _ = (x % 2 ^ k + 1) * 2 ^ k := by rw [Nat.succ_mul]
    _ ≤ 2 ^ k * 2 ^ k := Nat.mul_le_mul_right _ hlo

theorem swap_eq_zero_iff : swap k x = 0 ↔ x = 0 := by
  unfold swap
  have hsplit := Nat.div_add_mod x (2 ^ k)
  constructor
  · intro h
    obtain ⟨hlo, hhi⟩ := Nat.add_eq_zero_iff.1 h
    rcases Nat.mul_eq_zero.1 hlo with h0 | h0
    · rw [hhi, h0] at hsplit
      omega
    · exact absurd h0 (Nat.two_pow_pos k).ne'
  · rintro rfl
    simp

theorem sum_map_swap_mod (k : ℕ) (ws : List ℕ) :
    (ws.map (swap k)).sum % (2 ^ (2 * k) - 1) = 2 ^ k * ws.sum % (2 ^ (2 * k) - 1) := by
  induction ws with
  | nil => simp
  | cons y ys ih =>
    rw [List.map_cons, List.sum_cons, List.sum_cons, Nat.add_mod, ih, swap_mod k y,
      ← Nat.add_mod, Nat.mul_add]

/-- The check holds in one byte order if it holds in the other. -/
theorem sum_map_swap_eq_ones {ws : List ℕ} (hk : 0 < k) (hws : ∀ x ∈ ws, x < 2 ^ (2 * k))
    (h : sum (2 * k) ws = 2 ^ (2 * k) - 1) :
    sum (2 * k) (ws.map (swap k)) = 2 ^ (2 * k) - 1 := by
  have h2k : 0 < 2 * k := by omega
  have hsw : ∀ y ∈ ws.map (swap k), y < 2 ^ (2 * k) := by
    intro y hy
    obtain ⟨x, hx, rfl⟩ := List.mem_map.1 hy
    exact swap_lt (hws x hx)
  obtain ⟨hm, x, hx, hx0⟩ := (sum_eq_ones_iff h2k hws).1 h
  refine (sum_eq_ones_iff h2k hsw).2 ⟨?_, swap k x, List.mem_map_of_mem hx,
    fun h0 => hx0 (swap_eq_zero_iff.1 h0)⟩
  rw [sum_map_swap_mod, Nat.mul_mod, hm, Nat.mul_zero, Nat.zero_mod]

end Swap

end OnesSum
