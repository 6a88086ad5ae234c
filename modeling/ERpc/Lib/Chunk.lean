import Mathlib.Algebra.Group.Nat.Defs
import Mathlib.Order.Basic
import Mathlib.Data.List.GetD

/-!
# Cutting a buffer into chunks and writing them back

A message of `n` elements held in `f : ℕ → α` travels as chunks of at most `D` elements: chunk
`k` carries positions `k * D, k * D + 1, …`, `min D (n - k * D)` of them (`slice`). A receiver
copies a chunk into its own buffer at offset `k * D` (`write`, a `memcpy` of `len` elements from
a list into a buffer).

Writing chunk `k` puts back exactly the positions it carries (`write_slice_apply`), so a buffer
that agrees with `f` below `k * D` agrees with it below `min ((k + 1) * D) n` once chunk `k` is
written (`Agree.write_slice`): chunks written in order `0, 1, …` reassemble the message.
-/

namespace Chunk

variable {α : Type*}

/-- Chunk `k` of the `n` elements of `f`, cut every `D` elements. -/
def slice (f : ℕ → α) (D k n : ℕ) : List α :=
  (List.range (min D (n - k * D))).map fun j => f (k * D + j)

/-- `buf` holds `f`'s first `m` elements. -/
def Agree (buf f : ℕ → α) (m : ℕ) : Prop := ∀ b < m, buf b = f b

@[simp] theorem length_slice (f : ℕ → α) (D k n : ℕ) :
    (slice f D k n).length = min D (n - k * D) := by
  simp [slice]

theorem getD_slice {f : ℕ → α} {D k n j : ℕ} (d : α) (h : j < min D (n - k * D)) :
    (slice f D k n).getD j d = f (k * D + j) := by
  simp [slice, List.getD_eq_getElem?_getD, List.getElem?_range h]

theorem Agree.mono {buf f : ℕ → α} {m m' : ℕ} (h : Agree buf f m) (hm : m' ≤ m) :
    Agree buf f m' :=
  fun b hb => h b (by omega)

variable [Inhabited α]

/-- `memcpy (buf + off, src, len)`: positions `off ≤ b < off + len` take `src`'s elements. -/
def write (buf : ℕ → α) (off : ℕ) (src : List α) (len : ℕ) : ℕ → α :=
  fun b => if off ≤ b ∧ b < off + len then src.getD (b - off) default else buf b

theorem write_apply_of_mem {buf : ℕ → α} {off b len : ℕ} {src : List α}
    (h1 : off ≤ b) (h2 : b < off + len) : write buf off src len b = src.getD (b - off) default := by
  simp [write, h1, h2]

theorem write_apply_of_lt {buf : ℕ → α} {off b len : ℕ} {src : List α} (h : b < off) :
    write buf off src len b = buf b := by
  simp only [write]
  rw [if_neg (by omega)]

theorem write_apply_of_le {buf : ℕ → α} {off b len : ℕ} {src : List α} (h : off + len ≤ b) :
    write buf off src len b = buf b := by
  simp only [write]
  rw [if_neg (by omega)]

theorem write_slice_apply (buf f : ℕ → α) {D k n b : ℕ} (h1 : k * D ≤ b)
    (h2 : b < k * D + min D (n - k * D)) :
    write buf (k * D) (slice f D k n) (min D (n - k * D)) b = f b := by
  rw [write_apply_of_mem h1 h2, getD_slice _ (by omega)]
  congr 1
  omega

/-- Writing chunk `k` after chunks `0, …, k - 1` extends the agreement by that chunk. -/
theorem Agree.write_slice {buf f : ℕ → α} {D k n : ℕ} (h : Agree buf f (k * D)) :
    Agree (write buf (k * D) (slice f D k n) (min D (n - k * D))) f (min ((k + 1) * D) n) := by
  intro b hb
  by_cases hlt : b < k * D
  · rw [write_apply_of_lt hlt]
    exact h b hlt
  · have hkD : (k + 1) * D = k * D + D := by rw [Nat.succ_mul]
    exact write_slice_apply buf f (by omega) (by omega)

theorem Agree.write_slice_zero (buf f : ℕ → α) {D n : ℕ} (h : n ≤ D) :
    Agree (write buf 0 (slice f D 0 n) n) f n := by
  have hmin : min D (n - 0 * D) = n := by rw [Nat.zero_mul, Nat.sub_zero]; omega
  intro b hb
  have := write_slice_apply buf f (D := D) (k := 0) (n := n) (b := b) (by omega) (by omega)
  rwa [hmin, Nat.zero_mul] at this

end Chunk
