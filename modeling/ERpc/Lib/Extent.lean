import Mathlib.Algebra.Group.Nat.Defs
import Mathlib.Data.Multiset.Dedup
import Mathlib.Data.List.Range

/-!
# Ranges that do not meet

An object `a` occupies the range `[lo a, lo a + len a)`. Two objects are `Apart` when their ranges
do not meet, and a multiset of objects is `Separated` when its elements are distinct and pairwise
apart. Separation survives taking a sub-multiset, cutting an element into two apart pieces that
lie inside it (`Separated.split`), adding objects apart from all the others (`Separated.add`),
and it holds of the pieces of a range cut at a fixed stride (`separated_stride`).
-/

namespace Extent

variable {α : Type*} (lo len : α → ℕ)

/-- The ranges of `a` and `b` do not meet. -/
def Apart (a b : α) : Prop := lo a + len a ≤ lo b ∨ lo b + len b ≤ lo a

/-- The range of `a` lies inside `[start, start + size)`. -/
def Within (a : α) (start size : ℕ) : Prop := start ≤ lo a ∧ lo a + len a ≤ start + size

/-- The elements of `s` are distinct and their ranges pairwise do not meet. -/
def Separated (s : Multiset α) : Prop := s.Nodup ∧ ∀ a ∈ s, ∀ b ∈ s, a ≠ b → Apart lo len a b

variable {lo len} {a b c : α} {s t : Multiset α}

theorem Apart.symm (h : Apart lo len a b) : Apart lo len b a := Or.symm h

theorem Apart.len_eq_zero (h : Apart lo len a a) : len a = 0 := by
  unfold Apart at h
  omega

/-- Objects inside ranges that do not meet are apart. -/
theorem Apart.of_within {p q m n : ℕ} (ha : Within lo len a p m) (hb : Within lo len b q n)
    (h : p + m ≤ q ∨ q + n ≤ p) : Apart lo len a b := by
  unfold Within at ha hb
  unfold Apart
  omega

theorem Apart.of_within_left (h : Apart lo len a c) (hb : Within lo len b (lo a) (len a)) :
    Apart lo len b c := by
  unfold Within at hb
  unfold Apart at h ⊢
  omega

theorem Within.trans {p m : ℕ} (hb : Within lo len b (lo a) (len a)) (ha : Within lo len a p m) :
    Within lo len b p m := by
  unfold Within at *
  omega

theorem Within.widen {p m m' : ℕ} (ha : Within lo len a p m) (hm : m ≤ m') : Within lo len a p m' := by
  unfold Within at *
  omega

theorem Separated.zero : Separated lo len (0 : Multiset α) := by
  simp [Separated]

theorem Separated.of_le (h : Separated lo len t) (hst : s ≤ t) : Separated lo len s :=
  ⟨Multiset.nodup_of_le hst h.1,
    fun a ha b hb => h.2 a (Multiset.mem_of_le hst ha) b (Multiset.mem_of_le hst hb)⟩

theorem separated_cons :
    Separated lo len (a ::ₘ s) ↔ a ∉ s ∧ (∀ b ∈ s, Apart lo len a b) ∧ Separated lo len s := by
  constructor
  · rintro ⟨hnd, hap⟩
    obtain ⟨hna, hs⟩ := Multiset.nodup_cons.1 hnd
    refine ⟨hna, fun b hb => ?_, hs, fun x hx y hy => hap x (Multiset.mem_cons_of_mem hx) y
      (Multiset.mem_cons_of_mem hy)⟩
    exact hap a (Multiset.mem_cons_self a s) b (Multiset.mem_cons_of_mem hb)
      (fun e => hna (e ▸ hb))
  · rintro ⟨hna, ha, hs, hap⟩
    refine ⟨Multiset.nodup_cons.2 ⟨hna, hs⟩, fun x hx y hy hxy => ?_⟩
    rcases Multiset.mem_cons.1 hx with rfl | hxs
    · rcases Multiset.mem_cons.1 hy with rfl | hys
      · exact absurd rfl hxy
      · exact ha y hys
    · rcases Multiset.mem_cons.1 hy with rfl | hys
      · exact (ha x hxs).symm
      · exact hap x hxs y hys hxy

/-- Objects of positive length apart from all of `t` can join it. -/
theorem Separated.add (hs : Separated lo len s) (ht : Separated lo len t)
    (hst : ∀ a ∈ s, ∀ b ∈ t, Apart lo len a b) (hpos : ∀ a ∈ s, 0 < len a) :
    Separated lo len (s + t) := by
  have hdisj : Disjoint s t := Multiset.disjoint_left.2 fun ha hb =>
    Nat.pos_iff_ne_zero.1 (hpos _ ha) (hst _ ha _ hb).len_eq_zero
  refine ⟨Multiset.nodup_add.2 ⟨hs.1, ht.1, hdisj⟩, fun x hx y hy hxy => ?_⟩
  rcases Multiset.mem_add.1 hx with hx | hx <;> rcases Multiset.mem_add.1 hy with hy | hy
  · exact hs.2 x hx y hy hxy
  · exact hst x hx y hy
  · exact (hst y hy x hx).symm
  · exact ht.2 x hx y hy hxy

/-- Cutting `a` into two apart pieces of positive length inside it keeps the multiset
separated. -/
theorem Separated.split (h : Separated lo len (a ::ₘ s)) (hb : Within lo len b (lo a) (len a))
    (hc : Within lo len c (lo a) (len a)) (hbc : Apart lo len b c) (hb0 : 0 < len b)
    (hc0 : 0 < len c) : Separated lo len (b ::ₘ c ::ₘ s) := by
  obtain ⟨-, ha, hs⟩ := separated_cons.1 h
  have hnot {x : α} (hx : Within lo len x (lo a) (len a)) (hx0 : 0 < len x) : x ∉ s := by
    intro hxs
    have := (ha x hxs).of_within_left hx
    exact Nat.pos_iff_ne_zero.1 hx0 this.len_eq_zero
  have hcs : Separated lo len (c ::ₘ s) :=
    separated_cons.2 ⟨hnot hc hc0, fun x hx => (ha x hx).of_within_left hc, hs⟩
  refine separated_cons.2 ⟨fun hbm => ?_, fun x hx => ?_, hcs⟩
  · rcases Multiset.mem_cons.1 hbm with rfl | hbs
    · exact Nat.pos_iff_ne_zero.1 hb0 hbc.len_eq_zero
    · exact hnot hb hb0 hbs
  · rcases Multiset.mem_cons.1 hx with rfl | hx
    · exact hbc
    · exact (ha x hx).of_within_left hb

theorem separated_stride (g : ℕ → α) {start k : ℕ} (n : ℕ) (hk : 0 < k)
    (hlo : ∀ i, lo (g i) = start + i * k) (hlen : ∀ i, len (g i) = k) :
    Separated lo len ((List.range n).map g : Multiset α) := by
  have hap {i j : ℕ} (hij : i < j) : Apart lo len (g i) (g j) := by
    have : (i + 1) * k ≤ j * k := Nat.mul_le_mul_right k hij
    unfold Apart
    rw [hlo, hlo, hlen, Nat.succ_mul] at *
    omega
  refine ⟨Multiset.coe_nodup.2 ((List.nodup_range).map_on fun i _ j _ hg => ?_), ?_⟩
  · by_contra hij
    rcases Nat.lt_or_gt_of_ne hij with h | h
    · have := hap h
      rw [hg] at this
      exact absurd this.len_eq_zero (by rw [hlen]; omega)
    · have := hap h
      rw [hg] at this
      exact absurd this.len_eq_zero (by rw [hlen]; omega)
  · intro x hx y hy hxy
    obtain ⟨i, -, rfl⟩ := List.mem_map.1 (Multiset.mem_coe.1 hx)
    obtain ⟨j, -, rfl⟩ := List.mem_map.1 (Multiset.mem_coe.1 hy)
    rcases Nat.lt_trichotomy i j with h | rfl | h
    · exact hap h
    · exact absurd rfl hxy
    · exact (hap h).symm

theorem within_stride (g : ℕ → α) {start k n i : ℕ} (hi : i < n)
    (hlo : ∀ i, lo (g i) = start + i * k) (hlen : ∀ i, len (g i) = k) :
    Within lo len (g i) start (n * k) := by
  have : (i + 1) * k ≤ n * k := Nat.mul_le_mul_right k hi
  unfold Within
  rw [hlo, hlen, Nat.succ_mul] at *
  omega

end Extent
