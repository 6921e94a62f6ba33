import Mathlib.Data.Nat.ModEq
import Yuviz.Distinct

/-!
# Circular buffers

A buffer that is written and read in a circle: what is at the position `p` of an
endless tape is in the slot `p % buf.length`. The buffer *holds* a list from a
position on (`Holds`); how to append to the list, to drop its head and to read
it, when a block is copied that does not go past the end of the buffer.

Positions are kept in 64 bits, and wrap around. If the length of the buffer is
`2 ^ k`, the slot of a position is found with a mask (`toNat_and_mask`), and the
difference of two positions is their distance (`toNat_sub`).
-/

namespace Yuviz.Circular

variable {α : Type*} {buf xs ys : List α} {p i n : ℕ}

/-- `memcpy(buf + i, data)`. -/
def copy (buf : List α) (i : ℕ) (data : List α) : List α :=
  buf.take i ++ data ++ buf.drop (i + data.length)

/-- The buffer holds the list `xs` from the position `p` on. -/
structure Holds (buf : List α) (p : ℕ) (xs : List α) : Prop where
  length_le : xs.length ≤ buf.length
  get : ∀ (i : ℕ) x, xs[i]? = some x → buf[(p + i) % buf.length]? = some x

theorem Holds.nil : Holds buf p [] := ⟨Nat.zero_le _, by simp⟩

theorem Holds.left (h : Holds buf p (xs ++ ys)) : Holds buf p xs := by
  refine ⟨le_trans ?_ h.length_le, fun i x hx => h.get i x ?_⟩
  · rw [List.length_append]
    exact Nat.le_add_right _ _
  · rwa [List.getElem?_append_left (List.getElem?_eq_some_iff.1 hx).1]

theorem Holds.right (h : Holds buf p (xs ++ ys)) : Holds buf (p + xs.length) ys := by
  refine ⟨le_trans ?_ h.length_le, fun i x hx => ?_⟩
  · rw [List.length_append]
    exact Nat.le_add_left _ _
  · rw [Nat.add_assoc]
    refine h.get (xs.length + i) x ?_
    rwa [List.getElem?_append_right (Nat.le_add_right _ _), Nat.add_sub_cancel_left]

theorem length_copy (h : i + xs.length ≤ buf.length) : (copy buf i xs).length = buf.length := by
  rw [copy, List.length_append, List.length_append, List.length_take, List.length_drop]
  omega

theorem getElem?_copy_of_lt (h : i + xs.length ≤ buf.length) (hn : n < xs.length) :
    (copy buf i xs)[i + n]? = xs[n]? := by
  have htake : (buf.take i).length = i := List.length_take_of_le (by omega)
  rw [copy, List.append_assoc, List.getElem?_append_right (by omega), htake,
    Nat.add_sub_cancel_left, List.getElem?_append_left hn]

theorem getElem?_copy_of_not (h : i + xs.length ≤ buf.length) (hn : n < i ∨ i + xs.length ≤ n) :
    (copy buf i xs)[n]? = buf[n]? := by
  have htake : (buf.take i).length = i := List.length_take_of_le (by omega)
  rcases hn with hn | hn
  · rw [copy, List.append_assoc, List.getElem?_append_left (by omega), List.getElem?_take_of_lt hn]
  · rw [copy, List.getElem?_append_right (by rw [List.length_append]; omega), List.getElem?_drop,
      List.length_append, htake, Nat.add_sub_cancel' hn]

/-- A block that does not go past the end is in consecutive slots, -/
theorem mod_add {L d : ℕ} (h : p % L + d < L) : (p + d) % L = p % L + d := by
  rw [← Nat.mod_add_mod, Nat.mod_eq_of_lt h]

/-- and positions that are not a round apart are in different slots. -/
theorem eq_of_mod_eq {L m : ℕ} (h : (p + n) % L = (p + m) % L) (hn : n < L) (hm : m < L) :
    n = m := by
  have hmod : n ≡ m [MOD L] := Nat.ModEq.add_left_cancel' p h
  rwa [Nat.ModEq, Nat.mod_eq_of_lt hn, Nat.mod_eq_of_lt hm] at hmod

/-- A block is copied behind the list, with no slot of the list in it. -/
theorem Holds.copy (h : Holds buf p xs) (hi : i = (p + xs.length) % buf.length)
    (hend : i + ys.length ≤ buf.length) (hfit : xs.length + ys.length ≤ buf.length) :
    Holds (copy buf i ys) p (xs ++ ys) := by
  refine ⟨by rwa [length_copy hend, List.length_append], fun n x hx => ?_⟩
  have hslot {d : ℕ} (hd : d < ys.length) : (p + (xs.length + d)) % buf.length = i + d := by
    rw [← Nat.add_assoc, mod_add (by omega), hi]
  rw [length_copy hend]
  rcases Nat.lt_or_ge n xs.length with hlt | hge
  · rw [List.getElem?_append_left hlt] at hx
    rw [getElem?_copy_of_not hend, h.get n x hx]
    by_contra hnot
    rw [not_or, not_lt, not_le] at hnot
    obtain ⟨d, hd⟩ := Nat.exists_eq_add_of_le hnot.1
    have hdlt : d < ys.length := by omega
    have := eq_of_mod_eq (hd.trans (hslot hdlt).symm) (by omega) (by omega)
    omega
  · have hlt : n - xs.length < ys.length := by
      have := (List.getElem?_eq_some_iff.1 hx).1
      rw [List.length_append] at this
      omega
    rw [List.getElem?_append_right hge] at hx
    rw [← Nat.add_sub_cancel' hge, hslot hlt, getElem?_copy_of_lt hend hlt]
    exact hx

/-- What is read from the slot of the position on is the head of the list. -/
theorem Holds.read (h : Holds buf p xs) (hi : i = p % buf.length) (hend : i + n ≤ buf.length)
    (hn : n ≤ xs.length) : (buf.drop i).take n = xs.take n := by
  refine List.ext_getElem? fun m => ?_
  rcases Nat.lt_or_ge m n with hlt | hge
  · rw [List.getElem?_take_of_lt hlt, List.getElem?_take_of_lt hlt, List.getElem?_drop]
    have hx : xs[m]? = some xs[m] := List.getElem?_eq_getElem (hlt.trans_le hn)
    rw [hx, ← h.get m _ hx, mod_add (by omega), hi]
  · rw [List.getElem?_take_eq_none hge, List.getElem?_take_eq_none hge]

theorem copy_singleton {x : α} (h : i < buf.length) : copy buf i [x] = buf.set i x := by
  rw [copy, List.set_eq_take_append_cons_drop, if_pos h, List.append_assoc]
  rfl

/-! ## Positions in 64 bits -/

theorem toNat_and_mask {k : ℕ} (hk : k < 64) :
    (BitVec.ofNat 64 p &&& (BitVec.ofNat 64 (2 ^ k) - 1)).toNat = p % 2 ^ k := by
  have hlt : 2 ^ k < 2 ^ 64 := Nat.pow_lt_pow_right (by decide) hk
  have hpos : 0 < 2 ^ k := Nat.two_pow_pos k
  have hmask : (BitVec.ofNat 64 (2 ^ k) - 1).toNat = 2 ^ k - 1 := by
    rw [BitVec.toNat_sub_of_le (by
      rw [BitVec.le_def, BitVec.toNat_ofNat, Nat.mod_eq_of_lt hlt]
      exact hpos), BitVec.toNat_ofNat, Nat.mod_eq_of_lt hlt]
    rfl
  rw [BitVec.toNat_and, hmask, Nat.and_two_pow_sub_one_eq_mod, BitVec.toNat_ofNat,
    Nat.mod_mod_of_dvd _ (Nat.pow_dvd_pow 2 hk.le)]

theorem toNat_sub {d : ℕ} (hd : d < 2 ^ 64) :
    (BitVec.ofNat 64 (p + d) - BitVec.ofNat 64 p).toNat = d := by
  rw [BitVec.ofNat_add]
  have : (BitVec.ofNat 64 p + BitVec.ofNat 64 d - BitVec.ofNat 64 p) = BitVec.ofNat 64 d := by
    rw [BitVec.add_comm, BitVec.add_sub_cancel]
  rw [this, BitVec.toNat_ofNat, Nat.mod_eq_of_lt hd]

end Yuviz.Circular
