import Mathlib.Data.Nat.Basic
import Mathlib.Data.Countable.Basic
import Mathlib.Data.List.Basic
import Mathlib.Logic.Equiv.List
import Mathlib.Tactic.Ring

/-! Byte strings: fixed-width big-endian numbers, sequences of blocks of one size, and codecs. -/

namespace Bytes

/-- The `w` low bytes of `n`, most significant first. -/
def bigEndian : Nat → Nat → List UInt8
  | 0, _ => []
  | w + 1, n => UInt8.ofNat (n / 256 ^ w) :: bigEndian w n

def ofBigEndian : List UInt8 → Nat
  | [] => 0
  | b :: bs => b.toNat * 256 ^ bs.length + ofBigEndian bs

@[simp] theorem length_bigEndian (w n : Nat) : (bigEndian w n).length = w := by
  induction w with
  | zero => rfl
  | succ w ih => simp [bigEndian, ih]

theorem ofBigEndian_lt (bs : List UInt8) : ofBigEndian bs < 256 ^ bs.length := by
  induction bs with
  | nil => simp [ofBigEndian]
  | cons b bs ih =>
    have hb : b.toNat + 1 ≤ 256 := b.toNat_lt
    calc ofBigEndian (b :: bs)
        < b.toNat * 256 ^ bs.length + 256 ^ bs.length := by
          simpa [ofBigEndian] using ih
      _ = (b.toNat + 1) * 256 ^ bs.length := by ring
      _ ≤ 256 * 256 ^ bs.length := Nat.mul_le_mul_right _ hb
      _ = 256 ^ (b :: bs).length := by rw [List.length_cons, pow_succ]; ring

/-- Only the part of the number below the width is written. -/
theorem ofBigEndian_bigEndian (w n : Nat) : ofBigEndian (bigEndian w n) = n % 256 ^ w := by
  induction w with
  | zero => simp [bigEndian, ofBigEndian, Nat.mod_one]
  | succ w ih =>
    have hdigit : (UInt8.ofNat (n / 256 ^ w)).toNat = n / 256 ^ w % 256 := by simp
    rw [bigEndian, ofBigEndian, length_bigEndian, ih, hdigit, pow_succ, Nat.mod_mul]
    ring

theorem bigEndian_inj {w n m : Nat} (hn : n < 256 ^ w) (hm : m < 256 ^ w)
    (h : bigEndian w n = bigEndian w m) : n = m := by
  have hval := congrArg ofBigEndian h
  rwa [ofBigEndian_bigEndian, ofBigEndian_bigEndian, Nat.mod_eq_of_lt hn, Nat.mod_eq_of_lt hm]
    at hval

theorem bigEndian_add_mul (w n k : Nat) : bigEndian w (k * 256 ^ w + n) = bigEndian w n := by
  induction w generalizing k with
  | zero => rfl
  | succ w ih =>
    have hsplit : k * 256 ^ (w + 1) + n = k * 256 * 256 ^ w + n := by rw [pow_succ]; ring
    have hdigit : (k * 256 * 256 ^ w + n) / 256 ^ w = n / 256 ^ w + 256 * k := by
      rw [Nat.add_comm, Nat.add_mul_div_right _ _ (Nat.pow_pos (by decide)), Nat.mul_comm k]
    rw [bigEndian, bigEndian, hsplit, ih, hdigit]
    congr 1
    apply UInt8.toNat_inj.mp
    simp

/-- Every byte string of the width is the encoding of its value. -/
theorem bigEndian_ofBigEndian (bs : List UInt8) : bigEndian bs.length (ofBigEndian bs) = bs := by
  induction bs with
  | nil => rfl
  | cons b bs ih =>
    have hdigit : (b.toNat * 256 ^ bs.length + ofBigEndian bs) / 256 ^ bs.length = b.toNat := by
      rw [Nat.add_comm, Nat.add_mul_div_right _ _ (Nat.pow_pos (by decide)),
        Nat.div_eq_of_lt (ofBigEndian_lt bs), Nat.zero_add]
    rw [List.length_cons, bigEndian, ofBigEndian, hdigit, bigEndian_add_mul, ih, UInt8.ofNat_toNat]

/-- Blocks of one positive size can be told apart in their concatenation. -/
theorem flatMap_inj {α : Type} {f : α → List UInt8} {n : Nat} (hn : 0 < n)
    (hlen : ∀ a, (f a).length = n) (hf : ∀ a b, f a = f b → a = b) :
    ∀ {xs ys : List α}, xs.flatMap f = ys.flatMap f → xs = ys
  | [], [], _ => rfl
  | [], y :: ys, h => by
    have hlength := congrArg List.length h
    simp only [List.flatMap_nil, List.length_nil, List.flatMap_cons, List.length_append, hlen]
      at hlength
    omega
  | x :: xs, [], h => by
    have hlength := congrArg List.length h
    simp only [List.flatMap_nil, List.length_nil, List.flatMap_cons, List.length_append, hlen]
      at hlength
    omega
  | x :: xs, y :: ys, h => by
    simp only [List.flatMap_cons] at h
    obtain ⟨hhead, htail⟩ := List.append_inj h (by rw [hlen, hlen])
    rw [hf x y hhead, flatMap_inj hn hlen hf htail]

end Bytes

section Countable

instance Bytes.countableUInt8 : Countable UInt8 :=
  Function.Injective.countable fun _ _ => UInt8.toNat_inj.mp

instance Bytes.countableUInt32 : Countable UInt32 :=
  Function.Injective.countable fun _ _ => UInt32.toNat_inj.mp

instance Bytes.countableUInt64 : Countable UInt64 :=
  Function.Injective.countable fun _ _ => UInt64.toNat_inj.mp

instance Bytes.countableString : Countable String :=
  Function.Injective.countable (f := fun s => s.toList.map Char.toNat) fun _ _ h =>
    String.toList_inj.mp (List.map_injective_iff.mpr (fun _ _ => Char.toNat_inj.mp) h)

instance Bytes.countableVector {α : Type} {n : Nat} [Countable α] : Countable (Vector α n) :=
  Function.Injective.countable fun _ _ => Vector.toList_inj.mp

end Countable

/-- An encoding of values as byte strings that reads back what it wrote. -/
structure Codec (α : Type) where
  encode : α → List UInt8
  decode : List UInt8 → Option α
  decode_encode : ∀ a, decode (encode a) = some a

attribute [simp] Codec.decode_encode

/-- A codec whose strings end where they say: one that is cut short does not decode. -/
structure Framed (α : Type) extends Codec α where
  decode_take : ∀ a n, n < (encode a).length → decode ((encode a).take n) = none

/-- Whatever can be numbered has such a codec: a number is that many ones and a zero. -/
theorem Framed.nonempty (α : Type) [Countable α] : Nonempty (Framed α) := by
  classical
  obtain ⟨f, hf⟩ := exists_injective_nat α
  let write : α → List UInt8 := fun a => List.replicate (f a) 1 ++ [0]
  have hinj : ∀ a b, write a = write b → a = b := by
    intro a b h
    have hlen := congrArg List.length h
    simp only [write, List.length_append, List.length_replicate, List.length_singleton] at hlen
    exact hf (by omega)
  let read : List UInt8 → Option α := fun l => if h : ∃ a, write a = l then some h.choose else none
  refine ⟨⟨⟨write, read, fun a => ?_⟩, fun a n hn => ?_⟩⟩
  · have hex : ∃ b, write b = write a := ⟨a, rfl⟩
    simp only [read, dif_pos hex]
    exact congrArg some (hinj _ _ hex.choose_spec)
  · -- a proper initial segment has no zero
    have hno : ¬ ∃ b, write b = (write a).take n := by
      intro hex
      obtain ⟨b, hb⟩ := hex
      simp only [write, List.length_append, List.length_replicate, List.length_singleton] at hn
      have hzero : (0 : UInt8) ∈ (write a).take n := hb ▸ by simp [write]
      rw [List.take_append_of_le_length (by simp; omega), List.take_replicate] at hzero
      simpa using List.eq_of_mem_replicate hzero
    exact dif_neg hno
