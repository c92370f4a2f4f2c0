import Mathlib.Data.List.TakeWhile
import Mathlib.Logic.Function.Defs

/-! Text as UTF-8: slices at byte offsets, and scans for bytes of the ASCII range. -/

namespace Utf8

def bytes (cs : List Char) : List UInt8 := cs.flatMap String.utf8EncodeChar

/-- A text before and behind a byte offset, if no character lies across it. -/
def splitAt? : List Char → Nat → Option (List Char × List Char)
  | cs, 0 => some ([], cs)
  | [], _ + 1 => none
  | c :: cs, n + 1 =>
    if c.utf8Size ≤ n + 1 then
      (splitAt? cs (n + 1 - c.utf8Size)).map fun s => (c :: s.1, s.2)
    else none

def slice? (cs : List Char) (start stop : Nat) : Option (List Char) :=
  (splitAt? cs stop).bind fun s => (splitAt? s.1 start).map Prod.snd

/-- A character that is one byte, with a property of that byte. -/
def onAscii (p : UInt8 → Bool) (c : Char) : Bool := decide (c.toNat < 128) && p c.val.toUInt8

@[simp] theorem bytes_nil : bytes [] = [] := rfl

@[simp] theorem bytes_cons (c : Char) (cs : List Char) :
    bytes (c :: cs) = String.utf8EncodeChar c ++ bytes cs := rfl

@[simp] theorem bytes_append (xs ys : List Char) : bytes (xs ++ ys) = bytes xs ++ bytes ys :=
  List.flatMap_append

theorem bytes_eq_toByteArray (s : String) : bytes s.toList = s.toByteArray.data.toList := by
  rw [← String.utf8Encode_toList]
  exact (congrArg Array.toList List.data_toByteArray).symm

theorem bytes_injective : Function.Injective bytes := by
  intro xs ys h
  have hstrings : String.ofList xs = String.ofList ys := by
    rw [← String.toByteArray_inj, ByteArray.ext_iff, ← Array.toList_inj, ← bytes_eq_toByteArray,
      ← bytes_eq_toByteArray, String.toList_ofList, String.toList_ofList, h]
  rwa [← String.toList_inj, String.toList_ofList, String.toList_ofList] at hstrings

/-- The text that bytes encode, if they encode one. -/
def text? (bs : List UInt8) : Option String := String.fromUTF8? ⟨⟨bs⟩⟩

theorem text?_eq_some_iff {bs : List UInt8} {s : String} : text? bs = some s ↔ bs = bytes s.toList := by
  rw [bytes_eq_toByteArray, text?, String.fromUTF8?]
  constructor
  · intro h
    split_ifs at h
    obtain rfl := Option.some.inj h
    rfl
  · rintro rfl
    rw [dif_pos s.isValidUTF8]
    rfl

theorem isSome_text?_iff {bs : List UInt8} : (text? bs).isSome = true ↔ ∃ cs, bs = bytes cs := by
  rw [Option.isSome_iff_exists]
  constructor
  · rintro ⟨s, hs⟩
    exact ⟨s.toList, text?_eq_some_iff.mp hs⟩
  · rintro ⟨cs, rfl⟩
    exact ⟨String.ofList cs, text?_eq_some_iff.mpr (by rw [String.toList_ofList])⟩

theorem isSome_text?_append {as bs : List UInt8} (ha : (text? as).isSome = true)
    (hb : (text? bs).isSome = true) : (text? (as ++ bs)).isSome = true := by
  obtain ⟨xs, rfl⟩ := isSome_text?_iff.mp ha
  obtain ⟨ys, rfl⟩ := isSome_text?_iff.mp hb
  exact isSome_text?_iff.mpr ⟨xs ++ ys, (bytes_append xs ys).symm⟩

/-- The byte 0xff occurs in no encoding. -/
theorem isSome_text?_of_mem_ff {bs : List UInt8} (h : 0xff ∈ bs) : (text? bs).isSome = false := by
  rw [Bool.eq_false_iff]
  intro htext
  obtain ⟨cs, rfl⟩ := isSome_text?_iff.mp htext
  obtain ⟨c, -, hc⟩ := List.mem_flatMap.mp h
  unfold String.utf8EncodeChar at hc
  dsimp only at hc
  have hff : (0xff : UInt8).toNat = 255 := rfl
  split_ifs at hc
  all_goals
    simp only [List.mem_cons, List.not_mem_nil, or_false, ← UInt8.toNat_inj, UInt8.toNat_ofNat',
      hff] at hc
    omega

@[simp] theorem bytes_eq_nil {cs : List Char} : bytes cs = [] ↔ cs = [] := by
  cases cs with
  | nil => simp
  | cons c cs => simp [String.utf8EncodeChar_ne_nil]

theorem splitAt?_append (xs ys : List Char) :
    splitAt? (xs ++ ys) (bytes xs).length = some (xs, ys) := by
  induction xs with
  | nil =>
    cases ys <;> rfl
  | cons c xs ih =>
    have hpos : 0 < c.utf8Size := c.utf8Size_pos
    obtain ⟨n, hn⟩ : ∃ n, (bytes (c :: xs)).length = n + 1 := by
      refine ⟨(bytes (c :: xs)).length - 1, ?_⟩
      rw [bytes_cons, List.length_append, String.length_utf8EncodeChar]
      omega
    have hrest : n + 1 - c.utf8Size = (bytes xs).length := by
      rw [← hn, bytes_cons, List.length_append, String.length_utf8EncodeChar]
      omega
    have hle : c.utf8Size ≤ n + 1 := by
      rw [← hn, bytes_cons, List.length_append, String.length_utf8EncodeChar]
      omega
    rw [hn, List.cons_append, splitAt?, if_pos hle, hrest, ih]
    rfl

theorem slice?_append (xs ys zs : List Char) :
    slice? (xs ++ ys ++ zs) (bytes xs).length (bytes (xs ++ ys)).length = some ys := by
  unfold slice?
  rw [splitAt?_append, Option.bind_some, splitAt?_append]
  rfl

section Ascii

variable {p : UInt8 → Bool} {c : Char} {cs : List Char}

/-- A property of the ASCII characters can be read off a table. -/
theorem ascii_forall {P : Char → Prop} (h : ∀ n < 128, P (Char.ofNat n)) (hc : c.toNat < 128) :
    P c := by
  have hentry := h c.toNat hc
  rwa [Char.ofNat_toNat] at hentry

theorem lt_of_isAlphanum (hc : c.isAlphanum = true) : c.toNat < 128 := by
  have hval : c.toNat = c.val.toNat := rfl
  change (c.isUpper || c.isLower || c.isDigit) = true at hc
  rw [Bool.or_eq_true, Bool.or_eq_true] at hc
  rcases hc with (hc | hc) | hc
  · have hle : c.val ≤ 'Z'.val := (of_decide_eq_true hc).2
    have : 'Z'.val.toNat = 90 := rfl
    rw [UInt32.le_iff_toNat_le] at hle
    omega
  · have hle : c.val ≤ 'z'.val := of_decide_eq_true (Bool.and_eq_true_iff.mp hc).2
    have : 'z'.val.toNat = 122 := rfl
    rw [UInt32.le_iff_toNat_le] at hle
    omega
  · have hle : c.val ≤ '9'.val := of_decide_eq_true (Bool.and_eq_true_iff.mp hc).2
    have : '9'.val.toNat = 57 := rfl
    rw [UInt32.le_iff_toNat_le] at hle
    omega

theorem utf8EncodeChar_of_lt (hc : c.toNat < 128) : String.utf8EncodeChar c = [c.val.toUInt8] := by
  apply String.utf8EncodeChar_eq_singleton
  have hle : c.val ≤ 0x7f := UInt32.le_iff_toNat_le.mpr (Nat.le_of_lt_succ hc)
  simp [Char.utf8Size, hle]

theorem le_of_mem_utf8EncodeChar (hc : 128 ≤ c.toNat) {b : UInt8}
    (hb : b ∈ String.utf8EncodeChar c) : 128 ≤ b.toNat := by
  have hv : 128 ≤ c.val.toNat := hc
  unfold String.utf8EncodeChar at hb
  dsimp only at hb
  split_ifs at hb
  · omega
  all_goals
    simp only [List.mem_cons, List.not_mem_nil, or_false] at hb
    rcases hb with rfl | rfl | rfl | rfl <;> simp only [UInt8.toNat_ofNat'] <;> omega

theorem bytes_of_lt (hcs : ∀ c ∈ cs, c.toNat < 128) : bytes cs = cs.map fun c => c.val.toUInt8 := by
  induction cs with
  | nil => rfl
  | cons c cs ih =>
    obtain ⟨hc, hrest⟩ := List.forall_mem_cons.mp hcs
    rw [bytes_cons, utf8EncodeChar_of_lt hc, ih hrest]
    rfl

/-- Bytes of the ASCII range encode a text. -/
theorem isSome_text?_of_ascii {bs : List UInt8} (h : ∀ b ∈ bs, b.toNat < 128) :
    (text? bs).isSome = true := by
  have hchar (b : UInt8) (hb : b.toNat < 128) : (Char.ofNat b.toNat).toNat = b.toNat := by
    have hvalid : b.toNat.isValidChar := .inl (by omega)
    have hchar : Char.ofNat b.toNat = Char.ofNatAux b.toNat hvalid := dif_pos hvalid
    rw [hchar]
    rfl
  have hbytes : bytes (bs.map fun b => Char.ofNat b.toNat) = bs := by
    rw [bytes_of_lt]
    · rw [List.map_map]
      refine (List.map_congr_left fun b hb => ?_).trans (List.map_id bs)
      have hval : (Char.ofNat b.toNat).val.toNat = b.toNat := hchar b (h b hb)
      rw [Function.comp_apply, ← UInt8.toNat_inj, UInt32.toNat_toUInt8, hval]
      exact Nat.mod_eq_of_lt b.toNat_lt
    · intro c hc
      obtain ⟨b, hb, rfl⟩ := List.mem_map.mp hc
      rw [hchar b (h b hb)]
      exact h b hb
  exact isSome_text?_iff.mpr ⟨_, hbytes.symm⟩

variable (hp : ∀ b, p b = true → b.toNat < 128)
include hp

/-- No byte of a character outside the property has it. -/
theorem eq_false_of_onAscii (hc : onAscii p c = false) :
    ∀ b ∈ String.utf8EncodeChar c, p b = false := by
  intro b hb
  by_cases hascii : c.toNat < 128
  · rw [utf8EncodeChar_of_lt hascii, List.mem_singleton] at hb
    simpa [onAscii, hascii, hb] using hc
  · by_contra htrue
    have hlt := hp b (Bool.not_eq_false _ ▸ htrue)
    have hle := le_of_mem_utf8EncodeChar (Nat.le_of_not_lt hascii) hb
    omega

end Ascii

end Utf8
