import Vpn1.Lib.Bytes
import Vpn1.Lib.Fallible

/-! Byte streams that are delivered in pieces, and readers that ask for exact amounts: what a reader
gets and leaves does not depend on where the pieces end. -/

namespace Chunked

open Bytes

/-- What one read of a stream delivers. A read of nothing is the stream's end. -/
abbrev Chunk := {c : List UInt8 // c ≠ []}

def bytes (s : List Chunk) : List UInt8 := s.flatMap Subtype.val

abbrev Reader (ε α : Type) := StateT (List Chunk) (Except ε) α

variable {ε α β : Type}

/-- Ask again until there is enough, and leave what is too much. -/
def gather : Nat → List Chunk → Option (List UInt8 × List Chunk)
  | 0, s => some ([], s)
  | _ + 1, [] => none
  | n + 1, c :: s =>
    if h : c.1.length ≤ n + 1 then
      (gather (n + 1 - c.1.length) s).map fun r => (c.1 ++ r.1, r.2)
    else some (c.1.take (n + 1), ⟨c.1.drop (n + 1), by simpa using h⟩ :: s)

def readExact (eof : ε) (n : Nat) : Reader ε (List UInt8) := fun s =>
  match gather n s with
  | some r => .ok r
  | none => .error eof

def readU8 (eof : ε) : Reader ε UInt8 := do
  let bs ← readExact eof 1
  return bs.headD 0

def readU16 (eof : ε) : Reader ε UInt16 := do
  let bs ← readExact eof 2
  return UInt16.ofNat (ofBigEndian bs)

@[simp] theorem bytes_nil : bytes [] = [] := rfl

@[simp] theorem bytes_cons (c : Chunk) (s : List Chunk) : bytes (c :: s) = c.1 ++ bytes s := rfl

theorem gather_eq_some {n : Nat} {s s' : List Chunk} {bs : List UInt8}
    (h : gather n s = some (bs, s')) : bs.length = n ∧ bytes s = bs ++ bytes s' := by
  induction s generalizing n bs with
  | nil =>
    cases n with
    | zero =>
      cases h
      exact ⟨rfl, rfl⟩
    | succ n => cases h
  | cons c s ih =>
    cases n with
    | zero =>
      cases h
      exact ⟨rfl, rfl⟩
    | succ n =>
      rw [gather] at h
      split at h
      · next hle =>
        obtain ⟨⟨rest, s''⟩, hrest, heq⟩ := Option.map_eq_some_iff.mp h
        cases heq
        obtain ⟨hlength, hbytes⟩ := ih hrest
        constructor
        · rw [List.length_append, hlength]
          omega
        · rw [bytes_cons, hbytes, List.append_assoc]
      · next hlt =>
        cases h
        constructor
        · rw [List.length_take]
          omega
        · rw [bytes_cons, bytes_cons, ← List.append_assoc, List.take_append_drop]

theorem gather_isSome {n : Nat} {s : List Chunk} (h : n ≤ (bytes s).length) :
    (gather n s).isSome = true := by
  induction s generalizing n with
  | nil =>
    cases n with
    | zero => rfl
    | succ n => simp at h
  | cons c s ih =>
    cases n with
    | zero => rfl
    | succ n =>
      rw [gather]
      split
      · rw [bytes_cons, List.length_append] at h
        rw [Option.isSome_map]
        exact ih (by omega)
      · rfl

theorem readExact_eq_ok {eof : ε} {n : Nat} {s s' : List Chunk} {bs : List UInt8}
    (h : readExact eof n s = .ok (bs, s')) : bs.length = n ∧ bytes s = bs ++ bytes s' := by
  apply gather_eq_some
  rw [readExact] at h
  split at h
  · next r hr =>
    cases h
    exact hr
  · cases h

/-- A reader gets what the stream begins with. -/
theorem exists_readExact (eof : ε) {s : List Chunk} {front rest : List UInt8}
    (h : bytes s = front ++ rest) :
    ∃ s', readExact eof front.length s = .ok (front, s') ∧ bytes s' = rest := by
  have hsome : (gather front.length s).isSome = true := by
    apply gather_isSome
    rw [h, List.length_append]
    omega
  obtain ⟨⟨bs, s'⟩, hgather⟩ := Option.isSome_iff_exists.mp hsome
  obtain ⟨hlength, hbytes⟩ := gather_eq_some hgather
  obtain ⟨rfl, hrest⟩ := List.append_inj (hbytes.symm.trans h) hlength
  refine ⟨s', ?_, hrest⟩
  rw [readExact, hgather]

theorem bind_eq_ok {p : Reader ε α} {f : α → Reader ε β} {s : List Chunk} {r : β × List Chunk} :
    (p >>= f) s = .ok r ↔ ∃ a t, p s = .ok (a, t) ∧ f a t = .ok r := by
  change (p s >>= fun x => f x.1 x.2) = .ok r ↔ _
  rw [Fallible.bind_eq_ok, Prod.exists]

theorem bind_of_ok {p : Reader ε α} {f : α → Reader ε β} {s t : List Chunk} {a : α}
    (hp : p s = .ok (a, t)) : (p >>= f) s = f a t := by
  change (p s >>= fun x => f x.1 x.2) = f a t
  rw [hp]
  rfl

theorem pure_eq_ok {a : α} {s : List Chunk} {r : α × List Chunk} :
    (pure a : Reader ε α) s = .ok r ↔ (a, s) = r :=
  ⟨fun h => Except.ok.inj h, fun h => congrArg Except.ok h⟩

theorem throw_ne_ok {e : ε} {s : List Chunk} {r : α × List Chunk} :
    (throw e : Reader ε α) s ≠ .ok r := by
  intro h
  cases h

theorem readU8_eq_ok {eof : ε} {s s' : List Chunk} {b : UInt8}
    (h : readU8 eof s = .ok (b, s')) : bytes s = b :: bytes s' := by
  obtain ⟨bs, t, hread, hpure⟩ := bind_eq_ok.mp h
  obtain ⟨hlength, hbytes⟩ := readExact_eq_ok hread
  obtain ⟨c, rfl⟩ := List.length_eq_one_iff.mp hlength
  cases pure_eq_ok.mp hpure
  exact hbytes

theorem exists_readU8 (eof : ε) {s : List Chunk} {b : UInt8} {rest : List UInt8}
    (h : bytes s = b :: rest) : ∃ s', readU8 eof s = .ok (b, s') ∧ bytes s' = rest := by
  have hfront : bytes s = [b] ++ rest := h
  obtain ⟨s', hread, hrest⟩ := exists_readExact eof hfront
  exact ⟨s', bind_of_ok hread, hrest⟩

theorem bigEndian_toNat_ofNat {bs : List UInt8} (h : bs.length = 2) :
    bigEndian 2 (UInt16.ofNat (ofBigEndian bs)).toNat = bs := by
  have hlt := ofBigEndian_lt bs
  rw [h] at hlt
  rw [UInt16.toNat_ofNat_of_lt' hlt, ← h, bigEndian_ofBigEndian]

theorem readU16_eq_ok {eof : ε} {s s' : List Chunk} {n : UInt16}
    (h : readU16 eof s = .ok (n, s')) : bytes s = bigEndian 2 n.toNat ++ bytes s' := by
  obtain ⟨bs, t, hread, hpure⟩ := bind_eq_ok.mp h
  obtain ⟨hlength, hbytes⟩ := readExact_eq_ok hread
  cases pure_eq_ok.mp hpure
  rw [bigEndian_toNat_ofNat hlength, hbytes]

theorem exists_readU16 (eof : ε) {s : List Chunk} {n : UInt16} {rest : List UInt8}
    (h : bytes s = bigEndian 2 n.toNat ++ rest) :
    ∃ s', readU16 eof s = .ok (n, s') ∧ bytes s' = rest := by
  obtain ⟨s', hread, hrest⟩ := exists_readExact eof h
  rw [length_bigEndian] at hread
  have hvalue : UInt16.ofNat (ofBigEndian (bigEndian 2 n.toNat)) = n := by
    have hlt : n.toNat < 256 ^ 2 := n.toNat_lt
    rw [ofBigEndian_bigEndian, Nat.mod_eq_of_lt hlt, UInt16.ofNat_toNat]
  refine ⟨s', ?_, hrest⟩
  rw [readU16, bind_of_ok hread, hvalue]
  rfl

end Chunked
