import Mathlib
import Syndication.Codec.Deflate
import Syndication.Proofs.Codec.Huffman
/-!
# Compressed data read back

The body of a compressed block, as bits: literals, matches and a stop, in the two codes of the block
(`Deflate.Codes`, `Deflate.Symbols`). A match says that bytes further back come again
(`Deflate.IsCopy`); it may reach into what it copies. Reading the body gives the data it stands for
(`Deflate.reads_symbols`).
-/

namespace Syndication.Codec.Deflate

open Bits Huffman

/-! ## Matches -/

/-- Every byte of `copied` is the one `distance` bytes before it, where `before` comes first. -/
structure IsCopy (distance : Nat) (before copied : List UInt8) : Prop where
  pos : 0 < distance
  le : distance ≤ before.length
  eq : ∀ i < copied.length, (before ++ copied)[before.length + i]? =
    (before ++ copied)[before.length + i - distance]?

/-- **What comes again is repeated.** -/
theorem repeatBack_eq {distance : Nat} {before copied : List UInt8}
    (h : IsCopy distance before copied) :
    repeatBack distance copied.length before.toArray = (before ++ copied).toArray := by
  induction copied generalizing before with
  | nil => simp [repeatBack]
  | cons byte copied ih =>
    have hpos := h.pos
    have hle := h.le
    have hbyte : before[before.length - distance]? = some byte := by
      have hfirst := h.eq 0 (Nat.succ_pos _)
      rw [Nat.add_zero, List.getElem?_append_right (Nat.le_refl _), Nat.sub_self] at hfirst
      have hback : (before ++ byte :: copied)[before.length - distance]? =
          before[before.length - distance]? := List.getElem?_append_left (by omega)
      rw [← hback, ← hfirst]
      rfl
    have hnext : IsCopy distance (before ++ [byte]) copied := by
      refine ⟨hpos, by simp; omega, fun i hi => ?_⟩
      have hshift := h.eq (i + 1) (Nat.succ_lt_succ hi)
      rw [List.append_assoc, List.singleton_append, List.length_append, List.length_singleton,
        Nat.add_assoc, Nat.add_comm 1 i]
      exact hshift
    have hget : before.toArray.getD (before.length - distance) 0 = byte := by
      simp [Array.getD_eq_getD_getElem?, hbyte]
    rw [List.length_cons, repeatBack, List.size_toArray, if_pos hle, hget, List.push_toArray,
      ih hnext, List.append_assoc, List.singleton_append]

/-! ## Extra bits -/

/-- A number as an entry of a table and the bits that are added to its base. -/
inductive IsExtended (table : Array (Nat × Nat)) (i : Nat) : Nat → List Bool → Prop
  | add {base width extra : Nat} (hentry : table[i]? = some (base, width))
      (hextra : extra < Nat.pow 2 width) : IsExtended table i (base + extra) (low width extra)

theorem reads_extended {table : Array (Nat × Nat)} {i n pos : Nat} {bits : List Bool}
    (h : IsExtended table i n bits) : Reads pos (extended table i) bits n := by
  obtain ⟨hentry, hextra⟩ := h
  rw [extended, hentry]
  exact (reads_number hextra).bind_pure rfl

/-! ## Symbols -/

/-- The lengths of the two codes of a block. -/
structure Codes where
  /-- Literals, the stop and lengths of matches. -/
  literals : List Nat
  /-- Distances of matches. -/
  distances : List Nat

/-- The body of a compressed block: after the data `before`, its bits make the data `after`. -/
inductive Symbols (codes : Codes) : (before : List UInt8) → List Bool → (after : List UInt8) → Prop
  | stop {before : List UInt8} {word : List Bool} (hword : IsWord codes.literals 256 word) :
      Symbols codes before word before
  | literal {before after : List UInt8} {byte : UInt8} {word bits : List Bool}
      (hword : IsWord codes.literals byte.toNat word)
      (rest : Symbols codes (before ++ [byte]) bits after) :
      Symbols codes before (word ++ bits) after
  | copy {before copied after : List UInt8} {i far distance : Nat}
      {word extra farWord farExtra bits : List Bool}
      (hword : IsWord codes.literals (257 + i) word)
      (hlength : IsExtended lengths i copied.length extra)
      (hfar : IsWord codes.distances far farWord)
      (hdistance : IsExtended distances far distance farExtra)
      (hcopy : IsCopy distance before copied)
      (rest : Symbols codes (before ++ copied) bits after) :
      Symbols codes before (word ++ (extra ++ (farWord ++ (farExtra ++ bits)))) after

/-- **The body of a compressed block reads as the data it makes.** -/
theorem reads_symbols {codes : Codes} {before after : List UInt8} {bits : List Bool}
    (h : Symbols codes before bits after) {pos steps : Nat} (hsteps : bits.length ≤ steps) :
    Reads pos (symbols (ofLengths codes.literals) (ofLengths codes.distances) steps
      before.toArray) bits after.toArray := by
  induction h generalizing pos steps with
  | stop hword =>
    have hpos := List.length_pos_of_ne_nil hword.ne_nil
    obtain ⟨steps, rfl⟩ := Nat.exists_eq_add_of_lt (Nat.lt_of_lt_of_le hpos hsteps)
    rw [Nat.zero_add, symbols]
    exact (reads_word hword).bind_pure rfl
  | @literal before after byte word bits hword _ ih =>
    have hpos := List.length_pos_of_ne_nil hword.ne_nil
    rw [List.length_append] at hsteps
    obtain ⟨steps, rfl⟩ : ∃ n, steps = n + 1 := ⟨steps - 1, by omega⟩
    rw [symbols]
    refine (reads_word hword).bind ?_
    rw [if_pos byte.toNat_lt, UInt8.ofNat_toNat, List.push_toArray]
    exact ih (by omega)
  | @copy before copied after i far distance word extra farWord farExtra bits hword hlength hfar
      hdistance hcopy _ ih =>
    have hpos := List.length_pos_of_ne_nil hword.ne_nil
    simp only [List.length_append] at hsteps
    obtain ⟨steps, rfl⟩ : ∃ n, steps = n + 1 := ⟨steps - 1, by omega⟩
    rw [symbols]
    refine (reads_word hword).bind ?_
    rw [if_neg (by omega), if_neg (by omega), Nat.add_sub_cancel_left]
    refine (reads_extended hlength).bind ((reads_word hfar).bind
      ((reads_extended hdistance).bind ?_))
    rw [repeatBack_eq hcopy]
    exact ih (by omega)

end Syndication.Codec.Deflate
