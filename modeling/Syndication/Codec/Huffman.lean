import Syndication.Codec.Bits
/-!
# Canonical prefix codes

A code is given by the length of each symbol's code word. Words of one length are consecutive
numbers in the order of their symbols, and shorter words come first, so the counts per length and
the symbols in order are all a reader needs.
-/

namespace Syndication.Codec

/-- A canonical prefix code. -/
structure Huffman where
  /-- How many words have length 1, 2, … 15. -/
  counts : List Nat
  /-- The symbols in the order of their words. -/
  symbols : Array Nat

namespace Huffman

/-- The longest code word. -/
def maxLength : Nat := 15

/-- The code with the given word lengths; length 0 means that the symbol does not occur. -/
def ofLengths (lengths : List Nat) : Huffman where
  counts := (List.range maxLength).map fun l => lengths.count (l + 1)
  symbols :=
    ((List.range maxLength).flatMap fun l =>
      lengths.zipIdx.filterMap fun (n, symbol) => if n = l + 1 then some symbol else none).toArray

/-- The share of the code space in use, in units of the longest word: `2 ^ 15` when complete. -/
def weight (h : Huffman) : Nat :=
  (h.counts.zipIdx.map fun (n, i) => n * Nat.pow 2 (maxLength - 1 - i)).foldr (· + ·) 0

/-- Every sequence of bits starts with exactly one word. -/
def IsComplete (h : Huffman) : Prop := h.weight = Nat.pow 2 maxLength

instance (h : Huffman) : Decidable h.IsComplete := inferInstanceAs (Decidable (_ = _))

/-- No symbol occurs, or one does and its word is a single bit; such a code leaves words unused. -/
def IsTrivial (h : Huffman) : Prop := h.symbols.size ≤ 1 ∧ h.counts.head? = some h.symbols.size

instance (h : Huffman) : Decidable h.IsTrivial := inferInstanceAs (Decidable (_ ∧ _))

/-- Reads on in a word of which the bits so far have the value `word`. The words of the current
length are the `n` numbers from `first` on, and `index` symbols have shorter words. Where no longer
words are left, the bits are malformed at once. -/
def walk (symbols : Array Nat) :
    (counts : List Nat) → (word first index : Nat) → Bits.Reader Nat
  | [], _, _, _ => throw .malformed
  | n :: counts, word, first, index => do
    let b ← Bits.bit
    let word := 2 * word + b
    if word < first + n then
      match symbols[index + (word - first)]? with
      | some symbol => pure symbol
      | none => throw .malformed
    else if counts.all (· = 0) then throw .malformed
    else walk symbols counts word (2 * (first + n)) (index + n)

/-- Reads one symbol; bits that start no word are malformed. -/
def read (h : Huffman) : Bits.Reader Nat := walk h.symbols h.counts 0 0 0

end Huffman

end Syndication.Codec
