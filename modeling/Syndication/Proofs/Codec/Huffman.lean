import Mathlib
import Syndication.Codec.Huffman
import Syndication.Proofs.Codec.Bits
/-!
# Code words read back

The words of a canonical code by their definition: a word has the length given for its symbol,
words of one length are consecutive numbers in the order of the symbols, and the first of them
follows the words of the length before, with a zero added (`Huffman.IsWord`, `Huffman.firstWord`). A
code read by `Huffman.read` gives the symbol of every word (`Huffman.reads_word`): the bits read so
far stay at or above the words of their length until the last one.

A code may be used if every sequence of bits starts with a word, or if it has at most one word and
that is a single bit (`Huffman.IsValid`). Reading accepts such a code
(`Huffman.IsValid.isComplete_or_isTrivial`).
-/

namespace Syndication.Codec.Huffman

open Bits

/-! ## Words -/

/-- The number that bits add to, high bit first. -/
def valueFrom (value : Nat) (bits : List Bool) : Nat :=
  bits.foldl (fun value b => 2 * value + b.toNat) value

/-- The first word of a length. -/
def firstWord (lengths : List Nat) : (length : Nat) → Nat
  | 0 => 0
  | length + 1 => 2 * (firstWord lengths length + if length = 0 then 0 else lengths.count length)

/-- The bits of the word of a symbol, high bit first. -/
structure IsWord (lengths : List Nat) (symbol : Nat) (bits : List Bool) : Prop where
  length_eq : lengths[symbol]? = some bits.length
  ne_nil : bits ≠ []
  length_le : bits.length ≤ maxLength
  value_eq : valueFrom 0 bits =
    firstWord lengths bits.length + (lengths.take symbol).count bits.length

/-- Further bits leave a number below what its successor becomes. -/
theorem valueFrom_lt (value : Nat) (bits : List Bool) :
    valueFrom value bits < (value + 1) * Nat.pow 2 bits.length := by
  induction bits generalizing value with
  | nil => simp [valueFrom]
  | cons b bits ih =>
    have hnext : 2 * value + b.toNat + 1 ≤ (value + 1) * 2 := by
      have := b.toNat_le
      omega
    calc valueFrom (2 * value + b.toNat) bits
        < (2 * value + b.toNat + 1) * Nat.pow 2 bits.length := ih _
      _ ≤ (value + 1) * 2 * Nat.pow 2 bits.length := Nat.mul_le_mul_right _ hnext
      _ = (value + 1) * Nat.pow 2 (b :: bits).length := by
        rw [List.length_cons, Nat.mul_assoc, Nat.mul_comm 2]
        rfl

theorem firstWord_succ (lengths : List Nat) {length : Nat} (hpos : 0 < length) :
    firstWord lengths (length + 1) = 2 * (firstWord lengths length + lengths.count length) := by
  rw [firstWord, if_neg (Nat.ne_of_gt hpos)]

/-- Words of a greater length come after all words of a length. -/
theorem firstWord_le (lengths : List Nat) {length : Nat} (hpos : 0 < length) (more : Nat) :
    (firstWord lengths length + lengths.count length) * Nat.pow 2 (more + 1) ≤
      firstWord lengths (length + more + 1) := by
  induction more with
  | zero =>
    rw [Nat.add_zero, firstWord_succ lengths hpos, Nat.mul_comm]
  | succ more ih =>
    rw [← Nat.add_assoc, firstWord_succ lengths (by omega)]
    change _ * (Nat.pow 2 (more + 1) * 2) ≤ _
    rw [← Nat.mul_assoc]
    omega

/-! ## Symbols in order -/

/-- The symbols of a length. -/
def symbolsOf (lengths : List Nat) (length : Nat) : List Nat :=
  lengths.zipIdx.filterMap fun (n, symbol) => if n = length then some symbol else none

theorem symbols_ofLengths (lengths : List Nat) : (ofLengths lengths).symbols =
    ((List.range maxLength).flatMap fun l => symbolsOf lengths (l + 1)).toArray := rfl

theorem length_filterMap_zipIdx (lengths : List Nat) (length start : Nat) :
    ((lengths.zipIdx start).filterMap fun (n, symbol) =>
      if n = length then some symbol else none).length = lengths.count length := by
  induction lengths generalizing start with
  | nil => rfl
  | cons n lengths ih =>
    rw [List.zipIdx_cons, List.filterMap_cons, List.count_cons]
    by_cases h : n = length <;> simp [h, ih]

theorem length_symbolsOf (lengths : List Nat) (length : Nat) :
    (symbolsOf lengths length).length = lengths.count length := length_filterMap_zipIdx ..

/-- As many symbols of its length come before a symbol as are smaller. -/
theorem symbolsOf_getElem? {lengths : List Nat} {symbol length : Nat}
    (h : lengths[symbol]? = some length) :
    (symbolsOf lengths length)[(lengths.take symbol).count length]? = some symbol := by
  obtain ⟨hlt, hget⟩ := List.getElem?_eq_some_iff.1 h
  have hsplit : lengths = lengths.take symbol ++ length :: lengths.drop (symbol + 1) := by
    rw [← hget, ← List.drop_eq_getElem_cons hlt, List.take_append_drop]
  have htake : (lengths.take symbol).length = symbol := List.length_take_of_le (Nat.le_of_lt hlt)
  have hbefore := length_filterMap_zipIdx (lengths.take symbol) length 0
  rw [symbolsOf]
  conv_lhs => rw [hsplit]
  rw [List.zipIdx_append, List.filterMap_append, ← hsplit,
    List.getElem?_append_right (Nat.le_of_eq hbefore), hbefore, htake, Nat.sub_self, Nat.zero_add,
    List.zipIdx_cons, List.filterMap_cons]
  simp

theorem count_take_lt {lengths : List Nat} {symbol length : Nat}
    (h : lengths[symbol]? = some length) :
    (lengths.take symbol).count length < lengths.count length := by
  rw [← length_symbolsOf lengths]
  exact (List.getElem?_eq_some_iff.1 (symbolsOf_getElem? h)).1

/-- How many words are shorter than `length + 1`. -/
def shorter (lengths : List Nat) (length : Nat) : Nat :=
  ((List.range length).map fun l => lengths.count (l + 1)).sum

theorem shorter_succ (lengths : List Nat) (length : Nat) :
    shorter lengths (length + 1) = shorter lengths length + lengths.count (length + 1) := by
  simp [shorter, List.range_succ]

/-- The symbol of a length stands after those of shorter words. -/
theorem symbols_getElem? {lengths : List Nat} {symbol length : Nat} (hlt : length < maxLength)
    (h : lengths[symbol]? = some (length + 1)) :
    (ofLengths lengths).symbols[shorter lengths length +
      (lengths.take symbol).count (length + 1)]? = some symbol := by
  have hfound := symbolsOf_getElem? h
  have hlen : ((List.range length).flatMap fun l => symbolsOf lengths (l + 1)).length =
      shorter lengths length := by
    simp [List.length_flatMap, length_symbolsOf, shorter]
  obtain ⟨more, hmore⟩ : ∃ more, maxLength = length + 1 + more :=
    ⟨maxLength - (length + 1), by omega⟩
  rw [symbols_ofLengths, List.getElem?_toArray, hmore, List.range_add, List.range_succ,
    List.flatMap_append, List.flatMap_append, List.append_assoc,
    List.getElem?_append_right (by rw [hlen]; exact Nat.le_add_right _ _), hlen,
    Nat.add_sub_cancel_left, List.flatMap_singleton]
  rw [List.getElem?_append_left (List.getElem?_eq_some_iff.1 hfound).1, hfound]

/-! ## Reading words -/

theorem counts_drop {lengths : List Nat} {length : Nat} (h : length < maxLength) :
    (ofLengths lengths).counts.drop length =
      lengths.count (length + 1) :: (ofLengths lengths).counts.drop (length + 1) := by
  rw [List.drop_eq_getElem_cons (by simpa [ofLengths] using h)]
  simp [ofLengths]

/-- Words of a length that occurs are left to read. -/
theorem counts_drop_ne {lengths : List Nat} {read length symbol : Nat} (hlt : length < maxLength)
    (hread : read ≤ length) (h : lengths[symbol]? = some (length + 1)) :
    ((ofLengths lengths).counts.drop read).all (· = 0) = false := by
  have hmem : length + 1 ∈ lengths := List.mem_of_getElem? h
  rw [List.all_eq_false]
  refine ⟨lengths.count (length + 1), ?_, ?_⟩
  · rw [List.mem_drop_iff_getElem]
    refine ⟨length - read, by simp [ofLengths]; omega, ?_⟩
    simp [ofLengths, Nat.add_sub_cancel' hread]
  · simpa [List.count_eq_zero] using hmem

/-- The bits of a word from some bit on lead to its symbol. -/
theorem reads_walk {lengths : List Nat} {symbol length : Nat} (hle : length ≤ maxLength)
    (hsymbol : lengths[symbol]? = some length) (bits : List Bool) {pos read word : Nat}
    (hne : bits ≠ []) (hlength : read + bits.length = length)
    (hvalue : valueFrom word bits =
      firstWord lengths length + (lengths.take symbol).count length) :
    Reads pos (walk (ofLengths lengths).symbols ((ofLengths lengths).counts.drop read) word
      (firstWord lengths (read + 1)) (shorter lengths read)) bits symbol := by
  induction bits generalizing pos read word with
  | nil => exact absurd rfl hne
  | cons b bits ih =>
    rw [List.length_cons] at hlength
    rw [counts_drop (by omega), walk]
    cases bits with
    | nil =>
      -- the last bit: the word is one of its length
      obtain rfl : length = read + 1 := by simpa using hlength.symm
      have hword : 2 * word + b.toNat = firstWord lengths (read + 1) +
          (lengths.take symbol).count (read + 1) := hvalue
      have hrank := count_take_lt hsymbol
      refine (reads_bit b).bind_pure ?_
      simp only
      rw [if_pos (by omega), hword, Nat.add_sub_cancel_left,
        symbols_getElem? (Nat.lt_of_succ_le hle) hsymbol]
    | cons b' bits =>
      -- a longer word: these bits are past the words of their length
      obtain ⟨more, rfl⟩ : ∃ more, length = read + 1 + more + 1 :=
        ⟨bits.length, by rw [← hlength, List.length_cons]; omega⟩
      have hmore : (b' :: bits).length = more + 1 := by omega
      have hbelow := valueFrom_lt (2 * word + b.toNat) (b' :: bits)
      rw [hmore] at hbelow
      have hpast := firstWord_le lengths (Nat.succ_pos read) more
      have hle' : firstWord lengths (read + 1) + lengths.count (read + 1) ≤
          2 * word + b.toNat := by
        refine Nat.le_of_lt_succ (Nat.lt_of_mul_lt_mul_right (a := Nat.pow 2 (more + 1)) ?_)
        calc _ ≤ firstWord lengths (read + 1 + more + 1) := hpast
          _ ≤ valueFrom word (b :: b' :: bits) := by rw [hvalue]; exact Nat.le_add_right _ _
          _ < _ := hbelow
      change Reads pos _ ([b] ++ b' :: bits) symbol
      refine (reads_bit b).bind ?_
      simp only
      rw [if_neg (by omega), counts_drop_ne (by omega) (by omega) hsymbol]
      rw [← firstWord_succ lengths (Nat.succ_pos read), ← shorter_succ]
      exact ih (List.cons_ne_nil b' bits) (by omega) hvalue

/-- **Every word of a code reads as its symbol.** -/
theorem reads_word {lengths : List Nat} {symbol pos : Nat} {bits : List Bool}
    (h : IsWord lengths symbol bits) : Reads pos (ofLengths lengths).read bits symbol :=
  reads_walk h.length_le h.length_eq bits h.ne_nil (Nat.zero_add _) h.value_eq

/-! ## Codes that may be used -/

/-- The share of the code space that a word of a length takes, in units of the longest word. -/
def share (length : Nat) : Nat := if length = 0 then 0 else Nat.pow 2 (maxLength - length)

/-- The lengths of a code: the words take up the code space, or there is at most one word, of a
single bit. -/
structure IsValid (lengths : List Nat) : Prop where
  le : ∀ length ∈ lengths, length ≤ maxLength
  fits : (lengths.map share).sum = Nat.pow 2 maxLength ∨ lengths.filter (· ≠ 0) = [] ∨
    lengths.filter (· ≠ 0) = [1]

theorem weight_ofLengths (lengths : List Nat) : (ofLengths lengths).weight =
    ∑ l ∈ Finset.range maxLength, lengths.count (l + 1) * share (l + 1) := by
  simp [weight, ofLengths, maxLength, List.range_succ, Finset.sum_range_succ, share]
  ring

/-- The share of a code is that of all its words. -/
theorem weight_eq_sum {lengths : List Nat} (h : ∀ length ∈ lengths, length ≤ maxLength) :
    (ofLengths lengths).weight = (lengths.map share).sum := by
  have hsubset : lengths.toFinset ⊆ Finset.range (maxLength + 1) := fun length hmem =>
    Finset.mem_range.2 (Nat.lt_succ_of_le (h length (List.mem_toFinset.1 hmem)))
  rw [Finset.sum_list_map_count, Finset.sum_subset hsubset, Finset.sum_range_succ',
    weight_ofLengths]
  · simp [share]
  · intro length _ hmem
    rw [List.count_eq_zero.2 (fun h => hmem (List.mem_toFinset.2 h)), zero_smul]

theorem size_symbols (lengths : List Nat) :
    (ofLengths lengths).symbols.size = shorter lengths maxLength := by
  simp [symbols_ofLengths, List.length_flatMap, length_symbolsOf, shorter]

/-- Symbols that do not occur make no difference to a code of at most one bit. -/
theorem isTrivial_of_filter {lengths found : List Nat} (h : lengths.filter (· ≠ 0) = found)
    (htrivial : shorter found maxLength ≤ 1 ∧ found.count 1 = shorter found maxLength) :
    (ofLengths lengths).IsTrivial := by
  have hcount (l : Nat) : lengths.count (l + 1) = found.count (l + 1) := by
    rw [← h, List.count_filter (by simp)]
  have hsize : (ofLengths lengths).symbols.size = shorter found maxLength := by
    rw [size_symbols]
    simp only [shorter, hcount]
  refine ⟨hsize ▸ htrivial.1, ?_⟩
  rw [hsize, ← htrivial.2, ← hcount 0]
  rfl

/-- A code that may be used is accepted. -/
theorem IsValid.isComplete_or_isTrivial {lengths : List Nat} (h : IsValid lengths) :
    (ofLengths lengths).IsComplete ∨ (ofLengths lengths).IsTrivial := by
  obtain hfull | hnone | hone := h.fits
  · exact .inl ((weight_eq_sum h.le).trans hfull)
  · exact .inr (isTrivial_of_filter hnone (by decide))
  · exact .inr (isTrivial_of_filter hone (by decide))

end Syndication.Codec.Huffman
