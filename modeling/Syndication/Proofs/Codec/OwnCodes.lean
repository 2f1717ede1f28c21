import Mathlib
import Syndication.Proofs.Codec.Symbols
/-!
# The codes of a block read back

A block may bring its two codes along. Their lengths are written as one list, in which runs are
shortened (`Deflate.Runs`), in a third code, whose own lengths come first, three bits each and in an
order of their own (`Deflate.Announces`). Reading them gives the two codes
(`Deflate.reads_ownCodes`).
-/

namespace Syndication.Codec.Deflate

open Bits Huffman

/-! ## Runs of lengths -/

/-- Code lengths as they are written in a code: after the lengths `before`, the bits make the
lengths `after`. -/
inductive Runs (code : List Nat) : (before : List Nat) → List Bool → (after : List Nat) → Prop
  | stop {before : List Nat} : Runs code before [] before
  | length {before after : List Nat} {length : Nat} {word bits : List Bool}
      (hword : IsWord code length word) (hlt : length < 16)
      (rest : Runs code (before ++ [length]) bits after) : Runs code before (word ++ bits) after
  | again {before after : List Nat} {last count : Nat} {word bits : List Bool}
      (hword : IsWord code 16 word) (hlast : before.getLast? = some last) (hcount : count < 4)
      (rest : Runs code (before ++ List.replicate (count + 3) last) bits after) :
      Runs code before (word ++ (low 2 count ++ bits)) after
  | zeros {before after : List Nat} {count : Nat} {word bits : List Bool}
      (hword : IsWord code 17 word) (hcount : count < 8)
      (rest : Runs code (before ++ List.replicate (count + 3) 0) bits after) :
      Runs code before (word ++ (low 3 count ++ bits)) after
  | manyZeros {before after : List Nat} {count : Nat} {word bits : List Bool}
      (hword : IsWord code 18 word) (hcount : count < 128)
      (rest : Runs code (before ++ List.replicate (count + 11) 0) bits after) :
      Runs code before (word ++ (low 7 count ++ bits)) after

theorem Runs.length_le {code before after : List Nat} {bits : List Bool}
    (h : Runs code before bits after) : before.length ≤ after.length := by
  induction h with
  | stop => exact Nat.le_refl _
  | length _ _ _ ih => exact (List.prefix_append _ _).length_le.trans ih
  | again _ _ _ _ ih => exact (List.prefix_append _ _).length_le.trans ih
  | zeros _ _ _ ih => exact (List.prefix_append _ _).length_le.trans ih
  | manyZeros _ _ _ ih => exact (List.prefix_append _ _).length_le.trans ih

/-- Where lengths follow, there is a place left for them and a step. -/
theorem Runs.exists_step {code before more after : List Nat} {bits : List Bool} {steps : Nat}
    (rest : Runs code (before ++ more) bits after) (hmore : 0 < more.length)
    (hsteps : after.length - before.length ≤ steps) :
    ∃ left, steps = left + 1 ∧ ¬ after.length ≤ before.toArray.size ∧
      after.length - (before ++ more).length ≤ left := by
  have hle := rest.length_le
  rw [List.length_append] at hle ⊢
  rw [List.size_toArray]
  exact ⟨steps - 1, by omega, by omega, by omega⟩

theorem addRun_eq {before after : List Nat} {count value : Nat}
    (h : (before ++ List.replicate count value).length ≤ after.length) :
    addRun after.length before.toArray value count =
      .ok (before ++ List.replicate count value).toArray := by
  rw [List.length_append, List.length_replicate] at h
  rw [addRun, List.size_toArray, if_pos h]
  simp

/-- A run is read with its count and written out. -/
theorem reads_run {code : Huffman} {before after : List Nat}
    {width count least value steps pos : Nat} {bits : List Bool} (hcount : count < Nat.pow 2 width)
    (hle : (before ++ List.replicate (count + least) value).length ≤ after.length)
    (hrest : ∀ pos, Reads pos (codeLengths code after.length steps
      (before ++ List.replicate (count + least) value).toArray) bits after.toArray) :
    Reads pos (do
      let count ← number width
      let lengths ← liftM (addRun after.length before.toArray value (count + least))
      codeLengths code after.length steps lengths) (low width count ++ bits) after.toArray := by
  refine (reads_number hcount).bind ?_
  rw [addRun_eq hle]
  exact (hrest _).pure_bind

/-- **Lengths read back**, runs written out. -/
theorem reads_codeLengths {code before after : List Nat} {bits : List Bool}
    (h : Runs code before bits after) {pos steps : Nat}
    (hsteps : after.length - before.length ≤ steps) :
    Reads pos (codeLengths (ofLengths code) after.length steps before.toArray) bits
      after.toArray := by
  induction h generalizing pos steps with
  | stop =>
    cases steps with
    | zero => exact reads_pure _
    | succ steps =>
      rw [codeLengths, if_pos (by simp)]
      exact reads_pure _
  | length hword hlt rest ih =>
    obtain ⟨left, rfl, hopen, hleft⟩ := rest.exists_step (Nat.succ_pos 0) hsteps
    rw [codeLengths, if_neg hopen]
    refine (reads_word hword).bind ?_
    rw [if_pos hlt, List.push_toArray]
    exact ih hleft
  | again hword hlast hcount rest ih =>
    obtain ⟨left, rfl, hopen, hleft⟩ := rest.exists_step (by simp) hsteps
    rw [codeLengths, if_neg hopen]
    refine (reads_word hword).bind ?_
    rw [if_neg (by omega), if_pos rfl, List.back?_toArray, hlast]
    exact reads_run hcount rest.length_le fun _ => ih hleft
  | zeros hword hcount rest ih =>
    obtain ⟨left, rfl, hopen, hleft⟩ := rest.exists_step (by simp) hsteps
    rw [codeLengths, if_neg hopen]
    refine (reads_word hword).bind ?_
    rw [if_neg (by omega), if_neg (by omega), if_pos rfl]
    exact reads_run hcount rest.length_le fun _ => ih hleft
  | manyZeros hword hcount rest ih =>
    obtain ⟨left, rfl, hopen, hleft⟩ := rest.exists_step (by simp) hsteps
    rw [codeLengths, if_neg hopen]
    refine (reads_word hword).bind ?_
    rw [if_neg (by omega), if_neg (by omega), if_neg (by omega)]
    exact reads_run hcount rest.length_le fun _ => ih hleft

/-! ## The code for lengths -/

theorem reads_triples {lengths : List Nat} (h : ∀ n ∈ lengths, n < 8) {pos : Nat} :
    Reads pos (triples lengths.length) (lengths.flatMap (low 3)) lengths := by
  induction lengths generalizing pos with
  | nil => exact reads_pure []
  | cons n lengths ih =>
    rw [List.length_cons, triples, List.flatMap_cons]
    exact (reads_number (h n List.mem_cons_self)).bind
      ((ih fun m hm => h m (List.mem_cons_of_mem n hm)).bind_pure rfl)

/-- The lengths of the code for lengths that are written. -/
theorem reads_written {code : List Nat} {written pos : Nat} (hwritten : written ≤ 19)
    (hlt : ∀ length ∈ code, length < 8) :
    Reads pos (triples written)
      (((lengthOrder.take written).map fun s => code.getD s 0).flatMap (low 3))
      ((lengthOrder.take written).map fun s => code.getD s 0) := by
  have hcount : ((lengthOrder.take written).map fun s => code.getD s 0).length = written := by
    rw [List.length_map]
    exact List.length_take_of_le hwritten
  have hsmall : ∀ n ∈ (lengthOrder.take written).map fun s => code.getD s 0, n < 8 := by
    rw [List.forall_mem_map]
    intro symbol _
    rw [List.getD_eq_getElem?_getD]
    cases hget : code[symbol]? with
    | none => decide
    | some length => exact hlt length (List.mem_of_getElem? hget)
  have hread : Reads pos _ _ _ := reads_triples hsmall
  rwa [hcount] at hread

/-- A value that stands beside its key at the start of a list, or else is zero, is found. -/
theorem lookup_zip_take {f : Nat → Nat} {keys : List Nat} {key written : Nat} (hkey : key ∈ keys)
    (hrest : ∀ k ∈ keys.drop written, f k = 0) :
    ((keys.zip ((keys.take written).map f)).lookup key).getD 0 = f key := by
  induction keys generalizing written with
  | nil => simp at hkey
  | cons k keys ih =>
    cases written with
    | zero =>
      rw [List.drop_zero] at hrest
      simp [hrest key hkey]
    | succ written =>
      rw [List.take_succ_cons, List.map_cons, List.zip_cons_cons, List.lookup_cons]
      by_cases heq : key = k
      · simp [heq]
      · rw [beq_false_of_ne heq]
        exact ih ((List.mem_cons.1 hkey).resolve_left heq) hrest

/-- The code for lengths has 19 symbols, each of which has its place in the order. -/
theorem mem_lengthOrder {symbol : Nat} (h : symbol < 19) : symbol ∈ lengthOrder := by
  have all : ∀ symbol < 19, symbol ∈ lengthOrder := by decide
  exact all symbol h

/-- The lengths written in the order of their own, the rest zero, are the lengths of the code. -/
theorem lookup_lengthOrder {code : List Nat} {written : Nat} (hlength : code.length = 19)
    (hrest : ∀ symbol ∈ lengthOrder.drop written, code.getD symbol 0 = 0) :
    (List.range 19).map (fun symbol => ((lengthOrder.zip
      ((lengthOrder.take written).map fun s => code.getD s 0)).lookup symbol).getD 0) = code := by
  apply List.ext_getElem
  · simp [hlength]
  · intro symbol h₁ h₂
    rw [List.getElem_map, List.getElem_range,
      lookup_zip_take (mem_lengthOrder (hlength ▸ h₂)) hrest, List.getD_eq_getElem _ _ h₂]

/-! ## The codes of a block -/

/-- The bits that announce the codes of a block. -/
inductive Announces (codes : Codes) : List Bool → Prop
  | intro {code : List Nat} {written : Nat} {runs : List Bool}
      (hliterals : 257 ≤ codes.literals.length ∧ codes.literals.length ≤ 286)
      (hdistances : 1 ≤ codes.distances.length ∧ codes.distances.length ≤ 30)
      (hvalid : IsValid codes.literals ∧ IsValid codes.distances)
      (hwritten : 4 ≤ written ∧ written ≤ 19)
      (hcode : code.length = 19 ∧ ∀ length ∈ code, length < 8)
      (hfull : (code.map share).sum = Nat.pow 2 maxLength)
      (hrest : ∀ symbol ∈ lengthOrder.drop written, code.getD symbol 0 = 0)
      (hruns : Runs code [] runs (codes.literals ++ codes.distances)) :
      Announces codes (low 5 (codes.literals.length - 257) ++
        (low 5 (codes.distances.length - 1) ++ (low 4 (written - 4) ++
          (((lengthOrder.take written).map fun s => code.getD s 0).flatMap (low 3) ++ runs))))

/-- **The codes that a block announces are read.** -/
theorem reads_ownCodes {codes : Codes} {bits : List Bool} (h : Announces codes bits) {pos : Nat} :
    Reads pos ownCodes bits (ofLengths codes.literals, ofLengths codes.distances) := by
  obtain @⟨code, written, runs, hliterals, hdistances, hvalid, hwritten, hcode, hfull, hrest,
    hruns⟩ := h
  have hl : codes.literals.length - 257 + 257 = codes.literals.length := by omega
  have hd : codes.distances.length - 1 + 1 = codes.distances.length := by omega
  have hw : written - 4 + 4 = written := by omega
  have hpow5 : Nat.pow 2 5 = 32 := rfl
  have hpow4 : Nat.pow 2 4 = 16 := rfl
  have hcomplete : (ofLengths code).IsComplete :=
    (weight_eq_sum fun n hn => Nat.le_of_lt (Nat.lt_trans (hcode.2 n hn) (by decide))).trans hfull
  rw [ownCodes]
  refine (reads_number (by omega)).bind ((reads_number (by omega)).bind
    ((reads_number (by omega)).bind ?_))
  simp only [hl, hd, hw]
  rw [if_neg (by omega)]
  refine (reads_written hwritten.2 hcode.2).bind ?_
  rw [lookup_lengthOrder hcode.1 hrest, if_pos hcomplete, ← List.length_append]
  refine (reads_codeLengths hruns (Nat.sub_le _ _)).bind_pure ?_
  rw [List.toList_toArray, List.take_left, List.drop_left,
    if_pos hvalid.1.isComplete_or_isTrivial, if_pos hvalid.2.isComplete_or_isTrivial]

end Syndication.Codec.Deflate
