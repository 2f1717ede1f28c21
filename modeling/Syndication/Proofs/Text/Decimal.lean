import Mathlib
import Syndication.Text.Decimal
/-!
# Decimal texts read back

Texts of fixed width consist of digits and read back as the number, as far as the width holds it
(`toNat_padded`); so within one width the text determines the number (`padded_injective`). Texts of
at least some width determine any number (`atLeast_injective`). The shortest text of a number
reads back (`toNat_ofNat`) and has no leading zero (`ofNat_eq_cons`).
-/

namespace Syndication.Decimal

/-! ## Digits -/

theorem value_digit {n : Nat} (h : n < 10) : value (digit n) = n := by
  have all : ∀ n < 10, value (digit n) = n := by decide
  exact all n h

theorem isDigit_digit {n : Nat} (h : n < 10) : (digit n).isDigit = true := by
  have all : ∀ n < 10, (digit n).isDigit = true := by decide
  exact all n h

theorem toNat_concat (digits : List Char) (c : Char) :
    toNat (digits ++ [c]) = 10 * toNat digits + value c := by
  simp [toNat, List.foldl_append]

/-! ## Fixed width -/

@[simp] theorem length_padded (width n : Nat) : (padded width n).length = width := by
  induction width generalizing n with
  | zero => rfl
  | succ width ih => simp [padded, ih]

theorem isDigit_of_mem_padded {width n : Nat} {c : Char} (h : c ∈ padded width n) :
    c.isDigit = true := by
  induction width generalizing n with
  | zero => simp [padded] at h
  | succ width ih =>
    rcases List.mem_append.1 h with h | h
    · exact ih h
    · rw [List.mem_singleton.1 h]
      exact isDigit_digit (Nat.mod_lt _ (by omega))

theorem all_isDigit_padded (width n : Nat) : (padded width n).all Char.isDigit = true :=
  List.all_eq_true.2 fun _ h => isDigit_of_mem_padded h

theorem toNat_padded {width n : Nat} (h : n < Nat.pow 10 width) : toNat (padded width n) = n := by
  induction width generalizing n with
  | zero =>
    obtain rfl : n = 0 := by simpa using h
    rfl
  | succ width ih =>
    change n < Nat.pow 10 width * 10 at h
    rw [padded, toNat_concat, ih (by omega), value_digit (Nat.mod_lt _ (by omega))]
    omega

theorem padded_injective (width : Nat) {m n : Nat} (hm : m < Nat.pow 10 width)
    (hn : n < Nat.pow 10 width) (h : padded width m = padded width n) : m = n := by
  rw [← toNat_padded hm, h, toNat_padded hn]

/-! ## Least width -/

theorem toNat_ofNat (n : Nat) : toNat (ofNat n) = n := by
  fun_induction ofNat n with
  | case1 n h =>
    rw [← List.nil_append [digit n], toNat_concat, value_digit h]
    simp [toNat]
  | case2 n h ih =>
    rw [toNat_concat, ih, value_digit (Nat.mod_lt _ (by omega))]
    omega

theorem isDigit_of_mem_ofNat {n : Nat} {c : Char} (h : c ∈ ofNat n) : c.isDigit = true := by
  fun_induction ofNat n with
  | case1 n hn =>
    rw [List.mem_singleton.1 h]
    exact isDigit_digit hn
  | case2 n hn ih =>
    rcases List.mem_append.1 h with h | h
    · exact ih h
    · rw [List.mem_singleton.1 h]
      exact isDigit_digit (Nat.mod_lt _ (by omega))

/-- The first digit is zero for zero only, which is one digit. -/
theorem ofNat_eq_cons (n : Nat) : ∃ c digits, ofNat n = c :: digits ∧ (c = '0' → digits = []) := by
  fun_induction ofNat n with
  | case1 n hn => exact ⟨digit n, [], rfl, fun _ => rfl⟩
  | case2 n hn ih =>
    obtain ⟨c, digits, heq, hzero⟩ := ih
    refine ⟨c, digits ++ [digit (n % 10)], by rw [heq]; rfl, fun hc => ?_⟩
    have hvalue : toNat (ofNat (n / 10)) = 0 := by
      rw [heq, hzero hc, hc]
      rfl
    rw [toNat_ofNat] at hvalue
    omega

theorem toNat_atLeast (width n : Nat) : toNat (atLeast width n) = n := by
  unfold atLeast
  split
  · next h => exact toNat_padded h
  · exact toNat_ofNat n

theorem atLeast_injective {width m n : Nat} (h : atLeast width m = atLeast width n) : m = n := by
  rw [← toNat_atLeast width m, h, toNat_atLeast]

end Syndication.Decimal
