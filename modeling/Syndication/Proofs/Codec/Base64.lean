import Mathlib
import Syndication.Codec.Base64
/-!
# Base64 read back

The text of a byte string reads back as the byte string (`Base64.decode?_encode`), whichever of the
three ways it ends: in a full group, in one byte or in two bytes left over.
-/

namespace Syndication.Base64

/-! ## Digits -/

theorem value?_digit {n : Nat} (h : n < 64) : value? (digit n) = some n := by
  have all : ∀ n < 64, value? (digit n) = some n := by decide +kernel
  exact all n h

/-- Padding is no digit, so a full group is never taken for the last one. -/
theorem digit_ne_padding {n : Nat} (h : n < 64) : digit n ≠ '=' := by
  have all : ∀ n < 64, digit n ≠ '=' := by decide +kernel
  exact all n h

/-! ## Groups -/

theorem oneByte?_digits (a : UInt8) :
    oneByte? (digit (a.toNat * 16 / 64)) (digit (a.toNat * 16 % 64)) = some [a] := by
  have ha := a.toNat_lt
  have hn : a.toNat * 16 / 64 * 64 + a.toNat * 16 % 64 = a.toNat * 16 := by omega
  rw [oneByte?, value?_digit (by omega), value?_digit (by omega)]
  simp only [Option.bind_eq_bind, Option.bind_some, hn]
  rw [if_pos (by omega), Nat.mul_div_cancel _ (by omega), UInt8.ofNat_toNat]

theorem twoBytes?_digits (a b : UInt8) {n : Nat} (hn : n = (a.toNat * 256 + b.toNat) * 4) :
    twoBytes? (digit (n / 4096)) (digit (n / 64 % 64)) (digit (n % 64)) = some [a, b] := by
  have ha := a.toNat_lt
  have hb := b.toNat_lt
  have hjoin : (n / 4096 * 64 + n / 64 % 64) * 64 + n % 64 = n := by omega
  have hfirst : n / 4 / 256 = a.toNat := by omega
  have hsecond : n / 4 % 256 = b.toNat := by omega
  rw [twoBytes?, value?_digit (by omega), value?_digit (by omega), value?_digit (by omega)]
  simp only [Option.bind_eq_bind, Option.bind_some, hjoin]
  rw [if_pos (by omega), hfirst, hsecond, UInt8.ofNat_toNat, UInt8.ofNat_toNat]

theorem threeBytes?_digits (a b c : UInt8) {n : Nat}
    (hn : n = (a.toNat * 256 + b.toNat) * 256 + c.toNat) :
    threeBytes? (digit (n / 262144)) (digit (n / 4096 % 64)) (digit (n / 64 % 64))
      (digit (n % 64)) = some [a, b, c] := by
  have ha := a.toNat_lt
  have hb := b.toNat_lt
  have hc := c.toNat_lt
  have hjoin : ((n / 262144 * 64 + n / 4096 % 64) * 64 + n / 64 % 64) * 64 + n % 64 = n := by omega
  have hfirst : n / 65536 = a.toNat := by omega
  have hsecond : n / 256 % 256 = b.toNat := by omega
  have hthird : n % 256 = c.toNat := by omega
  rw [threeBytes?, value?_digit (by omega), value?_digit (by omega), value?_digit (by omega),
    value?_digit (by omega)]
  simp only [Option.bind_eq_bind, Option.bind_some, hjoin]
  rw [hfirst, hsecond, hthird, UInt8.ofNat_toNat, UInt8.ofNat_toNat, UInt8.ofNat_toNat]

/-! ## Texts -/

/-- Four characters without padding are a full group. -/
theorem decode?_group {a b c d : Char} (hd : d ≠ '=') (rest : List Char) :
    decode? (a :: b :: c :: d :: rest) =
      (threeBytes? a b c d).bind fun group => (decode? rest).map (group ++ ·) := by
  rw [decode?]
  · cases threeBytes? a b c d with
    | none => rfl
    | some group => cases decode? rest <;> rfl
  · intro _ heq
    exact absurd heq hd
  · intro heq
    exact absurd heq hd

/-- **Byte strings read back** from their texts. -/
theorem decode?_encode (bytes : List UInt8) : decode? (encode bytes) = some bytes := by
  fun_induction encode bytes with
  | case1 => rfl
  | case2 a n => exact oneByte?_digits a
  | case3 a b n =>
    rw [decode?, twoBytes?_digits a b rfl]
    intro heq
    exact absurd heq (digit_ne_padding (Nat.mod_lt _ (by omega)))
  | case4 a b c rest n ih =>
    rw [decode?_group (digit_ne_padding (Nat.mod_lt _ (by omega))), threeBytes?_digits a b c rfl,
      Option.bind_some, ih]
    rfl

end Syndication.Base64
