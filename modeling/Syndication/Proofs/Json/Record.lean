import Mathlib
import Syndication.Json.Record
import Syndication.Proofs.Json.Compact
/-!
# Fields read back

What a record writes into one of its fields is what it reads from it: a value that has to be there
(`present`), a value or null (`optional_nullable`), a member that is written only if there is a
value (`optional_map`). An object is exact if all its values are (`isExact_object`).
-/

namespace Syndication.Json

/-! ## Numbers -/

/-- A number fits 64 bits with a sign. -/
def IsInt64 (n : Int) : Prop := minInt64 ≤ n ∧ n ≤ maxInt64

instance (n : Int) : Decidable (IsInt64 n) := inferInstanceAs (Decidable (_ ∧ _))

/-- A number fits 32 bits with a sign. -/
def IsInt32 (n : Int) : Prop := -2147483648 ≤ n ∧ n ≤ 2147483647

instance (n : Int) : Decidable (IsInt32 n) := inferInstanceAs (Decidable (_ ∧ _))

theorem between?_int {low high n : Int} (h : low ≤ n ∧ n ≤ high) :
    between? low high (.int n) = some n := by
  rw [between?, if_pos h]

theorem int64?_int {n : Int} (h : IsInt64 n) : int64? (.int n) = some n := between?_int h

theorem int32?_int {n : Int} (h : IsInt32 n) : int32? (.int n) = some n := between?_int h

theorem nat64?_int {n : Nat} (h : n < 18446744073709551616) : nat64? (.int n) = some n := by
  rw [nat64?, between?_int (by omega), Option.map_some, Int.toNat_natCast]

/-! ## Fields -/

theorem text?_text (s : String) : text? (text s) = some s := rfl

/-- Once the fields of a record are known, it is read from them. -/
theorem of_fields? {α : Type} {fields : List (String × Presence)} {value : Json}
    (values : List (Option Json)) {next : List (Option Json) → Option α}
    (h : fields? fields value = some values) : (fields? fields value >>= next) = next values := by
  rw [h, Option.bind_eq_bind, Option.bind_some]

/-- A value or null reads back, unless the value is written as null. -/
theorem optional_nullable {α : Type} {read : Json → Option α} {toJson : α → Json} {o : Option α}
    (hnull : ∀ a ∈ o, toJson a ≠ .null) (hread : ∀ a ∈ o, read (toJson a) = some a) :
    optional read (some (nullable toJson o)) = some o := by
  cases o with
  | none => rfl
  | some a =>
    have hread : read (toJson a) = some a := hread a rfl
    have hnull : toJson a ≠ .null := hnull a rfl
    rw [nullable, optional]
    · rw [hread, Option.map_some]
    · exact hnull

/-- A member that is left out without a value reads back. -/
theorem optional_map {α : Type} {read : Json → Option α} {toJson : α → Json} {o : Option α}
    (hnull : ∀ a ∈ o, toJson a ≠ .null) (hread : ∀ a ∈ o, read (toJson a) = some a) :
    optional read (o.map toJson) = some o := by
  cases o with
  | none => rfl
  | some a => exact optional_nullable hnull hread

theorem optional_int64 {o : Option Int} (h : ∀ n ∈ o, IsInt64 n) :
    optional int64? (some (nullable .int o)) = some o :=
  optional_nullable (fun _ _ => by simp) fun n hn => int64?_int (h n hn)

theorem optional_int32 {o : Option Int} (h : ∀ n ∈ o, IsInt32 n) :
    optional int32? (some (nullable .int o)) = some o :=
  optional_nullable (fun _ _ => by simp) fun n hn => int32?_int (h n hn)

theorem optional_text (o : Option String) : optional text? (some (nullable .text o)) = some o :=
  optional_nullable (fun _ _ => by simp [text]) fun s _ => text?_text s

/-- A list of values reads back when each of them does. -/
theorem list?_map {α : Type} {read : Json → Option α} {toJson : α → Json} {values : List α}
    (h : ∀ a ∈ values, read (toJson a) = some a) :
    list? read (.arr (values.map toJson)) = some values := by
  rw [list?]
  induction values with
  | nil => rfl
  | cons a values ih =>
    rw [List.map_cons, List.mapM_cons, h a List.mem_cons_self,
      ih fun b hb => h b (List.mem_cons_of_mem a hb)]
    rfl

/-! ## Exact values -/

theorem areExact_iff {items : List Json} : AreExact items ↔ ∀ item ∈ items, item.IsExact := by
  induction items with
  | nil => simp [AreExact]
  | cons item items ih => simp [AreExact, ih]

/-- An object is exact if its values are. -/
theorem isExact_object {members : List (String × Json)} :
    (object members).IsExact ↔ ∀ m ∈ members, m.2.IsExact := by
  rw [object, IsExact]
  induction members with
  | nil => simp [MembersExact]
  | cons m members ih => simp [MembersExact, ih]

theorem isExact_int (n : Int) : (Json.int n).IsExact := trivial

theorem isExact_text (s : String) : (text s).IsExact := rfl

theorem isExact_nullable {α : Type} {toJson : α → Json} (h : ∀ a, (toJson a).IsExact)
    (o : Option α) : (nullable toJson o).IsExact := by
  cases o with
  | none => trivial
  | some a => exact h a

end Syndication.Json
