import Syndication.Settings.Name
/-!
# Assigning settings

A value is put where a name leads, into tables and lists that are made on the way if something
else or nothing stands there. A list grows up to the item that is wanted, but it has no items
before its first one and only so many in all. A table that is put where one stands adds to it.
-/

namespace Syndication.Setting

/-- Why a name leads nowhere. -/
inductive Misplacement
  /-- To an item before the first one of a list. -/
  | beforeStart
  /-- To an item beyond all that a list may have. -/
  | beyondEnd
  deriving DecidableEq

/-- How many items a list may have: an item takes 96 bytes, and the sizes of things have 63 bits. -/
def maxLength : Nat := Nat.pow 2 63 / 96

/-- The place, from zero on, of an item in a list of the given length. -/
def position (length : Nat) (i : Int) : Except Misplacement Nat :=
  let place := if i < 0 then length + i else i
  if place < 0 then .error .beforeStart
  else if maxLength ≤ place then .error .beyondEnd
  else .ok place.toNat

/-- Puts a setting under a key, in the place of what stood there. -/
def put {α : Type} [DecidableEq α] (key : α) (setting : Setting) (others : List (α × Setting)) :
    List (α × Setting) :=
  (key, setting) :: others.filter fun o => o.1 ≠ key

/-- The setting under a key, which is null if there is none. -/
def get {α : Type} [DecidableEq α] (key : α) (settings : List (α × Setting)) : Setting :=
  (settings.lookup key).getD .null

mutual

/-- The value put where another stands. -/
def replace : (value old : Setting) → Setting
  | .table members, old => .table (replaceMembers members old.members)
  | value, _ => value

/-- A setting under its name, put into a table. -/
def replaceMember : String × Setting → List (String × Setting) → List (String × Setting)
  | (name, value), old => put (lower name) (replace value (get (lower name) old)) old

/-- Settings under their names, put into a table. -/
def replaceMembers : List (String × Setting) → List (String × Setting) → List (String × Setting)
  | [], old => old
  | member :: members, old => replaceMembers members (replaceMember member old)

end

/-- Puts a value where steps lead from a setting. -/
def assign (value : Setting) : List Step → Setting → Except Misplacement Setting
  | [], old => .ok (replace value old)
  | .name name :: steps, old => do
    let inner ← assign value steps (get name old.members)
    .ok (.table (put name inner old.members))
  | .index i :: steps, old => do
    let (length, items) := old.items
    let i ← position length i
    let inner ← assign value steps (get i items)
    .ok (.list (max length (i + 1)) (put i inner items))

end Syndication.Setting
