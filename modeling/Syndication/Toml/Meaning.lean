import Syndication.Toml.Scalar
import Syndication.Toml.Table
/-!
# What TOML items mean

The items of a document as settings. A table of which the first name is `momentName` is a date or
a time: the string under that name is read leniently, and whatever else stands in the table does
not count.
-/

namespace Syndication.Toml

/-- The name under which a table gives a date or a time. -/
def momentName : String := "$__toml_private_datetime"

/-- The date or time that an item gives; only a string gives one. -/
def Item.moment? : Item → Option Setting
  | .string text => Toml.moment? true text.toList
  | _ => none

mutual

/-- An item as a setting. -/
def Item.toSetting? : Item → Option Setting
  | .string text => some (.text text)
  | .scalar value => some value
  | .list items => (itemSettings? items).map .ofItems
  | .inline members => tableSetting? members
  | .table _ members => tableSetting? members
  | .tables before last => do
    let before ← itemSettings? before
    let last ← tableSetting? last
    some (.ofItems (before ++ [last]))

/-- Items as settings. -/
def itemSettings? : List Item → Option (List Setting)
  | [] => some []
  | item :: items => do
    let first ← item.toSetting?
    let others ← itemSettings? items
    some (first :: others)

/-- A table as a setting. -/
def tableSetting? : List (String × Item) → Option Setting
  | [] => some (.table [])
  | member :: members =>
    if member.1 = momentName then member.2.moment?
    else do
      let first ← memberSetting? member
      let others ← memberSettings? members
      some (.table (first :: others))

/-- What stands under a name as a setting. -/
def memberSetting? : String × Item → Option (String × Setting)
  | (name, item) => item.toSetting?.map fun setting => (name, setting)

/-- What stands under names as settings. -/
def memberSettings? : List (String × Item) → Option (List (String × Setting))
  | [] => some []
  | member :: members => do
    let first ← memberSetting? member
    let others ← memberSettings? members
    some (first :: others)

end

/-- The settings of a whole document, which is no date or time. -/
def Members.settings? (members : Members) : Option (List (String × Setting)) :=
  match tableSetting? members with
  | some (.table settings) => some settings
  | _ => none

end Syndication.Toml
