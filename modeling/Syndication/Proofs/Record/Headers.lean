import Syndication.Proofs.Json.Compact
import Syndication.Record.Snapshot
/-!
# Headers read back

Headers are what their text stands for (`Headers.decode?_encode`): their entries are in the order
of their names, so inserting them one after another gives them back.
-/

namespace Syndication.Headers

/-- An entry that comes after all others goes to the end. -/
theorem insertInto_of_lt {name value : String} {entries : List (String × String)}
    (h : ∀ e ∈ entries, e.1 < name) :
    insertInto name value entries = entries ++ [(name, value)] := by
  induction entries with
  | nil => rfl
  | cons e entries ih =>
    obtain ⟨n, v⟩ := e
    have hn : n < name := h (n, v) List.mem_cons_self
    have hlt : ¬ name < n := fun hlt => String.lt_irrefl n (String.lt_trans hn hlt)
    have hne : name ≠ n := fun heq => String.lt_irrefl n (by rwa [heq] at hn)
    rw [insertInto, if_neg hlt, if_neg hne, ih fun e he => h e (List.mem_cons_of_mem _ he),
      List.cons_append]

/-- Inserting entries in the order of their names appends them. -/
theorem entries_foldl_insert (entries : List (String × String)) (h : Headers)
    (hsorted : (h.entries ++ entries).Pairwise fun a b => a.1 < b.1) :
    (entries.foldl (fun h (name, value) => h.insert name value) h).entries =
      h.entries ++ entries := by
  induction entries generalizing h with
  | nil => simp
  | cons e entries ih =>
    obtain ⟨name, value⟩ := e
    have hlast : (h.insert name value).entries = h.entries ++ [(name, value)] :=
      insertInto_of_lt fun e he =>
        (List.pairwise_append.1 hsorted).2.2 e he (name, value) List.mem_cons_self
    rw [List.foldl_cons, ih _ (by rw [hlast]; simpa using hsorted), hlast]
    simp

theorem ofList_entries (h : Headers) : ofList h.entries = h := by
  have hentries : (ofList h.entries).entries = h.entries :=
    entries_foldl_insert h.entries empty h.sorted
  cases hlist : ofList h.entries with
  | mk entries sorted =>
    rw [hlist] at hentries
    cases h
    cases hentries
    rfl

theorem toJson_eq (h : Headers) :
    h.toJson = .obj (h.entries.map fun e => (some e.1, Json.text e.2)) :=
  congrArg Json.obj List.map_map

/-- Headers from the object that they are written as. -/
theorem ofJson?_toJson (h : Headers) : ofJson? h.toJson = some h := by
  have hentries : ∀ entries : List (String × String),
      (entries.map fun e => (some e.1, Json.text e.2)).mapM entry? = some entries := by
    intro entries
    induction entries with
    | nil => rfl
    | cons e entries ih =>
      rw [List.map_cons, List.mapM_cons, ih]
      rfl
  rw [toJson_eq]
  change (List.mapM entry? _).map ofList = some h
  rw [hentries, Option.map_some, ofList_entries]

theorem isExact_toJson (h : Headers) : h.toJson.IsExact := by
  have hmembers : ∀ entries : List (String × String),
      Json.MembersExact (entries.map fun e => (some e.1, Json.text e.2)) := by
    intro entries
    induction entries with
    | nil => exact True.intro
    | cons e entries ih => exact ⟨rfl, rfl, ih⟩
  rw [toJson_eq]
  exact hmembers h.entries

/-- **Headers read back** from their text. -/
theorem decode?_encode (h : Headers) : decode? h.encode = some h := by
  rw [decode?, encode, Json.parse?_toCompact h.isExact_toJson]
  exact h.ofJson?_toJson

end Syndication.Headers
