/-!
# Header maps

The headers of an HTTP answer: names with values, each name once, in the order of the names. The
order of texts is that of their bytes.
-/

namespace Syndication

/-- The entries with one more; an entry of the same name gives way. -/
def Headers.insertInto (name value : String) : List (String × String) → List (String × String)
  | [] => [(name, value)]
  | (n, v) :: rest =>
    if name < n then (name, value) :: (n, v) :: rest
    else if name = n then (name, value) :: rest
    else (n, v) :: Headers.insertInto name value rest

theorem Headers.mem_insertInto {name value : String} {e : String × String}
    {l : List (String × String)} (h : e ∈ Headers.insertInto name value l) :
    e = (name, value) ∨ e ∈ l := by
  induction l with
  | nil => simpa [insertInto] using h
  | cons p l ih =>
    obtain ⟨n, v⟩ := p
    simp only [insertInto] at h
    split at h
    · simpa using h
    · split at h
      · rcases List.mem_cons.1 h with h | h
        · exact .inl h
        · exact .inr (List.mem_cons_of_mem _ h)
      · rcases List.mem_cons.1 h with h | h
        · exact .inr (h ▸ List.mem_cons_self)
        · rcases ih h with h | h
          · exact .inl h
          · exact .inr (List.mem_cons_of_mem _ h)

/-- Of two names that are not in order, the second comes first or they are the same. -/
theorem Headers.lt_of_not_lt {a b : String} (h : ¬ a < b) (hne : a ≠ b) : b < a := by
  by_cases hba : b < a
  · exact hba
  · exact absurd (String.le_antisymm (String.not_lt.1 hba) (String.not_lt.1 h)) hne

theorem Headers.pairwise_insertInto (name value : String) {l : List (String × String)}
    (h : l.Pairwise fun a b => a.1 < b.1) :
    (Headers.insertInto name value l).Pairwise fun a b => a.1 < b.1 := by
  induction l with
  | nil => simp [insertInto]
  | cons p l ih =>
    obtain ⟨n, v⟩ := p
    obtain ⟨hn, hl⟩ := List.pairwise_cons.1 h
    simp only [insertInto]
    split
    · next hlt =>
      refine List.pairwise_cons.2 ⟨fun e he => ?_, h⟩
      rcases List.mem_cons.1 he with rfl | he
      · exact hlt
      · exact String.lt_trans hlt (hn e he)
    · next hlt =>
      split
      · next heq =>
        subst heq
        exact List.pairwise_cons.2 ⟨hn, hl⟩
      · next hne =>
        refine List.pairwise_cons.2 ⟨fun e he => ?_, ih hl⟩
        rcases Headers.mem_insertInto he with rfl | he
        · exact Headers.lt_of_not_lt hlt hne
        · exact hn e he

/-- A map of headers. -/
structure Headers where
  entries : List (String × String)
  sorted : entries.Pairwise fun a b => a.1 < b.1
  deriving DecidableEq

namespace Headers

/-- No headers. -/
def empty : Headers := ⟨[], .nil⟩

instance : Inhabited Headers := ⟨empty⟩

/-- One header more; an earlier value of the same name gives way. -/
def insert (h : Headers) (name value : String) : Headers :=
  ⟨insertInto name value h.entries, pairwise_insertInto name value h.sorted⟩

/-- The map of a list of headers; the last value of a name counts. -/
def ofList (entries : List (String × String)) : Headers :=
  entries.foldl (fun h (name, value) => h.insert name value) empty

end Headers

end Syndication
