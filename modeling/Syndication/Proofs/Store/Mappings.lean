import Syndication.Proofs.Store.Valid
/-!
# The mapping that counts

Of the mappings of a source the one counts that has the greatest stamp and, of those, the greatest
id. For one source a scan of its mappings finds it (`Store.Valid.mapping?_eq_some`); for several
sources all their mappings are ranked at once and the first of each source is taken. Ids are
distinct, so only one mapping comes first, and the ranking finds what the scans find
(`Store.Valid.mem_mappingsOf`).
-/

namespace Syndication

/-- By what the mappings of a source are ranked. -/
def MappingRow.key (m : MappingRow) : String ×ₗ Int := toLex (m.createdAt, m.id)

theorem MappingRow.key_lt {m n : MappingRow} : m.key < n.key ↔
    m.createdAt < n.createdAt ∨ m.createdAt = n.createdAt ∧ m.id < n.id :=
  Prod.Lex.toLex_lt_toLex

namespace Store

variable {s : Store} {source : String} {m : MappingRow}

/-! ## One source -/

theorem latest?_eq_argmax {α : Type} (stamp : α → String) (id : α → Int) (rows : List α) :
    latest? stamp id rows =
      rows.argmax fun row => (toLex (stamp row, id row) : String ×ₗ Int) := by
  unfold latest? List.argmax
  congr 1
  funext best row
  cases best with
  | none => rfl
  | some b =>
    have hlt : toLex (stamp b, id b) < toLex (stamp row, id row) ↔
        stamp b < stamp row ∨ stamp b = stamp row ∧ id b < id row := Prod.Lex.toLex_lt_toLex
    simp only [List.argAux, hlt]

theorem mapping?_eq_argmax (s : Store) (source : String) : s.mapping? source =
    (s.mappings.filter fun m => m.source = source).argmax MappingRow.key :=
  latest?_eq_argmax _ _ _

theorem mapping?_eq_none : s.mapping? source = none ↔ ∀ m ∈ s.mappings, m.source ≠ source := by
  rw [mapping?_eq_argmax, List.argmax_eq_none, List.filter_eq_nil_iff]
  simp

theorem Valid.mapping_eq_of_key (h : s.Valid) {n : MappingRow} (hm : m ∈ s.mappings)
    (hn : n ∈ s.mappings) (hkey : m.key = n.key) : m = n :=
  List.inj_on_of_nodup_map h.mappingIds hm hn (congrArg (fun k => (ofLex k).2) hkey)

/-- **The mapping that counts** is the one of the source that no other is ranked before. -/
theorem Valid.mapping?_eq_some (h : s.Valid) : s.mapping? source = some m ↔
    m ∈ s.mappings ∧ m.source = source ∧
      ∀ n ∈ s.mappings, n.source = source → n.key ≤ m.key := by
  have hmem (n : MappingRow) : n ∈ s.mappings.filter (fun m => m.source = source) ↔
      n ∈ s.mappings ∧ n.source = source := by
    simp
  rw [mapping?_eq_argmax]
  constructor
  · intro hfound
    obtain ⟨hm, hsource⟩ := (hmem m).1 (List.argmax_mem hfound)
    exact ⟨hm, hsource, fun n hn hnsource =>
      List.le_of_mem_argmax ((hmem n).2 ⟨hn, hnsource⟩) hfound⟩
  · rintro ⟨hm, hsource, hfirst⟩
    cases hfound : (s.mappings.filter fun m => m.source = source).argmax MappingRow.key with
    | none =>
      rw [List.argmax_eq_none] at hfound
      exact absurd ((hmem m).2 ⟨hm, hsource⟩) (hfound ▸ List.not_mem_nil)
    | some n =>
      obtain ⟨hn, hnsource⟩ := (hmem n).1 (List.argmax_mem hfound)
      have hle := List.le_of_mem_argmax ((hmem m).2 ⟨hm, hsource⟩) hfound
      rw [h.mapping_eq_of_key hm hn (le_antisymm hle (hfirst n hn hnsource))]

/-! ## Several sources -/

/-- A mapping has the first place if none of its source is ranked before it. -/
theorem recency_eq_one {rows : List MappingRow} :
    recency rows m = 1 ↔ ∀ n ∈ rows, n.source = m.source → n.key ≤ m.key := by
  rw [recency, Nat.add_eq_right, List.countP_eq_zero]
  refine forall₂_congr fun n _ => ?_
  simp only [Bool.and_eq_true, Bool.or_eq_true, decide_eq_true_eq, not_and, ← MappingRow.key_lt,
    not_lt]

/-- **Ranking finds what the scans find.** -/
theorem Valid.mem_mappingsOf (h : s.Valid) {sources : List String} :
    m ∈ s.mappingsOf sources ↔ m.source ∈ sources ∧ s.mapping? m.source = some m := by
  simp only [mappingsOf, List.mem_filter, decide_eq_true_eq, recency_eq_one, h.mapping?_eq_some,
    true_and]
  constructor
  · rintro ⟨⟨hm, hsource⟩, hfirst⟩
    exact ⟨hsource, hm, fun n hn hnsource => hfirst n ⟨hn, hnsource ▸ hsource⟩ hnsource⟩
  · rintro ⟨hsource, hm, hfirst⟩
    exact ⟨⟨hm, hsource⟩, fun n hn => hfirst n hn.1⟩

theorem Valid.nodup_mappingsOf (h : s.Valid) (sources : List String) :
    ((s.mappingsOf sources).map (·.source)).Nodup := by
  have hrows : (s.mappingsOf sources).Nodup :=
    ((List.Nodup.of_map _ h.mappingIds).filter _).filter _
  refine List.Nodup.map_on (fun m hm n hn hsource => ?_) hrows
  have hfound := (h.mem_mappingsOf.1 hm).2
  rw [hsource, (h.mem_mappingsOf.1 hn).2] at hfound
  exact (Option.some.inj hfound).symm

/-- The targets that are known of some sources. -/
def targetsOf (s : Store) (sources : List String) : List (String × String) :=
  (s.mappingsOf sources).map fun m => (m.source, m.target)

theorem Valid.mem_targetsOf (h : s.Valid) {sources : List String} {target : String} :
    (source, target) ∈ s.targetsOf sources ↔
      source ∈ sources ∧ (s.mapping? source).map (·.target) = some target := by
  simp only [targetsOf, List.mem_map, h.mem_mappingsOf, Option.map_eq_some_iff, Prod.mk.injEq]
  constructor
  · rintro ⟨m, ⟨hsource, hm⟩, rfl, rfl⟩
    exact ⟨hsource, m, hm, rfl⟩
  · rintro ⟨hsource, m, hm, rfl⟩
    obtain ⟨-, rfl, -⟩ := h.mapping?_eq_some.1 hm
    exact ⟨m, ⟨hsource, hm⟩, rfl, rfl⟩

theorem Valid.nodup_targetsOf (h : s.Valid) (sources : List String) :
    ((s.targetsOf sources).map (·.1)).Nodup := by
  rw [targetsOf, List.map_map]
  exact h.nodup_mappingsOf sources

/-- The target of a source is found among those of several. -/
theorem Valid.lookup_targetsOf (h : s.Valid) {sources : List String} (hsource : source ∈ sources) :
    (s.targetsOf sources).lookup source = (s.mapping? source).map (·.target) := by
  ext target
  rw [lookup_eq_some (h.nodup_targetsOf sources), h.mem_targetsOf]
  exact and_iff_right hsource

end Store

end Syndication
