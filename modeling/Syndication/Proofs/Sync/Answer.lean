import Syndication.Proofs.Program.Operations
import Syndication.Proofs.Store.Loading
/-!
# What a sync answers

A sync that runs alone counts a user's visible subscriptions and lists those that are stale by the
hints, each once and as it is stored (`SyncAnswer.Answers`). It changes nothing, and it succeeds if
the instants of the store lie in the years 0 to 9999 (`Store.ensures_sync`).
-/

namespace Syndication

/-! ## Answers -/

/-- What an answer to a user's query has to hold. -/
structure SyncAnswer.Answers (s : Store) (user : Int) (query : SyncQuery) (answer : SyncAnswer) :
    Prop where
  total : answer.total = (s.visible user query.showPending).length
  ids : (answer.subscriptions.map (·.id)).Nodup
  mem : ∀ b, b ∈ answer.subscriptions ↔ ∃ r ∈ s.visible user query.showPending,
    SubscriptionRow.Loads query.detail (s.withFeed r) b ∧
      Sync.isStale query.hints r.id b.updatedAt = true

namespace Store

variable {s : Store} {user : Int} {detail showPending : Bool}

/-- The values of a user's subscriptions of given ids. -/
theorem mem_of_list (h : s.Valid) {p : SubscriptionRow → Bool} {all : List Subscription}
    (hall : (((s.visible user showPending).filter p).map s.withFeed).mapM
      (SubscriptionRow.load detail) = .ok all) :
    (all.map (·.id)).Nodup ∧ ∀ b, b ∈ all ↔ ∃ r ∈ s.visible user showPending, p r = true ∧
      SubscriptionRow.Loads detail (s.withFeed r) b := by
  have hrows := List.forall₂_map_left_iff.1 (mapM_eq_ok.1 hall)
  have hids : all.map (·.id) = ((s.visible user showPending).filter p).map (·.id) :=
    map_eq_of_forall₂ (hrows.imp fun r b hb => (SubscriptionRow.load_eq_ok.1 hb).id)
  refine ⟨hids ▸ (h.nodup_visible user showPending).sublist (List.filter_sublist.map _),
    fun b => ⟨fun hb => ?_, ?_⟩⟩
  · obtain ⟨r, hr, hload⟩ := forall₂_right hrows hb
    obtain ⟨hr, hp⟩ := List.mem_filter.1 hr
    exact ⟨r, hr, hp, SubscriptionRow.load_eq_ok.1 hload⟩
  · rintro ⟨r, hr, hp, hload⟩
    obtain ⟨b', hb', hload'⟩ := forall₂_left hrows (List.mem_filter.2 ⟨hr, hp⟩)
    obtain rfl : b' = b := Except.ok.inj (hload'.symm.trans (SubscriptionRow.load_eq_ok.2 hload))
    exact hb'

/-- The ids that have to be refreshed are those of subscriptions that are stale. -/
theorem mem_changedIds (h : s.Valid) {hints : List Hint} {clocks : List (Int × Instant)}
    (hclocks : List.Forall₂ (fun (r : SubscriptionRow) (clock : Int × Instant) => clock.1 = r.id ∧
      Stamp.decode r.updatedAt = .ok clock.2) (s.visible user showPending) clocks)
    {r : SubscriptionRow} (hr : r ∈ s.visible user showPending) {t : Instant}
    (ht : Stamp.decode r.updatedAt = .ok t) :
    r.id ∈ Sync.changedIds clocks hints ↔ Sync.isStale hints r.id t = true := by
  have hmem : ∀ u, (r.id, u) ∈ clocks ↔ u = t := by
    intro u
    constructor
    · intro hu
      obtain ⟨r', hr', hid, hu⟩ := forall₂_right hclocks hu
      obtain rfl := h.eq_of_id (mem_visible.1 hr').1 (mem_visible.1 hr).1 hid.symm
      exact Except.ok.inj (hu.symm.trans ht)
    · rintro rfl
      obtain ⟨⟨id, u⟩, hu, hid, hdecode⟩ := forall₂_left hclocks hr
      obtain rfl := hid
      obtain rfl := Except.ok.inj (hdecode.symm.trans ht)
      exact hu
  simp only [Sync.changedIds, List.mem_map, List.mem_filter, Prod.exists]
  constructor
  · rintro ⟨id, u, ⟨hu, hstale⟩, rfl⟩
    obtain rfl := (hmem u).1 hu
    exact hstale
  · intro hstale
    exact ⟨r.id, t, ⟨(hmem t).2 rfl, hstale⟩, rfl⟩

/-- The clocks of a user's subscriptions. -/
theorem loadClocks_eq_ok {clocks : List (Int × Instant)} {rows : List SubscriptionRow} :
    ((rows.map fun r => (r.id, r.updatedAt)).mapM fun (id, stamp) => do
      let t ← Stamp.load stamp
      pure (id, t) : Except StoreError (List (Int × Instant))) = .ok clocks ↔
      List.Forall₂ (fun r clock => clock.1 = r.id ∧ Stamp.decode r.updatedAt = .ok clock.2)
        rows clocks := by
  rw [mapM_eq_ok, List.forall₂_map_left_iff]
  have hclock (r : SubscriptionRow) (clock : Int × Instant) :
      (do
        let t ← Stamp.load r.updatedAt
        pure (r.id, t) : Except StoreError (Int × Instant)) = .ok clock ↔
        clock.1 = r.id ∧ Stamp.decode r.updatedAt = .ok clock.2 := by
    rw [bind_eq_ok]
    constructor
    · rintro ⟨t, ht, hclock⟩
      obtain rfl := Except.ok.inj hclock
      exact ⟨rfl, Stamp.load_eq_ok.1 ht⟩
    · rintro ⟨hid, ht⟩
      exact ⟨clock.2, Stamp.load_eq_ok.2 ht, congrArg Except.ok (Prod.ext hid.symm rfl)⟩
  exact ⟨fun h => h.imp fun r clock => (hclock r clock).1,
    fun h => h.imp fun r clock => (hclock r clock).2⟩

open Operation

theorem clocks_load (h : s.Valid) (hy : s.InYears) (user : Int) (showPending : Bool) :
    ∃ clocks, (((s.visible user showPending).map fun r => (r.id, r.updatedAt)).mapM
      fun (id, stamp) => do
        let t ← Stamp.load stamp
        pure (id, t) : Except StoreError (List (Int × Instant))) = .ok clocks := by
  have hdecode : ∀ r ∈ s.visible user showPending,
      ∃ clock, (Stamp.decode r.updatedAt).map (fun t => (r.id, t)) = .ok clock := by
    intro r hr
    have hmem : r.updatedAt ∈ s.stamps := mem_stamps.2
      (.inr (.inr (.inr ⟨r, (mem_visible.1 hr).1, by simp [SubscriptionRow.stamps]⟩)))
    obtain ⟨t, ht⟩ := hy.decode h hmem
    exact ⟨(r.id, t), map_eq_ok.2 ⟨t, ht, rfl⟩⟩
  obtain ⟨clocks, -, hclocks⟩ := exists_mapM_eq_ok hdecode
  refine ⟨clocks, loadClocks_eq_ok.2 (hclocks.imp fun r clock hclock => ?_)⟩
  obtain ⟨t, ht, rfl⟩ := map_eq_ok.1 hclock
  exact ⟨rfl, ht⟩

/-- What a sync promises: nothing changes, an answer answers the query, and there is one. -/
def SyncEnds (s : Store) (user : Int) (query : SyncQuery) (s' : Store)
    (r : Except StoreError SyncAnswer) : Prop :=
  s' = s ∧ (∀ answer, r = .ok answer → answer.Answers s user query) ∧
    (s.InYears → ∃ answer, r = .ok answer)

/-- An answer does not depend on the order of what it lists. -/
theorem answers_sorted {query : SyncQuery} {total : Nat} {all : List Subscription}
    (h : SyncAnswer.Answers s user query ⟨total, all⟩) :
    SyncAnswer.Answers s user query ⟨total, Sync.sortByRecency all⟩ where
  total := h.total
  ids := (((List.mergeSort_perm all Sync.recentFirst).map (·.id)).nodup_iff).2 h.ids
  mem b := List.mem_mergeSort.trans (h.mem b)

/-- Listing some of a user's subscriptions answers the query if these are the stale ones. -/
theorem syncEnds_list (h : s.Valid) (user : Int) (query : SyncQuery) {total : Nat}
    {p : SubscriptionRow → Bool} (htotal : total = (s.visible user query.showPending).length)
    (hp : ∀ r ∈ s.visible user query.showPending, ∀ t, Stamp.decode r.updatedAt = .ok t →
      (p r = true ↔ Sync.isStale query.hints r.id t = true)) :
    SyncEnds s user query s (((((s.visible user query.showPending).filter p).map s.withFeed).mapM
      (SubscriptionRow.load query.detail)).map fun all => ⟨total, Sync.sortByRecency all⟩) := by
  refine ⟨rfl, fun answer hanswer => ?_, fun hy => ?_⟩
  · obtain ⟨all, hall, rfl⟩ := map_eq_ok.1 hanswer
    obtain ⟨hids, hmem⟩ := mem_of_list h hall
    refine answers_sorted ⟨htotal, hids, fun b => (hmem b).trans ?_⟩
    constructor
    · rintro ⟨r, hr, hpr, hload⟩
      exact ⟨r, hr, hload, (hp r hr _ hload.updatedAt).1 hpr⟩
    · rintro ⟨r, hr, hload, hstale⟩
      exact ⟨r, hr, (hp r hr _ hload.updatedAt).2 hstale, hload⟩
  · have hstored : ∀ r ∈ (s.visible user query.showPending).filter p, r ∈ s.subscriptions :=
      fun r hr => (mem_visible.1 (List.mem_of_mem_filter hr)).1
    obtain ⟨all, hall⟩ := h.subscriptions_load hy query.detail hstored
    exact ⟨_, by rw [hall]; rfl⟩

/-- Without hints everything is stale. -/
theorem isStale_of_isEmpty {query : SyncQuery} (hempty : query.hints.isEmpty = true) (id : Int)
    (t : Instant) : Sync.isStale query.hints id t = true := by
  rw [List.isEmpty_iff.1 hempty]
  rfl

/-- A sync by clocks: the clocks of everything visible are read first, and what is stale by them is
listed. -/
def syncByClocks (user : Int) (query : SyncQuery) : Operation SyncAnswer := do
  let clocks ← loadClocks (← call (.clocks user query.showPending))
  let changed := Sync.changedIds clocks query.hints
  let stale ← if changed.isEmpty then pure []
    else listSubscriptions user (some changed) query.detail query.showPending
  pure ⟨clocks.length, Sync.sortByRecency stale⟩

/-- A sync by clocks answers the query, with hints or without. -/
theorem ensures_syncByClocks (h : s.Valid) (user : Int) (query : SyncQuery) :
    (syncByClocks user query).Ensures (.alone fun _ => True) (fun _ _ => True)
      (SyncEnds s user query) s := by
  unfold syncByClocks
  rw [ensures_bind, ensures_call]
  refine ⟨True.intro, ?_⟩
  intro rows s' hcall
  obtain rfl : s = s' := hcall.2
  obtain rfl : (s.visible user query.showPending).map (fun r => (r.id, r.updatedAt)) = rows :=
    hcall.1
  rw [continues_ok, ensures_bind]
  unfold loadClocks
  rw [ensures_loaded]
  generalize hresult : List.mapM (m := Except StoreError) _ _ = result
  cases result with
  | error e =>
    refine ⟨rfl, by simp, fun hy => ?_⟩
    obtain ⟨clocks, hclocks⟩ := clocks_load h hy user query.showPending
    cases hresult.symm.trans hclocks
  | ok clocks =>
    have hclocks := loadClocks_eq_ok.1 hresult
    have htotal := hclocks.length_eq.symm
    rw [continues_ok]
    dsimp only
    split
    · next hnone =>
      have hends := syncEnds_list h user query (p := fun _ => false) htotal fun r hr t ht => by
        rw [← mem_changedIds h hclocks hr ht, List.isEmpty_iff.1 hnone]
        simp
      rw [List.filter_false] at hends
      exact hends
    · rw [ensures_bind, ensures_listSubscriptions]
      refine ⟨True.intro, ?_⟩
      intro rows s' hcall
      obtain rfl : s = s' := hcall.2
      obtain rfl := hcall.1
      have hends := syncEnds_list h user query htotal fun r hr t ht =>
        decide_eq_true_iff.trans (mem_changedIds h hclocks hr ht)
      exact continues_pure.2 hends

/-- **A sync answers the query.** -/
theorem ensures_sync (h : s.Valid) (user : Int) (query : SyncQuery) :
    (sync user query).Ensures (.alone fun _ => True) (fun _ _ => True)
      (SyncEnds s user query) s := by
  unfold sync
  split
  · next hempty =>
    rw [ensures_bind, ensures_listSubscriptions]
    refine ⟨True.intro, ?_⟩
    intro rows s' hcall
    obtain rfl : s = s' := hcall.2
    have hrows : ((s.visible user query.showPending).filter fun _ => true).map s.withFeed = rows :=
      hcall.1
    have hends := syncEnds_list h user query (p := fun _ => true) rfl fun r _ t _ =>
      iff_of_true rfl (isStale_of_isEmpty hempty r.id t)
    rw [hrows] at hends
    cases hall : rows.mapM (SubscriptionRow.load query.detail) with
    | error e =>
      rw [hall] at hends
      exact hends
    | ok all =>
      have htotal : all.length = (s.visible user query.showPending).length := by
        rw [← (mapM_eq_ok.1 hall).length_eq, ← hrows, List.length_map, List.filter_true]
      rw [hall, ← htotal] at hends
      exact hends
  · exact ensures_syncByClocks h user query

end Store

end Syndication
