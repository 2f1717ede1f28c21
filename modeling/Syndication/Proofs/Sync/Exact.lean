import Syndication.Proofs.Program.System
import Syndication.Proofs.Sync.Answer
/-!
# Syncs are exact

In every state that can be reached, as long as its instants are of the years 0 to 9999, a sync lists
exactly what the hints miss (`Sync.Misses`), the most recently changed first, every subscription as
it is read alone: `System.Reachable.sync_exact`. An answer is determined by that
(`SyncAnswer.IsExact.unique`), so the two ways to sync agree, and details make no other difference.
-/

namespace Syndication

/-! ## Hints -/

namespace Sync

/-- A client with these hints does not hold a subscription as it is: no hint names it, or the last
one that does has seen an earlier clock. -/
def Misses (hints : List Hint) (id : Int) (updatedAt : Instant) : Prop :=
  (∀ h ∈ hints, h.id ≠ id) ∨ ∃ earlier h later, hints = earlier ++ h :: later ∧ h.id = id ∧
    (∀ h' ∈ later, h'.id ≠ id) ∧ h.seenAt < updatedAt

variable {hints : List Hint} {id : Int}

theorem seen?_eq_none : seen? hints id = none ↔ ∀ h ∈ hints, h.id ≠ id := by
  simp [seen?]

/-- The last hint that names a subscription counts. -/
theorem seen?_eq_some {t : Instant} : seen? hints id = some t ↔ ∃ earlier h later,
    hints = earlier ++ h :: later ∧ h.id = id ∧ (∀ h' ∈ later, h'.id ≠ id) ∧ h.seenAt = t := by
  unfold seen?
  simp only [Option.map_eq_some_iff, List.find?_eq_some_iff_append]
  constructor
  · rintro ⟨h, ⟨hid, later, earlier, hsplit, hlater⟩, rfl⟩
    refine ⟨earlier.reverse, h, later.reverse, ?_, by simpa using hid, by simpa using hlater, rfl⟩
    rw [← List.reverse_reverse hints, hsplit]
    simp
  · rintro ⟨earlier, h, later, rfl, hid, hlater, rfl⟩
    exact ⟨h, ⟨by simpa using hid, later.reverse, earlier.reverse, by simp, by simpa using hlater⟩,
      rfl⟩

theorem isStale_iff {t : Instant} : isStale hints id t = true ↔ Misses hints id t := by
  unfold isStale Misses
  cases hseen : seen? hints id with
  | none => exact iff_of_true rfl (.inl (seen?_eq_none.1 hseen))
  | some seen =>
    dsimp only
    rw [decide_eq_true_iff]
    constructor
    · intro hlt
      obtain ⟨earlier, h, later, hsplit, hid, hlater, rfl⟩ := seen?_eq_some.1 hseen
      exact .inr ⟨earlier, h, later, hsplit, hid, hlater, hlt⟩
    · rintro (hnone | ⟨earlier, h, later, hsplit, hid, hlater, hlt⟩)
      · rw [seen?_eq_none.2 hnone] at hseen
        cases hseen
      · rw [seen?_eq_some.2 ⟨earlier, h, later, hsplit, hid, hlater, rfl⟩] at hseen
        exact Option.some.inj hseen ▸ hlt

end Sync

/-! ## The order of answers -/

/-- One subscription has changed after another, or at the same time and its id is greater. -/
def Subscription.IsNewer (a b : Subscription) : Prop :=
  b.updatedAt < a.updatedAt ∨ a.updatedAt = b.updatedAt ∧ b.id < a.id

namespace Sync

theorem recentFirst_iff {a b : Subscription} : recentFirst a b = true ↔
    b.updatedAt.ticks < a.updatedAt.ticks ∨
      a.updatedAt.ticks = b.updatedAt.ticks ∧ b.id ≤ a.id := by
  have hsame : a.updatedAt = b.updatedAt ↔ a.updatedAt.ticks = b.updatedAt.ticks :=
    ⟨congrArg _, Instant.ticks_injective⟩
  simp [recentFirst, Instant.lt_iff_ticks, hsame]

theorem isNewer_iff {a b : Subscription} : a.IsNewer b ↔
    b.updatedAt.ticks < a.updatedAt.ticks ∨
      a.updatedAt.ticks = b.updatedAt.ticks ∧ b.id < a.id := by
  have hsame : a.updatedAt = b.updatedAt ↔ a.updatedAt.ticks = b.updatedAt.ticks :=
    ⟨congrArg _, Instant.ticks_injective⟩
  simp only [Subscription.IsNewer, Instant.lt_iff_ticks, hsame]

instance : Std.Irrefl Subscription.IsNewer where
  irrefl a h := by
    rw [isNewer_iff] at h
    omega

instance : Std.Antisymm Subscription.IsNewer where
  antisymm a b hab hba := by
    rw [isNewer_iff] at hab hba
    omega

/-- Subscriptions with distinct ids come strictly one after another. -/
theorem pairwise_sortByRecency {all : List Subscription}
    (h : ((sortByRecency all).map (·.id)).Nodup) :
    (sortByRecency all).Pairwise Subscription.IsNewer := by
  have hsorted : (sortByRecency all).Pairwise fun a b => recentFirst a b = true := by
    refine List.pairwise_mergeSort (fun a b c hab hbc => ?_) (fun a b => ?_) all
    · rw [recentFirst_iff] at hab hbc ⊢
      omega
    · rw [Bool.or_eq_true, recentFirst_iff, recentFirst_iff]
      omega
  refine (hsorted.and (List.pairwise_map.1 h)).imp fun {a b} hab => ?_
  obtain ⟨hab, hne⟩ := hab
  rw [recentFirst_iff] at hab
  rw [isNewer_iff]
  omega

end Sync

/-! ## Exact answers -/

/-- The row is among those that a user sees. -/
def SubscriptionRow.isVisible (user : Int) (showPending : Bool) (r : SubscriptionRow) : Bool :=
  r.user = user && (showPending || r.status ≠ Status.pending.name)

theorem Store.mem_visible_iff {s : Store} {user : Int} {showPending : Bool} {r : SubscriptionRow} :
    r ∈ s.visible user showPending ↔
      r ∈ s.subscriptions ∧ r.isVisible user showPending = true :=
  List.mem_mergeSort.trans List.mem_filter

/-- An answer to a query, the most recently changed first. -/
structure SyncAnswer.IsExact (s : Store) (user : Int) (query : SyncQuery) (answer : SyncAnswer) :
    Prop extends answer.Answers s user query where
  recent : answer.subscriptions.Pairwise Subscription.IsNewer

/-- A feed without its details. -/
def Feed.withoutDetail (f : Feed) : Feed := { f with detail := none }

/-- A subscription without the details of its feed. -/
def Subscription.withoutDetail (a : Subscription) : Subscription :=
  { a with feed := a.feed.map Feed.withoutDetail }

/-- An answer without the details of feeds. -/
def SyncAnswer.withoutDetails (answer : SyncAnswer) : SyncAnswer :=
  ⟨answer.total, answer.subscriptions.map Subscription.withoutDetail⟩

theorem FeedRow.Loads.withoutDetail {detail : Bool} {r : FeedRow} {f : Feed}
    (h : r.Loads detail f) : r.Loads false f.withoutDetail :=
  ⟨h.id, h.url, h.status, h.profile, h.createdAt, h.updatedAt, rfl⟩

theorem SubscriptionRow.Loads.withoutDetail {detail : Bool}
    {row : SubscriptionRow × Option FeedRow} {a : Subscription} (h : Loads detail row a) :
    Loads false row a.withoutDetail where
  id := h.id
  user := h.user
  feedId := h.feedId
  status := h.status
  url := h.url
  title := h.title
  storyOffset := h.storyOffset
  createdAt := h.createdAt
  updatedAt := h.updatedAt
  feed := by
    have hfeed := h.feed
    cases hrow : row.2 with
    | none =>
      rw [hrow] at hfeed
      simp only [Option.elim_none] at hfeed ⊢
      simp [Subscription.withoutDetail, hfeed]
    | some f =>
      rw [hrow] at hfeed
      obtain ⟨feed, hloads, heq⟩ := hfeed
      exact ⟨feed.withoutDetail, hloads.withoutDetail, by simp [Subscription.withoutDetail, heq]⟩

namespace SyncAnswer.IsExact

variable {s : Store} {user : Int} {query : SyncQuery} {a b : SyncAnswer}

/-- A store and a query have one exact answer. -/
theorem unique (ha : a.IsExact s user query) (hb : b.IsExact s user query) : a = b := by
  have hlist : a.subscriptions = b.subscriptions :=
    ha.recent.eq_of_mem_iff hb.recent fun c => (ha.mem c).trans (hb.mem c).symm
  have htotal : a.total = b.total := ha.total.trans hb.total.symm
  cases a
  cases b
  cases hlist
  cases htotal
  rfl

/-- An exact answer without details is the exact answer to the query without details. -/
theorem withoutDetails (hs : s.Valid) (hy : s.InYears) (ha : a.IsExact s user query) :
    a.withoutDetails.IsExact s user { query with detail := false } where
  total := ha.total
  ids := by
    rw [SyncAnswer.withoutDetails, List.map_map]
    exact ha.ids
  recent := List.pairwise_map.2 ha.recent
  mem c := by
    refine List.mem_map.trans ⟨?_, ?_⟩
    · rintro ⟨b, hb, rfl⟩
      obtain ⟨r, hr, hload, hstale⟩ := (ha.mem b).1 hb
      exact ⟨r, hr, hload.withoutDetail, hstale⟩
    · rintro ⟨r, hr, hload, hstale⟩
      obtain ⟨b, hb⟩ := hs.subscription_loads hy query.detail (Store.mem_visible.1 hr).1
      have hfull := SubscriptionRow.load_eq_ok.1 hb
      -- a row has one value without details
      obtain rfl : b.withoutDetail = c := Except.ok.inj
        ((SubscriptionRow.load_eq_ok.2 hfull.withoutDetail).symm.trans
          (SubscriptionRow.load_eq_ok.2 hload))
      exact ⟨b, (ha.mem b).2 ⟨r, hr, hfull, hstale⟩, rfl⟩

end SyncAnswer.IsExact

/-! ## Syncs -/

namespace Store

open Operation

variable {s : Store} {user : Int} {query : SyncQuery}

/-- What an answer lists has been sorted. -/
def IsSorted (answer : SyncAnswer) : Prop :=
  ∃ all, answer.subscriptions = Sync.sortByRecency all

theorem makes_syncByClocks (user : Int) (query : SyncQuery) :
    (syncByClocks user query).Makes Call.Quiet IsSorted := by
  refine makes_call_bind True.intro fun rows => Makes.bind (isQuiet_loaded _) fun clocks _ => ?_
  dsimp only
  split
  · exact Makes.bind (isQuiet_pure []) fun stale _ => makes_pure ⟨stale, rfl⟩
  · exact Makes.bind (isQuiet_listSubscriptions _ _ _ _) fun stale _ => makes_pure ⟨stale, rfl⟩

theorem makes_sync (user : Int) (query : SyncQuery) :
    (sync user query).Makes Call.Quiet IsSorted := by
  unfold sync
  split
  · exact Makes.bind (isQuiet_listSubscriptions _ _ _ _) fun all _ => makes_pure ⟨all, rfl⟩
  · exact makes_syncByClocks user query

/-- What answers a query and sorts is exact. -/
theorem exists_exact {op : Operation SyncAnswer}
    (hends : op.Ensures (.alone fun _ => True) (fun _ _ => True) (SyncEnds s user query) s)
    (hsorted : op.Makes Call.Quiet IsSorted) (hy : s.InYears) (clock : Nat → Instant) :
    ∃ answer, op.runOn clock s = (.ok answer, s) ∧ answer.IsExact s user query := by
  obtain ⟨hstays, hanswers, hsucceeds⟩ := hends.runOn_any clock
  obtain ⟨answer, hanswer⟩ := hsucceeds hy
  obtain ⟨all, hall⟩ := hsorted.runOn clock s hanswer
  have hexact := hanswers answer hanswer
  refine ⟨answer, Prod.ext hanswer hstays, hexact, ?_⟩
  rw [hall]
  exact Sync.pairwise_sortByRecency (hall ▸ hexact.ids)

end Store

namespace System

variable {x : System}

/-- **Syncs are exact** in every state that can be reached, as long as its instants are of the years
0 to 9999: the answer counts everything that the user sees, whatever the hints; it lists what they
miss, strictly by recency and each as it is read alone. By clocks it is the same answer, and without
details the same but for these. -/
theorem Reachable.sync_exact (hx : x.Reachable) (hy : x.store.InYears) (user : Int)
    (query : SyncQuery) (clock : Nat → Instant) :
    ∃ answer, (Store.sync user query).runOn clock x.store = (.ok answer, x.store) ∧
      answer.total =
        (x.store.subscriptions.filter (·.isVisible user query.showPending)).length ∧
      answer.subscriptions.Pairwise Subscription.IsNewer ∧
      (∀ id, id ∈ answer.subscriptions.map (·.id) ↔ ∃ r ∈ x.store.subscriptions, r.id = id ∧
        r.isVisible user query.showPending = true ∧
          ∃ t, Stamp.decode r.updatedAt = .ok t ∧ Sync.Misses query.hints id t) ∧
      (∀ a ∈ answer.subscriptions,
        (Store.getSubscription a.id user query.detail).runOn clock x.store = (.ok a, x.store)) ∧
      (Store.syncByClocks user query).runOn clock x.store = (.ok answer, x.store) ∧
      (Store.sync user { query with detail := false }).runOn clock x.store =
        (.ok answer.withoutDetails, x.store) := by
  have hvalid := hx.sound.valid
  obtain ⟨answer, hanswer, hexact⟩ := Store.exists_exact (Store.ensures_sync hvalid user query)
    (Store.makes_sync user query) hy clock
  obtain ⟨answer', hanswer', hexact'⟩ := Store.exists_exact
    (Store.ensures_syncByClocks hvalid user query) (Store.makes_syncByClocks user query) hy clock
  obtain ⟨bare, hbare, hbareExact⟩ := Store.exists_exact
    (Store.ensures_sync hvalid user { query with detail := false })
    (Store.makes_sync user { query with detail := false }) hy clock
  obtain rfl := hexact.unique hexact'
  obtain rfl := (hexact.withoutDetails hvalid hy).unique hbareExact
  refine ⟨answer, hanswer, ?_, hexact.recent, fun id => ?_, fun a ha => ?_, hanswer', hbare⟩
  · rw [hexact.total, Store.visible, List.length_mergeSort]
    rfl
  · constructor
    · intro hid
      obtain ⟨a, ha, rfl⟩ := List.mem_map.1 hid
      obtain ⟨r, hr, hload, hstale⟩ := (hexact.mem a).1 ha
      obtain ⟨hmem, hvisible⟩ := Store.mem_visible_iff.1 hr
      have hid : a.id = r.id := hload.id
      exact ⟨r, hmem, hid.symm, hvisible, a.updatedAt, hload.updatedAt,
        hid ▸ Sync.isStale_iff.1 hstale⟩
    · rintro ⟨r, hmem, rfl, hvisible, t, ht, hmisses⟩
      obtain ⟨a, ha⟩ := hvalid.subscription_loads hy query.detail hmem
      have hload := SubscriptionRow.load_eq_ok.1 ha
      obtain rfl : a.updatedAt = t := Except.ok.inj (hload.updatedAt.symm.trans ht)
      exact List.mem_map.2 ⟨a, (hexact.mem a).2 ⟨r, Store.mem_visible_iff.2 ⟨hmem, hvisible⟩, hload,
        Sync.isStale_iff.2 hmisses⟩, hload.id⟩
  · obtain ⟨r, hr, hload, -⟩ := (hexact.mem a).1 ha
    obtain ⟨hmem, huser, -⟩ := Store.mem_visible.1 hr
    have hid : a.id = r.id := hload.id
    have hget := Store.runOn_getSubscription (hvalid.subscription?_eq_some.2 ⟨hmem, rfl⟩)
      query.detail clock
    rwa [SubscriptionRow.load_eq_ok.2 hload, huser, ← hid] at hget

/-- One second after the epoch. -/
def secondLater : Instant :=
  { Instant.epoch with second := 1, second_lt := by decide, nano_lt := by decide }

/-- A user subscribes to one address and a second later to another, and so does somebody else. -/
def subscribingThrice : List Action :=
  [.start (.subscribe "http://a.com/" 1), .call 0, .read 0 .epoch, .call 0,
    .start (.subscribe "http://b.com/" 1), .call 1, .read 1 secondLater, .call 1,
    .start (.subscribe "http://a.com/" 2), .call 2, .read 2 secondLater, .call 2]

/-- The first subscription is named by a hint from the future and then by one from the past, which
counts; the second by one that is up to date. The last hint names somebody else's. -/
def hintsTwice : SyncQuery where
  hints := [⟨1, secondLater⟩, ⟨2, secondLater⟩, ⟨1, { Instant.epoch with
    day := -1, firstDay_le := by decide, le_lastDay := by decide }⟩, ⟨3, .epoch⟩]
  detail := true
  showPending := true

/-- A sync by hints of which one is out of date. -/
theorem sync_exact_hintsTwice : ∃ x : System, x.Reachable ∧ x.store.InYears ∧
    x.store.subscriptions.map (fun r => (r.id, r.user)) = [(1, 1), (2, 1), (3, 2)] ∧
    ∃ answer, (Store.sync 1 hintsTwice).runOn (fun _ => .epoch) x.store = (.ok answer, x.store) ∧
      answer.total = 2 ∧ 1 ∈ answer.subscriptions.map (·.id) ∧
      2 ∉ answer.subscriptions.map (·.id) ∧ ∀ a ∈ answer.subscriptions,
        (Store.getSubscription a.id 1 true).runOn (fun _ => .epoch) x.store =
          (.ok a, x.store) := by
  let first : String := "1970-01-01T00:00:00.000000Z"
  let second : String := "1970-01-01T00:00:01.000000Z"
  let s : Store :=
    ⟨[], [], [], [⟨1, 1, none, "pending", "http://a.com/", none, 0, first, first⟩,
      ⟨2, 1, none, "pending", "http://b.com/", none, 0, second, second⟩,
      ⟨3, 2, none, "pending", "http://a.com/", none, 0, second, second⟩], 3⟩
  have hproper : ∀ a ∈ subscribingThrice, a.Proper := by
    simp [subscribingThrice, Action.Proper, Request.Proper]
  have hplay : (initial.play subscribingThrice).map (·.store) = some s := by decide +kernel
  obtain ⟨x, hreachable, hstore⟩ := exists_of_play hproper hplay
  have hy : x.store.InYears := hstore ▸ Store.inYears_of_decode (by decide +kernel)
  have hfirst : Stamp.decode first = .ok .epoch := by
    rw [show first = Instant.epoch.stamp by decide +kernel, Instant.decode_stamp (by decide)]
    rfl
  have hsecond : Stamp.decode second = .ok secondLater := by
    rw [show second = secondLater.stamp by decide +kernel, Instant.decode_stamp (by decide)]
    rfl
  obtain ⟨answer, hanswer, htotal, -, hids, hread, -⟩ :=
    hreachable.sync_exact hy 1 hintsTwice fun _ => .epoch
  rw [hstore] at htotal hids
  refine ⟨x, hreachable, hy, by rw [hstore]; rfl, answer, hanswer, htotal, (hids 1).2 ?_,
    fun hmem => ?_, hread⟩
  · exact ⟨_, List.mem_cons_self, rfl, rfl, .epoch, hfirst, Sync.isStale_iff.1 (by decide)⟩
  · obtain ⟨r, hr, hid, -, t, ht, hmisses⟩ := (hids 2).1 hmem
    simp only [s, List.mem_cons, List.not_mem_nil, or_false] at hr
    rcases hr with rfl | rfl | rfl
    · cases hid
    · obtain rfl := Except.ok.inj (hsecond.symm.trans ht)
      exact absurd (Sync.isStale_iff.2 hmisses) (by decide)
    · cases hid

/-- A user subscribes to an address after the year 9999. -/
def subscribingAfterYears : List Action :=
  [.start (.subscribe "http://a.com/" 1), .call 0, .read 0 afterYears, .call 0]

/-- After the year 9999 a sync has no answer, although there is a subscription to see. -/
theorem sync_beyond_years : ∃ x : System, x.Reachable ∧
    (x.store.subscriptions.filter (·.isVisible 1 true)).length = 1 ∧
    ∀ answer, ((Store.sync 1 ⟨[], false, true⟩).runOn (fun _ => afterYears) x.store).1 ≠
      .ok answer := by
  let stamp : String := "+10000-01-01T00:00:00.000000Z"
  let s : Store :=
    ⟨[], [], [], [⟨1, 1, none, "pending", "http://a.com/", none, 0, stamp, stamp⟩], 1⟩
  have hproper : ∀ a ∈ subscribingAfterYears, a.Proper := by
    simp [subscribingAfterYears, Action.Proper, Request.Proper]
  have hplay : (initial.play subscribingAfterYears).map (·.store) = some s := by decide +kernel
  obtain ⟨x, hreachable, hstore⟩ := exists_of_play hproper hplay
  have hfails : ((Store.sync 1 ⟨[], false, true⟩).runOn (fun _ => afterYears) s).1.toBool =
      false := by decide +kernel
  refine ⟨x, hreachable, by rw [hstore]; rfl, fun answer hanswer => ?_⟩
  rw [← hstore, hanswer] at hfails
  cases hfails

end System

end Syndication
