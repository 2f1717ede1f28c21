import Syndication.Proofs.Program.Finishing
/-!
# Crawling the same payload again

Once a crawl has finished, the feed is settled (`Store.Settled`): its subscriptions are ready, and
what is known of its payload is what the crawl has left. As long as that is of the payload that
crawls bring, neither their beginnings nor their ends show (`Store.Settled.begin`,
`Store.Settled.finish`). What a crawl leaves is always of its own payload but in one case,
`Fingerprint.Mixes`, in which the next crawl takes the same payload for another:
`System.recrawl_unchanged`.
-/

namespace Syndication

/-! ## What a crawl leaves of a payload -/

namespace Fingerprint

/-- What is known of a payload after a crawl that has brought `new`. -/
def learn (old new : Fingerprint) : Fingerprint :=
  if new.agrees old then old.refresh new else new

/-- A payload of which a length was known is known again by its validators, and now a digest comes
without a length. What is refreshed has both, of which `new` has one. -/
structure Mixes (old new : Fingerprint) : Prop where
  agrees : new.agrees old = true
  hash : new.hash.isSome = true
  length : new.length = none
  known : old.length.isSome = true

variable {old new : Fingerprint}

theorem learn_of_agrees (h : new.agrees old = true) : old.learn new = old.refresh new := if_pos h

theorem learn_of_not_agrees (h : new.agrees old = false) : old.learn new = new :=
  if_neg (by simp [h])

/-- What has been learnt once is not refreshed any further. -/
theorem refresh_learn (old new : Fingerprint) : (old.learn new).refresh new = old.learn new := by
  have twice {α : Type} (a b : Option α) : (a <|> (a <|> b)) = (a <|> b) := by cases a <;> rfl
  have once {α : Type} (a : Option α) : (a <|> a) = a := by cases a <;> rfl
  unfold learn
  split
  · simp only [refresh, twice]
  · simp only [refresh, once]

/-- With a digest, what is refreshed is of the payload if the lengths do not differ. -/
theorem agrees_refresh_of_hash {digest : List UInt8} (h : new.hash = some digest) :
    new.agrees (old.refresh new) = true ↔ ¬ (new.length = none ∧ old.length.isSome = true) := by
  have hhash : (old.refresh new).hash = some digest := by simp [refresh, h]
  unfold agrees
  rw [h, hhash]
  cases hnew : new.length <;> cases hold : old.length <;> simp [refresh, hnew, hold]

/-- Without a digest, the validators decide, and they are the new ones. -/
theorem agrees_refresh_of_no_hash (h : new.hash = none) (hself : new.agrees new = true) :
    new.agrees (old.refresh new) = true := by
  unfold agrees at hself ⊢
  rw [h] at hself ⊢
  cases hetag : new.etag <;> cases hdate : new.lastModified <;>
    simp_all [refresh]

/-- **What a crawl leaves is of its own payload**, but for what mixes two. -/
theorem agrees_learn_iff (old : Fingerprint) (hself : new.agrees new = true) :
    new.agrees (old.learn new) = true ↔ ¬ Mixes old new := by
  cases hagrees : new.agrees old with
  | false =>
    rw [learn_of_not_agrees hagrees]
    exact ⟨fun _ h => by simp [h.agrees] at hagrees, fun _ => hself⟩
  | true =>
    rw [learn_of_agrees hagrees]
    cases hhash : new.hash with
    | none =>
      exact ⟨fun _ h => by simpa [hhash] using h.hash,
        fun _ => agrees_refresh_of_no_hash hhash hself⟩
    | some digest =>
      rw [agrees_refresh_of_hash hhash]
      refine not_congr ⟨fun h => ⟨hagrees, by simp [hhash], h.1, h.2⟩, fun h => ⟨h.length, h.known⟩⟩

end Fingerprint

/-! ## Crawls that finish whenever they do -/

/-- A subscription can follow its feed unless its clock cannot be read, whatever the time. -/
theorem SubscriptionRow.exists_follow_iff {feedId : Int} {status : Status} {now : Instant}
    {force : Bool} {r : SubscriptionRow} (hr : Stamp.IsWritten r.updatedAt) :
    (∃ r', r.follow feedId status now force = .ok r') ↔
      (r.feedId = some feedId ∧ (force = true ∨ r.status ≠ status.name) →
        ∃ previous, Stamp.decode r.updatedAt = .ok previous) := by
  unfold follow
  split
  · next hscope =>
    simp only [hscope]
    cases hclock : Stamp.decode r.updatedAt with
    | error fault => simp
    | ok previous =>
      obtain ⟨t, ht⟩ := Stamp.exists_advance? hr hclock now
      simp [ht]
  · next hscope => simp [hscope]

namespace FeedRow

variable {update : Feed.Update} {t₁ t₂ : Instant} {row : FeedRow} {t : Transition}

theorem exists_finishing {f : Feed} (hrow : Stamp.IsWritten row.updatedAt)
    (hload : row.load true = .ok f) (update : Feed.Update) (t₁ t₂ : Instant) :
    ∃ t, row.finishing update t₁ t₂ = some t := by
  obtain ⟨next, hnext⟩ := Stamp.exists_advance? hrow (load_eq_ok.1 hload).updatedAt t₂.truncate
  exact ⟨_, finishing_eq_some.2 ⟨f, next, hload, hnext, rfl⟩⟩

theorem target_of_finishing (ht : row.finishing update t₁ t₂ = some t) : t.target = .ready := by
  obtain ⟨f, next, -, -, rfl⟩ := finishing_eq_some.1 ht
  rfl

theorem rewrites_of_finishing (ht : row.finishing update t₁ t₂ = some t) :
    t.rewrites = !update.fingerprint.agrees row.fingerprint := by
  obtain ⟨f, next, -, -, rfl⟩ := finishing_eq_some.1 ht
  rfl

theorem proper_of_finishing (ht : row.finishing update t₁ t₂ = some t) : t.Proper := by
  obtain ⟨f, next, -, -, rfl⟩ := finishing_eq_some.1 ht
  exact ⟨Stamp.isWritten_stamp next, Stamp.isWritten_stamp _, t₁.isWhole_truncate⟩

theorem fingerprint_of_finishing (ht : row.finishing update t₁ t₂ = some t) :
    (row.apply t).fingerprint = row.fingerprint.learn update.fingerprint := by
  obtain ⟨f, next, -, -, rfl⟩ := finishing_eq_some.1 ht
  cases hagrees : update.fingerprint.agrees row.fingerprint with
  | false => exact (Fingerprint.learn_of_not_agrees hagrees).symm
  | true => exact (Fingerprint.learn_of_agrees hagrees).symm

theorem totalStories_apply (f : FeedRow) {t : Transition} (h : t.rewrites = false) :
    (f.apply t).totalStories = f.totalStories := by
  fun_cases f.apply t
  · rfl
  · cases h
  · rfl
  · rfl

end FeedRow

namespace Store

variable {s : Store} {id : Int} {row : FeedRow} {t : Transition} {update : Feed.Update}

/-- Subscriptions can follow their feed wherever it goes. -/
theorem Valid.exists_followers (hs : s.Valid) (hy : s.InYears) (id : Int) (t : Transition) :
    ∃ rows, s.followers id t = .ok rows := by
  have hfollow (status : Status) (now : Instant) (force : Bool) :
      ∀ r ∈ s.subscriptions, ∃ r', r.follow id status now force = .ok r' := by
    refine fun r hr => (SubscriptionRow.exists_follow_iff (hs.written_updatedAt hr)).2 fun _ => ?_
    exact hy.decode hs (mem_stamps.2 (.inr (.inr (.inr ⟨r, hr, by simp [SubscriptionRow.stamps]⟩))))
  cases t with
  | begin checkedAt => exact ⟨_, rfl⟩
  | finish update changed updatedAt syncedAt now =>
    obtain ⟨rows, hrows, -⟩ := exists_mapM_eq_ok (hfollow .ready now changed)
    exact ⟨rows, hrows⟩
  | fail now =>
    obtain ⟨rows, hrows, -⟩ := exists_mapM_eq_ok (hfollow .error now false)
    exact ⟨rows, hrows⟩

theorem moved_of_followers {rows : List SubscriptionRow} (hrow : s.feed? id = some row)
    (hstatus : row.status ∈ t.target.predecessors.map Status.name)
    (hrows : s.followers id t = .ok rows) : (s.moveFeed id t).1 = .moved := by
  unfold moveFeed
  rw [hrow]
  dsimp only
  rw [if_pos hstatus, hrows]

/-- A crawl can begin on a feed that is ready: its subscriptions stay as they are. -/
theorem moved_begin (hrow : s.feed? id = some row) (hstatus : row.status = Status.ready.name)
    (checkedAt : String) : (s.moveFeed id (.begin checkedAt)).1 = .moved :=
  moved_of_followers hrow (by simp [hstatus, Transition.target, Status.predecessors]) rfl

/-- A crawl that is under way can finish if the clocks of the subscriptions that follow the feed can
be read. -/
theorem moved_of_finishing (hs : s.Valid) (hrow : s.feed? id = some row)
    (hstatus : row.status ∈ Status.ready.predecessors.map Status.name) {t₁ t₂ : Instant}
    (ht : row.finishing update t₁ t₂ = some t)
    (hclocks : ∀ r ∈ s.subscriptions, r.feedId = some id ∧
      (t.rewrites = true ∨ r.status ≠ Status.ready.name) →
        ∃ previous, Stamp.decode r.updatedAt = .ok previous) :
    (s.moveFeed id t).1 = .moved := by
  rw [← FeedRow.target_of_finishing ht] at hstatus
  obtain ⟨f, next, -, -, rfl⟩ := FeedRow.finishing_eq_some.1 ht
  have hfollow : ∀ r ∈ s.subscriptions, ∃ r', r.follow id .ready t₁.truncate
      (!update.fingerprint.agrees row.fingerprint) = .ok r' := fun r hr =>
    (SubscriptionRow.exists_follow_iff (hs.written_updatedAt hr)).2 (hclocks r hr)
  obtain ⟨rows, hrows, -⟩ := exists_mapM_eq_ok hfollow
  exact moved_of_followers hrow hstatus hrows

/-- If a crawl can finish at some time then it can at any other. -/
theorem exists_moved_finish (hs : s.Valid) (hrow : s.feed? id = some row) {t₁ t₂ : Instant}
    (ht : row.finishing update t₁ t₂ = some t) (hmoved : (s.moveFeed id t).1 = .moved)
    (t₁' t₂' : Instant) :
    ∃ t', row.finishing update t₁' t₂' = some t' ∧ (s.moveFeed id t').1 = .moved := by
  obtain ⟨f, -, hload, -⟩ := FeedRow.finishing_eq_some.1 ht
  obtain ⟨t', ht'⟩ := FeedRow.exists_finishing (hs.written_feed hrow) hload update t₁' t₂'
  obtain ⟨hstatus, rows, hrows, -⟩ := moveFeed_of_moved hrow hmoved
  rw [FeedRow.target_of_finishing ht] at hstatus
  refine ⟨t', ht', moved_of_finishing hs hrow hstatus ht' fun r hr => ?_⟩
  rw [FeedRow.rewrites_of_finishing ht', ← FeedRow.rewrites_of_finishing ht]
  obtain ⟨_, next, -, -, rfl⟩ := FeedRow.finishing_eq_some.1 ht
  obtain ⟨r', -, hr'⟩ := forall₂_left (mapM_eq_ok.1 hrows) hr
  exact (SubscriptionRow.exists_follow_iff (hs.written_updatedAt hr)).1 ⟨r', hr'⟩

/-- Whether a crawl can finish does not depend on the time: none can at any time, or each makes its
transition. -/
theorem finishCrawl_cases (hs : s.Valid) (hrow : s.feed? id = some row) (update : Feed.Update) :
    (∀ clock, ((finishCrawl id update).runOn clock s).2 = s) ∨
      ∀ clock : Nat → Instant, ∃ t, row.finishing update (clock 0) (clock 1) = some t ∧
        (s.moveFeed id t).1 = .moved ∧
        ((finishCrawl id update).runOn clock s).2 = (s.moveFeed id t).2 := by
  by_cases hcan : ∃ t₁ t₂ t, row.finishing update t₁ t₂ = some t ∧ (s.moveFeed id t).1 = .moved
  · obtain ⟨t₁, t₂, t, ht, hmoved⟩ := hcan
    refine .inr fun clock => ?_
    obtain ⟨t', ht', hmoved'⟩ := exists_moved_finish hs hrow ht hmoved (clock 0) (clock 1)
    refine ⟨t', ht', hmoved', ?_⟩
    rw [runOn_finishCrawl, hrow, Option.bind_some, ht', Option.elim_some]
  · refine .inl fun clock => ?_
    rw [runOn_finishCrawl, hrow, Option.bind_some]
    cases ht : row.finishing update (clock 0) (clock 1) with
    | none => rfl
    | some t =>
      rcases s.moveFeed_cases id t with ⟨-, hstays⟩ | ⟨_, _, -, -, -, hleft⟩
      · exact hstays
      · exact absurd ⟨_, _, t, ht, congrArg Prod.fst hleft⟩ hcan

/-- In the years 0 to 9999 every crawl that is under way can finish. -/
theorem exists_moved_of_inYears (hs : s.Valid) (hy : s.InYears) (hrow : s.feed? id = some row)
    (hstatus : row.status = Status.updating.name) (update : Feed.Update) (t₁ t₂ : Instant) :
    ∃ t, row.finishing update t₁ t₂ = some t ∧ (s.moveFeed id t).1 = .moved := by
  obtain ⟨f, hload⟩ := hs.feed_loads hy true (mem_of_feed? hrow).1
  obtain ⟨t, ht⟩ := FeedRow.exists_finishing (hs.written_feed hrow) hload update t₁ t₂
  obtain ⟨rows, hrows⟩ := hs.exists_followers hy id t
  have hadmits : row.status ∈ t.target.predecessors.map Status.name := by
    rw [FeedRow.target_of_finishing ht, hstatus]
    decide
  exact ⟨t, ht, moved_of_followers hrow hadmits hrows⟩

/-! ## Settled feeds -/

/-- Two stores look the same to whoever follows a feed: what describes it, the number of its stories
and all subscriptions. -/
structure LooksSame (id : Int) (s t : Store) : Prop where
  feed : (t.feed? id).map (fun f => (f.description, f.totalStories)) =
    (s.feed? id).map (fun f => (f.description, f.totalStories))
  subscriptions : t.subscriptions = s.subscriptions

theorem LooksSame.refl (id : Int) (s : Store) : s.LooksSame id s := ⟨rfl, rfl⟩

theorem LooksSame.trans {t u : Store} (hst : s.LooksSame id t) (htu : t.LooksSame id u) :
    s.LooksSame id u :=
  ⟨htu.feed.trans hst.feed, htu.subscriptions.trans hst.subscriptions⟩

/-- A crawl of a feed has finished: what is known of the payload is `known`, and the subscriptions
to the feed are ready. -/
structure Settled (id : Int) (known : Fingerprint) (s : Store) : Prop where
  feed : ∃ row, s.feed? id = some row ∧ row.fingerprint = known
  subscriptions : ∀ r ∈ s.subscriptions, r.feedId = some id → r.status = Status.ready.name

/-- A crawl that finishes settles the feed. -/
theorem settled_of_moved (hrow : s.feed? id = some row) {t₁ t₂ : Instant}
    (ht : row.finishing update t₁ t₂ = some t) (hmoved : (s.moveFeed id t).1 = .moved) :
    (s.moveFeed id t).2.Settled id (row.fingerprint.learn update.fingerprint) := by
  refine ⟨⟨_, feed?_moveFeed hrow hmoved, FeedRow.fingerprint_of_finishing ht⟩, ?_⟩
  obtain ⟨-, rows, hrows, hleft⟩ := moveFeed_of_moved hrow hmoved
  obtain ⟨f, next, -, -, rfl⟩ := FeedRow.finishing_eq_some.1 ht
  rw [hleft]
  intro r' hr' hfeed
  obtain ⟨r, -, hr⟩ := forall₂_right (mapM_eq_ok.1 hrows) hr'
  rcases SubscriptionRow.follow_cases hr with ⟨rfl, hkept⟩ | ⟨-, _, _, -, -, rfl⟩
  · exact (hkept hfeed).2
  · rfl

/-- Subscriptions that are ready follow into that status by staying as they are. -/
theorem Settled.followers {known : Fingerprint} (h : s.Settled id known) (now : Instant) :
    s.subscriptions.mapM (SubscriptionRow.follow id .ready now false) = .ok s.subscriptions := by
  refine mapM_eq_ok.2 (List.forall₂_same.2 fun r hr => ?_)
  by_cases hfeed : r.feedId = some id
  · simp [SubscriptionRow.follow, h.subscriptions r hr hfeed]
  · simp [SubscriptionRow.follow, hfeed]

/-- A transition that rewrites nothing and leaves the subscriptions as they are does not show. -/
theorem looksSame_of_moved (hrow : s.feed? id = some row) (hmoved : (s.moveFeed id t).1 = .moved)
    (hkeeps : t.rewrites = false) (hfollow : s.followers id t = .ok s.subscriptions) :
    s.LooksSame id (s.moveFeed id t).2 := by
  obtain ⟨-, rows, hrows, hleft⟩ := moveFeed_of_moved hrow hmoved
  refine ⟨?_, ?_⟩
  · rw [feed?_moveFeed hrow hmoved, hrow, Option.map_some, Option.map_some,
      row.description_apply hkeeps, row.totalStories_apply hkeeps]
  · rw [hleft]
    exact Except.ok.inj (hrows.symm.trans hfollow)

/-- A crawl that brings another payload than the known one shows. -/
theorem not_looksSame_of_moved (hs : s.Valid) (hrow : s.feed? id = some row) {t₁ t₂ : Instant}
    (ht : row.finishing update t₁ t₂ = some t) (hmoved : (s.moveFeed id t).1 = .moved)
    (hnew : ¬ update.fingerprint.agrees row.fingerprint = true) :
    ¬ s.LooksSame id (s.moveFeed id t).2 := by
  intro h
  have hfinished := FeedRow.finished_of_finishing (hs.written_feed hrow) ht
  rw [FeedRow.Finished, if_neg hnew] at hfinished
  have hfeed := h.feed
  rw [feed?_moveFeed hrow hmoved, hrow, Option.map_some, Option.map_some, Option.some.injEq,
    Prod.mk.injEq] at hfeed
  have hclock : (row.apply t).updatedAt = row.updatedAt :=
    congrArg FeedRow.Description.updatedAt hfeed.1
  rw [hclock] at hfinished
  exact Stamp.Before.irrefl _ hfinished.2.2

/-- Of a settled feed a transition that rewrites nothing leaves everything that shows. -/
theorem Settled.moveFeed {known : Fingerprint} (h : s.Settled id known)
    (hkeeps : t.rewrites = false) (hfollow : s.followers id t = .ok s.subscriptions)
    (hknown : ∀ row, s.feed? id = some row → (row.apply t).fingerprint = known) :
    s.LooksSame id (s.moveFeed id t).2 ∧ (s.moveFeed id t).2.Settled id known := by
  obtain ⟨row, hrow, -⟩ := h.feed
  rcases s.moveFeed_cases id t with ⟨-, hstays⟩ | ⟨_, _, -, -, -, hleft⟩
  · rw [hstays]
    exact ⟨.refl id s, h⟩
  · have hmoved : (s.moveFeed id t).1 = .moved := congrArg Prod.fst hleft
    have hsame := looksSame_of_moved hrow hmoved hkeeps hfollow
    refine ⟨hsame, ⟨_, feed?_moveFeed hrow hmoved, hknown row hrow⟩, ?_⟩
    rw [hsame.subscriptions]
    exact h.subscriptions

/-! ## One crawl after another -/

/-- A transition that moves a feed ends with the feed as it is then. -/
theorem ensures_transit_of_moved {clock : Nat → Instant}
    {post : Store × (Nat → Instant) → Except StoreError Feed → Prop}
    (hrow : s.feed? id = some row) (hmoved : (s.moveFeed id t).1 = .moved)
    (hpost : post ((s.moveFeed id t).2, clock) ((row.apply t).load true)) :
    (transit id t).Ensures .timed (fun _ _ => True) post (s, clock) := by
  refine ensures_transit_iff.2 ⟨True.intro, fun outcome y hy => ?_⟩
  obtain ⟨houtcome, rfl⟩ := hy
  obtain rfl : outcome = .moved := houtcome.symm.trans hmoved
  refine ⟨True.intro, fun found z hz => ?_⟩
  obtain ⟨hfound, rfl⟩ := hz
  obtain rfl : found = some (row.apply t) := hfound.symm.trans (feed?_moveFeed hrow hmoved)
  exact hpost

/-- A crawl that can finish ends with the feed as it has left it. -/
theorem runOn_finishCrawl_of_moved {clock : Nat → Instant} (hrow : s.feed? id = some row)
    (ht : row.finishing update (clock 0) (clock 1) = some t)
    (hmoved : (s.moveFeed id t).1 = .moved) :
    (finishCrawl id update).runOn clock s = ((row.apply t).load true, (s.moveFeed id t).2) := by
  refine Operation.Ensures.runOn_eq
    (ensures_finishCrawl_timed (fun hnone => ?_) fun found u hfound hu => ?_)
  · rw [hrow, Option.bind_some, ht] at hnone
    cases hnone
  · obtain rfl := Option.some.inj (hrow.symm.trans hfound)
    obtain rfl := Option.some.inj (ht.symm.trans hu)
    exact ensures_transit_of_moved hrow hmoved rfl

theorem finishCrawl_of_inYears (hs : s.Valid) (hy : s.InYears) (hrow : s.feed? id = some row)
    (hstatus : row.status = Status.updating.name) (update : Feed.Update) (clock : Nat → Instant) :
    ∃ t, row.finishing update (clock 0) (clock 1) = some t ∧ (s.moveFeed id t).1 = .moved ∧
      (finishCrawl id update).runOn clock s = ((row.apply t).load true, (s.moveFeed id t).2) := by
  obtain ⟨t, ht, hmoved⟩ := exists_moved_of_inYears hs hy hrow hstatus update (clock 0) (clock 1)
  exact ⟨t, ht, hmoved, runOn_finishCrawl_of_moved hrow ht hmoved⟩

/-- A crawl that can begin ends with the feed as it has left it. -/
theorem runOn_beginCrawl_of_moved {clock : Nat → Instant} (hrow : s.feed? id = some row)
    (hmoved : (s.moveFeed id (.begin (clock 0).truncate.stamp)).1 = .moved) :
    (beginCrawl id).runOn clock s = ((row.apply (.begin (clock 0).truncate.stamp)).load true,
      (s.moveFeed id (.begin (clock 0).truncate.stamp)).2) := by
  unfold beginCrawl
  refine Operation.Ensures.runOn_eq (Operation.ensures_bind.2 (Operation.ensures_now.2 fun t y hy =>
    Operation.continues_ok.2 ?_))
  obtain ⟨rfl, rfl⟩ := hy
  exact ensures_transit_of_moved hrow hmoved rfl

/-- Beginning a crawl at one stroke is one transition, at the time that the clock shows. -/
theorem runOn_beginCrawl (id : Int) (clock : Nat → Instant) (s : Store) :
    ((beginCrawl id).runOn clock s).2 =
      (s.moveFeed id (.begin (clock 0).truncate.stamp)).2 := by
  have hbegin : (beginCrawl id).Ensures .timed (fun _ _ => True)
      (fun y _ => y.1 = (s.moveFeed id (.begin (clock 0).truncate.stamp)).2) (s, clock) := by
    unfold beginCrawl
    refine Operation.ensures_bind.2 (Operation.ensures_now.2 fun t y hy =>
      Operation.continues_ok.2 ?_)
    obtain ⟨rfl, rfl⟩ := hy
    exact ensures_transit_timed
  exact @Operation.Ensures.runOn_timed _ _ (fun s' _ => s' = _) _ _ _ hbegin

theorem runOn_beginCrawl_of_updating (hrow : s.feed? id = some row)
    (hstatus : row.status = Status.updating.name) (clock : Nat → Instant) :
    ((beginCrawl id).runOn clock s).2 = s := by
  rw [runOn_beginCrawl]
  rcases s.moveFeed_cases id (.begin (clock 0).truncate.stamp) with
    ⟨-, hstays⟩ | ⟨_, _, hfound, hadmits, -⟩
  · exact hstays
  · obtain rfl := Option.some.inj (hrow.symm.trans hfound)
    rw [hstatus] at hadmits
    exact absurd hadmits (Status.name_not_mem_predecessors .updating)

namespace Settled

variable {known : Fingerprint}

/-- The beginning of a crawl does not show. -/
theorem begin (h : s.Settled id known) (clock : Nat → Instant) :
    s.LooksSame id ((beginCrawl id).runOn clock s).2 ∧
      ((beginCrawl id).runOn clock s).2.Settled id known := by
  rw [runOn_beginCrawl]
  obtain ⟨row, hrow, hknown⟩ := h.feed
  refine h.moveFeed rfl rfl fun found hfound => ?_
  obtain rfl := Option.some.inj (hrow.symm.trans hfound)
  exact hknown

/-- The end of a crawl does not show if what is known is of the payload that it has brought. -/
theorem finish (h : s.Settled id known) (hagrees : update.fingerprint.agrees known = true)
    (hrefresh : known.refresh update.fingerprint = known) (clock : Nat → Instant) :
    s.LooksSame id ((finishCrawl id update).runOn clock s).2 ∧
      ((finishCrawl id update).runOn clock s).2.Settled id known := by
  obtain ⟨row, hrow, rfl⟩ := h.feed
  rw [runOn_finishCrawl, hrow, Option.bind_some]
  cases ht : row.finishing update (clock 0) (clock 1) with
  | none => exact ⟨.refl id s, h⟩
  | some t =>
    have hfingerprint := FeedRow.fingerprint_of_finishing ht
    have hkeeps : t.rewrites = false := by simp [FeedRow.rewrites_of_finishing ht, hagrees]
    refine h.moveFeed hkeeps ?_ fun found hfound => ?_
    · obtain ⟨f, next, -, -, rfl⟩ := FeedRow.finishing_eq_some.1 ht
      rw [Store.followers, hagrees]
      exact h.followers _
    · obtain rfl := Option.some.inj (hrow.symm.trans hfound)
      rw [hfingerprint, Fingerprint.learn_of_agrees hagrees, hrefresh]

end Settled

/-- **The same payload again does not show** if what is known after its first crawl is of it. -/
theorem looksSame_recrawl (hs : s.Valid) (hrow : s.feed? id = some row)
    (hstatus : row.status = Status.updating.name)
    (hagrees : update.fingerprint.agrees (row.fingerprint.learn update.fingerprint) = true)
    (clock₁ clock₂ clock₃ : Nat → Instant) {s₁ s₂ : Store}
    (h₁ : ((finishCrawl id update).runOn clock₁ s).2 = s₁)
    (h₂ : ((beginCrawl id).runOn clock₂ s₁).2 = s₂) :
    s₂.LooksSame id ((finishCrawl id update).runOn clock₃ s₂).2 := by
  subst h₁ h₂
  rcases finishCrawl_cases hs hrow update with hnever | hfinishes
  · -- the crawl stays under way, so none begins
    rw [hnever clock₁, runOn_beginCrawl_of_updating hrow hstatus, hnever clock₃]
    exact .refl id s
  · obtain ⟨t, ht, hmoved, hleft⟩ := hfinishes clock₁
    have hsettled := settled_of_moved hrow ht hmoved
    rw [← hleft] at hsettled
    exact ((hsettled.begin clock₂).2.finish hagrees (Fingerprint.refresh_learn _ _) clock₃).1

/-- In the years 0 to 9999 a crawl can be finished and begun again, and what is known of the payload
then is what it has left. -/
theorem recrawl_of_inYears (hs : s.Valid) (hy : s.InYears) (hrow : s.feed? id = some row)
    (hstatus : row.status = Status.updating.name) {clock₁ clock₂ : Nat → Instant}
    {r₁ r₂ : Except StoreError Feed} {s₁ s₂ : Store}
    (h₁ : (finishCrawl id update).runOn clock₁ s = (r₁, s₁))
    (h₂ : (beginCrawl id).runOn clock₂ s₁ = (r₂, s₂)) :
    s₁.Valid ∧ s₂.Valid ∧ ∃ row₁ row₂, s₁.feed? id = some row₁ ∧ row₁.load true = r₁ ∧
      s₂.feed? id = some row₂ ∧ row₂.load true = r₂ ∧ row₂.status = Status.updating.name ∧
      row₂.fingerprint = row.fingerprint.learn update.fingerprint := by
  obtain ⟨t, ht, hmoved, hleft⟩ := finishCrawl_of_inYears hs hy hrow hstatus update clock₁
  obtain ⟨rfl, rfl⟩ := Prod.mk.inj (hleft.symm.trans h₁)
  have hrow₁ := feed?_moveFeed hrow hmoved
  have hready : (row.apply t).status = Status.ready.name := by
    rw [FeedRow.status_apply, FeedRow.target_of_finishing ht]
  have hmoved₂ := moved_begin hrow₁ hready (clock₂ 0).truncate.stamp
  obtain ⟨rfl, rfl⟩ := Prod.mk.inj ((runOn_beginCrawl_of_moved hrow₁ hmoved₂).symm.trans h₂)
  have hs₁ := hs.moveFeed id (FeedRow.proper_of_finishing ht)
  have hs₂ := hs₁.moveFeed id (t := .begin _) (Stamp.isWritten_stamp (clock₂ 0).truncate)
  exact ⟨hs₁, hs₂, _, _, hrow₁, rfl, feed?_moveFeed hrow₁ hmoved₂, rfl, rfl,
    FeedRow.fingerprint_of_finishing ht⟩

end Store

namespace System

variable {x : System} {id : Int} {row : FeedRow} {update : Feed.Update}

/-- A user follows a feed. A crawl has brought an entity tag and a length, and the next one is under
way. The clock stands still. -/
def crawlingAgain : List Action :=
  [.start (.getOrCreateFeed "http://a.com/rss.xml"), .read 0 .epoch, .call 0,
    .start (.recordMapping "http://a.com/" "http://a.com/rss.xml"), .read 1 .epoch, .call 1,
    .start (.subscribe "http://a.com/" 1), .call 2, .call 2, .call 2, .read 2 .epoch, .call 2,
    .start (.beginCrawl 1), .read 3 .epoch, .call 3,
    .start (.finishCrawl 1 ⟨.empty, none, 0, ⟨some 5, none, some "e", none⟩⟩), .call 4,
    .read 4 .epoch, .read 4 .epoch, .call 4,
    .start (.beginCrawl 1), .read 5 .epoch, .call 5]

theorem proper_crawlingAgain : ∀ a ∈ crawlingAgain, a.Proper := by
  simp [crawlingAgain, Action.Proper, Request.Proper]

/-- The feed after it. -/
def crawledRow : FeedRow :=
  ⟨1, "http://a.com/rss.xml", "updating", .empty, "1970-01-01T00:00:00.000000Z",
    "1970-01-01T00:00:00.000001Z", 0, none, ⟨some 5, none, some "e", none⟩,
    some "1970-01-01T00:00:00.000000Z", some "1970-01-01T00:00:00.000000Z"⟩

/-- The store after it. -/
def crawledStore : Store where
  feeds := [crawledRow]
  snapshots := []
  mappings := [⟨1, "http://a.com/", "http://a.com/rss.xml", "1970-01-01T00:00:00.000000Z"⟩]
  subscriptions := [⟨1, 1, some 1, "ready", "http://a.com/", none, 0,
    "1970-01-01T00:00:00.000000Z", "1970-01-01T00:00:00.000001Z"⟩]
  lastSubscriptionId := 1

theorem exists_crawledStore : ∃ x : System, x.Reachable ∧ x.store = crawledStore :=
  exists_of_play proper_crawlingAgain (by decide +kernel)

/-- **The same payload again**: when a crawl that is under way has finished, and another one begins
and brings the same payload, neither the feed nor its subscriptions look different for it, unless
the first one has mixed what was known of the payload with what it has brought. In the years 0 to
9999 all three requests succeed, and where it has mixed them the feed does look different. -/
theorem recrawl_unchanged (hx : x.Reachable) (hrow : x.store.feed? id = some row)
    (hstatus : row.status = Status.updating.name)
    (hself : update.fingerprint.agrees update.fingerprint = true)
    {clock₁ clock₂ clock₃ : Nat → Instant} {r₁ r₂ r₃ : Except StoreError Feed} {s₁ s₂ s₃ : Store}
    (h₁ : (Store.finishCrawl id update).runOn clock₁ x.store = (r₁, s₁))
    (h₂ : (Store.beginCrawl id).runOn clock₂ s₁ = (r₂, s₂))
    (h₃ : (Store.finishCrawl id update).runOn clock₃ s₂ = (r₃, s₃)) :
    (¬ Fingerprint.Mixes row.fingerprint update.fingerprint → s₂.LooksSame id s₃) ∧
      (x.store.InYears → s₁.InYears → s₂.InYears → s₃.InYears →
        (∃ f₁ f₂ f₃, r₁ = .ok f₁ ∧ r₂ = .ok f₂ ∧ r₃ = .ok f₃) ∧
        (∃ row₂, s₂.feed? id = some row₂ ∧ (update.fingerprint.agrees row₂.fingerprint = true ↔
          ¬ Fingerprint.Mixes row.fingerprint update.fingerprint)) ∧
        (s₂.LooksSame id s₃ ↔ ¬ Fingerprint.Mixes row.fingerprint update.fingerprint)) := by
  have hs := hx.sound.valid
  have hagrees := Fingerprint.agrees_learn_iff row.fingerprint hself
  have hsame : ¬ Fingerprint.Mixes row.fingerprint update.fingerprint → s₂.LooksSame id s₃ := by
    intro hmixes
    obtain rfl : _ = s₃ := congrArg Prod.snd h₃
    exact Store.looksSame_recrawl hs hrow hstatus (hagrees.2 hmixes) clock₁ clock₂ clock₃
      (congrArg Prod.snd h₁) (congrArg Prod.snd h₂)
  refine ⟨hsame, fun hy hy₁ hy₂ hy₃ => ?_⟩
  obtain ⟨hs₁, hs₂, row₁, row₂, hrow₁, rfl, hrow₂, rfl, hstatus₂, hknown⟩ :=
    Store.recrawl_of_inYears hs hy hrow hstatus h₁ h₂
  obtain ⟨t, ht, hmoved, hleft⟩ :=
    Store.finishCrawl_of_inYears hs₂ hy₂ hrow₂ hstatus₂ update clock₃
  obtain ⟨rfl, rfl⟩ := Prod.mk.inj (hleft.symm.trans h₃)
  have hs₃ := hs₂.moveFeed id (FeedRow.proper_of_finishing ht)
  have hrow₃ := Store.feed?_moveFeed hrow₂ hmoved
  obtain ⟨f₁, hf₁⟩ := hs₁.feed_loads hy₁ true (Store.mem_of_feed? hrow₁).1
  obtain ⟨f₂, hf₂⟩ := hs₂.feed_loads hy₂ true (Store.mem_of_feed? hrow₂).1
  obtain ⟨f₃, hf₃⟩ := hs₃.feed_loads hy₃ true (Store.mem_of_feed? hrow₃).1
  rw [← hknown] at hagrees
  refine ⟨⟨f₁, f₂, f₃, hf₁, hf₂, hf₃⟩, ⟨row₂, hrow₂, hagrees⟩, fun hlooks hmixes => ?_, hsame⟩
  have hnew : ¬ update.fingerprint.agrees row₂.fingerprint = true := by
    rw [hagrees]
    exact not_not_intro hmixes
  exact Store.not_looksSame_of_moved hs₂ hrow₂ ht hmoved hnew hlooks

/-- A payload that is known by its entity tag comes with its length and its digest, twice. -/
theorem recrawl_unchanged_crawlingAgain : ∃ x : System, ∃ update : Feed.Update,
    ∃ r₁ r₂ r₃ s₁ s₂ s₃, x.Reachable ∧ x.store.feed? 1 = some crawledRow ∧
      crawledRow.status = Status.updating.name ∧
      update.fingerprint.agrees update.fingerprint = true ∧
      (Store.finishCrawl 1 update).runOn (fun _ => .epoch) x.store = (r₁, s₁) ∧
      (Store.beginCrawl 1).runOn (fun _ => .epoch) s₁ = (r₂, s₂) ∧
      (Store.finishCrawl 1 update).runOn (fun _ => .epoch) s₂ = (r₃, s₃) ∧
      x.store.InYears ∧ s₁.InYears ∧ s₂.InYears ∧ s₃.InYears ∧
      ¬ Fingerprint.Mixes crawledRow.fingerprint update.fingerprint ∧
      (∃ f₁ f₂ f₃, r₁ = .ok f₁ ∧ r₂ = .ok f₂ ∧ r₃ = .ok f₃) ∧ s₂.LooksSame 1 s₃ := by
  obtain ⟨x, hx, hstore⟩ := exists_crawledStore
  let update : Feed.Update := ⟨.empty, none, 0, ⟨some 5, some [1], some "e", none⟩⟩
  have hrow : x.store.feed? 1 = some crawledRow := by
    rw [hstore]
    decide
  have hmixes : ¬ Fingerprint.Mixes crawledRow.fingerprint update.fingerprint :=
    fun h => absurd h.length (by decide)
  let left₁ := (Store.finishCrawl 1 update).runOn (fun _ => .epoch) crawledStore
  let left₂ := (Store.beginCrawl 1).runOn (fun _ => .epoch) left₁.2
  let left₃ := (Store.finishCrawl 1 update).runOn (fun _ => .epoch) left₂.2
  have h₁ : (Store.finishCrawl 1 update).runOn (fun _ => .epoch) x.store = (left₁.1, left₁.2) :=
    hstore ▸ Prod.mk.eta.symm
  have h₂ : (Store.beginCrawl 1).runOn (fun _ => .epoch) left₁.2 = (left₂.1, left₂.2) :=
    Prod.mk.eta.symm
  have h₃ : (Store.finishCrawl 1 update).runOn (fun _ => .epoch) left₂.2 = (left₃.1, left₃.2) :=
    Prod.mk.eta.symm
  have hself : update.fingerprint.agrees update.fingerprint = true := by decide
  have hy : x.store.InYears := hstore ▸ Store.inYears_of_decode (by decide +kernel)
  have hy₁ : left₁.2.InYears := Store.inYears_of_decode (by decide +kernel)
  have hy₂ : left₂.2.InYears := Store.inYears_of_decode (by decide +kernel)
  have hy₃ : left₃.2.InYears := Store.inYears_of_decode (by decide +kernel)
  obtain ⟨hsame, hall⟩ := recrawl_unchanged hx hrow rfl hself h₁ h₂ h₃
  exact ⟨x, update, left₁.1, left₂.1, left₃.1, left₁.2, left₂.2, left₃.2, hx, hrow, rfl, hself, h₁,
    h₂, h₃, hy, hy₁, hy₂, hy₃, hmixes, (hall hy hy₁ hy₂ hy₃).1, hsame hmixes⟩

/-- A payload that is known by its entity tag comes with its digest but without its length. The next
crawl takes it for another one and moves the clocks of the feed and of its subscription. -/
theorem recrawl_mixes : ∃ x : System, ∃ update : Feed.Update, ∃ s₁ s₂ s₃ : Store, x.Reachable ∧
    x.store.feed? 1 = some crawledRow ∧ crawledRow.status = Status.updating.name ∧
    update.fingerprint.agrees update.fingerprint = true ∧
    ((Store.finishCrawl 1 update).runOn (fun _ => .epoch) x.store).2 = s₁ ∧
    ((Store.beginCrawl 1).runOn (fun _ => .epoch) s₁).2 = s₂ ∧
    ((Store.finishCrawl 1 update).runOn (fun _ => .epoch) s₂).2 = s₃ ∧
    (s₃.feed? 1).map (·.updatedAt) ≠ (s₂.feed? 1).map (·.updatedAt) ∧
    s₃.subscriptions ≠ s₂.subscriptions := by
  obtain ⟨x, hx, hstore⟩ := exists_crawledStore
  refine ⟨x, ⟨.empty, none, 0, ⟨none, some [1], some "e", none⟩⟩, _, _, _, hx, ?_, rfl, by decide,
    rfl, rfl, rfl, ?_, ?_⟩
  · rw [hstore]
    decide
  · rw [hstore]
    decide +kernel
  · rw [hstore]
    decide +kernel

end System

end Syndication
