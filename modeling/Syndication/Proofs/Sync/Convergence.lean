import Syndication.Proofs.Program.Sequential
import Syndication.Proofs.Program.System
import Syndication.Proofs.Sync.Answer
/-!
# Sync converges

A client keeps a cache of a user's subscriptions. At any time it sends what it holds as hints and
overwrites its cache with what comes back, while all kinds of requests run in between, one after
another and with a clock that shows anything. Then after each sync the cache agrees with the store
on every visible subscription, and it holds more than there is only because subscriptions have been
deleted (`Client.sync_converges`). What carries this is `Client.Follows`: between a cached
subscription and the stored one nothing has changed, or the clock has moved on.
-/

namespace Syndication

/-! ## Agreement -/

/-- Two values of a feed agree on what describes it. -/
structure Feed.Agrees (a b : Feed) : Prop where
  id : a.id = b.id
  url : a.url = b.url
  profile : a.profile = b.profile
  createdAt : a.createdAt = b.createdAt
  updatedAt : a.updatedAt = b.updatedAt

/-- Two values of a subscription agree, apart from where its feed stands in its crawls. -/
structure Subscription.Agrees (a b : Subscription) : Prop where
  id : a.id = b.id
  user : a.user = b.user
  feedId : a.feedId = b.feedId
  status : a.status = b.status
  url : a.url = b.url
  title : a.title = b.title
  storyOffset : a.storyOffset = b.storyOffset
  createdAt : a.createdAt = b.createdAt
  updatedAt : a.updatedAt = b.updatedAt
  feed : Option.Rel Feed.Agrees a.feed b.feed

theorem FeedRow.Loads.agrees {detail : Bool} {r r' : FeedRow} {a b : Feed} (ha : r.Loads detail a)
    (hb : r'.Loads detail b) (h : r.description = r'.description) : a.Agrees b := by
  simp only [description, FeedRow.Description.mk.injEq] at h
  obtain ⟨hid, hurl, hprofile, hcreated, hupdated⟩ := h
  exact
    { id := by rw [ha.id, hb.id, hid]
      url := by rw [ha.url, hb.url, hurl]
      profile := by rw [ha.profile, hb.profile, hprofile]
      createdAt := Except.ok.inj (ha.createdAt.symm.trans (hcreated ▸ hb.createdAt))
      updatedAt := Except.ok.inj (ha.updatedAt.symm.trans (hupdated ▸ hb.updatedAt)) }

/-- Values of subscriptions that look the same agree. -/
theorem SubscriptionRow.Loads.agrees {detail : Bool} {s s₀ : Store} {r r₀ : SubscriptionRow}
    {a b : Subscription} (ha : Loads detail (s₀.withFeed r₀) a) (hb : Loads detail (s.withFeed r) b)
    (h : s.view r = s₀.view r₀) : a.Agrees b := by
  obtain ⟨rfl, hfeeds⟩ := Prod.mk.inj h
  have hfeed : Option.Rel Feed.Agrees a.feed b.feed := by
    have ha := ha.feed
    have hb := hb.feed
    simp only [Store.withFeed] at ha hb
    cases hs : r.feedId.bind s.feed? with
    | none =>
      rw [hs, Option.map_none, eq_comm, Option.map_eq_none_iff] at hfeeds
      rw [hfeeds] at ha
      rw [hs] at hb
      rw [ha, hb]
      exact .none
    | some f =>
      rw [hs, Option.map_some, eq_comm, Option.map_eq_some_iff] at hfeeds
      obtain ⟨f₀, hf₀, hdescription⟩ := hfeeds
      rw [hf₀] at ha
      rw [hs] at hb
      obtain ⟨a', ha', hsome⟩ := ha
      obtain ⟨b', hb', hsome'⟩ := hb
      rw [hsome, hsome']
      exact .some (ha'.agrees hb' hdescription)
  exact
    { id := by rw [ha.id, hb.id]; rfl
      user := by rw [ha.user, hb.user]; rfl
      feedId := by rw [ha.feedId, hb.feedId]; rfl
      status := Status.name_injective (ha.status.trans hb.status.symm)
      url := by rw [ha.url, hb.url]; rfl
      title := by rw [ha.title, hb.title]; rfl
      storyOffset := by rw [ha.storyOffset, hb.storyOffset]; rfl
      createdAt := Except.ok.inj (ha.createdAt.symm.trans hb.createdAt)
      updatedAt := Except.ok.inj (ha.updatedAt.symm.trans hb.updatedAt)
      feed := hfeed }

/-! ## Clients -/

/-- A client of a user that keeps what it asks for. -/
structure Client where
  user : Int
  detail : Bool
  showPending : Bool

namespace Client

/-- What a client asks for: its hints are all it holds. -/
def query (c : Client) (cache : List Subscription) : SyncQuery where
  hints := cache.map fun a => ⟨a.id, a.updatedAt⟩
  detail := c.detail
  showPending := c.showPending

/-- A cache after it has been overwritten with what has come back. -/
def overwrite (cache returned : List Subscription) : List Subscription :=
  cache.filter (fun a => returned.all fun b => b.id ≠ a.id) ++ returned

/-- A store and the client's cache after requests and syncs one after another, with clocks that
show anything. -/
inductive Run (c : Client) : Store → List Subscription → Prop
  | start {x : System} (h : x.Reachable) : Run c x.store []
  | request {s : Store} {cache : List Subscription} (h : Run c s cache) {request : Request}
      (hrequest : request.Proper) (clock : Nat → Instant) :
      Run c (request.operation.runOn clock s).2 cache
  | sync {s s' : Store} {cache : List Subscription} (h : Run c s cache) {answer : SyncAnswer}
      (clock : Nat → Instant)
      (hanswer : (Store.sync c.user (c.query cache)).runOn clock s = (.ok answer, s')) :
      Run c s' (overwrite cache answer.subscriptions)

theorem Run.of_runOn {c : Client} {s s' : Store} {cache : List Subscription} (h : c.Run s cache)
    {request : Request} {clock : Nat → Instant} (hs : (request.operation.runOn clock s).2 = s')
    (hrequest : request.Proper) : c.Run s' cache :=
  hs ▸ h.request hrequest clock

/-! ## What a cache knows -/

/-- Of what the client holds and the store has still, nothing has changed since it was returned or
the clock has moved on. -/
structure Follows (c : Client) (s : Store) (cache : List Subscription) : Prop where
  valid : s.Valid
  ids : (cache.map (·.id)).Nodup
  counted : ∀ a ∈ cache, a.id ≤ s.lastSubscriptionId
  visible : ∀ a ∈ cache, ∀ r ∈ s.subscriptions, r.id = a.id → r ∈ s.visible c.user c.showPending
  stored : ∀ a ∈ cache, ∀ r ∈ s.subscriptions, r.id = a.id → ∃ s₀ r₀,
    SubscriptionRow.Loads c.detail (Store.withFeed s₀ r₀) a ∧
      (s.view r = s₀.view r₀ ∨ Stamp.Before r₀.updatedAt r.updatedAt)

namespace Follows

variable {c : Client} {s s' : Store} {cache : List Subscription}

/-- Stores evolve under a cache. -/
theorem evolves (h : c.Follows s cache) (hs : s.Evolves s') : c.Follows s' cache := by
  have before {a : Subscription} (ha : a ∈ cache) {r' : SubscriptionRow}
      (hr' : r' ∈ s'.subscriptions) (hid : r'.id = a.id) :
      ∃ r ∈ s.subscriptions, r.Lives r' :=
    hs.toExtends.subscription hr' (hid ▸ h.counted a ha)
  refine ⟨hs.valid, h.ids, fun a ha => Int.le_trans (h.counted a ha) hs.lastId_le, ?_, ?_⟩
  · intro a ha r' hr' hid
    obtain ⟨r, hr, hlives⟩ := before ha hr' hid
    obtain ⟨-, hr, hvisible⟩ := Store.mem_visible.1 (h.visible a ha r hr (hlives.id.trans hid))
    exact Store.mem_visible.2 ⟨hr', hlives.user.symm.trans hr, hvisible.imp_right hlives.shown⟩
  · intro a ha r' hr' hid
    obtain ⟨r, hr, hlives⟩ := before ha hr' hid
    obtain ⟨s₀, r₀, hload, hview⟩ := h.stored a ha r hr (hlives.id.trans hid)
    refine ⟨s₀, r₀, hload, ?_⟩
    rcases hs.view r hr r' hr' hlives.id.symm with hsame | hlater
    · have hrow : r' = r := congrArg Prod.fst hsame
      exact hview.imp hsame.trans fun hlater => hrow ▸ hlater
    · refine .inr (hview.elim (fun hsame => ?_) fun hbefore => hbefore.trans hlater)
      have hrow : r = r₀ := congrArg Prod.fst hsame
      exact hrow ▸ hlater

end Follows

/-! ## Hints -/

/-- What the client does not hold is stale. -/
theorem isStale_of_forall_ne {c : Client} {cache : List Subscription} {id : Int}
    (h : ∀ a ∈ cache, a.id ≠ id) (t : Instant) :
    Sync.isStale (c.query cache).hints id t = true := by
  have hnone : Sync.seen? (c.query cache).hints id = none := by
    unfold Sync.seen?
    rw [Option.map_eq_none_iff, List.find?_eq_none]
    intro hint hhint
    obtain ⟨a, ha, rfl⟩ := List.mem_map.1 (List.mem_reverse.1 hhint)
    simpa using h a ha
  simp [Sync.isStale, hnone]

/-- What the client holds is stale if its clock is later now. -/
theorem isStale_of_mem {c : Client} {cache : List Subscription}
    (hids : (cache.map (·.id)).Nodup) {a : Subscription} (ha : a ∈ cache) (t : Instant) :
    Sync.isStale (c.query cache).hints a.id t = true ↔ a.updatedAt < t := by
  have hkeys : ((c.query cache).hints.reverse.map (·.id)).Nodup := by
    simpa [query, List.map_reverse, Function.comp_def] using hids
  have hseen : Sync.seen? (c.query cache).hints a.id = some a.updatedAt := by
    have hmem : (⟨a.id, a.updatedAt⟩ : Hint) ∈ (c.query cache).hints.reverse :=
      List.mem_reverse.2 (List.mem_map.2 ⟨a, ha, rfl⟩)
    unfold Sync.seen?
    rw [find?_key_of_mem hkeys hmem, Option.map_some]
  simp [Sync.isStale, hseen]

/-! ## One sync -/

theorem mem_overwrite {cache returned : List Subscription} {a : Subscription} :
    a ∈ overwrite cache returned ↔
      a ∈ returned ∨ a ∈ cache ∧ ∀ b ∈ returned, b.id ≠ a.id := by
  simp [overwrite, or_comm]

theorem nodup_overwrite {cache returned : List Subscription} (hcache : (cache.map (·.id)).Nodup)
    (hreturned : (returned.map (·.id)).Nodup) : ((overwrite cache returned).map (·.id)).Nodup := by
  rw [overwrite, List.map_append, List.nodup_append]
  refine ⟨hcache.sublist (List.filter_sublist.map _), hreturned, ?_⟩
  intro id hid id' hid'
  obtain ⟨a, ha, rfl⟩ := List.mem_map.1 hid
  obtain ⟨b, hb, rfl⟩ := List.mem_map.1 hid'
  have hne := (List.mem_filter.1 ha).2
  simp only [List.all_eq_true, decide_eq_true_eq] at hne
  exact (hne b hb).symm

variable {c : Client} {s : Store} {cache : List Subscription} {answer : SyncAnswer}

/-- A sync keeps the cache in step with the store. -/
theorem Follows.overwrite (h : c.Follows s cache)
    (ha : answer.Answers s c.user (c.query cache)) :
    c.Follows s (overwrite cache answer.subscriptions) := by
  have returned {a : Subscription} (hmem : a ∈ answer.subscriptions) :
      ∃ r ∈ s.visible c.user c.showPending, r.id = a.id ∧
        SubscriptionRow.Loads c.detail (s.withFeed r) a := by
    obtain ⟨r, hr, hload, -⟩ := (ha.mem a).1 hmem
    exact ⟨r, hr, hload.id.symm, hload⟩
  refine ⟨h.valid, nodup_overwrite h.ids ha.ids, ?_, ?_, ?_⟩
  · intro a hmem
    rcases mem_overwrite.1 hmem with hmem | ⟨hmem, -⟩
    · obtain ⟨r, hr, hid, -⟩ := returned hmem
      exact hid ▸ h.valid.id_le r (Store.mem_visible.1 hr).1
    · exact h.counted a hmem
  · intro a hmem r hr hid
    rcases mem_overwrite.1 hmem with hmem | ⟨hmem, -⟩
    · obtain ⟨r', hr', hid', -⟩ := returned hmem
      rwa [h.valid.eq_of_id hr (Store.mem_visible.1 hr').1 (hid.trans hid'.symm)]
    · exact h.visible a hmem r hr hid
  · intro a hmem r hr hid
    rcases mem_overwrite.1 hmem with hmem | ⟨hmem, -⟩
    · obtain ⟨r', hr', hid', hload⟩ := returned hmem
      obtain rfl := h.valid.eq_of_id hr (Store.mem_visible.1 hr').1 (hid.trans hid'.symm)
      exact ⟨s, r, hload, .inl rfl⟩
    · exact h.stored a hmem r hr hid

/-- After a sync the cache agrees with the store on what is visible: what was not returned was held,
and its clock has not moved on. -/
theorem Follows.covers (h : c.Follows s cache) (ha : answer.Answers s c.user (c.query cache))
    {r : SubscriptionRow} (hr : r ∈ s.visible c.user c.showPending) {b : Subscription}
    (hb : SubscriptionRow.Loads c.detail (s.withFeed r) b) :
    ∃ a ∈ Client.overwrite cache answer.subscriptions, a.Agrees b := by
  have hrow := (Store.mem_visible.1 hr).1
  have listed (hstale : Sync.isStale (c.query cache).hints r.id b.updatedAt = true) :
      ∃ a ∈ Client.overwrite cache answer.subscriptions, a.Agrees b :=
    ⟨b, mem_overwrite.2 (.inl ((ha.mem b).2 ⟨r, hr, hb, hstale⟩)), hb.agrees hb rfl⟩
  by_cases hheld : ∃ a ∈ cache, a.id = r.id
  · obtain ⟨a, hmem, hid⟩ := hheld
    by_cases hstale : Sync.isStale (c.query cache).hints r.id b.updatedAt = true
    · exact listed hstale
    · obtain ⟨s₀, r₀, hload, hview⟩ := h.stored a hmem r hrow hid.symm
      have hlate : ¬ a.updatedAt < b.updatedAt := by
        rwa [← isStale_of_mem h.ids hmem, hid]
      refine ⟨a, mem_overwrite.2 (.inr ⟨hmem, fun b' hb' hid' => ?_⟩), ?_⟩
      · obtain ⟨r', hr', hload', hstale'⟩ := (ha.mem b').1 hb'
        have hsame : r'.id = r.id := by rw [← hid, ← hid', hload'.id]; rfl
        obtain rfl := h.valid.eq_of_id (Store.mem_visible.1 hr').1 hrow hsame
        exact hstale (Except.ok.inj (hload'.updatedAt.symm.trans hb.updatedAt) ▸ hstale')
      · refine hload.agrees hb (hview.resolve_right fun hbefore => hlate ?_)
        exact (Stamp.Before.iff_lt (Stamp.Holds.of_decode hbefore.left hload.updatedAt)
          (Stamp.Holds.of_decode hbefore.right hb.updatedAt)).1 hbefore
  · exact listed (isStale_of_forall_ne (fun a hmem hid => hheld ⟨a, hmem, hid⟩) _)

/-- A cache that covers what is visible is larger only by what has been deleted. -/
theorem Follows.length_eq_iff (h : c.Follows s cache)
    (hcovers : ∀ r ∈ s.visible c.user c.showPending, ∃ a ∈ cache, a.id = r.id) :
    cache.length = (s.visible c.user c.showPending).length ↔
      ∀ a ∈ cache, ∃ r ∈ s.subscriptions, r.id = a.id := by
  let isStored (a : Subscription) : Bool := s.subscriptions.any fun r => r.id = a.id
  have hperm : ((cache.filter isStored).map (·.id)).Perm
      ((s.visible c.user c.showPending).map (·.id)) := by
    refine (List.perm_ext_iff_of_nodup (h.ids.sublist (List.filter_sublist.map _))
      (h.valid.nodup_visible c.user c.showPending)).2 fun id => ?_
    constructor
    · intro hid
      obtain ⟨a, ha, rfl⟩ := List.mem_map.1 hid
      obtain ⟨ha, hstored⟩ := List.mem_filter.1 ha
      obtain ⟨r, hr, hid⟩ := List.any_eq_true.1 hstored
      have hid := of_decide_eq_true hid
      exact List.mem_map.2 ⟨r, h.visible a ha r hr hid, hid⟩
    · intro hid
      obtain ⟨r, hr, rfl⟩ := List.mem_map.1 hid
      obtain ⟨a, ha, hid⟩ := hcovers r hr
      refine List.mem_map.2 ⟨a, List.mem_filter.2 ⟨ha, List.any_eq_true.2 ⟨r, ?_, ?_⟩⟩, hid⟩
      · exact (Store.mem_visible.1 hr).1
      · exact decide_eq_true hid.symm
  have hlength := hperm.length_eq
  rw [List.length_map, List.length_map] at hlength
  rw [← hlength, eq_comm, List.length_filter_eq_length_iff]
  simp [isStored]

/-! ## Any number of syncs -/

/-- Through any run the cache keeps in step with the store. -/
theorem Run.follows (h : c.Run s cache) : c.Follows s cache := by
  induction h with
  | start h => exact ⟨h.sound.valid, by simp, by simp, by simp, by simp⟩
  | request _ hrequest clock ih => exact ih.evolves (Request.evolves_runOn hrequest clock ih.valid)
  | @sync s s' cache _ answer clock hanswer ih =>
    have hends := (Store.ensures_sync ih.valid c.user (c.query cache)).runOn_any clock
    rw [hanswer] at hends
    obtain ⟨rfl, hanswers, -⟩ := hends
    exact ih.overwrite (hanswers _ rfl)

/-- **Sync converges**: after any run a sync succeeds, and then the cache holds every visible
subscription as it is stored, and more than these only if one that it holds has been deleted. -/
theorem sync_converges (h : c.Run s cache) (hy : s.InYears) (clock : Nat → Instant) :
    ∃ answer, (Store.sync c.user (c.query cache)).runOn clock s = (.ok answer, s) ∧
      ((overwrite cache answer.subscriptions).map (·.id)).Nodup ∧
      (∀ r ∈ s.subscriptions, r.user = c.user →
        (c.showPending = true ∨ r.status ≠ Status.pending.name) →
          ∃ a ∈ overwrite cache answer.subscriptions, ∃ b,
            (Store.getSubscription r.id c.user c.detail).runOn clock s = (.ok b, s) ∧
              a.Agrees b) ∧
      ((overwrite cache answer.subscriptions).length = answer.total ↔
        ∀ a ∈ overwrite cache answer.subscriptions, ∃ r ∈ s.subscriptions, r.id = a.id) := by
  have hfollows := h.follows
  have hvalid := hfollows.valid
  have hends := (Store.ensures_sync hvalid c.user (c.query cache)).runOn_any clock
  obtain ⟨hstore, hanswers, hok⟩ := hends
  obtain ⟨answer, hanswer⟩ := hok hy
  have hafter := hfollows.overwrite (hanswers answer hanswer)
  have covers {r : SubscriptionRow} (hr : r ∈ s.visible c.user c.showPending) :
      ∃ a ∈ overwrite cache answer.subscriptions, ∃ b,
        SubscriptionRow.load c.detail (s.withFeed r) = .ok b ∧ a.Agrees b := by
    obtain ⟨b, hb⟩ := hvalid.subscription_loads hy c.detail (Store.mem_visible.1 hr).1
    obtain ⟨a, ha, hagrees⟩ := hfollows.covers (hanswers answer hanswer) hr
      (SubscriptionRow.load_eq_ok.1 hb)
    exact ⟨a, ha, b, hb, hagrees⟩
  refine ⟨answer, Prod.ext hanswer hstore, hafter.ids, ?_, ?_⟩
  · rintro r hr huser hshown
    obtain ⟨a, ha, b, hb, hagrees⟩ := covers (Store.mem_visible.2 ⟨hr, huser, hshown⟩)
    refine ⟨a, ha, b, ?_, hagrees⟩
    rw [← huser, Store.runOn_getSubscription (hvalid.subscription?_eq_some.2 ⟨hr, rfl⟩), hb]
  · rw [(hanswers answer hanswer).total]
    refine hafter.length_eq_iff fun r hr => ?_
    obtain ⟨a, ha, b, hb, hagrees⟩ := covers hr
    exact ⟨a, ha, hagrees.id.trans (SubscriptionRow.load_eq_ok.1 hb).id⟩

/-- A user subscribes to two addresses and a client syncs; then the clock goes back, the user sets
an offset and gives the other subscription up. -/
theorem sync_converges_after_deletion : ∃ (c : Client) (s : Store) (cache : List Subscription)
    (clock : Nat → Instant), c.Run s cache ∧ s.InYears ∧ cache.length = 2 ∧
    s.subscriptions.length = 1 ∧
    ∃ answer, (Store.sync c.user (c.query cache)).runOn clock s = (.ok answer, s) ∧
      ((overwrite cache answer.subscriptions).map (·.id)).Nodup ∧
      (∀ r ∈ s.subscriptions, r.user = c.user →
        (c.showPending = true ∨ r.status ≠ Status.pending.name) →
          ∃ a ∈ overwrite cache answer.subscriptions, ∃ b,
            (Store.getSubscription r.id c.user c.detail).runOn clock s = (.ok b, s) ∧
              a.Agrees b) ∧
      ((overwrite cache answer.subscriptions).length = answer.total ↔
        ∀ a ∈ overwrite cache answer.subscriptions, ∃ r ∈ s.subscriptions, r.id = a.id) := by
  let c : Client := ⟨1, false, true⟩
  let later : Instant := ⟨1, 0, 0, by decide, by decide, by decide, by decide⟩
  let row (id offset : Int) (url clock : String) : SubscriptionRow :=
    ⟨id, 1, none, "pending", url, none, offset, "1970-01-02T00:00:00.000000Z", clock⟩
  let s₁ : Store := ⟨[], [], [], [row 1 0 "http://a.com/" "1970-01-02T00:00:00.000000Z"], 1⟩
  let s₂ : Store := ⟨[], [], [], [row 1 0 "http://a.com/" "1970-01-02T00:00:00.000000Z",
    row 2 0 "http://b.com/" "1970-01-02T00:00:00.000000Z"], 2⟩
  let s₃ : Store := ⟨[], [], [], [row 1 5 "http://a.com/" "1970-01-02T00:00:00.000001Z",
    row 2 0 "http://b.com/" "1970-01-02T00:00:00.000000Z"], 2⟩
  let s₄ : Store := ⟨[], [], [], [row 1 5 "http://a.com/" "1970-01-02T00:00:00.000001Z"], 2⟩
  let held (id : Int) (url : String) : Subscription :=
    ⟨id, 1, none, .pending, url, none, 0, later, later, none⟩
  let cache : List Subscription := [held 2 "http://b.com/", held 1 "http://a.com/"]
  have first : ((Request.subscribe "http://a.com/" 1).operation.runOn (fun _ => later)
      .empty).2 = s₁ := by cbv
  have second : ((Request.subscribe "http://b.com/" 1).operation.runOn (fun _ => later)
      s₁).2 = s₂ := by cbv
  have synced : (Store.sync 1 (c.query [])).runOn (fun _ => later) s₂ = (.ok ⟨2, cache⟩, s₂) := by
    cbv
  have offset : ((Request.setOffset 1 1 5).operation.runOn (fun _ => .epoch) s₂).2 = s₃ := by
    decide +kernel
  have deleted : ((Request.unsubscribe 2 1).operation.runOn (fun _ => .epoch) s₃).2 = s₄ := by
    cbv
  have h₁ : c.Run s₁ [] := Run.of_runOn (.start .refl) first True.intro
  have h₂ : c.Run s₂ [] := h₁.of_runOn second True.intro
  have h₂' : c.Run s₂ cache := .sync h₂ _ synced
  have h₃ : c.Run s₃ cache := h₂'.of_runOn offset True.intro
  have h₄ : c.Run s₄ cache := h₃.of_runOn deleted True.intro
  have hy : s₄.InYears := Store.inYears_of_decode (by decide +kernel)
  exact ⟨c, s₄, cache, fun _ => .epoch, h₄, hy, rfl, rfl, sync_converges h₄ hy _⟩

end Client

end Syndication
