import Syndication.Proofs.Program.Recrawl
import Syndication.Proofs.Program.Representation
import Syndication.Proofs.Program.Sequential
import Syndication.Proofs.Subscription.Race
import Syndication.Proofs.Sync.Answer
/-!
# Failures

A request that fails alone with a store leaves it as it was, and it fails with what its caller has
to expect, never because of a row that cannot be read or inserted (`System.failure_leaves_store`).
Resolving is the exception: its mapping has been recorded by the time its user turns out to hold the
feed. Operation by operation this is `Operation.AllOrNothing`. That instants stay in the years 0 to
9999 is needed where an operation reads what it has written.
-/

namespace Syndication

variable {α β : Type}

/-! ## All or nothing -/

/-- An error that says something about what was asked for. The other errors tell of rows that cannot
be read or inserted, and of others who interfere. -/
def StoreError.IsExpected : StoreError → Prop
  | .feedNotFound _ => True
  | .invalidTransition .. => True
  | .subscriptionNotFound _ => True
  | .alreadyBound _ => True
  | .duplicateSubscription .. => True
  | _ => False

/-- What an operation has given and left: an error is one that is expected, and `left` tells the
store that it leaves. Nothing is promised of stores that are broken or beyond the years. -/
def Store.FailsLeaving (left : StoreError → Store → Prop) (s : Store) (r : Except StoreError α) :
    Prop :=
  s.Valid → s.InYears → ∀ e, r = .error e → e.IsExpected ∧ left e s

namespace Store.FailsLeaving

variable {left : StoreError → Store → Prop} {s : Store} {r : Except StoreError α} {e : StoreError}

theorem of_ok (h : s.Valid → s.InYears → ∃ a, r = .ok a) : s.FailsLeaving left r := by
  intro hvalid hyears e he
  obtain ⟨a, rfl⟩ := h hvalid hyears
  cases he

theorem of_expected (h : e.IsExpected) (hleft : left e s) :
    s.FailsLeaving left (.error e : Except StoreError α) := by
  intro _ _ e' he
  obtain rfl := Except.error.inj he
  exact ⟨h, hleft⟩

/-- No operation ends where something that can be read has not been read. -/
theorem of_load {v : Except StoreError β} (hv : v = .error e)
    (h : s.Valid → s.InYears → ∃ b, v = .ok b) :
    s.FailsLeaving left (.error e : Except StoreError α) := by
  intro hvalid hyears
  obtain ⟨b, hb⟩ := h hvalid hyears
  cases hv.symm.trans hb

/-- No operation ends where a clock that has been read does not go on. -/
theorem of_tick {text : String} {previous now : Instant} (hnone : previous.advance? now = none)
    (htext : Stamp.decode text = .ok previous) (h : s.Valid → Stamp.IsWritten text) :
    s.FailsLeaving left r := by
  intro hvalid
  obtain ⟨next, hnext⟩ := Stamp.exists_advance? (h hvalid) htext now
  cases hnone.symm.trans hnext

theorem map (h : s.FailsLeaving left r) (g : α → β) : s.FailsLeaving left (r.map g) := by
  intro hvalid hyears e he
  cases r with
  | ok a => cases he
  | error e' => exact h hvalid hyears e (congrArg Except.error (Except.error.inj he))

end Store.FailsLeaving

namespace Operation

/-- Alone with a store, an operation that fails leaves what is told; one that never fails leaves
whatever is told. -/
abbrev Fails (left : StoreError → Store → Prop) (s : Store) (op : Operation α) : Prop :=
  op.Ensures (.alone fun _ => True) (fun _ _ => True) (Store.FailsLeaving left) s

/-- Alone with a store, an operation that fails changes nothing. -/
abbrev AllOrNothing (s : Store) (op : Operation α) : Prop := op.Fails (fun _ s' => s' = s) s

variable {left : StoreError → Store → Prop} {s : Store}

theorem Fails.map {op : Operation α} (h : op.Fails left s) (g : α → β) : (g <$> op).Fails left s :=
  ensures_map.2 (h.mono (fun _ _ h => h) fun _ _ hr => hr.map g)

theorem fails_pure (a : α) : (pure a : Operation α).Fails left s := .of_ok fun _ _ => ⟨a, rfl⟩

theorem fails_call (c : Call) : (call c).Fails left s :=
  ensures_call.2 ⟨True.intro, fun a _ _ => .of_ok fun _ _ => ⟨a, rfl⟩⟩

theorem fails_now_bind {f : Instant → Operation α}
    (h : ∀ t : Instant, (f t.truncate).Fails left s) : (now >>= f).Fails left s := by
  refine ensures_bind.2 (ensures_now.2 ?_)
  rintro t _ ⟨-, rfl⟩
  exact h t

theorem fails_call_bind {c : Call} {f : c.Answer → Operation α}
    (h : (f (c.run s).1).Fails left (c.run s).2) : (call c >>= f).Fails left s := by
  refine ensures_bind.2 (ensures_call.2 ⟨True.intro, ?_⟩)
  rintro _ _ ⟨rfl, rfl⟩
  exact h

theorem fails_loaded_bind {v : Except StoreError β} {f : β → Operation α}
    (hload : s.Valid → s.InYears → ∃ b, v = .ok b) (h : ∀ b, v = .ok b → (f b).Fails left s) :
    (loaded v >>= f).Fails left s := by
  refine ensures_bind.2 (ensures_loaded.2 ?_)
  cases hv : v with
  | ok b => exact h b hv
  | error e => exact .of_load hv hload

theorem fails_tickAfter_bind {text : String} {previous : Instant} {f : Instant → Operation α}
    (htext : Stamp.decode text = .ok previous) (hwritten : s.Valid → Stamp.IsWritten text)
    (h : ∀ next, (f next).Fails left s) : (tickAfter previous >>= f).Fails left s := by
  refine ensures_bind.2 (ensures_tickAfter.2 ?_)
  rintro t _ ⟨-, rfl⟩
  cases hnext : previous.advance? t.truncate with
  | none => exact .of_tick hnext htext hwritten
  | some next => exact h next

end Operation

namespace Store

open Operation

variable {left : StoreError → Store → Prop} {s : Store}

/-! ## Mappings, feeds and snapshots -/

theorem fails_recordMappingAt (source target : String) (time : Instant) :
    (recordMappingAt source target time).Fails left s :=
  fails_call_bind (.of_ok fun hvalid hyears =>
    hvalid.mapping_loads hyears (List.mem_append_right _ List.mem_cons_self))

theorem fails_getOrCreateFeed (url : String) : (getOrCreateFeed url).Fails left s :=
  fails_now_bind fun t => fails_call_bind (.of_ok fun hvalid hyears =>
    hvalid.feed_loads hyears true (mem_feeds_ensureFeed url t.truncate.stamp s))

/-- Whatever feed has been found, it loads. -/
theorem fails_loadFeed {detail : Bool} {row : Option FeedRow}
    (hrow : ∀ r, row = some r → r ∈ s.feeds) : (loadFeed detail row).Fails left s := by
  refine ensures_loadFeed.2 (.of_ok fun hvalid hyears => ?_)
  cases row with
  | none => exact ⟨none, rfl⟩
  | some r =>
    obtain ⟨f, hf⟩ := hvalid.feed_loads hyears detail (hrow r rfl)
    exact ⟨some f, map_eq_ok.2 ⟨f, hf, rfl⟩⟩

theorem fails_getFeed (id : Int) (detail : Bool) : (getFeed id detail).Fails left s :=
  fails_call_bind (fails_loadFeed fun _ hr => (mem_of_feed? hr).1)

theorem fails_findFeedAt (url : String) (detail : Bool) : (findFeedAt url detail).Fails left s :=
  fails_call_bind (fails_loadFeed fun _ hr => (mem_of_feedAt? hr).1)

theorem allOrNothing_recordSnapshot (draft : Snapshot.Draft) :
    (recordSnapshot draft).AllOrNothing s := by
  refine fails_now_bind fun t => fails_call_bind ?_
  simp only [Call.run, Call.runAddSnapshot]
  split
  · exact .of_expected True.intro rfl
  · exact fails_pure _

theorem mem_of_snapshot? {feedId : Int} {r : SnapshotRow} (h : s.snapshot? feedId = some r) :
    r ∈ s.snapshots := by
  rw [snapshot?, latest?_eq_argmax] at h
  exact List.mem_of_mem_filter (List.argmax_mem h)

theorem fails_latestSnapshot (hheaders : s.KeepsHeaders) (feedId : Int) :
    (latestSnapshot feedId).Fails left s := by
  refine fails_call_bind ?_
  cases hrow : ((Call.lastSnapshot feedId).run s).1 with
  | none => exact fails_pure none
  | some row =>
    refine fails_loaded_bind (fun hvalid hyears => ?_) fun snapshot _ => fails_pure (some snapshot)
    exact (hvalid.readable hheaders hyears).snapshots row (mem_of_snapshot? hrow)

/-! ## Crawls -/

theorem allOrNothing_transit (id : Int) (t : Transition) : (transit id t).AllOrNothing s := by
  refine ensures_transit_iff.2 ⟨True.intro, ?_⟩
  rintro outcome y ⟨houtcome, hy⟩
  change (s.moveFeed id t).1 = outcome at houtcome
  change (s.moveFeed id t).2 = y at hy
  rcases s.moveFeed_cases id t with ⟨hstays, hleft⟩ | ⟨row, _, hrow, -, -, hmoved⟩
  · obtain rfl : s = y := hleft.symm.trans hy
    cases outcome with
    | missing => exact .of_expected True.intro rfl
    | moved => exact absurd houtcome hstays
    | failed e =>
      exact .of_load (followers_of_failed houtcome) fun hvalid hyears =>
        hvalid.exists_followers hyears id t
    | refused name =>
      intro hvalid _ e he
      obtain ⟨-, row, hrow, rfl, -⟩ := moveFeed_of_refused houtcome
      obtain ⟨status, hstatus⟩ := hvalid.feedStatus row (mem_of_feed? hrow).1
      rw [Status.load_eq_ok.2 hstatus.symm] at he
      exact ⟨Except.error.inj he ▸ True.intro, rfl⟩
  · have hmoves : (s.moveFeed id t).1 = .moved := congrArg Prod.fst hmoved
    have hleft : y.feed? id = some (row.apply t) := hy ▸ feed?_moveFeed hrow hmoves
    obtain rfl : .moved = outcome := hmoves.symm.trans houtcome
    refine ⟨True.intro, ?_⟩
    rintro found _ ⟨hfound, rfl⟩
    obtain rfl : some (row.apply t) = found := hleft.symm.trans hfound
    exact .of_ok fun hvalid hyears => hvalid.feed_loads hyears true (mem_of_feed? hleft).1

theorem allOrNothing_finishCrawl (id : Int) (update : Feed.Update) :
    (finishCrawl id update).AllOrNothing s := by
  refine ensures_finishCrawl.2 ⟨True.intro, ?_⟩
  rintro found _ ⟨hfound, rfl⟩
  cases found with
  | none => exact .of_expected (s := s) True.intro rfl
  | some row =>
    have hrow : s.feed? id = some row := hfound
    rw [Option.elim_some]
    cases hload : row.load true with
    | error e =>
      exact FailsLeaving.of_load (s := s) hload fun hvalid hyears =>
        hvalid.feed_loads hyears true (mem_of_feed? hrow).1
    | ok f =>
      have hclock := (FeedRow.load_eq_ok.1 hload).updatedAt
      dsimp only [Except.map]
      rintro t₁ _ ⟨-, rfl⟩ t₂ _ ⟨-, rfl⟩
      cases hnext : Instant.advance? f.updatedAt t₂.truncate with
      | some next => exact allOrNothing_transit (s := s) id _
      | none =>
        exact FailsLeaving.of_tick (s := s) hnext hclock fun hvalid => hvalid.written_feed hrow

/-! ## Subscribing -/

/-- A subscription that has been written can be read. -/
theorem fails_getSubscription {r : SubscriptionRow} (hr : r ∈ s.subscriptions) (detail : Bool) :
    (getSubscription r.id r.user detail).Fails left s := by
  refine ensures_findSubscription.2 ⟨True.intro, ?_⟩
  rintro found _ ⟨hfound, rfl⟩
  refine FailsLeaving.of_ok (s := s) fun hvalid hyears => ?_
  have hrow := runFindSubscription_eq (hvalid.subscription?_eq_some.2 ⟨hr, rfl⟩)
  obtain rfl : some (s.withFeed r) = found := hrow.symm.trans hfound
  exact hvalid.subscription_loads hyears detail hr

/-- A row whose feed exists is inserted and can be read, or its user holds the feed. -/
theorem allOrNothing_subscribeAs {p : Planned} (hknown : ∀ f, p.feedId = some f →
    (s.feed? f).isSome) : (subscribeAs p.user p).AllOrNothing s := by
  refine fails_now_bind fun t => fails_call_bind ?_
  simp only [Call.run, Call.runInsertRow]
  cases hinsert : insertRow t.truncate.stamp s p with
  | none =>
    cases hp : p.feedId with
    | none => simp [insertRow, hp] at hinsert
    | some f =>
      have hsome := hknown f hp
      simp only [insertRow, hp, hsome] at hinsert
      split at hinsert <;> cases hinsert
  | some result =>
    obtain ⟨o, s'⟩ := result
    rcases insertRow_cases hinsert with ⟨f, held, -, -, rfl, rfl⟩ | ⟨-, rfl, rfl⟩
    · exact .of_expected True.intro rfl
    · exact fails_getSubscription (r := p.row (s.lastSubscriptionId + 1) t.truncate.stamp)
        (List.mem_append_right _ List.mem_cons_self) false

theorem allOrNothing_subscribeTo (url : String) (user : Int) (feed : Option Feed)
    (hfeed : ∀ f, feed = some f → ∃ row ∈ s.feeds, row.id = f.id) :
    (subscribeTo url user feed).AllOrNothing s := by
  cases feed with
  | none => exact allOrNothing_subscribeAs (p := .pending user url) fun f hf => by cases hf
  | some feed =>
    refine fails_call_bind (fails_loaded_bind (fun hvalid hyears => ?_) fun held _ => ?_)
    · exact hvalid.subscriptionsTo_load hyears user [feed.id]
    · split
      · refine allOrNothing_subscribeAs (p := .bound user feed.id url) fun f hf => ?_
        obtain rfl := Option.some.inj hf
        simpa [feed?] using hfeed feed rfl
      · exact .of_expected True.intro rfl

theorem allOrNothing_subscribe (url : String) (user : Int) :
    (subscribe url user).AllOrNothing s := by
  rw [subscribe_eq]
  refine fails_call_bind ?_
  cases ((Call.findTarget url).run s).1 with
  | none => exact allOrNothing_subscribeTo url user none fun f hf => by cases hf
  | some target =>
    refine ensures_bind.2 (ensures_findFeedAt.2 ⟨True.intro, ?_⟩)
    rintro found _ ⟨hfound, rfl⟩
    cases found with
    | none => exact allOrNothing_subscribeTo (s := s) url user none fun f hf => by cases hf
    | some row =>
      have hmem : row ∈ s.feeds := (mem_of_feedAt? hfound).1
      rw [Option.elim_some]
      cases hload : row.load false with
      | error e =>
        exact FailsLeaving.of_load (s := s) hload fun hvalid hyears =>
          hvalid.feed_loads hyears false hmem
      | ok f =>
        refine allOrNothing_subscribeTo (s := s) url user (some f) fun f' hf' => ?_
        obtain rfl := Option.some.inj hf'
        exact ⟨row, hmem, (FeedRow.load_eq_ok.1 hload).id.symm⟩

/-- A plan that can be inserted is inserted whole. -/
theorem fails_subscribePlanned {user : Int} {plan : List Planned} (hplan : s.Insertable user plan)
    (size : Nat) (feeds : List Feed) (held : List Subscription) :
    (subscribePlanned user size feeds held plan).Fails left s := by
  refine ensures_subscribePlanned.2 ?_
  rintro t _ ⟨-, rfl⟩
  refine ⟨True.intro, ?_⟩
  rintro outcome s' ⟨houtcome, -⟩
  obtain ⟨outcomes, _, hchunk, -⟩ :=
    insertChunk_settles t.truncate.stamp hplan.known hplan.apart
  have hbatch : (s.insertBatch plan size t.truncate.stamp).1 = .ok outcomes :=
    congrArg Prod.fst (insertChunks_of_chunk size [] hchunk)
  obtain rfl : .ok outcomes = outcome := hbatch.symm.trans houtcome
  dsimp only
  split
  · exact .of_ok fun _ _ => ⟨_, rfl⟩
  · refine ⟨True.intro, ?_⟩
    rintro rows _ ⟨hrows, rfl⟩
    have hload : s'.FailsLeaving left (rows.mapM (SubscriptionRow.load false)) := by
      refine .of_ok fun hvalid hyears => hrows ▸ ?_
      refine hvalid.subscriptions_load hyears false fun r hr => ?_
      exact (mem_visible.1 (List.mem_of_mem_filter hr)).1
    exact hload.map _

theorem fails_subscribeAll (urls : List String) (user : Int) (size : Nat) :
    (subscribeAll urls user size).Fails left s := by
  refine ensures_subscribeAll.2 ?_
  split
  · exact fails_pure []
  refine ⟨True.intro, ?_⟩
  rintro targets _ ⟨-, rfl⟩
  refine ⟨True.intro, ?_⟩
  rintro rows _ ⟨hrows, rfl⟩
  cases hfeeds : rows.mapM (FeedRow.load false) with
  | error e =>
    refine FailsLeaving.of_load (s := s) hfeeds fun hvalid hyears => ?_
    exact hrows ▸ hvalid.findFeedsAt_load hyears _
  | ok feeds =>
    refine ⟨True.intro, ?_⟩
    rintro rows' _ ⟨hrows', rfl⟩
    cases hheld : rows'.mapM (SubscriptionRow.load false) with
    | error e =>
      refine FailsLeaving.of_load (s := s) hheld fun hvalid hyears => ?_
      exact hrows' ▸ hvalid.subscriptionsTo_load hyears user _
    | ok held =>
      simp only [find?_url_of_load (mapM_eq_ok.1 hfeeds)]
      refine fails_subscribePlanned (s := s) (insertable_list fun row hrow => ?_) size feeds held
      exact ⟨row, (mem_runFindFeedsAt.1 (hrows ▸ hrow)).1, rfl⟩

/-! ## Subscriptions -/

theorem allOrNothing_getSubscription (id user : Int) (detail : Bool) :
    (getSubscription id user detail).AllOrNothing s := by
  refine ensures_findSubscription.2 ⟨True.intro, ?_⟩
  rintro found _ ⟨hfound, rfl⟩
  cases found with
  | none => exact .of_expected (s := s) True.intro rfl
  | some row =>
    obtain ⟨r, hr, -, rfl⟩ := exists_of_runFindSubscription hfound
    exact FailsLeaving.of_ok (s := s) fun hvalid hyears =>
      hvalid.subscription_loads hyears detail hr

/-- What follows the subscription that an operation begins with. -/
theorem fails_findSubscription_bind {id : Int} {owner : Option Int} {f : Subscription → Operation α}
    (hmissing : left (.subscriptionNotFound id) s)
    (h : ∀ r ∈ s.subscriptions, r.id = id → (∀ user ∈ owner, r.user = user) →
      ∀ a, SubscriptionRow.Loads false (s.withFeed r) a → (f a).Fails left s) :
    (findSubscription id owner false >>= f).Fails left s := by
  refine ensures_bind.2 (ensures_findSubscription.2 ⟨True.intro, ?_⟩)
  rintro found _ ⟨hfound, rfl⟩
  cases found with
  | none => exact .of_expected (s := s) True.intro hmissing
  | some row =>
    obtain ⟨r, hr, hid, rfl⟩ := exists_of_runFindSubscription hfound
    rw [Option.elim_some]
    cases hload : SubscriptionRow.load false (s.withFeed r) with
    | error e =>
      exact FailsLeaving.of_load (s := s) hload fun hvalid hyears =>
        hvalid.subscription_loads hyears false hr
    | ok a =>
      refine h r hr hid (fun user huser => ?_) a (SubscriptionRow.load_eq_ok.1 hload)
      obtain rfl := Option.mem_def.1 huser
      exact user_of_findSubscription hfound

theorem allOrNothing_unsubscribe (id user : Int) : (unsubscribe id user).AllOrNothing s := by
  refine fails_call_bind ?_
  cases hdeleted : s.subscriptions.any (Call.isOwned id user) with
  | true =>
    simp only [Call.run, Call.runDeleteSubscription, hdeleted]
    exact fails_pure ()
  | false =>
    have hkept : (s.subscriptions.filter fun r => !Call.isOwned id user r) = s.subscriptions :=
      List.filter_eq_self.2 fun r hr => by simpa using List.any_eq_false.1 hdeleted r hr
    simp only [Call.run, Call.runDeleteSubscription, hdeleted, hkept]
    exact .of_expected True.intro rfl

theorem fails_sync (h : s.Valid) (user : Int) (query : SyncQuery) :
    (sync user query).Fails left s := by
  refine (ensures_sync h user query).mono (fun _ _ h => h) fun s' r hends => ?_
  obtain ⟨rfl, -, hanswers⟩ := hends
  exact .of_ok fun _ => hanswers

/-- The first attempt to set an offset meets the clock that it has read. -/
theorem allOrNothing_setOffset (h : s.Valid) (id user offset : Int) :
    (setOffset id user offset).AllOrNothing s := by
  refine fails_findSubscription_bind rfl fun r hr hid howner a ha => ?_
  refine fails_tickAfter_bind ha.updatedAt (fun _ => h.written_updatedAt hr) fun next => ?_
  have howned : Call.isOwned id user r = true := by simp [Call.isOwned, hid, howner]
  have hstamp : r.updatedAt = a.updatedAt.stamp :=
    (Stamp.Holds.of_decode (h.written_updatedAt hr) ha.updatedAt).2.symm
  have hswapped :
      ((Call.swapOffset id user offset a.updatedAt.stamp next.stamp).run s).1 = true :=
    List.any_eq_true.2 ⟨r, hr, by simp [howned, hstamp]⟩
  refine fails_call_bind ?_
  rw [hswapped]
  exact fails_pure _

end Store

/-! ## Resolving -/

/-- What a request that fails leaves of a store: all of it, but for the mapping that resolving a
subscription records before its user turns out to hold the feed. -/
def Request.Leaves (s : Store) : Request → StoreError → Store → Prop
  | .resolve id target, .duplicateSubscription user _, s' => ∃ r ∈ s.subscriptions,
      ∃ m : MappingRow, r.id = id ∧ r.user = user ∧ m.source = r.url ∧ m.target = target ∧
        s' = { s with mappings := s.mappings ++ [m] }
  | _, _, s' => s' = s

namespace Store

variable {s : Store}

/-- A feed that somebody holds has not just been created. -/
theorem Valid.ensureFeed_of_holds (h : s.Valid) {url stamp : String} {user : Int}
    (hheld : (Call.runEnsureFeed url stamp s).2.Holds user (Call.runEnsureFeed url stamp s).1.id) :
    (Call.runEnsureFeed url stamp s).2 = s := by
  obtain ⟨r, hr, -, hfeed⟩ := hheld
  obtain ⟨f, hf, hid⟩ := h.subscriptionFeed r (subscriptions_ensureFeed url stamp s ▸ hr) _ hfeed
  have hlt : f.id < nextId (s.feeds.map (·.id)) := lt_nextId (List.mem_map_of_mem hf)
  unfold Call.runEnsureFeed at hid ⊢
  split
  · rfl
  · next hnone =>
    rw [hnone] at hid
    exact absurd hid hlt.ne

/-- Resolving records a mapping before it asks who holds the feed, and everything else after. -/
theorem fails_resolve (h : s.Valid) (id : Int) (target : String) :
    (resolve id target).Fails ((Request.resolve id target).Leaves s) s := by
  refine (ensures_resolve_exit h id target _).mono (fun _ _ h => h) fun s' result hexit => ?_
  cases hexit with
  | unread hfound =>
    cases hrow : Call.runFindSubscription id none s with
    | none =>
      rw [hrow] at hfound
      obtain rfl := Except.error.inj hfound
      exact .of_expected True.intro rfl
    | some row =>
      rw [hrow] at hfound
      obtain ⟨r, hr, -, rfl⟩ := exists_of_runFindSubscription hrow
      exact .of_load hfound fun hvalid hyears => hvalid.subscription_loads hyears false hr
  | bound => exact .of_expected True.intro rfl
  | unmapped _ hm hload =>
    exact .of_load hload fun hvalid hyears => hvalid.mapping_loads hyears hm
  | unfed hfed hload =>
    exact .of_load hload fun hvalid hyears => hvalid.feed_loads hyears true hfed.mem
  | stopped hfed hnone =>
    obtain ⟨_, hlogged, -⟩ := hfed
    exact .of_tick hnone hlogged.loads.updatedAt fun _ => h.written_updatedAt hlogged.mem
  | duplicate hfed hheld =>
    obtain ⟨s₁, hlogged, t, rfl, rfl⟩ := hfed
    obtain ⟨hmem, huser, hfeed⟩ := mem_of_holder? hheld
    -- the feed was there before, so that only the mapping is new
    rw [(hlogged.evolves h).valid.ensureFeed_of_holds ⟨_, hmem, huser, hfeed⟩]
    obtain ⟨t₁, -, rfl⟩ := hlogged.logged
    exact .of_expected True.intro ⟨_, hlogged.mem, _, rfl, rfl, rfl, rfl, rfl⟩
  | done _ _ _ hmem =>
    exact .of_ok fun hvalid hyears => hvalid.subscription_loads hyears false hmem

end Store

/-! ## Requests -/

/-- **Requests fail cleanly**, whatever they ask for. -/
theorem Request.fails {s : Store} (h : s.Valid) (hheaders : s.KeepsHeaders) {request : Request}
    (hrequest : ∀ rows size time, request ≠ .insertPlanned rows size time) :
    request.operation.Fails (request.Leaves s) s := by
  cases request with
  | recordMapping source target =>
    exact .map (Operation.fails_now_bind fun t => Store.fails_recordMappingAt source target _) _
  | recordMappingAt source target time =>
    exact .map (Store.fails_recordMappingAt source target time) _
  | findTarget source => exact .map (Operation.fails_call (.findTarget source)) _
  | findTargets sources => exact .map (Operation.fails_call (.findTargets sources)) _
  | getOrCreateFeed url => exact .map (Store.fails_getOrCreateFeed url) _
  | getFeed id detail => exact .map (Store.fails_getFeed id detail) _
  | findFeedAt url detail => exact .map (Store.fails_findFeedAt url detail) _
  | beginCrawl id =>
    exact .map (Operation.fails_now_bind fun t => Store.allOrNothing_transit id _) _
  | finishCrawl id update => exact .map (Store.allOrNothing_finishCrawl id update) _
  | failCrawl id =>
    exact .map (Operation.fails_now_bind fun t => Store.allOrNothing_transit id _) _
  | recordSnapshot draft => exact .map (Store.allOrNothing_recordSnapshot draft) _
  | latestSnapshot feedId => exact .map (Store.fails_latestSnapshot hheaders feedId) _
  | subscribe url user => exact .map (Store.allOrNothing_subscribe url user) _
  | subscribeAll urls user size => exact .map (Store.fails_subscribeAll urls user size) _
  | getSubscription id user detail =>
    exact .map (Store.allOrNothing_getSubscription id user detail) _
  | unsubscribe id user => exact .map (Store.allOrNothing_unsubscribe id user) _
  | sync user query => exact .map (Store.fails_sync h user query) _
  | setOffset id user offset => exact .map (Store.allOrNothing_setOffset h id user offset) _
  | resolve id target => exact .map (Store.fails_resolve h id target) _
  | insertPlanned rows size time => exact absurd rfl (hrequest rows size time)

namespace System

variable {x : System}

/-- What is left of a program under way can be played to its end while nothing else happens. -/
theorem Reachable.exists_runOn_rest (hx : x.Reachable) {i : Nat} {request : Request}
    {past : List Event} {rest : Program (Except StoreError Reply)}
    (hi : x.running[i]? = some ⟨request, past, rest⟩) (clock : Nat → Instant) :
    ∃ y : System, y.Reachable ∧ y.store = (rest.runOn clock x.store).2 := by
  induction rest generalizing x past clock with
  | done r => exact ⟨x, hx, rfl⟩
  | call c next ih =>
    exact ih _ (hx.step (a := .call i) True.intro True.intro (act_eq_some.2 (.call hi)))
      (List.getElem?_set_self (List.getElem?_eq_some_iff.1 hi).1) clock
  | clock next ih =>
    exact ih _
      (hx.step (a := .read i (clock 0)) True.intro True.intro (act_eq_some.2 (.read (clock 0) hi)))
      (List.getElem?_set_self (List.getElem?_eq_some_iff.1 hi).1) fun n => clock (n + 1)

/-- Requests that run one after another lead from reachable states to reachable ones. -/
theorem Reachable.exists_runOn (hx : x.Reachable) {request : Request} (hrequest : request.Proper)
    (clock : Nat → Instant) :
    ∃ y : System, y.Reachable ∧ y.store = (request.operation.runOn clock x.store).2 := by
  have hstart : (x.running ++ [⟨request, [], request.operation.run⟩])[x.running.length]? =
      some ⟨request, [], request.operation.run⟩ := by simp
  have hnext := hx.step (a := .start request) hrequest True.intro (act_eq_some.2 (.start request))
  exact Reachable.exists_runOn_rest hnext hstart clock

/-- **A request that fails leaves the store as it was.** In every state that requests lead to, one
after another or at the same time, a request that runs undisturbed and fails gives an error that is
expected and changes nothing at all; only resolving a subscription whose user turns out to hold the
feed has appended one mapping, from the address of the subscription to the target. The store that it
leaves may hold no instant beyond the years 0 to 9999. Inserting rows that somebody has planned is
left out: it is a part of subscribing to a list, and rows planned by others may name any feed. -/
theorem failure_leaves_store (hx : x.Reachable) {request : Request}
    (hrequest : ∀ rows size time, request ≠ .insertPlanned rows size time) (clock : Nat → Instant)
    (hyears : (request.operation.runOn clock x.store).2.InYears) {e : StoreError}
    (hfails : (request.operation.runOn clock x.store).1 = .error e) :
    e.IsExpected ∧ request.Leaves x.store e (request.operation.runOn clock x.store).2 := by
  have hproper : request.Proper := by
    cases request with
    | insertPlanned rows size time => exact absurd rfl (hrequest rows size time)
    | _ => exact True.intro
  obtain ⟨y, hy, hleft⟩ := hx.exists_runOn hproper clock
  have hends := Request.fails hx.sound.valid hx.keepsHeaders hrequest
  exact hends.runOn_any clock (hleft ▸ hy.sound.valid) hyears e hfails

/-- A user who holds a feed subscribes to an address that is not known to lead there. -/
def holdingPending : List Action :=
  holding ++
    [.start (.subscribe "http://b.com/" 1), .call 4, .read 4 .epoch, .call 4, .call 4]

/-- What the address has been found to lead to is remembered although the subscription to it cannot
be bound. -/
theorem failure_leaves_store_holdingPending : ∃ x : System, ∃ s : Store, x.Reachable ∧
    (Request.resolve 2 "http://a.com/rss.xml").operation.runOn (fun _ => .epoch) x.store =
      (.error (.duplicateSubscription 1 1), s) ∧ s.InYears ∧
    x.store.mappings.length = 2 ∧ s.mappings.length = 3 ∧
    (Request.resolve 2 "http://a.com/rss.xml").Leaves x.store (.duplicateSubscription 1 1) s := by
  have hproper : ∀ a ∈ holdingPending, a.Proper := by
    simp [holdingPending, holding, Action.Proper, Request.Proper]
  let resolving := (Request.resolve 2 "http://a.com/rss.xml").operation
  have hplay : (initial.play holdingPending).map (fun x =>
      let ends := resolving.runOn (fun _ => .epoch) x.store
      (ends.1, ends.2.stamps.all fun text => (Stamp.decode text).toBool,
        x.store.mappings.length, ends.2.mappings.length)) =
      some (.error (.duplicateSubscription 1 1), true, 2, 3) := by
    decide +kernel
  obtain ⟨x, hx, hends⟩ := Option.map_eq_some_iff.1 hplay
  obtain ⟨hfails, hstamps, hbefore, hafter⟩ := by simpa only [Prod.mk.injEq] using hends
  have hreachable : x.Reachable := runs_of_play hproper hx
  have hyears := Store.inYears_of_decode (List.all_eq_true.1 hstamps)
  exact ⟨x, _, hreachable, Prod.ext hfails rfl, hyears, hbefore, hafter,
    (failure_leaves_store hreachable (by simp) (fun _ => .epoch) hyears hfails).2⟩

end System

end Syndication
