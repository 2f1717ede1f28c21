import Syndication.Proofs.Program.System
/-!
# Users do not see each other

A request that a user makes about subscriptions makes only calls that are the user's own
(`Call.IsOf`, `Request.serves`). Such a call answers by what is shared and by the user's own
subscriptions (`Call.sameFor_run`) and leaves everything else as it is (`Call.spares_run`).
Therefore, on two stores that differ only in what other users have, and in snapshots, a request
gives the same answer or the same error, with subscriptions of the user only, and nobody else's
subscriptions change (`Request.isolates`).
-/

namespace Syndication

/-! ## What is a user's own -/

/-- A call that is made for a user about subscriptions, or that reads what all users share. -/
def Call.IsOf (user : Int) : Call → Prop
  | .findTarget _ | .findTargets _ | .findFeedAt _ | .findFeedsAt _ => True
  | .findSubscription _ owner => owner = some user
  | .listSubscriptions u _ _ | .subscriptionsTo u _ | .clocks u _ => u = user
  | .insertRow row _ => row.user = user
  | .insertBatch rows _ _ => ∀ row ∈ rows, row.user = user
  | .deleteSubscription _ u | .swapOffset _ u _ _ _ => u = user
  | _ => False

/-- The user whose subscriptions a request is about. -/
def Request.user? : Request → Option Int
  | .subscribe _ user | .subscribeAll _ user _ | .getSubscription _ user _ | .unsubscribe _ user
  | .sync user _ | .setOffset _ user _ => some user
  | _ => none

/-- The subscriptions that a reply returns. -/
def Reply.returned : Reply → List Subscription
  | .subscription a => [a]
  | .subscriptions all => all
  | .sync answer => answer.subscriptions
  | _ => []

namespace Store

/-- The subscriptions of a user. -/
def ownedBy (s : Store) (user : Int) : List SubscriptionRow :=
  s.subscriptions.filter fun r => r.user = user

/-- Two stores differ at most in snapshots and in subscriptions of others than the user. -/
structure SameFor (user : Int) (s t : Store) : Prop where
  mappings : s.mappings = t.mappings
  feeds : s.feeds = t.feeds
  lastId : s.lastSubscriptionId = t.lastSubscriptionId
  owned : s.ownedBy user = t.ownedBy user

instance (user : Int) (s t : Store) : Decidable (s.SameFor user t) :=
  decidable_of_iff (s.mappings = t.mappings ∧ s.feeds = t.feeds ∧
      s.lastSubscriptionId = t.lastSubscriptionId ∧ s.ownedBy user = t.ownedBy user)
    ⟨fun ⟨mappings, feeds, lastId, owned⟩ => ⟨mappings, feeds, lastId, owned⟩,
      fun h => ⟨h.mappings, h.feeds, h.lastId, h.owned⟩⟩

/-- Nothing has changed but subscriptions of the user. -/
structure Spares (user : Int) (s s' : Store) : Prop where
  mappings : s'.mappings = s.mappings
  feeds : s'.feeds = s.feeds
  snapshots : s'.snapshots = s.snapshots
  others : s'.subscriptions.filter (fun r => r.user ≠ user) =
    s.subscriptions.filter fun r => r.user ≠ user

variable {s s' t u : Store} {user : Int}

theorem Spares.refl (user : Int) (s : Store) : s.Spares user s := ⟨rfl, rfl, rfl, rfl⟩

theorem Spares.trans (h : s.Spares user t) (h' : t.Spares user u) : s.Spares user u :=
  ⟨h'.mappings.trans h.mappings, h'.feeds.trans h.feeds, h'.snapshots.trans h.snapshots,
    h'.others.trans h.others⟩

/-! ## Reading -/

theorem mem_ownedBy {r : SubscriptionRow} :
    r ∈ s.ownedBy user ↔ r ∈ s.subscriptions ∧ r.user = user := by
  simp [ownedBy]

theorem filter_owned (s : Store) (user : Int) (p : SubscriptionRow → Bool) :
    s.subscriptions.filter (fun r => r.user = user && p r) = (s.ownedBy user).filter p := by
  rw [ownedBy, List.filter_filter]
  simp only [Bool.and_comm]

theorem any_owned (s : Store) (user : Int) (p : SubscriptionRow → Bool) :
    s.subscriptions.any (fun r => r.user = user && p r) = (s.ownedBy user).any p := by
  rw [ownedBy, List.any_filter]

theorem holder?_eq (s : Store) (user feed : Int) :
    s.holder? user feed = (s.ownedBy user).find? fun r => r.feedId = some feed := by
  rw [holder?, ownedBy, List.find?_filter]
  simp

theorem Valid.find?_ownedBy (h : s.Valid) (user id : Int) :
    (s.subscription? id).filter (fun r => r.user = user) =
      (s.ownedBy user).find? fun r => r.id = id := by
  have howned : ((s.ownedBy user).map (·.id)).Nodup :=
    h.subscriptionIds.sublist (List.filter_sublist.map _)
  ext r
  rw [Option.filter_eq_some_iff, h.subscription?_eq_some, find?_key_eq_some howned, mem_ownedBy,
    decide_eq_true_eq, and_right_comm]

namespace SameFor

theorem withFeed (h : SameFor user s t) : s.withFeed = t.withFeed := by
  funext r
  unfold Store.withFeed feed?
  rw [h.feeds]

theorem visible (h : SameFor user s t) (showPending : Bool) :
    s.visible user showPending = t.visible user showPending := by
  rw [Store.visible, Store.visible, filter_owned, filter_owned, h.owned]

/-! ## Inserting -/

theorem addSubscription (h : SameFor user s t) (row : Planned) (stamp : String) :
    SameFor user (s.addSubscription row stamp) (t.addSubscription row stamp) where
  mappings := h.mappings
  feeds := h.feeds
  lastId := congrArg (· + 1) h.lastId
  owned := by
    simp only [ownedBy, Store.addSubscription, List.filter_append, h.lastId]
    exact congrArg (· ++ _) h.owned

theorem insertRow (h : SameFor user s t) {row : Planned} (hrow : row.user = user)
    (stamp : String) : Option.Rel (fun a b => a.1 = b.1 ∧ SameFor user a.2 b.2)
      (insertRow stamp s row) (insertRow stamp t row) := by
  have hadds : Option.Rel (fun a b => a.1 = b.1 ∧ SameFor user a.2 b.2)
      (some (Inserted.new (s.lastSubscriptionId + 1), s.addSubscription row stamp))
      (some (Inserted.new (t.lastSubscriptionId + 1), t.addSubscription row stamp)) :=
    .some ⟨by rw [h.lastId], h.addSubscription row stamp⟩
  unfold Store.insertRow
  cases row.feedId with
  | none => exact hadds
  | some f =>
    have hfeed : s.feed? f = t.feed? f := by rw [feed?, feed?, h.feeds]
    dsimp only
    rw [holder?_eq, holder?_eq, hrow, h.owned, hfeed]
    split
    · exact .some ⟨rfl, h⟩
    · split
      · exact hadds
      · exact .none

theorem insertChunk (h : SameFor user s t) {rows : List Planned}
    (hrows : ∀ row ∈ rows, row.user = user) (stamp : String) :
    Option.Rel (fun a b => a.1 = b.1 ∧ SameFor user a.2 b.2) (insertChunk stamp s rows)
      (insertChunk stamp t rows) := by
  induction rows generalizing s t with
  | nil => exact .some ⟨rfl, h⟩
  | cons row rows ih =>
    have hfirst := h.insertRow (hrows row List.mem_cons_self) stamp
    simp only [Store.insertChunk]
    generalize Store.insertRow stamp s row = a, Store.insertRow stamp t row = b at hfirst
    cases hfirst with
    | none => exact .none
    | @some a b hab =>
      obtain ⟨o, s'⟩ := a
      obtain ⟨o', t'⟩ := b
      obtain ⟨rfl, h'⟩ := hab
      have hrest := ih h' fun r hr => hrows r (List.mem_cons_of_mem _ hr)
      dsimp only [Option.bind_eq_bind, Option.bind_some]
      generalize Store.insertChunk stamp s' rows = a, Store.insertChunk stamp t' rows = b at hrest
      cases hrest with
      | none => exact .none
      | some hab => exact .some ⟨congrArg (o :: ·) hab.1, hab.2⟩

theorem insertBatch (h : SameFor user s t) {rows : List Planned}
    (hrows : ∀ row ∈ rows, row.user = user) (size : Nat) (stamp : String) :
    (s.insertBatch rows size stamp).1 = (t.insertBatch rows size stamp).1 ∧
      SameFor user (s.insertBatch rows size stamp).2 (t.insertBatch rows size stamp).2 := by
  have first {row : Planned} {rows : List Planned} (hrows : ∀ r ∈ row :: rows, r.user = user) :
      ∀ r ∈ row :: rows.take (size - 1), r.user = user :=
    fun r hr => hrows r (((List.take_sublist _ rows).cons_cons row).subset hr)
  unfold Store.insertBatch
  generalize ([] : List Inserted) = done
  fun_induction insertChunks stamp size done s rows generalizing t with
  | case1 done s =>
    rw [insertChunks]
    exact ⟨rfl, h⟩
  | case2 done s row rows outcomes s' hchunk ih =>
    have hrel := h.insertChunk (first hrows) stamp
    rw [hchunk] at hrel
    rw [insertChunks]
    generalize Store.insertChunk stamp t (row :: rows.take (size - 1)) = b at hrel
    cases hrel with
    | some hab =>
      obtain ⟨rfl, h'⟩ := hab
      exact ih h' fun r hr => hrows r (List.mem_cons_of_mem _ (List.mem_of_mem_drop hr))
  | case3 done s row rows hchunk =>
    have hrel := h.insertChunk (first hrows) stamp
    rw [hchunk] at hrel
    rw [insertChunks]
    generalize Store.insertChunk stamp t (row :: rows.take (size - 1)) = b at hrel
    cases hrel
    exact ⟨rfl, h⟩

end SameFor

/-! ## What stays of others -/

theorem spares_addSubscription (s : Store) (row : Planned) (stamp : String) :
    s.Spares row.user (s.addSubscription row stamp) where
  mappings := rfl
  feeds := rfl
  snapshots := rfl
  others := by simp [addSubscription]

theorem spares_insertRow {row : Planned} {stamp : String} {o : Inserted}
    (h : insertRow stamp s row = some (o, s')) : s.Spares row.user s' := by
  rcases insertRow_cases h with ⟨_, _, _, _, _, rfl⟩ | ⟨-, -, rfl⟩
  · exact .refl _ _
  · exact s.spares_addSubscription row stamp

end Store

namespace Call

variable {s t : Store} {user : Int} {c : Call}

theorem isOwned_eq (id user : Int) : isOwned id user = fun r => r.user = user && r.id = id :=
  funext fun _ => Bool.and_comm ..

/-- An edit that leaves rows with their users leaves them where they are found by user. -/
theorem filter_map_user {edit : SubscriptionRow → SubscriptionRow}
    (hedit : ∀ r, (edit r).user = r.user) (p : Int → Bool) (rows : List SubscriptionRow) :
    (rows.map edit).filter (fun r => p r.user) = (rows.filter fun r => p r.user).map edit := by
  rw [List.filter_map]
  exact congrArg (List.map edit) (List.filter_congr fun r _ => congrArg p (hedit r))

/-- **What a call for a user answers and does** depends on what is shared and on what the user has;
in stores with distinct ids, nobody else's subscriptions come in between. -/
theorem sameFor_run (hc : c.IsOf user) (hs : s.Valid) (ht : t.Valid) (h : s.SameFor user t) :
    (c.run s).1 = (c.run t).1 ∧ (c.run s).2.SameFor user (c.run t).2 := by
  cases c with
  | findTarget source =>
    refine ⟨?_, h⟩
    simp only [run, Store.mapping?, h.mappings]
  | findTargets sources =>
    refine ⟨?_, h⟩
    simp only [run, Store.mappingsOf, h.mappings]
  | findFeedAt url =>
    refine ⟨?_, h⟩
    simp only [run, Store.feedAt?, h.feeds]
  | findFeedsAt urls =>
    refine ⟨?_, h⟩
    simp only [run, runFindFeedsAt, h.feeds]
  | findSubscription id owner =>
    obtain rfl : owner = some user := hc
    refine ⟨?_, h⟩
    simp only [run, runFindSubscription, Option.all_some, hs.find?_ownedBy, ht.find?_ownedBy,
      h.owned, h.withFeed]
  | listSubscriptions u ids showPending =>
    obtain rfl : u = user := hc
    refine ⟨?_, h⟩
    simp only [run, runListSubscriptions, h.visible, h.withFeed]
  | subscriptionsTo u feeds =>
    obtain rfl : u = user := hc
    refine ⟨?_, h⟩
    simp only [run, runSubscriptionsTo, Store.filter_owned, h.owned, h.withFeed]
  | clocks u showPending =>
    obtain rfl : u = user := hc
    refine ⟨?_, h⟩
    simp only [run, h.visible]
  | insertRow row stamp =>
    have hrel := h.insertRow hc stamp
    simp only [run, runInsertRow]
    generalize Store.insertRow stamp s row = a, Store.insertRow stamp t row = b at hrel
    cases hrel with
    | none => exact ⟨rfl, h⟩
    | some hab => exact ⟨congrArg some hab.1, hab.2⟩
  | insertBatch rows size stamp => exact h.insertBatch hc size stamp
  | deleteSubscription id u =>
    obtain rfl : u = user := hc
    refine ⟨?_, h.mappings, h.feeds, h.lastId, ?_⟩
    · simp only [run, runDeleteSubscription, isOwned_eq, Store.any_owned, h.owned]
    · simp only [run, runDeleteSubscription, Store.ownedBy]
      rw [List.filter_comm, List.filter_comm _ _ t.subscriptions]
      exact congrArg (List.filter _) h.owned
  | swapOffset id u offset seen stamp =>
    obtain rfl : u = user := hc
    refine ⟨?_, h.mappings, h.feeds, h.lastId, ?_⟩
    · simp only [run, runSwapOffset, isOwned_eq, Bool.and_assoc, Store.any_owned, h.owned]
    · simp only [run, runSwapOffset, Store.ownedBy]
      rw [filter_map_user (fun r => by split <;> rfl) (· = u),
        filter_map_user (fun r => by split <;> rfl) (· = u)]
      exact congrArg (List.map _) h.owned
  | _ => exact hc.elim

/-- **A call for a user leaves what is shared, and what others have.** -/
theorem spares_run (hc : c.IsOf user) (s : Store) : s.Spares user (c.run s).2 := by
  cases c with
  | insertRow row stamp =>
    obtain rfl : row.user = user := hc
    simp only [run, runInsertRow]
    split
    · next hleft => exact Store.spares_insertRow hleft
    · exact .refl _ _
  | insertBatch rows size stamp =>
    refine Store.insertBatch_induction (.refl user) (fun _ _ _ => .trans) rows size ?_ s
    exact fun row hrow s o t hleft => hc row hrow ▸ Store.spares_insertRow hleft
  | deleteSubscription id u =>
    obtain rfl : u = user := hc
    refine ⟨rfl, rfl, rfl, ?_⟩
    simp only [run, runDeleteSubscription, List.filter_filter]
    refine List.filter_congr fun r _ => ?_
    by_cases hu : r.user = u <;> simp [isOwned, hu]
  | swapOffset id u offset seen stamp =>
    obtain rfl : u = user := hc
    refine ⟨rfl, rfl, rfl, ?_⟩
    simp only [run, runSwapOffset]
    rw [filter_map_user (fun r => by split <;> rfl) (· ≠ u)]
    refine (List.map_congr_left fun r hr => ?_).trans (List.map_id _)
    have hu : r.user ≠ u := by simpa using (List.mem_filter.1 hr).2
    simp [isOwned, hu]
  | addMapping | ensureFeed | findFeed | moveFeed | addSnapshot | lastSnapshot | bind =>
    exact hc.elim
  | _ => exact .refl _ _

end Call

/-! ## Operations of a user -/

namespace Operation

variable {α β : Type} {user : Int} {post : α → Prop} {post' : β → Prop}

/-- Alone with any store, an operation makes only calls that are the user's own, and gives such
results only. -/
def Serves (user : Int) (post : α → Prop) (op : Operation α) : Prop :=
  ∀ s, op.Ensures (.alone fun _ => True) (fun _ c => c.IsOf user)
    (fun _ r => ∀ a, r = .ok a → post a) s

theorem serves_pure {a : α} (h : post a) : (pure a : Operation α).Serves user post :=
  fun _ => ensures_pure.2 fun _ ha => Except.ok.inj ha ▸ h

theorem serves_throw {e : StoreError} : (throw e : Operation α).Serves user post :=
  fun _ => ensures_throw.2 fun _ ha => by cases ha

theorem serves_loaded {v : Except StoreError α} (h : ∀ a, v = .ok a → post a) :
    (loaded v).Serves user post :=
  fun _ => ensures_loaded.2 h

theorem serves_now : now.Serves user fun _ => True :=
  fun _ => ensures_now.2 fun _ _ _ _ _ => True.intro

theorem serves_tickAfter (previous : Instant) :
    (tickAfter previous).Serves user fun _ => True :=
  fun _ => ensures_tickAfter.2 fun _ _ _ _ _ => True.intro

theorem Serves.bind {op : Operation α} {f : α → Operation β} (h : op.Serves user post)
    (hf : ∀ a, post a → (f a).Serves user post') : (op >>= f).Serves user post' :=
  fun s => (h s).bind (fun s' a ha => hf a (ha a rfl) s') fun _ _ _ _ hb => by cases hb

/-- A call of the user and what comes after what it answers on some store. -/
theorem serves_call_bind {c : Call} {f : c.Answer → Operation β} (hc : c.IsOf user)
    (hf : ∀ s a, (c.run s).1 = a → (f a).Serves user post') : (call c >>= f).Serves user post' :=
  fun s => ensures_bind.2 (ensures_call.2 ⟨hc, fun a s' hanswer => hf s a hanswer.1 s'⟩)

theorem Serves.map {op : Operation α} {g : α → β} (h : op.Serves user post)
    (hg : ∀ a, post a → post' (g a)) : (g <$> op).Serves user post' :=
  Serves.bind h fun a ha => serves_pure (hg a ha)

end Operation

namespace Store

open Operation

variable {user : Int}

/-! ## Whose subscriptions are returned -/

theorem user_of_listSubscriptions {s : Store} {ids : Option (List Int)} {showPending : Bool} :
    ∀ row ∈ Call.runListSubscriptions user ids showPending s, row.1.user = user := by
  intro row hrow
  obtain ⟨r, hr, rfl⟩ := List.mem_map.1 hrow
  exact (mem_visible.1 (List.mem_of_mem_filter hr)).2.1

theorem user_of_subscriptionsTo {s : Store} {feeds : List Int} :
    ∀ row ∈ Call.runSubscriptionsTo user feeds s, row.1.user = user := by
  intro row hrow
  obtain ⟨r, hr, rfl⟩ := List.mem_map.1 hrow
  have hr' := (List.mem_filter.1 (List.mem_mergeSort.1 hr)).2
  simp only [Bool.and_eq_true, decide_eq_true_eq] at hr'
  exact hr'.1

theorem user_of_load {detail : Bool} {rows : List (SubscriptionRow × Option FeedRow)}
    (hrows : ∀ row ∈ rows, row.1.user = user) {all : List Subscription}
    (h : rows.mapM (SubscriptionRow.load detail) = .ok all) : ∀ a ∈ all, a.user = user := by
  intro a ha
  obtain ⟨row, hrow, hload⟩ := forall₂_right (mapM_eq_ok.1 h) ha
  exact (SubscriptionRow.load_eq_ok.1 hload).user.trans (hrows row hrow)

theorem user_of_sortOutcomes (feeds : List Feed) (time : Instant)
    {settled : List (Planned × Inserted)} (h : ∀ p ∈ settled, p.1.user = user) :
    ∀ a ∈ (sortOutcomes feeds time settled).1, a.user = user := by
  induction settled with
  | nil => simp [sortOutcomes]
  | cons p settled ih =>
    obtain ⟨row, outcome⟩ := p
    have hrest := ih fun q hq => h q (List.mem_cons_of_mem _ hq)
    cases outcome with
    | new id => exact List.forall_mem_cons.2 ⟨h _ List.mem_cons_self, hrest⟩
    | existing id feed => exact hrest

theorem mem_of_mem_dropRepeated {all : List Subscription} {a : Subscription}
    (h : a ∈ dropRepeated all) : a ∈ all := by
  induction all with
  | nil => exact h
  | cons b all ih =>
    rw [dropRepeated] at h
    cases hrest : dropRepeated all with
    | nil =>
      rw [hrest] at h
      exact List.mem_cons.2 (.inl (List.mem_singleton.1 h))
    | cons next others =>
      rw [hrest] at h ih
      dsimp only at h
      split at h
      · rcases List.mem_cons.1 h with rfl | h
        · exact List.mem_cons_self
        · exact List.mem_cons_of_mem _ (ih (List.mem_cons_of_mem _ h))
      · rcases List.mem_cons.1 h with rfl | h
        · exact List.mem_cons_self
        · exact List.mem_cons_of_mem _ (ih h)

/-! ## The operations -/

theorem serves_getSubscription (id user : Int) (detail : Bool) :
    (getSubscription id user detail).Serves user fun a => a.user = user := by
  refine serves_call_bind rfl fun s row hrow => ?_
  cases row with
  | none => exact serves_throw
  | some row => exact serves_loaded fun a ha =>
      (SubscriptionRow.load_eq_ok.1 ha).user.trans (user_of_findSubscription hrow)

theorem serves_listSubscriptions (user : Int) (ids : Option (List Int))
    (detail showPending : Bool) : (listSubscriptions user ids detail showPending).Serves user
      fun all => ∀ a ∈ all, a.user = user := by
  refine serves_call_bind rfl fun s rows hrows => serves_loaded fun all hall => ?_
  subst hrows
  exact user_of_load user_of_listSubscriptions hall

theorem serves_subscribeAs (user : Int) {p : Planned} (h : p.user = user) :
    (subscribeAs user p).Serves user fun a => a.user = user := by
  refine serves_now.bind fun time _ => serves_call_bind h fun _ outcome _ => ?_
  rcases outcome with _ | ⟨id | ⟨id, feed⟩⟩
  · exact serves_throw
  · exact serves_getSubscription id user false
  · exact serves_throw

theorem serves_subscribeTo (url : String) (user : Int) (feed : Option Feed) :
    (subscribeTo url user feed).Serves user fun a => a.user = user := by
  cases feed with
  | none => exact serves_subscribeAs user rfl
  | some feed =>
    refine serves_call_bind rfl fun _ rows _ => ?_
    refine (serves_loaded fun _ _ => True.intro).bind fun held _ => ?_
    split
    · exact serves_subscribeAs user rfl
    · exact serves_throw

theorem serves_findFeedAt (url : String) (detail : Bool) :
    (findFeedAt url detail).Serves user fun _ => True := by
  refine serves_call_bind True.intro fun _ row _ => ?_
  cases row with
  | none => exact serves_pure True.intro
  | some row => exact (serves_loaded fun _ _ => True.intro).bind fun f _ => serves_pure True.intro

theorem serves_subscribe (url : String) (user : Int) :
    (subscribe url user).Serves user fun a => a.user = user := by
  rw [subscribe_eq]
  refine serves_call_bind True.intro fun _ target _ => ?_
  cases target with
  | none => exact serves_subscribeTo url user none
  | some target =>
    exact (serves_findFeedAt target false).bind fun feed _ => serves_subscribeTo url user feed

theorem serves_insertPlanned {rows : List Planned} (h : ∀ row ∈ rows, row.user = user)
    (size : Nat) (time : Instant) : (insertPlanned rows size time).Serves user fun _ => True := by
  refine serves_call_bind h fun _ outcome _ => ?_
  rcases outcome with (_ | committed) | outcomes
  · exact serves_throw
  · exact serves_throw
  · exact serves_pure True.intro

theorem serves_subscribeAll (urls : List String) (user : Int) (size : Nat) :
    (subscribeAll urls user size).Serves user fun all => ∀ a ∈ all, a.user = user := by
  unfold subscribeAll
  split
  · exact serves_pure (by simp)
  refine serves_call_bind True.intro fun _ targets _ => ?_
  refine serves_call_bind True.intro fun _ rows _ => ?_
  refine (serves_loaded fun _ _ => True.intro).bind fun feeds _ => ?_
  refine serves_call_bind rfl fun s rows hrows => ?_
  subst hrows
  refine (serves_loaded fun held hheld => user_of_load user_of_subscriptionsTo hheld).bind
    fun held hheld => serves_now.bind fun time _ => ?_
  have hplan : ∀ row ∈ Planned.list user (fun url => targets.lookup url)
      (fun url => (feeds.find? fun f => f.url = url).map (·.id)) (held.filterMap (·.feedId)) urls,
      row.user = user := by
    intro row hrow
    obtain ⟨url, -, ⟨f, -, rfl⟩ | rfl⟩ := Planned.mem_listFrom hrow <;> rfl
  refine (serves_insertPlanned hplan size time).bind fun outcomes _ => ?_
  have hcreated := user_of_sortOutcomes feeds time
    fun p (hp : p ∈ List.zip _ outcomes) => hplan p.1 (List.of_mem_zip hp).1
  generalize sortOutcomes feeds time _ = sorted at hcreated ⊢
  obtain ⟨created, raced⟩ := sorted
  have hanswer {winners : List Subscription} (hwinners : ∀ a ∈ winners, a.user = user) :
      ∀ a ∈ dropRepeated ((held ++ created ++ winners).mergeSort addressOrder), a.user = user := by
    intro a ha
    have hmem := List.mem_mergeSort.1 (mem_of_mem_dropRepeated ha)
    simp only [List.mem_append] at hmem
    rcases hmem with (hmem | hmem) | hmem
    · exact hheld a hmem
    · exact hcreated a hmem
    · exact hwinners a hmem
  dsimp only
  split
  · exact (serves_pure (by simp)).bind fun winners hwinners => serves_pure (hanswer hwinners)
  · exact (serves_listSubscriptions user _ false true).bind fun winners hwinners =>
      serves_pure (hanswer hwinners)

theorem serves_unsubscribe (id user : Int) :
    (unsubscribe id user).Serves user fun _ => True := by
  refine serves_call_bind rfl fun _ deleted _ => ?_
  cases deleted with
  | true => exact serves_pure True.intro
  | false => exact serves_throw

theorem serves_sync (user : Int) (query : SyncQuery) :
    (sync user query).Serves user fun answer => ∀ a ∈ answer.subscriptions, a.user = user := by
  have hsorted {all : List Subscription} (hall : ∀ a ∈ all, a.user = user) :
      ∀ a ∈ Sync.sortByRecency all, a.user = user := fun a ha => hall a (List.mem_mergeSort.1 ha)
  unfold sync
  split
  · exact (serves_listSubscriptions user none _ _).bind fun all hall => serves_pure (hsorted hall)
  · refine serves_call_bind rfl fun _ rows _ => ?_
    refine (serves_loaded fun _ _ => True.intro).bind fun clocks _ => ?_
    dsimp only
    split
    · exact (serves_pure (by simp)).bind fun stale hstale => serves_pure (hsorted hstale)
    · exact (serves_listSubscriptions user _ _ _).bind fun stale hstale =>
        serves_pure (hsorted hstale)

theorem serves_setOffsetWithin (id user offset : Int) (attempts : Nat) :
    (setOffsetWithin id user offset attempts).Serves user fun a => a.user = user := by
  induction attempts with
  | zero => exact serves_throw
  | succ attempts ih =>
    refine (serves_getSubscription id user false).bind fun current hcurrent => ?_
    refine (serves_tickAfter current.updatedAt).bind fun next _ => ?_
    refine serves_call_bind rfl fun _ swapped _ => ?_
    cases swapped with
    | true => exact serves_pure hcurrent
    | false => exact ih

end Store

/-- **A request about a user's subscriptions** makes only calls of the user, and returns nobody
else's subscriptions. -/
theorem Request.serves {request : Request} {user : Int} (h : request.user? = some user) :
    request.operation.Serves user fun reply => ∀ a ∈ reply.returned, a.user = user := by
  cases request with
  | subscribe url u =>
    obtain rfl := Option.some.inj h
    exact (Store.serves_subscribe url u).map fun a ha => by simpa [Reply.returned] using ha
  | subscribeAll urls u size =>
    obtain rfl := Option.some.inj h
    exact (Store.serves_subscribeAll urls u size).map fun all hall => hall
  | getSubscription id u detail =>
    obtain rfl := Option.some.inj h
    exact (Store.serves_getSubscription id u detail).map fun a ha => by
      simpa [Reply.returned] using ha
  | unsubscribe id u =>
    obtain rfl := Option.some.inj h
    exact (Store.serves_unsubscribe id u).map fun _ _ => by simp [Reply.returned]
  | sync u query =>
    obtain rfl := Option.some.inj h
    exact (Store.serves_sync u query).map fun answer hanswer => hanswer
  | setOffset id u offset =>
    obtain rfl := Option.some.inj h
    exact (Store.serves_setOffsetWithin id u offset _).map fun a ha => by
      simpa [Reply.returned] using ha
  | _ => cases h

/-! ## Two stores that a user cannot tell apart -/

/-- Whoever makes only calls of a user, on two stores that differ only in what others have, sees the
same and does the same to both. -/
theorem Program.Ensures.isolated_runOn {α : Type} {allowed : List Event → Call → Prop}
    {post : List Event → α → Prop} {post' : Store → α → Prop} {user : Int}
    (hproper : ∀ past c, allowed past c → c.Proper) {p : Program α} {past : List Event}
    (hp : Ensures .recorded allowed post past p) (clock : Nat → Instant) {s t : Store}
    (hown : Ensures (.alone fun _ => True) (fun _ c => c.IsOf user) post' s p) (hs : s.Valid)
    (ht : t.Valid) (h : s.SameFor user t) :
    (p.runOn clock s).1 = (p.runOn clock t).1 ∧
      (p.runOn clock s).2.SameFor user (p.runOn clock t).2 ∧
      s.Spares user (p.runOn clock s).2 ∧ t.Spares user (p.runOn clock t).2 := by
  induction p generalizing past s t clock with
  | done a => exact ⟨rfl, h, .refl user s, .refl user t⟩
  | call c next ih =>
    obtain ⟨hc, hnext⟩ := hown
    have hknown (s : Store) : c.BindsKnown s := by
      cases c with
      | bind => exact hc.elim
      | _ => exact True.intro
    obtain ⟨hanswer, hsame⟩ := Call.sameFor_run hc hs ht h
    have hs' := Call.valid_run hs (hproper past c hp.1) (hknown s)
    have ht' := Call.valid_run ht (hproper past c hp.1) (hknown t)
    obtain ⟨hresult, hends, hspares, hspares'⟩ :=
      ih _ (hp.2 _ _ rfl) clock (hnext _ _ ⟨rfl, rfl⟩) hs' ht' hsame
    simp only [Program.runOn]
    rw [← hanswer]
    exact ⟨hresult, hends, (Call.spares_run hc s).trans hspares,
      (Call.spares_run hc t).trans hspares'⟩
  | clock next ih => exact ih _ (hp _ _ rfl) _ (hown _ _ ⟨True.intro, rfl⟩) hs ht h

/-- **Users are isolated.** On two stores that differ only in snapshots and in what other users
have, a request about a user's subscriptions, with whatever ids, gives the same result or the same
error at the same times, and afterwards they differ no more than that; every subscription it returns
is the user's, and it changes neither subscriptions of others nor feeds, snapshots or mappings. -/
theorem Request.isolates {request : Request} {user : Int} (hrequest : request.user? = some user)
    {s t : Store} (hs : s.Valid) (ht : t.Valid) (h : s.SameFor user t) (clock : Nat → Instant) :
    (request.operation.runOn clock s).1 = (request.operation.runOn clock t).1 ∧
      (request.operation.runOn clock s).2.SameFor user (request.operation.runOn clock t).2 ∧
      (∀ reply, (request.operation.runOn clock s).1 = .ok reply →
        ∀ a ∈ reply.returned, a.user = user) ∧
      s.Spares user (request.operation.runOn clock s).2 ∧
      t.Spares user (request.operation.runOn clock t).2 := by
  have hproper : request.Proper := by
    cases request with
    | insertPlanned => cases hrequest
    | _ => exact True.intro
  obtain ⟨hresult, hends, hspares, hspares'⟩ :=
    Program.Ensures.isolated_runOn (fun _ _ => Request.Allowed.proper)
      (Request.ensures_allowed hproper) clock (Request.serves hrequest s) hs ht h
  exact ⟨hresult, hends, (Request.serves hrequest s).runOn_any clock, hspares, hspares'⟩

/-- A stranger subscribes before the first user does. -/
def System.strangerFirst (stranger : Int) : List Action :=
  [.start (.subscribe "http://a.com/" stranger), .call 0, .read 0 .epoch, .call 0,
    .start (.subscribe "http://b.com/" 1), .call 1, .read 1 .epoch, .call 1]

/-- Whether the subscription of a stranger that a user tries to delete is there cannot be told. -/
theorem Request.isolates_strangers : ∃ s t : Store, s.Valid ∧ t.Valid ∧ s.SameFor 1 t ∧
    s.subscriptions.map (fun r => (r.id, r.user)) = [(1, 2), (2, 1)] ∧
    t.subscriptions.map (fun r => (r.id, r.user)) = [(2, 1)] ∧
    (∀ clock, ((unsubscribe 1 1).operation.runOn clock s).1 =
      ((unsubscribe 1 1).operation.runOn clock t).1) ∧
    ∀ clock, s.Spares 1 ((unsubscribe 1 1).operation.runOn clock s).2 := by
  let leaving : List Action := [.start (.unsubscribe 1 3), .call 2]
  have hproper (stranger : Int) : ∀ a ∈ System.strangerFirst stranger ++ leaving, a.Proper := by
    simp [System.strangerFirst, leaving, Action.Proper, Request.Proper]
  have hplay : ((System.initial.play (System.strangerFirst 2)).bind fun x =>
      (System.initial.play (System.strangerFirst 3 ++ leaving)).map fun y =>
        (x.store.subscriptions.map (fun r => (r.id, r.user)),
          y.store.subscriptions.map (fun r => (r.id, r.user)),
          decide (x.store.SameFor 1 y.store))) = some ([(1, 2), (2, 1)], [(2, 1)], true) := by
    decide +kernel
  obtain ⟨x, hx, hrest⟩ := Option.bind_eq_some_iff.1 hplay
  obtain ⟨y, hy, hends⟩ := Option.map_eq_some_iff.1 hrest
  obtain ⟨hrows, hrows', hsame⟩ := by simpa only [Prod.mk.injEq] using hends
  have hvalid : x.store.Valid := (System.Reachable.sound (System.runs_of_play
    (fun a ha => hproper 2 a (List.mem_append_left _ ha)) hx)).valid
  have hvalid' : y.store.Valid :=
    (System.Reachable.sound (System.runs_of_play (hproper 3) hy)).valid
  have hrequest : (unsubscribe 1 1).user? = some 1 := rfl
  have hisolates := Request.isolates hrequest hvalid hvalid' (of_decide_eq_true hsame)
  exact ⟨x.store, y.store, hvalid, hvalid', of_decide_eq_true hsame, hrows, hrows',
    fun clock => (hisolates clock).1, fun clock => (hisolates clock).2.2.2.1⟩

end Syndication
