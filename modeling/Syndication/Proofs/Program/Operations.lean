import Syndication.Proofs.Program.Ensures
import Syndication.Store.Subscriptions
/-!
# The steps of operations

What an operation ensures, computed down to its calls and the times it reads, in whatever
surroundings.
-/

namespace Syndication.Store

open Operation

variable {σ : Type} {w : Surroundings σ} {allowed : σ → Call → Prop} {x : σ}

/-! ## Mappings and feeds -/

theorem ensures_recordMapping {source target : String}
    {post : σ → Except StoreError Mapping → Prop} :
    (recordMapping source target).Ensures w allowed post x ↔ ∀ t y, w.reads x t y →
      allowed y (.addMapping source target t.truncate.stamp) ∧
        ∀ m z, w.answers y (.addMapping source target t.truncate.stamp) m z →
          post z (MappingRow.load ⟨m, source, target, t.truncate.stamp⟩) := by
  unfold recordMapping recordMappingAt
  rw [ensures_bind, ensures_now]
  refine forall_congr' fun t => forall_congr' fun y => imp_congr_right fun _ => ?_
  rw [continues_ok, ensures_bind, ensures_call]
  rfl

theorem ensures_getOrCreateFeed {url : String} {post : σ → Except StoreError Feed → Prop} :
    (getOrCreateFeed url).Ensures w allowed post x ↔ ∀ t y, w.reads x t y →
      allowed y (.ensureFeed url t.truncate.stamp) ∧
        ∀ row z, w.answers y (.ensureFeed url t.truncate.stamp) row z →
          post z (FeedRow.load true row) := by
  unfold getOrCreateFeed
  rw [ensures_bind, ensures_now]
  refine forall_congr' fun t => forall_congr' fun y => imp_congr_right fun _ => ?_
  rw [continues_ok, ensures_bind, ensures_call]
  rfl

theorem ensures_loadFeed {detail : Bool} {row : Option FeedRow}
    {post : σ → Except StoreError (Option Feed) → Prop} :
    (loadFeed detail row).Ensures w allowed post x ↔
      post x (row.elim (.ok none) fun row => (row.load detail).map some) := by
  cases row with
  | none => rfl
  | some row =>
    unfold loadFeed
    rw [ensures_bind, ensures_loaded, Option.elim_some]
    cases row.load detail <;> rfl

theorem ensures_getFeed {id : Int} {detail : Bool}
    {post : σ → Except StoreError (Option Feed) → Prop} :
    (getFeed id detail).Ensures w allowed post x ↔ allowed x (.findFeed id) ∧
      ∀ row y, w.answers x (.findFeed id) row y →
        post y (row.elim (.ok none) fun row => (row.load detail).map some) := by
  unfold getFeed
  rw [ensures_bind, ensures_call]
  refine and_congr_right fun _ => forall_congr' fun row => forall_congr' fun y =>
    imp_congr_right fun _ => ?_
  exact ensures_loadFeed

theorem ensures_findFeedAt {url : String} {detail : Bool}
    {post : σ → Except StoreError (Option Feed) → Prop} :
    (findFeedAt url detail).Ensures w allowed post x ↔ allowed x (.findFeedAt url) ∧
      ∀ row y, w.answers x (.findFeedAt url) row y →
        post y (row.elim (.ok none) fun row => (row.load detail).map some) := by
  unfold findFeedAt
  rw [ensures_bind, ensures_call]
  refine and_congr_right fun _ => forall_congr' fun row => forall_congr' fun y =>
    imp_congr_right fun _ => ?_
  exact ensures_loadFeed

/-- What a transition ends with is settled by its call, unless the feed has moved: then the feed is
read again. -/
theorem ensures_transit_iff {id : Int} {t : Transition} {post : σ → Except StoreError Feed → Prop} :
    (transit id t).Ensures w allowed post x ↔ allowed x (.moveFeed id t) ∧
      ∀ outcome y, w.answers x (.moveFeed id t) outcome y →
        match outcome with
        | .missing => post y (.error (.feedNotFound id))
        | .failed e => post y (.error e)
        | .refused name => post y
          ((Status.load name).bind fun current => .error (.invalidTransition id current t.target))
        | .moved => allowed y (.findFeed id) ∧ ∀ row z, w.answers y (.findFeed id) row z →
          post z (row.elim (.error (.feedNotFound id)) (·.load true)) := by
  unfold transit
  rw [ensures_bind, ensures_call]
  refine and_congr_right fun _ => forall_congr' fun outcome => forall_congr' fun y =>
    imp_congr_right fun _ => ?_
  rw [continues_ok]
  cases outcome with
  | missing => rfl
  | failed e => rfl
  | refused name =>
    dsimp only
    rw [ensures_bind, ensures_loaded]
    cases Status.load name <;> rfl
  | moved =>
    dsimp only
    rw [ensures_bind, ensures_getFeed]
    refine and_congr_right fun _ => forall_congr' fun row => forall_congr' fun z =>
      imp_congr_right fun _ => ?_
    cases row with
    | none => rfl
    | some row =>
      rw [Option.elim_some, Option.elim_some]
      cases row.load true <;> rfl

/-- After its call a transition only reads. -/
theorem ensures_transit {id : Int} {t : Transition} {I : σ → Prop}
    (hmove : allowed x (.moveFeed id t))
    (hread : ∀ outcome y, w.answers x (.moveFeed id t) outcome y → I y ∧
      allowed y (.findFeed id) ∧ ∀ row z, w.answers y (.findFeed id) row z → I z) :
    (transit id t).Ensures w allowed (fun y _ => I y) x := by
  refine ensures_transit_iff.2 ⟨hmove, fun outcome y hy => ?_⟩
  obtain ⟨hI, hfind, hrow⟩ := hread outcome y hy
  cases outcome with
  | missing => exact hI
  | failed e => exact hI
  | refused name => exact hI
  | moved => exact ⟨hfind, hrow⟩

/-- What becomes of a crawl depends on the feed it finds: whether its update is a change and which
clock the feed gets is settled before the transition. -/
theorem ensures_finishCrawl {id : Int} {update : Feed.Update}
    {post : σ → Except StoreError Feed → Prop} :
    (finishCrawl id update).Ensures w allowed post x ↔ allowed x (.findFeed id) ∧
      ∀ row y, w.answers x (.findFeed id) row y →
        match row.elim (.ok none) fun row => (row.load true).map some with
        | .error e => post y (.error e)
        | .ok none => post y (.error (.feedNotFound id))
        | .ok (some feed) => ∀ t₁ y₁, w.reads y t₁ y₁ → ∀ t₂ y₂, w.reads y₁ t₂ y₂ →
          match Instant.advance? feed.updatedAt t₂.truncate with
          | none => post y₂ (.error .clockOverflow)
          | some next =>
            (transit id (.finish update
              (!update.fingerprint.agrees (feed.detail.elim .empty (·.fingerprint))) next.stamp
              t₁.truncate.stamp t₁.truncate)).Ensures w allowed post y₂ := by
  unfold finishCrawl
  rw [ensures_bind, ensures_getFeed]
  refine and_congr_right fun _ => forall_congr' fun row => forall_congr' fun y =>
    imp_congr_right fun _ => ?_
  generalize (row.elim (.ok none) fun row => (row.load true).map some : Except StoreError _) = found
  rcases found with e | _ | feed
  · rfl
  · rfl
  · rw [continues_ok]
    dsimp only
    rw [ensures_bind, ensures_now]
    refine forall_congr' fun t₁ => forall_congr' fun y₁ => imp_congr_right fun _ => ?_
    rw [continues_ok, ensures_bind, ensures_tickAfter]
    refine forall_congr' fun t₂ => forall_congr' fun y₂ => imp_congr_right fun _ => ?_
    cases Instant.advance? feed.updatedAt t₂.truncate with
    | none => rfl
    | some next => rfl

/-! ## Subscribing in parts -/

/-- Subscribing, once the row to insert is planned. -/
def subscribeAs (user : Int) (p : Planned) : Operation Subscription := do
  let time ← now
  match ← call (.insertRow p time.stamp) with
  | some (.new id) => getSubscription id user false
  | some (.existing _ feed) => throw (.duplicateSubscription user feed)
  | none => throw .noSuchFeed

/-- Subscribing, once it is known whether the address leads to a feed. -/
def subscribeTo (url : String) (user : Int) : Option Feed → Operation Subscription
  | none => subscribeAs user (.pending user url)
  | some feed => do
    let held ← loadAll false (← call (.subscriptionsTo user [feed.id]))
    if held.isEmpty then subscribeAs user (.bound user feed.id url)
    else throw (.duplicateSubscription user feed.id)

theorem subscribe_eq (url : String) (user : Int) :
    subscribe url user = (do
      let target ← call (.findTarget url)
      target.elim (subscribeTo url user none) fun target => do
        let feed ← findFeedAt target false
        subscribeTo url user feed) := by
  unfold subscribe findTarget
  refine congrArg (call (.findTarget url) >>= ·) (funext fun target => ?_)
  cases target with
  | none => rfl
  | some target =>
    refine congrArg (findFeedAt target false >>= ·) (funext fun feed => ?_)
    cases feed with
    | none => rfl
    | some feed =>
      refine congrArg (call (.subscriptionsTo user [feed.id]) >>= ·) (funext fun rows => ?_)
      refine congrArg (loadAll false rows >>= ·) (funext fun held => ?_)
      dsimp only
      split <;> rfl

/-! ## Subscriptions -/

theorem ensures_findSubscription {id : Int} {owner : Option Int} {detail : Bool}
    {post : σ → Except StoreError Subscription → Prop} :
    (findSubscription id owner detail).Ensures w allowed post x ↔
      allowed x (.findSubscription id owner) ∧
        ∀ row y, w.answers x (.findSubscription id owner) row y →
          post y (row.elim (.error (.subscriptionNotFound id)) (SubscriptionRow.load detail)) := by
  unfold findSubscription
  rw [ensures_bind, ensures_call]
  refine and_congr_right fun _ => forall_congr' fun row => forall_congr' fun y =>
    imp_congr_right fun _ => ?_
  cases row <;> rfl

theorem ensures_listSubscriptions {user : Int} {ids : Option (List Int)} {detail showPending : Bool}
    {post : σ → Except StoreError (List Subscription) → Prop} :
    (listSubscriptions user ids detail showPending).Ensures w allowed post x ↔
      allowed x (.listSubscriptions user ids showPending) ∧
        ∀ rows y, w.answers x (.listSubscriptions user ids showPending) rows y →
          post y (rows.mapM (SubscriptionRow.load detail)) := by
  unfold listSubscriptions
  rw [ensures_bind, ensures_call]
  rfl

/-- Subscribing to a list, once the rows to insert are planned. -/
def subscribePlanned (user : Int) (size : Nat) (feeds : List Feed) (held : List Subscription)
    (plan : List Planned) : Operation (List Subscription) := do
  let time ← now
  let outcomes ← insertPlanned plan size time
  let (created, raced) := sortOutcomes feeds time (plan.zip outcomes)
  let winners ← if raced.isEmpty then pure [] else listSubscriptions user (some raced) false true
  pure (dropRepeated ((held ++ created ++ winners).mergeSort addressOrder))

/-- What a list is subscribed to with: where its addresses lead, and what the user holds of that. -/
theorem ensures_subscribeAll {urls : List String} {user : Int} {size : Nat}
    {post : σ → Except StoreError (List Subscription) → Prop} :
    (subscribeAll urls user size).Ensures w allowed post x ↔
      if urls.isEmpty then post x (.ok []) else
        allowed x (.findTargets urls) ∧ ∀ targets y₁, w.answers x (.findTargets urls) targets y₁ →
          allowed y₁ (.findFeedsAt (targets.map (·.2)).eraseDups) ∧
          ∀ rows y₂, w.answers y₁ (.findFeedsAt (targets.map (·.2)).eraseDups) rows y₂ →
            match rows.mapM (FeedRow.load false) with
            | .error e => post y₂ (.error e)
            | .ok feeds => allowed y₂ (.subscriptionsTo user (feeds.map (·.id))) ∧
              ∀ rows y₃, w.answers y₂ (.subscriptionsTo user (feeds.map (·.id))) rows y₃ →
                match rows.mapM (SubscriptionRow.load false) with
                | .error e => post y₃ (.error e)
                | .ok held => (subscribePlanned user size feeds held
                    (Planned.list user (fun url => targets.lookup url)
                      (fun url => (feeds.find? fun f => f.url = url).map (·.id))
                      (held.filterMap (·.feedId)) urls)).Ensures w allowed post y₃ := by
  unfold subscribeAll findTargets
  split
  · rfl
  rw [ensures_bind]
  refine (ensures_call (c := .findTargets urls)).trans (and_congr_right fun _ =>
    forall_congr' fun targets => forall_congr' fun y₁ => imp_congr_right fun _ => ?_)
  rw [continues_ok, ensures_bind, ensures_call]
  refine and_congr_right fun _ => forall_congr' fun rows => forall_congr' fun y₂ =>
    imp_congr_right fun _ => ?_
  rw [continues_ok, ensures_bind, ensures_loaded]
  cases rows.mapM (FeedRow.load false) with
  | error e => rfl
  | ok feeds =>
    rw [continues_ok, ensures_bind, ensures_call]
    refine and_congr_right fun _ => forall_congr' fun rows => forall_congr' fun y₃ =>
      imp_congr_right fun _ => ?_
    rw [continues_ok, loadAll, ensures_bind, ensures_loaded]
    cases rows.mapM (SubscriptionRow.load false) <;> rfl

/-- A plan is inserted, and the rows of others that stand in its way are read. -/
theorem ensures_subscribePlanned {user : Int} {size : Nat} {feeds : List Feed}
    {held : List Subscription} {plan : List Planned}
    {post : σ → Except StoreError (List Subscription) → Prop} :
    (subscribePlanned user size feeds held plan).Ensures w allowed post x ↔
      ∀ t y₁, w.reads x t y₁ → allowed y₁ (.insertBatch plan size t.truncate.stamp) ∧
        ∀ outcome y₂, w.answers y₁ (.insertBatch plan size t.truncate.stamp) outcome y₂ →
          match outcome with
          | .error 0 => post y₂ (.error .noSuchFeed)
          | .error committed => post y₂ (.error (.partialBatch committed))
          | .ok outcomes =>
            match sortOutcomes feeds t.truncate (plan.zip outcomes) with
            | (created, raced) =>
              if raced.isEmpty then
                post y₂ (.ok (dropRepeated ((held ++ created).mergeSort addressOrder)))
              else
                allowed y₂ (.listSubscriptions user (some raced) true) ∧
                ∀ rows y₃, w.answers y₂ (.listSubscriptions user (some raced) true) rows y₃ →
                  post y₃ ((rows.mapM (SubscriptionRow.load false)).map fun winners =>
                    dropRepeated ((held ++ created ++ winners).mergeSort addressOrder)) := by
  unfold subscribePlanned insertPlanned
  rw [ensures_bind, ensures_now]
  refine forall_congr' fun t => forall_congr' fun y₁ => imp_congr_right fun _ => ?_
  rw [continues_ok, ensures_bind, ensures_bind, ensures_call]
  refine and_congr_right fun _ => forall_congr' fun outcome => forall_congr' fun y₂ =>
    imp_congr_right fun _ => ?_
  rw [continues_ok]
  rcases outcome with (_ | committed) | outcomes
  · rfl
  · rfl
  · dsimp only
    rw [ensures_pure, continues_ok]
    split
    · rw [ensures_bind, ensures_pure, continues_ok, List.append_nil]
      rfl
    · rw [ensures_bind, ensures_listSubscriptions]
      refine and_congr_right fun _ => forall_congr' fun rows => forall_congr' fun y₃ =>
        imp_congr_right fun _ => continues_pure

/-- Resolving, once the subscription has been found unbound. -/
def resolveUnbound (id : Int) (target : String) (a : Subscription) : Operation Subscription := do
  let _ ← recordMapping a.url target
  let feed ← getOrCreateFeed target
  let next ← tickAfter a.updatedAt
  match ← call (.bind id feed.id feed.status next.stamp) with
  | .bound => getSubscription id a.user false
  | .stale => throw (.alreadyBound id)
  | .duplicate => throw (.duplicateSubscription a.user feed.id)

theorem ensures_resolve {id : Int} {target : String}
    {post : σ → Except StoreError Subscription → Prop} :
    (resolve id target).Ensures w allowed post x ↔ allowed x (.findSubscription id none) ∧
      ∀ row y, w.answers x (.findSubscription id none) row y →
        match row.elim (.error (.subscriptionNotFound id)) (SubscriptionRow.load false) with
        | .error e => post y (.error e)
        | .ok a =>
          if a.isBound then post y (.error (.alreadyBound id))
          else (resolveUnbound id target a).Ensures w allowed post y := by
  unfold resolve
  rw [ensures_bind, ensures_findSubscription]
  refine and_congr_right fun _ => forall_congr' fun row => forall_congr' fun y =>
    imp_congr_right fun _ => ?_
  generalize row.elim (.error (.subscriptionNotFound id)) (SubscriptionRow.load false) = found
  cases found with
  | error e => rfl
  | ok a =>
    rw [continues_ok]
    dsimp only
    split <;> rfl

/-- What an unbound subscription is resolved with: a mapping of its address, the feed at the target
and a clock that follows its own. -/
theorem ensures_resolveUnbound {id : Int} {target : String} {a : Subscription}
    {post : σ → Except StoreError Subscription → Prop} :
    (resolveUnbound id target a).Ensures w allowed post x ↔ ∀ t₁ y₁, w.reads x t₁ y₁ →
      allowed y₁ (.addMapping a.url target t₁.truncate.stamp) ∧
      ∀ m y₂, w.answers y₁ (.addMapping a.url target t₁.truncate.stamp) m y₂ →
        match MappingRow.load ⟨m, a.url, target, t₁.truncate.stamp⟩ with
        | .error e => post y₂ (.error e)
        | .ok _ => ∀ t₂ y₃, w.reads y₂ t₂ y₃ →
          allowed y₃ (.ensureFeed target t₂.truncate.stamp) ∧
          ∀ row y₄, w.answers y₃ (.ensureFeed target t₂.truncate.stamp) row y₄ →
            match row.load true with
            | .error e => post y₄ (.error e)
            | .ok feed => ∀ t₃ y₅, w.reads y₄ t₃ y₅ →
              match Instant.advance? a.updatedAt t₃.truncate with
              | none => post y₅ (.error .clockOverflow)
              | some next => allowed y₅ (.bind id feed.id feed.status next.stamp) ∧
                ∀ outcome y₆, w.answers y₅ (.bind id feed.id feed.status next.stamp) outcome y₆ →
                  match outcome with
                  | .bound => (getSubscription id a.user false).Ensures w allowed post y₆
                  | .stale => post y₆ (.error (.alreadyBound id))
                  | .duplicate => post y₆ (.error (.duplicateSubscription a.user feed.id)) := by
  unfold resolveUnbound
  rw [ensures_bind, ensures_recordMapping]
  refine forall_congr' fun t₁ => forall_congr' fun y₁ => imp_congr_right fun _ =>
    and_congr_right fun _ => forall_congr' fun m => forall_congr' fun y₂ =>
      imp_congr_right fun _ => ?_
  cases MappingRow.load ⟨m, a.url, target, t₁.truncate.stamp⟩ with
  | error e => rfl
  | ok mapping =>
    rw [continues_ok, ensures_bind, ensures_getOrCreateFeed]
    refine forall_congr' fun t₂ => forall_congr' fun y₃ => imp_congr_right fun _ =>
      and_congr_right fun _ => forall_congr' fun row => forall_congr' fun y₄ =>
        imp_congr_right fun _ => ?_
    cases FeedRow.load true row with
    | error e => rfl
    | ok feed =>
      rw [continues_ok, ensures_bind, ensures_tickAfter]
      refine forall_congr' fun t₃ => forall_congr' fun y₅ => imp_congr_right fun _ => ?_
      cases Instant.advance? a.updatedAt t₃.truncate with
      | none => rfl
      | some next =>
        rw [Option.elim_some, continues_ok, ensures_bind, ensures_call]
        refine and_congr_right fun _ => forall_congr' fun outcome => forall_congr' fun y₆ =>
          imp_congr_right fun _ => ?_
        rw [continues_ok]
        cases outcome <;> rfl

theorem runFindSubscription_eq {s : Store} {r : SubscriptionRow}
    (hr : s.subscription? r.id = some r) :
    Call.runFindSubscription r.id (some r.user) s = some (s.withFeed r) := by
  rw [Call.runFindSubscription, hr, Option.filter_some, if_pos (by simp), Option.map_some]

/-- Whose subscription is read is found as it is stored. -/
theorem ensures_getSubscription {x : Store × (Nat → Instant)} {r : SubscriptionRow}
    (hr : x.1.subscription? r.id = some r) {detail : Bool}
    {post : Store × (Nat → Instant) → Except StoreError Subscription → Prop}
    (hpost : post x (SubscriptionRow.load detail (x.1.withFeed r))) :
    (getSubscription r.id r.user detail).Ensures .timed (fun _ _ => True) post x := by
  refine ensures_findSubscription.2 ⟨True.intro, fun row y hcall => ?_⟩
  obtain rfl : x = y := hcall.2
  obtain rfl : some (x.1.withFeed r) = row := (runFindSubscription_eq hr).symm.trans hcall.1
  exact hpost

theorem runOn_getSubscription {s : Store} {r : SubscriptionRow} (hr : s.subscription? r.id = some r)
    (detail : Bool) (clock : Nat → Instant) :
    (getSubscription r.id r.user detail).runOn clock s =
      (SubscriptionRow.load detail (s.withFeed r), s) := by
  have hget : (getSubscription r.id r.user detail).Ensures .timed (fun _ _ => True)
      (fun x a => (a, x.1) = (SubscriptionRow.load detail (s.withFeed r), s)) (s, clock) :=
    ensures_getSubscription hr rfl
  exact hget.runOn_eq

end Syndication.Store
